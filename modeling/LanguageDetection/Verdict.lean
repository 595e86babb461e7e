import LanguageDetection.Classification

/-!
Verdicts: a declared language is held against the ranking of a text, and a mismatch is explained
by suggestions.
-/

namespace LanguageDetection

/-- Whether a text is of its declared language, and what it looks like otherwise. -/
structure Verdict (α : Type) where
  isMatch : Bool
  declared : Language
  detected : Language
  confidence : α
  suggestions : List String

namespace Verdict

variable {α : Type} [Scalar α]

/-- The number of markers that a mismatch quotes. -/
def quotedMarkers : Nat := 2

/-- The suggestion for a text that is no language in particular. -/
def noClearMatch : String :=
  "Content does not clearly match any supported language."

/-- Whether the declared language is ranked first, or second with a score within the tolerance of
the first. -/
def accepts (declared : Language) (classification : Classification α) (tolerance : α) : Bool :=
  match classification.rankOf? declared with
  | some 0 => true
  | some 1 =>
    (classification.candidate? declared).any fun candidate =>
      decide (tolerance * classification.top.rawScore - scoreResolution ≤ candidate.rawScore)
  | _ => false

/-- The first line of a mismatch, by the confidence of the detected language. -/
def headline (declared : Language) (classification : Classification α)
    (thresholds : Thresholds α) : String :=
  let detected := classification.language.displayName
  if thresholds.mediumConfidence ≤ classification.confidence then
    "This looks more like " ++ detected ++ " than " ++ declared.displayName ++ "."
  else if classification.confidence < thresholds.lowConfidence then noClearMatch
  else
    "Content might be " ++ detected ++ " rather than " ++ declared.displayName ++
      ", but the evidence is weak."

/-- The line that quotes a marker of the detected language. -/
def quote (detected : Language) (evidence : Evidence α) : String :=
  "Found " ++ evidence.label ++ " (" ++ evidence.markerClass.describe ++ " marker for " ++
    detected.displayName ++ ", matched " ++ toString evidence.count ++ "x)"

/-- The suggestions for a mismatch: the headline and the first markers found. -/
def mismatchSuggestions (declared : Language) (classification : Classification α)
    (thresholds : Thresholds α) : List String :=
  headline declared classification thresholds ::
    (classification.top.evidence.take quotedMarkers).map (quote classification.language)

/-- The verdict on a classification. A blank text is of every language, and a text that no
language could be told of is of the unknown one. -/
def judge (declared : Language) (classification : Classification α) (thresholds : Thresholds α) :
    Verdict α :=
  match classification.inconclusive with
  | some .emptyInput =>
    { isMatch := true, declared, detected := .unknown, confidence := Scalar.ofNat 0,
      suggestions := [] }
  | some _ =>
    { isMatch := declared.isUnknown, declared, detected := .unknown, confidence := Scalar.ofNat 0,
      suggestions := if declared.isUnknown then [] else [noClearMatch] }
  | none =>
    let isMatch := accepts declared classification thresholds.matchTolerance
    { isMatch, declared, detected := classification.language
      confidence := classification.confidence
      suggestions :=
        if isMatch then [] else mismatchSuggestions declared classification thresholds }

/-- The verdict on a text, with an optional file extension as a hint. -/
def validate (catalog : Catalog) (thresholds : Thresholds α) (declared : Language)
    (text : List Char) (hint : Option String) : Verdict α :=
  judge declared (classify catalog thresholds text hint) thresholds

end Verdict

end LanguageDetection
