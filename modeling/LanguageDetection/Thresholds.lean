import LanguageDetection.Decimal
import LanguageDetection.Error
import LanguageDetection.Scalar

/-!
The thresholds that detection and validation work with, and what makes them unusable.
-/

namespace LanguageDetection

/-- The settings of detection and validation. -/
structure Thresholds (α : Type) where
  /-- The share of the top score from which on a second-ranked language is accepted. -/
  matchTolerance : α
  /-- The confidence from which on a mismatch names the detected language. -/
  mediumConfidence : α
  /-- The confidence below which a text counts as no language in particular. -/
  lowConfidence : α
  /-- The number of tokens from which on confidence is not reduced. -/
  minTokensForFullConfidence : Nat
  /-- How often one signature counts at most. -/
  maxOccurrencesPerSignature : Nat
  /-- The share of characters that do not print above which a text is binary. -/
  binaryRatioThreshold : α

/-- The thresholds used where none are set. -/
def Thresholds.default {α : Type} [Scalar α] : Thresholds α :=
  { matchTolerance := Scalar.ofRat 0.85
    mediumConfidence := Scalar.ofRat 0.4
    lowConfidence := Scalar.ofRat 0.15
    minTokensForFullConfidence := 10
    maxOccurrencesPerSignature := 5
    binaryRatioThreshold := Scalar.ofRat 0.1 }

instance {α : Type} [Scalar α] : Inhabited (Thresholds α) := ⟨Thresholds.default⟩

/-- What makes thresholds unusable. -/
inductive ThresholdFault (α : Type) where
  /-- A share that is not a number from 0 to 1. -/
  | ratioOutOfRange (name : String) (value : α)
  /-- The low confidence is above the medium one. -/
  | lowAboveMedium (low medium : α)
  /-- No occurrence of a signature would count. -/
  | noOccurrences
  /-- No token would be asked for. -/
  | noTokens

namespace ThresholdFault

/-- The fault in words. -/
def message : ThresholdFault Float → String
  | ratioOutOfRange name value =>
    name ++ " must be between 0.0 and 1.0, got " ++ Decimal.Layout.plain.text value
  | lowAboveMedium low medium =>
    "low_confidence (" ++ Decimal.Layout.plain.text low ++
      ") must not exceed medium_confidence (" ++ Decimal.Layout.plain.text medium ++ ")"
  | noOccurrences => "max_occurrences_per_signature must be at least 1"
  | noTokens => "min_tokens_for_full_confidence must be at least 1"

end ThresholdFault

namespace Thresholds

variable {α : Type} [Scalar α]

/-- Whether a share is a number from 0 to 1. -/
def isRatio (value : α) : Bool :=
  decide ((Scalar.ofNat 0 : α) ≤ value) && decide (value ≤ (Scalar.ofNat 1 : α))

/-- The first fault of the thresholds: a share out of range, in the order of the fields, comes
before shares in the wrong order, and those before counts of zero. -/
def fault? (thresholds : Thresholds α) : Option (ThresholdFault α) :=
  if !isRatio thresholds.matchTolerance then
    some (.ratioOutOfRange "match_tolerance" thresholds.matchTolerance)
  else if !isRatio thresholds.mediumConfidence then
    some (.ratioOutOfRange "medium_confidence" thresholds.mediumConfidence)
  else if !isRatio thresholds.lowConfidence then
    some (.ratioOutOfRange "low_confidence" thresholds.lowConfidence)
  else if !isRatio thresholds.binaryRatioThreshold then
    some (.ratioOutOfRange "binary_ratio_threshold" thresholds.binaryRatioThreshold)
  else if thresholds.mediumConfidence < thresholds.lowConfidence then
    some (.lowAboveMedium thresholds.lowConfidence thresholds.mediumConfidence)
  else if thresholds.maxOccurrencesPerSignature = 0 then some .noOccurrences
  else if thresholds.minTokensForFullConfidence = 0 then some .noTokens
  else none

/-- The thresholds if they are usable. -/
def check (thresholds : Thresholds Float) : Except Error (Thresholds Float) :=
  match thresholds.fault? with
  | some fault => .error (.configuration fault.message)
  | none => .ok thresholds

end Thresholds

end LanguageDetection
