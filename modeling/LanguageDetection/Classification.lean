import LanguageDetection.Features
import LanguageDetection.Text
import LanguageDetection.Thresholds

/-!
Classification: the ranking of all supported languages by the score of their signatures. The
result is inconclusive where a text is blank, binary or without any marker.
-/

namespace LanguageDetection

/-- Why no language could be told. -/
inductive Inconclusive where
  | emptyInput
  | binaryInput
  | noEvidence
deriving DecidableEq, Repr

namespace Inconclusive

/-- The identifier. -/
def id : Inconclusive → String
  | emptyInput => "empty_input"
  | binaryInput => "binary_input"
  | noEvidence => "no_evidence"

/-- The reason in words. -/
def describe : Inconclusive → String
  | emptyInput => "input is empty"
  | binaryInput => "input looks binary"
  | noEvidence => "no language markers found"

end Inconclusive

/-- A language with its score, the certainty from 0 to 1, and the evidence for it. -/
structure Candidate (α : Type) where
  language : Language
  rawScore : α
  confidence : α
  strongHits : Nat
  evidence : List (Evidence α)

/-- The candidate that stands for no language. -/
def Candidate.unknown {α : Type} [Scalar α] : Candidate α :=
  { language := .unknown, rawScore := Scalar.ofNat 0, confidence := Scalar.ofNat 0, strongHits := 0,
    evidence := [] }

/-- The ranking of a text. It is empty where the text was not scored. -/
structure Classification (α : Type) where
  top : Candidate α
  ranked : List (Candidate α)
  tokenCount : Nat
  inconclusive : Option Inconclusive

/-- Scores closer than this count as equal. -/
def scoreResolution {α : Type} [Scalar α] : α := Scalar.ofRat 0.000001

namespace LanguageFeatures

variable {α : Type} [Scalar α]

/-- The score in units of the resolution. -/
def scoreKey (features : LanguageFeatures α) : Int :=
  Scalar.round64 (features.rawScore / (scoreResolution : α))

/-- Whether `a` may be ranked before `b`: by score, then by strong hits, then by identifier. -/
def ranksBefore (a b : LanguageFeatures α) : Bool :=
  if a.scoreKey ≠ b.scoreKey then decide (b.scoreKey < a.scoreKey)
  else if a.strongHits ≠ b.strongHits then decide (b.strongHits < a.strongHits)
  else decide (a.language.id ≤ b.language.id)

/-- The share of the positive scores that is this language's, from 0 to 1. -/
def share (features : LanguageFeatures α) (positiveTotal : α) : α :=
  if (scoreResolution : α) < positiveTotal then
    Scalar.clamp (Scalar.ofNat 0) (Scalar.ofNat 1)
      (Scalar.max features.rawScore (Scalar.ofNat 0) / positiveTotal)
  else Scalar.ofNat 0

end LanguageFeatures

namespace Classification

variable {α : Type} [Scalar α]

/-- A result that names no language. -/
def ofReason (reason : Inconclusive) (ranked : List (Candidate α)) (tokenCount : Nat) :
    Classification α :=
  { top := .unknown, ranked, tokenCount, inconclusive := some reason }

/-- The detected language. -/
def language (classification : Classification α) : Language :=
  classification.top.language

/-- The confidence of the detected language. -/
def confidence (classification : Classification α) : α :=
  classification.top.confidence

/-- Whether no language could be told. -/
def isInconclusive (classification : Classification α) : Bool :=
  classification.inconclusive.isSome

/-- The candidate of a language. -/
def candidate? (classification : Classification α) (language : Language) : Option (Candidate α) :=
  classification.ranked.find? (·.language = language)

/-- The position of a language in the ranking, the first one being 0. -/
def rankOf? (classification : Classification α) (language : Language) : Option Nat :=
  classification.ranked.findIdx? (·.language = language)

/-- The share of full confidence that a text of this many tokens allows. -/
def lengthFactor (thresholds : Thresholds α) (tokenCount : Nat) : α :=
  Scalar.min
    (Scalar.ofNat tokenCount / Scalar.ofNat (max thresholds.minTokensForFullConfidence 1))
    (Scalar.ofNat 1)

/-- The candidate of a language, given the sum of all positive scores and the share of full
confidence allowed. -/
def candidateOf (positiveTotal lengthFactor : α) (features : LanguageFeatures α) : Candidate α :=
  { language := features.language
    rawScore := features.rawScore
    confidence := features.share positiveTotal * lengthFactor
    strongHits := features.strongHits
    evidence := features.evidence.filter (Scalar.ofNat 0 < ·.contribution) }

/-- The ranking that features give. -/
def rank (thresholds : Thresholds α) (features : Features α) : Classification α :=
  let positiveTotal := features.positiveTotal
  let lengthFactor := lengthFactor thresholds features.tokenCount
  let ranked := (sortBy LanguageFeatures.ranksBefore features.languages).map
    (candidateOf positiveTotal lengthFactor)
  if positiveTotal ≤ (scoreResolution : α) then ofReason .noEvidence ranked features.tokenCount
  else
    { top := ranked.head?.getD .unknown
      ranked
      tokenCount := features.tokenCount
      inconclusive := none }

end Classification

/-- The features that a text and an optional file extension are scored by. -/
def features {α : Type} [Scalar α] (catalog : Catalog) (thresholds : Thresholds α)
    (text : List Char) (hint : Option String) : Features α :=
  let found : Features α :=
    .extract catalog (max thresholds.maxOccurrencesPerSignature 1) (Characters.trim text)
  match hint with
  | some extension => found.creditExtension catalog extension
  | none => found

/-- The classification of a text. A file extension given as a hint is credited to its language. -/
def classify {α : Type} [Scalar α] (catalog : Catalog) (thresholds : Thresholds α)
    (text : List Char) (hint : Option String) : Classification α :=
  if (Characters.trim text).isEmpty then .ofReason .emptyInput [] 0
  else if looksBinary text thresholds.binaryRatioThreshold then .ofReason .binaryInput [] 0
  else .rank thresholds (features catalog thresholds text hint)

end LanguageDetection
