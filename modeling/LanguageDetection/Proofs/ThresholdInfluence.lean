import LanguageDetection.Proofs.Acceptance
import LanguageDetection.Proofs.Envelope

/-!
# What the thresholds have influence on

Two thresholds decide what is found in a text: the one for binary data and the cap.  Thresholds that
agree on them give classifications that differ in the confidences at most (`Classification.Alike`),
and the confidences differ by the number of tokens asked for only.  The tolerance is asked by a
verdict, and the two confidences that a mismatch is worded by are asked by its headline alone.

The ranking is built twice from the same features, with two length factors.  `related_rank` carries
a relation between the candidates of the two over to the rankings and their tops, so that what the
candidates have in common and how their confidences compare is shown candidate by candidate.
-/

namespace LanguageDetection

/-! ## Arithmetic that keeps the order -/

namespace Scalar

/-- Scalars whose operations round in a way that keeps the order, as exact scalars do and those of
the program.  Comparisons are stated by what is not less, as some scalars cannot be compared. -/
class RoundsInOrder (α : Type) [Scalar α] : Prop extends RatioAntitone α where
  lt_irrefl : ∀ a : α, ¬ a < a
  not_one_lt_zero : ¬ (ofNat 1 : α) < ofNat 0
  not_ratio_lt_zero : ∀ {part whole : Nat}, 0 < whole →
    ¬ (ofNat part / ofNat whole : α) < ofNat 0
  /-- A factor that is not negative keeps the order of the products. -/
  not_mul_lt_mul : ∀ {a b c : α}, ¬ a < ofNat 0 → ¬ b < ofNat 0 → ¬ c < b → ¬ a * c < a * b

instance : RoundsInOrder Rat where
  lt_irrefl := lt_irrefl
  not_one_lt_zero := by simp
  not_ratio_lt_zero := by
    intro part whole _
    rw [rat_ofNat, rat_ofNat, rat_ofNat, Nat.cast_zero]
    exact not_lt.mpr (div_nonneg (Nat.cast_nonneg part) (Nat.cast_nonneg whole))
  not_mul_lt_mul := by
    intro a b c ha _ hbc
    rw [rat_ofNat, Nat.cast_zero, not_lt] at ha
    exact not_lt.mpr (mul_le_mul_of_nonneg_left (not_lt.mp hbc) ha)

end Scalar

variable {α : Type} [Scalar α]

section Confidence

variable [Scalar.RoundsInOrder α]

/-- A share is not negative. -/
lemma LanguageFeatures.not_share_lt_zero (found : LanguageFeatures α) (positiveTotal : α) :
    ¬ found.share positiveTotal < Scalar.ofNat 0 := by
  have hirrefl := Scalar.RoundsInOrder.lt_irrefl (Scalar.ofNat 0 : α)
  unfold share
  split
  · unfold Scalar.clamp
    split
    · exact hirrefl
    · next hlow =>
      split
      · exact Scalar.RoundsInOrder.not_one_lt_zero
      · exact hlow
  · exact hirrefl

/-- What a text is too short for leaves a factor that is not negative. -/
lemma Classification.not_lengthFactor_lt_zero (thresholds : Thresholds α) (tokenCount : Nat) :
    ¬ lengthFactor thresholds tokenCount < Scalar.ofNat 0 := by
  have hpos : 0 < max thresholds.minTokensForFullConfidence 1 :=
    lt_of_lt_of_le one_pos (le_max_right _ _)
  unfold lengthFactor Scalar.min
  split
  · exact Scalar.RoundsInOrder.not_one_lt_zero
  · exact Scalar.RoundsInOrder.not_ratio_lt_zero hpos

/-- The more tokens are asked for, the less of full confidence is left. -/
lemma Classification.not_lengthFactor_lt {a b : Thresholds α}
    (h : a.minTokensForFullConfidence ≤ b.minTokensForFullConfidence) (tokenCount : Nat) :
    ¬ lengthFactor a tokenCount < lengthFactor b tokenCount := by
  have hpos : 0 < max a.minTokensForFullConfidence 1 :=
    lt_of_lt_of_le one_pos (le_max_right _ _)
  have hle : max a.minTokensForFullConfidence 1 ≤ max b.minTokensForFullConfidence 1 :=
    max_le_max_right 1 h
  have hratio : ∀ {threshold : α},
      threshold < Scalar.ofNat tokenCount / Scalar.ofNat (max b.minTokensForFullConfidence 1) →
        threshold < Scalar.ofNat tokenCount / Scalar.ofNat (max a.minTokensForFullConfidence 1) :=
    Scalar.RatioAntitone.lt_ratio hpos hle
  unfold lengthFactor Scalar.min
  split <;> split
  · exact Scalar.RoundsInOrder.lt_irrefl _
  · next hless => exact hless
  · next hless hmore => exact absurd (hratio hmore) hless
  · exact fun hlt => Scalar.RoundsInOrder.lt_irrefl _ (hratio hlt)

end Confidence

/-! ## Classifications with the same scores -/

/-- Candidates that differ in their confidence at most. -/
structure Candidate.Alike (a b : Candidate α) : Prop where
  language_eq : a.language = b.language
  rawScore_eq : a.rawScore = b.rawScore
  strongHits_eq : a.strongHits = b.strongHits
  evidence_eq : a.evidence = b.evidence

omit [Scalar α] in
lemma Candidate.Alike.refl (a : Candidate α) : a.Alike a :=
  ⟨rfl, rfl, rfl, rfl⟩

/-- The length of the text bears on the confidence only. -/
lemma Classification.alike_candidateOf (positiveTotal lengthFactor lengthFactor' : α)
    (found : LanguageFeatures α) :
    (candidateOf positiveTotal lengthFactor found).Alike
      (candidateOf positiveTotal lengthFactor' found) :=
  ⟨rfl, rfl, rfl, rfl⟩

/-- Classifications that differ in the confidences of their candidates at most, and these in the way
that a relation says. -/
structure Classification.Related (R : Candidate α → Candidate α → Prop)
    (a b : Classification α) : Prop where
  inconclusive_eq : a.inconclusive = b.inconclusive
  tokenCount_eq : a.tokenCount = b.tokenCount
  top : R a.top b.top
  ranked : List.Forall₂ R a.ranked b.ranked

/-- Classifications that differ in the confidences of their candidates at most. -/
abbrev Classification.Alike (a b : Classification α) : Prop :=
  Related Candidate.Alike a b

namespace Classification

variable {R : Candidate α → Candidate α → Prop}

/-- Two classifications without a ranking are related if nothing on top is related to itself. -/
lemma related_ofReason (hunknown : R .unknown .unknown) {ranked ranked' : List (Candidate α)}
    (hranked : List.Forall₂ R ranked ranked') (reason : Inconclusive) (tokenCount : Nat) :
    Related R (ofReason reason ranked tokenCount) (ofReason reason ranked' tokenCount) :=
  ⟨rfl, rfl, hunknown, hranked⟩

omit [Scalar α] in
/-- The first elements of related lists are related, if those in their stead are. -/
lemma related_head?_getD {a b : Candidate α} (hab : R a b) {l l' : List (Candidate α)}
    (h : List.Forall₂ R l l') : R (l.head?.getD a) (l'.head?.getD b) := by
  cases h with
  | nil => exact hab
  | cons hhead _ => exact hhead

/-- What relates the candidates of the same features relates the rankings. -/
theorem related_rank {a b : Thresholds α} {found : Features α} (hunknown : R .unknown .unknown)
    (hcandidate : ∀ l : LanguageFeatures α,
      R (candidateOf found.positiveTotal (lengthFactor a found.tokenCount) l)
        (candidateOf found.positiveTotal (lengthFactor b found.tokenCount) l)) :
    Related R (rank a found) (rank b found) := by
  have hranked : List.Forall₂ R
      ((ranking found.languages).map
        (candidateOf found.positiveTotal (lengthFactor a found.tokenCount)))
      ((ranking found.languages).map
        (candidateOf found.positiveTotal (lengthFactor b found.tokenCount))) := by
    rw [List.forall₂_map_left_iff, List.forall₂_map_right_iff, List.forall₂_same]
    exact fun l _ => hcandidate l
  unfold rank
  dsimp only
  split
  · exact related_ofReason hunknown hranked _ _
  · exact ⟨rfl, rfl, related_head?_getD hunknown hranked, hranked⟩

end Classification

section Classifications

variable {catalog : Catalog} {a b : Thresholds α} {text : List Char} {hint : Option String}

/-- What is found in a text depends on the cap only. -/
lemma features_eq_of_cap_eq (hcap : a.cap = b.cap) (catalog : Catalog) (text : List Char)
    (hint : Option String) : features catalog a text hint = features catalog b text hint := by
  refine Features.ext ?_ ?_
  · rw [features_languages, features_languages, hcap]
  · rw [features_tokenCount, features_tokenCount]

/-- What relates the candidates of the same features relates the classifications of a text. -/
theorem related_classify {R : Candidate α → Candidate α → Prop}
    (hbinary : a.binaryRatioThreshold = b.binaryRatioThreshold) (hcap : a.cap = b.cap)
    (hunknown : R .unknown .unknown)
    (hcandidate : ∀ (positiveTotal : α) (tokenCount : Nat) (l : LanguageFeatures α),
      R (Classification.candidateOf positiveTotal (Classification.lengthFactor a tokenCount) l)
        (Classification.candidateOf positiveTotal (Classification.lengthFactor b tokenCount) l)) :
    Classification.Related R (classify catalog a text hint) (classify catalog b text hint) := by
  unfold classify
  rw [hbinary, features_eq_of_cap_eq hcap]
  split
  · exact Classification.related_ofReason hunknown .nil _ _
  split
  · exact Classification.related_ofReason hunknown .nil _ _
  · exact Classification.related_rank hunknown (hcandidate _ _)

/-- Thresholds that agree on binary data and on the cap classify alike. -/
theorem alike_classify (hbinary : a.binaryRatioThreshold = b.binaryRatioThreshold)
    (hcap : a.cap = b.cap) :
    (classify catalog a text hint).Alike (classify catalog b text hint) :=
  related_classify hbinary hcap (.refl _) fun _ _ _ => Classification.alike_candidateOf _ _ _ _

/-- The more tokens are asked for, the less confidence there is. -/
theorem confidence_classify_not_lt [Scalar.RoundsInOrder α]
    (hbinary : a.binaryRatioThreshold = b.binaryRatioThreshold) (hcap : a.cap = b.cap)
    (hle : a.minTokensForFullConfidence ≤ b.minTokensForFullConfidence) :
    Classification.Related (fun x y => ¬ x.confidence < y.confidence)
      (classify catalog a text hint) (classify catalog b text hint) := by
  refine related_classify hbinary hcap (Scalar.RoundsInOrder.lt_irrefl _) ?_
  intro positiveTotal tokenCount l
  exact Scalar.RoundsInOrder.not_mul_lt_mul (l.not_share_lt_zero positiveTotal)
    (Classification.not_lengthFactor_lt_zero b tokenCount)
    (Classification.not_lengthFactor_lt hle tokenCount)

/-- Thresholds that agree on the number of tokens, too, give the same confidences. -/
theorem classify_eq_of_eq (hbinary : a.binaryRatioThreshold = b.binaryRatioThreshold)
    (hcap : a.cap = b.cap)
    (htokens : a.minTokensForFullConfidence = b.minTokensForFullConfidence) :
    classify catalog a text hint = classify catalog b text hint := by
  unfold classify
  rw [hbinary, features_eq_of_cap_eq hcap]
  unfold Classification.rank Classification.lengthFactor
  rw [htokens]

end Classifications

/-! ## Verdicts -/

section Places

variable {ranked ranked' : List (Candidate α)} (h : List.Forall₂ Candidate.Alike ranked ranked')

include h

omit [Scalar α] in
/-- The languages are at the same places. -/
lemma findIdx?_eq_of_alike (language : Language) :
    ranked.findIdx? (·.language = language) = ranked'.findIdx? (·.language = language) := by
  induction h with
  | nil => rfl
  | cons hhead _ ih => rw [List.findIdx?_cons, List.findIdx?_cons, hhead.language_eq, ih]

omit [Scalar α] in
/-- A condition on the score of a language holds in both. -/
lemma any_find?_eq_of_alike (language : Language) (p : α → Bool) :
    (ranked.find? (·.language = language)).any (fun candidate => p candidate.rawScore) =
      (ranked'.find? (·.language = language)).any (fun candidate => p candidate.rawScore) := by
  induction h with
  | nil => rfl
  | cons hhead _ ih =>
    rw [List.find?_cons, List.find?_cons, hhead.language_eq]
    split
    · exact congrArg p hhead.rawScore_eq
    · exact ih

end Places

namespace Verdict

variable {first second : Classification α} {a b : Thresholds α}

/-- With the same tolerance the same languages are accepted. -/
lemma accepts_eq_of_alike (h : first.Alike second) (declared : Language) (tolerance : α) :
    accepts declared first tolerance = accepts declared second tolerance := by
  unfold accepts Classification.rankOf? Classification.candidate?
  rw [findIdx?_eq_of_alike h.ranked, h.top.rawScore_eq]
  split
  · rfl
  · exact any_find?_eq_of_alike h.ranked declared fun score =>
      decide (tolerance * second.top.rawScore - scoreResolution ≤ score)
  · rfl

/-- With the same tolerance a verdict on classifications that are alike says the same about the
language. -/
theorem judge_eq_of_alike (h : first.Alike second)
    (htolerance : a.matchTolerance = b.matchTolerance) (declared : Language) :
    (judge declared first a).isMatch = (judge declared second b).isMatch ∧
      (judge declared first a).detected = (judge declared second b).detected := by
  unfold judge
  rw [h.inconclusive_eq]
  split
  · exact ⟨rfl, rfl⟩
  · exact ⟨rfl, rfl⟩
  · dsimp only
    rw [accepts_eq_of_alike h, htolerance]
    exact ⟨rfl, h.top.language_eq⟩

/-- A mismatch is worded by the medium and the low confidence, and nothing else depends on them. -/
lemma exists_judge_eq (declared : Language) (result : Classification α) (thresholds : Thresholds α)
    (medium low : α) :
    ∃ suggestions, judge declared result
        { thresholds with mediumConfidence := medium, lowConfidence := low } =
      { judge declared result thresholds with suggestions } := by
  refine ⟨(judge declared result
    { thresholds with mediumConfidence := medium, lowConfidence := low }).suggestions, ?_⟩
  unfold judge
  split <;> rfl

end Verdict

/-! ## The law of thresholds -/

/-- What two choices of thresholds have in common on a text. -/
structure ThresholdLaw (catalog : Catalog) (a b : Thresholds α) (text : List Char)
    (hint : Option String) : Prop where
  /-- Nothing but the confidences can differ. -/
  alike : (classify catalog a text hint).Alike (classify catalog b text hint)
  /-- Who asks for more tokens has no more confidence in any language. -/
  confidence_not_lt : ∀ [Scalar.RoundsInOrder α],
    a.minTokensForFullConfidence ≤ b.minTokensForFullConfidence →
      Classification.Related (fun x y => ¬ x.confidence < y.confidence)
        (classify catalog a text hint) (classify catalog b text hint)
  /-- The confidences differ by the number of tokens asked for only. -/
  eq_of_tokens : a.minTokensForFullConfidence = b.minTokensForFullConfidence →
    classify catalog a text hint = classify catalog b text hint
  /-- Where the tolerances are equal, too, the same declarations match. -/
  verdict_eq : a.matchTolerance = b.matchTolerance → ∀ declared,
    (Verdict.validate catalog a declared text hint).isMatch =
        (Verdict.validate catalog b declared text hint).isMatch ∧
      (Verdict.validate catalog a declared text hint).detected =
        (Verdict.validate catalog b declared text hint).detected
  /-- The medium and the low confidence bear on the suggestions alone. -/
  headline_only : ∀ medium low : α,
    let reworded := { a with mediumConfidence := medium, lowConfidence := low }
    classify catalog reworded text hint = classify catalog a text hint ∧ ∀ declared,
      let verdict := Verdict.validate catalog a declared text hint
      ∃ suggestions, Verdict.validate catalog reworded declared text hint =
        { verdict with suggestions }

/-- Only the threshold for binary data and the cap have influence on more than the confidences. -/
theorem thresholdLaw_classify (catalog : Catalog) (a b : Thresholds α) (text : List Char)
    (hint : Option String) (hbinary : a.binaryRatioThreshold = b.binaryRatioThreshold)
    (hcap : max 1 a.maxOccurrencesPerSignature = max 1 b.maxOccurrencesPerSignature) :
    ThresholdLaw catalog a b text hint := by
  have hcap' : a.cap = b.cap := by
    unfold Thresholds.cap
    rw [max_comm, hcap, max_comm]
  have halike : (classify catalog a text hint).Alike (classify catalog b text hint) :=
    alike_classify hbinary hcap'
  refine ⟨halike, confidence_classify_not_lt hbinary hcap', classify_eq_of_eq hbinary hcap', ?_, ?_⟩
  · intro htolerance declared
    exact Verdict.judge_eq_of_alike halike htolerance declared
  · intro medium low
    dsimp only
    have hclassify : classify catalog
        { a with mediumConfidence := medium, lowConfidence := low } text hint =
          classify catalog a text hint := classify_eq_of_eq rfl rfl rfl
    refine ⟨hclassify, ?_⟩
    intro declared
    unfold Verdict.validate
    rw [hclassify]
    exact Verdict.exists_judge_eq declared _ a medium low

/-- A cap of zero counts as one, and a thousand tokens leave less confidence than ten. -/
theorem thresholdLaw_fnMain :
    let few := { (Thresholds.default : Thresholds Rat) with maxOccurrencesPerSignature := 0 }
    let many := { (Thresholds.default : Thresholds Rat) with
      maxOccurrencesPerSignature := 1, minTokensForFullConfidence := 1000 }
    few.binaryRatioThreshold = many.binaryRatioThreshold ∧
      max 1 few.maxOccurrencesPerSignature = max 1 many.maxOccurrencesPerSignature ∧
      ThresholdLaw .builtin few many "fn main() {}".toList (some "rs") :=
  ⟨rfl, rfl, thresholdLaw_classify .builtin _ _ _ _ rfl rfl⟩

end LanguageDetection
