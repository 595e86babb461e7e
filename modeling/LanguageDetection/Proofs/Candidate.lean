import Mathlib.Data.Prod.Lex
import Mathlib.Data.String.Basic
import LanguageDetection.Classification
import LanguageDetection.Proofs.ExactScalar
import LanguageDetection.Proofs.Features
import LanguageDetection.Proofs.Sorting

/-!
# Candidates

What a candidate shows: the evidence for it, in order, and its confidence.
-/

namespace LanguageDetection

/-!
## Evidence

Evidence is listed in the order of a key: the contribution descending, then the label ascending.
One more hit is therefore one more item of the list, and the others keep their order.
-/

namespace Evidence

/-- What the list of evidence is sorted by. -/
def sortKey (evidence : Evidence Rat) : Ratᵒᵈ ×ₗ String :=
  toLex (OrderDual.toDual evidence.contribution, evidence.label)

/-- The list of evidence is in the order of the keys. -/
theorem precedes_iff {a b : Evidence Rat} : precedes a b = true ↔ a.sortKey ≤ b.sortKey := by
  unfold precedes sortKey
  rw [Prod.Lex.toLex_le_toLex]
  split
  · next hgreater =>
    simp [OrderDual.toDual_lt_toDual, hgreater]
  · next hle =>
    split
    · next hless =>
      simp [OrderDual.toDual_lt_toDual, hle, ne_of_lt hless]
    · next hge =>
      have hequal : a.contribution = b.contribution :=
        le_antisymm (not_lt.mp hle) (not_lt.mp hge)
      simp [hequal]

/-- The order of the evidence is transitive. -/
lemma precedes_trans (a b c : Evidence Rat) (hab : precedes a b = true)
    (hbc : precedes b c = true) : precedes a c = true := by
  rw [precedes_iff] at hab hbc ⊢
  exact hab.trans hbc

/-- Of two pieces of evidence one precedes the other. -/
lemma precedes_total (a b : Evidence Rat) : precedes a b = true ∨ precedes b a = true := by
  rw [precedes_iff, precedes_iff]
  exact le_total _ _

/-- Whether a hit speaks for its language, which is what a candidate shows. -/
def speaksFor (evidence : Evidence Rat) : Bool :=
  0 < evidence.contribution

end Evidence

namespace Classification

/-- A candidate shows the hits that speak for its language. -/
lemma evidence_candidateOf (positiveTotal lengthFactor : Rat) (found : LanguageFeatures Rat) :
    (candidateOf positiveTotal lengthFactor found).evidence =
      found.evidence.filter Evidence.speaksFor := by
  refine List.filter_congr fun item _ => ?_
  rw [Scalar.rat_ofNat, Nat.cast_zero]
  rfl

/-- One more hit that speaks for the language is one more item of the evidence. -/
theorem exists_evidence_candidateOf_append {found credited : LanguageFeatures Rat} {hit : Hit Rat}
    (hhits : credited.hits = found.hits ++ [hit]) (hpos : 0 < hit.contribution)
    (positiveTotal lengthFactor positiveTotal' lengthFactor' : Rat) :
    ∃ before after,
      (candidateOf positiveTotal' lengthFactor' credited).evidence =
        before ++ Evidence.ofHit hit :: after ∧
      (candidateOf positiveTotal lengthFactor found).evidence = before ++ after := by
  obtain ⟨before, after, hsort, hsplit⟩ := exists_sortBy_append_cons Evidence.precedes_trans
    Evidence.precedes_total (found.hits.map Evidence.ofHit) [] (Evidence.ofHit hit)
  have hspeaks : (Evidence.ofHit hit).speaksFor = true := decide_eq_true hpos
  refine ⟨before.filter Evidence.speaksFor, after.filter Evidence.speaksFor, ?_, ?_⟩
  · rw [evidence_candidateOf, LanguageFeatures.evidence, hhits, List.map_append,
      List.map_singleton, hsort, List.filter_append, List.filter_cons_of_pos hspeaks]
  · rw [evidence_candidateOf, LanguageFeatures.evidence, ← List.filter_append, hsplit,
      List.append_nil]

end Classification

/-!
## Confidence

The confidence of a language is its share of the positive scores, reduced for a short text.  Both
factors lie between 0 and 1, whatever the thresholds are.

The positive scores are half-integers, so their sum is either zero or far above the score
resolution (`scoreResolution_lt_positiveTotal_iff`): the resolution tells apart the texts with and
without a positive score, and no share is lost to it.
-/

/-! ### The length of the text -/

namespace Classification

/-- No text is too short for a confidence that is not negative. -/
lemma lengthFactor_nonneg (thresholds : Thresholds Rat) (tokenCount : Nat) :
    0 ≤ lengthFactor thresholds tokenCount := by
  have hquotient : (0 : Rat) ≤
      tokenCount / ((max thresholds.minTokensForFullConfidence 1 : Nat) : Rat) := by
    positivity
  unfold lengthFactor
  rw [Scalar.rat_min]
  exact le_min hquotient zero_le_one

/-- A long text is not worth more than a whole. -/
lemma lengthFactor_le_one (thresholds : Thresholds Rat) (tokenCount : Nat) :
    lengthFactor thresholds tokenCount ≤ 1 := by
  unfold lengthFactor
  rw [Scalar.rat_min]
  exact min_le_right _ _

/-- One token is enough for some confidence. -/
lemma lengthFactor_pos (thresholds : Thresholds Rat) {tokenCount : Nat} (h : 1 ≤ tokenCount) :
    0 < lengthFactor thresholds tokenCount := by
  have htokens : (0 : Rat) < tokenCount := by
    exact_mod_cast h
  have hminimum : (0 : Rat) < ((max thresholds.minTokensForFullConfidence 1 : Nat) : Rat) := by
    exact_mod_cast lt_of_lt_of_le one_pos (le_max_right thresholds.minTokensForFullConfidence 1)
  unfold lengthFactor
  rw [Scalar.rat_min]
  exact lt_min (div_pos htokens hminimum) one_pos

end Classification

/-! ### The sum of the positive scores -/

namespace Features

variable {found : Features Rat}

/-- No score exceeds the sum of the positive ones. -/
lemma max_rawScore_le_positiveTotal {l : LanguageFeatures Rat} (h : l ∈ found.languages) :
    max l.rawScore 0 ≤ found.positiveTotal := by
  rw [positiveTotal_eq_sum]
  refine List.single_le_sum (fun r hr => ?_) _ (List.mem_map_of_mem h)
  obtain ⟨other, -, rfl⟩ := List.mem_map.mp hr
  exact le_max_right _ _

/-- Without a positive score the sum is zero. -/
lemma positiveTotal_eq_zero (h : ∀ l ∈ found.languages, l.rawScore ≤ 0) :
    found.positiveTotal = 0 := by
  rw [positiveTotal_eq_sum]
  refine List.sum_eq_zero fun r hr => ?_
  obtain ⟨l, hl, rfl⟩ := List.mem_map.mp hr
  exact max_eq_right (h l hl)

/-- The sum exceeds the score resolution exactly if there is a positive score. -/
theorem scoreResolution_lt_positiveTotal_iff
    (hhalf : ∀ l ∈ found.languages, IsHalfInteger l.rawScore) :
    scoreResolution < found.positiveTotal ↔ ∃ l ∈ found.languages, 0 < l.rawScore := by
  constructor
  · intro htotal
    by_contra hnone
    push Not at hnone
    rw [positiveTotal_eq_zero hnone] at htotal
    exact lt_asymm scoreResolution_pos htotal
  · rintro ⟨l, hl, hpos⟩
    have hscore := (hhalf l hl).half_le hpos
    have htotal := max_rawScore_le_positiveTotal hl
    rw [max_eq_left (le_of_lt hpos)] at htotal
    norm_num [scoreResolution]
    linarith

/-- Below the score resolution no score is positive. -/
lemma rawScore_nonpos (hhalf : ∀ l ∈ found.languages, IsHalfInteger l.rawScore)
    (h : found.positiveTotal ≤ scoreResolution) {l : LanguageFeatures Rat}
    (hl : l ∈ found.languages) : l.rawScore ≤ 0 := by
  by_contra hpos
  have hsome := (scoreResolution_lt_positiveTotal_iff hhalf).mpr ⟨l, hl, not_le.mp hpos⟩
  exact absurd h (not_le.mpr hsome)

end Features

/-- The sum of the positive scores of a text tells whether there is one. -/
lemma scoreResolution_lt_positiveTotal_features_iff (thresholds : Thresholds Rat)
    (text : List Char) (hint : Option String) :
    scoreResolution < (features .builtin thresholds text hint).positiveTotal ↔
      ∃ l ∈ (features .builtin thresholds text hint).languages, 0 < l.rawScore :=
  Features.scoreResolution_lt_positiveTotal_iff fun _ hl =>
    (accounted_of_mem_features hl).isHalfInteger_rawScore

/-! ### Shares -/

namespace LanguageFeatures

/-- Below the score resolution nobody has a share. -/
lemma share_eq_zero (found : LanguageFeatures Rat) {positiveTotal : Rat}
    (h : positiveTotal ≤ scoreResolution) : found.share positiveTotal = 0 := by
  unfold share
  rw [if_neg (not_lt.mpr h), Scalar.rat_ofNat, Nat.cast_zero]

/-- Above the score resolution a share is a quotient, which needs no clamping. -/
lemma share_eq_div {found : LanguageFeatures Rat} {positiveTotal : Rat}
    (h : scoreResolution < positiveTotal) (hle : max found.rawScore 0 ≤ positiveTotal) :
    found.share positiveTotal = max found.rawScore 0 / positiveTotal := by
  have hpos : 0 < positiveTotal := scoreResolution_pos.trans h
  unfold share
  rw [if_pos h, Scalar.rat_max, Scalar.rat_ofNat, Scalar.rat_ofNat, Nat.cast_zero, Nat.cast_one]
  refine Scalar.rat_clamp_of_mem ?_ ?_
  · exact div_nonneg (le_max_right _ _) (le_of_lt hpos)
  · rw [div_le_one hpos]
    exact hle

/-- A share of the positive scores is not negative. -/
lemma share_nonneg {found : LanguageFeatures Rat} {positiveTotal : Rat}
    (hle : max found.rawScore 0 ≤ positiveTotal) : 0 ≤ found.share positiveTotal := by
  rcases le_or_gt positiveTotal scoreResolution with h | h
  · rw [share_eq_zero found h]
  · rw [share_eq_div h hle]
    exact div_nonneg (le_max_right _ _) ((le_max_right _ _).trans hle)

/-- A share of the positive scores is not more than all of them. -/
lemma share_le_one {found : LanguageFeatures Rat} {positiveTotal : Rat}
    (hle : max found.rawScore 0 ≤ positiveTotal) : found.share positiveTotal ≤ 1 := by
  rcases le_or_gt positiveTotal scoreResolution with h | h
  · rw [share_eq_zero found h]
    exact zero_le_one
  · rw [share_eq_div h hle, div_le_one (scoreResolution_pos.trans h)]
    exact hle

/-- A positive score has a share. -/
lemma share_pos {found : LanguageFeatures Rat} {positiveTotal : Rat}
    (h : scoreResolution < positiveTotal) (hle : max found.rawScore 0 ≤ positiveTotal)
    (hpos : 0 < found.rawScore) : 0 < found.share positiveTotal := by
  rw [share_eq_div h hle, max_eq_left (le_of_lt hpos)]
  exact div_pos hpos (scoreResolution_pos.trans h)

/-- A language whose score adds to the sum does not lose any of its share. -/
lemma share_le_share_of_gain {a b : LanguageFeatures Rat} {positiveTotal positiveTotal' : Rat}
    (hscore : max a.rawScore 0 ≤ max b.rawScore 0) (hle : max a.rawScore 0 ≤ positiveTotal)
    (hgain : positiveTotal' = positiveTotal + (max b.rawScore 0 - max a.rawScore 0)) :
    a.share positiveTotal ≤ b.share positiveTotal' := by
  have hle' : max b.rawScore 0 ≤ positiveTotal' := by linarith
  rcases le_or_gt positiveTotal scoreResolution with h | h
  · rw [share_eq_zero a h]
    exact share_nonneg hle'
  · have hpos : 0 < positiveTotal := scoreResolution_pos.trans h
    have hpos' : 0 < positiveTotal' := by linarith
    rw [share_eq_div h hle, share_eq_div (by linarith) hle', div_le_div_iff₀ hpos hpos', hgain]
    have hproduct := mul_nonneg (sub_nonneg.mpr hscore) (sub_nonneg.mpr hle)
    linarith

/-- What others gain is at the expense of everyone else's share. -/
lemma share_le_share_of_total_le {found : LanguageFeatures Rat}
    {positiveTotal positiveTotal' : Rat} (hle : max found.rawScore 0 ≤ positiveTotal)
    (htotal : positiveTotal ≤ positiveTotal')
    (hnone : positiveTotal ≤ scoreResolution → found.rawScore ≤ 0) :
    found.share positiveTotal' ≤ found.share positiveTotal := by
  have hle' : max found.rawScore 0 ≤ positiveTotal' := hle.trans htotal
  rcases le_or_gt positiveTotal' scoreResolution with h' | h'
  · rw [share_eq_zero found h']
    exact share_nonneg hle
  · rw [share_eq_div h' hle']
    rcases le_or_gt positiveTotal scoreResolution with h | h
    · rw [share_eq_zero found h, max_eq_right (hnone h), zero_div]
    · rw [share_eq_div h hle]
      exact div_le_div_of_nonneg_left (le_max_right _ _) (scoreResolution_pos.trans h) htotal

end LanguageFeatures

/-! ### Candidates -/

/-- A candidate that is listed with its features has a confidence between 0 and 1. -/
lemma confidence_candidateOf_mem_Icc {thresholds : Thresholds Rat} {found : Features Rat}
    {l : LanguageFeatures Rat} (h : l ∈ found.languages) :
    (Classification.candidateOf found.positiveTotal
      (Classification.lengthFactor thresholds found.tokenCount) l).confidence ∈ Set.Icc 0 1 := by
  have hle := Features.max_rawScore_le_positiveTotal h
  have hfactor := Classification.lengthFactor_nonneg thresholds found.tokenCount
  have hfactor' := Classification.lengthFactor_le_one thresholds found.tokenCount
  have hshare := LanguageFeatures.share_nonneg hle
  exact ⟨mul_nonneg hshare hfactor,
    mul_le_one₀ (LanguageFeatures.share_le_one hle) hfactor hfactor'⟩

end LanguageDetection
