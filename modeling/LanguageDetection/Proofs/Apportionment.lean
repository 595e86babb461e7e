import Mathlib.Algebra.BigOperators.Ring.List
import LanguageDetection.Proofs.Acceptance
import LanguageDetection.Proofs.Ranking

/-!
# How confidence is apportioned

The confidence of a language is its share of the positive scores, times the share of full confidence
that the number of tokens allows.  The shares of all languages add up to one (`sum_share`), whether
or not some scores are negative, and they follow the scores (`share_le_share`).

So the confidences of a conclusive text add up to what its length allows, they do not increase along
the ranking, and the first of the fifteen languages has at least a fifteenth of the sum
(`Classification.Apportioned`).
-/

namespace LanguageDetection

/-! ## Shares -/

namespace LanguageFeatures

variable {a b found : LanguageFeatures Rat} {positiveTotal : Rat}

/-- Shares follow the scores. -/
lemma share_le_share (hscore : a.rawScore ≤ b.rawScore) (hle : max b.rawScore 0 ≤ positiveTotal) :
    a.share positiveTotal ≤ b.share positiveTotal := by
  have hmax : max a.rawScore 0 ≤ max b.rawScore 0 := max_le_max_right 0 hscore
  rcases le_or_gt positiveTotal scoreResolution with h | h
  · rw [share_eq_zero a h, share_eq_zero b h]
  · rw [share_eq_div h (hmax.trans hle), share_eq_div h hle]
    exact div_le_div_of_nonneg_right hmax (le_of_lt (scoreResolution_pos.trans h))

/-- Where there is something to share, those without a positive score have no part in it. -/
lemma share_eq_zero_iff (h : scoreResolution < positiveTotal)
    (hle : max found.rawScore 0 ≤ positiveTotal) :
    found.share positiveTotal = 0 ↔ found.rawScore ≤ 0 := by
  have hpos : 0 < positiveTotal := scoreResolution_pos.trans h
  rw [share_eq_div h hle, div_eq_zero_iff, or_iff_left hpos.ne', max_eq_right_iff]

end LanguageFeatures

/-- All shares together are the whole. -/
theorem Features.sum_share {found : Features Rat} (h : scoreResolution < found.positiveTotal) :
    (found.languages.map fun l => l.share found.positiveTotal).sum = 1 := by
  have hpos : 0 < found.positiveTotal := scoreResolution_pos.trans h
  have hshare : (found.languages.map fun l => l.share found.positiveTotal) =
      found.languages.map fun l => max l.rawScore 0 * found.positiveTotal⁻¹ := by
    refine List.map_congr_left fun l hl => ?_
    rw [LanguageFeatures.share_eq_div h (Features.max_rawScore_le_positiveTotal hl), div_eq_mul_inv]
  rw [hshare, List.sum_map_mul_right, ← positiveTotal_eq_sum]
  exact mul_inv_cancel₀ hpos.ne'

/-! ## Confidence in a ranking -/

namespace Classification

variable {thresholds : Thresholds Rat} {found : Features Rat}

/-- What a number of tokens allows: one is enough where none is asked for. -/
lemma lengthFactor_eq_min (thresholds : Thresholds Rat) (tokenCount : Nat) :
    lengthFactor thresholds tokenCount =
      min 1 ((tokenCount : Rat) / (max 1 thresholds.minTokensForFullConfidence : Nat)) := by
  unfold lengthFactor
  rw [Scalar.rat_min, Scalar.rat_ofNat, Scalar.rat_ofNat, Scalar.rat_ofNat, Nat.cast_one, min_comm,
    Nat.max_comm]

/-- The candidates share what the length of the text allows. -/
theorem sum_confidence_rank (thresholds : Thresholds Rat)
    (h : scoreResolution < found.positiveTotal) :
    ((rank thresholds found).ranked.map (·.confidence)).sum =
      lengthFactor thresholds found.tokenCount := by
  have hconfidence : (rank thresholds found).ranked.map (·.confidence) =
      (ranking found.languages).map fun l =>
        l.share found.positiveTotal * lengthFactor thresholds found.tokenCount := by
    rw [rank_ranked, List.map_map]
    rfl
  have hperm := (ranking_perm found.languages).map fun l =>
    l.share found.positiveTotal * lengthFactor thresholds found.tokenCount
  rw [hconfidence, hperm.sum_eq, List.sum_map_mul_right, Features.sum_share h, one_mul]

/-- Nobody can have less than the average without somebody else having more. -/
lemma sum_le_length_mul_head {first : Candidate Rat} {rest : List (Candidate Rat)}
    (h : (first :: rest).Pairwise fun a b => b.confidence ≤ a.confidence) :
    ((first :: rest).map (·.confidence)).sum ≤ (first :: rest).length * first.confidence := by
  have hle : ∀ r ∈ (first :: rest).map (·.confidence), r ≤ first.confidence := by
    intro r hr
    obtain ⟨candidate, hcandidate, rfl⟩ := List.mem_map.mp hr
    rcases List.mem_cons.mp hcandidate with rfl | hrest
    · exact le_rfl
    · exact (List.pairwise_cons.mp h).1 candidate hrest
  have hsum := List.sum_le_card_nsmul _ _ hle
  rwa [List.length_map, nsmul_eq_mul] at hsum

/-- How confidence is apportioned among the candidates of a text that is scored. -/
structure Apportioned (thresholds : Thresholds Rat) (result : Classification Rat) : Prop where
  length_eq : result.ranked.length = 15
  mem_Icc : ∀ candidate ∈ result.ranked, 0 ≤ candidate.confidence ∧ candidate.confidence ≤ 1
  /-- Confidence does not increase along the ranking. -/
  pairwise_le : result.ranked.Pairwise fun a b => b.confidence ≤ a.confidence
  confidence_eq_zero_iff : result.inconclusive = none → ∀ candidate ∈ result.ranked,
    (candidate.confidence = 0 ↔ candidate.rawScore ≤ 0)
  /-- The candidates share what the length of the text allows. -/
  sum_confidence : result.inconclusive = none → (result.ranked.map (·.confidence)).sum =
    min 1 ((result.tokenCount : Rat) / (max 1 thresholds.minTokensForFullConfidence : Nat))
  /-- The first has at least the average. -/
  le_top_confidence : result.inconclusive = none →
    1 / 15 * min 1 ((result.tokenCount : Rat) /
        (max 1 thresholds.minTokensForFullConfidence : Nat)) ≤ result.top.confidence
  noEvidence : result.inconclusive = some .noEvidence →
    ∀ candidate ∈ result.ranked, candidate.confidence = 0

section Scored

variable {text : List Char} {hint : Option String}

/-- Every candidate is made of the features of a language. -/
lemma exists_of_mem_ranked {candidate : Candidate Rat}
    (h : candidate ∈ (rank thresholds found).ranked) : ∃ l ∈ found.languages,
      candidate = candidateOf found.positiveTotal (lengthFactor thresholds found.tokenCount) l := by
  rw [rank_ranked] at h
  obtain ⟨l, hl, rfl⟩ := List.mem_map.mp h
  exact ⟨l, (ranking_perm _).mem_iff.mp hl, rfl⟩

/-- Confidence follows the score. -/
lemma confidence_le_of_rawScore_le {a b : Candidate Rat} (ha : a ∈ (rank thresholds found).ranked)
    (hb : b ∈ (rank thresholds found).ranked) (h : a.rawScore ≤ b.rawScore) :
    a.confidence ≤ b.confidence := by
  obtain ⟨l, -, rfl⟩ := exists_of_mem_ranked ha
  obtain ⟨l', hl', rfl⟩ := exists_of_mem_ranked hb
  have hshare := LanguageFeatures.share_le_share h (Features.max_rawScore_le_positiveTotal hl')
  exact mul_le_mul_of_nonneg_right hshare (lengthFactor_nonneg thresholds _)

/-- A candidate without a positive score, and no other, has no confidence. -/
lemma confidence_eq_zero_iff {candidate : Candidate Rat}
    (h : scoreResolution < found.positiveTotal) (htokens : 1 ≤ found.tokenCount)
    (hmem : candidate ∈ (rank thresholds found).ranked) :
    candidate.confidence = 0 ↔ candidate.rawScore ≤ 0 := by
  obtain ⟨l, hl, rfl⟩ := exists_of_mem_ranked hmem
  have hfactor := lengthFactor_pos thresholds htokens
  have hshare := LanguageFeatures.share_eq_zero_iff h (Features.max_rawScore_le_positiveTotal hl)
  change l.share _ * _ = 0 ↔ l.rawScore ≤ 0
  rw [mul_eq_zero, or_iff_left hfactor.ne', hshare]

/-- Confidence does not increase along the ranking of a scored text. -/
lemma pairwise_confidence_le (hscored : IsScored thresholds text) (hint : Option String)
    (hcap : thresholds.cap ≤ 10 ^ 9) :
    (classify .builtin thresholds text hint).ranked.Pairwise
      fun a b => b.confidence ≤ a.confidence := by
  refine (pairwise_outranks_classify hscored hint hcap).imp_of_mem ?_
  intro a b ha hb houtranks
  rw [classify_of_isScored hscored] at ha hb
  refine confidence_le_of_rawScore_le hb ha ?_
  rcases houtranks with hlt | ⟨heq, -⟩
  · exact le_of_lt hlt
  · exact le_of_eq heq.symm

/-- A conclusive text has something to share. -/
lemma scoreResolution_lt_of_conclusive
    (h : (rank thresholds found).inconclusive = none) : scoreResolution < found.positiveTotal := by
  by_contra hsmall
  rw [(rank_of_le (not_lt.mp hsmall) thresholds).1] at h
  cases h

/-- The candidates of a conclusive text share what its length allows. -/
lemma sum_confidence_classify
    (hconclusive : (classify .builtin thresholds text hint).inconclusive = none) :
    ((classify .builtin thresholds text hint).ranked.map (·.confidence)).sum =
      min 1 (((classify .builtin thresholds text hint).tokenCount : Rat) /
        (max 1 thresholds.minTokensForFullConfidence : Nat)) := by
  have hscored := isScored_of_conclusive hconclusive
  rw [classify_of_isScored hscored] at hconclusive ⊢
  rw [sum_confidence_rank thresholds (scoreResolution_lt_of_conclusive hconclusive),
    lengthFactor_eq_min, rank_tokenCount]

/-- The first of the fifteen has at least a fifteenth of the sum. -/
lemma sum_confidence_le_top (hcap : thresholds.cap ≤ 10 ^ 9)
    (hconclusive : (classify .builtin thresholds text hint).inconclusive = none) :
    ((classify .builtin thresholds text hint).ranked.map (·.confidence)).sum ≤
      15 * (classify .builtin thresholds text hint).top.confidence := by
  have hscored := isScored_of_conclusive hconclusive
  have hpairwise := pairwise_confidence_le hscored hint hcap
  have hlength := ((outcome_classify thresholds text hint).scored hscored).2.1
  obtain ⟨second, rest, hranked⟩ := exists_ranked_eq_of_conclusive hconclusive
  have hle := sum_le_length_mul_head (hranked ▸ hpairwise)
  rwa [← hranked, hlength, Nat.cast_ofNat] at hle

/-- The confidence of a scored text is apportioned by the scores. -/
theorem apportioned_classify (thresholds : Thresholds Rat) (text : List Char)
    (hint : Option String) (hscored : IsScored thresholds text)
    (hcap : thresholds.maxOccurrencesPerSignature ≤ 10 ^ 9) :
    (classify .builtin thresholds text hint).Apportioned thresholds := by
  have hcap' : thresholds.cap ≤ 10 ^ 9 := max_le hcap (by norm_num)
  have houtcome := outcome_classify thresholds text hint
  have hpairwise := pairwise_confidence_le hscored hint hcap'
  obtain ⟨htokens, hlength, -⟩ := houtcome.scored hscored
  refine ⟨hlength, ?_, hpairwise, ?_, sum_confidence_classify, ?_, houtcome.noEvidence⟩
  · intro candidate hcandidate
    rw [classify_of_isScored hscored] at hcandidate
    obtain ⟨l, hl, rfl⟩ := exists_of_mem_ranked hcandidate
    exact confidence_candidateOf_mem_Icc hl
  · intro hconclusive candidate hcandidate
    rw [classify_of_isScored hscored] at hconclusive hcandidate htokens
    rw [rank_tokenCount] at htokens
    exact confidence_eq_zero_iff (scoreResolution_lt_of_conclusive hconclusive) htokens hcandidate
  · intro hconclusive
    have hle := sum_confidence_le_top hcap' hconclusive
    rw [sum_confidence_classify hconclusive] at hle
    linarith

end Scored

end Classification

/-- A short program, which is not enough for full confidence. -/
theorem Classification.apportioned_letMut :
    IsScored (Thresholds.default : Thresholds Rat) "let mut x = 1;".toList ∧
      (Thresholds.default : Thresholds Rat).maxOccurrencesPerSignature ≤ 10 ^ 9 ∧
      (classify .builtin (Thresholds.default : Thresholds Rat) "let mut x = 1;".toList
        none).Apportioned Thresholds.default := by
  have hscored : IsScored (Thresholds.default : Thresholds Rat) "let mut x = 1;".toList :=
    ⟨by decide +kernel, by decide +kernel⟩
  have hcap : (Thresholds.default : Thresholds Rat).maxOccurrencesPerSignature ≤ 10 ^ 9 := by
    decide
  exact ⟨hscored, hcap, apportioned_classify _ _ none hscored hcap⟩

end LanguageDetection
