import LanguageDetection.Proofs.Acceptance
import LanguageDetection.Proofs.FloatingPoint.Ranking

/-!
# The verdicts that run

With thresholds of a few decimals, rounding has no influence on what the program says of a text
(`Thresholds.Coarse`).  A share of characters that exceeds the threshold for binary data does so by
more than both are rounded, since they are fractions of small numbers, and a score that is within
the tolerance is within it by the score resolution, which is more than the test is rounded by.

So the program classifies as exact arithmetic does (`agree_classify_running`), accepts the same
declarations and detects the same language (`agree_validate_running`), in particular with the
default thresholds (`agree_default`).
-/

namespace LanguageDetection

open FloatingPoint

/-! ## Gaps -/

/-- A positive fraction is at least one part of its denominator. -/
lemma one_div_le_of_pos {q : ℚ} {n : ℤ} {d : ℕ} (hq : q = n / d) (hpos : 0 < q) :
    1 / (d : ℚ) ≤ q := by
  subst hq
  have hd : (0 : ℚ) < d := by
    refine lt_of_le_of_ne (Nat.cast_nonneg d) fun hzero => ?_
    rw [← hzero, div_zero] at hpos
    exact lt_irrefl _ hpos
  rw [div_pos_iff_of_pos_right hd] at hpos
  have hn : (1 : ℚ) ≤ n := by exact_mod_cast hpos
  exact div_le_div_of_nonneg_right hn hd.le

/-! ## Thresholds -/

/-- The thresholds as the program holds them. -/
def Thresholds.running (thresholds : Thresholds Rat) : Thresholds Float where
  matchTolerance := Scalar.ofRat thresholds.matchTolerance
  mediumConfidence := Scalar.ofRat thresholds.mediumConfidence
  lowConfidence := Scalar.ofRat thresholds.lowConfidence
  minTokensForFullConfidence := thresholds.minTokensForFullConfidence
  maxOccurrencesPerSignature := thresholds.maxOccurrencesPerSignature
  binaryRatioThreshold := Scalar.ofRat thresholds.binaryRatioThreshold

/-- Thresholds that are too coarse for rounding to have an influence on a text. -/
structure Thresholds.Coarse (thresholds : Thresholds Rat) (text : List Char) : Prop where
  cap_le : thresholds.cap ≤ 10 ^ 6
  tokens_lt : thresholds.minTokensForFullConfidence < 2 ^ 53
  tolerance_mem : thresholds.matchTolerance ∈ Set.Icc 0 1
  tolerance_den_le : thresholds.matchTolerance.den ≤ 10 ^ 5
  binaryRatio_mem : thresholds.binaryRatioThreshold ∈ Set.Icc 0 1
  binaryRatio_den_le : thresholds.binaryRatioThreshold.den * text.length < 2 ^ 52

/-- The default thresholds are coarse for every text that fits into a memory. -/
theorem Thresholds.coarse_default {text : List Char} (h : text.length < 2 ^ 48) :
    (Thresholds.default : Thresholds Rat).Coarse text where
  cap_le := by decide
  tokens_lt := by decide
  tolerance_mem := by norm_num [Thresholds.default]
  tolerance_den_le := by decide +kernel
  binaryRatio_mem := by norm_num [Thresholds.default]
  binaryRatio_den_le := by
    have hden : (Thresholds.default : Thresholds Rat).binaryRatioThreshold.den = 10 := by
      decide +kernel
    rw [hden]
    omega

/-- A share is converted to the closest one. -/
lemma standsFor_share {r : ℚ} (hmem : r ∈ Set.Icc 0 1) (hden : r.den < 2 ^ 53) :
    StandsFor (Scalar.ofRat r) (closest r) := by
  refine standsFor_ofRat ?_ hden
  have hle : (r.num : ℚ) ≤ r.den := by
    rw [← Rat.mul_den_eq_num]
    exact mul_le_of_le_one_left (Nat.cast_nonneg _) hmem.2
  have hle' : r.num ≤ r.den := by exact_mod_cast hle
  have hnonneg : 0 ≤ r.num := Rat.num_nonneg.mpr hmem.1
  omega

/-- Rounding does not change the order of shares that are apart. -/
lemma closest_lt_closest_iff {r s : ℚ} (hr : r ∈ Set.Icc 0 1) (hs : s ∈ Set.Icc 0 1)
    (hgap : r < s → 1 / 2 ^ 52 ≤ s - r) : closest r < closest s ↔ r < s := by
  constructor
  · intro hlt
    by_contra hle
    rw [closest_of_nonneg hr.1, closest_of_nonneg hs.1] at hlt
    exact absurd (nearest_mono hs.1 (not_lt.mp hle)) (not_le.mpr hlt)
  · intro hlt
    have herror := abs_closest_sub_le_of_mem hr
    have herror' := abs_closest_sub_le_of_mem hs
    have hdistance := hgap hlt
    rw [abs_le] at herror herror'
    norm_num at herror herror' hdistance
    linarith

/-- A share of a text that is above a threshold is so by a part of both denominators. -/
lemma gap_le {count length : ℕ} {threshold : ℚ} (hlength : 0 < length)
    (hsmall : threshold.den * length < 2 ^ 52) (hlt : threshold < (count : ℚ) / length) :
    1 / 2 ^ 52 ≤ (count : ℚ) / length - threshold := by
  have hden := threshold.den_pos
  have hfraction : (count : ℚ) / length - threshold =
      ((count * threshold.den - threshold.num * length : ℤ) : ℚ) /
        (threshold.den * length : ℕ) := by
    have hlength' : (length : ℚ) ≠ 0 := Nat.cast_ne_zero.mpr hlength.ne'
    have hden' : (threshold.den : ℚ) ≠ 0 := Nat.cast_ne_zero.mpr hden.ne'
    push_cast
    rw [← Rat.mul_den_eq_num]
    field_simp
  have hpart := one_div_le_of_pos hfraction (sub_pos.mpr hlt)
  refine le_trans ?_ hpart
  have hpos : (0 : ℚ) < (threshold.den * length : ℕ) := by exact_mod_cast Nat.mul_pos hden hlength
  exact one_div_le_one_div_of_le hpos (by exact_mod_cast hsmall.le)

/-- The program takes the same texts for binary data. -/
theorem looksBinary_running {text : List Char} {threshold : ℚ} (hmem : threshold ∈ Set.Icc 0 1)
    (hsmall : threshold.den * text.length < 2 ^ 52) :
    looksBinary text (Scalar.ofRat threshold : Float) = looksBinary text threshold := by
  unfold looksBinary
  cases hempty : text.isEmpty with
  | true => rfl
  | false =>
    have hlength : 0 < text.length := by
      rw [List.isEmpty_eq_false_iff] at hempty
      exact List.length_pos_iff.mpr hempty
    have hlength' : (0 : ℚ) < text.length := by exact_mod_cast hlength
    have hcount : text.countP isNonPrintable ≤ text.length := List.countP_le_length
    have hden := threshold.den_pos
    have hden' : threshold.den < 2 ^ 52 := lt_of_le_of_lt (Nat.le_mul_of_pos_right _ hlength) hsmall
    have hlength'' : text.length < 2 ^ 52 := lt_of_le_of_lt (Nat.le_mul_of_pos_left _ hden) hsmall
    have hshare : (text.countP isNonPrintable : ℚ) / text.length ∈ Set.Icc (0 : ℚ) 1 :=
      ⟨by positivity, (div_le_one hlength').mpr (by exact_mod_cast hcount)⟩
    have hcount' := standsFor_ofNat (by omega : text.countP isNonPrintable < 2 ^ 53)
    have hquotient := StandsFor.div (by norm_num) hcount'
      (standsFor_ofNat (by omega : text.length < 2 ^ 53)) hlength'.ne' (abs_le_of_mem hshare)
    have hiff := (standsFor_share hmem (by omega)).lt_iff hquotient
    rw [closest_lt_closest_iff hmem hshare fun hlt => gap_le hlength hsmall hlt] at hiff
    rw [decide_eq_decide.mpr hiff, Scalar.rat_ofNat, Scalar.rat_ofNat]

/-! ## Classifications -/

section Classifications

variable {thresholds : Thresholds Rat} {text : List Char} (h : thresholds.Coarse text)

include h

/-- The program classifies as exact arithmetic does. -/
theorem agree_classify_running (hint : Option String) :
    (classify .builtin thresholds.running text hint).Agree
      (classify .builtin thresholds text hint) := by
  have hlength : text.length < 2 ^ 53 :=
    (lt_of_le_of_lt (Nat.le_mul_of_pos_left _ thresholds.binaryRatioThreshold.den_pos)
      h.binaryRatio_den_le).trans (by norm_num)
  have hcap : thresholds.running.cap = thresholds.cap := rfl
  have htokens : thresholds.running.minTokensForFullConfidence =
    thresholds.minTokensForFullConfidence := rfl
  have hbinary : looksBinary text thresholds.running.binaryRatioThreshold =
      looksBinary text thresholds.binaryRatioThreshold :=
    looksBinary_running h.binaryRatio_mem h.binaryRatio_den_le
  exact agree_classify hcap (h.cap_le.trans (by norm_num)) htokens h.tokens_lt hlength hbinary hint

end Classifications

/-- The scores of a ranking are half-integers, and the cap bounds them. -/
lemma rawScore_of_mem_ranked {thresholds : Thresholds Rat} {text : List Char} {hint : Option String}
    {candidate : Candidate Rat} (h : candidate ∈ (classify .builtin thresholds text hint).ranked) :
    IsHalfInteger candidate.rawScore ∧ |candidate.rawScore| ≤ 600 * thresholds.cap := by
  rcases classify_cases .builtin thresholds text hint with ⟨-, heq⟩ | ⟨-, heq⟩ | ⟨-, heq⟩
  · rw [heq] at h
    cases h
  · rw [heq] at h
    cases h
  · rw [heq, rank_ranked] at h
    obtain ⟨l, hl, rfl⟩ := List.mem_map.mp h
    have haccounted := accounted_of_mem_features ((ranking_perm _).mem_iff.mp hl)
    exact ⟨haccounted.isHalfInteger_rawScore, haccounted.abs_rawScore_le⟩

/-! ## Tolerances -/

section Tolerance

variable {x y : Float} {r s tolerance : ℚ}

/-- The program compares with the part of the score on top within half a unit of the resolution. -/
lemma exists_standsFor_within (hx : StandsFor x r) (hr : |r| ≤ 6 * 10 ^ 8)
    (hmem : tolerance ∈ Set.Icc 0 1) (hden : tolerance.den < 2 ^ 53) :
    ∃ q, StandsFor (Scalar.ofRat tolerance * x - scoreResolution) q ∧
      |q - (tolerance * r - scoreResolution)| ≤ 0.0000005 := by
  have hfactor := closest_mem hmem
  have hproduct : |closest tolerance * r| ≤ 2 ^ 30 := by
    rw [abs_mul, abs_of_nonneg hfactor.1]
    exact (mul_le_of_le_one_left (abs_nonneg r) hfactor.2).trans (hr.trans (by norm_num))
  have hpart := StandsFor.mul (by norm_num) (standsFor_share hmem hden) hx hproduct
  have hpart' := abs_closest_le (by norm_num) hproduct
  have hdifference : |closest (closest tolerance * r) - runningResolution| ≤ 2 ^ 31 := by
    have hmem' := runningResolution_mem
    rw [abs_le] at hpart' ⊢
    exact ⟨by linarith [hmem'.2], by linarith [hmem'.1]⟩
  refine ⟨_, StandsFor.sub (by norm_num) hpart standsFor_scoreResolution hdifference, ?_⟩
  -- the errors of the difference, the product, the tolerance and the resolution
  have herror := abs_closest_sub_le (by norm_num) hdifference
  have herror' := abs_closest_sub_le (by norm_num) hproduct
  have hresolution : |runningResolution - scoreResolution| ≤ 1 / 2 ^ 54 :=
    abs_runningResolution_sub_le
  have hscaled : |closest tolerance * r - tolerance * r| ≤ 6 * 10 ^ 8 / 2 ^ 54 := by
    rw [← sub_mul, abs_mul]
    calc |closest tolerance - tolerance| * |r| ≤ 1 / 2 ^ 54 * (6 * 10 ^ 8) :=
          mul_le_mul (abs_closest_sub_le_of_mem hmem) hr (abs_nonneg r) (by norm_num)
      _ = 6 * 10 ^ 8 / 2 ^ 54 := by norm_num
  rw [abs_le] at *
  norm_num at herror herror' hresolution hscaled ⊢
  exact ⟨by linarith, by linarith⟩

/-- The program takes the same scores for within the tolerance. -/
theorem within_iff (hx : StandsFor x r) (hy : StandsFor y s) (hr : IsHalfInteger r)
    (hs : IsHalfInteger s) (hbound : |r| ≤ 6 * 10 ^ 8) (hmem : tolerance ∈ Set.Icc 0 1)
    (hden : tolerance.den ≤ 10 ^ 5) :
    Scalar.ofRat tolerance * x - scoreResolution ≤ y ↔ tolerance * r - scoreResolution ≤ s := by
  obtain ⟨q, hq, herror⟩ := exists_standsFor_within hx hbound hmem (by omega)
  have hresolution : (scoreResolution : ℚ) = 0.000001 := rfl
  rw [hresolution] at herror ⊢
  rw [abs_le] at herror
  rw [hq.le_iff hy]
  rcases le_or_gt (tolerance * r) s with hle | hgt
  · exact iff_of_true (by linarith) (by linarith)
  · have hgap : 0.000005 ≤ tolerance * r - s := by
      obtain ⟨k, rfl⟩ := hr
      obtain ⟨l, rfl⟩ := hs
      have hpos : (0 : ℚ) < (2 * tolerance.den : ℕ) := by
        exact_mod_cast Nat.mul_pos two_pos tolerance.den_pos
      have hfraction : tolerance * (k / 2) - l / 2 =
          ((tolerance.num * k - l * tolerance.den : ℤ) : ℚ) / (2 * tolerance.den : ℕ) := by
        have hne : (tolerance.den : ℚ) ≠ 0 := Nat.cast_ne_zero.mpr tolerance.den_nz
        push_cast
        rw [← Rat.mul_den_eq_num]
        field_simp
      calc (0.000005 : ℚ) = 1 / 200000 := by norm_num
        _ ≤ 1 / (2 * tolerance.den : ℕ) :=
            one_div_le_one_div_of_le hpos (by exact_mod_cast Nat.mul_le_mul_left 2 hden)
        _ ≤ tolerance * (k / 2) - l / 2 := one_div_le_of_pos hfraction (sub_pos.mpr hgt)
    exact iff_of_false (by linarith) (by linarith)

end Tolerance

/-! ## Verdicts -/

/-- A verdict of the program says the same, with a confidence that is off by three roundings at
most. -/
structure Verdict.Agree (a : Verdict Float) (b : Verdict Rat) : Prop where
  isMatch_eq : a.isMatch = b.isMatch
  declared_eq : a.declared = b.declared
  detected_eq : a.detected = b.detected
  confidence : IsCloseTo a.confidence b.confidence (3 / 2 ^ 54)

section Verdicts

variable {thresholds : Thresholds Rat} {text : List Char} {hint : Option String}
  (h : thresholds.Coarse text)

include h

/-- The program accepts the same declarations. -/
theorem accepts_running (hconclusive : (classify .builtin thresholds text hint).inconclusive = none)
    (declared : Language) :
    Verdict.accepts declared (classify .builtin thresholds.running text hint)
        thresholds.running.matchTolerance =
      Verdict.accepts declared (classify .builtin thresholds text hint)
        thresholds.matchTolerance := by
  have hagree := agree_classify_running h hint
  obtain ⟨second, rest, hranked⟩ := Classification.exists_ranked_eq_of_conclusive hconclusive
  have hlanguages := hagree.ranked
  rw [hranked] at hlanguages
  obtain ⟨first', others', hfirst, hothers, hranked'⟩ := List.forall₂_cons_right_iff.mp hlanguages
  obtain ⟨second', rest', hsecond, -, rfl⟩ := List.forall₂_cons_right_iff.mp hothers
  have hne : (classify .builtin thresholds text hint).top.language ≠ second.language := by
    have hscored := Classification.isScored_of_conclusive hconclusive
    have hnodup := (map_language_classify_ranked_perm hscored hint).nodup_iff.mpr
      Language.nodup_supported
    rw [hranked, List.map_cons, List.map_cons, List.nodup_cons] at hnodup
    exact fun heq => hnodup.1 (heq ▸ List.mem_cons_self)
  have hne' : first'.language ≠ second'.language := by
    rwa [hfirst.language_eq, hsecond.language_eq]
  have hcap : (thresholds.cap : ℚ) ≤ 10 ^ 6 := by exact_mod_cast h.cap_le
  have htop := rawScore_of_mem_ranked (hranked ▸ List.mem_cons_self)
  have hsecond' := rawScore_of_mem_ranked (hranked ▸ List.mem_cons_of_mem _ List.mem_cons_self)
  have hwithin := within_iff hagree.top.rawScore hsecond.rawScore htop.1 hsecond'.1
    (by linarith [htop.2]) h.tolerance_mem h.tolerance_den_le
  rw [Bool.eq_iff_iff, Verdict.accepts_iff declared hranked' hne',
    Verdict.accepts_iff declared hranked hne, hfirst.language_eq, hsecond.language_eq]
  exact or_congr_right (and_congr_right fun _ => hwithin)

/-- The program arrives at the same verdict on every declaration. -/
theorem agree_validate_running (declared : Language) (hint : Option String) :
    (Verdict.validate .builtin thresholds.running declared text hint).Agree
      (Verdict.validate .builtin thresholds declared text hint) := by
  have hagree := agree_classify_running h hint
  unfold Verdict.validate Verdict.judge
  rw [hagree.inconclusive_eq]
  cases hreason : (classify .builtin thresholds text hint).inconclusive with
  | none =>
    exact ⟨accepts_running h hreason declared, rfl, hagree.top.language_eq, hagree.top.confidence⟩
  | some reason =>
    cases reason <;> exact ⟨rfl, rfl, rfl, isCloseTo_zero (by norm_num)⟩

end Verdicts

/-- With the default thresholds the program says what exact arithmetic says, of every text. -/
theorem agree_default {text : List Char} (h : text.length < 2 ^ 48) (declared : Language)
    (hint : Option String) :
    (classify .builtin (Thresholds.default : Thresholds Float) text hint).Agree
        (classify .builtin Thresholds.default text hint) ∧
      (Verdict.validate .builtin (Thresholds.default : Thresholds Float) declared text hint).Agree
        (Verdict.validate .builtin Thresholds.default declared text hint) :=
  ⟨agree_classify_running (Thresholds.coarse_default h) hint,
    agree_validate_running (Thresholds.coarse_default h) declared hint⟩

end LanguageDetection
