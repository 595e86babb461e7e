import LanguageDetection.Proofs.Decimal.Layout
import LanguageDetection.Proofs.FloatingPoint.Arithmetic

/-!
# Shortest decimals

The shortest decimal of a floating-point number is near to it (`near_shortest`): what is taken from
a grid of decimals lies in the interval around the number (`near_of_onGrid`), and a grid of
seventeen digits always has such a point, since its step is less than the distance that the interval
allows (`onGrid_ne_none`).
-/

namespace LanguageDetection.Decimal

open FloatingPoint

/-! ## Powers as quotients -/

section Power

variable {base : ℕ} (hbase : 0 < base) (exponent : ℤ)

include hbase

/-- A power is a quotient of positive numbers. -/
lemma powerOf_pos : 0 < (powerOf base exponent).1 ∧ 0 < (powerOf base exponent).2 := by
  unfold powerOf
  split_ifs
  · exact ⟨Nat.pow_pos hbase, one_pos⟩
  · exact ⟨one_pos, Nat.pow_pos hbase⟩

/-- The quotient is the power. -/
lemma cast_powerOf : ((powerOf base exponent).1 : ℚ) =
    (base : ℚ) ^ exponent * (powerOf base exponent).2 := by
  have hne : (base : ℚ) ≠ 0 := Nat.cast_ne_zero.mpr hbase.ne'
  unfold powerOf
  split_ifs with h
  · obtain ⟨n, rfl⟩ := Int.eq_ofNat_of_zero_le h
    simp
  · obtain ⟨n, rfl⟩ : ∃ n : ℕ, exponent = -n := ⟨(-exponent).toNat, by omega⟩
    simp [zpow_neg, hne]

end Power

/-! ## The interval -/

section Interval

variable {m : ℕ} {e : ℤ}

lemma denominator_ofBinary_pos (m : ℕ) (e : ℤ) : 0 < (Interval.ofBinary m e).denominator :=
  (powerOf_pos two_pos (e - 2)).2

/-- The scale of the interval is a quarter of the step of the grid. -/
lemma cast_scale (m : ℕ) (e : ℤ) : ((powerOf 2 (e - 2)).1 : ℚ) =
    1 / 4 * (2 ^ e * (Interval.ofBinary m e).denominator) := by
  have hquarter : (2 : ℚ) ^ (e - 2) = 1 / 4 * 2 ^ e := by
    rw [zpow_sub₀ two_ne_zero]
    norm_num
    ring
  have hcast := cast_powerOf two_pos (e - 2)
  rw [Nat.cast_ofNat, hquarter, mul_assoc] at hcast
  exact hcast

/-- The value of the interval is the number. -/
lemma cast_value (m : ℕ) (e : ℤ) : ((Interval.ofBinary m e).value : ℚ) =
    m * (2 ^ e * (Interval.ofBinary m e).denominator) := by
  change ((4 * m * (powerOf 2 (e - 2)).1 : ℕ) : ℚ) = _
  rw [Nat.cast_mul, cast_scale m]
  push_cast
  ring

/-- The interval ends half a step above the number. -/
lemma cast_high (m : ℕ) (e : ℤ) : ((Interval.ofBinary m e).high : ℚ) =
    (m + 1 / 2) * (2 ^ e * (Interval.ofBinary m e).denominator) := by
  change (((4 * m + 2) * (powerOf 2 (e - 2)).1 : ℕ) : ℚ) = _
  rw [Nat.cast_mul, cast_scale m]
  push_cast
  ring

/-- The interval begins below the number by its margin, which is half a step or a quarter. -/
lemma cast_low (hm : 0 < m) (e : ℤ) : ((Interval.ofBinary m e).low : ℚ) =
    (m - margin m e) * (2 ^ e * (Interval.ofBinary m e).denominator) := by
  have hbelow : ((4 * m - (if (m = Nat.pow 2 52 && -1074 < e) = true then 1 else 2) : ℕ) : ℚ) =
      4 * (m - margin m e) := by
    rw [Nat.cast_sub (by split_ifs <;> omega)]
    unfold margin
    simp only [Bool.and_eq_true, decide_eq_true_eq, Nat.pow_eq]
    split_ifs <;> push_cast <;> ring
  change (((4 * m - (if (m = Nat.pow 2 52 && -1074 < e) = true then 1 else 2)) *
    (powerOf 2 (e - 2)).1 : ℕ) : ℚ) = _
  rw [Nat.cast_mul, cast_scale m, hbelow]
  ring

/-- A quotient is in the interval if it is near to the number. -/
theorem contains_ofBinary_iff (hm : 0 < m) {numerator denominator : ℕ}
    (hdenominator : 0 < denominator) :
    (Interval.ofBinary m e).contains numerator denominator = true ↔
      Near m e (numerator / denominator) := by
  have hcommon : (0 : ℚ) < 2 ^ e * (Interval.ofBinary m e).denominator * denominator := by
    have hD := denominator_ofBinary_pos m e
    positivity
  have hpoint : ((numerator * (Interval.ofBinary m e).denominator : ℕ) : ℚ) =
      numerator / denominator / 2 ^ e *
        (2 ^ e * (Interval.ofBinary m e).denominator * denominator) := by
    push_cast
    field_simp
  have hlow : (((Interval.ofBinary m e).low * denominator : ℕ) : ℚ) =
      (m - margin m e) * (2 ^ e * (Interval.ofBinary m e).denominator * denominator) := by
    rw [Nat.cast_mul, cast_low hm, mul_assoc]
  have hhigh : (((Interval.ofBinary m e).high * denominator : ℕ) : ℚ) =
      (m + 1 / 2) * (2 ^ e * (Interval.ofBinary m e).denominator * denominator) := by
    rw [Nat.cast_mul, cast_high, mul_assoc]
  unfold Interval.contains
  dsimp only
  split_ifs with hclosed
  · have heven : m % 2 = 0 := of_decide_eq_true hclosed
    rw [Bool.and_eq_true, decide_eq_true_eq, decide_eq_true_eq, ← Nat.cast_le (α := ℚ),
      ← Nat.cast_le (α := ℚ), hpoint, hlow, hhigh, mul_le_mul_iff_left₀ hcommon,
      mul_le_mul_iff_left₀ hcommon]
    exact ⟨fun h => ⟨h.1, h.2, .inl heven⟩, fun h => ⟨h.low_le, h.le_high⟩⟩
  · have hodd : ¬ m % 2 = 0 := fun heven => hclosed (decide_eq_true heven)
    rw [Bool.and_eq_true, decide_eq_true_eq, decide_eq_true_eq, ← Nat.cast_lt (α := ℚ),
      ← Nat.cast_lt (α := ℚ), hpoint, hlow, hhigh, mul_lt_mul_iff_left₀ hcommon,
      mul_lt_mul_iff_left₀ hcommon]
    exact ⟨fun h => ⟨h.1.le, h.2.le, .inr h⟩, fun h => h.even_or_lt.resolve_left hodd⟩

end Interval

/-! ## Points of a decimal grid -/

section Grid

variable {m : ℕ} {e exponent : ℤ} {tie : Tie}

lemma ten_zpow_pos (k : ℤ) : (0 : ℚ) < 10 ^ k :=
  zpow_pos (by norm_num) k

/-- A point of the grid fits if it is near to the number. -/
lemma fits_iff (hm : 0 < m) (coefficient : ℕ) (exponent : ℤ) :
    (Interval.ofBinary m e).contains (coefficient * (powerOf 10 exponent).1)
        (powerOf 10 exponent).2 = true ↔
      Near m e (coefficient * 10 ^ exponent) := by
  have hpos := (powerOf_pos (show 0 < 10 by norm_num) exponent).2
  have hcast : ((coefficient * (powerOf 10 exponent).1 : ℕ) : ℚ) / (powerOf 10 exponent).2 =
      coefficient * 10 ^ exponent := by
    rw [Nat.cast_mul, cast_powerOf (by norm_num) exponent]
    push_cast
    field_simp
  rw [contains_ofBinary_iff hm hpos, hcast]

/-- What is taken from a grid is near to the number. -/
lemma near_of_onGrid {decimal : Scientific} (hm : 0 < m)
    (h : onGrid tie (Interval.ofBinary m e) exponent = some decimal) : Near m e decimal.value := by
  unfold onGrid at h
  dsimp only at h
  split_ifs at h with hbelow habove
  · cases h
    rw [Bool.and_eq_true, Bool.and_eq_true] at hbelow
    exact (fits_iff hm _ _).mp hbelow.1.2
  · cases h
    exact (fits_iff hm _ _).mp habove

/-- The number of the greatest point of the grid that is not above the number. -/
def pointBelow (m : ℕ) (e exponent : ℤ) : ℕ :=
  (Interval.ofBinary m e).value * (powerOf 10 exponent).2 /
    ((Interval.ofBinary m e).denominator * (powerOf 10 exponent).1)

/-- The point below a number on a decimal grid is the last one that is not above it. -/
lemma pointBelow_spec (m : ℕ) (e exponent : ℤ) :
    pointBelow m e exponent * 10 ^ exponent ≤ (m * 2 ^ e : ℚ) ∧
      (m * 2 ^ e : ℚ) < (pointBelow m e exponent + 1) * 10 ^ exponent := by
  obtain ⟨hup, hdown⟩ := powerOf_pos (show 0 < 10 by norm_num) exponent
  have hD := denominator_ofBinary_pos m e
  have hcommon : (0 : ℚ) < (Interval.ofBinary m e).denominator * (powerOf 10 exponent).2 := by
    positivity
  have hvalue : (((Interval.ofBinary m e).value * (powerOf 10 exponent).2 : ℕ) : ℚ) =
      m * 2 ^ e * ((Interval.ofBinary m e).denominator * (powerOf 10 exponent).2) := by
    rw [Nat.cast_mul, cast_value]
    ring
  have hstep : (((Interval.ofBinary m e).denominator * (powerOf 10 exponent).1 : ℕ) : ℚ) =
      10 ^ exponent * ((Interval.ofBinary m e).denominator * (powerOf 10 exponent).2) := by
    rw [Nat.cast_mul, cast_powerOf (by norm_num) exponent]
    push_cast
    ring
  constructor
  · have hle := Nat.div_mul_le_self ((Interval.ofBinary m e).value * (powerOf 10 exponent).2)
      ((Interval.ofBinary m e).denominator * (powerOf 10 exponent).1)
    rw [← Nat.cast_le (α := ℚ), Nat.cast_mul, hstep, hvalue, ← mul_assoc,
      mul_le_mul_iff_left₀ hcommon] at hle
    exact hle
  · have hpos : 0 < (Interval.ofBinary m e).denominator * (powerOf 10 exponent).1 :=
      Nat.mul_pos hD hup
    have hlt := Nat.lt_mul_div_succ
      ((Interval.ofBinary m e).value * (powerOf 10 exponent).2) hpos
    change _ < _ * (pointBelow m e exponent + 1) at hlt
    rw [mul_comm _ (_ + 1), ← Nat.cast_lt (α := ℚ), Nat.cast_mul (_ + 1), hstep, hvalue,
      ← mul_assoc _ (10 ^ exponent), mul_lt_mul_iff_left₀ hcommon, Nat.cast_add,
      Nat.cast_one] at hlt
    exact hlt

/-- A step of a grid of seventeen digits is less than twice the distance that is allowed. -/
lemma div_lt_margin (hlt : m < 2 ^ 53) (e : ℤ) : (m : ℚ) / (2 * 10 ^ 16) < margin m e := by
  unfold margin
  split_ifs with h
  · rw [h.1]
    norm_num
  · have hlt' : (m : ℚ) < 2 ^ 53 := by exact_mod_cast hlt
    rw [div_lt_iff₀ (by norm_num)]
    norm_num at hlt' ⊢
    linarith

/-- Where the number has seventeen digits, the nearer one of its neighbours is near to it. -/
lemma near_pointBelow (hlt : m < 2 ^ 53)
    (hdigits : 10 ^ 16 * 10 ^ exponent ≤ (m * 2 ^ e : ℚ)) :
    Near m e (pointBelow m e exponent * 10 ^ exponent) ∨
      Near m e ((pointBelow m e exponent + 1 : ℕ) * 10 ^ exponent) := by
  obtain ⟨hle, hgt⟩ := pointBelow_spec m e exponent
  have hmargin := div_lt_margin hlt e
  have hhalf := margin_le m e
  have he := two_zpow_pos e
  -- in steps of the grid of the number
  generalize hstep : (10 : ℚ) ^ exponent / 2 ^ e = step
  have hstepMul (n : ℚ) : n * 10 ^ exponent / 2 ^ e = n * step := by
    rw [← hstep, mul_div_assoc]
  have hsmall : 10 ^ 16 * step ≤ m := by
    rw [← hstepMul, div_le_iff₀ he]
    exact hdigits
  have hlow : pointBelow m e exponent * step ≤ m := by
    rw [← hstepMul, div_le_iff₀ he]
    exact hle
  have hhigh : m < (pointBelow m e exponent + 1) * step := by
    rw [← hstepMul, lt_div_iff₀ he]
    exact hgt
  have hstepLe : step / 2 ≤ m / (2 * 10 ^ 16) := by
    rw [le_div_iff₀ (by norm_num)]
    linarith
  rcases le_or_gt (m - pointBelow m e exponent * step) (step / 2) with hnear | hfar
  · left
    constructor
    · rw [hstepMul]
      linarith
    · rw [hstepMul]
      linarith
    · rw [hstepMul]
      exact .inr ⟨by linarith, by linarith⟩
  · right
    constructor
    · rw [hstepMul]
      push_cast
      linarith
    · rw [hstepMul]
      push_cast
      linarith
    · rw [hstepMul]
      push_cast
      exact .inr ⟨by linarith, by linarith⟩

/-- A decimal grid of seventeen digits has a point in the interval. -/
lemma onGrid_ne_none (hm : 0 < m) (hlt : m < 2 ^ 53) (tie : Tie)
    (hdigits : 10 ^ 16 * 10 ^ exponent ≤ (m * 2 ^ e : ℚ)) :
    onGrid tie (Interval.ofBinary m e) exponent ≠ none := by
  have hpos : pointBelow m e exponent ≠ 0 := by
    intro hzero
    have hgt := (pointBelow_spec m e exponent).2
    rw [hzero] at hgt
    have hten := ten_zpow_pos exponent
    push_cast at hgt
    linarith
  intro hnone
  unfold onGrid at hnone
  dsimp only at hnone
  split_ifs at hnone with hbelow habove
  have hbelow' : ¬ Near m e (pointBelow m e exponent * 10 ^ exponent) := by
    intro hnear
    refine hbelow ?_
    rw [Bool.and_eq_true, Bool.and_eq_true, Bool.not_eq_true', bne_iff_ne]
    refine ⟨⟨hpos, (fits_iff hm _ _).mpr hnear⟩, ?_⟩
    rw [Bool.not_eq_true] at habove
    rw [habove, Bool.false_and]
  exact (near_pointBelow hlt hdigits).elim hbelow' fun hnear => habove ((fits_iff hm _ _).mpr hnear)

end Grid

/-! ## The first grid with a point -/

section FirstGrid

variable {interval : Interval} {tie : Tie} {exponent : ℤ}

/-- If one of the grids has a point, one is taken from the first of these. -/
lemma exists_onGrid_eq_firstGrid {fuel digits n : ℕ} (hfuel : n < fuel)
    (h : onGrid tie interval (exponent - (digits + n : ℕ)) ≠ none) :
    ∃ grid, onGrid tie interval grid = some (firstGrid tie interval exponent fuel digits) := by
  induction fuel generalizing digits n with
  | zero => exact absurd hfuel (Nat.not_lt_zero n)
  | succ fuel ih =>
    rw [firstGrid]
    cases hgrid : onGrid tie interval (exponent - digits) with
    | some decimal => exact ⟨_, hgrid⟩
    | none =>
      cases n with
      | zero => exact absurd hgrid h
      | succ n =>
        rw [Option.getD_none]
        refine ih (Nat.lt_of_succ_lt_succ hfuel) ?_
        rwa [Nat.succ_add_eq_add_succ]

/-- A zero that is dropped goes into the exponent. -/
lemma value_dropZero (decimal : Scientific) : decimal.dropZero.value = decimal.value := by
  unfold Scientific.dropZero
  split_ifs with h
  · have hten : ((decimal.coefficient / 10 : ℕ) : ℚ) * 10 = decimal.coefficient := by
      exact_mod_cast Nat.div_mul_cancel (Nat.dvd_of_mod_eq_zero h)
    unfold Scientific.value
    dsimp only
    rw [zpow_add_one₀ (by norm_num), ← hten]
    ring
  · rfl

end FirstGrid

/-! ## The magnitude -/

section Magnitude

variable {numerator denominator : ℕ}

/-- The search stops at the first power that is above the quotient, so that it is not below a tenth
of it, if that is so of the guess. -/
lemma zpow_magnitudeFrom_le (hdenominator : 0 < denominator) {fuel : ℕ} {guess : ℤ}
    (h : (10 : ℚ) ^ (guess - 1) ≤ numerator / denominator) :
    (10 : ℚ) ^ (magnitudeFrom numerator denominator fuel guess - 1) ≤ numerator / denominator := by
  induction fuel generalizing guess with
  | zero => exact h
  | succ fuel ih =>
    rw [magnitudeFrom]
    dsimp only
    split_ifs with hlt
    · exact h
    · refine ih ?_
      have hdown := (powerOf_pos (show 0 < 10 by norm_num) guess).2
      have hle : ((denominator * (powerOf 10 guess).1 : ℕ) : ℚ) ≤
          (numerator * (powerOf 10 guess).2 : ℕ) :=
        Nat.cast_le.mpr (not_lt.mp hlt)
      rw [Nat.cast_mul, cast_powerOf (by norm_num) guess, Nat.cast_mul, ← mul_assoc,
        mul_le_mul_iff_left₀ (Nat.cast_pos.mpr hdown)] at hle
      rw [add_sub_cancel_right, le_div_iff₀ (Nat.cast_pos.mpr hdenominator), mul_comm]
      exact hle

/-- The approximation of the decimal logarithm of two is good enough for all exponents that
occur. -/
lemma ten_zpow_le_two_zpow {log guess : ℤ} (hlow : -2000 ≤ log) (hhigh : log ≤ 2000)
    (hguess : 100000 * guess ≤ 30103 * log) : (10 : ℚ) ^ (guess - 1) ≤ 2 ^ log := by
  have hten : (0 : ℚ) ≤ 10 ^ (guess - 1) := (ten_zpow_pos _).le
  have htwo : (0 : ℚ) ≤ 2 ^ log := (two_zpow_pos _).le
  rcases le_or_gt 0 log with hpos | hneg
  · rw [← pow_le_pow_iff_left₀ hten htwo (n := 103) (by norm_num), ← zpow_natCast, ← zpow_natCast,
      ← zpow_mul, ← zpow_mul]
    obtain ⟨n, rfl⟩ := Int.eq_ofNat_of_zero_le hpos
    calc (10 : ℚ) ^ ((guess - 1) * (103 : ℕ)) ≤ 10 ^ ((31 * n : ℕ) : ℤ) :=
          zpow_le_zpow_right₀ (by norm_num) (by push_cast; omega)
      _ = (10 ^ 31) ^ n := by rw [zpow_natCast, pow_mul]
      _ ≤ (2 ^ 103) ^ n := by
          gcongr
          norm_num
      _ = 2 ^ ((n : ℤ) * (103 : ℕ)) := by
          rw [← pow_mul, ← zpow_natCast]
          push_cast
          ring_nf
  · rw [← pow_le_pow_iff_left₀ hten htwo (n := 93) (by norm_num), ← zpow_natCast, ← zpow_natCast,
      ← zpow_mul, ← zpow_mul]
    obtain ⟨n, rfl⟩ : ∃ n : ℕ, log = -n := ⟨(-log).toNat, by omega⟩
    calc (10 : ℚ) ^ ((guess - 1) * (93 : ℕ)) ≤ 10 ^ (-(28 * n : ℕ) : ℤ) :=
          zpow_le_zpow_right₀ (by norm_num) (by push_cast; omega)
      _ = ((10 ^ 28) ^ n)⁻¹ := by rw [zpow_neg, zpow_natCast, pow_mul]
      _ ≤ ((2 ^ 93) ^ n)⁻¹ := by
          gcongr
          norm_num
      _ = 2 ^ (-(n : ℤ) * (93 : ℕ)) := by
          rw [neg_mul, zpow_neg, ← pow_mul, ← zpow_natCast]
          push_cast
          ring_nf

/-- The binary logarithms of the parts of a quotient. -/
lemma two_zpow_le_div (hnumerator : 0 < numerator) (hdenominator : 0 < denominator) :
    (2 : ℚ) ^ ((Nat.log2 numerator : ℤ) - Nat.log2 denominator - 1) ≤ numerator / denominator ∧
      (numerator / denominator : ℚ) <
        2 ^ ((Nat.log2 numerator : ℤ) - Nat.log2 denominator + 1) := by
  have hn : (0 : ℚ) < numerator := Nat.cast_pos.mpr hnumerator
  have hd : (0 : ℚ) < denominator := Nat.cast_pos.mpr hdenominator
  have hn' := lt_of_log hn
  have hd' := lt_of_log hd
  rw [log_natCast hnumerator] at hn'
  rw [log_natCast hdenominator] at hd'
  have hln := le_of_log hn
  have hld := le_of_log hd
  rw [log_natCast hnumerator] at hln
  rw [log_natCast hdenominator] at hld
  constructor
  · rw [sub_sub, zpow_sub₀ two_ne_zero]
    exact div_le_div₀ hn.le hln hd hd'.le
  · rw [sub_add_eq_add_sub, zpow_sub₀ two_ne_zero]
    exact div_lt_div₀ hn' hld (two_zpow_pos _).le (two_zpow_pos _)

/-- The magnitude is not too great. -/
theorem zpow_magnitude_le (hnumerator : 0 < numerator) (hdenominator : 0 < denominator)
    (hlow : (2 : ℚ) ^ (-1900 : ℤ) ≤ numerator / denominator)
    (hhigh : (numerator / denominator : ℚ) ≤ 2 ^ (1900 : ℤ)) :
    (10 : ℚ) ^ (magnitude numerator denominator - 1) ≤ numerator / denominator := by
  obtain ⟨hle, hlt⟩ := two_zpow_le_div hnumerator hdenominator
  have hlog := (zpow_lt_zpow_iff_right₀ (one_lt_two (α := ℚ))).mp (hlow.trans_lt hlt)
  have hlog' := (zpow_le_zpow_iff_right₀ (one_lt_two (α := ℚ))).mp (hle.trans hhigh)
  refine zpow_magnitudeFrom_le hdenominator (le_trans (ten_zpow_le_two_zpow ?_ ?_ ?_) hle)
  · omega
  · omega
  · rw [Int.fdiv_eq_ediv_of_nonneg _ (by norm_num)]
    omega

end Magnitude

section Nearness

variable {m : ℕ} {e : ℤ} (hm : 0 < m) (hgrid : OnGrid m e) (hbound : e < 972)

include hm hgrid hbound

/-- The magnitude of a floating-point number. -/
lemma zpow_magnitude_ofBinary_le :
    (10 : ℚ) ^ (magnitude (Interval.ofBinary m e).value (Interval.ofBinary m e).denominator - 1) ≤
      m * 2 ^ e := by
  have hD := denominator_ofBinary_pos m e
  have hD' : (0 : ℚ) < (Interval.ofBinary m e).denominator := Nat.cast_pos.mpr hD
  have hvalue : ((Interval.ofBinary m e).value : ℚ) / (Interval.ofBinary m e).denominator =
      m * 2 ^ e := by
    rw [cast_value, ← mul_assoc, mul_div_cancel_right₀ _ hD'.ne']
  have hone : (1 : ℚ) ≤ m := by exact_mod_cast hm
  have hle : (2 : ℚ) ^ e ≤ m * 2 ^ e := le_mul_of_one_le_left (two_zpow_pos e).le hone
  have hexponent := hgrid.le_exponent
  have hnumerator : 0 < (Interval.ofBinary m e).value := by
    have hpos := (two_zpow_pos e).trans_le hle
    rw [← hvalue] at hpos
    exact_mod_cast (div_pos_iff_of_pos_right hD').mp hpos
  rw [← hvalue]
  refine zpow_magnitude_le hnumerator hD ?_ ?_
  · rw [hvalue]
    exact (zpow_le_zpow_right₀ one_le_two (by omega)).trans hle
  · rw [hvalue]
    calc (m * 2 ^ e : ℚ) ≤ 2 ^ 1024 := (hgrid.lt_infinity hbound).le
      _ = 2 ^ (1024 : ℤ) := (zpow_natCast 2 1024).symm
      _ ≤ 2 ^ (1900 : ℤ) := zpow_le_zpow_right₀ one_le_two (by norm_num)

/-- The shortest decimal of a floating-point number is near to it. -/
theorem near_shortest (tie : Tie) : Near m e (shortest tie m e).value := by
  have hmagnitude := zpow_magnitude_ofBinary_le hm hgrid hbound
  generalize hM : magnitude (Interval.ofBinary m e).value (Interval.ofBinary m e).denominator = M
    at hmagnitude
  have hdigits : (10 : ℚ) ^ 16 * 10 ^ (M - (1 + 16 : ℕ)) ≤ m * 2 ^ e := by
    rw [← zpow_natCast, ← zpow_add₀ (by norm_num)]
    convert hmagnitude using 2
    push_cast
    ring
  obtain ⟨grid, htaken⟩ := exists_onGrid_eq_firstGrid (show 16 < 17 by norm_num)
    (onGrid_ne_none hm hgrid.lt tie hdigits)
  unfold shortest
  dsimp only
  rw [value_dropZero, hM]
  exact near_of_onGrid hm htaken

end Nearness

end LanguageDetection.Decimal
