import Mathlib

/-!
# Rounding

What the rounding of floating-point numbers comes to in exact arithmetic.  A positive rational
number lies on a grid whose step is a power of two (`grid`), and is rounded to the nearest point of
the grid, to the even one of two (`rounded`).  This is monotone (`rounded_mono`): on one grid
because the nearest integer is, and from one grid to a coarser one because the power of two between
them is a point of both.

The rounding bits that the operations carry along say where the exact result lies between two points
(`Represents`), and `roundWithAccuracy_cases` reads off that what they arrive at is `rounded`.
-/

namespace LanguageDetection.FloatingPoint

open Float.Model Float.Model.UnpackedFloat

/-! ## The nearest integer -/

/-- The nearest natural number, and of two the even one. -/
def roundEven (q : ℚ) : ℕ :=
  if q - ⌊q⌋₊ < 1 / 2 then ⌊q⌋₊ else if 1 / 2 < q - ⌊q⌋₊ then ⌊q⌋₊ + 1 else ⌊q⌋₊ + ⌊q⌋₊ % 2

/-- Rounding does not lead below the whole part. -/
lemma floor_le_roundEven (q : ℚ) : ⌊q⌋₊ ≤ roundEven q := by
  unfold roundEven
  split_ifs <;> omega

/-- Rounding leads at most one beyond the whole part. -/
lemma roundEven_le_floor_add_one (q : ℚ) : roundEven q ≤ ⌊q⌋₊ + 1 := by
  unfold roundEven
  split_ifs <;> omega

lemma roundEven_natCast (n : ℕ) : roundEven n = n := by
  simp [roundEven]

/-- Rounding to an integer is monotone. -/
lemma roundEven_mono {p q : ℚ} (h : p ≤ q) : roundEven p ≤ roundEven q := by
  rcases (Nat.floor_mono h).lt_or_eq with hlt | heq
  · calc roundEven p ≤ ⌊p⌋₊ + 1 := roundEven_le_floor_add_one p
      _ ≤ ⌊q⌋₊ := hlt
      _ ≤ roundEven q := floor_le_roundEven q
  · unfold roundEven
    rw [heq]
    split_ifs <;> first | omega | (exfalso; linarith)

lemma roundEven_le_of_le {q : ℚ} {n : ℕ} (h : q ≤ n) : roundEven q ≤ n :=
  (roundEven_mono h).trans (roundEven_natCast n).le

lemma le_roundEven_of_le {q : ℚ} {n : ℕ} (h : (n : ℚ) ≤ q) : n ≤ roundEven q :=
  (roundEven_natCast n).ge.trans (roundEven_mono h)

/-! ## The grid -/

lemma two_zpow_pos (k : ℤ) : (0 : ℚ) < 2 ^ k :=
  zpow_pos two_pos k

/-- The binary logarithm of a number is the power of two that it lies above. -/
lemma log_eq_iff {x : ℚ} (hx : 0 < x) {k : ℤ} :
    Int.log 2 x = k ↔ (2 : ℚ) ^ k ≤ x ∧ x < 2 ^ (k + 1) := by
  have hle : (2 : ℚ) ^ Int.log 2 x ≤ x := by exact_mod_cast Int.zpow_log_le_self one_lt_two hx
  have hlt : x < (2 : ℚ) ^ (Int.log 2 x + 1) := by
    exact_mod_cast Int.lt_zpow_succ_log_self one_lt_two x
  constructor
  · rintro rfl
    exact ⟨hle, hlt⟩
  · rintro ⟨hle', hlt'⟩
    have hup := (zpow_lt_zpow_iff_right₀ (one_lt_two (α := ℚ))).mp (hle.trans_lt hlt')
    have hdown := (zpow_lt_zpow_iff_right₀ (one_lt_two (α := ℚ))).mp (hle'.trans_lt hlt)
    omega

/-- The exponent of the step of the grid around a positive number. -/
def grid (x : ℚ) : ℤ :=
  max (Int.log 2 x - 52) (-1074)

/-- The nearest point of the grid. -/
def rounded (x : ℚ) : ℚ :=
  roundEven (x / 2 ^ grid x) * 2 ^ grid x

/-- Zero is on the grid. -/
lemma rounded_zero : rounded 0 = 0 := by
  have hzero : roundEven 0 = 0 := by exact_mod_cast roundEven_natCast 0
  unfold rounded
  rw [zero_div, hzero, Nat.cast_zero, zero_mul]

lemma rounded_nonneg (x : ℚ) : 0 ≤ rounded x :=
  mul_nonneg (Nat.cast_nonneg _) (two_zpow_pos _).le

lemma lt_of_log {x : ℚ} (hx : 0 < x) : x < 2 ^ (Int.log 2 x + 1) :=
  ((log_eq_iff hx).mp rfl).2

lemma le_of_log {x : ℚ} (hx : 0 < x) : (2 : ℚ) ^ Int.log 2 x ≤ x :=
  ((log_eq_iff hx).mp rfl).1

/-- A number has at most 53 binary digits in steps of its grid. -/
lemma div_grid_lt {x : ℚ} (hx : 0 < x) : x / 2 ^ grid x < 2 ^ 53 := by
  rw [div_lt_iff₀ (two_zpow_pos _), ← zpow_natCast, ← zpow_add₀ two_ne_zero]
  refine (lt_of_log hx).trans_le (zpow_le_zpow_right₀ one_le_two ?_)
  unfold grid
  push_cast
  omega

/-- It has exactly that many, unless its grid is the finest one. -/
lemma le_div_grid {x : ℚ} (hx : 0 < x) (hgrid : grid x ≠ -1074) : 2 ^ 52 ≤ x / 2 ^ grid x := by
  rw [le_div_iff₀ (two_zpow_pos _), ← zpow_natCast, ← zpow_add₀ two_ne_zero]
  refine (zpow_le_zpow_right₀ one_le_two ?_).trans (le_of_log hx)
  unfold grid at hgrid ⊢
  push_cast
  omega

lemma log_mono {x y : ℚ} (hx : 0 < x) (h : x ≤ y) : Int.log 2 x ≤ Int.log 2 y :=
  Int.log_mono_right hx h

/-- Rounding is monotone. -/
theorem rounded_mono {x y : ℚ} (hx : 0 ≤ x) (h : x ≤ y) : rounded x ≤ rounded y := by
  rcases hx.eq_or_lt with rfl | hx
  · rw [rounded_zero]
    exact rounded_nonneg y
  have hlog := log_mono hx h
  have hgrid : grid x ≤ grid y := max_le_max (by omega) le_rfl
  rcases hgrid.eq_or_lt with heq | hlt
  · unfold rounded
    rw [heq]
    have hdiv : x / 2 ^ grid y ≤ y / 2 ^ grid y := by gcongr
    gcongr
    exact roundEven_mono hdiv
  · -- the power of two below `y` lies on both grids
    have hcoarse : grid y = Int.log 2 y - 52 := by
      unfold grid at hlt ⊢
      omega
    have hbetween : Int.log 2 x + 1 ≤ Int.log 2 y := by
      unfold grid at hlt
      omega
    have hbelow : rounded x ≤ 2 ^ Int.log 2 y := by
      have hsteps : x / 2 ^ grid x ≤ ((2 ^ (Int.log 2 y - grid x).toNat : ℕ) : ℚ) := by
        rw [div_le_iff₀ (two_zpow_pos _)]
        push_cast
        rw [← zpow_natCast, ← zpow_add₀ two_ne_zero]
        refine (lt_of_log hx).le.trans (zpow_le_zpow_right₀ one_le_two ?_)
        omega
      calc rounded x ≤ ((2 ^ (Int.log 2 y - grid x).toNat : ℕ) : ℚ) * 2 ^ grid x := by
            unfold rounded
            gcongr
            exact roundEven_le_of_le hsteps
        _ = 2 ^ Int.log 2 y := by
            push_cast
            rw [← zpow_natCast, ← zpow_add₀ two_ne_zero]
            congr 1
            omega
    have habove : (2 : ℚ) ^ Int.log 2 y ≤ rounded y := by
      have hy : 0 < y := hx.trans_le h
      have hsteps : ((2 ^ 52 : ℕ) : ℚ) ≤ y / 2 ^ grid y := by
        exact_mod_cast le_div_grid hy (by unfold grid at hlt ⊢; omega)
      calc (2 : ℚ) ^ Int.log 2 y = ((2 ^ 52 : ℕ) : ℚ) * 2 ^ grid y := by
            rw [Nat.cast_pow, Nat.cast_ofNat, ← zpow_natCast, ← zpow_add₀ two_ne_zero, hcoarse]
            congr 1
            push_cast
            omega
        _ ≤ rounded y := by
            unfold rounded
            gcongr
            exact le_roundEven_of_le hsteps
    exact hbelow.trans habove

/-! ## Points of a grid -/

/-- A mantissa and an exponent that floating-point numbers can have, but for the bound on the
exponent. -/
structure OnGrid (mantissa : ℕ) (exponent : ℤ) : Prop where
  lt : mantissa < 2 ^ 53
  le_exponent : -1074 ≤ exponent
  le_or_eq : 2 ^ 52 ≤ mantissa ∨ exponent = -1074

/-- A point of a grid is its own nearest. -/
lemma rounded_of_lt {mantissa : ℕ} {exponent : ℤ} (hlt : mantissa < 2 ^ 53)
    (hexponent : -1074 ≤ exponent) :
    rounded (mantissa * 2 ^ exponent) = mantissa * 2 ^ exponent := by
  rcases mantissa.eq_zero_or_pos with rfl | hpos
  · rw [Nat.cast_zero, zero_mul, rounded_zero]
  generalize hx : (mantissa : ℚ) * 2 ^ exponent = x
  have hxpos : 0 < x := hx ▸ mul_pos (Nat.cast_pos.mpr hpos) (two_zpow_pos _)
  have hfine : grid x ≤ exponent := by
    have hbound : x < 2 ^ (exponent + 53) := by
      rw [← hx, add_comm, zpow_add₀ two_ne_zero]
      gcongr
      exact_mod_cast hlt
    have hlog := (zpow_lt_zpow_iff_right₀ (one_lt_two (α := ℚ))).mp
      ((le_of_log hxpos).trans_lt hbound)
    unfold grid
    omega
  have hsteps : x / 2 ^ grid x = ((mantissa * 2 ^ (exponent - grid x).toNat : ℕ) : ℚ) := by
    have hexponent : ((exponent - grid x).toNat : ℤ) + grid x = exponent := by omega
    rw [div_eq_iff (two_zpow_pos _).ne', Nat.cast_mul, Nat.cast_pow, Nat.cast_ofNat, ← zpow_natCast,
      mul_assoc, ← zpow_add₀ two_ne_zero, hexponent, hx]
  unfold rounded
  rw [hsteps, roundEven_natCast, ← hsteps, div_mul_cancel₀ _ (two_zpow_pos _).ne']

/-! ## The rounding bits -/

/-- What a mantissa with its two rounding bits says of a number: its whole part, whether it is
below, at or above the middle, and whether it is exact. -/
def Represents (extended : ExtendedMantissa) (q : ℚ) : Prop :=
  if extended.stickyBit then
    extended.mantissa + (extended.roundBit.toNat : ℚ) / 2 < q ∧
      q < extended.mantissa + (extended.roundBit.toNat : ℚ) / 2 + 1 / 2
  else q = extended.mantissa + (extended.roundBit.toNat : ℚ) / 2

namespace Represents

variable {extended : ExtendedMantissa} {q : ℚ}

/-- The mantissa is the whole part of the number. -/
lemma floor_eq (h : Represents extended q) : ⌊q⌋₊ = extended.mantissa := by
  obtain ⟨m, r, s⟩ := extended
  have hm : (0 : ℚ) ≤ m := Nat.cast_nonneg m
  cases r <;> cases s <;> simp only [Represents, Bool.toNat_false, Bool.toNat_true,
    Bool.false_eq_true, if_true, if_false, Nat.cast_zero, Nat.cast_one] at h
  · rw [h]; simp
  · exact (Nat.floor_eq_iff (by linarith)).mpr ⟨by linarith, by linarith⟩
  · exact (Nat.floor_eq_iff (by linarith)).mpr ⟨by linarith, by linarith⟩
  · exact (Nat.floor_eq_iff (by linarith)).mpr ⟨by linarith, by linarith⟩

/-- The rounding bits say which way the number is rounded. -/
lemma roundedMantissa_eq (h : Represents extended q) :
    extended.roundedMantissa = roundEven q := by
  unfold roundEven
  rw [h.floor_eq]
  obtain ⟨m, r, s⟩ := extended
  cases r <;> cases s <;> simp only [Represents, Bool.toNat_false, Bool.toNat_true,
    Bool.false_eq_true, if_true, if_false, Nat.cast_zero, Nat.cast_one] at h
  · rw [h, if_pos (by norm_num)]; rfl
  · rw [if_pos (by linarith)]; rfl
  · rw [if_neg (by linarith), if_neg (by linarith)]; rfl
  · rw [if_neg (by linarith), if_pos (by linarith)]; rfl

/-- A shift by one place halves the number. -/
lemma shiftRightOne (h : Represents extended q) : Represents extended.shiftRightOne (q / 2) := by
  obtain ⟨m, r, s⟩ := extended
  have hm : ((m % 2 : ℕ) : ℚ) + 2 * ((m / 2 : ℕ) : ℚ) = m := by exact_mod_cast Nat.mod_add_div m 2
  have hbit : (((m % 2 != 0).toNat : ℕ) : ℚ) = (m % 2 : ℕ) := by
    rcases Nat.mod_two_eq_zero_or_one m with hmod | hmod <;> rw [hmod] <;> rfl
  cases r <;> cases s <;> simp only [Represents, ExtendedMantissa.shiftRightOne, hbit,
    Bool.toNat_false, Bool.toNat_true, Bool.false_eq_true, if_true, if_false, Nat.cast_zero,
    Nat.cast_one, Bool.or_true, Bool.or_false] at h ⊢
  · linarith
  · exact ⟨by linarith, by linarith⟩
  · exact ⟨by linarith, by linarith⟩
  · exact ⟨by linarith, by linarith⟩

/-- A shift divides the number by a power of two. -/
lemma shiftRight (h : Represents extended q) (n : ℕ) :
    Represents (extended >>> n) (q / 2 ^ n) := by
  change Represents (n.repeat ExtendedMantissa.shiftRightOne extended) _
  induction n with
  | zero => simpa [Nat.repeat] using h
  | succ n ih =>
    rw [Nat.repeat, pow_succ, ← div_div]
    exact ih.shiftRightOne

/-- A mantissa without rounding bits represents itself. -/
lemma ofExact (mantissa : ℕ) :
    Represents (.ofMantissaAndAccuracy mantissa .exact) mantissa := by
  simp [Represents, ExtendedMantissa.ofMantissaAndAccuracy]

/-- The remainder of a division tells how far the quotient is off. -/
lemma ofFraction (mantissa : ℕ) {num den : ℕ} (h : num < den) :
    Represents (.ofMantissaAndAccuracy mantissa (accuracyOfFraction num den))
      (mantissa + num / den) := by
  have hden : (0 : ℚ) < den := Nat.cast_pos.mpr (by omega)
  unfold accuracyOfFraction
  split_ifs with hzero
  · simp [Represents, ExtendedMantissa.ofMantissaAndAccuracy, hzero]
  · have hpos : (0 : ℚ) < num / den := div_pos (Nat.cast_pos.mpr (by omega)) hden
    have hone : (num : ℚ) / den < 1 := (div_lt_one hden).mpr (by exact_mod_cast h)
    rcases lt_trichotomy (2 * num) den with hlt | heq | hgt
    · have hhalf : (num : ℚ) / den < 1 / 2 := by
        rw [div_lt_div_iff₀ hden two_pos]
        exact_mod_cast (by omega : num * 2 < 1 * den)
      rw [Nat.compare_eq_lt.mpr hlt]
      simp only [Represents, ExtendedMantissa.ofMantissaAndAccuracy, if_true, Bool.toNat_false,
        Nat.cast_zero]
      exact ⟨by linarith, by linarith⟩
    · have hhalf : (num : ℚ) / den = 1 / 2 := by
        rw [div_eq_div_iff hden.ne' two_ne_zero]
        exact_mod_cast (by omega : num * 2 = 1 * den)
      rw [Nat.compare_eq_eq.mpr heq]
      simp only [Represents, ExtendedMantissa.ofMantissaAndAccuracy, Bool.false_eq_true, if_false,
        Bool.toNat_true, Nat.cast_one]
      rw [hhalf]
    · have hhalf : 1 / 2 < (num : ℚ) / den := by
        rw [div_lt_div_iff₀ two_pos hden]
        exact_mod_cast (by omega : 1 * den < num * 2)
      rw [Nat.compare_eq_gt.mpr hgt]
      simp only [Represents, ExtendedMantissa.ofMantissaAndAccuracy, if_true, Bool.toNat_true,
        Nat.cast_one]
      exact ⟨by linarith, by linarith⟩

end Represents

/-! ## The rounding of a mantissa -/

section Rounding

variable {mantissa : ℕ} {exponent : ℤ} {x : ℚ}

lemma targetExponent_eq (t : ℤ) : Format.binary64.targetExponent t = max (t - 53) (-1074) :=
  rfl

/-- The leading digit of the mantissa is that of the number. -/
lemma log_eq_of_floor_eq (hx : 0 < x) (hpos : 0 < mantissa)
    (h : ⌊x / 2 ^ exponent⌋₊ = mantissa) : Int.log 2 x = mantissa.log2 + exponent := by
  have hbounds := (Nat.floor_eq_iff (div_pos hx (two_zpow_pos exponent)).le).mp h
  have hlow : ((2 ^ mantissa.log2 : ℕ) : ℚ) ≤ mantissa :=
    Nat.cast_le.mpr (Nat.log2_self_le hpos.ne')
  have hhigh : (mantissa : ℚ) + 1 ≤ ((2 ^ (mantissa.log2 + 1) : ℕ) : ℚ) := by
    exact_mod_cast Nat.lt_log2_self (n := mantissa)
  rw [Nat.cast_pow, Nat.cast_ofNat, ← zpow_natCast] at hlow hhigh
  rw [le_div_iff₀ (two_zpow_pos _), div_lt_iff₀ (two_zpow_pos _)] at hbounds
  refine (log_eq_iff hx).mpr ⟨?_, ?_⟩
  · rw [zpow_add₀ two_ne_zero]
    exact le_trans (by gcongr) hbounds.1
  · have hsplit :
        (mantissa.log2 : ℤ) + exponent + 1 = ((mantissa.log2 + 1 : ℕ) : ℤ) + exponent := by
      push_cast
      ring
    rw [hsplit, zpow_add₀ two_ne_zero]
    exact hbounds.2.trans_le (by gcongr)

/-- The exponent aimed at is that of the grid. -/
lemma targetExponent_eq_grid (hx : 0 < x) (h : ⌊x / 2 ^ exponent⌋₊ = mantissa)
    (hfine : exponent ≤ grid x) :
    Format.binary64.targetExponent (totalExponent mantissa exponent) = grid x := by
  rw [targetExponent_eq]
  unfold totalExponent
  rcases mantissa.eq_zero_or_pos with rfl | hpos
  · -- without a leading digit the number is below the finest grid
    have hlt : x < 2 ^ exponent := by
      rw [Nat.floor_eq_zero, div_lt_one (two_zpow_pos _)] at h
      exact h
    have hlog := (zpow_lt_zpow_iff_right₀ (one_lt_two (α := ℚ))).mp ((le_of_log hx).trans_lt hlt)
    have hzero : Nat.log2 0 = 0 := by decide
    unfold grid at hfine ⊢
    rw [hzero]
    omega
  · have hlog := log_eq_of_floor_eq hx hpos h
    unfold grid
    omega

variable {accuracy : Accuracy}

/-- The first shift leads to the grid, and rounds to its nearest point. -/
lemma shiftToTargetExponent_of_represents (hx : 0 < x)
    (h : Represents (.ofMantissaAndAccuracy mantissa accuracy) (x / 2 ^ exponent))
    (hfine : exponent ≤ grid x) :
    (shiftToTargetExponent .binary64 mantissa exponent accuracy).1.roundedMantissa =
        roundEven (x / 2 ^ grid x) ∧
      (shiftToTargetExponent .binary64 mantissa exponent accuracy).2 = grid x := by
  have hmantissa :
      (ExtendedMantissa.ofMantissaAndAccuracy mantissa accuracy).mantissa = mantissa := by
    unfold ExtendedMantissa.ofMantissaAndAccuracy
    split <;> rfl
  have hfloor := h.floor_eq
  rw [hmantissa] at hfloor
  have hshift : ((grid x - exponent).toNat : ℤ) = grid x - exponent :=
    Int.toNat_of_nonneg (by omega)
  unfold shiftToTargetExponent shiftToExponent
  rw [targetExponent_eq_grid hx hfloor hfine]
  refine ⟨?_, ?_⟩
  · have hdiv : x / 2 ^ exponent / 2 ^ (grid x - exponent).toNat = x / 2 ^ grid x := by
      rw [div_div, ← zpow_natCast, ← zpow_add₀ two_ne_zero, hshift, add_sub_cancel]
    rw [← hdiv]
    exact (h.shiftRight _).roundedMantissa_eq
  · dsimp only
    rw [hshift, add_sub_cancel]

/-- The second shift is by one place, if the mantissa has grown by a digit. -/
lemma shiftToTargetExponent_exact (hle : mantissa ≤ 2 ^ 53) (hexponent : -1074 ≤ exponent) :
    let shifted := shiftToTargetExponent .binary64 mantissa exponent .exact
    mantissa < 2 ^ 53 ∧ shifted.1.mantissa = mantissa ∧ shifted.2 = exponent ∨
      mantissa = 2 ^ 53 ∧ shifted.1.mantissa = 2 ^ 52 ∧ shifted.2 = exponent + 1 := by
  dsimp only
  unfold shiftToTargetExponent shiftToExponent
  rw [targetExponent_eq]
  unfold totalExponent
  rcases hle.lt_or_eq with hlt | rfl
  · refine .inl ⟨hlt, ?_⟩
    have hlog : mantissa.log2 < 53 := by
      rcases mantissa.eq_zero_or_pos with rfl | hpos
      · decide
      · exact (Nat.log2_lt hpos.ne').mpr hlt
    have hshift : (max ((mantissa.log2 : ℤ) + 1 + exponent - 53) (-1074) - exponent).toNat = 0 := by
      omega
    dsimp only
    rw [hshift]
    exact ⟨rfl, add_zero exponent⟩
  · refine .inr ⟨rfl, ?_⟩
    have hshift :
        (max (((2 ^ 53 : ℕ).log2 : ℤ) + 1 + exponent - 53) (-1074) - exponent).toNat = 1 := by
      rw [Nat.log2_two_pow]
      omega
    dsimp only
    rw [hshift]
    exact ⟨rfl, rfl⟩

/-- Rounding arrives at the nearest point of the grid, or at zero. -/
theorem roundWithAccuracy_cases (hx : 0 < x)
    (h : Represents (.ofMantissaAndAccuracy mantissa accuracy) (x / 2 ^ exponent))
    (hfine : exponent ≤ grid x) (sign : Sign) :
    roundWithAccuracy .binary64 sign mantissa exponent accuracy = .zero sign ∧ rounded x = 0 ∨
      ∃ m e hpos, roundWithAccuracy .binary64 sign mantissa exponent accuracy =
        .finite sign m e hpos ∧ OnGrid m e ∧ (m : ℚ) * 2 ^ e = rounded x := by
  obtain ⟨hmantissa, hexponent⟩ := shiftToTargetExponent_of_represents hx h hfine
  have hgrid : -1074 ≤ grid x := le_max_right _ _
  have hle : roundEven (x / 2 ^ grid x) ≤ 2 ^ 53 :=
    roundEven_le_of_le (by exact_mod_cast (div_grid_lt hx).le)
  have hnormal : 2 ^ 52 ≤ roundEven (x / 2 ^ grid x) ∨ grid x = -1074 := by
    by_cases hfinest : grid x = -1074
    · exact .inr hfinest
    · exact .inl (le_roundEven_of_le (by exact_mod_cast le_div_grid hx hfinest))
  have hcarry := shiftToTargetExponent_exact hle hgrid
  unfold roundWithAccuracy
  dsimp only at hcarry ⊢
  rw [hmantissa, hexponent]
  unfold rounded
  generalize shiftToTargetExponent .binary64 (roundEven (x / 2 ^ grid x)) (grid x) .exact = shifted
    at hcarry ⊢
  generalize roundEven (x / 2 ^ grid x) = n at hle hnormal hcarry ⊢
  generalize grid x = g at hgrid hnormal hcarry ⊢
  obtain ⟨⟨m, r, s⟩, e⟩ := shifted
  dsimp only at hcarry ⊢
  rcases hcarry with ⟨hlt, rfl, rfl⟩ | ⟨rfl, rfl, rfl⟩
  · rcases m.eq_zero_or_pos with rfl | hpos
    · exact .inl ⟨dif_pos rfl, by simp⟩
    · exact .inr ⟨m, e, hpos, dif_neg hpos.ne', ⟨hlt, hgrid, hnormal⟩, rfl⟩
  · refine .inr ⟨2 ^ 52, g + 1, by positivity, dif_neg (by positivity),
      ⟨by norm_num, by omega, .inl le_rfl⟩, ?_⟩
    rw [zpow_add₀ two_ne_zero]
    norm_num
    ring

end Rounding

end LanguageDetection.FloatingPoint
