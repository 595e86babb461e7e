import LanguageDetection.Proofs.Decimal.Shortest
import LanguageDetection.Proofs.ExactScalar
import LanguageDetection.Proofs.FloatingPoint.Bits
import LanguageDetection.Proofs.FloatingPoint.Signed

/-!
# What floating-point scalars stand for

A scalar of the program stands for a rational number (`StandsFor`), and the operations on scalars
are those on rational numbers, rounded to the closest value.  Comparing and rounding to an integer
are exact.  So is adding and multiplying half-integers of at most 52 digits, which is all that a
score is made with (`StandsFor.add_half`, `StandsFor.mul_half`).  Shares are rounded, and the error
grows by one rounding with each operation on them (`IsCloseTo`).
-/

namespace LanguageDetection.FloatingPoint

open Float.Model (UnpackedFloat)
open Decimal (Binary)

/-! ## Rounding -/

section Nearest

variable {r : ℚ}

/-- A point of a grid is its own nearest, on whatever grid. -/
lemma nearest_point {m : ℕ} {e : ℤ} (hm : m < 2 ^ 53) (he : -1074 ≤ e) (hbound : e ≤ 971) :
    nearest (m * 2 ^ e) = m * 2 ^ e := by
  have hle : (m : ℚ) * 2 ^ e ≤ 2 ^ 1024 := by
    have hm' : (m : ℚ) ≤ 2 ^ (53 : ℤ) := by exact_mod_cast hm.le
    calc (m : ℚ) * 2 ^ e ≤ 2 ^ (53 : ℤ) * 2 ^ (971 : ℤ) := by
          gcongr
          exact one_le_two
      _ = 2 ^ 1024 := by
          rw [← zpow_add₀ two_ne_zero, ← zpow_natCast]
          rfl
  unfold nearest
  rw [rounded_of_lt hm he, min_eq_left hle]

/-- A power of two is its own nearest. -/
lemma nearest_two_pow {k : ℕ} (hk : k ≤ 971) : nearest (2 ^ k) = 2 ^ k := by
  have hpoint := @nearest_point 1 k (by norm_num) (by omega) (by omega)
  rwa [Nat.cast_one, one_mul, zpow_natCast] at hpoint

/-- The size of the closest value is the value nearest to the size. -/
lemma abs_closest (r : ℚ) : |closest r| = nearest |r| := by
  rcases le_total 0 r with hr | hr
  · rw [closest_of_nonneg hr, abs_of_nonneg hr, abs_of_nonneg (nearest_nonneg r)]
  · rw [abs_of_nonpos hr, ← closest_of_nonneg (neg_nonneg.mpr hr), closest_neg, abs_of_nonpos]
    rw [← neg_nonneg, ← closest_neg, closest_of_nonneg (neg_nonneg.mpr hr)]
    exact nearest_nonneg _

/-- Rounding does not lead beyond a power of two. -/
lemma abs_closest_le {k : ℕ} (hk : k ≤ 971) (h : |r| ≤ 2 ^ k) : |closest r| ≤ 2 ^ k := by
  rw [abs_closest, ← nearest_two_pow hk]
  exact nearest_mono (abs_nonneg r) h

/-- What is below a power of two is not rounded to infinity. -/
lemma abs_closest_lt_infinity {k : ℕ} (hk : k ≤ 971) (h : |r| ≤ 2 ^ k) :
    |closest r| < 2 ^ 1024 :=
  (abs_closest_le hk h).trans_lt (pow_lt_pow_right₀ one_lt_two (by omega))

/-- Half-integers of at most 52 digits are exact. -/
lemma closest_of_isHalfInteger (h : IsHalfInteger r) (hbound : |r| ≤ 2 ^ 51) : closest r = r := by
  obtain ⟨k, rfl⟩ := h
  have hk : |(k : ℚ)| ≤ 2 ^ 52 := by
    rw [abs_div, abs_two, div_le_iff₀ two_pos] at hbound
    linarith
  have hlt : k.natAbs < 2 ^ 53 := by
    have hk' : |k| ≤ 2 ^ 52 := by exact_mod_cast hk
    rw [Int.abs_eq_natAbs] at hk'
    omega
  have hnonneg : (0 : ℚ) ≤ k.natAbs / 2 := by positivity
  have hpoint := @nearest_point k.natAbs (-1) hlt (by norm_num) (by norm_num)
  rw [zpow_neg_one, ← div_eq_mul_inv] at hpoint
  rcases k.natAbs_eq with hpos | hneg
  · rw [hpos, Int.cast_natCast, closest_of_nonneg hnonneg, hpoint]
  · rw [hneg, Int.cast_neg, Int.cast_natCast, neg_div, closest_neg, closest_of_nonneg hnonneg,
      hpoint]

/-- Rounding to an integer is off by one half at most. -/
lemma abs_roundEven_sub_le {q : ℚ} (hq : 0 ≤ q) : |roundEven q - q| ≤ 1 / 2 := by
  have hfloor := Nat.floor_le hq
  have hceil := Nat.lt_floor_add_one q
  unfold roundEven
  rw [abs_le]
  split_ifs with hlow hhigh
  · exact ⟨by linarith, by linarith⟩
  · push_cast
    exact ⟨by linarith, by linarith⟩
  · have hbit : ((⌊q⌋₊ % 2 : ℕ) : ℚ) = 0 ∨ ((⌊q⌋₊ % 2 : ℕ) : ℚ) = 1 := by
      rcases Nat.mod_two_eq_zero_or_one ⌊q⌋₊ with h | h <;> simp [h]
    push_cast at hbit ⊢
    rcases hbit with h | h <;> rw [h] <;> exact ⟨by linarith, by linarith⟩

/-- Below a power of two half a step of the grid is at most that power by 54 digits. -/
lemma abs_nearest_sub_le {k : ℕ} (hk : k ≤ 971) (hr : 0 ≤ r) (h : r ≤ 2 ^ k) :
    |nearest r - r| ≤ 2 ^ k / 2 ^ 54 := by
  have hnonneg : (0 : ℚ) ≤ 2 ^ k / 2 ^ 54 := by positivity
  rcases hr.eq_or_lt with rfl | hpos
  · rwa [nearest_zero, sub_zero, abs_zero]
  rcases h.eq_or_lt with rfl | hlt
  · rwa [nearest_two_pow hk, sub_self, abs_zero]
  have hfinite : nearest r < 2 ^ 1024 := by
    calc nearest r ≤ nearest (2 ^ k) := nearest_mono hr h
      _ = 2 ^ k := nearest_two_pow hk
      _ < 2 ^ 1024 := pow_lt_pow_right₀ one_lt_two (by omega)
  have hstep : (2 : ℚ) ^ grid r ≤ 2 ^ k / 2 ^ 53 := by
    have hlog : Int.log 2 r < k := by
      rw [← zpow_natCast] at hlt
      exact (zpow_lt_zpow_iff_right₀ one_lt_two).mp ((le_of_log hpos).trans_lt hlt)
    rw [← zpow_natCast, ← zpow_natCast, ← zpow_sub₀ two_ne_zero]
    refine zpow_le_zpow_right₀ one_le_two ?_
    unfold grid
    push_cast
    omega
  have hround := abs_roundEven_sub_le (div_pos hpos (two_zpow_pos (grid r))).le
  have hfactor : rounded r - r = (roundEven (r / 2 ^ grid r) - r / 2 ^ grid r) * 2 ^ grid r := by
    rw [sub_mul, div_mul_cancel₀ _ (two_zpow_pos _).ne']
    rfl
  calc |nearest r - r| = |roundEven (r / 2 ^ grid r) - r / 2 ^ grid r| * 2 ^ grid r := by
        rw [nearest_eq_rounded hfinite, hfactor, abs_mul, abs_of_pos (two_zpow_pos _)]
    _ ≤ 1 / 2 * (2 ^ k / 2 ^ 53) := by gcongr
    _ = 2 ^ k / 2 ^ 54 := by ring

/-- The same on both sides of zero. -/
lemma abs_closest_sub_le {k : ℕ} (hk : k ≤ 971) (h : |r| ≤ 2 ^ k) :
    |closest r - r| ≤ 2 ^ k / 2 ^ 54 := by
  rcases le_total 0 r with hr | hr
  · rw [closest_of_nonneg hr]
    rw [abs_of_nonneg hr] at h
    exact abs_nearest_sub_le hk hr h
  · rw [abs_of_nonpos hr] at h
    have hneg := abs_nearest_sub_le hk (neg_nonneg.mpr hr) h
    rwa [← closest_of_nonneg (neg_nonneg.mpr hr), closest_neg, neg_sub_neg, abs_sub_comm] at hneg

end Nearest

/-! ## Scalars -/

/-- A floating-point number is the exact one of a rational number. -/
def StandsFor (x : Float) (r : ℚ) : Prop :=
  HasValue x.toModel.unpack r

variable {x y : Float} {r s : ℚ}

namespace StandsFor

/-- Floating-point numbers are compared as what they stand for. -/
lemma lt_iff (hx : StandsFor x r) (hy : StandsFor y s) : x < y ↔ r < s := by
  rw [float_lt_iff]
  exact hx.compare_iff hy

lemma isNaN_eq_false (h : StandsFor x r) : x.isNaN = false :=
  HasValue.isNaN_eq_false h

lemma le_iff (hx : StandsFor x r) (hy : StandsFor y s) : x ≤ y ↔ r ≤ s := by
  rw [← not_lt, ← hy.lt_iff hx]
  exact ⟨float_not_lt_of_le, float_le_of_not_lt hx.isNaN_eq_false hy.isNaN_eq_false⟩

section Rounded

variable {k : ℕ} (hk : k ≤ 971)

include hk

/-- A sum stands for the value closest to the exact sum. -/
lemma add (hx : StandsFor x r) (hy : StandsFor y s) (h : |r + s| ≤ 2 ^ k) :
    StandsFor (x + y) (closest (r + s)) :=
  HasValue.add hx hy (abs_closest_lt_infinity hk h)

/-- A difference stands for the value closest to the exact difference. -/
lemma sub (hx : StandsFor x r) (hy : StandsFor y s) (h : |r - s| ≤ 2 ^ k) :
    StandsFor (x - y) (closest (r - s)) :=
  HasValue.sub hx hy (abs_closest_lt_infinity hk h)

/-- A product stands for the value closest to the exact product. -/
lemma mul (hx : StandsFor x r) (hy : StandsFor y s) (h : |r * s| ≤ 2 ^ k) :
    StandsFor (x * y) (closest (r * s)) :=
  HasValue.mul hx hy (abs_closest_lt_infinity hk h)

/-- A quotient stands for the value closest to the exact quotient. -/
lemma div (hx : StandsFor x r) (hy : StandsFor y s) (hne : s ≠ 0) (h : |r / s| ≤ 2 ^ k) :
    StandsFor (x / y) (closest (r / s)) :=
  HasValue.div hx hy hne (abs_closest_lt_infinity hk h)

end Rounded

/-- The negative is exact. -/
lemma neg (hx : StandsFor x r) : StandsFor x.neg (-r) := by
  have hvalue : HasValue (settle x.toModel.unpack.neg) (-r) := by
    rw [(HasValue.neg hx).settle_eq]
    exact HasValue.neg hx
  exact hvalue

/-- A sum of half-integers is exact. -/
lemma add_half (hx : StandsFor x r) (hy : StandsFor y s) (hhalf : IsHalfInteger (r + s))
    (hbound : |r + s| ≤ 2 ^ 51) : StandsFor (x + y) (r + s) := by
  have hsum := add (by norm_num) hx hy hbound
  rwa [closest_of_isHalfInteger hhalf hbound] at hsum

/-- A product is exact if it is a half-integer. -/
lemma mul_half (hx : StandsFor x r) (hy : StandsFor y s) (hhalf : IsHalfInteger (r * s))
    (hbound : |r * s| ≤ 2 ^ 51) : StandsFor (x * y) (r * s) := by
  have hproduct := mul (by norm_num) hx hy hbound
  rwa [closest_of_isHalfInteger hhalf hbound] at hproduct

/-- The greater of two numbers stands for the greater of what they stand for. -/
lemma max (hx : StandsFor x r) (hy : StandsFor y s) :
    StandsFor (Scalar.max x y) (Max.max r s) := by
  have hiff := hx.lt_iff hy
  unfold Scalar.max
  split
  · next hlt => rwa [max_eq_right (hiff.mp hlt).le]
  · next hlt => rwa [max_eq_left (not_lt.mp (hiff.not.mp hlt))]

/-- The lesser of two numbers stands for the lesser of what they stand for. -/
lemma min (hx : StandsFor x r) (hy : StandsFor y s) :
    StandsFor (Scalar.min x y) (Min.min r s) := by
  have hiff := hy.lt_iff hx
  unfold Scalar.min
  split
  · next hlt => rwa [min_eq_right (hiff.mp hlt).le]
  · next hlt => rwa [min_eq_left (not_lt.mp (hiff.not.mp hlt))]

end StandsFor

/-! ## Constants -/

/-- A numeral of at most 53 binary digits is exact. -/
lemma standsFor_natCast {n : ℕ} (h : n < 2 ^ 53) : StandsFor (Float.ofNat n) n := by
  have hdenotes := denotes_numeral n
  rw [nearest_natCast h] at hdenotes
  exact hdenotes.hasValue (natCast_lt_infinity h)

/-- So is an integer of at most 53 binary digits. -/
lemma standsFor_intCast {n : ℤ} (h : n.natAbs < 2 ^ 53) : StandsFor (Float.ofInt n) n := by
  cases n with
  | ofNat n => exact standsFor_natCast h
  | negSucc n =>
    rw [Int.cast_negSucc]
    exact (standsFor_natCast h).neg

/-- A small rational number is converted to the closest floating-point number. -/
theorem standsFor_ofRat (hnum : r.num.natAbs < 2 ^ 53) (hden : r.den < 2 ^ 53) :
    StandsFor (Scalar.ofRat r : Float) (closest r) := by
  have hne : (r.den : ℚ) ≠ 0 := Nat.cast_ne_zero.mpr r.den_nz
  have hbound : |r| ≤ 2 ^ 53 := by
    have hnum' : |(r.num : ℚ)| ≤ 2 ^ 53 := by
      rw [← Int.cast_abs, Int.abs_eq_natAbs]
      exact_mod_cast hnum.le
    rw [← Rat.num_div_den r, abs_div, Nat.abs_cast]
    exact (div_le_self (abs_nonneg _) (by exact_mod_cast r.den_pos)).trans hnum'
  rw [← Rat.num_div_den r] at hbound
  have hquotient : StandsFor (Scalar.ofRat r) _ :=
    StandsFor.div (by norm_num) (standsFor_intCast hnum) (standsFor_natCast hden) hne hbound
  rwa [Rat.num_div_den] at hquotient

/-- A count of at most 53 binary digits is exact. -/
lemma standsFor_ofNat {n : ℕ} (h : n < 2 ^ 53) : StandsFor (Scalar.ofNat n : Float) n := by
  have hdenotes := denotes_scalar_ofNat n
  rw [nearest_natCast h] at hdenotes
  exact hdenotes.hasValue (natCast_lt_infinity h)

lemma standsFor_zero : StandsFor (Scalar.ofNat 0) 0 := by
  exact_mod_cast standsFor_ofNat (n := 0) (by norm_num)

lemma standsFor_one : StandsFor (Scalar.ofNat 1) 1 := by
  exact_mod_cast standsFor_ofNat (n := 1) (by norm_num)

/-! ## Integers -/

/-- The exact value of a number is the one that it stands for. -/
lemma value_isNegative (sign : UnpackedFloat.Sign) (m : ℕ) (e : ℤ) :
    Binary.value (Binary.isNegative sign) m e = withSign sign (m * 2 ^ e) := by
  have hpower := Decimal.cast_powerOf two_pos e
  have hdown : ((Decimal.powerOf 2 e).2 : ℚ) ≠ 0 :=
    Nat.cast_ne_zero.mpr (Decimal.powerOf_pos two_pos e).2.ne'
  have hquotient : ((m * (Decimal.powerOf 2 e).1 : ℕ) : ℚ) / (Decimal.powerOf 2 e).2 =
      m * 2 ^ e := by
    rw [Nat.cast_mul, hpower, ← mul_assoc, mul_div_cancel_right₀ _ hdown, Nat.cast_ofNat]
  unfold Binary.value Decimal.powerOfTwo
  dsimp only
  rw [Rat.mkRat_eq_div]
  cases sign with
  | positive =>
    change (((m * (Decimal.powerOf 2 e).1 : ℕ) : ℤ) : ℚ) / _ = m * 2 ^ e
    rw [Int.cast_natCast, hquotient]
  | negative =>
    change ((-((m * (Decimal.powerOf 2 e).1 : ℕ) : ℤ) : ℤ) : ℚ) / _ = -(m * 2 ^ e)
    rw [Int.cast_neg, Int.cast_natCast, neg_div, hquotient]

/-- Rounding to an integer is exact. -/
theorem StandsFor.round64_eq (h : StandsFor x r) : Scalar.round64 x = Scalar.round64 r := by
  have hvalue : ∀ {u : UnpackedFloat}, HasValue u r →
      (Binary.ofUnpacked u).round64 = clampInt64 (roundAwayFromZero r) := by
    intro u hu
    cases hu with
    | zero sign =>
      have hzero : withSign sign ((0 : ℕ) * 2 ^ (-1074 : ℤ)) = 0 := by
        cases sign <;> simp [withSign]
      exact congrArg (fun q => clampInt64 (roundAwayFromZero q))
        ((value_isNegative sign 0 (-1074)).trans hzero)
    | finite sign hpos hgrid hbound =>
      exact congrArg (fun q => clampInt64 (roundAwayFromZero q)) (value_isNegative sign _ _)
  change (Binary.ofFloat x).round64 = _
  rw [Binary.ofFloat_eq]
  exact hvalue h

/-! ## Shares -/

/-- A floating-point number from 0 to 1 that is off a rational number by an error at most. -/
def IsCloseTo (x : Float) (r error : ℚ) : Prop :=
  ∃ s, StandsFor x s ∧ s ∈ Set.Icc 0 1 ∧ |s - r| ≤ error

variable {error error' : ℚ}

lemma isCloseTo_zero (h : 0 ≤ error) : IsCloseTo (Scalar.ofNat 0) 0 error := by
  refine ⟨0, standsFor_zero, by norm_num, ?_⟩
  rwa [sub_self, abs_zero]

lemma abs_le_of_mem (hr : r ∈ Set.Icc 0 1) : |r| ≤ 2 ^ 0 := by
  rw [abs_of_nonneg hr.1, pow_zero]
  exact hr.2

/-- A share is rounded to a share. -/
lemma closest_mem (hr : r ∈ Set.Icc 0 1) : closest r ∈ Set.Icc 0 1 := by
  have hclosest := abs_closest_le (by norm_num) (abs_le_of_mem hr)
  refine ⟨?_, (le_abs_self _).trans (by simpa using hclosest)⟩
  rw [closest_of_nonneg hr.1]
  exact nearest_nonneg r

lemma abs_closest_sub_le_of_mem (hr : r ∈ Set.Icc 0 1) : |closest r - r| ≤ 1 / 2 ^ 54 := by
  simpa using abs_closest_sub_le (by norm_num) (abs_le_of_mem hr)

/-- A quotient from 0 to 1 is off by one rounding. -/
lemma isCloseTo_div (hx : StandsFor x r) (hy : StandsFor y s) (hs : 0 < s)
    (hmem : r / s ∈ Set.Icc 0 1) : IsCloseTo (x / y) (r / s) (1 / 2 ^ 54) :=
  ⟨closest (r / s), StandsFor.div (by norm_num) hx hy hs.ne' (abs_le_of_mem hmem), closest_mem hmem,
    abs_closest_sub_le_of_mem hmem⟩

/-- The error of a product is that of both factors, and one rounding. -/
lemma IsCloseTo.mul (hx : IsCloseTo x r error) (hy : IsCloseTo y s error') (hr : r ∈ Set.Icc 0 1) :
    IsCloseTo (x * y) (r * s) (error + error' + 1 / 2 ^ 54) := by
  obtain ⟨r', hx, hr', herror⟩ := hx
  obtain ⟨s', hy, hs', herror'⟩ := hy
  have hmem : r' * s' ∈ Set.Icc (0 : ℚ) 1 :=
    ⟨mul_nonneg hr'.1 hs'.1, mul_le_one₀ hr'.2 hs'.1 hs'.2⟩
  refine ⟨closest (r' * s'), StandsFor.mul (by norm_num) hx hy (abs_le_of_mem hmem),
    closest_mem hmem, ?_⟩
  have hproduct : |r' * s' - r * s| ≤ error + error' := by
    calc |r' * s' - r * s| = |(r' - r) * s' + r * (s' - s)| := by ring_nf
      _ ≤ |r' - r| * s' + r * |s' - s| := by
          refine (abs_add_le _ _).trans ?_
          rw [abs_mul, abs_mul, abs_of_nonneg hs'.1, abs_of_nonneg hr.1]
      _ ≤ error + error' := by
          refine add_le_add ?_ ?_
          · exact (mul_le_of_le_one_right (abs_nonneg _) hs'.2).trans herror
          · exact (mul_le_of_le_one_left (abs_nonneg _) hr.2).trans herror'
  calc |closest (r' * s') - r * s|
      ≤ |closest (r' * s') - r' * s'| + |r' * s' - r * s| := abs_sub_le _ _ _
    _ ≤ error + error' + 1 / 2 ^ 54 := by linarith [abs_closest_sub_le_of_mem hmem]

/-- Rounding does not lead past one. -/
lemma min_closest_one (hr : 0 ≤ r) : min (closest r) 1 = closest (min r 1) := by
  have hone : closest 1 = 1 := standsFor_one.closest_eq
  have hnonneg : (0 : ℚ) ≤ 1 := zero_le_one
  rcases le_total r 1 with hle | hge
  · rw [min_eq_left hle, min_eq_left (closest_mem ⟨hr, hle⟩).2]
  · rw [min_eq_right hge, hone, min_eq_right]
    rw [← hone, closest_of_nonneg hnonneg, closest_of_nonneg hr]
    exact nearest_mono hnonneg hge

/-- Nothing is left to clamp. -/
lemma IsCloseTo.clamp (h : IsCloseTo x r error) :
    IsCloseTo (Scalar.clamp (Scalar.ofNat 0) (Scalar.ofNat 1) x) r error := by
  obtain ⟨s, hx, hs, herror⟩ := h
  unfold Scalar.clamp
  rw [if_neg ((hx.lt_iff standsFor_zero).not.mpr (not_lt.mpr hs.1)),
    if_neg ((standsFor_one.lt_iff hx).not.mpr (not_lt.mpr hs.2))]
  exact ⟨s, hx, hs, herror⟩

end LanguageDetection.FloatingPoint
