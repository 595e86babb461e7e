import LanguageDetection.Proofs.Decimal.Shortest
import LanguageDetection.Proofs.FloatingPoint.Bits
import LanguageDetection.Proofs.FloatingPoint.Arithmetic

/-!
# Numbers are read back

A decimal is converted to the nearest floating-point number, and the literal of a finite number to
that number.
-/

namespace LanguageDetection

/-!
## Floating-point numbers from decimals

A coefficient times a power of ten is converted to the nearest floating-point number
(`denotes_float_ofScientific`): small ones by one exact multiplication or division, and all others
by exact arithmetic and one rounding.
-/

namespace FloatingPoint

open Float.Model Float.Model.UnpackedFloat
open Decimal (Binary)

section Exact

variable {n k : ℕ}

/-- A natural number divided by a power of ten is converted to the nearest floating-point number. -/
lemma denotes_ofScientific_neg (hpos : 0 < n) (hk : 0 < k) (hbound : k ≤ 2048 + n.log2) :
    Denotes (settle (.ofScientific .binary64 n (-k))) (nearest (n / 10 ^ k)) := by
  have hbits : (2 : ℤ) ^ Format.binary64.exponentBits = 2048 := by decide
  have hdiv : UnpackedFloat.ofScientific .binary64 n (-k) =
      .div .binary64 (.finite .positive n 0 hpos)
        (.finite .positive (10 ^ k) 0 (by positivity)) := by
    unfold UnpackedFloat.ofScientific
    rw [dif_neg hpos.ne', hbits, if_neg (by omega), if_neg (by omega), if_neg (by omega)]
    simp only [neg_neg, Int.toNat_natCast]
  have hdenotes := denotes_div hpos (show 0 < 10 ^ k by positivity) 0 0
  rw [hdiv]
  convert hdenotes using 2
  push_cast
  rw [mul_one, mul_one]

end Exact

/-! ### Small numbers -/

/-- A number with a positive exact value denotes it. -/
lemma denotes_of_ofFloat_eq {x : Float} {m : ℕ} {e : ℤ} (hm : 0 < m)
    (h : Binary.ofFloat x = .finite false m e) : Denotes x.toModel.unpack (m * 2 ^ e) := by
  rcases Binary.unpack_cases_of_ofFloat_eq h with ⟨hzero, -⟩ | ⟨sign, hpos, hsign, hunpack⟩
  · exact absurd hzero hm.ne'
  · obtain ⟨hgrid, hbound⟩ := onGrid_of_unpack_eq hunpack
    rw [hunpack]
    cases sign with
    | positive => exact .finite hpos hgrid hbound
    | negative => cases hsign

/-- The powers of ten that are kept for small numbers are exact. -/
lemma ofFloat_powerOfTen : ∀ k, ∀ _ : k < Float.exactlyRepresentablePowersOfTen.size,
    (5 ^ k).log2 ≤ 52 ∧ Binary.ofFloat Float.exactlyRepresentablePowersOfTen[k] =
      .finite false (5 ^ k * 2 ^ (52 - (5 ^ k).log2)) ((k + (5 ^ k).log2 : ℕ) - 52) := by
  decide +kernel

/-- The table has the powers of ten. -/
lemma denotes_powerOfTen {k : ℕ} (h : k < Float.exactlyRepresentablePowersOfTen.size) :
    Denotes Float.exactlyRepresentablePowersOfTen[k].toModel.unpack (10 ^ k) := by
  obtain ⟨hlog, hpower⟩ := ofFloat_powerOfTen k h
  have hdenotes := denotes_of_ofFloat_eq (by positivity) hpower
  convert hdenotes using 1
  generalize (5 ^ k).log2 = l at hlog
  have hexponent : ((52 - l : ℕ) : ℤ) + ((k + l : ℕ) - 52) = k := by omega
  rw [Nat.cast_mul, Nat.cast_pow, Nat.cast_pow, Nat.cast_ofNat, Nat.cast_ofNat, mul_assoc,
    ← zpow_natCast 2 (52 - l), ← zpow_add₀ two_ne_zero, hexponent, zpow_natCast, ← mul_pow]
  norm_num

/-- The powers of ten in the table are finite. -/
lemma ten_pow_lt_infinity {k : ℕ} (hk : k ≤ 22) : (10 : ℚ) ^ k < 2 ^ 1024 := by
  calc (10 : ℚ) ^ k ≤ 10 ^ 22 := pow_le_pow_right₀ (by norm_num) hk
    _ < 2 ^ 74 := by norm_num
    _ ≤ 2 ^ 1024 := pow_le_pow_right₀ one_le_two (by norm_num)

/-! ### All numbers -/

section Conversion

variable {n k : ℕ}

/-- A coefficient times a power of ten is converted to the nearest floating-point number. -/
theorem denotes_float_ofScientific (hpos : 0 < n) (hk : k ≤ 2048) :
    Denotes (Float.ofScientific n false k).toModel.unpack (nearest (n * 10 ^ k)) := by
  unfold Float.ofScientific
  split
  · next h =>
    have hpower : k < Float.exactlyRepresentablePowersOfTen.size := Nat.lt_succ_of_le h.2
    exact (denotes_toUInt64 h.1).mul_finite (denotes_powerOfTen hpower) (natCast_lt_infinity h.1)
      (ten_pow_lt_infinity h.2)
  · exact denotes_ofScientific hpos hk

/-- So is a coefficient divided by a power of ten. -/
theorem denotes_float_ofScientific_neg (hpos : 0 < n) (hk : 0 < k) (hbound : k ≤ 2048 + n.log2) :
    Denotes (Float.ofScientific n true k).toModel.unpack (nearest (n / 10 ^ k)) := by
  unfold Float.ofScientific
  split
  · next h =>
    have hpower : k < Float.exactlyRepresentablePowersOfTen.size := Nat.lt_succ_of_le h.2
    exact (denotes_toUInt64 h.1).div_finite (denotes_powerOfTen hpower) (natCast_lt_infinity h.1)
      (by positivity) (ten_pow_lt_infinity h.2)
  · change Denotes (settle (.ofScientific .binary64 n (Int.negOfNat k))) _
    rw [Int.negOfNat_eq]
    exact denotes_ofScientific_neg hpos hk hbound

end Conversion

end FloatingPoint

/-!
## Numbers and their literals

The literal that a finite floating-point number is written as is read as that number again
(`toFloat_literal`).  Its decimal is near to the number, so it is converted to it: the conversion
arrives at the number that is nearest, and the bounds beyond which it does not work the decimal out
are far from all finite numbers.
-/

namespace Decimal

open FloatingPoint Float.Model

namespace Literal

variable {literal : Literal} {m : ℕ} {e : ℤ}

/-- The power of ten that the number is below. -/
def first (literal : Literal) : ℤ :=
  literal.power + (Nat.toDigits 10 literal.coefficient).length

/-- The floating-point number of the literal, its sign left out. -/
def unsigned (literal : Literal) : Float :=
  if literal.coefficient = 0 || literal.first < -400 then 0
  else if 400 < literal.first then 1 / 0
  else if 0 ≤ literal.power then
    Float.ofScientific literal.coefficient false literal.power.toNat
  else Float.ofScientific literal.coefficient true (-literal.power).toNat

lemma toFloat_eq (literal : Literal) :
    literal.toFloat = if literal.negative then -literal.unsigned else literal.unsigned :=
  rfl

/-! ### The size of a literal -/

/-- A number lies between the powers of ten that its digits count. -/
lemma length_toDigits_spec {n : ℕ} (hn : 0 < n) :
    10 ^ ((Nat.toDigits 10 n).length - 1) ≤ n ∧ n < 10 ^ (Nat.toDigits 10 n).length := by
  have hpos := Nat.length_toDigits_pos (b := 10) (n := n)
  constructor
  · rcases Nat.eq_zero_or_pos ((Nat.toDigits 10 n).length - 1) with hzero | hmore
    · rw [hzero, pow_zero]
      exact hn
    · by_contra hlt
      have hle := (Nat.length_toDigits_le_iff (by norm_num) hmore).mpr (not_le.mp hlt)
      omega
  · exact (Nat.length_toDigits_le_iff (by norm_num) hpos).mp le_rfl

/-- The first digit tells the size of the number. -/
lemma zpow_first_le (hpos : 0 < literal.coefficient) :
    (10 : ℚ) ^ (literal.first - 1) ≤ literal.value ∧ literal.value < 10 ^ literal.first := by
  obtain ⟨hle, hlt⟩ := length_toDigits_spec hpos
  have hlength := Nat.length_toDigits_pos (b := 10) (n := literal.coefficient)
  have hten : (10 : ℚ) ≠ 0 := by norm_num
  unfold first value
  constructor
  · have hexponent : literal.power + ((Nat.toDigits 10 literal.coefficient).length : ℤ) - 1 =
        ((Nat.toDigits 10 literal.coefficient).length - 1 : ℕ) + literal.power := by
      omega
    rw [hexponent, zpow_add₀ hten, zpow_natCast, mul_le_mul_iff_left₀ (ten_zpow_pos _)]
    exact_mod_cast hle
  · rw [add_comm, zpow_add₀ hten, zpow_natCast, mul_lt_mul_iff_left₀ (ten_zpow_pos _)]
    exact_mod_cast hlt

/-- Ten is more than three factors of two. -/
lemma two_zpow_le_ten_pow (k : ℕ) : (2 : ℚ) ^ (3 * k : ℤ) ≤ 10 ^ (k : ℤ) := by
  rw [zpow_mul, zpow_natCast, zpow_natCast]
  gcongr
  norm_num

section Near

variable (hm : 0 < m) (hgrid : OnGrid m e) (hbound : e < 972) (hnear : Near m e literal.value)

include hm hgrid hbound hnear

/-- A number near to a finite one is neither too small nor too great to be worked out. -/
lemma first_bounds : 0 < literal.coefficient ∧ -400 ≤ literal.first ∧ literal.first ≤ 400 := by
  have hone : (1 : ℚ) ≤ m := by exact_mod_cast hm
  have hmargin := margin_le m e
  have hmax : (m : ℚ) + 1 ≤ 2 ^ 53 := by exact_mod_cast hgrid.lt
  have hcoefficient : 0 < literal.coefficient := by
    have hpos := hnear.pos hm
    unfold value at hpos
    exact_mod_cast (mul_pos_iff_of_pos_right (ten_zpow_pos _)).mp hpos
  obtain ⟨hle, hlt⟩ := zpow_first_le hcoefficient
  refine ⟨hcoefficient, ?_, ?_⟩
  · have hlow : (2 : ℚ) ^ (-1 + e) ≤ literal.value := by
      rw [zpow_add₀ two_ne_zero, ← le_div_iff₀ (two_zpow_pos e)]
      norm_num
      linarith [hnear.low_le]
    by_contra hsmall
    have hpower : (10 : ℚ) ^ literal.first ≤ 2 ^ (-1200 : ℤ) := by
      calc (10 : ℚ) ^ literal.first ≤ 10 ^ (-(400 : ℕ) : ℤ) :=
            zpow_le_zpow_right₀ (by norm_num) (by push_cast; omega)
        _ = (10 ^ ((400 : ℕ) : ℤ))⁻¹ := zpow_neg _ _
        _ ≤ (2 ^ (3 * (400 : ℕ) : ℤ))⁻¹ :=
            inv_anti₀ (two_zpow_pos _) (two_zpow_le_ten_pow 400)
        _ = 2 ^ (-1200 : ℤ) := (zpow_neg _ _).symm
    have hexponent := (zpow_lt_zpow_iff_right₀ (one_lt_two (α := ℚ))).mp
      ((hlow.trans_lt hlt).trans_le hpower)
    have hle := hgrid.le_exponent
    omega
  · have hhigh : literal.value ≤ 2 ^ (53 + e) := by
      rw [zpow_add₀ two_ne_zero, ← div_le_iff₀ (two_zpow_pos e)]
      norm_num at hmax ⊢
      linarith [hnear.le_high]
    by_contra hgreat
    have hpower : (2 : ℚ) ^ (3 * (400 : ℕ) : ℤ) ≤ 10 ^ (literal.first - 1) :=
      (two_zpow_le_ten_pow 400).trans (zpow_le_zpow_right₀ (by norm_num) (by push_cast; omega))
    have hexponent := (zpow_le_zpow_iff_right₀ (one_lt_two (α := ℚ))).mp
      ((hpower.trans hle).trans hhigh)
    push_cast at hexponent
    omega

/-- A literal near to a finite number is converted to it. -/
lemma denotes_unsigned : Denotes literal.unsigned.toModel.unpack (m * 2 ^ e) := by
  obtain ⟨hcoefficient, hlow, hhigh⟩ := first_bounds hm hgrid hbound hnear
  obtain ⟨hle, -⟩ := length_toDigits_spec hcoefficient
  have hlength := Nat.length_toDigits_pos (b := 10) (n := literal.coefficient)
  have hlog : (Nat.toDigits 10 literal.coefficient).length - 1 ≤ literal.coefficient.log2 := by
    rw [Nat.le_log2 hcoefficient.ne']
    exact (Nat.pow_le_pow_left (by norm_num) _).trans hle
  have hworked : (decide (literal.coefficient = 0) || decide (literal.first < -400)) = false := by
    rw [decide_eq_false hcoefficient.ne', decide_eq_false (not_lt.mpr hlow)]
    rfl
  rw [← hnear.nearest_eq hm hgrid hbound]
  unfold unsigned
  rw [hworked, if_neg Bool.false_ne_true, if_neg (not_lt.mpr hhigh)]
  unfold first at hlow hhigh
  unfold value
  split_ifs with hpower
  · obtain ⟨k, hk⟩ := Int.eq_ofNat_of_zero_le hpower
    rw [hk, zpow_natCast, Int.toNat_natCast]
    exact denotes_float_ofScientific hcoefficient (by omega)
  · obtain ⟨k, hk⟩ : ∃ k : ℕ, literal.power = -k := ⟨(-literal.power).toNat, by omega⟩
    rw [hk, zpow_neg, zpow_natCast, neg_neg, Int.toNat_natCast, ← div_eq_mul_inv]
    exact denotes_float_ofScientific_neg hcoefficient (by omega) (by omega)

/-- Its exact value is that of the number. -/
lemma ofFloat_unsigned : Binary.ofFloat literal.unsigned = .finite false m e := by
  have hunpack := (denotes_unsigned hm hgrid hbound hnear).eq_finite hm hgrid hbound
  rw [Binary.ofFloat_eq, hunpack]
  rfl

/-- A literal that is near to a point of the grid is read as that point. -/
lemma ofFloat_toFloat : Binary.ofFloat literal.toFloat = .finite literal.negative m e := by
  rw [toFloat_eq]
  cases literal.negative with
  | false => exact ofFloat_unsigned hm hgrid hbound hnear
  | true =>
    have hunpack := (denotes_unsigned hm hgrid hbound hnear).eq_finite hm hgrid hbound
    have hneg :
        (-literal.unsigned).toModel.unpack = settle literal.unsigned.toModel.unpack.neg := rfl
    rw [if_pos rfl, Binary.ofFloat_eq, hneg, hunpack]
    change Binary.ofUnpacked (settle (.finite .negative m e hm)) = _
    rw [settle_of_onGrid hgrid hbound]
    rfl

end Near

/-- Zero keeps its sign. -/
lemma ofFloat_toFloat_of_coefficient_eq_zero (h : literal.coefficient = 0) :
    Binary.ofFloat literal.toFloat = .finite literal.negative 0 (-1074) := by
  have hzero : literal.unsigned = 0 := by
    unfold unsigned
    rw [h]
    rfl
  rw [toFloat_eq, hzero]
  cases literal.negative <;> decide +kernel

end Literal

/-! ### Finite numbers -/

section Finite

variable {x : Float} {negative : Bool} {m : ℕ} {e : ℤ}

/-- The literal that a finite number is written as is read as that number. -/
theorem toFloat_literal (h : Binary.ofFloat x = .finite negative m e) :
    ((decimalOf m e).literal negative).toFloat = x := by
  have hnegative := (decimalOf m e).negative_literal negative
  refine Binary.eq_of_ofFloat_eq h ?_
  rw [h]
  rcases Binary.unpack_cases_of_ofFloat_eq h with ⟨rfl, rfl⟩ | ⟨_, hm, _, hunpack⟩
  · have hzero : ((decimalOf 0 (-1074)).literal negative).coefficient = 0 := by
      cases negative <;> rfl
    rw [Literal.ofFloat_toFloat_of_coefficient_eq_zero hzero, hnegative]
  · obtain ⟨hgrid, hbound⟩ := onGrid_of_unpack_eq hunpack
    have hdecimal : decimalOf m e = shortest .even m e := if_neg hm.ne'
    have hnear : Near m e ((decimalOf m e).literal negative).value := by
      rw [Scientific.value_literal, hdecimal]
      exact near_shortest hm hgrid hbound .even
    rw [Literal.ofFloat_toFloat hm hgrid hbound hnear, hnegative]

end Finite

end Decimal

end LanguageDetection
