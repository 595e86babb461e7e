import LanguageDetection.Proofs.FloatingPoint.Order

/-!
# Floating-point arithmetic

Multiplication and division of floating-point numbers that are not negative, and what it means to be
near to such a number.
-/

namespace LanguageDetection.FloatingPoint

/-!
## Operations

The result of an operation on finite floating-point numbers that are not negative is the
floating-point number nearest to the exact result, where `nearest` rounds to the grid and sends what
is too great for it to infinity.  With the rules for infinity this makes `product` and `quotient`,
which are what multiplication and division arrive at unless the result is not a number
(`Denotes.mul`, `Denotes.div`).  As `nearest` is monotone, so are they.
-/

section Arithmetic

open Float.Model Float.Model.UnpackedFloat

/-! ### The nearest value -/

/-- The value of the floating-point number that is nearest. -/
def nearest (x : ℚ) : ℚ :=
  min (rounded x) (2 ^ 1024)

variable {u v : UnpackedFloat} {x y : ℚ}

lemma nearest_mono (hx : 0 ≤ x) (h : x ≤ y) : nearest x ≤ nearest y :=
  min_le_min_right _ (rounded_mono hx h)

/-- Zero is its own nearest. -/
lemma nearest_zero : nearest 0 = 0 := by
  unfold nearest
  rw [rounded_zero]
  exact min_eq_left (by positivity)

/-- A value is its own nearest. -/
lemma Denotes.nearest_eq (h : Denotes u x) : nearest x = x := by
  have hrounded : rounded x = x := by
    cases h with
    | zero sign => exact rounded_zero
    | finite hpos hgrid hbound => exact rounded_of_lt hgrid.lt hgrid.le_exponent
    | infinity =>
      rw [infinity_eq]
      exact rounded_of_lt (by norm_num) (by norm_num)
  unfold nearest
  rw [hrounded]
  exact min_eq_left h.le_infinity

lemma denotes_settle_zero (sign : Sign) : Denotes (settle (.zero sign)) 0 := by
  rw [settle_zero]
  exact .zero sign

lemma denotes_settle_infinity : Denotes (settle (.infinity .positive)) (2 ^ 1024) := by
  rw [settle_infinity]
  exact .infinity

section Rounding

variable {mantissa : ℕ} {exponent : ℤ} {accuracy : Accuracy}

/-- Rounding, and packing after it, arrive at the nearest floating-point number. -/
theorem denotes_roundWithAccuracy (hx : 0 < x)
    (h : Represents (.ofMantissaAndAccuracy mantissa accuracy) (x / 2 ^ exponent))
    (hfine : exponent ≤ grid x) :
    Denotes (settle (roundWithAccuracy .binary64 .positive mantissa exponent accuracy))
      (nearest x) := by
  unfold nearest
  rcases roundWithAccuracy_cases hx h hfine .positive with
    ⟨hzero, hrounded⟩ | ⟨m, e, hpos, hfinite, hgrid, hrounded⟩
  · rw [hzero, hrounded, min_eq_left (by positivity)]
    exact denotes_settle_zero _
  · rw [hfinite, ← hrounded]
    by_cases hbound : e < 972
    · rw [settle_of_onGrid hgrid hbound, min_eq_left (hgrid.lt_infinity hbound).le]
      exact .finite hpos hgrid hbound
    · rw [settle_of_overflow (not_lt.mp hbound),
        min_eq_right (hgrid.infinity_le (not_lt.mp hbound))]
      exact .infinity

/-- The same for a mantissa without rounding bits. -/
lemma denotes_round_exact (hpos : 0 < mantissa)
    (hfine : exponent ≤ grid (mantissa * 2 ^ exponent)) :
    Denotes (settle (roundWithAccuracy .binary64 .positive mantissa exponent .exact))
      (nearest (mantissa * 2 ^ exponent)) := by
  refine denotes_roundWithAccuracy (mul_pos (Nat.cast_pos.mpr hpos) (two_zpow_pos _)) ?_ hfine
  rw [mul_div_cancel_right₀ _ (two_zpow_pos _).ne']
  exact .ofExact mantissa

end Rounding

/-! ### Multiplication -/

section Grid

variable {m m' : ℕ} {e e' : ℤ}

/-- The product of two points is rounded to a grid that is coarser than it is exact. -/
lemma OnGrid.add_le_grid (h : OnGrid m e) (h' : OnGrid m' e') (hpos : 0 < m) (hpos' : 0 < m') :
    e + e' ≤ grid ((m * m' : ℕ) * 2 ^ (e + e')) := by
  by_cases hsubnormal : e + e' ≤ -1074
  · exact hsubnormal.trans (le_max_right _ _)
  have hlow := h.le_exponent
  have hlow' := h'.le_exponent
  have hnormal : 2 ^ 52 ≤ m * m' := by
    rcases h.le_or_eq with hle | heq
    · exact hle.trans (Nat.le_mul_of_pos_right _ hpos')
    · have hle' : 2 ^ 52 ≤ m' := h'.le_or_eq.resolve_right (by omega)
      exact hle'.trans (Nat.le_mul_of_pos_left _ hpos)
  have hle : (2 : ℚ) ^ (52 + (e + e')) ≤ (m * m' : ℕ) * 2 ^ (e + e') := by
    rw [zpow_add₀ two_ne_zero]
    gcongr
    exact_mod_cast hnormal
  have hlt := (zpow_lt_zpow_iff_right₀ (one_lt_two (α := ℚ))).mp
    (hle.trans_lt (lt_of_log ((two_zpow_pos _).trans_le hle)))
  unfold grid
  omega

end Grid

/-- The product of finite numbers is the one nearest to the exact product. -/
theorem Denotes.mul_finite (hu : Denotes u x) (hv : Denotes v y) (hx : x < 2 ^ 1024)
    (hy : y < 2 ^ 1024) :
    Denotes (settle (.mul .binary64 u v)) (nearest (x * y)) := by
  cases hu with
  | zero sign =>
    rw [zero_mul, nearest_zero]
    cases hv with
    | zero sign' => exact denotes_settle_zero _
    | finite hpos' hgrid' hbound' => exact denotes_settle_zero _
    | infinity => exact absurd hy (lt_irrefl _)
  | @finite m e hpos hgrid hbound =>
    cases hv with
    | zero sign' =>
      rw [mul_zero, nearest_zero]
      exact denotes_settle_zero _
    | @finite m' e' hpos' hgrid' hbound' =>
      have hproduct : (m : ℚ) * 2 ^ e * (m' * 2 ^ e') = (m * m' : ℕ) * 2 ^ (e + e') := by
        rw [zpow_add₀ two_ne_zero, Nat.cast_mul]
        ring
      rw [hproduct]
      exact denotes_round_exact (Nat.mul_pos hpos hpos') (hgrid.add_le_grid hgrid' hpos hpos')
    | infinity => exact absurd hy (lt_irrefl _)
  | infinity => exact absurd hx (lt_irrefl _)

/-- Infinity is the only number with its value. -/
lemma Denotes.eq_infinity (h : Denotes u x) (hx : x = 2 ^ 1024) : u = .infinity .positive := by
  cases h with
  | zero sign => exact absurd hx (by positivity : (0 : ℚ) < 2 ^ 1024).ne
  | finite hpos hgrid hbound => exact absurd hx (hgrid.lt_infinity hbound).ne
  | infinity => rfl

/-- A product with infinity is infinite, if it is a number. -/
lemma Denotes.mul_infinity (hu : Denotes u x) (hv : Denotes v y)
    (h : x = 2 ^ 1024 ∨ y = 2 ^ 1024) :
    settle (.mul .binary64 u v) = .notANumber ∨
      Denotes (settle (.mul .binary64 u v)) (2 ^ 1024) := by
  rcases h with hx | hy
  · rw [hu.eq_infinity hx]
    cases hv with
    | zero sign => exact .inl settle_notANumber
    | finite hpos hgrid hbound => exact .inr denotes_settle_infinity
    | infinity => exact .inr denotes_settle_infinity
  · rw [hv.eq_infinity hy]
    cases hu with
    | zero sign => exact .inl settle_notANumber
    | finite hpos hgrid hbound => exact .inr denotes_settle_infinity
    | infinity => exact .inr denotes_settle_infinity

/-- The value of a product. -/
def product (x y : ℚ) : ℚ :=
  if x = 2 ^ 1024 ∨ y = 2 ^ 1024 then 2 ^ 1024 else nearest (x * y)

/-- A product has the value of a product, unless it is not a number. -/
theorem Denotes.mul (hu : Denotes u x) (hv : Denotes v y) :
    settle (.mul .binary64 u v) = .notANumber ∨
      Denotes (settle (.mul .binary64 u v)) (product x y) := by
  unfold product
  split_ifs with h
  · exact hu.mul_infinity hv h
  · rw [not_or] at h
    exact .inr (hu.mul_finite hv (hu.le_infinity.lt_of_ne h.1) (hv.le_infinity.lt_of_ne h.2))

/-- A product grows with its factor. -/
lemma product_le_product {z : ℚ} (hx : 0 ≤ x) (hy : 0 ≤ y) (h : y ≤ z) (hz : z ≤ 2 ^ 1024) :
    product x y ≤ product x z := by
  unfold product
  split_ifs with hinf hinf' hinf'
  · exact le_rfl
  · have hinfinite : z = 2 ^ 1024 :=
      hz.antisymm ((hinf.resolve_left (not_or.mp hinf').1).ge.trans h)
    exact absurd (.inr hinfinite) hinf'
  · exact min_le_right _ _
  · exact nearest_mono (mul_nonneg hx hy) (mul_le_mul_of_nonneg_left h hx)

/-! ### Division -/

section Grid

variable {m m' : ℕ}

/-- The leading digit of a point is that of its mantissa, on the grid. -/
lemma log_point (hpos : 0 < m) (e : ℤ) : Int.log 2 ((m : ℚ) * 2 ^ e) = m.log2 + e := by
  refine log_eq_of_floor_eq (mul_pos (Nat.cast_pos.mpr hpos) (two_zpow_pos e)) hpos ?_
  rw [mul_div_cancel_right₀ _ (two_zpow_pos e).ne', Nat.floor_natCast]

/-- The exponent that a quotient is computed with is not above that of its grid. -/
lemma targetExponent_le_grid_div (hpos : 0 < m) (hpos' : 0 < m') (e e' : ℤ) :
    Format.binary64.targetExponent (totalExponent m e - totalExponent m' e') ≤
      grid ((m : ℚ) * 2 ^ e / (m' * 2 ^ e')) := by
  have hx : (0 : ℚ) < m * 2 ^ e := mul_pos (Nat.cast_pos.mpr hpos) (two_zpow_pos e)
  have hy : (0 : ℚ) < m' * 2 ^ e' := mul_pos (Nat.cast_pos.mpr hpos') (two_zpow_pos e')
  have hle : (2 : ℚ) ^ ((m.log2 + e) - (m'.log2 + e' + 1)) ≤ m * 2 ^ e / (m' * 2 ^ e') := by
    rw [zpow_sub₀ two_ne_zero, ← log_point hpos, ← log_point hpos']
    exact div_le_div₀ hx.le (le_of_log hx) hy (lt_of_log hy).le
  have hlt := (zpow_lt_zpow_iff_right₀ (one_lt_two (α := ℚ))).mp
    (hle.trans_lt (lt_of_log (div_pos hx hy)))
  rw [targetExponent_eq]
  unfold grid totalExponent
  omega

/-- The quotient of the mantissas and the remainder represent the quotient. -/
lemma represents_div {e e' target : ℤ} (hpos' : 0 < m') (h : target ≤ e - e') :
    let shifted := m <<< (e - e' - target).toNat
    Represents (.ofMantissaAndAccuracy (shifted / m') (accuracyOfFraction (shifted % m') m'))
      (m * 2 ^ e / (m' * 2 ^ e') / 2 ^ target) := by
  intro shifted
  have hm' : (m' : ℚ) ≠ 0 := Nat.cast_ne_zero.mpr hpos'.ne'
  have hshifted : (shifted : ℚ) = m * 2 ^ e / 2 ^ e' / 2 ^ target := by
    rw [show shifted = m * 2 ^ (e - e' - target).toNat from Nat.shiftLeft_eq _ _, Nat.cast_mul,
      Nat.cast_pow, Nat.cast_ofNat, ← zpow_natCast, Int.toNat_of_nonneg (by omega),
      zpow_sub₀ two_ne_zero, zpow_sub₀ two_ne_zero, mul_div_assoc,
      mul_div_assoc]
  have hquotient : (m : ℚ) * 2 ^ e / (m' * 2 ^ e') / 2 ^ target =
      (shifted / m' : ℕ) + (shifted % m' : ℕ) / m' := by
    have hdivMod : ((m' * (shifted / m') + shifted % m' : ℕ) : ℚ) = shifted := by
      rw [Nat.div_add_mod]
    rw [Nat.cast_add, Nat.cast_mul] at hdivMod
    calc (m : ℚ) * 2 ^ e / (m' * 2 ^ e') / 2 ^ target
        = m * 2 ^ e / 2 ^ e' / 2 ^ target / m' := by
          rw [mul_comm (m' : ℚ), ← div_div, div_right_comm _ (m' : ℚ)]
      _ = (m' * (shifted / m' : ℕ) + (shifted % m' : ℕ)) / m' := by rw [← hshifted, hdivMod]
      _ = (shifted / m' : ℕ) + (shifted % m' : ℕ) / m' := by
          rw [add_div, mul_div_cancel_left₀ _ hm']
  rw [hquotient]
  exact .ofFraction _ (Nat.mod_lt _ hpos')

/-- The quotient of two positive points, on whatever grids, is the number nearest to it. -/
lemma denotes_div (hpos : 0 < m) (hpos' : 0 < m') (e e' : ℤ) :
    Denotes (settle (.div .binary64 (.finite .positive m e hpos) (.finite .positive m' e' hpos')))
      (nearest (m * 2 ^ e / (m' * 2 ^ e'))) := by
  rw [UnpackedFloat.div, divCore]
  dsimp only
  have hfine := (min_le_right (e - e') _).trans (targetExponent_le_grid_div hpos hpos' e e')
  have hexact := min_le_left (e - e')
    (Format.binary64.targetExponent (totalExponent m e - totalExponent m' e'))
  generalize min (e - e') (Format.binary64.targetExponent
    (totalExponent m e - totalExponent m' e')) = target at hfine hexact ⊢
  refine denotes_roundWithAccuracy (div_pos (mul_pos (Nat.cast_pos.mpr hpos) (two_zpow_pos e))
    (mul_pos (Nat.cast_pos.mpr hpos') (two_zpow_pos e'))) ?_ hfine
  exact represents_div hpos' hexact

end Grid

/-- The quotient of finite numbers is the one nearest to the exact quotient. -/
theorem Denotes.div_finite (hu : Denotes u x) (hv : Denotes v y) (hx : x < 2 ^ 1024) (hpos : 0 < y)
    (hy : y < 2 ^ 1024) : Denotes (settle (.div .binary64 u v)) (nearest (x / y)) := by
  cases hv with
  | zero sign' => exact absurd hpos (lt_irrefl _)
  | @finite m' e' hpos' hgrid' hbound' =>
    cases hu with
    | zero sign =>
      rw [zero_div, nearest_zero]
      exact denotes_settle_zero _
    | @finite m e hpos hgrid hbound => exact denotes_div hpos hpos' e e'
    | infinity => exact absurd hx (lt_irrefl _)
  | infinity => exact absurd hy (lt_irrefl _)

/-- The value of a quotient. -/
def quotient (x y : ℚ) : ℚ :=
  if x = 2 ^ 1024 then 2 ^ 1024 else if y = 2 ^ 1024 then 0 else nearest (x / y)

/-- Infinity divided by infinity is not a number. -/
lemma Denotes.div_infinity (hu : Denotes u x) (hv : Denotes v y) (hx : x = 2 ^ 1024)
    (hy : y = 2 ^ 1024) : settle (.div .binary64 u v) = .notANumber := by
  rw [hu.eq_infinity hx, hv.eq_infinity hy]
  exact settle_notANumber

/-- Unless both are infinite, a positive divisor gives a quotient. -/
theorem Denotes.div (hu : Denotes u x) (hv : Denotes v y) (hpos : 0 < y)
    (h : ¬ (x = 2 ^ 1024 ∧ y = 2 ^ 1024)) :
    Denotes (settle (.div .binary64 u v)) (quotient x y) := by
  unfold quotient
  split_ifs with hx hy
  · rw [hu.eq_infinity hx]
    cases hv with
    | zero sign => exact absurd hpos (lt_irrefl _)
    | finite hm hgrid hbound => exact denotes_settle_infinity
    | infinity => exact absurd ⟨hx, rfl⟩ h
  · rw [hv.eq_infinity hy]
    cases hu with
    | zero sign => exact denotes_settle_zero _
    | finite hm hgrid hbound => exact denotes_settle_zero _
    | infinity => exact absurd rfl hx
  · exact hu.div_finite hv (hu.le_infinity.lt_of_ne hx) hpos (hv.le_infinity.lt_of_ne hy)

/-- A quotient does not grow with its divisor. -/
lemma quotient_le_quotient {z : ℚ} (hx : 0 ≤ x) (hz : 0 < z) (h : z ≤ y) (hy : y ≤ 2 ^ 1024) :
    quotient x y ≤ quotient x z := by
  unfold quotient
  split_ifs with hinf hinf hinf' hinf'
  · exact le_rfl
  · exact le_rfl
  · exact le_min (rounded_nonneg _) (by positivity)
  · exact absurd (hy.antisymm (hinf'.ge.trans h)) hinf
  · exact nearest_mono (div_nonneg hx (hz.trans_le h).le) (div_le_div_of_nonneg_left hx hz h)

/-! ### Natural numbers -/

lemma log_natCast {n : ℕ} (hpos : 0 < n) : Int.log 2 (n : ℚ) = n.log2 := by
  have hlog := log_point hpos 0
  rwa [zpow_zero, mul_one, add_zero] at hlog

/-- The grid around a natural number is not finer than 52 binary places. -/
lemma neg_le_grid {n : ℕ} (hpos : 0 < n) : -52 ≤ grid n := by
  unfold grid
  rw [log_natCast hpos]
  omega

/-- A natural number is converted to the nearest floating-point number. -/
lemma denotes_ofNat (n : ℕ) : Denotes (settle (.ofNat .binary64 n)) (nearest n) := by
  rcases n.eq_zero_or_pos with rfl | hpos
  · rw [Nat.cast_zero, nearest_zero]
    exact .zero _
  have hround : UnpackedFloat.ofNat .binary64 n = .round .binary64 .positive n 0 := by
    unfold UnpackedFloat.ofNat UnpackedFloat.ofInt UnpackedFloat.normalize
    rw [compare_gt_iff_gt.mpr (Int.natCast_pos.mpr hpos)]
    rfl
  rw [hround, UnpackedFloat.round, decreaseExponent]
  dsimp only
  generalize hshift : (0 - Format.binary64.targetExponent (totalExponent n 0)).toNat = shift
  have hvalue : ((n <<< shift : ℕ) : ℚ) * 2 ^ (0 - shift : ℤ) = n := by
    rw [Nat.shiftLeft_eq, zero_sub, zpow_neg, zpow_natCast]
    push_cast
    field_simp
  have hfine : (0 - shift : ℤ) ≤ grid n := by
    rw [targetExponent_eq] at hshift
    unfold totalExponent at hshift
    unfold grid
    rw [log_natCast hpos]
    omega
  have hshifted : 0 < n <<< shift := by
    rw [Nat.shiftLeft_eq]
    positivity
  have hexact := denotes_round_exact hshifted (hvalue.symm ▸ hfine)
  rwa [hvalue] at hexact

/-- So is a natural number times a power of ten. -/
lemma denotes_ofScientific {n k : ℕ} (hpos : 0 < n) (hk : k ≤ 2048) :
    Denotes (settle (.ofScientific .binary64 n k)) (nearest (n * 10 ^ k)) := by
  have hmul : UnpackedFloat.ofScientific .binary64 n k =
      roundWithAccuracy .binary64 .positive (n <<< 53 * 10 ^ k) (-53) .exact := by
    have hbits : (2 : ℤ) ^ Format.binary64.exponentBits = 2048 := by decide
    unfold UnpackedFloat.ofScientific
    rw [dif_neg hpos.ne', hbits, if_neg (by omega), if_neg (by omega), if_pos (by omega)]
    rfl
  have hvalue : ((n <<< 53 * 10 ^ k : ℕ) : ℚ) * 2 ^ (-53 : ℤ) = (n * 10 ^ k : ℕ) := by
    rw [Nat.shiftLeft_eq, zpow_neg]
    push_cast
    field_simp
  have hproduct : 0 < n * 10 ^ k := by positivity
  have hfine : -53 ≤ grid (n * 10 ^ k : ℕ) := le_trans (by norm_num) (neg_le_grid hproduct)
  have hshifted : 0 < n <<< 53 * 10 ^ k := by
    rw [Nat.shiftLeft_eq]
    positivity
  have hexact := denotes_round_exact hshifted (hvalue.symm ▸ hfine)
  rw [hmul]
  rw [hvalue] at hexact
  exact_mod_cast hexact

lemma natCast_lt_infinity {n : ℕ} (h : n < 2 ^ 53) : (n : ℚ) < 2 ^ 1024 := by
  calc (n : ℚ) < 2 ^ 53 := by exact_mod_cast h
    _ ≤ 2 ^ 1024 := pow_le_pow_right₀ one_le_two (by norm_num)

/-- A natural number of at most 53 digits is its own nearest. -/
lemma nearest_natCast {n : ℕ} (h : n < 2 ^ 53) : nearest n = n := by
  have hrounded := @rounded_of_lt n 0 h (by norm_num)
  rw [zpow_zero, mul_one] at hrounded
  unfold nearest
  rw [hrounded]
  exact min_eq_left (natCast_lt_infinity h).le

/-- The number that is unpacked to the leading digit alone is one. -/
lemma denotes_one {b : BitVec Format.binary64.numBits}
    (h : UnpackedFloat.unpack .binary64 b = .finite .positive (2 ^ 52) (-52) (by norm_num)) :
    Denotes (UnpackedFloat.unpack .binary64 b) 1 := by
  have hgrid : OnGrid (2 ^ 52) (-52) := ⟨by norm_num, by norm_num, .inl le_rfl⟩
  have hone : ((2 ^ 52 : ℕ) : ℚ) * 2 ^ (-52 : ℤ) = 1 := by norm_num
  rw [h, ← hone]
  exact .finite _ hgrid (by norm_num)

/-- A small natural number is exact. -/
lemma denotes_toUInt64 {n : ℕ} (h : n < 2 ^ 53) : Denotes n.toUInt64.toFloat.toModel.unpack n := by
  have hword : n.toUInt64.toNat = n := Nat.mod_eq_of_lt (by omega)
  have hofNat : Denotes n.toUInt64.toFloat.toModel.unpack (nearest n.toUInt64.toNat) :=
    denotes_ofNat _
  rwa [hword, nearest_natCast h] at hofNat

/-- A numeral stands for the nearest floating-point number. -/
theorem denotes_numeral (n : ℕ) : Denotes (Float.ofNat n).toModel.unpack (nearest n) := by
  change Denotes (Float.ofScientific n false 0).toModel.unpack (nearest n)
  unfold Float.ofScientific
  split
  · next h =>
    have hone : Denotes (Float.exactlyRepresentablePowersOfTen[0]).toModel.unpack 1 :=
      denotes_one rfl
    have hproduct := (denotes_toUInt64 h.1).mul_finite hone (natCast_lt_infinity h.1)
      (one_lt_pow₀ one_lt_two (by norm_num))
    rw [mul_one] at hproduct
    exact hproduct
  · next h =>
    have hpos : 0 < n := by omega
    have hdenotes := denotes_ofScientific hpos (Nat.zero_le 2048)
    rwa [pow_zero, mul_one] at hdenotes

end Arithmetic

/-!
## Nearness

A rational number is rounded to the floating-point number that it is near to (`Near.nearest_eq`): at
most half a step of the grid away, or a quarter of one below a power of two, where the grid changes
and the points lie twice as close.  At exactly that distance the mantissa has to be even.
-/

section Nearness

/-! ### Ties -/

/-- Half a step from an even number rounds to it, and less than half a step from any. -/
lemma roundEven_eq {q : ℚ} {n : ℕ} (hq : 0 ≤ q) (hlow : (n : ℚ) - 1 / 2 ≤ q)
    (hhigh : q ≤ n + 1 / 2) (htie : n % 2 = 0 ∨ (n : ℚ) - 1 / 2 < q ∧ q < n + 1 / 2) :
    roundEven q = n := by
  unfold roundEven
  rcases lt_or_ge q n with hlt | hge
  · have hpos : 0 < n := by exact_mod_cast hq.trans_lt hlt
    obtain ⟨k, rfl⟩ := Nat.exists_eq_succ_of_ne_zero hpos.ne'
    push_cast at hlow hlt htie
    have hfloor : ⌊q⌋₊ = k := (Nat.floor_eq_iff hq).mpr ⟨by linarith, hlt⟩
    rw [hfloor, if_neg (by linarith)]
    split_ifs with hhalf
    · rfl
    · rcases htie with heven | hlt'
      · omega
      · exact absurd (by linarith) hhalf
  · have hfloor : ⌊q⌋₊ = n := (Nat.floor_eq_iff hq).mpr ⟨hge, by linarith⟩
    rw [hfloor]
    split_ifs with hhalf hhalf'
    · rfl
    · exact absurd hhigh (by linarith)
    · rcases htie with heven | hlt'
      · omega
      · exact absurd (by linarith) hhalf

/-! ### The nearest number -/

/-- How far below a point the numbers that are rounded to it begin, in steps of its grid. -/
def margin (m : ℕ) (e : ℤ) : ℚ :=
  if m = 2 ^ 52 ∧ -1074 < e then 1 / 4 else 1 / 2

/-- A number is near to a point of the grid. -/
structure Near (m : ℕ) (e : ℤ) (x : ℚ) : Prop where
  low_le : m - margin m e ≤ x / 2 ^ e
  le_high : x / 2 ^ e ≤ m + 1 / 2
  even_or_lt : m % 2 = 0 ∨ m - margin m e < x / 2 ^ e ∧ x / 2 ^ e < m + 1 / 2

variable {m : ℕ} {e : ℤ} {x : ℚ}

lemma margin_le (m : ℕ) (e : ℤ) : margin m e ≤ 1 / 2 := by
  unfold margin
  split_ifs <;> norm_num

namespace Near

/-- What is near to a positive point is positive. -/
lemma pos (h : Near m e x) (hm : 0 < m) : 0 < x := by
  have hone : (1 : ℚ) ≤ m := by exact_mod_cast hm
  have hpos : 0 < x / 2 ^ e := by linarith [h.low_le, margin_le m e]
  rwa [div_pos_iff_of_pos_right (two_zpow_pos e)] at hpos

/-- Where the grid does not change, the number is on the grid of the point. -/
lemma grid_eq (h : Near m e x) (hm : 0 < m) (hgrid : OnGrid m e)
    (hlow : e = -1074 ∨ 2 ^ 52 ≤ x / 2 ^ e) : grid x = e := by
  have hx := h.pos hm
  have hlt : x < 2 ^ (53 + e) := by
    have hm' : (m : ℚ) + 1 ≤ 2 ^ 53 := by exact_mod_cast hgrid.lt
    rw [zpow_add₀ two_ne_zero, ← div_lt_iff₀ (two_zpow_pos e)]
    norm_num at hm' ⊢
    linarith [h.le_high]
  have hupper := (zpow_lt_zpow_iff_right₀ (one_lt_two (α := ℚ))).mp ((le_of_log hx).trans_lt hlt)
  have hexponent := hgrid.le_exponent
  unfold grid
  rcases hlow with heq | hle
  · omega
  · have hle' : 2 ^ (52 + e) ≤ x := by
      rw [zpow_add₀ two_ne_zero, ← le_div_iff₀ (two_zpow_pos e)]
      exact_mod_cast hle
    have hlower := (zpow_lt_zpow_iff_right₀ (one_lt_two (α := ℚ))).mp (hle'.trans_lt (lt_of_log hx))
    omega

/-- Below a power of two the grid is twice as fine. -/
lemma rounded_eq_of_lt (h : Near (2 ^ 52) e x) (he : -1074 < e) (hlt : x / 2 ^ e < 2 ^ 52) :
    rounded x = (2 ^ 52 : ℕ) * 2 ^ e := by
  have hx := h.pos (by norm_num)
  have hlow : (2 : ℚ) ^ 52 - 1 / 4 ≤ x / 2 ^ e := by
    have hle := h.low_le
    unfold margin at hle
    rw [if_pos ⟨rfl, he⟩] at hle
    exact_mod_cast hle
  have hlog : Int.log 2 x = e + 51 := by
    rw [log_eq_iff hx]
    constructor
    · rw [add_comm, zpow_add₀ two_ne_zero, ← le_div_iff₀ (two_zpow_pos e)]
      norm_num at hlow ⊢
      linarith
    · rw [add_assoc, add_comm, zpow_add₀ two_ne_zero, ← div_lt_iff₀ (two_zpow_pos e)]
      exact_mod_cast hlt
  have hgrid : grid x = e - 1 := by
    unfold grid
    omega
  have hdouble : x / 2 ^ (e - 1) = 2 * (x / 2 ^ e) := by
    rw [zpow_sub_one₀ two_ne_zero]
    field_simp
  have hround : roundEven (x / 2 ^ (e - 1)) = 2 ^ 53 := by
    rw [hdouble]
    apply roundEven_eq
    · linarith
    · norm_num at hlow ⊢
      linarith
    · norm_num at hlt ⊢
      linarith
    · exact .inl (by norm_num)
  unfold rounded
  rw [hgrid, hround, zpow_sub_one₀ two_ne_zero]
  push_cast
  ring

/-- A number is rounded to the point that it is near to, on the grid of the point or on the finer
one below it. -/
lemma rounded_eq (h : Near m e x) (hm : 0 < m) (hgrid : OnGrid m e) : rounded x = m * 2 ^ e := by
  have hx := h.pos hm
  by_cases hfine : m = 2 ^ 52 ∧ -1074 < e ∧ x / 2 ^ e < 2 ^ 52
  · obtain ⟨rfl, he, hlt⟩ := hfine
    exact h.rounded_eq_of_lt he hlt
  · have hmargin := margin_le m e
    have hsame : grid x = e := by
      refine h.grid_eq hm hgrid ?_
      rcases hgrid.le_or_eq with hle | heq
      · by_cases he : e = -1074
        · exact .inl he
        · rcases hle.eq_or_lt with heq | hlt
          · refine .inr (not_lt.mp fun hlt => hfine ⟨heq.symm, ?_, hlt⟩)
            exact lt_of_le_of_ne hgrid.le_exponent (Ne.symm he)
          · have hsucc : (2 : ℚ) ^ 52 + 1 ≤ m := by exact_mod_cast hlt
            exact .inr (by linarith [h.low_le])
      · exact .inl heq
    unfold rounded
    rw [hsame, roundEven_eq (div_pos hx (two_zpow_pos e)).le (by linarith [h.low_le]) h.le_high]
    rcases h.even_or_lt with heven | ⟨hlow, hhigh⟩
    · exact .inl heven
    · exact .inr ⟨by linarith, hhigh⟩

/-- The floating-point number is the one nearest to the number. -/
theorem nearest_eq (h : Near m e x) (hm : 0 < m) (hgrid : OnGrid m e) (hbound : e < 972) :
    nearest x = m * 2 ^ e := by
  unfold nearest
  rw [h.rounded_eq hm hgrid]
  exact min_eq_left (hgrid.lt_infinity hbound).le

end Near

end Nearness

end LanguageDetection.FloatingPoint
