import LanguageDetection.Proofs.FloatingPoint.Scalar

/-!
# Floating-point numbers with a sign

A finite floating-point number has a value, on either side of zero (`HasValue`), and finite numbers
are ordered as their values are.  What the four operations arrive at is the value closest to the
exact result, as long as this is not too great (`HasValue.add`, `HasValue.sub`, `HasValue.mul`,
`HasValue.div`): the magnitude is rounded as it is without a sign, and a sum is normalised by the
sign that it has.
-/

namespace LanguageDetection.FloatingPoint

open Float.Model Float.Model.UnpackedFloat

/-! ## Signs -/

/-- The number with a sign. -/
def withSign : Sign → ℚ → ℚ
  | .positive, x => x
  | .negative, x => -x

variable {s t : Sign} {u v : UnpackedFloat} {x y : ℚ}

/-- The signs of factors are multiplied apart from their sizes. -/
lemma withSign_mul (s t : Sign) (x y : ℚ) :
    withSign s x * withSign t y = withSign (s * t) (x * y) := by
  cases s <;> cases t
  · exact neg_mul_neg x y
  · exact neg_mul x y
  · exact mul_neg x y
  · rfl

/-- The signs in a quotient are divided apart from the sizes. -/
lemma withSign_div (s t : Sign) (x y : ℚ) :
    withSign s x / withSign t y = withSign (s / t) (x / y) := by
  cases s <;> cases t
  · exact neg_div_neg_eq x y
  · exact neg_div y x
  · exact div_neg x
  · rfl

/-- The opposite sign gives the opposite number. -/
lemma withSign_neg (s : Sign) (x : ℚ) : withSign (-s) x = -withSign s x := by
  cases s
  · exact (neg_neg x).symm
  · rfl

/-- A sign does not change the size. -/
lemma abs_withSign (s : Sign) (x : ℚ) : |withSign s x| = |x| := by
  cases s
  · exact abs_neg x
  · rfl

lemma cast_apply (s : Sign) (m : ℕ) : ((s.apply m : ℤ) : ℚ) = withSign s m := by
  cases s <;> simp [Sign.apply, withSign]

/-! ## The closest value -/

/-- The value of the floating-point number that is nearest, on the side of zero that the number is
on. -/
def closest (x : ℚ) : ℚ :=
  if 0 ≤ x then nearest x else -nearest (-x)

/-- The nearest value is not negative. -/
lemma nearest_nonneg (x : ℚ) : 0 ≤ nearest x := by
  have hinfinity : (0 : ℚ) ≤ 2 ^ 1024 := by positivity
  exact le_min (rounded_nonneg x) hinfinity

/-- A nearest value that is finite is a point of the grid. -/
lemma nearest_eq_rounded (h : nearest x < 2 ^ 1024) : nearest x = rounded x := by
  unfold nearest at h ⊢
  exact min_eq_left (not_lt.mp fun hgt => absurd (min_eq_right hgt.le) h.ne)

lemma closest_of_nonneg (hx : 0 ≤ x) : closest x = nearest x :=
  if_pos hx

/-- Rounding is the same on both sides of zero. -/
lemma closest_neg (x : ℚ) : closest (-x) = -closest x := by
  unfold closest
  rcases lt_trichotomy x 0 with hlt | rfl | hgt
  · rw [if_pos (by linarith), if_neg (by linarith), neg_neg]
  · simp [nearest_zero]
  · rw [if_neg (by linarith), if_pos hgt.le, neg_neg]

/-- The size is rounded, and the sign is kept. -/
lemma closest_withSign (s : Sign) (hx : 0 ≤ x) :
    closest (withSign s x) = withSign s (nearest x) := by
  cases s with
  | positive => exact closest_of_nonneg hx
  | negative => exact (closest_neg x).trans (congrArg _ (closest_of_nonneg hx))

/-! ## Values -/

/-- The value of a finite floating-point number. -/
inductive HasValue : UnpackedFloat → ℚ → Prop
  | zero (sign : Sign) : HasValue (.zero sign) 0
  | finite (sign : Sign) {mantissa : ℕ} {exponent : ℤ} (hpos : 0 < mantissa)
      (hgrid : OnGrid mantissa exponent) (hbound : exponent < 972) :
      HasValue (.finite sign mantissa exponent hpos) (withSign sign (mantissa * 2 ^ exponent))

lemma hasValue_settle_zero (s : Sign) : HasValue (settle (.zero s)) 0 := by
  rw [settle_zero]
  exact .zero s

lemma point_pos {m : ℕ} (hpos : 0 < m) (e : ℤ) : (0 : ℚ) < m * 2 ^ e :=
  mul_pos (Nat.cast_pos.mpr hpos) (two_zpow_pos e)

lemma point_nonneg (m : ℕ) (e : ℤ) : (0 : ℚ) ≤ m * 2 ^ e :=
  mul_nonneg (Nat.cast_nonneg m) (two_zpow_pos e).le

/-- A number that is not negative has its value, unless it is infinite. -/
lemma Denotes.hasValue (h : Denotes u x) (hx : x < 2 ^ 1024) : HasValue u x := by
  cases h with
  | zero sign => exact .zero sign
  | finite hpos hgrid hbound => exact .finite .positive hpos hgrid hbound
  | infinity => exact absurd hx (lt_irrefl _)

namespace HasValue

/-- The negative of a number has the opposite value. -/
lemma neg (h : HasValue u x) : HasValue u.neg (-x) := by
  cases h with
  | zero sign =>
    rw [neg_zero]
    exact .zero (-sign)
  | finite sign hpos hgrid hbound =>
    rw [← withSign_neg]
    exact .finite (-sign) hpos hgrid hbound

/-- Without a sign a value is that of a number that is not negative. -/
lemma denotes (h : HasValue u x) (hx : 0 ≤ x) : Denotes u x := by
  cases h with
  | zero sign => exact .zero sign
  | finite sign hpos hgrid hbound =>
    cases sign with
    | positive => exact .finite hpos hgrid hbound
    | negative => exact absurd (point_pos hpos _) (not_lt.mpr (neg_nonneg.mp hx))

/-- A value is its own closest. -/
lemma closest_eq (h : HasValue u x) : closest x = x := by
  rcases le_total 0 x with hx | hx
  · rw [closest_of_nonneg hx, (h.denotes hx).nearest_eq]
  · have hneg := (h.neg.denotes (neg_nonneg.mpr hx)).nearest_eq
    rw [← closest_of_nonneg (neg_nonneg.mpr hx), closest_neg] at hneg
    exact neg_inj.mp hneg

lemma isNaN_eq_false (h : HasValue u x) : u.isNaN = false := by
  cases h <;> rfl

/-- What is left of a finite number that is packed is the number. -/
lemma settle_eq (h : HasValue u x) : settle u = u := by
  cases h with
  | zero sign => exact settle_zero sign
  | finite sign hpos hgrid hbound => exact settle_of_onGrid hgrid hbound

end HasValue

/-! ## Order -/

/-- Numbers with values are ordered as their values are. -/
theorem HasValue.compare_iff (hu : HasValue u x) (hv : HasValue v y) :
    u.compare v = some .lt ↔ x < y := by
  cases hu with
  | zero sign =>
    cases hv with
    | zero sign' => exact iff_of_false nofun (lt_irrefl 0)
    | finite sign' hpos' hgrid' hbound' =>
      cases sign' with
      | positive => exact iff_of_true rfl (point_pos hpos' _)
      | negative => exact iff_of_false nofun (neg_neg_of_pos (point_pos hpos' _)).not_gt
  | finite sign hpos hgrid hbound =>
    cases hv with
    | zero sign' =>
      cases sign with
      | positive => exact iff_of_false nofun (point_pos hpos _).not_gt
      | negative => exact iff_of_true rfl (neg_neg_of_pos (point_pos hpos _))
    | finite sign' hpos' hgrid' hbound' =>
      cases sign <;> cases sign'
      · -- below zero the order of the magnitudes is reversed
        rw [withSign, withSign, neg_lt_neg_iff, ← hgrid'.lt_iff hgrid]
        change some _ = some _ ↔ _
        rw [Option.some_inj, Ordering.swap_then, Int.compare_swap, Nat.compare_swap]
      · exact iff_of_true rfl
          ((neg_neg_of_pos (point_pos hpos _)).trans (point_pos hpos' _))
      · exact iff_of_false nofun
          ((neg_neg_of_pos (point_pos hpos' _)).trans (point_pos hpos _)).not_gt
      · rw [withSign, withSign, ← hgrid.lt_iff hgrid']
        exact Option.some_inj

/-! ## Rounding -/

section Rounding

variable {m : ℕ} {e : ℤ} {accuracy : Accuracy}

/-- Rounding, and packing after it, keep the sign. -/
lemma hasValue_roundWithAccuracy (hx : 0 < x)
    (h : Represents (.ofMantissaAndAccuracy m accuracy) (x / 2 ^ e)) (hfine : e ≤ grid x)
    (hlt : nearest x < 2 ^ 1024) (s : Sign) :
    HasValue (settle (roundWithAccuracy .binary64 s m e accuracy)) (withSign s (nearest x)) := by
  have hrounded := nearest_eq_rounded hlt
  rcases roundWithAccuracy_cases hx h hfine s with
    ⟨hzero, hvalue⟩ | ⟨m', e', hpos, hfinite, hgrid, hvalue⟩
  · have hnone : withSign s 0 = 0 := by cases s <;> simp [withSign]
    rw [hzero, hrounded, hvalue, hnone]
    exact hasValue_settle_zero s
  · have hbound : e' < 972 := by
      by_contra hnot
      rw [hrounded, ← hvalue] at hlt
      exact absurd (hgrid.infinity_le (not_lt.mp hnot)) (not_le.mpr hlt)
    rw [hfinite, hrounded, ← hvalue, settle_of_onGrid hgrid hbound]
    exact .finite s hpos hgrid hbound

/-- A smaller exponent does not change the value. -/
lemma decreaseExponent_value (m : ℕ) (e target : ℤ) :
    ((decreaseExponent m e target).1 : ℚ) * 2 ^ (decreaseExponent m e target).2 = m * 2 ^ e := by
  unfold decreaseExponent
  dsimp only
  rw [Nat.shiftLeft_eq, Nat.cast_mul, Nat.cast_pow, Nat.cast_ofNat, ← zpow_natCast, mul_assoc,
    ← zpow_add₀ two_ne_zero, add_sub_cancel]

/-- A mantissa on any grid is rounded to the nearest value. -/
lemma hasValue_round (hpos : 0 < m) (hlt : nearest (m * 2 ^ e) < 2 ^ 1024) (s : Sign) :
    HasValue (settle (UnpackedFloat.round .binary64 s m e)) (withSign s (nearest (m * 2 ^ e))) := by
  unfold UnpackedFloat.round
  dsimp only
  have hvalue := decreaseExponent_value m e (Format.binary64.targetExponent (totalExponent m e))
  have hfine : (decreaseExponent m e (Format.binary64.targetExponent (totalExponent m e))).2 ≤
      grid (m * 2 ^ e) := by
    unfold decreaseExponent grid
    rw [targetExponent_eq, log_point hpos]
    unfold totalExponent
    dsimp only
    omega
  generalize decreaseExponent m e (Format.binary64.targetExponent (totalExponent m e)) = shifted
    at hvalue hfine ⊢
  obtain ⟨m', e'⟩ := shifted
  dsimp only at hvalue hfine ⊢
  refine hasValue_roundWithAccuracy (point_pos hpos e) ?_ hfine hlt s
  rw [← hvalue, mul_div_cancel_right₀ _ (two_zpow_pos e').ne']
  exact .ofExact m'

/-- A sum of mantissas is rounded with the sign that it has. -/
lemma hasValue_normalize (n : ℤ) (hlt : |closest (n * 2 ^ e)| < 2 ^ 1024) :
    HasValue (settle (UnpackedFloat.normalize .binary64 n e .positive)) (closest (n * 2 ^ e)) := by
  rcases lt_trichotomy n 0 with hneg | rfl | hpos
  · obtain ⟨m, rfl⟩ : ∃ m : ℕ, n = -m := ⟨n.natAbs, by omega⟩
    have hvalue : closest ((-m : ℤ) * 2 ^ e) = withSign .negative (nearest (m * 2 ^ e)) := by
      rw [← closest_withSign .negative (point_nonneg m e), withSign]
      push_cast
      rw [neg_mul]
    rw [hvalue] at hlt ⊢
    rw [abs_withSign, abs_of_nonneg (nearest_nonneg _)] at hlt
    unfold UnpackedFloat.normalize
    rw [Int.compare_eq_lt.mpr hneg, neg_neg]
    exact hasValue_round (by omega) hlt .negative
  · rw [Int.cast_zero, zero_mul, closest_of_nonneg le_rfl, nearest_zero]
    exact hasValue_settle_zero .positive
  · obtain ⟨m, rfl⟩ : ∃ m : ℕ, n = m := ⟨n.toNat, by omega⟩
    rw [Int.cast_natCast, closest_of_nonneg (point_nonneg m e)] at hlt ⊢
    rw [abs_of_nonneg (nearest_nonneg _)] at hlt
    unfold UnpackedFloat.normalize
    rw [Int.compare_eq_gt.mpr hpos]
    exact hasValue_round (by omega) hlt .positive

end Rounding

/-! ## Sums -/

/-- What is added up is the mantissas on the finer one of the two grids. -/
lemma apply_decreaseExponent (s : Sign) (m : ℕ) {e target : ℤ} (h : target ≤ e) :
    ((s.apply (decreaseExponent m e target).1 : ℤ) : ℚ) * 2 ^ target =
      withSign s (m * 2 ^ e) := by
  have hexponent : (decreaseExponent m e target).2 = target := by
    unfold decreaseExponent
    dsimp only
    omega
  have hvalue := decreaseExponent_value m e target
  rw [hexponent] at hvalue
  rw [cast_apply, ← hvalue]
  cases s
  · exact neg_mul _ _
  · rfl

namespace HasValue

/-- The sum of numbers with values is the one closest to the exact sum. -/
theorem add (hu : HasValue u x) (hv : HasValue v y) (hlt : |closest (x + y)| < 2 ^ 1024) :
    HasValue (settle (.add .binary64 u v)) (closest (x + y)) := by
  cases hu with
  | zero s =>
    rw [zero_add, hv.closest_eq]
    cases hv with
    | zero t => cases s <;> cases t <;> exact hasValue_settle_zero _
    | finite t hpos' hgrid' hbound' =>
      change HasValue (settle (.finite t _ _ hpos')) _
      rw [settle_of_onGrid hgrid' hbound']
      exact .finite t hpos' hgrid' hbound'
  | @finite s m e hpos hgrid hbound =>
    cases hv with
    | zero t =>
      have hvalue : HasValue (.finite s m e hpos) _ := .finite s hpos hgrid hbound
      rw [add_zero, hvalue.closest_eq]
      change HasValue (settle (.finite s m e hpos)) _
      rw [hvalue.settle_eq]
      exact hvalue
    | @finite t m' e' hpos' hgrid' hbound' =>
      rw [← apply_decreaseExponent s m (min_le_left e e'),
        ← apply_decreaseExponent t m' (min_le_right e e'), ← add_mul, ← Int.cast_add] at hlt ⊢
      exact hasValue_normalize _ hlt

/-- A difference is the sum with the negative. -/
lemma sub_eq_add (u v : UnpackedFloat) :
    UnpackedFloat.sub .binary64 u v = .add .binary64 u v.neg := by
  have happly : ∀ (s : Sign) (m : ℤ), (-s).apply m = -s.apply m := by
    intro s m
    cases s
    · exact (neg_neg m).symm
    · rfl
  cases u <;> cases v
  case finite.finite s m e hpos t m' e' hpos' =>
    unfold UnpackedFloat.sub UnpackedFloat.add UnpackedFloat.neg
    dsimp only
    rw [happly, Int.sub_eq_add_neg]
  all_goals rfl

/-- The difference of numbers with values is the one closest to the exact difference. -/
theorem sub (hu : HasValue u x) (hv : HasValue v y) (hlt : |closest (x - y)| < 2 ^ 1024) :
    HasValue (settle (.sub .binary64 u v)) (closest (x - y)) := by
  rw [sub_eq_add]
  rw [sub_eq_add_neg] at hlt ⊢
  exact hu.add hv.neg hlt

end HasValue

/-! ## Products and quotients -/

namespace HasValue

/-- The product of numbers with values is the one closest to the exact product. -/
theorem mul (hu : HasValue u x) (hv : HasValue v y) (hlt : |closest (x * y)| < 2 ^ 1024) :
    HasValue (settle (.mul .binary64 u v)) (closest (x * y)) := by
  have hzero : closest 0 = 0 := (HasValue.zero .positive).closest_eq
  cases hu with
  | zero s =>
    rw [zero_mul, hzero]
    cases hv with
    | zero t => exact hasValue_settle_zero _
    | finite t hpos' hgrid' hbound' => exact hasValue_settle_zero _
  | @finite s m e hpos hgrid hbound =>
    cases hv with
    | zero t =>
      rw [mul_zero, hzero]
      exact hasValue_settle_zero _
    | @finite t m' e' hpos' hgrid' hbound' =>
      have hproduct : (m : ℚ) * 2 ^ e * (m' * 2 ^ e') = (m * m' : ℕ) * 2 ^ (e + e') := by
        rw [zpow_add₀ two_ne_zero, Nat.cast_mul]
        ring
      have hpoint := point_pos (Nat.mul_pos hpos hpos') (e + e')
      rw [withSign_mul, hproduct, closest_withSign _ hpoint.le] at hlt ⊢
      rw [abs_withSign, abs_of_nonneg (nearest_nonneg _)] at hlt
      refine hasValue_roundWithAccuracy hpoint ?_ (hgrid.add_le_grid hgrid' hpos hpos') hlt _
      rw [mul_div_cancel_right₀ _ (two_zpow_pos _).ne']
      exact .ofExact _

/-- The quotient of numbers with values is the one closest to the exact quotient. -/
theorem div (hu : HasValue u x) (hv : HasValue v y) (hy : y ≠ 0)
    (hlt : |closest (x / y)| < 2 ^ 1024) :
    HasValue (settle (.div .binary64 u v)) (closest (x / y)) := by
  cases hv with
  | zero t => exact absurd rfl hy
  | @finite t m' e' hpos' hgrid' hbound' =>
    cases hu with
    | zero s =>
      rw [zero_div, (HasValue.zero .positive).closest_eq]
      exact hasValue_settle_zero _
    | @finite s m e hpos hgrid hbound =>
      have hquotient := div_pos (point_pos hpos e) (point_pos hpos' e')
      rw [withSign_div, closest_withSign _ hquotient.le] at hlt ⊢
      rw [abs_withSign, abs_of_nonneg (nearest_nonneg _)] at hlt
      rw [UnpackedFloat.div, divCore]
      dsimp only
      have hfine := (min_le_right (e - e') _).trans (targetExponent_le_grid_div hpos hpos' e e')
      have hexact := min_le_left (e - e')
        (Format.binary64.targetExponent (totalExponent m e - totalExponent m' e'))
      generalize min (e - e') (Format.binary64.targetExponent
        (totalExponent m e - totalExponent m' e')) = target at hfine hexact ⊢
      exact hasValue_roundWithAccuracy hquotient (represents_div hpos' hexact) hfine hlt _

end HasValue

end LanguageDetection.FloatingPoint
