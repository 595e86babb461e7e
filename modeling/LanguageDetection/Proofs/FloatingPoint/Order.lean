import LanguageDetection.Proofs.FloatingPoint.Rounding

/-!
# Floating-point numbers in order

What is left of a floating-point number that is packed into a word, and how the numbers in words are
compared.
-/

namespace LanguageDetection

/-!
## Floating-point numbers in words

Packing a floating-point number into a word of 64 bits, and unpacking it again, keeps a mantissa on
the grid of finite numbers (`settle_of_onGrid`) and turns what lies beyond the grid into infinity
(`settle_of_overflow`).
-/

namespace FloatingPoint

open Float.Model Float.Model.UnpackedFloat

/-- What is left of a number that is packed into a word. -/
def settle (u : UnpackedFloat) : UnpackedFloat :=
  (Float.Model.pack u).unpack

lemma settle_eq (u : UnpackedFloat) : settle u = unpack .binary64 (pack .binary64 u) := rfl

/-- What is not a number stays so in a word. -/
lemma settle_notANumber : settle .notANumber = .notANumber := by
  rw [settle_eq]
  exact unpack_packedNaN

/-- A zero keeps its sign in a word. -/
lemma settle_zero (s : Sign) : settle (.zero s) = .zero s := by
  rw [settle_eq]
  exact unpack_packedZero

lemma settle_infinity (s : Sign) : settle (.infinity s) = .infinity s := by
  cases s <;> rfl

/-! ### Words -/

section Words

variable {s : Sign} {m : ℕ} {e : ℤ} {hpos : 0 < m}

/-- A finite number is packed as infinity, as a normal number or as a subnormal one. -/
lemma pack_finite : UnpackedFloat.pack .binary64 (.finite s m e hpos) =
    if 2 ^ 11 ≤ (e + 1023 + 52).toNat + 1 then packedInfinity .binary64 s
    else if m.log2 + 1 = 53 then
      packComponents .binary64 s (BitVec.ofNat 11 (e + 1023 + 52).toNat) (BitVec.ofNat 52 m)
    else packComponents .binary64 s 0#11 (BitVec.ofNat 52 m) :=
  rfl

/-- The leading digit that a word leaves out. -/
lemma toNat_one_append (mantissa : BitVec 52) :
    (1#1 ++ mantissa).toNat = 2 ^ 52 + mantissa.toNat := by
  have hone : (1#1).toNat <<< 52 = 2 ^ 52 := by decide
  rw [BitVec.toNat_append, ← Nat.shiftLeft_add_eq_or_of_lt (BitVec.isLt _), hone]

/-- A word with this exponent and this mantissa is a normal number. -/
lemma unpack_normal {biased : ℕ} (hbiased : 1 ≤ biased) (hsmall : biased + 1 < 2 ^ 11)
    (hlow : 2 ^ 52 ≤ m) (hhigh : m < 2 ^ 53) :
    UnpackedFloat.unpack .binary64
        (packComponents .binary64 s (BitVec.ofNat 11 biased) (BitVec.ofNat 52 m)) =
      .finite s m (biased - 1075) (Nat.lt_of_lt_of_le (by decide) hlow) := by
  have hexponent : (BitVec.ofNat 11 biased).toNat = biased := by
    rw [BitVec.toNat_ofNat, Nat.mod_eq_of_lt (by omega)]
  have hones : BitVec.ofNat 11 biased ≠ -1#11 := by
    intro heq
    have htoNat := congrArg BitVec.toNat heq
    rw [hexponent] at htoNat
    have : (-1#11).toNat = 2047 := by decide
    omega
  have hzero : BitVec.ofNat 11 biased ≠ 0#11 := by
    intro heq
    have htoNat := congrArg BitVec.toNat heq
    rw [hexponent] at htoNat
    have : (0#11).toNat = 0 := by decide
    omega
  have hmantissa : (1#1 ++ BitVec.ofNat 52 m).toNat = m := by
    rw [toNat_one_append, BitVec.toNat_ofNat]
    omega
  unfold UnpackedFloat.unpack
  simp only [unpackMantissa_packComponents, unpackExponent_packComponents,
    unpackSign_packComponents, Sign.ofBitVec_toBitVec]
  rw [if_neg hones, if_neg hzero]
  simp only [hmantissa, hexponent]
  rfl

/-- A word without an exponent and with this mantissa is a subnormal number. -/
lemma unpack_subnormal (hpos : 0 < m) (hhigh : m < 2 ^ 52) :
    UnpackedFloat.unpack .binary64 (packComponents .binary64 s 0#11 (BitVec.ofNat 52 m)) =
      .finite s m (-1074) hpos := by
  have hmantissa : (BitVec.ofNat 52 m).toNat = m := by
    rw [BitVec.toNat_ofNat, Nat.mod_eq_of_lt hhigh]
  have hzero : BitVec.ofNat 52 m ≠ 0#52 := by
    intro heq
    have htoNat := congrArg BitVec.toNat heq
    rw [hmantissa] at htoNat
    have : (0#52).toNat = 0 := by decide
    omega
  have hones : 0#11 ≠ -1#11 := by decide
  unfold UnpackedFloat.unpack
  simp only [unpackMantissa_packComponents, unpackExponent_packComponents,
    unpackSign_packComponents, Sign.ofBitVec_toBitVec]
  rw [if_neg hones]
  simp only [if_true]
  rw [dif_neg hzero]
  simp only [hmantissa]
  rfl

/-- A number whose exponent is too great becomes infinite in a word. -/
lemma settle_of_overflow (he : 972 ≤ e) : settle (.finite s m e hpos) = .infinity s := by
  rw [settle_eq, pack_finite, if_pos (by omega)]
  exact settle_infinity s

/-- A number on the grid is kept in a word. -/
lemma settle_of_onGrid (h : OnGrid m e) (he : e < 972) :
    settle (.finite s m e hpos) = .finite s m e hpos := by
  have hlow := h.le_exponent
  rw [settle_eq, pack_finite, if_neg (by omega)]
  split_ifs with hlog
  · have hnormal : 2 ^ 52 ≤ m := (Nat.le_log2 hpos.ne').mp (by omega)
    rw [unpack_normal (by omega) (by omega) hnormal h.lt]
    congr 1
    omega
  · have hsubnormal : m < 2 ^ 52 := by
      have hlt := (Nat.log2_lt hpos.ne').mpr h.lt
      exact (Nat.log2_lt hpos.ne').mp (by omega)
    rw [unpack_subnormal hpos hsubnormal]
    congr 1
    exact (h.le_or_eq.resolve_left (by omega)).symm

/-- A floating-point number is on a grid, and its exponent is bounded. -/
lemma onGrid_of_unpack_eq {b : BitVec Format.binary64.numBits}
    (h : UnpackedFloat.unpack .binary64 b = .finite s m e hpos) : OnGrid m e ∧ e < 972 := by
  unfold UnpackedFloat.unpack at h
  dsimp only at h
  have hbias : (Format.binary64.exponentBias : ℤ) = 1023 := by decide
  have hwidth : (Format.binary64.mantissaBitsWithoutImplicit : ℤ) = 52 := by decide
  have hones : (-1#11).toNat = 2047 := by decide
  have hzero : (0#11).toNat = 0 := by decide
  have hmantissa : (unpackMantissa b).toNat < 2 ^ 52 := BitVec.isLt _
  have hexponent : (unpackExponent b).toNat < 2 ^ 11 := BitVec.isLt _
  rw [hbias, hwidth] at h
  split_ifs at h with hinf hempty hsubnormal hvanishes
  · injection h with _ hm he
    have hnone : (unpackExponent b).toNat = 0 := (congrArg BitVec.toNat hsubnormal).trans hzero
    rw [hnone] at he
    exact ⟨⟨by omega, by omega, .inr (by omega)⟩, by omega⟩
  · injection h with _ hm he
    have hm' : 2 ^ 52 + (unpackMantissa b).toNat = m :=
      (toNat_one_append (unpackMantissa b)).symm.trans hm
    have hnotOnes : (unpackExponent b).toNat ≠ 2047 :=
      fun heq => hinf (BitVec.eq_of_toNat_eq (heq.trans hones.symm))
    have hnotZero : (unpackExponent b).toNat ≠ 0 :=
      fun heq => hsubnormal (BitVec.eq_of_toNat_eq (heq.trans hzero.symm))
    exact ⟨⟨by omega, by omega, .inl (by omega)⟩, by omega⟩

end Words

end FloatingPoint

/-!
## Comparison and values

Floating-point numbers are compared as they are unpacked.  Of two one is less, unless one of them is
not a number: `float_le_of_not_lt`.

The numbers that are not negative have a value (`Denotes`), which for infinity is the least power of
two beyond the finite ones, and they are ordered as their values are (`Denotes.compare_iff`).
-/

open Float.Model (UnpackedFloat)

/-! ### Comparison -/

/-- Comparing the other way round gives the opposite answer, or none again. -/
lemma unpacked_compare_swap (a b : UnpackedFloat) :
    (a.compare b).map Ordering.swap = b.compare a := by
  cases a with
  | notANumber => cases b <;> rfl
  | infinity s =>
    cases b with
    | notANumber => rfl
    | infinity t => cases s <;> cases t <;> rfl
    | zero t => cases s <;> rfl
    | finite t m e h => cases s <;> cases t <;> rfl
  | zero s =>
    cases b with
    | notANumber => rfl
    | infinity t => cases t <;> rfl
    | zero t => rfl
    | finite t m e h => cases t <;> rfl
  | finite s m e h =>
    cases b with
    | notANumber => rfl
    | infinity t => cases s <;> cases t <;> rfl
    | zero t => cases s <;> rfl
    | finite t m' e' h' =>
      -- of the same sign, the exponents decide and then the mantissas
      have hswap : ((compare e e').then (compare m m')).swap =
          (compare e' e).then (compare m' m) := by
        rw [Ordering.swap_then, Int.compare_swap, Nat.compare_swap]
      cases s <;> cases t
      · simp [UnpackedFloat.compare, hswap]
      · rfl
      · rfl
      · simp [UnpackedFloat.compare, hswap]

/-- Two numbers can be compared unless one of them is not a number. -/
lemma unpacked_compare_eq_none_iff (a b : UnpackedFloat) :
    a.compare b = none ↔ a.isNaN = true ∨ b.isNaN = true := by
  fun_cases UnpackedFloat.compare a b <;> simp [UnpackedFloat.isNaN]

/-- Two floating-point numbers are in order if they are so unpacked. -/
lemma float_le_iff (x y : Float) :
    x ≤ y ↔ (x.toModel.unpack.compare y.toModel.unpack).any (·.isLE) = true := by
  change decide (x.toModel ≤ y.toModel) = true ↔ _
  rw [decide_eq_true_iff]
  exact Iff.rfl

/-- Of two floating-point numbers one is less if it is so unpacked. -/
lemma float_lt_iff (x y : Float) :
    x < y ↔ x.toModel.unpack.compare y.toModel.unpack = some .lt := by
  change decide (x.toModel < y.toModel) = true ↔ _
  rw [decide_eq_true_iff]
  exact beq_iff_eq

/-- Two floating-point numbers that are in order can be compared. -/
lemma float_isNaN_eq_false_of_le {x y : Float} (h : x ≤ y) :
    x.isNaN = false ∧ y.isNaN = false := by
  rw [float_le_iff] at h
  have hsome : x.toModel.unpack.compare y.toModel.unpack ≠ none := by
    intro hnone
    rw [hnone] at h
    cases h
  rw [Ne, unpacked_compare_eq_none_iff, not_or, Bool.not_eq_true, Bool.not_eq_true] at hsome
  exact hsome

/-- Two numbers are in order, one way or the other. -/
lemma float_le_of_not_lt {x y : Float} (hx : x.isNaN = false) (hy : y.isNaN = false)
    (h : ¬ y < x) : x ≤ y := by
  rw [float_lt_iff] at h
  rw [float_le_iff]
  have hsome : y.toModel.unpack.compare x.toModel.unpack ≠ none := by
    rw [Ne, unpacked_compare_eq_none_iff, not_or, Bool.not_eq_true, Bool.not_eq_true]
    exact ⟨hy, hx⟩
  obtain ⟨order, horder⟩ := Option.ne_none_iff_exists'.mp hsome
  rw [← unpacked_compare_swap, horder]
  rw [horder] at h
  cases order with
  | lt => exact absurd rfl h
  | eq => rfl
  | gt => rfl

/-- Of two numbers in order the second is not less. -/
lemma float_not_lt_of_le {x y : Float} (h : x ≤ y) : ¬ y < x := by
  intro hlt
  rw [float_lt_iff] at hlt
  rw [float_le_iff, ← unpacked_compare_swap, hlt] at h
  cases h

/-- No floating-point number is less than itself. -/
lemma float_lt_irrefl (x : Float) : ¬ x < x := by
  intro hlt
  rw [float_lt_iff] at hlt
  have hswap := unpacked_compare_swap x.toModel.unpack x.toModel.unpack
  rw [hlt] at hswap
  cases hswap

namespace FloatingPoint

open Float.Model.UnpackedFloat

/-! ### Values -/

/-- The values of floating-point numbers that are not negative.  That of infinity is the least power
of two beyond the others. -/
inductive Denotes : UnpackedFloat → ℚ → Prop
  | zero (sign : Sign) : Denotes (.zero sign) 0
  | finite {mantissa : ℕ} {exponent : ℤ} (hpos : 0 < mantissa) (hgrid : OnGrid mantissa exponent)
      (hbound : exponent < 972) :
      Denotes (.finite .positive mantissa exponent hpos) (mantissa * 2 ^ exponent)
  | infinity : Denotes (.infinity .positive) (2 ^ 1024)

/-- The value of infinity is the first point beyond the finite grids. -/
lemma infinity_eq : (2 : ℚ) ^ 1024 = (2 ^ 52 : ℕ) * 2 ^ (972 : ℤ) := by
  rw [Nat.cast_pow, Nat.cast_ofNat, ← zpow_natCast, ← zpow_natCast, ← zpow_add₀ two_ne_zero]
  rfl

namespace OnGrid

variable {m m' : ℕ} {e e' : ℤ}

/-- On a coarser grid points are greater. -/
lemma lt_of_exponent_lt (h : OnGrid m e) (h' : OnGrid m' e') (he : e < e') :
    (m : ℚ) * 2 ^ e < m' * 2 ^ e' := by
  have hlow := h.le_exponent
  have hnormal : 2 ^ 52 ≤ m' := h'.le_or_eq.resolve_right (by omega)
  have hsmall : (m : ℚ) < 2 ^ 53 := by exact_mod_cast h.lt
  calc (m : ℚ) * 2 ^ e < 2 ^ (53 : ℤ) * 2 ^ e := by
        rw [mul_lt_mul_iff_left₀ (two_zpow_pos e)]
        exact_mod_cast hsmall
    _ = 2 ^ (53 + e) := (zpow_add₀ two_ne_zero 53 e).symm
    _ ≤ 2 ^ (52 + e') := zpow_le_zpow_right₀ one_le_two (by omega)
    _ = 2 ^ (52 : ℤ) * 2 ^ e' := zpow_add₀ two_ne_zero 52 e'
    _ ≤ m' * 2 ^ e' := by
        gcongr
        exact_mod_cast hnormal

/-- Points are ordered by their exponents, and then by their mantissas. -/
lemma lt_iff (h : OnGrid m e) (h' : OnGrid m' e') :
    (compare e e').then (compare m m') = .lt ↔ (m : ℚ) * 2 ^ e < m' * 2 ^ e' := by
  rw [Ordering.then_eq_lt, compare_lt_iff_lt, compare_eq_iff_eq, compare_lt_iff_lt]
  rcases lt_trichotomy e e' with hlt | rfl | hgt
  · exact iff_of_true (.inl hlt) (h.lt_of_exponent_lt h' hlt)
  · rw [mul_lt_mul_iff_left₀ (two_zpow_pos e), Nat.cast_lt]
    simp
  · exact iff_of_false (by omega) (h'.lt_of_exponent_lt h hgt).not_gt

/-- The points that are floating-point numbers are below infinity. -/
lemma lt_infinity (h : OnGrid m e) (he : e < 972) : (m : ℚ) * 2 ^ e < 2 ^ 1024 := by
  have hinf : OnGrid (2 ^ 52) 972 := ⟨by norm_num, by norm_num, .inl le_rfl⟩
  calc (m : ℚ) * 2 ^ e < (2 ^ 52 : ℕ) * 2 ^ (972 : ℤ) := h.lt_of_exponent_lt hinf he
    _ = 2 ^ 1024 := infinity_eq.symm

/-- The points beyond are not. -/
lemma infinity_le (h : OnGrid m e) (he : 972 ≤ e) : (2 : ℚ) ^ 1024 ≤ m * 2 ^ e := by
  have hnormal : 2 ^ 52 ≤ m := h.le_or_eq.resolve_right (by omega)
  calc (2 : ℚ) ^ 1024 = (2 ^ 52 : ℕ) * 2 ^ (972 : ℤ) := infinity_eq
    _ ≤ m * 2 ^ e := by
        gcongr
        norm_num

end OnGrid

namespace Denotes

variable {u v : UnpackedFloat} {x y : ℚ}

/-- A value is not negative. -/
lemma nonneg (h : Denotes u x) : 0 ≤ x := by
  cases h with
  | zero sign => exact le_rfl
  | finite hpos hgrid hbound => exact mul_nonneg (Nat.cast_nonneg _) (two_zpow_pos _).le
  | infinity => positivity

/-- No value is above that of infinity. -/
lemma le_infinity (h : Denotes u x) : x ≤ 2 ^ 1024 := by
  cases h with
  | zero sign => positivity
  | finite hpos hgrid hbound => exact (hgrid.lt_infinity hbound).le
  | infinity => exact le_rfl

/-- Floating-point numbers are ordered as their values are. -/
theorem compare_iff (hu : Denotes u x) (hv : Denotes v y) :
    u.compare v = some .lt ↔ x < y := by
  have hpos : ∀ {m : ℕ} {e : ℤ}, 0 < m → (0 : ℚ) < m * 2 ^ e := fun hm =>
    mul_pos (Nat.cast_pos.mpr hm) (two_zpow_pos _)
  cases hu with
  | zero sign =>
    cases hv with
    | zero sign' => exact iff_of_false nofun (lt_irrefl 0)
    | finite hm hgrid hbound => exact iff_of_true rfl (hpos hm)
    | infinity => exact iff_of_true rfl (by positivity)
  | finite hm hgrid hbound =>
    cases hv with
    | zero sign' => exact iff_of_false nofun (hpos hm).not_gt
    | finite hm' hgrid' hbound' =>
      rw [← hgrid.lt_iff hgrid']
      exact Option.some_inj
    | infinity => exact iff_of_true rfl (hgrid.lt_infinity hbound)
  | infinity =>
    cases hv with
    | zero sign' => exact iff_of_false nofun (by norm_num)
    | finite hm' hgrid' hbound' => exact iff_of_false nofun (hgrid'.lt_infinity hbound').not_gt
    | infinity => exact iff_of_false nofun (lt_irrefl _)

end Denotes

/-- A floating-point number is none, is negative and less than all that are not, or has a value. -/
lemma unpack_cases (b : BitVec Float.Model.Format.binary64.numBits) :
    unpack .binary64 b = .notANumber ∨
      (∀ {v y}, Denotes v y → v.compare (unpack .binary64 b) = some .gt) ∨
        ∃ x, Denotes (unpack .binary64 b) x := by
  cases h : unpack .binary64 b with
  | notANumber => exact .inl rfl
  | infinity sign =>
    cases sign with
    | negative =>
      refine .inr (.inl fun hv => ?_)
      cases hv <;> rfl
    | positive => exact .inr (.inr ⟨_, .infinity⟩)
  | zero sign => exact .inr (.inr ⟨0, .zero sign⟩)
  | finite sign m e hpos =>
    cases sign with
    | negative =>
      refine .inr (.inl fun hv => ?_)
      cases hv <;> rfl
    | positive =>
      obtain ⟨hgrid, hbound⟩ := onGrid_of_unpack_eq h
      exact .inr (.inr ⟨_, .finite hpos hgrid hbound⟩)

end FloatingPoint

end LanguageDetection
