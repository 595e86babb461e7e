import LanguageDetection.Decimal
import LanguageDetection.Proofs.FloatingPoint.Order

/-!
# The bits of a floating-point number

The exact value that the bits of a floating-point number are read as is the one that it is unpacked
to (`ofFloat_eq`).  Two finite numbers with the same exact value are equal (`eq_of_ofFloat_eq`).
-/

namespace LanguageDetection

/-! ## Values -/

namespace FloatingPoint

open Float.Model (UnpackedFloat)

variable {u : UnpackedFloat} {m m' : ℕ} {e e' : ℤ}

/-- A point is on one grid only. -/
lemma OnGrid.eq_of_value_eq (h : OnGrid m e) (h' : OnGrid m' e')
    (hvalue : (m' : ℚ) * 2 ^ e' = m * 2 ^ e) : m' = m ∧ e' = e := by
  rcases lt_trichotomy e e' with hlt | rfl | hgt
  · exact absurd hvalue (h.lt_of_exponent_lt h' hlt).ne'
  · exact ⟨by exact_mod_cast (mul_left_inj' (two_zpow_pos e).ne').mp hvalue, rfl⟩
  · exact absurd hvalue (h'.lt_of_exponent_lt h hgt).ne

/-- A positive finite value is that of one floating-point number. -/
lemma Denotes.eq_finite (hpos : 0 < m) (hgrid : OnGrid m e) (hbound : e < 972)
    (h : Denotes u (m * 2 ^ e)) : u = .finite .positive m e hpos := by
  have hvalue : (0 : ℚ) < m * 2 ^ e := mul_pos (Nat.cast_pos.mpr hpos) (two_zpow_pos e)
  generalize hx : (m : ℚ) * 2 ^ e = x at h hvalue
  cases h with
  | zero sign => exact absurd hvalue (lt_irrefl 0)
  | finite hpos' hgrid' hbound' =>
    obtain ⟨rfl, rfl⟩ := hgrid.eq_of_value_eq hgrid' hx.symm
    rfl
  | infinity => exact absurd hx (hgrid.lt_infinity hbound).ne

end FloatingPoint

namespace Decimal.Binary

/-! ## Words -/

open Float.Model Float.Model.UnpackedFloat

/-- Whether the sign is a minus sign. -/
def isNegative : Sign → Bool
  | .positive => false
  | .negative => true

/-- The exact value of an unpacked number. -/
def ofUnpacked : UnpackedFloat → Binary
  | .notANumber => nan
  | .infinity sign => infinite (isNegative sign)
  | .zero sign => finite (isNegative sign) 0 (-1074)
  | .finite sign mantissa exponent _ => finite (isNegative sign) mantissa exponent

section Word

variable (b : BitVec Format.binary64.numBits)

/-- The mantissa of a word is its last 52 bits. -/
lemma toNat_unpackMantissa : (unpackMantissa b).toNat = b.toNat % 2 ^ 52 := by
  unfold unpackMantissa
  rw [BitVec.toNat_cast, BitVec.extractLsb_toNat, Nat.shiftRight_zero]
  rfl

/-- The exponent of a word is the eleven bits in front of the mantissa. -/
lemma toNat_unpackExponent : (unpackExponent b).toNat = b.toNat / 2 ^ 52 % 2 ^ 11 := by
  unfold unpackExponent
  rw [BitVec.toNat_cast, BitVec.extractLsb_toNat, Nat.shiftRight_eq_div_pow]
  rfl

/-- The sign of a word is its first bit. -/
lemma isNegative_unpackSign :
    isNegative (Sign.ofBitVec (unpackSign b)) = (b.toNat / 2 ^ 63 % 2 == 1) := by
  have hsign : (unpackSign b).toNat = b.toNat / 2 ^ 63 % 2 := by
    unfold unpackSign
    rw [BitVec.toNat_cast, BitVec.extractLsb_toNat, Nat.shiftRight_eq_div_pow]
    rfl
  rw [← hsign]
  generalize unpackSign b = sign
  revert sign
  decide

/-- The bits are read as the number is unpacked. -/
theorem ofBits_toNat : ofBits b.toNat = ofUnpacked (UnpackedFloat.unpack .binary64 b) := by
  have hones : unpackExponent b = -1#11 ↔ b.toNat / 2 ^ 52 % 2 ^ 11 = 2047 := by
    rw [← toNat_unpackExponent, ← BitVec.toNat_inj]
    exact Iff.rfl
  have hnone : unpackExponent b = 0#11 ↔ b.toNat / 2 ^ 52 % 2 ^ 11 = 0 := by
    rw [← toNat_unpackExponent, ← BitVec.toNat_inj]
    exact Iff.rfl
  have hempty : unpackMantissa b = 0#52 ↔ b.toNat % 2 ^ 52 = 0 := by
    rw [← toNat_unpackMantissa, ← BitVec.toNat_inj]
    exact Iff.rfl
  have hbias : (Format.binary64.exponentBias : ℤ) + Format.binary64.mantissaBitsWithoutImplicit =
      1075 := by
    decide
  have hmantissa := toNat_unpackMantissa b
  have hexponent := toNat_unpackExponent b
  have happend : (1#1 ++ unpackMantissa b).toNat = 2 ^ 52 + b.toNat % 2 ^ 52 :=
    (FloatingPoint.toNat_one_append (unpackMantissa b)).trans (congrArg _ hmantissa)
  unfold ofBits UnpackedFloat.unpack
  simp only [Nat.pow_eq, ← isNegative_unpackSign, hbias]
  by_cases hinf : b.toNat / 2 ^ 52 % 2 ^ 11 = 2047
  · rw [if_pos hinf, if_pos (hones.mpr hinf)]
    by_cases hzero : b.toNat % 2 ^ 52 = 0
    · rw [if_pos hzero, if_pos (hempty.mpr hzero)]
      rfl
    · rw [if_neg hzero, if_neg (hempty.not.mpr hzero)]
      rfl
  · rw [if_neg hinf, if_neg (hones.not.mpr hinf)]
    by_cases hsubnormal : b.toNat / 2 ^ 52 % 2 ^ 11 = 0
    · rw [if_pos hsubnormal, if_pos (hnone.mpr hsubnormal)]
      by_cases hzero : b.toNat % 2 ^ 52 = 0
      · rw [dif_pos (hempty.mpr hzero), hzero]
        rfl
      · rw [dif_neg (hempty.not.mpr hzero)]
        simp only [ofUnpacked, hmantissa, hexponent, hsubnormal]
        rfl
    · rw [if_neg hsubnormal, if_neg (hnone.not.mpr hsubnormal)]
      simp only [ofUnpacked, hexponent]
      exact congrArg (finite _ · _) happend.symm

end Word

variable {x y : Float} {negative : Bool} {mantissa : ℕ} {exponent : ℤ}

lemma ofFloat_eq (x : Float) : ofFloat x = ofUnpacked x.toModel.unpack :=
  ofBits_toNat x.toBits.toBitVec

/-- A number with an exact value is a zero or has a mantissa. -/
lemma unpack_cases_of_ofFloat_eq (h : ofFloat x = finite negative mantissa exponent) :
    (mantissa = 0 ∧ exponent = -1074) ∨ ∃ sign, ∃ hpos : 0 < mantissa,
      isNegative sign = negative ∧ x.toModel.unpack = .finite sign mantissa exponent hpos := by
  rw [ofFloat_eq] at h
  cases hunpack : x.toModel.unpack with
  | notANumber =>
    rw [hunpack] at h
    cases h
  | infinity sign =>
    rw [hunpack] at h
    cases h
  | zero sign =>
    rw [hunpack] at h
    injection h with _ hmantissa hexponent
    exact .inl ⟨hmantissa.symm, hexponent.symm⟩
  | finite sign m e hpos =>
    rw [hunpack] at h
    injection h with hsign hmantissa hexponent
    subst hmantissa hexponent
    exact .inr ⟨sign, hpos, hsign, rfl⟩

/-- A number that is finite has an exact value. -/
lemma exists_ofFloat_eq (h : x.isFinite = true) :
    ∃ negative mantissa exponent, ofFloat x = finite negative mantissa exponent := by
  rw [ofFloat_eq]
  change x.toModel.unpack.isFinite = true at h
  cases hunpack : x.toModel.unpack with
  | notANumber =>
    rw [hunpack] at h
    cases h
  | infinity sign =>
    rw [hunpack] at h
    cases h
  | zero sign => exact ⟨_, _, _, rfl⟩
  | finite sign m e hpos => exact ⟨_, _, _, rfl⟩

/-- The sign, the exponent and the fraction of a word by its exact value. -/
lemma parts_of_ofBits_eq {bits : ℕ} (h : ofBits bits = finite negative mantissa exponent) :
    bits / 2 ^ 63 % 2 = negative.toNat ∧
      bits / 2 ^ 52 % 2 ^ 11 = (if mantissa < 2 ^ 52 then 0 else (exponent + 1075).toNat) ∧
        bits % 2 ^ 52 = mantissa % 2 ^ 52 := by
  have hfraction : bits % 2 ^ 52 < 2 ^ 52 := Nat.mod_lt _ (by norm_num)
  have hsign : bits / 2 ^ 63 % 2 = (bits / 2 ^ 63 % 2 == 1).toNat := by
    rcases Nat.mod_two_eq_zero_or_one (bits / 2 ^ 63) with hbit | hbit <;> rw [hbit] <;> rfl
  unfold ofBits at h
  simp only [Nat.pow_eq] at h
  split_ifs at h with hinf hempty hsubnormal
  · injection h with hnegative hmantissa hexponent
    subst hmantissa
    rw [if_pos hfraction, Nat.mod_mod]
    exact ⟨hnegative ▸ hsign, hsubnormal, rfl⟩
  · injection h with hnegative hmantissa hexponent
    subst hmantissa
    rw [if_neg (by omega), Nat.add_mod_left, Nat.mod_mod]
    exact ⟨hnegative ▸ hsign, by omega, rfl⟩

/-- A finite value is that of one word. -/
lemma eq_of_ofBits_eq {bits bits' : ℕ} (hlt : bits < 2 ^ 64) (hlt' : bits' < 2 ^ 64)
    (h : ofBits bits = finite negative mantissa exponent) (heq : ofBits bits' = ofBits bits) :
    bits' = bits := by
  obtain ⟨hsign, hexponent, hfraction⟩ := parts_of_ofBits_eq h
  obtain ⟨hsign', hexponent', hfraction'⟩ := parts_of_ofBits_eq (heq.trans h)
  rw [← hsign'] at hsign
  rw [← hexponent'] at hexponent
  rw [← hfraction'] at hfraction
  omega

/-- Finite numbers with the same exact value are equal. -/
theorem eq_of_ofFloat_eq (h : ofFloat x = finite negative mantissa exponent)
    (heq : ofFloat y = ofFloat x) : y = x := by
  have hbits : y.toBits.toNat = x.toBits.toNat :=
    eq_of_ofBits_eq (UInt64.toNat_lt _) (UInt64.toNat_lt _) h heq
  obtain ⟨⟨xbits, hx⟩⟩ := x
  obtain ⟨⟨ybits, hy⟩⟩ := y
  have : ybits = xbits := UInt64.toNat_inj.mp hbits
  subst this
  rfl

end Decimal.Binary

end LanguageDetection
