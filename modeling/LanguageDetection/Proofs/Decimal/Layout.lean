import Mathlib.Algebra.Order.Field.Rat
import Mathlib.Tactic.NormNum
import Mathlib.Tactic.Ring
import LanguageDetection.Proofs.Decimal.Literal

/-!
# The numbers of a document

A number of a JSON document is written as the literal that its shortest decimal gives
(`text_json_of_finite`): with a fraction or with an exponent, without a zero in front of other
digits, and with the value of the decimal (`value_literal`).
-/

namespace LanguageDetection.Decimal

namespace Literal

/-- The number that a literal stands for, its sign left out. -/
def value (literal : Literal) : ℚ :=
  literal.coefficient * 10 ^ literal.power

end Literal

namespace Scientific

variable (decimal : Scientific) (negative : Bool)

/-- The number that a decimal stands for. -/
def value : ℚ :=
  decimal.coefficient * 10 ^ decimal.exponent

/-- The digits without a point, with zeros in front for all decimal places and one more digit. -/
def paddedDigits : List Char :=
  List.replicate ((-decimal.exponent).toNat + 1 - (digits decimal.coefficient).length) '0' ++
    digits decimal.coefficient

/-- How many of these digits stand before the point. -/
def wholeLength : ℕ :=
  decimal.paddedDigits.length - (-decimal.exponent).toNat

/-- The literal without an exponent; a whole number has the fraction zero. -/
def positionalLiteral : Literal :=
  if 0 ≤ decimal.exponent then
    { negative, whole := digits (decimal.coefficient * Nat.pow 10 decimal.exponent.toNat),
      fraction := some ['0'], exponent := none }
  else
    { negative, whole := decimal.paddedDigits.take decimal.wholeLength,
      fraction := some (decimal.paddedDigits.drop decimal.wholeLength), exponent := none }

/-- The power of ten of the first digit. -/
def firstPower : ℤ :=
  decimal.exponent + ((digits decimal.coefficient).length - 1 : ℕ)

/-- The literal with one digit before the point and an exponent. -/
def exponentLiteral : Literal :=
  { negative, whole := (digits decimal.coefficient).take 1,
    fraction :=
      if (digits decimal.coefficient).length ≤ 1 then none
      else some ((digits decimal.coefficient).drop 1),
    exponent := some (decide (decimal.firstPower < 0), digits decimal.firstPower.natAbs) }

/-- The literal that a document has for the decimal. -/
def literal : Literal :=
  if -5 ≤ decimal.firstPower ∧ decimal.firstPower < 16 then decimal.positionalLiteral negative
  else decimal.exponentLiteral negative

/-- The digits are padded with zeros up to one digit of the whole part. -/
lemma length_paddedDigits :
    decimal.paddedDigits.length =
      max (digits decimal.coefficient).length ((-decimal.exponent).toNat + 1) := by
  unfold paddedDigits
  rw [List.length_append, List.length_replicate]
  omega

/-- Padding adds nothing but zeros. -/
lemma isDigit_of_mem_paddedDigits {c : Char} (h : c ∈ decimal.paddedDigits) : c.isDigit = true := by
  unfold paddedDigits at h
  rcases List.mem_append.mp h with hzero | hdigit
  · rw [List.eq_of_mem_replicate hzero]
    rfl
  · exact (isDigits_digits _).isDigit c hdigit

lemma negative_literal : (decimal.literal negative).negative = negative := by
  unfold literal positionalLiteral exponentLiteral
  split_ifs <;> rfl

/-! ## Soundness -/

/-- Without an exponent the literal of a decimal is sound. -/
lemma isSound_positionalLiteral : (decimal.positionalLiteral negative).IsSound := by
  have hlength := decimal.length_paddedDigits
  unfold positionalLiteral
  split_ifs with h
  · refine ⟨isDigits_digits _, ?_, nofun⟩
    rintro part ⟨⟩
    exact ⟨List.cons_ne_nil _ _, List.forall_mem_singleton.mpr rfl⟩
  · refine ⟨⟨?_, fun c hc => decimal.isDigit_of_mem_paddedDigits (List.mem_of_mem_take hc)⟩, ?_,
      nofun⟩
    · apply List.ne_nil_of_length_pos
      rw [List.length_take]
      unfold wholeLength
      omega
    · rintro part ⟨⟩
      refine ⟨?_, fun c hc => decimal.isDigit_of_mem_paddedDigits (List.mem_of_mem_drop hc)⟩
      apply List.ne_nil_of_length_pos
      rw [List.length_drop]
      unfold wholeLength
      omega

/-- With an exponent the literal of a decimal is sound. -/
lemma isSound_exponentLiteral : (decimal.exponentLiteral negative).IsSound := by
  have hdigits := isDigits_digits decimal.coefficient
  have hpos := List.length_pos_iff.mpr hdigits.ne_nil
  refine ⟨⟨?_, fun c hc => hdigits.isDigit c (List.mem_of_mem_take hc)⟩, ?_, ?_⟩
  · apply List.ne_nil_of_length_pos
    change 0 < ((digits decimal.coefficient).take 1).length
    rw [List.length_take]
    omega
  · intro part hpart
    change part ∈ (if (digits decimal.coefficient).length ≤ 1 then none else _) at hpart
    split_ifs at hpart with h
    · cases hpart
    · cases hpart
      refine ⟨?_, fun c hc => hdigits.isDigit c (List.mem_of_mem_drop hc)⟩
      apply List.ne_nil_of_length_pos
      rw [List.length_drop]
      omega
  · rintro part ⟨⟩
    exact isDigits_digits _

/-- The literal of a decimal is sound. -/
theorem isSound_literal : (decimal.literal negative).IsSound := by
  unfold literal
  split_ifs
  · exact decimal.isSound_positionalLiteral negative
  · exact decimal.isSound_exponentLiteral negative

/-! ## Zeros in front -/

/-- The literal of a decimal begins with a zero only if that is its whole part. -/
theorem hasLeadingZero_literal : (decimal.literal negative).hasLeadingZero = false := by
  unfold literal
  apply Literal.hasLeadingZero_eq_false
  split_ifs
  · unfold positionalLiteral
    split_ifs with hexponent
    · exact length_digits_eq_one
    · intro hhead
      have hlength := decimal.length_paddedDigits
      by_cases hshort : (digits decimal.coefficient).length ≤ (-decimal.exponent).toNat
      · rw [List.length_take]
        unfold wholeLength
        omega
      · have hpadded : decimal.paddedDigits = digits decimal.coefficient := by
          unfold paddedDigits
          rw [Nat.sub_eq_zero_of_le (by omega)]
          rfl
        dsimp only at hhead ⊢
        rw [hpadded] at hhead hlength ⊢
        refine length_take_digits_eq_one ?_ hhead
        unfold wholeLength
        rw [hpadded]
        omega
  · exact length_take_digits_eq_one one_pos

/-! ## Spelling -/

/-- A fraction is spelled behind a point. -/
lemma spell_point (whole fraction : List Char) :
    ({ negative, whole, fraction := some fraction, exponent := none } : Literal).spell =
      Literal.spellSign negative ++ (whole ++ '.' :: fraction) := by
  unfold Literal.spell
  rw [List.append_assoc, List.append_assoc, Literal.spellExponent, List.append_nil]
  rfl

/-- Without an exponent the literal of a decimal is spelled as it is laid out. -/
lemma spell_positionalLiteral :
    (decimal.positionalLiteral negative).spell =
      Literal.spellSign negative ++ positional true decimal := by
  unfold positionalLiteral positional
  by_cases h : 0 ≤ decimal.exponent
  · rw [if_pos h, if_pos h, spell_point]
    rfl
  · rw [if_neg h, if_neg h, spell_point]
    rfl

/-- With an exponent the literal of a decimal is spelled as it is laid out. -/
lemma spell_exponentLiteral :
    (decimal.exponentLiteral negative).spell =
      Literal.spellSign negative ++ scientific decimal := by
  unfold exponentLiteral scientific Literal.spell
  rw [List.append_assoc, List.append_assoc]
  unfold firstPower
  dsimp only
  rw [Literal.spellExponent]
  by_cases h : (digits decimal.coefficient).length ≤ 1
  · rw [if_pos h, if_pos h, List.append_nil]
    simp only [decide_eq_true_eq]
    rfl
  · rw [if_neg h, if_neg h, List.append_assoc]
    simp only [decide_eq_true_eq]
    rfl

/-- The literal is what the layout of a document writes. -/
theorem spell_literal :
    (decimal.literal negative).spell =
      Literal.spellSign negative ++ Layout.json.write decimal := by
  have hpos := List.length_pos_iff.mpr (isDigits_digits decimal.coefficient).ne_nil
  have hfirst :
      decimal.exponent + (digits decimal.coefficient).length - 1 = decimal.firstPower := by
    unfold firstPower
    omega
  have hwrite : Layout.json.write decimal =
      if -5 ≤ decimal.firstPower ∧ decimal.firstPower < 16 then positional true decimal
      else scientific decimal := by
    unfold Layout.write
    rw [hfirst]
    change (if (decide (-5 ≤ decimal.firstPower) && decide (decimal.firstPower < 16)) = true then
      positional true decimal else scientific decimal) = _
    simp only [Bool.and_eq_true, decide_eq_true_eq]
  rw [hwrite]
  unfold literal
  split_ifs
  · exact decimal.spell_positionalLiteral negative
  · exact decimal.spell_exponentLiteral negative

/-! ## Value -/

/-- The digits behind a point count as many powers of ten less. -/
lemma value_point (whole fraction : List Char) :
    ({ negative, whole, fraction := some fraction, exponent := none } : Literal).value =
      digitsValue (whole ++ fraction) * 10 ^ (-(fraction.length : ℤ)) := by
  rw [← zero_sub]
  rfl

/-- Without an exponent the literal of a decimal has its value. -/
lemma value_positionalLiteral : (decimal.positionalLiteral negative).value = decimal.value := by
  unfold positionalLiteral value
  by_cases h : 0 ≤ decimal.exponent
  · have hpower : (10 : ℚ) ^ decimal.exponent = 10 ^ decimal.exponent.toNat := by
      rw [← zpow_natCast, Int.toNat_of_nonneg h]
    have hzero : digitsValue ['0'] = 0 := rfl
    rw [if_pos h, value_point, digitsValue_append, digitsValue_digits, hzero, hpower]
    simp only [List.length_singleton, Nat.pow_eq]
    push_cast
    norm_num
    ring
  · have hlength := decimal.length_paddedDigits
    have hpower : -((decimal.paddedDigits.drop decimal.wholeLength).length : ℤ) =
        decimal.exponent := by
      rw [List.length_drop]
      unfold wholeLength
      omega
    rw [if_neg h, value_point, List.take_append_drop, hpower]
    unfold paddedDigits
    rw [digitsValue_replicate_append, digitsValue_digits]

/-- Behind the point are all digits but the first. -/
lemma getD_fraction_exponentLiteral :
    (decimal.exponentLiteral negative).fraction.getD [] = (digits decimal.coefficient).drop 1 := by
  change (if (digits decimal.coefficient).length ≤ 1 then none else some _).getD [] = _
  split_ifs with h
  · exact (List.drop_eq_nil_of_le h).symm
  · rfl

/-- The digits on both sides of the point are those of the coefficient. -/
lemma coefficient_exponentLiteral :
    (decimal.exponentLiteral negative).coefficient = decimal.coefficient := by
  unfold Literal.coefficient
  rw [getD_fraction_exponentLiteral]
  change digitsValue ((digits decimal.coefficient).take 1 ++ _) = _
  rw [List.take_append_drop, digitsValue_digits]

/-- The exponent is that of the first digit, and the digits behind the point bring it down to that
of the last one. -/
lemma power_exponentLiteral : (decimal.exponentLiteral negative).power = decimal.exponent := by
  have hpos := List.length_pos_iff.mpr (isDigits_digits decimal.coefficient).ne_nil
  unfold Literal.power
  rw [getD_fraction_exponentLiteral, List.length_drop]
  by_cases h : decimal.firstPower < 0
  · have hexponent : (decimal.exponentLiteral negative).exponent =
        some (true, digits decimal.firstPower.natAbs) := by
      rw [← decide_eq_true h]
      rfl
    rw [hexponent]
    dsimp only
    rw [digitsValue_digits]
    unfold firstPower at h ⊢
    omega
  · have hexponent : (decimal.exponentLiteral negative).exponent =
        some (false, digits decimal.firstPower.natAbs) := by
      rw [← decide_eq_false h]
      rfl
    rw [hexponent]
    dsimp only
    rw [digitsValue_digits]
    unfold firstPower at h ⊢
    omega

/-- With an exponent the literal of a decimal has its value. -/
lemma value_exponentLiteral : (decimal.exponentLiteral negative).value = decimal.value := by
  unfold value Literal.value
  rw [coefficient_exponentLiteral, power_exponentLiteral]

/-- The literal of a decimal has its value. -/
theorem value_literal : (decimal.literal negative).value = decimal.value := by
  unfold literal
  split_ifs
  · exact decimal.value_positionalLiteral negative
  · exact decimal.value_exponentLiteral negative

end Scientific

/-! ## Texts of numbers -/

/-- The decimal that a document has for a mantissa times two to an exponent. -/
def decimalOf (mantissa : ℕ) (exponent : ℤ) : Scientific :=
  if mantissa = 0 then { coefficient := 0, exponent := 0 }
  else shortest .even mantissa exponent

lemma signed_eq (negative : Bool) (text : List Char) :
    signed negative text = String.ofList (Literal.spellSign negative ++ text) := by
  cases negative <;> rfl

/-- A finite number is written as the literal of its decimal. -/
theorem text_json_of_finite {x : Float} {negative : Bool} {mantissa : ℕ} {exponent : ℤ}
    (h : Binary.ofFloat x = .finite negative mantissa exponent) :
    Layout.json.text x =
      String.ofList ((decimalOf mantissa exponent).literal negative).spell := by
  unfold Layout.text
  rw [h]
  dsimp only
  rw [signed_eq, Scientific.spell_literal]
  unfold decimalOf
  split_ifs <;> rfl

end LanguageDetection.Decimal
