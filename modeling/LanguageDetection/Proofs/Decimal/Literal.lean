import Mathlib.Algebra.Group.Nat.Defs
import Mathlib.Data.List.Basic
import LanguageDetection.Decimal

/-!
# Decimal literals and their spelling

The digits of a number stand for it (`digitsValue_digits`), and only zero begins with a zero.  A
literal whose parts are digits is spelled in one way (`Literal.spell`), and the spelling is read as
that literal wherever no digit, point or exponent follows it (`Literal.readPrefix_spell`).
-/

namespace LanguageDetection.Decimal

/-! ## Digits -/

/-- A list of digits, at least one. -/
structure IsDigits (digits : List Char) : Prop where
  ne_nil : digits ≠ []
  isDigit : ∀ c ∈ digits, c.isDigit = true

lemma isDigits_digits (n : ℕ) : IsDigits (digits n) where
  ne_nil := Nat.toDigits_ne_nil
  isDigit _ hc := Nat.isDigit_of_mem_toDigits (by decide) (by decide) hc

/-- The digits of a number stand for it. -/
lemma digitsValue_digits (n : ℕ) : digitsValue (digits n) = n :=
  Nat.ofDigitChars_ten_toDigits

/-- Digits in front of others count as many powers of ten more. -/
lemma digitsValue_append (front back : List Char) :
    digitsValue (front ++ back) = 10 ^ back.length * digitsValue front + digitsValue back := by
  change Nat.ofDigitChars 10 (front ++ back) 0 = _
  rw [Nat.ofDigitChars_append, Nat.ofDigitChars_eq_ofDigitChars_zero]
  rfl

/-- Zeros in front count for nothing. -/
lemma digitsValue_replicate_append (n : ℕ) (digits : List Char) :
    digitsValue (List.replicate n '0' ++ digits) = digitsValue digits := by
  induction n with
  | zero => rfl
  | succ n ih =>
    rw [List.replicate_succ, List.cons_append]
    exact ih

/-- A positive number does not begin with a zero. -/
lemma head?_digits_ne_zero {n : ℕ} (h : 0 < n) : (digits n).head? ≠ some '0' := by
  induction n using Nat.strongRecOn with
  | _ n ih =>
    rcases Nat.lt_or_ge n 10 with hlt | hge
    · have hdigit : ∀ d < 10, 0 < d → (digits d).head? ≠ some '0' := by decide
      exact hdigit n hlt h
    · have hsplit : digits n = digits (n / 10) ++ [(n % 10).digitChar] :=
        Nat.toDigits_of_base_le (by decide) hge
      rw [hsplit, List.head?_append_of_ne_nil _ (isDigits_digits _).ne_nil]
      exact ih (n / 10) (by omega) (by omega)

/-- Cut anywhere behind the first digit, a number has no zero in front of other digits. -/
lemma length_take_digits_eq_one {n k : ℕ} (hk : 0 < k)
    (h : ((digits n).take k).head? = some '0') : ((digits n).take k).length = 1 := by
  rw [List.head?_take, if_neg (Nat.ne_of_gt hk)] at h
  rcases Nat.eq_zero_or_pos n with rfl | hpos
  · rw [List.length_take]
    change min k 1 = 1
    omega
  · exact absurd h (head?_digits_ne_zero hpos)

/-- Only the digits of zero begin with a zero. -/
lemma length_digits_eq_one {n : ℕ} (h : (digits n).head? = some '0') : (digits n).length = 1 := by
  have hpos : 0 < (digits n).length := List.length_pos_iff.mpr (isDigits_digits n).ne_nil
  rw [← List.take_length (l := digits n)] at h ⊢
  exact length_take_digits_eq_one hpos h

section Span

variable {front rest : List Char}

/-- Nothing that continues a list of digits. -/
def EndsDigits (rest : List Char) : Prop :=
  ∀ c ∈ rest.head?, c.isDigit = false

/-- The digits in front end where the rest has none. -/
lemma takeWhile_isDigit_append (h : IsDigits front) (hrest : EndsDigits rest) :
    (front ++ rest).takeWhile Char.isDigit = front := by
  rw [List.takeWhile_append_of_pos h.isDigit]
  cases rest with
  | nil => exact List.append_nil front
  | cons c rest => rw [List.takeWhile_cons_of_neg (by simp [hrest c rfl]), List.append_nil]

/-- Behind the digits in front is the rest, which begins with none. -/
lemma dropWhile_isDigit_append (h : IsDigits front) (hrest : EndsDigits rest) :
    (front ++ rest).dropWhile Char.isDigit = rest := by
  rw [List.dropWhile_append_of_pos h.isDigit]
  cases rest with
  | nil => rfl
  | cons c rest => rw [List.dropWhile_cons_of_neg (by simp [hrest c rfl])]

end Span

/-! ## Literals -/

namespace Literal

/-- Every part that is there has digits. -/
structure IsSound (literal : Literal) : Prop where
  whole : IsDigits literal.whole
  fraction : ∀ digits ∈ literal.fraction, IsDigits digits
  exponent : ∀ exponent ∈ literal.exponent, IsDigits exponent.2

/-- A minus sign, if there is one. -/
def spellSign (negative : Bool) : List Char :=
  if negative then ['-'] else []

/-- The fraction with its point, if there is one. -/
def spellFraction : Option (List Char) → List Char
  | some digits => '.' :: digits
  | none => []

/-- The exponent with its letter and its sign, if there is one. -/
def spellExponent : Option (Bool × List Char) → List Char
  | some (negative, digits) => 'e' :: (if negative then '-' else '+') :: digits
  | none => []

/-- The text of a literal. -/
def spell (literal : Literal) : List Char :=
  spellSign literal.negative ++ literal.whole ++ spellFraction literal.fraction ++
    spellExponent literal.exponent

/-- Nothing that continues a literal. -/
def Ends (rest : List Char) : Prop :=
  ∀ c ∈ rest.head?, c.isDigit = false ∧ c ≠ '.' ∧ c ≠ 'e' ∧ c ≠ 'E'

/-- A zero that stands alone is no leading zero. -/
lemma hasLeadingZero_eq_false {literal : Literal}
    (h : literal.whole.head? = some '0' → literal.whole.length = 1) :
    literal.hasLeadingZero = false := by
  unfold hasLeadingZero
  rw [Bool.and_eq_false_imp]
  intro hhead
  rw [h (of_decide_eq_true hhead)]
  rfl

section Prefix

variable {literal : Literal} {rest : List Char}

lemma Ends.endsDigits (h : Ends rest) : EndsDigits rest :=
  fun c hc => (h c hc).1

/-- Digits have no sign in front of them. -/
lemma readSign_of_isDigits {front : List Char} (h : IsDigits front) (rest : List Char) :
    readSign (front ++ rest) = (false, front ++ rest) := by
  obtain ⟨c, front, rfl⟩ := List.exists_cons_of_ne_nil h.ne_nil
  have hdigit := h.isDigit c List.mem_cons_self
  rw [List.cons_append]
  unfold readSign
  split
  · next heq => exact absurd ((List.cons.inj heq).1 ▸ hdigit) (by decide)
  · next heq => exact absurd ((List.cons.inj heq).1 ▸ hdigit) (by decide)
  · rfl

/-- A sign in front of digits is read back. -/
lemma readSign_spellSign (negative : Bool) {front : List Char} (h : IsDigits front)
    (rest : List Char) :
    readSign (spellSign negative ++ (front ++ rest)) = (negative, front ++ rest) := by
  cases negative with
  | true => rfl
  | false => exact readSign_of_isDigits h rest

/-- An exponent does not go on with the digits in front of it. -/
lemma endsDigits_spellExponent (exponent : Option (Bool × List Char)) (hrest : Ends rest) :
    EndsDigits (spellExponent exponent ++ rest) := by
  cases exponent with
  | none => exact hrest.endsDigits
  | some exponent =>
    rintro c ⟨⟩
    decide

/-- A fraction does not go on with the digits in front of it. -/
lemma endsDigits_spellFraction (fraction : Option (List Char))
    (exponent : Option (Bool × List Char)) (hrest : Ends rest) :
    EndsDigits (spellFraction fraction ++ (spellExponent exponent ++ rest)) := by
  cases fraction with
  | none => exact endsDigits_spellExponent exponent hrest
  | some digits =>
    rintro c ⟨⟩
    decide

/-- A literal begins with a minus sign or with a digit. -/
lemma IsSound.exists_spell_eq_cons (h : literal.IsSound) :
    ∃ c text, literal.spell = c :: text ∧ (c = '-' ∨ c.isDigit = true) := by
  unfold spell
  cases literal.negative with
  | true => exact ⟨'-', _, rfl, .inl rfl⟩
  | false =>
    obtain ⟨c, whole, hwhole⟩ := List.exists_cons_of_ne_nil h.whole.ne_nil
    rw [hwhole]
    exact ⟨c, _, rfl, .inr (h.whole.isDigit c (hwhole ▸ List.mem_cons_self))⟩

/-- A fraction is read up to its last digit. -/
lemma readFraction_spellFraction {fraction : Option (List Char)}
    (h : ∀ digits ∈ fraction, IsDigits digits) (exponent : Option (Bool × List Char))
    (hrest : Ends rest) :
    readFraction (spellFraction fraction ++ (spellExponent exponent ++ rest)) =
      (fraction, spellExponent exponent ++ rest) := by
  have hends := endsDigits_spellExponent exponent hrest
  cases fraction with
  | some digits =>
    change (some (List.takeWhile _ (digits ++ _)), List.dropWhile _ (digits ++ _)) = _
    rw [takeWhile_isDigit_append (h digits rfl) hends,
      dropWhile_isDigit_append (h digits rfl) hends]
  | none =>
    change readFraction (spellExponent exponent ++ rest) = _
    unfold readFraction
    split
    · next heq =>
      cases exponent with
      | some exponent => cases heq
      | none => exact absurd rfl (hrest '.' (congrArg List.head? heq)).2.1
    · rfl

/-- An exponent is read up to its last digit. -/
lemma readExponent_spellExponent {exponent : Option (Bool × List Char)}
    (h : ∀ part ∈ exponent, IsDigits part.2) (hrest : Ends rest) :
    readExponent (spellExponent exponent ++ rest) = (exponent, rest) := by
  cases exponent with
  | some part =>
    obtain ⟨negative, digits⟩ := part
    have hdigits : IsDigits digits := h _ rfl
    have hsign : readSign ((if negative then '-' else '+') :: (digits ++ rest)) =
        (negative, digits ++ rest) := by
      cases negative <;> rfl
    change readExponent ('e' :: (if negative then '-' else '+') :: (digits ++ rest)) = _
    unfold readExponent
    dsimp only
    rw [if_pos (by decide), hsign]
    dsimp only
    rw [takeWhile_isDigit_append hdigits hrest.endsDigits,
      dropWhile_isDigit_append hdigits hrest.endsDigits]
  | none =>
    cases rest with
    | nil => rfl
    | cons c rest =>
      obtain ⟨-, -, he, hE⟩ := hrest c rfl
      refine if_neg ?_
      rw [decide_eq_false he, decide_eq_false hE]
      exact Bool.false_ne_true

/-- A spelled literal is read, and what follows it is left. -/
theorem readPrefix_spell (h : literal.IsSound) (hrest : Ends rest) :
    readPrefix (literal.spell ++ rest) = some (literal, rest) := by
  have hfraction := readFraction_spellFraction h.fraction literal.exponent hrest
  have hexponent := readExponent_spellExponent h.exponent hrest
  have hends := endsDigits_spellFraction literal.fraction literal.exponent hrest
  have hnumber : literal.whole.isEmpty = false := List.isEmpty_eq_false_iff.mpr h.whole.ne_nil
  have hpoint : (literal.fraction == some []) = false :=
    beq_eq_false_iff_ne.mpr fun heq => (h.fraction [] heq).ne_nil rfl
  have hletter : literal.exponent.any (·.2.isEmpty) = false := by
    cases hpart : literal.exponent with
    | none => rfl
    | some part => exact List.isEmpty_eq_false_iff.mpr (h.exponent part hpart).ne_nil
  unfold readPrefix spell
  rw [List.append_assoc, List.append_assoc, List.append_assoc, readSign_spellSign _ h.whole]
  dsimp only
  rw [takeWhile_isDigit_append h.whole hends, dropWhile_isDigit_append h.whole hends, hfraction]
  dsimp only
  rw [hexponent]
  rw [hnumber, hpoint, hletter]
  rfl

end Prefix

end Literal

end LanguageDetection.Decimal
