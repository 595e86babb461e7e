import Mathlib.Data.List.TakeWhile
import LanguageDetection.Proofs.Ranking

/-!
# Blanks around a text

A text is scored by what is left of it when the blanks at its ends are taken off, so blanks around
it have no influence on its score (`trim_envelope`).  Whether it looks binary is decided on the
whole text, though: blanks make the text longer, and two of them, the vertical tabulator and the
next-line character, do not print (`isNonPrintable_iff_of_isBlank`).

`EnvelopeLaw` says what follows for a classification.  Only the answer that a text is binary can
change, and blanks that print can only take it back.
-/

namespace LanguageDetection

open Characters

/-! ## Blanks at the ends -/

section Trim

variable {front back : List Char}

/-- Blanks at the end do not matter to a text that is trimmed there. -/
lemma trimEnd_append (hback : ∀ c ∈ back, isBlank c = true) (text : List Char) :
    trimEnd (text ++ back) = trimEnd text := by
  have hreverse : ∀ c ∈ back.reverse, isBlank c = true := by
    intro c hc
    exact hback c (List.mem_reverse.mp hc)
  unfold trimEnd
  rw [List.reverse_append, List.dropWhile_append_of_pos hreverse]

/-- Blanks around a text are taken off with those at its ends. -/
theorem trim_envelope (hfront : ∀ c ∈ front, isBlank c = true)
    (hback : ∀ c ∈ back, isBlank c = true) (text : List Char) :
    trim (front ++ text ++ back) = trim text := by
  unfold trim
  rw [List.append_assoc, List.dropWhile_append_of_pos hfront, List.dropWhile_append]
  split
  · next hblank =>
    -- nothing is left of the text, and then nothing is left of the blanks behind it
    rw [List.dropWhile_eq_nil_iff.mpr hback, List.isEmpty_iff.mp hblank]
  · exact trimEnd_append hback _

end Trim

/-! ## Binary data -/

/-- The blanks that do not print are two control characters. -/
lemma isNonPrintable_iff_of_isBlank {c : Char} (h : isBlank c = true) :
    isNonPrintable c = true ↔ c = '\x0B' ∨ c = '\x85' := by
  have heq : ∀ d : Char, c = d ↔ c.toNat = d.toNat := by
    intro d
    exact ⟨congrArg Char.toNat, fun hnat => Char.ext (UInt32.toNat_inj.mp hnat)⟩
  unfold isBlank at h
  unfold isNonPrintable isControl
  simp only [bne, Bool.or_eq_true, Bool.and_eq_true, Bool.not_eq_true', beq_eq_false_iff_ne, ne_eq,
    beq_iff_eq, decide_eq_true_eq, heq, Char.reduceToNat]
  split at h
  · simp only [Bool.or_eq_true, Bool.and_eq_true, beq_iff_eq, decide_eq_true_eq, heq,
      Char.reduceToNat] at h
    omega
  · simp only [Bool.or_eq_true, Bool.and_eq_true, beq_iff_eq, decide_eq_true_eq] at h
    omega

namespace Scalar

/-- Scalars in which the ratio of two counts does not grow with the divisor: a threshold that it
exceeds is exceeded with a smaller divisor too.  Exact division is like this, and so is division
that rounds monotonically. -/
class RatioAntitone (α : Type) [Scalar α] : Prop where
  lt_ratio : ∀ {threshold : α} {part small large : Nat}, 0 < small → small ≤ large →
    threshold < (ofNat part / ofNat large : α) → threshold < (ofNat part / ofNat small : α)

instance : RatioAntitone Rat where
  lt_ratio := by
    intro threshold part small large hpos hle hlt
    have hpos' : (0 : Rat) < small := by exact_mod_cast hpos
    have hle' : (small : Rat) ≤ large := by exact_mod_cast hle
    exact hlt.trans_le (div_le_div_of_nonneg_left (Nat.cast_nonneg part) hpos' hle')

end Scalar

section Classifications

variable {α : Type} [Scalar α] {text front back : List Char}

/-- More characters that print do not make a text look binary. -/
lemma looksBinary_envelope [Scalar.RatioAntitone α] {threshold : α}
    (hprints : ∀ c ∈ front ++ back, isNonPrintable c = false) (htext : text ≠ [])
    (h : looksBinary text threshold = false) :
    looksBinary (front ++ text ++ back) threshold = false := by
  have hzero : ∀ blanks : List Char, (∀ c ∈ blanks, isNonPrintable c = false) →
      blanks.countP isNonPrintable = 0 := by
    intro blanks hblanks
    rw [List.countP_eq_zero]
    intro c hc
    simp [hblanks c hc]
  have hcount : (front ++ text ++ back).countP isNonPrintable = text.countP isNonPrintable := by
    rw [List.countP_append, List.countP_append,
      hzero front fun c hc => hprints c (List.mem_append_left _ hc),
      hzero back fun c hc => hprints c (List.mem_append_right _ hc)]
    omega
  have hlength : text.length ≤ (front ++ text ++ back).length := by
    simp only [List.length_append]
    omega
  by_contra hbinary
  rw [Bool.not_eq_false] at hbinary
  unfold looksBinary at h hbinary
  rw [Bool.and_eq_true, decide_eq_true_eq, hcount] at hbinary
  have hexceeds := Scalar.RatioAntitone.lt_ratio (List.length_pos_iff.mpr htext) hlength hbinary.2
  simp [htext, hexceeds] at h

/-! ## Classifications -/

/-- A text is binary if it looks so and is not blank. -/
lemma inconclusive_eq_binaryInput_iff (catalog : Catalog) (thresholds : Thresholds α)
    (text : List Char) (hint : Option String) :
    (classify catalog thresholds text hint).inconclusive = some .binaryInput ↔
      trim text ≠ [] ∧ looksBinary text thresholds.binaryRatioThreshold = true := by
  constructor
  · intro hreason
    rcases classify_cases catalog thresholds text hint with
      ⟨-, heq⟩ | ⟨hbinary, -⟩ | ⟨hscored, -⟩
    · rw [heq] at hreason
      cases hreason
    · exact hbinary
    · exact absurd hscored (not_isScored_of_inconclusive (by decide) hreason)
  · rintro ⟨hblank, hbinary⟩
    unfold classify
    rw [if_neg (by simpa using hblank), if_pos hbinary]
    rfl

/-- Texts that are trimmed to the same text are classified alike if both are binary or neither
is. -/
theorem classify_eq_of_trim_eq {catalog : Catalog} {thresholds : Thresholds α}
    {text text' : List Char} {hint : Option String} (htrim : trim text' = trim text)
    (hbinary : (classify catalog thresholds text' hint).inconclusive = some .binaryInput ↔
      (classify catalog thresholds text hint).inconclusive = some .binaryInput) :
    classify catalog thresholds text' hint = classify catalog thresholds text hint := by
  rw [inconclusive_eq_binaryInput_iff, inconclusive_eq_binaryInput_iff, htrim] at hbinary
  unfold classify features
  rw [htrim]
  by_cases hblank : trim text = []
  · rw [if_pos (by simp [hblank]), if_pos (by simp [hblank])]
  · have hlooks : looksBinary text' thresholds.binaryRatioThreshold =
        looksBinary text thresholds.binaryRatioThreshold := by
      rw [and_iff_right hblank, and_iff_right hblank] at hbinary
      exact Bool.eq_iff_iff.mpr hbinary
    rw [hlooks]

section Envelope

variable {catalog : Catalog} {thresholds : Thresholds α} {hint : Option String}
  (hfront : ∀ c ∈ front, isBlank c = true) (hback : ∀ c ∈ back, isBlank c = true)

include hfront hback

/-- Blanks around a text make a difference only if one of the two texts is binary, and not both. -/
lemma ne_binaryInput_iff_of_envelope_ne
    (hne : classify catalog thresholds (front ++ text ++ back) hint ≠
      classify catalog thresholds text hint) :
    (classify catalog thresholds (front ++ text ++ back) hint).inconclusive ≠
        some .binaryInput ↔
      (classify catalog thresholds text hint).inconclusive = some .binaryInput := by
  refine not_iff.mp ?_
  intro hbinary
  exact hne (classify_eq_of_trim_eq (trim_envelope hfront hback text) hbinary)

/-- Blanks that print do not make a text binary. -/
lemma inconclusive_envelope_ne [Scalar.RatioAntitone α]
    (hprints : ∀ c ∈ front ++ back, isNonPrintable c = false)
    (h : (classify catalog thresholds text hint).inconclusive ≠ some .binaryInput) :
    (classify catalog thresholds (front ++ text ++ back) hint).inconclusive ≠
      some .binaryInput := by
  rw [Ne, inconclusive_eq_binaryInput_iff, not_and, Bool.not_eq_true] at h ⊢
  rw [trim_envelope hfront hback]
  intro hsome
  have htext : text ≠ [] := by
    rintro rfl
    exact hsome rfl
  exact looksBinary_envelope hprints htext (h hsome)

/-- Where blanks that print make a difference, they have a binary text scored. -/
lemma isScored_envelope_of_ne [Scalar.RatioAntitone α]
    (hprints : ∀ c ∈ front ++ back, isNonPrintable c = false)
    (hne : classify catalog thresholds (front ++ text ++ back) hint ≠
      classify catalog thresholds text hint) :
    (classify catalog thresholds text hint).inconclusive = some .binaryInput ∧
      IsScored thresholds (front ++ text ++ back) := by
  have hiff := ne_binaryInput_iff_of_envelope_ne hfront hback hne
  have hplain : (classify catalog thresholds text hint).inconclusive = some .binaryInput := by
    by_contra h
    exact h (hiff.mp (inconclusive_envelope_ne hfront hback hprints h))
  have henveloped := hiff.mpr hplain
  have hsome := ((inconclusive_eq_binaryInput_iff _ _ _ _).mp hplain).1
  rw [Ne, inconclusive_eq_binaryInput_iff, trim_envelope hfront hback, not_and,
    Bool.not_eq_true] at henveloped
  refine ⟨hplain, ?_, henveloped hsome⟩
  rwa [trim_envelope hfront hback]

end Envelope

/-! ## The law of envelopes -/

/-- What blanks around a text can do to its classification. -/
structure EnvelopeLaw (thresholds : Thresholds α) (text front back : List Char)
    (plain enveloped : Classification α) : Prop where
  /-- Unless one of the two texts is binary, the classifications are equal. -/
  eq_of_ne_binaryInput : plain.inconclusive ≠ some .binaryInput →
    enveloped.inconclusive ≠ some .binaryInput → enveloped = plain
  /-- Only the answer that a text is binary can change. -/
  binaryInput_of_ne : enveloped ≠ plain →
    (enveloped.inconclusive ≠ some .binaryInput ↔ plain.inconclusive = some .binaryInput)
  /-- All blanks print but for the vertical tabulator and the next-line character. -/
  isNonPrintable_iff : ∀ c ∈ front ++ back,
    (isNonPrintable c = true ↔ c = '\x0B' ∨ c = '\x85')
  /-- Blanks that print change nothing about a text that is not binary. -/
  eq_of_prints : ∀ [Scalar.RatioAntitone α], (∀ c ∈ front ++ back, isNonPrintable c = false) →
    plain.inconclusive ≠ some .binaryInput →
      enveloped.inconclusive ≠ some .binaryInput ∧ enveloped = plain
  /-- All that they can do is to have a binary text scored. -/
  isScored_of_prints : ∀ [Scalar.RatioAntitone α],
    (∀ c ∈ front ++ back, isNonPrintable c = false) → enveloped ≠ plain →
      plain.inconclusive = some .binaryInput ∧ IsScored thresholds (front ++ text ++ back)

/-- Blanks around a text have no influence on anything but whether it is binary. -/
theorem envelopeLaw_classify (thresholds : Thresholds α) (text front back : List Char)
    (hint : Option String) (hfront : ∀ c ∈ front, isBlank c = true)
    (hback : ∀ c ∈ back, isBlank c = true) :
    EnvelopeLaw thresholds text front back (classify .builtin thresholds text hint)
      (classify .builtin thresholds (front ++ text ++ back) hint) := by
  have heq : (classify .builtin thresholds text hint).inconclusive ≠ some .binaryInput →
      (classify .builtin thresholds (front ++ text ++ back) hint).inconclusive ≠
        some .binaryInput →
      classify .builtin thresholds (front ++ text ++ back) hint =
        classify .builtin thresholds text hint := by
    intro h h'
    exact classify_eq_of_trim_eq (trim_envelope hfront hback text) (iff_of_false h' h)
  refine ⟨heq, ne_binaryInput_iff_of_envelope_ne hfront hback, ?_, ?_, ?_⟩
  · intro c hc
    refine isNonPrintable_iff_of_isBlank ?_
    rcases List.mem_append.mp hc with hc | hc
    · exact hfront c hc
    · exact hback c hc
  · intro _ hprints h
    have h' := inconclusive_envelope_ne hfront hback hprints h
    exact ⟨h', heq h h'⟩
  · intro _ hprints hne
    exact isScored_envelope_of_ne hfront hback hprints hne

end Classifications

/-- Indentation and a line feed around a program. -/
theorem envelopeLaw_indented :
    (∀ c ∈ "\n\t".toList, isBlank c = true) ∧ (∀ c ∈ " \n".toList, isBlank c = true) ∧
      EnvelopeLaw (Thresholds.default : Thresholds Rat) "fn main() {}".toList "\n\t".toList
        " \n".toList (classify .builtin Thresholds.default "fn main() {}".toList none)
        (classify .builtin Thresholds.default
          ("\n\t".toList ++ "fn main() {}".toList ++ " \n".toList) none) := by
  have hfront : ∀ c ∈ "\n\t".toList, isBlank c = true := List.all_eq_true.mp (by decide +kernel)
  have hback : ∀ c ∈ " \n".toList, isBlank c = true := List.all_eq_true.mp (by decide +kernel)
  exact ⟨hfront, hback, envelopeLaw_classify _ _ _ _ none hfront hback⟩

end LanguageDetection
