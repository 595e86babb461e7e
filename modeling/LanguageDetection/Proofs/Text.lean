import Mathlib.Data.List.Basic
import Mathlib.Data.List.TakeWhile
import Mathlib.Tactic.Common
import LanguageDetection.Proofs.Characters
import LanguageDetection.Proofs.ExactScalar
import LanguageDetection.Text

/-!
# Texts

What is said of texts apart from patterns: the parts that they are cut into, their tokens, the share
of their characters that do not print, and what becomes of all this when every line feed has a
carriage return in front.
-/

namespace LanguageDetection

/-!
## Parts

A text is cut at a separator into parts, such as lines or the names of a path.  No part contains the
separator, and what keeps the separators and puts in none can be done part by part
(`splitOn_eq_map_splitOn`).
-/

section Parts

variable {α : Type} {separator : α}

/-- What keeps the separators is done to each part. -/
lemma apply_intercalate {f : List α → List α}
    (happend : ∀ front back, f (front ++ separator :: back) = f front ++ separator :: f back)
    (first : List α) (rest : List (List α)) :
    f ([separator].intercalate (first :: rest)) =
      [separator].intercalate (f first :: rest.map f) := by
  induction rest generalizing first with
  | nil => simp
  | cons second rest ih =>
    rw [List.map_cons, List.intercalate_cons_cons, List.intercalate_cons_cons, ← ih,
      List.append_assoc, List.append_assoc]
    exact happend first _

variable [BEq α] [LawfulBEq α]

/-- No part contains the separator. -/
lemma notMem_of_mem_splitOn {text part : List α} (h : part ∈ text.splitOn separator) :
    separator ∉ part := by
  induction text generalizing part with
  | nil =>
    rw [List.splitOn_nil, List.mem_singleton] at h
    subst h
    exact List.not_mem_nil
  | cons c text ih =>
    obtain ⟨first, rest, hsplit⟩ :=
      List.exists_cons_of_ne_nil (List.splitOn_ne_nil separator text)
    rw [List.splitOn_cons_eq_if_modifyHead] at h
    split_ifs at h with hseparator
    · rcases List.mem_cons.mp h with rfl | hmem
      · exact List.not_mem_nil
      · exact ih hmem
    · rw [hsplit, List.modifyHead_cons] at h
      rcases List.mem_cons.mp h with rfl | hmem
      · intro hmem
        rcases List.mem_cons.mp hmem with rfl | hmem
        · exact hseparator (beq_self_eq_true _)
        · refine ih ?_ hmem
          rw [hsplit]
          exact List.mem_cons_self
      · refine ih ?_
        rw [hsplit]
        exact List.mem_cons_of_mem _ hmem

/-- What keeps the separators and puts in none can be done part by part. -/
theorem splitOn_eq_map_splitOn {f : List α → List α}
    (happend : ∀ front back, f (front ++ separator :: back) = f front ++ separator :: f back)
    (hnone : ∀ part, separator ∉ part → separator ∉ f part)
    (text : List α) : (f text).splitOn separator = (text.splitOn separator).map f := by
  obtain ⟨first, rest, hsplit⟩ :=
    List.exists_cons_of_ne_nil (List.splitOn_ne_nil separator text)
  have htext : text = [separator].intercalate (first :: rest) := by
    rw [← hsplit]
    exact (List.intercalate_splitOn separator).symm
  have hparts : ∀ part ∈ (text.splitOn separator).map f, separator ∉ part := by
    intro part hpart
    obtain ⟨part', hpart', rfl⟩ := List.mem_map.mp hpart
    exact hnone part' (notMem_of_mem_splitOn hpart')
  have happly : f text = [separator].intercalate ((text.splitOn separator).map f) := by
    rw [hsplit, List.map_cons, ← apply_intercalate happend, ← htext]
  rw [happly, List.splitOn_intercalate separator hparts]
  rw [hsplit, List.map_cons]
  exact List.cons_ne_nil _ _

end Parts

/-!
## Blanks and tokens

A trimmed text is empty or begins with a character that is not blank, and a text has no token
exactly if all its characters are blank.
-/

open Characters

/-- A blank in front is no part of a token. -/
lemma tokens_cons_of_isBlank {c : Char} (h : isBlank c = true) (rest : List Char) :
    tokens (c :: rest) = tokens rest := by
  unfold tokens
  rw [Token.split]
  simp [Token.Reading.extend, h]

/-- Any other character begins a token. -/
lemma tokens_cons_of_not_isBlank {c : Char} (h : isBlank c = false) (rest : List Char) :
    ∃ token others, tokens (c :: rest) = (c :: token) :: others := by
  unfold tokens
  rw [Token.split]
  simp [Token.Reading.extend, h]

/-- A text has no token exactly if it is blank. -/
theorem tokens_eq_nil_iff {text : List Char} : tokens text = [] ↔ ∀ c ∈ text, isBlank c = true := by
  induction text with
  | nil => simp [tokens, Token.split]
  | cons c rest ih =>
    cases hblank : isBlank c with
    | true =>
      rw [tokens_cons_of_isBlank hblank, ih, List.forall_mem_cons, hblank, eq_self, true_and]
    | false =>
      obtain ⟨token, others, htokens⟩ := tokens_cons_of_not_isBlank hblank rest
      simp [htokens, hblank]

/-- A trimmed text that is not empty has a token. -/
theorem one_le_tokenCount_trim {text : List Char} (h : trim text ≠ []) :
    1 ≤ tokenCount (trim text) := by
  obtain ⟨c, rest, htrim, hblank⟩ := exists_trim_eq_cons h
  have hsome : tokens (trim text) ≠ [] := by
    rw [Ne, tokens_eq_nil_iff, htrim]
    intro hall
    have := hall c (by simp)
    rw [hblank] at this
    exact Bool.false_ne_true this
  exact List.length_pos_iff.mpr hsome

/-!
## The share of characters that do not print

A text looks binary if more of its characters do not print than the threshold allows for its length.
What is too many is added up over the characters (`excess_append`), and the text looks binary
exactly if it is positive (`looksBinary_iff`), which leaves no room for an exception in favour of
the empty text.  So the answer on a text lies between the answers on the parts that it is cut into,
and neither the cut nor the order of the characters matters.
-/

/-- How many characters that do not print there are beyond what the threshold allows. -/
def excess (text : List Char) (threshold : Rat) : Rat :=
  text.countP isNonPrintable - threshold * text.length

/-- The excess of two texts is the sum of both. -/
lemma excess_append (a b : List Char) (threshold : Rat) :
    excess (a ++ b) threshold = excess a threshold + excess b threshold := by
  unfold excess
  rw [List.countP_append, List.length_append]
  push_cast
  ring

/-- A lower threshold allows less. -/
lemma excess_le_of_le (text : List Char) {lower upper : Rat} (hle : lower ≤ upper) :
    excess text upper ≤ excess text lower := by
  have hproduct := mul_le_mul_of_nonneg_right hle (Nat.cast_nonneg text.length)
  unfold excess
  linarith

/-- A text looks binary if it has an excess of characters that do not print. -/
theorem looksBinary_iff {text : List Char} {threshold : Rat} :
    looksBinary text threshold = true ↔ 0 < excess text threshold := by
  unfold looksBinary excess
  rw [Bool.and_eq_true, decide_eq_true_eq, Scalar.rat_ofNat, Scalar.rat_ofNat]
  cases text with
  | nil => simp
  | cons c rest =>
    have hpos : (0 : Rat) < (c :: rest).length := by exact_mod_cast Nat.succ_pos _
    rw [lt_div_iff₀ hpos, sub_pos]
    exact and_iff_right rfl

/-- A text without an excess does not look binary. -/
lemma looksBinary_eq_false_iff {text : List Char} {threshold : Rat} :
    looksBinary text threshold = false ↔ excess text threshold ≤ 0 := by
  rw [← Bool.not_eq_true, looksBinary_iff, not_lt]

/-- Two texts that look binary make one that does. -/
lemma looksBinary_append {a b : List Char} {threshold : Rat}
    (ha : looksBinary a threshold = true) (hb : looksBinary b threshold = true) :
    looksBinary (a ++ b) threshold = true := by
  rw [looksBinary_iff] at ha hb ⊢
  rw [excess_append]
  exact add_pos ha hb

/-- Two texts that do not look binary make one that does not. -/
lemma looksBinary_append_eq_false {a b : List Char} {threshold : Rat}
    (ha : looksBinary a threshold = false) (hb : looksBinary b threshold = false) :
    looksBinary (a ++ b) threshold = false := by
  rw [looksBinary_eq_false_iff] at ha hb ⊢
  rw [excess_append]
  exact add_nonpos ha hb

/-- Parts that look binary make a text that does, if there are any. -/
lemma looksBinary_flatten {parts : List (List Char)} {threshold : Rat} (hne : parts ≠ [])
    (h : ∀ part ∈ parts, looksBinary part threshold = true) :
    looksBinary parts.flatten threshold = true := by
  induction parts with
  | nil => exact absurd rfl hne
  | cons part parts ih =>
    rw [List.forall_mem_cons] at h
    rw [List.flatten_cons]
    cases parts with
    | nil =>
      rw [List.flatten_nil, List.append_nil]
      exact h.1
    | cons next parts => exact looksBinary_append h.1 (ih (List.cons_ne_nil _ _) h.2)

/-- Parts that do not look binary make a text that does not. -/
lemma looksBinary_flatten_eq_false {parts : List (List Char)} {threshold : Rat}
    (h : ∀ part ∈ parts, looksBinary part threshold = false) :
    looksBinary parts.flatten threshold = false := by
  induction parts with
  | nil => rfl
  | cons part parts ih =>
    rw [List.forall_mem_cons] at h
    rw [List.flatten_cons]
    exact looksBinary_append_eq_false h.1 (ih h.2)

/-- The order of the characters does not matter, whatever numbers shares are made of. -/
lemma looksBinary_eq_of_perm {α : Type} [Scalar α] {a b : List Char} (h : a.Perm b)
    (threshold : α) : looksBinary a threshold = looksBinary b threshold := by
  unfold looksBinary
  rw [h.countP_eq, h.length_eq, h.isEmpty_eq]

/-- How the test for binary data bears on the parts of a text. -/
structure BinaryLaw (threshold : Rat) : Prop where
  append_eq_true : ∀ a b : List Char, looksBinary a threshold = true →
    looksBinary b threshold = true → looksBinary (a ++ b) threshold = true
  append_eq_false : ∀ a b : List Char, looksBinary a threshold = false →
    looksBinary b threshold = false → looksBinary (a ++ b) threshold = false
  /-- The same holds of any number of parts. -/
  flatten_eq_true : ∀ parts : List (List Char), parts ≠ [] →
    (∀ part ∈ parts, looksBinary part threshold = true) →
      looksBinary parts.flatten threshold = true
  flatten_eq_false : ∀ parts : List (List Char),
    (∀ part ∈ parts, looksBinary part threshold = false) →
      looksBinary parts.flatten threshold = false
  /-- The order of the characters does not matter. -/
  eq_of_perm : ∀ a b : List Char, a.Perm b → looksBinary a threshold = looksBinary b threshold
  /-- What looks binary does so with every lower threshold. -/
  of_le : ∀ (text : List Char) (lower : Rat), lower ≤ threshold →
    looksBinary text threshold = true → looksBinary text lower = true

/-- The law holds with every threshold. -/
theorem binaryLaw_looksBinary (threshold : Rat) : BinaryLaw threshold where
  append_eq_true _ _ := looksBinary_append
  append_eq_false _ _ := looksBinary_append_eq_false
  flatten_eq_true _ := looksBinary_flatten
  flatten_eq_false _ := looksBinary_flatten_eq_false
  eq_of_perm _ _ h := looksBinary_eq_of_perm h threshold
  of_le text lower hle h := by
    rw [looksBinary_iff] at h ⊢
    exact h.trans_le (excess_le_of_le text hle)

/-!
## Line endings

`crlf` puts a carriage return in front of every line feed.  A carriage return is a blank, so the
text has the same tokens and is trimmed to the same text up to line endings, and it prints, so the
text does not look binary for it.
-/

/-- A character as it stands in a text whose lines end with a carriage return and a line feed. -/
def crlfChar (c : Char) : List Char :=
  if c = '\n' then ['\r', '\n'] else [c]

/-- The text with a carriage return in front of every line feed. -/
def crlf (text : List Char) : List Char :=
  text.flatMap crlfChar

@[simp] lemma crlf_nil : crlf [] = [] := rfl

@[simp] lemma crlf_cons_newline (rest : List Char) :
    crlf ('\n' :: rest) = '\r' :: '\n' :: crlf rest := rfl

lemma crlfChar_of_ne {c : Char} (h : c ≠ '\n') : crlfChar c = [c] := if_neg h

/-- Another character than a line feed stays as it is. -/
lemma crlf_cons_of_ne {c : Char} (h : c ≠ '\n') (rest : List Char) :
    crlf (c :: rest) = c :: crlf rest := by
  unfold crlf
  rw [List.flatMap_cons, crlfChar_of_ne h]
  rfl

/-- Only the empty text becomes empty. -/
lemma crlf_eq_nil_iff {text : List Char} : crlf text = [] ↔ text = [] := by
  cases text with
  | nil => simp
  | cons c rest =>
    by_cases hnewline : c = '\n'
    · simp [hnewline]
    · simp [crlf_cons_of_ne hnewline]

/-! ### Blanks at the ends -/

/-- Dropping what satisfies a test does not interfere with replacing what satisfies it. -/
lemma dropWhile_flatMap {test : Char → Bool} {f : Char → List Char}
    (hdrop : ∀ c, test c = true → ∀ d ∈ f c, test d = true)
    (hkeep : ∀ c, test c = false → f c = [c]) (text : List Char) :
    (text.flatMap f).dropWhile test = (text.dropWhile test).flatMap f := by
  induction text with
  | nil => rfl
  | cons c rest ih =>
    rw [List.flatMap_cons]
    cases hc : test c with
    | true =>
      rw [List.dropWhile_append, List.dropWhile_eq_nil_iff.mpr (hdrop c hc), List.isEmpty_nil,
        if_pos rfl, ih, List.dropWhile_cons_of_pos hc]
    | false =>
      have hc' : ¬ test c = true := by
        rw [hc]
        exact Bool.false_ne_true
      rw [hkeep c hc, List.singleton_append, List.dropWhile_cons_of_neg hc',
        List.dropWhile_cons_of_neg hc', List.flatMap_cons, hkeep c hc, List.singleton_append]

/-- What comes of a blank is blank. -/
lemma isBlank_of_mem_crlfChar {c : Char} (h : isBlank c = true) :
    ∀ d ∈ crlfChar c, isBlank d = true := by
  intro d hd
  unfold crlfChar at hd
  split at hd
  · rcases List.mem_pair.mp hd with rfl | rfl <;> decide
  · rwa [List.mem_singleton.mp hd]

/-- A character that is not blank stays as it is. -/
lemma crlfChar_of_not_isBlank {c : Char} (h : isBlank c = false) : crlfChar c = [c] := by
  refine crlfChar_of_ne ?_
  rintro rfl
  exact absurd h (by decide)

/-- Trimming and changing the line endings can be done in either order. -/
theorem trim_crlf (text : List Char) : trim (crlf text) = crlf (trim text) := by
  have hfront : (crlf text).dropWhile isBlank = crlf (text.dropWhile isBlank) :=
    dropWhile_flatMap (fun c hc => isBlank_of_mem_crlfChar hc)
      (fun c hc => crlfChar_of_not_isBlank hc) text
  have hback : ∀ rest : List Char, trimEnd (crlf rest) = crlf (trimEnd rest) := by
    intro rest
    have hreverse : ((crlf rest).reverse).dropWhile isBlank =
        (rest.reverse.dropWhile isBlank).flatMap (List.reverse ∘ crlfChar) := by
      unfold crlf
      rw [List.reverse_flatMap]
      refine dropWhile_flatMap ?_ ?_ rest.reverse
      · intro c hc d hd
        exact isBlank_of_mem_crlfChar hc d (List.mem_reverse.mp hd)
      · intro c hc
        rw [Function.comp_apply, crlfChar_of_not_isBlank hc]
        rfl
    unfold trimEnd
    rw [hreverse, List.reverse_flatMap]
    unfold crlf
    congr 1
    funext c
    exact List.reverse_reverse _
  unfold trim
  rw [hfront, hback]

/-- A text without a carriage return has none when it is trimmed. -/
lemma notMem_trim {c : Char} {text : List Char} (h : c ∉ text) : c ∉ trim text := by
  intro hmem
  have hstart := trimEnd_prefix (text.dropWhile isBlank)
  exact h ((List.dropWhile_suffix isBlank).subset (hstart.subset hmem))

/-! ### Tokens -/

/-- A reading looks ahead for a digit only, which a line ending is not. -/
lemma extend_crlf (reading : Token.Reading) (c : Char) (rest : List Char) :
    reading.extend c (crlf rest).head? = reading.extend c rest.head? := by
  have hdigit : (crlf rest).head?.any isDigit = rest.head?.any isDigit := by
    cases rest with
    | nil => rfl
    | cons d rest =>
      by_cases hnewline : d = '\n'
      · have hdigits : isDigit '\r' = isDigit '\n' := by decide
        rw [hnewline, crlf_cons_newline]
        exact hdigits
      · rw [crlf_cons_of_ne hnewline]
        rfl
  unfold Token.Reading.extend
  rw [hdigit]

/-- The line ending has no part in what is read. -/
lemma split_crlf (reading : Token.Reading) (text : List Char) :
    Token.split reading (crlf text) = Token.split reading text := by
  induction text generalizing reading with
  | nil => rfl
  | cons c rest ih =>
    by_cases hnewline : c = '\n'
    · have hreturn : ∀ after, reading.extend '\r' after = none := by
        intro after
        cases reading <;> rfl
      have hfeed : ∀ (reading : Token.Reading) (after : Option Char),
          reading.extend '\n' after = none := by
        intro reading after
        cases reading <;> rfl
      have hblank : isBlank '\r' = true ∧ isBlank '\n' = true := by decide
      rw [hnewline, crlf_cons_newline, Token.split, hreturn]
      dsimp only
      rw [if_pos hblank.1, Token.split, hfeed]
      dsimp only
      rw [if_pos hblank.2, ih, Token.split, hfeed]
      dsimp only
      rw [if_pos hblank.2]
    · rw [crlf_cons_of_ne hnewline, Token.split, extend_crlf, Token.split]
      simp only [ih]

/-- The line endings have no influence on the tokens. -/
theorem tokens_crlf (text : List Char) : tokens (crlf text) = tokens text := by
  unfold tokens
  rw [split_crlf]

lemma tokenCount_crlf (text : List Char) : tokenCount (crlf text) = tokenCount text := by
  unfold tokenCount
  rw [tokens_crlf]

/-! ### Binary data -/

/-- A line ending prints. -/
lemma countP_isNonPrintable_crlf (text : List Char) :
    (crlf text).countP isNonPrintable = text.countP isNonPrintable := by
  induction text with
  | nil => rfl
  | cons c rest ih =>
    by_cases hnewline : c = '\n'
    · have hprints : ¬ isNonPrintable '\r' = true ∧ ¬ isNonPrintable '\n' = true := by decide
      rw [hnewline, crlf_cons_newline, List.countP_cons_of_neg hprints.1,
        List.countP_cons_of_neg hprints.2, List.countP_cons_of_neg hprints.2, ih]
    · rw [crlf_cons_of_ne hnewline, List.countP_cons, List.countP_cons, ih]

/-- A carriage return is added, and nothing is taken away. -/
lemma length_le_length_crlf (text : List Char) : text.length ≤ (crlf text).length := by
  induction text with
  | nil => exact Nat.le_refl 0
  | cons c rest ih =>
    by_cases hnewline : c = '\n'
    · rw [hnewline, crlf_cons_newline]
      exact Nat.le_succ_of_le (Nat.succ_le_succ ih)
    · rw [crlf_cons_of_ne hnewline]
      exact Nat.succ_le_succ ih

/-- Longer line endings do not make a text look binary. -/
theorem looksBinary_crlf {text : List Char} {threshold : Rat}
    (h : looksBinary text threshold = false) : looksBinary (crlf text) threshold = false := by
  cases text with
  | nil => exact h
  | cons c rest =>
    unfold looksBinary at h ⊢
    rw [Bool.and_eq_false_iff, or_iff_right (by simp), decide_eq_false_iff_not, not_lt] at h
    rw [Bool.and_eq_false_iff]
    refine Or.inr (decide_eq_false (not_lt.mpr (le_trans ?_ h)))
    have hlength : (((c :: rest).length : Nat) : Rat) ≤ ((crlf (c :: rest)).length : Nat) := by
      exact_mod_cast length_le_length_crlf (c :: rest)
    have hpos : (0 : Rat) < ((c :: rest).length : Nat) := by
      exact_mod_cast Nat.succ_pos _
    rw [countP_isNonPrintable_crlf, Scalar.rat_ofNat, Scalar.rat_ofNat, Scalar.rat_ofNat]
    exact div_le_div_of_nonneg_left (Nat.cast_nonneg _) hpos hlength

end LanguageDetection
