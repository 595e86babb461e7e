import Mathlib.Algebra.Ring.Nat
import Mathlib.Data.List.Basic
import Mathlib.Tactic.Common
import LanguageDetection.Pattern

/-!
# Characters

The classes of characters that are given as ranges of code points have exactly the characters in
these ranges (`isWord_iff`, `isDigit_iff`): a search tree that is made of ascending ranges answers
for each code point whether one of them has it (`RangeTree.contains_ofList`).

A blank is neither a word character nor a digit, and a test that has every letter in both cases or
in none does not tell a character from its lower case (`eq_toLower_of_ignoresLetterCase`).
-/

namespace LanguageDetection

namespace Characters

/-! ## Ranges of code points -/

/-- A code point is in one of the ranges of a list. -/
def InRanges (ranges : List (Nat × Nat)) (n : Nat) : Prop :=
  ∃ range ∈ ranges, range.1 ≤ n ∧ n ≤ range.2

/-- The ranges of a list are not empty, and each ends in front of those behind it. -/
structure Ascending (ranges : List (Nat × Nat)) : Prop where
  first_le_last : ∀ range ∈ ranges, range.1 ≤ range.2
  pairwise : ranges.Pairwise fun a b => a.2 < b.1

/-- It is enough that each range ends in front of the next one. -/
lemma Ascending.of_isChain {ranges : List (Nat × Nat)}
    (hrange : ∀ range ∈ ranges, range.1 ≤ range.2)
    (hchain : ranges.IsChain fun a b => a.2 < b.1) : Ascending ranges := by
  refine ⟨hrange, ?_⟩
  induction ranges with
  | nil => exact .nil
  | cons a rest ih =>
    have hrest := ih (fun range h => hrange range (List.mem_cons_of_mem a h))
      (List.isChain_of_isChain_cons hchain)
    refine List.pairwise_cons.mpr ⟨?_, hrest⟩
    intro c hc
    cases rest with
    | nil => cases hc
    | cons b rest =>
      have hnext : a.2 < b.1 := (List.isChain_cons_cons.mp hchain).1
      rcases List.mem_cons.mp hc with rfl | hc
      · exact hnext
      · have hb := hrange b (by simp)
        have hbehind := List.rel_of_pairwise_cons hrest hc
        omega

namespace RangeTree

/-- Building a tree loses no range and keeps their order. -/
theorem toList_take (depth : Nat) (ranges : List (Nat × Nat)) :
    (take depth ranges).1.toList ++ (take depth ranges).2 = ranges := by
  induction depth generalizing ranges with
  | zero => rfl
  | succ depth ih =>
    have below := ih ranges
    rw [take]
    split
    · next heq => simp_all
    · next heq =>
      rw [heq] at below
      simp only [toList, List.append_assoc, List.cons_append]
      rw [ih]
      exact below

/-- What a tree of some depth leaves of the ranges is what goes beyond its size. -/
lemma snd_take (depth : Nat) (ranges : List (Nat × Nat)) :
    (take depth ranges).2 = ranges.drop (2 ^ depth - 1) := by
  induction depth generalizing ranges with
  | zero => rfl
  | succ depth ih =>
    have hpos : 0 < 2 ^ depth := Nat.two_pow_pos depth
    have hsize : 2 ^ (depth + 1) - 1 = 2 ^ depth - 1 + (1 + (2 ^ depth - 1)) := by omega
    have hbelow := ih ranges
    rw [hsize, ← List.drop_drop, ← List.drop_drop, ← hbelow, take]
    split
    · next heq => simp [heq]
    · next heq => simp [heq, ih]

/-- A tree has all the ranges that it is made of. -/
theorem toList_ofList {ranges : List (Nat × Nat)} (h : ranges.length < 1024) :
    (ofList ranges).toList = ranges := by
  have hrest : (take 10 ranges).2 = [] := by
    rw [snd_take, List.drop_eq_nil_iff]
    omega
  have hall := toList_take 10 ranges
  rwa [hrest, List.append_nil] at hall

/-- A search that goes below or above a range misses nothing. -/
theorem contains_iff {tree : RangeTree} (h : Ascending tree.toList) (n : Nat) :
    tree.contains n = true ↔ InRanges tree.toList n := by
  induction tree with
  | leaf => simp [contains, InRanges, toList]
  | node below first last above ihb iha =>
    obtain ⟨hrange, hpairwise⟩ := h
    obtain ⟨hbelow, habove, hbetween⟩ := List.pairwise_append.mp hpairwise
    obtain ⟨hlast, habove⟩ := List.pairwise_cons.mp habove
    have hfirst := hrange (first, last) (by simp [toList])
    have ihb := ihb ⟨fun range hr => hrange range (by simp [toList, hr]), hbelow⟩
    have iha := iha ⟨fun range hr => hrange range (by simp [toList, hr]), habove⟩
    simp only [contains, InRanges, toList, List.mem_append, List.mem_cons] at ihb iha hfirst ⊢
    split_ifs with hlow hhigh
    · -- the ranges from this one on begin behind the code point
      rw [ihb]
      constructor
      · rintro ⟨range, hr, hin⟩
        exact ⟨range, .inl hr, hin⟩
      · rintro ⟨range, hr | rfl | hr, hin⟩
        · exact ⟨range, hr, hin⟩
        · omega
        · have hbehind := hlast range hr
          omega
    · exact iff_of_true rfl ⟨(first, last), .inr (.inl rfl), by omega, hhigh⟩
    · -- the ranges up to this one end in front of the code point
      rw [iha]
      constructor
      · rintro ⟨range, hr, hin⟩
        exact ⟨range, .inr (.inr hr), hin⟩
      · rintro ⟨range, hr | rfl | hr, hin⟩
        · have hfront := hbetween range hr (first, last) (by simp)
          omega
        · omega
        · exact ⟨range, hr, hin⟩

/-- A tree contains the code points in the ranges that it is made of. -/
theorem contains_ofList {ranges : List (Nat × Nat)} (h : Ascending ranges)
    (hlength : ranges.length < 1024) (n : Nat) :
    (ofList ranges).contains n = true ↔ InRanges ranges n := by
  have hlist := toList_ofList hlength
  rw [contains_iff (by rwa [hlist]), hlist]

end RangeTree

/-! ## Word characters and digits -/

/-- The ranges of the word characters beyond ASCII. -/
def wordRanges : List (Nat × Nat) :=
  alphabeticRanges ++ basicPlaneRanges ++ ancientScriptRanges ++ supplementaryRanges

lemma ascending_wordRanges : Ascending wordRanges :=
  .of_isChain (by decide +kernel) (by decide +kernel)

lemma ascending_digitRanges : Ascending digitRanges :=
  .of_isChain (by decide +kernel) (by decide +kernel)

/-- A class of characters has the ASCII characters that are listed one by one, and the others that
are in its ranges. -/
lemma ascii_or_contains_iff {ranges : List (Nat × Nat)} (h : Ascending ranges)
    (hlength : ranges.length < 1024) (hbeyond : ∀ range ∈ ranges, 128 ≤ range.1) {ascii : Bool}
    {n : Nat} (hascii : ascii = true → n < 128) :
    (if n < 128 then ascii else (RangeTree.ofList ranges).contains n) = true ↔
      ascii = true ∨ InRanges ranges n := by
  split_ifs with hn
  · have hnone : ¬ InRanges ranges n := by
      rintro ⟨range, hrange, hfirst, -⟩
      have hlow := hbeyond range hrange
      omega
    simp [hnone]
  · have hother : ¬ ascii = true := fun h => hn (hascii h)
    simp [hother, RangeTree.contains_ofList h hlength]

/-- What is not behind an ASCII character is one. -/
lemma toNat_lt_of_le {c last : Char} (hlast : last.toNat < 128) (h : c ≤ last) : c.toNat < 128 := by
  have hle : c.toNat ≤ last.toNat := UInt32.le_iff_toNat_le.mp h
  omega

/-- A word character is a letter, a digit or the underscore of ASCII, or in one of the ranges. -/
theorem isWord_iff {c : Char} : isWord c = true ↔
    (isLetter c || ('0' ≤ c && c ≤ '9') || c == '_') = true ∨ InRanges wordRanges c.toNat := by
  refine ascii_or_contains_iff ascending_wordRanges (by decide +kernel) (by decide +kernel) ?_
  intro hascii
  simp only [isLetter, Bool.or_eq_true, Bool.and_eq_true, decide_eq_true_eq, beq_iff_eq] at hascii
  rcases hascii with (((h | h) | h) | rfl)
  · exact toNat_lt_of_le (by decide) h.2
  · exact toNat_lt_of_le (by decide) h.2
  · exact toNat_lt_of_le (by decide) h.2
  · decide

/-- A digit is a digit of ASCII or in one of the ranges. -/
theorem isDigit_iff {c : Char} : isDigit c = true ↔
    ('0' ≤ c && c ≤ '9') = true ∨ InRanges digitRanges c.toNat := by
  refine ascii_or_contains_iff ascending_digitRanges (by decide +kernel) (by decide +kernel) ?_
  intro hascii
  simp only [Bool.and_eq_true, decide_eq_true_eq] at hascii
  exact toNat_lt_of_le (by decide) hascii.2

/-- A digit is a word character. -/
theorem isWord_of_isDigit {c : Char} (h : isDigit c = true) : isWord c = true := by
  -- over Booleans, since the kernel evaluates some fifty thousand comparisons
  have hwithin : (digitRanges.all fun digits => wordRanges.any fun range =>
      range.1.ble digits.1 && digits.2.ble range.2) = true := by
    decide +kernel
  rw [isDigit_iff] at h
  rw [isWord_iff]
  rcases h with hascii | ⟨digits, hdigits, hfirst, hlast⟩
  · left
    simp [hascii]
  · right
    obtain ⟨range, hrange, hin⟩ := List.any_eq_true.mp (List.all_eq_true.mp hwithin digits hdigits)
    rw [Bool.and_eq_true, Nat.ble_eq, Nat.ble_eq] at hin
    exact ⟨range, hrange, by omega, by omega⟩

/-! ## Blanks -/

/-- Without its trailing blanks a text is a beginning of what it was. -/
lemma trimEnd_prefix (text : List Char) : trimEnd text <+: text := by
  unfold trimEnd
  have hsuffix := List.reverse_prefix.mpr (List.dropWhile_suffix (l := text.reverse) isBlank)
  rwa [List.reverse_reverse] at hsuffix

/-- What is left of a text that is not blank does not begin with a blank. -/
lemma exists_trim_eq_cons {text : List Char} (h : trim text ≠ []) :
    ∃ c rest, trim text = c :: rest ∧ isBlank c = false := by
  cases htrim : trim text with
  | nil => exact absurd htrim h
  | cons c rest =>
    refine ⟨c, rest, rfl, ?_⟩
    obtain ⟨trailing, happend⟩ := trimEnd_prefix (text.dropWhile isBlank)
    change trim text ++ trailing = _ at happend
    rw [htrim] at happend
    have hhead := List.head?_dropWhile_not isBlank text
    rwa [← happend] at hhead

end Characters

open Characters

/-- The code points of all blanks. -/
def blankCodes : List Nat :=
  [9, 10, 11, 12, 13, 32, 0x85, 0xA0, 0x1680, 0x2000, 0x2001, 0x2002, 0x2003, 0x2004, 0x2005,
    0x2006, 0x2007, 0x2008, 0x2009, 0x200A, 0x2028, 0x2029, 0x202F, 0x205F, 0x3000]

/-- What is so of all blanks can be checked one by one. -/
lemma of_forall_blankCodes {motive : Char → Prop}
    (h : ∀ n ∈ blankCodes, motive (Char.ofNat n)) {c : Char} (hblank : isBlank c = true) :
    motive c := by
  have hcode : c.toNat ∈ blankCodes := by
    unfold isBlank at hblank
    unfold blankCodes
    split at hblank
    all_goals
      simp only [Bool.or_eq_true, Bool.and_eq_true, beq_iff_eq, decide_eq_true_eq] at hblank
      simp only [List.mem_cons, List.not_mem_nil, or_false]
    · rcases hblank with rfl | hcontrol
      · decide
      · omega
    · omega
  have hmotive := h c.toNat hcode
  rwa [Char.ofNat_toNat] at hmotive

/-- A blank is no word character. -/
lemma isWord_eq_false_of_isBlank {c : Char} (h : isBlank c = true) : isWord c = false :=
  of_forall_blankCodes (motive := fun c => isWord c = false) (by decide +kernel) h

/-- A blank is no digit. -/
lemma isDigit_eq_false_of_isBlank {c : Char} (h : isBlank c = true) : isDigit c = false := by
  by_contra hdigit
  have hword := isWord_of_isDigit (Bool.not_eq_false _ ▸ hdigit)
  rw [isWord_eq_false_of_isBlank h] at hword
  exact Bool.false_ne_true hword

/-! ## Letters -/

/-- A capital is the upper case of a letter, and all other characters are their own lower case. -/
lemma toLower_eq_or_exists_toUpper (c : Char) :
    c.toLower = c ∨ ∃ letter ∈ ClassItem.letters, c = letter.toUpper ∧ c.toLower = letter := by
  by_cases hcapital : c.toNat - 65 < 26 ∧ 65 ≤ c.toNat
  · have hall : ∀ n < 26, (ClassItem.letters.any fun letter =>
        Char.ofNat (n + 65) = letter.toUpper && (Char.ofNat (n + 65)).toLower = letter) = true := by
      decide
    have hchar : Char.ofNat (c.toNat - 65 + 65) = c := by
      rw [Nat.sub_add_cancel hcapital.2, Char.ofNat_toNat]
    have hletter := hall (c.toNat - 65) hcapital.1
    rw [hchar, List.any_eq_true] at hletter
    obtain ⟨letter, hmem, hcases⟩ := hletter
    rw [Bool.and_eq_true, decide_eq_true_eq, decide_eq_true_eq] at hcases
    exact .inr ⟨letter, hmem, hcases⟩
  · left
    unfold Char.toLower
    rw [dif_neg]
    rintro ⟨hlow, hhigh⟩
    have hlow' : 65 ≤ c.toNat := UInt32.le_iff_toNat_le.mp hlow
    have hhigh' : c.toNat ≤ 90 := UInt32.le_iff_toNat_le.mp hhigh
    omega

/-- Whether a test has every letter in both cases or in none. -/
def ignoresLetterCase (test : Char → Bool) : Bool :=
  ClassItem.letters.all fun letter => test letter.toUpper = test letter

/-- Such a test does not tell a character from its lower case. -/
lemma eq_toLower_of_ignoresLetterCase {test : Char → Bool} (h : ignoresLetterCase test = true)
    (c : Char) : test c.toLower = test c := by
  rcases toLower_eq_or_exists_toUpper c with hsame | ⟨letter, hmem, hupper, hlower⟩
  · rw [hsame]
  · rw [hlower, hupper]
    exact (of_decide_eq_true (List.all_eq_true.mp h letter hmem)).symm

@[simp] lemma isWord_toLower (c : Char) : isWord c.toLower = isWord c :=
  eq_toLower_of_ignoresLetterCase (by decide) c

@[simp] lemma isBlank_toLower (c : Char) : isBlank c.toLower = isBlank c :=
  eq_toLower_of_ignoresLetterCase (by decide) c

@[simp] lemma toLower_beq_newline (c : Char) : (c.toLower == '\n') = (c == '\n') :=
  @eq_toLower_of_ignoresLetterCase (· == '\n') (by decide) c

end LanguageDetection
