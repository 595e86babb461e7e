import Mathlib.Tactic.Common
import LanguageDetection.Text

/-!
# Text that is written and read

The bytes of a text are read as the same text and without a fault (`decode?_encode`).  A character
leads reading from between two characters to between two characters, and its code point is put
together again from what its bytes hold of it.
-/

namespace LanguageDetection.Utf8

/-! ## Single bytes -/

section Bytes

variable {byte : UInt8} {bytes : List UInt8} {low high value : Nat}

/-- Between two characters, reading takes one byte at a time. -/
lemma decodeFrom_between {found : List (Option Char)} {reading : Reading}
    (h : first byte.toNat = (found, reading)) :
    decodeFrom .between (byte :: bytes) = found ++ decodeFrom reading bytes := by
  rw [decodeFrom]
  simp only [next, h]

/-- The last byte of a character. -/
lemma decodeFrom_within_zero (hlow : low ≤ byte.toNat) (hhigh : byte.toNat ≤ high) :
    decodeFrom (.within 0 low high value) (byte :: bytes) =
      Characters.ofCodePoint? (64 * value + (byte.toNat - 0x80)) :: decodeFrom .between bytes := by
  rw [decodeFrom]
  simp [next, hlow, hhigh]

/-- A byte within a character that is not its last one. -/
lemma decodeFrom_within_succ {owed : Nat} (hlow : low ≤ byte.toNat) (hhigh : byte.toNat ≤ high) :
    decodeFrom (.within (owed + 1) low high value) (byte :: bytes) =
      decodeFrom (.within owed 0x80 0xBF (64 * value + (byte.toNat - 0x80))) bytes := by
  rw [decodeFrom]
  simp [next, hlow, hhigh]

end Bytes

/-! ## The first byte of a character -/

/-- A first byte says where the second one lies, which keeps out code points that fewer bytes could
hold, those of surrogates and those beyond the last. -/
def Leads (lead owed second value : Nat) : Prop :=
  ∃ low high, first lead = ([], .within owed low high value) ∧ low ≤ second ∧ second ≤ high

section Leads

variable {n : Nat}

/-- The first of two bytes admits the second, for a code point beyond those of one byte. -/
lemma leads_two (hlow : 0x7F < n) (hhigh : n ≤ 0x7FF) :
    Leads (n / 64 + 0xC0) 0 (n % 64 + 0x80) (n / 64) := by
  refine ⟨0x80, 0xBF, ?_, by omega, by omega⟩
  unfold first
  rw [if_neg (by omega), if_neg (by omega), if_pos (by omega), Nat.add_sub_cancel]

/-- The first of three bytes admits the second, for a code point that is not a surrogate. -/
lemma leads_three (hlow : 0x7FF < n) (hhigh : n ≤ 0xFFFF) (hvalid : n < 0xD800 ∨ 0xDFFF < n) :
    Leads (n / 4096 + 0xE0) 1 (n / 64 % 64 + 0x80) (n / 4096) := by
  unfold Leads first
  rw [if_neg (by omega), if_neg (by omega), if_neg (by omega)]
  by_cases hfirst : n / 4096 = 0
  · rw [if_pos (by omega)]
    exact ⟨0xA0, 0xBF, by rw [hfirst], by omega, by omega⟩
  rw [if_neg (by omega)]
  by_cases hsurrogate : n / 4096 = 0xD
  · rw [if_pos (by omega)]
    exact ⟨0x80, 0x9F, by rw [hsurrogate], by omega, by omega⟩
  rw [if_neg (by omega), if_pos (by omega)]
  exact ⟨0x80, 0xBF, by rw [Nat.add_sub_cancel], by omega, by omega⟩

/-- The first of four bytes admits the second, for a code point up to the last. -/
lemma leads_four (hlow : 0xFFFF < n) (hhigh : n ≤ 0x10FFFF) :
    Leads (n / 262144 + 0xF0) 2 (n / 4096 % 64 + 0x80) (n / 262144) := by
  unfold Leads first
  rw [if_neg (by omega), if_neg (by omega), if_neg (by omega), if_neg (by omega), if_neg (by omega),
    if_neg (by omega)]
  by_cases hfirst : n / 262144 = 0
  · rw [if_pos (by omega)]
    exact ⟨0x90, 0xBF, by rw [hfirst], by omega, by omega⟩
  rw [if_neg (by omega)]
  by_cases hlast : n / 262144 = 4
  · rw [if_neg (by omega), if_pos (by omega)]
    exact ⟨0x80, 0x8F, by rw [hlast], by omega, by omega⟩
  rw [if_pos (by omega)]
  exact ⟨0x80, 0xBF, by rw [Nat.add_sub_cancel], by omega, by omega⟩

end Leads

/-! ## Characters -/

section Characters

variable {lead second third fourth : UInt8} {bytes : List UInt8} {value : Nat}

/-- Two bytes that belong together make one character. -/
lemma decodeFrom_two (h : Leads lead.toNat 0 second.toNat value) :
    decodeFrom .between (lead :: second :: bytes) =
      Characters.ofCodePoint? (64 * value + (second.toNat - 0x80)) ::
        decodeFrom .between bytes := by
  obtain ⟨low, high, hfirst, hlow, hhigh⟩ := h
  rw [decodeFrom_between hfirst, List.nil_append, decodeFrom_within_zero hlow hhigh]

/-- A byte behind the second one. -/
def IsTail (byte : UInt8) : Prop :=
  0x80 ≤ byte.toNat ∧ byte.toNat ≤ 0xBF

/-- Three bytes that belong together make one character. -/
lemma decodeFrom_three (h : Leads lead.toNat 1 second.toNat value) (hthird : IsTail third) :
    decodeFrom .between (lead :: second :: third :: bytes) =
      Characters.ofCodePoint?
          (64 * (64 * value + (second.toNat - 0x80)) + (third.toNat - 0x80)) ::
        decodeFrom .between bytes := by
  obtain ⟨low, high, hfirst, hlow, hhigh⟩ := h
  rw [decodeFrom_between hfirst, List.nil_append, decodeFrom_within_succ hlow hhigh,
    decodeFrom_within_zero hthird.1 hthird.2]

/-- Four bytes that belong together make one character. -/
lemma decodeFrom_four (h : Leads lead.toNat 2 second.toNat value) (hthird : IsTail third)
    (hfourth : IsTail fourth) :
    decodeFrom .between (lead :: second :: third :: fourth :: bytes) =
      Characters.ofCodePoint?
          (64 * (64 * (64 * value + (second.toNat - 0x80)) + (third.toNat - 0x80)) +
            (fourth.toNat - 0x80)) ::
        decodeFrom .between bytes := by
  obtain ⟨low, high, hfirst, hlow, hhigh⟩ := h
  rw [decodeFrom_between hfirst, List.nil_append, decodeFrom_within_succ hlow hhigh,
    decodeFrom_within_succ hthird.1 hthird.2, decodeFrom_within_zero hfourth.1 hfourth.2]

end Characters

/-- A byte that is made of a number below 256. -/
lemma toNat_ofNat {n : Nat} (h : n < 256) : (UInt8.ofNat n).toNat = n := by
  simp [Nat.mod_eq_of_lt h]

/-- Six bits behind the mark of a tail make a tail. -/
lemma isTail_ofNat (n : Nat) : IsTail (UInt8.ofNat (n % 64 + 0x80)) := by
  unfold IsTail
  rw [toNat_ofNat (by omega)]
  omega

/-- The bytes of a character are read as this character. -/
lemma decodeFrom_utf8EncodeChar (c : Char) (bytes : List UInt8) :
    decodeFrom .between (String.utf8EncodeChar c ++ bytes) =
      some c :: decodeFrom .between bytes := by
  have hvalid : c.val.toNat < 0xD800 ∨ 0xDFFF < c.val.toNat ∧ c.val.toNat < 0x110000 := c.valid
  have hpoint : Characters.ofCodePoint? c.val.toNat = some c := Characters.ofCodePoint?_toNat c
  unfold String.utf8EncodeChar
  dsimp only
  generalize c.val.toNat = n at hvalid hpoint ⊢
  split_ifs with hone htwo hthree
  · have hfirst : first (UInt8.ofNat n).toNat = ([some c], .between) := by
      rw [toNat_ofNat (by omega), first, if_pos (by omega), hpoint]
    exact decodeFrom_between hfirst
  · have hleads : Leads (UInt8.ofNat (n / 64 % 32 + 0xC0)).toNat 0
        (UInt8.ofNat (n % 64 + 0x80)).toNat (n / 64) := by
      rw [toNat_ofNat (by omega), toNat_ofNat (by omega), Nat.mod_eq_of_lt (by omega)]
      exact leads_two (by omega) htwo
    have hvalue : 64 * (n / 64) + (n % 64 + 0x80 - 0x80) = n := by omega
    refine (decodeFrom_two hleads).trans ?_
    rw [toNat_ofNat (by omega), hvalue, hpoint]
    rfl
  · have hleads : Leads (UInt8.ofNat (n / 4096 % 16 + 0xE0)).toNat 1
        (UInt8.ofNat (n / 64 % 64 + 0x80)).toNat (n / 4096) := by
      rw [toNat_ofNat (by omega), toNat_ofNat (by omega), Nat.mod_eq_of_lt (by omega)]
      exact leads_three (by omega) hthree (by omega)
    have hvalue : 64 * (64 * (n / 4096) + (n / 64 % 64 + 0x80 - 0x80)) + (n % 64 + 0x80 - 0x80) =
        n := by omega
    refine (decodeFrom_three hleads (isTail_ofNat n)).trans ?_
    rw [toNat_ofNat (by omega), toNat_ofNat (by omega), hvalue, hpoint]
    rfl
  · have hleads : Leads (UInt8.ofNat (n / 262144 % 8 + 0xF0)).toNat 2
        (UInt8.ofNat (n / 4096 % 64 + 0x80)).toNat (n / 262144) := by
      rw [toNat_ofNat (by omega), toNat_ofNat (by omega), Nat.mod_eq_of_lt (by omega)]
      exact leads_four (by omega) (by omega)
    have hvalue : 64 * (64 * (64 * (n / 262144) + (n / 4096 % 64 + 0x80 - 0x80)) +
        (n / 64 % 64 + 0x80 - 0x80)) + (n % 64 + 0x80 - 0x80) = n := by omega
    refine (decodeFrom_four hleads (isTail_ofNat (n / 64)) (isTail_ofNat n)).trans ?_
    rw [toNat_ofNat (by omega), toNat_ofNat (by omega), toNat_ofNat (by omega), hvalue, hpoint]
    rfl

/-! ## Texts -/

/-- A text that is written as bytes is read back without fault. -/
theorem decode_encode (text : List Char) : decode (encode text) = text.map some := by
  unfold decode
  induction text with
  | nil => rfl
  | cons c text ih =>
    rw [encode, List.flatMap_cons, decodeFrom_utf8EncodeChar, List.map_cons]
    exact congrArg (some c :: ·) ih

/-- A text that is written as bytes is read as this text. -/
theorem decode?_encode (text : List Char) : decode? (encode text) = some text := by
  unfold decode?
  rw [decode_encode]
  induction text with
  | nil => rfl
  | cons c text ih =>
    rw [List.map_cons, List.mapM_cons, ih]
    rfl

end LanguageDetection.Utf8
