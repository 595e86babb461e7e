import Mathlib.Data.List.Basic
import LanguageDetection.Json.Reader
import LanguageDetection.Json.Writer
import LanguageDetection.Proofs.Decimal.Layout

/-!
# Documents are read back

The reader is the inverse of the writer, on quoted texts and on all documents that are well formed
(`WellFormed`).
-/

namespace LanguageDetection.Json

/-!
## Quoted texts

What is written for one character is read as that character and nothing else
(`readQuoted_escapeChar`), so a quoted text is read back whole, up to its own closing quote.
-/

/-- A digit of base sixteen stands for its value. -/
lemma hexValue?_hexDigit (n : ℕ) : hexValue? (hexDigit n) = some (n % 16) := by
  have hdigits : ∀ d < 16, hexValue? ((Nat.toDigits 16 d).headD '0') = some d := by decide
  exact hdigits (n % 16) (Nat.mod_lt n (by decide))

/-- The four digits that a control character is written with. -/
lemma hexValue4?_of_lt {n : ℕ} (h : n < 256) :
    hexValue4? '0' '0' (hexDigit (n / 16)) (hexDigit n) = some n := by
  have hzero : hexValue? '0' = some 0 := by decide
  unfold hexValue4?
  rw [hexValue?_hexDigit, hexValue?_hexDigit, hzero]
  apply congrArg some
  omega

section Character

variable {c : Char} (rest : List Char)

/-- A letter behind a backslash stands for one character. -/
lemma readQuoted_letter {letter : Char} (hletter : letter ≠ 'u') (h : unescape? letter = some c) :
    readQuoted ('\\' :: letter :: rest) =
      (readQuoted rest).map fun (text, rest) => (c :: text, rest) := by
  rw [readQuoted.eq_4 letter rest fun _ _ _ _ _ heq => absurd heq hletter, h]
  cases readQuoted rest <;> rfl

/-- A control character is written as its code point, which is no half of a surrogate pair. -/
lemma readQuoted_codePoint (h : c.toNat < 32) :
    readQuoted ('\\' :: 'u' :: '0' :: '0' :: hexDigit (c.toNat / 16) :: hexDigit c.toNat :: rest) =
      (readQuoted rest).map fun (text, rest) => (c :: text, rest) := by
  have hhalf : (decide (0xD800 ≤ c.toNat) && decide (c.toNat < 0xDC00)) = false := by
    rw [decide_eq_false (by omega), Bool.false_and]
  rw [readQuoted.eq_3, hexValue4?_of_lt (by omega)]
  change (if (decide (0xD800 ≤ c.toNat) && decide (c.toNat < 0xDC00)) = true then _ else _) = _
  rw [hhalf, if_neg Bool.false_ne_true, Characters.ofCodePoint?_toNat]
  cases readQuoted rest <;> rfl

/-- A character that is not escaped stands for itself. -/
lemma readQuoted_plain (hquote : c ≠ '"') (hbackslash : c ≠ '\\') (h : ¬ c.toNat < 32) :
    readQuoted (c :: rest) = (readQuoted rest).map fun (text, rest) => (c :: text, rest) := by
  rw [readQuoted.eq_5 c rest hquote (fun _ _ _ _ _ heq => absurd heq hbackslash)
    (fun _ _ heq => absurd heq hbackslash), decide_eq_false h, decide_eq_false hbackslash]
  cases readQuoted rest <;> rfl

end Character

/-- What is written for a character is read as that character. -/
theorem readQuoted_escapeChar (c : Char) (rest : List Char) :
    readQuoted (escapeChar c ++ rest) =
      (readQuoted rest).map fun (text, rest) => (c :: text, rest) := by
  have hcontrol (c' : Char) (h : c.toNat = c'.toNat) : c = c' := Char.toNat_inj.mp h
  unfold escapeChar
  split_ifs with hquote hbackslash hfeed hreturn htab hback hform hcode
  · exact readQuoted_letter rest (by decide) (congrArg some hquote.symm)
  · exact readQuoted_letter rest (by decide) (congrArg some hbackslash.symm)
  · exact readQuoted_letter rest (by decide) (congrArg some hfeed.symm)
  · exact readQuoted_letter rest (by decide) (congrArg some hreturn.symm)
  · exact readQuoted_letter rest (by decide) (congrArg some htab.symm)
  · exact readQuoted_letter rest (by decide) (congrArg some (hcontrol '\x08' hback).symm)
  · exact readQuoted_letter rest (by decide) (congrArg some (hcontrol '\x0c' hform).symm)
  · exact readQuoted_codePoint rest hcode
  · exact readQuoted_plain rest hquote hbackslash hcode

/-- A quoted text is read back, and what follows it is left. -/
theorem readQuoted_flatMap_escapeChar (text rest : List Char) :
    readQuoted (text.flatMap escapeChar ++ '"' :: rest) = some (text, rest) := by
  induction text with
  | nil => rw [List.flatMap_nil, List.nil_append, readQuoted]
  | cons c text ih =>
    rw [List.flatMap_cons, List.append_assoc, readQuoted_escapeChar, ih]
    rfl

/-!
## Documents

What is written of a document is read as that document: one lemma for each kind of document says so
if it is so of the parts (`IsReadBack`), and by induction it is so of all documents that are well
formed (`WellFormed`).  The fuel of the reader is the length of the text, since every step that uses
fuel up has a character of its own.
-/

/-! ### White space -/

/-- Nothing that continues what stands in front of it: the end of the text, a comma or a line feed.
-/
def Follows (rest : List Char) : Prop :=
  ∀ c ∈ rest.head?, c = ',' ∨ c = '\n'

section Space

variable (level : ℕ) (text : List Char)

/-- A line feed may follow a number. -/
lemma follows_newLine : Follows (newLine level ++ text) := by
  rintro c ⟨⟩
  exact .inr rfl

/-- What is written behind an item may follow a number. -/
lemma follows_writeItems (items : List Json) {rest : List Char} (h : Follows rest) :
    Follows (writeItems level items ++ rest) := by
  cases items with
  | nil => exact h
  | cons item items =>
    rintro c ⟨⟩
    exact .inl rfl

/-- What is written behind a member may follow a number. -/
lemma follows_writeMembers (members : List (String × Json)) {rest : List Char} (h : Follows rest) :
    Follows (writeMembers level members ++ rest) := by
  cases members with
  | nil => exact h
  | cons member members =>
    rintro c ⟨⟩
    exact .inl rfl

/-- A line feed and the blanks behind it are skipped. -/
lemma skipSpace_newLine : skipSpace (newLine level ++ text) = skipSpace text := by
  refine List.dropWhile_append_of_pos ?_
  intro c hc
  rcases List.mem_cons.mp hc with rfl | hc
  · rfl
  · rw [List.eq_of_mem_replicate hc]
    rfl

lemma skipSpace_of_isSpace_eq_false {c : Char} (h : isSpace c = false) :
    skipSpace (c :: text) = c :: text :=
  List.dropWhile_cons_of_neg (by rw [h]; exact Bool.false_ne_true)

/-- White space in front of a document does not matter. -/
lemma readValue_newLine (fuel : ℕ) :
    readValue fuel (newLine level ++ text) = readValue fuel text := by
  cases fuel with
  | zero => rfl
  | succ fuel => rw [readValue, readValue, skipSpace_newLine]

/-- Items are read across a line feed. -/
lemma readItems_newLine (fuel : ℕ) :
    readItems fuel (newLine level ++ text) = readItems fuel text := by
  cases fuel with
  | zero => rfl
  | succ fuel => rw [readItems, readItems, readValue_newLine]

/-- Members are read across a line feed. -/
lemma readMembers_newLine (fuel : ℕ) :
    readMembers fuel (newLine level ++ text) = readMembers fuel text := by
  cases fuel with
  | zero => rfl
  | succ fuel => rw [readMembers, readMembers, skipSpace_newLine]

end Space

/-! ### One step of the reader -/

/-- The characters that the literals of a document begin with. -/
def BeginsNumber (c : Char) : Prop :=
  c = '-' ∨ c.isDigit = true

instance (c : Char) : Decidable (BeginsNumber c) :=
  inferInstanceAs (Decidable (c = '-' ∨ c.isDigit = true))

lemma ne_of_beginsNumber {c c' : Char} (h : BeginsNumber c) (h' : ¬ BeginsNumber c') : c ≠ c' := by
  rintro rfl
  exact h' h

/-- A number does not begin with white space. -/
lemma isSpace_eq_false_of_beginsNumber {c : Char} (h : BeginsNumber c) : isSpace c = false := by
  unfold isSpace
  rw [decide_eq_false (ne_of_beginsNumber h (by decide)),
    decide_eq_false (ne_of_beginsNumber h (by decide)),
    decide_eq_false (ne_of_beginsNumber h (by decide)),
    decide_eq_false (ne_of_beginsNumber h (by decide))]
  rfl

section Step

variable {fuel : ℕ} {text inner rest : List Char}

/-- A quote begins a text. -/
lemma readValue_of_quote (h : skipSpace text = '"' :: inner) :
    readValue (fuel + 1) text =
      (readQuoted inner).map fun (text, rest) => (string (String.ofList text), rest) := by
  rw [readValue, h]
  cases hquoted : readQuoted inner <;> simp [hquoted]

/-- Brackets without an item between them are the empty array. -/
lemma readValue_of_empty_array (h : skipSpace text = '[' :: inner)
    (hclose : skipSpace inner = ']' :: rest) :
    readValue (fuel + 1) text = some (array [], rest) := by
  simp only [readValue, h, hclose]

/-- An opening bracket with an item behind it begins an array. -/
lemma readValue_of_array {c : Char} (h : skipSpace text = '[' :: inner)
    (hopen : skipSpace inner = c :: rest) (hc : c ≠ ']') :
    readValue (fuel + 1) text =
      (readItems fuel (c :: rest)).map fun (items, rest) => (array items, rest) := by
  simp only [readValue, h, hopen]
  split
  · next heq => exact absurd (List.cons.inj heq).1 hc
  · cases readItems fuel (c :: rest) <;> rfl

/-- Behind a comma there are more items. -/
lemma readItems_of_comma {item : Json} (hitem : readValue fuel text = some (item, rest))
    (h : skipSpace rest = ',' :: inner) :
    readItems (fuel + 1) text =
      (readItems fuel inner).map fun (items, rest) => (item :: items, rest) := by
  rw [readItems, hitem, Option.bind_eq_bind, Option.bind_some]
  dsimp only
  rw [h]
  change Option.bind _ _ = _
  cases readItems fuel inner <;> rfl

/-- A closing bracket ends the items. -/
lemma readItems_of_bracket {item : Json} (hitem : readValue fuel text = some (item, rest))
    (h : skipSpace rest = ']' :: inner) : readItems (fuel + 1) text = some ([item], inner) := by
  rw [readItems, hitem, Option.bind_eq_bind, Option.bind_some]
  dsimp only
  rw [h]
  rfl

/-- Braces without a member between them are the empty object. -/
lemma readValue_of_empty_object (h : skipSpace text = '{' :: inner)
    (hclose : skipSpace inner = '}' :: rest) :
    readValue (fuel + 1) text = some (object [], rest) := by
  simp only [readValue, h, hclose]

/-- An opening brace with a member behind it begins an object. -/
lemma readValue_of_object {c : Char} (h : skipSpace text = '{' :: inner)
    (hopen : skipSpace inner = c :: rest) (hc : c ≠ '}') :
    readValue (fuel + 1) text =
      (readMembers fuel (c :: rest)).map fun (members, rest) => (object members, rest) := by
  simp only [readValue, h, hopen]
  split
  · next heq => exact absurd (List.cons.inj heq).1 hc
  · cases readMembers fuel (c :: rest) <;> rfl

/-- Nothing but a number begins so. -/
lemma readValue_of_number {c : Char} (h : skipSpace text = c :: rest) (hc : BeginsNumber c) :
    readValue (fuel + 1) text = readNumber (c :: rest) := by
  simp only [readValue, h]
  split
  iterate 6
    · next heq => exact absurd (List.cons.inj heq).1 (ne_of_beginsNumber hc (by decide))
  · rfl

section Members

variable {quoted key behindKey behindColon : List Char} {value : Json}
  (hquote : skipSpace text = '"' :: quoted) (hkey : readQuoted quoted = some (key, behindKey))
  (hcolon : skipSpace behindKey = ':' :: behindColon)
  (hvalue : readValue fuel behindColon = some (value, rest))

include hquote hkey hcolon hvalue

/-- Behind a comma there are more members. -/
lemma readMembers_of_comma (h : skipSpace rest = ',' :: inner) :
    readMembers (fuel + 1) text =
      (readMembers fuel inner).map fun (members, rest) =>
        ((String.ofList key, value) :: members, rest) := by
  simp only [readMembers, hquote, hkey, hcolon, hvalue, h, Option.bind_eq_bind, Option.bind_some]
  cases readMembers fuel inner <;> rfl

/-- A closing brace ends the members. -/
lemma readMembers_of_brace (h : skipSpace rest = '}' :: inner) :
    readMembers (fuel + 1) text = some ([(String.ofList key, value)], inner) := by
  simp only [readMembers, hquote, hkey, hcolon, hvalue, h, Option.bind_eq_bind, Option.bind_some]
  rfl

end Members

end Step

/-! ### The kinds of documents -/

/-- What is written of the document is read as that document, wherever it stands. -/
def IsReadBack (json : Json) : Prop :=
  ∀ ⦃level fuel rest⦄, Follows rest → (write level json).length < fuel →
    readValue fuel (write level json ++ rest) = some (json, rest)

section Scalars

variable {level fuel : ℕ} {rest : List Char}

/-- The word `null` is read back. -/
lemma isReadBack_null : IsReadBack null := by
  intro level fuel rest hrest hfuel
  obtain ⟨fuel, rfl⟩ := Nat.exists_eq_succ_of_ne_zero (Nat.ne_zero_of_lt hfuel)
  rfl

/-- Truth values are read back. -/
lemma isReadBack_bool (value : Bool) : IsReadBack (bool value) := by
  intro level fuel rest hrest hfuel
  obtain ⟨fuel, rfl⟩ := Nat.exists_eq_succ_of_ne_zero (Nat.ne_zero_of_lt hfuel)
  cases value <;> rfl

/-- Texts are read back. -/
lemma isReadBack_string (text : String) : IsReadBack (string text) := by
  intro level fuel rest hrest hfuel
  obtain ⟨fuel, rfl⟩ := Nat.exists_eq_succ_of_ne_zero (Nat.ne_zero_of_lt hfuel)
  have hquote : write level (string text) ++ rest =
      '"' :: (text.toList.flatMap escapeChar ++ '"' :: rest) := by
    rw [write, quote, List.append_assoc, List.cons_append, List.singleton_append]
  rw [hquote, readValue_of_quote (skipSpace_of_isSpace_eq_false _ rfl),
    readQuoted_flatMap_escapeChar]
  change some (string (String.ofList text.toList), rest) = _
  rw [String.ofList_toList]

/-- A comma or a line feed ends a literal. -/
lemma Follows.ends (h : Follows rest) : Decimal.Literal.Ends rest := by
  intro c hc
  rcases h c hc with rfl | rfl <;> decide

/-- A number is read as it is spelled, up to what follows it. -/
lemma readNumber_spell {literal : Decimal.Literal} (hsound : literal.IsSound)
    (hzero : literal.hasLeadingZero = false) (hrest : Follows rest) :
    readNumber (literal.spell ++ rest) = some (number (String.ofList literal.spell), rest) := by
  obtain ⟨c, text, hspell, hc⟩ := hsound.exists_spell_eq_cons
  have hsign : decide ((literal.spell ++ rest).head? = some '+') = false := by
    rw [hspell]
    exact decide_eq_false fun heq => ne_of_beginsNumber hc (by decide) (Option.some.inj heq)
  have htake : (literal.spell ++ rest).take ((literal.spell ++ rest).length - rest.length) =
      literal.spell := by
    rw [List.length_append, Nat.add_sub_cancel, List.take_left]
  unfold readNumber
  rw [Decimal.Literal.readPrefix_spell hsound hrest.ends, Option.bind_eq_bind, Option.bind_some]
  dsimp only
  rw [hsign, hzero, htake]
  rfl

/-- Numbers are read back if their literals are sound. -/
lemma isReadBack_number {literal : Decimal.Literal} (hsound : literal.IsSound)
    (hzero : literal.hasLeadingZero = false) :
    IsReadBack (number (String.ofList literal.spell)) := by
  intro level fuel rest hrest hfuel
  obtain ⟨fuel, rfl⟩ := Nat.exists_eq_succ_of_ne_zero (Nat.ne_zero_of_lt hfuel)
  obtain ⟨c, text, hspell, hc⟩ := hsound.exists_spell_eq_cons
  rw [write, String.toList_ofList, hspell, List.cons_append,
    readValue_of_number
      (skipSpace_of_isSpace_eq_false _ (isSpace_eq_false_of_beginsNumber hc)) hc,
    ← List.cons_append, ← hspell]
  exact readNumber_spell hsound hzero hrest

end Scalars

/-! ### Arrays -/

/-- What is written of the document begins neither with white space nor with a closing bracket. -/
def Begins (json : Json) : Prop :=
  ∀ level, ∃ c text, write level json = c :: text ∧ isSpace c = false ∧ c ≠ ']'

section Array

variable {level fuel outer : ℕ} {first : Json} {items : List Json} {rest : List Char}

/-- The items of an array are read up to its closing bracket. -/
lemma readItems_write (hfirst : first.IsReadBack) (hitems : ∀ item ∈ items, item.IsReadBack)
    (hfuel : (write level first).length + (writeItems level items).length + 1 < fuel) :
    readItems fuel (write level first ++ (writeItems level items ++
        (newLine outer ++ ']' :: rest))) = some (first :: items, rest) := by
  induction items generalizing first fuel with
  | nil =>
    obtain ⟨fuel, rfl⟩ := Nat.exists_eq_succ_of_ne_zero (Nat.ne_zero_of_lt hfuel)
    rw [writeItems, List.length_nil] at hfuel
    rw [writeItems, List.nil_append]
    refine readItems_of_bracket (hfirst (follows_newLine outer _) (by omega)) ?_
    rw [skipSpace_newLine, skipSpace_of_isSpace_eq_false _ rfl]
  | cons second items ih =>
    obtain ⟨hsecond, hitems⟩ := List.forall_mem_cons.mp hitems
    obtain ⟨fuel, rfl⟩ := Nat.exists_eq_succ_of_ne_zero (Nat.ne_zero_of_lt hfuel)
    have hcomma : writeItems level (second :: items) ++ (newLine outer ++ ']' :: rest) =
        ',' :: (newLine level ++ (write level second ++
          (writeItems level items ++ (newLine outer ++ ']' :: rest)))) := by
      simp only [writeItems, List.cons_append, List.append_assoc]
    have hlength := congrArg List.length hcomma
    simp only [List.length_append, List.length_cons] at hlength
    have hfuel' : (write level first).length < fuel := by omega
    have hvalue := hfirst
      (follows_writeItems level (second :: items) (follows_newLine outer (']' :: rest))) hfuel'
    rw [hcomma] at hvalue ⊢
    rw [readItems_of_comma hvalue (skipSpace_of_isSpace_eq_false _ rfl), readItems_newLine,
      ih hsecond hitems (by omega)]
    rfl

/-- An array is read back if its items are. -/
lemma isReadBack_array (hitems : ∀ item ∈ items, item.IsReadBack)
    (hbegins : ∀ item ∈ items, item.Begins) : IsReadBack (array items) := by
  intro level fuel rest hrest hfuel
  obtain ⟨fuel, rfl⟩ := Nat.exists_eq_succ_of_ne_zero (Nat.ne_zero_of_lt hfuel)
  cases items with
  | nil => exact readValue_of_empty_array rfl rfl
  | cons first items =>
    obtain ⟨hfirst, hitems⟩ := List.forall_mem_cons.mp hitems
    obtain ⟨c, text, htext, hspace, hc⟩ := hbegins first List.mem_cons_self (level + 1)
    have hwrite : write level (array (first :: items)) ++ rest =
        '[' :: (newLine (level + 1) ++ (write (level + 1) first ++
          (writeItems (level + 1) items ++ (newLine level ++ ']' :: rest)))) := by
      simp only [write, List.cons_append, List.append_assoc, List.nil_append]
    have hlength := congrArg List.length hwrite
    have hline : 0 < (newLine (level + 1)).length := Nat.succ_pos _
    have hline' : 0 < (newLine level).length := Nat.succ_pos _
    simp only [List.length_append, List.length_cons] at hlength
    have hread : readItems fuel (write (level + 1) first ++
        (writeItems (level + 1) items ++ (newLine level ++ ']' :: rest))) =
          some (first :: items, rest) :=
      readItems_write hfirst hitems (by omega)
    rw [htext, List.cons_append] at hread
    have hopen : skipSpace (newLine (level + 1) ++ (write (level + 1) first ++
        (writeItems (level + 1) items ++ (newLine level ++ ']' :: rest)))) =
          c :: (text ++ (writeItems (level + 1) items ++ (newLine level ++ ']' :: rest))) := by
      rw [skipSpace_newLine, htext]
      exact skipSpace_of_isSpace_eq_false _ hspace
    rw [hwrite, readValue_of_array rfl hopen hc, hread]
    rfl

end Array

/-! ### Objects -/

section Object

variable {level fuel outer : ℕ} {key : String} {value : Json} {members : List (String × Json)}
  {rest : List Char}

/-- A key is read up to its colon. -/
lemma readQuoted_quote (key : String) (text : List Char) :
    ∃ quoted, quote key ++ text = '"' :: quoted ∧ readQuoted quoted = some (key.toList, text) := by
  refine ⟨key.toList.flatMap escapeChar ++ '"' :: text, ?_, readQuoted_flatMap_escapeChar _ _⟩
  rw [quote, List.append_assoc, List.cons_append, List.singleton_append]

/-- The space behind a colon does not matter. -/
lemma readValue_space (fuel : ℕ) (text : List Char) :
    readValue fuel (' ' :: text) = readValue fuel text := by
  cases fuel with
  | zero => rfl
  | succ fuel => rw [readValue, readValue, skipSpace, List.dropWhile_cons_of_pos rfl, skipSpace]

/-- One member is read, and then what stands behind it decides. -/
lemma readMembers_member (hvalue : value.IsReadBack) {tail inner : List Char} (htail : Follows tail)
    (hfuel : (write level value).length < fuel) :
    (skipSpace tail = ',' :: inner →
      readMembers (fuel + 1) (quote key ++ ':' :: ' ' :: (write level value ++ tail)) =
        (readMembers fuel inner).map fun (members, rest) => ((key, value) :: members, rest)) ∧
    (skipSpace tail = '}' :: inner →
      readMembers (fuel + 1) (quote key ++ ':' :: ' ' :: (write level value ++ tail)) =
        some ([(key, value)], inner)) := by
  obtain ⟨quoted, hquote, hkey⟩ := readQuoted_quote key (':' :: ' ' :: (write level value ++ tail))
  have hcolon : skipSpace (':' :: ' ' :: (write level value ++ tail)) =
      ':' :: ' ' :: (write level value ++ tail) :=
    skipSpace_of_isSpace_eq_false _ rfl
  have hspace : readValue fuel (' ' :: (write level value ++ tail)) = some (value, tail) := by
    rw [readValue_space]
    exact hvalue htail hfuel
  rw [hquote]
  constructor
  · intro h
    rw [readMembers_of_comma (skipSpace_of_isSpace_eq_false _ rfl) hkey hcolon hspace h,
      String.ofList_toList]
  · intro h
    rw [readMembers_of_brace (skipSpace_of_isSpace_eq_false _ rfl) hkey hcolon hspace h,
      String.ofList_toList]

/-- The members of an object are read up to its closing brace. -/
lemma readMembers_write (hvalue : value.IsReadBack)
    (hmembers : ∀ member ∈ members, member.2.IsReadBack)
    (hfuel : (write level value).length + (writeMembers level members).length + 1 < fuel) :
    readMembers fuel (quote key ++ ':' :: ' ' :: (write level value ++
        (writeMembers level members ++ (newLine outer ++ '}' :: rest)))) =
      some ((key, value) :: members, rest) := by
  induction members generalizing key value fuel with
  | nil =>
    obtain ⟨fuel, rfl⟩ := Nat.exists_eq_succ_of_ne_zero (Nat.ne_zero_of_lt hfuel)
    have htail : skipSpace (newLine outer ++ '}' :: rest) = '}' :: rest := by
      rw [skipSpace_newLine, skipSpace_of_isSpace_eq_false _ rfl]
    rw [writeMembers, List.nil_append]
    exact (readMembers_member hvalue (follows_newLine outer _) (by omega)).2 htail
  | cons member members ih =>
    obtain ⟨second, value'⟩ := member
    obtain ⟨(hsecond : value'.IsReadBack), hmembers⟩ := List.forall_mem_cons.mp hmembers
    obtain ⟨fuel, rfl⟩ := Nat.exists_eq_succ_of_ne_zero (Nat.ne_zero_of_lt hfuel)
    have hcomma :
        writeMembers level ((second, value') :: members) ++ (newLine outer ++ '}' :: rest) =
        ',' :: (newLine level ++ (quote second ++ ':' :: ' ' :: (write level value' ++
          (writeMembers level members ++ (newLine outer ++ '}' :: rest))))) := by
      simp only [writeMembers, List.cons_append, List.append_assoc]
    have hlength := congrArg List.length hcomma
    simp only [List.length_append, List.length_cons] at hlength
    have htail := follows_writeMembers level ((second, value') :: members)
      (follows_newLine outer ('}' :: rest))
    rw [hcomma] at htail ⊢
    rw [(readMembers_member hvalue htail (by omega)).1 (skipSpace_of_isSpace_eq_false _ rfl),
      readMembers_newLine, ih hsecond hmembers (by omega)]
    rfl

/-- An object is read back if its values are. -/
lemma isReadBack_object (hmembers : ∀ member ∈ members, member.2.IsReadBack) :
    IsReadBack (object members) := by
  intro level fuel rest hrest hfuel
  obtain ⟨fuel, rfl⟩ := Nat.exists_eq_succ_of_ne_zero (Nat.ne_zero_of_lt hfuel)
  cases members with
  | nil => exact readValue_of_empty_object rfl rfl
  | cons first members =>
    obtain ⟨key, value⟩ := first
    obtain ⟨hfirst, hmembers⟩ := List.forall_mem_cons.mp hmembers
    have hwrite : write level (object ((key, value) :: members)) ++ rest =
        '{' :: (newLine (level + 1) ++ (quote key ++ ':' :: ' ' :: (write (level + 1) value ++
          (writeMembers (level + 1) members ++ (newLine level ++ '}' :: rest))))) := by
      simp only [write, List.cons_append, List.append_assoc, List.nil_append]
    have hlength := congrArg List.length hwrite
    simp only [List.length_append, List.length_cons] at hlength
    have hread : readMembers fuel (quote key ++ ':' :: ' ' :: (write (level + 1) value ++
        (writeMembers (level + 1) members ++ (newLine level ++ '}' :: rest)))) =
          some ((key, value) :: members, rest) :=
      readMembers_write hfirst hmembers (by omega)
    obtain ⟨quoted, hquote, -⟩ := readQuoted_quote key (':' :: ' ' :: (write (level + 1) value ++
      (writeMembers (level + 1) members ++ (newLine level ++ '}' :: rest))))
    have hopen : skipSpace (newLine (level + 1) ++ '"' :: quoted) = '"' :: quoted := by
      rw [skipSpace_newLine]
      exact skipSpace_of_isSpace_eq_false _ rfl
    rw [hquote] at hread hwrite
    rw [hwrite, readValue_of_object rfl hopen (by decide), hread]
    rfl

end Object

/-! ### All documents -/

/-- Every number is spelled as a decimal literal without zeros in front, and no object has a key
twice. -/
inductive WellFormed : Json → Prop
  | null : WellFormed null
  | bool (value : Bool) : WellFormed (bool value)
  | number {literal : Decimal.Literal} (hsound : literal.IsSound)
    (hzero : literal.hasLeadingZero = false) : WellFormed (number (String.ofList literal.spell))
  | string (text : String) : WellFormed (string text)
  | array {items : List Json} (h : ∀ item ∈ items, WellFormed item) : WellFormed (array items)
  | object {members : List (String × Json)} (hkeys : (members.map Prod.fst).Nodup)
    (h : ∀ member ∈ members, WellFormed member.2) : WellFormed (object members)

namespace WellFormed

variable {json : Json}

/-- A document that is well formed begins neither with white space nor with a closing bracket. -/
lemma begins (h : json.WellFormed) : json.Begins := by
  intro level
  cases h with
  | null => exact ⟨'n', _, rfl, rfl, by decide⟩
  | bool value => cases value <;> exact ⟨_, _, rfl, rfl, by decide⟩
  | number hsound hzero =>
    obtain ⟨c, text, hspell, hc⟩ := hsound.exists_spell_eq_cons
    refine ⟨c, text, ?_, isSpace_eq_false_of_beginsNumber hc, ne_of_beginsNumber hc (by decide)⟩
    rw [write, String.toList_ofList, hspell]
  | string text => exact ⟨'"', _, rfl, rfl, by decide⟩
  | @array items h => cases items <;> exact ⟨'[', _, rfl, rfl, by decide⟩
  | @object members hkeys h => cases members <;> exact ⟨'{', _, rfl, rfl, by decide⟩

/-- What is written of a document is read as that document, by induction on the document. -/
theorem isReadBack (h : json.WellFormed) : json.IsReadBack := by
  induction h with
  | null => exact isReadBack_null
  | bool value => exact isReadBack_bool value
  | number hsound hzero => exact isReadBack_number hsound hzero
  | string text => exact isReadBack_string text
  | array h ih => exact isReadBack_array ih fun item hitem => (h item hitem).begins
  | object hkeys h ih => exact isReadBack_object ih

/-- The text of a document is read as that document. -/
theorem read?_write (h : json.WellFormed) :
    read? (String.ofList (json.write 0)) = some json := by
  have hend : Follows [] := nofun
  have hread := h.isReadBack hend (Nat.lt_succ_self (json.write 0).length)
  rw [List.append_nil] at hread
  unfold read?
  rw [String.length_ofList, String.toList_ofList, hread]
  rfl

/-- Documents with the same text are the same. -/
theorem eq_of_document_eq {json' : Json} (h : json.WellFormed) (h' : json'.WellFormed)
    (heq : json'.document = json.document) : json' = json := by
  have hwritten : json'.write 0 = json.write 0 := by
    rw [document, document, String.ofList_inj] at heq
    exact List.append_cancel_right heq
  apply Option.some.inj
  rw [← h'.read?_write, ← h.read?_write, hwritten]

end WellFormed

/-- A text ended by a line feed. -/
lemma document_eq (json : Json) : json.document = String.ofList (json.write 0) ++ "\n" :=
  String.ofList_append

end LanguageDetection.Json
