import Mathlib.Algebra.BigOperators.Group.List.Basic
import Mathlib.Data.List.TakeWhile
import LanguageDetection.Pattern
import LanguageDetection.Proofs.Pattern.Literal
import LanguageDetection.Proofs.Pattern.Spans
import LanguageDetection.Proofs.Text

/-!
# Tokens as matches of a pattern

A token is a word, a number or a symbol, and `Token.written` is a pattern for all three.  Tokens are
read in one pass through the text, without a search for the pattern, and this module shows that they
are its matches all the same: at a character that is not blank the preferred match is the token that
begins there (`Token.head?_ends_pattern`), and at a blank there is none.

The tokens therefore part the text (`TokenLaw`): they do not overlap, and together they hold all
characters but the blanks.  Nothing goes on across a blank, so that the tokens on both sides of
blanks are read apart (`tokens_append`).
-/

namespace LanguageDetection

open Characters

namespace Token

/-- The written form of the pattern of a token. -/
def written : String := r"[A-Za-z_][A-Za-z0-9_]*|\d+(\.\d+)?|[^\sA-Za-z0-9_]"

/-- What a word begins with. -/
def wordStart : CharClass := { items := [.range 'A' 'Z', .range 'a' 'z', .range '_' '_'] }

/-- What a word goes on with. -/
def wordPart : CharClass :=
  { items := [.range 'A' 'Z', .range 'a' 'z', .range '0' '9', .range '_' '_'] }

/-- What a token of one character consists of, unless it is a word or a number. -/
def symbol : CharClass :=
  { items := [.blank, .range 'A' 'Z', .range 'a' 'z', .range '0' '9', .range '_' '_']
    negated := true }

/-- The class of digits. -/
def digit : CharClass := { items := [.digit] }

/-- At least one digit, and as many as there are. -/
def digits : Pattern := .seq (.one digit) (.star true (.one digit))

/-- A point with digits behind it, or nothing. -/
def fraction : Pattern := .optional true (.seq (.char '.') digits)

/-- The pattern of a token. -/
def pattern : Pattern :=
  .alt (.seq (.one wordStart) (.star true (.one wordPart)))
    (.alt (.seq digits fraction) (.one symbol))

/-- The pattern is what the written form says. -/
lemma read_written : Pattern.read written.toList = .ok pattern := by
  decide +kernel

/-! ## Blanks -/

/-- A blank is no part of a word. -/
lemma isWordPart_eq_false_of_isBlank {c : Char} (h : isBlank c = true) : isWordPart c = false :=
  of_forall_blankCodes (motive := fun c => isWordPart c = false) (by decide +kernel) h

/-- The parts of a word that do not begin one are digits. -/
lemma isWordPart_eq_false {c : Char} (hword : (isLetter c || c == '_') = false)
    (hdigit : isDigit c = false) : isWordPart c = false := by
  rw [Bool.or_eq_false_iff] at hword
  have hascii : ('0' ≤ c && c ≤ '9') = false := by
    by_contra hrange
    rw [Bool.not_eq_false, Bool.and_eq_true, decide_eq_true_eq, decide_eq_true_eq] at hrange
    have hle : c.toNat ≤ 57 := UInt32.le_iff_toNat_le.mp hrange.2
    unfold isDigit at hdigit
    rw [if_pos (by omega)] at hdigit
    simp [hrange] at hdigit
  unfold isWordPart
  rw [hword.1, hword.2, hascii]
  rfl

/-- Nothing goes on with a blank. -/
lemma Reading.extend_of_isBlank {c : Char} (h : isBlank c = true) (reading : Reading)
    (after : Option Char) : reading.extend c after = none := by
  have hpoint : (c == '.') = false :=
    of_forall_blankCodes (motive := fun c => (c == '.') = false) (by decide +kernel) h
  unfold extend
  cases reading <;>
    simp [isWordPart_eq_false_of_isBlank h, isDigit_eq_false_of_isBlank h, hpoint]

/-! ## Readings -/

section Split

variable {reading next : Reading} {c : Char} {rest : List Char}

/-- A character that continues the token. -/
lemma split_cons_of_some (h : reading.extend c rest.head? = some next) :
    split reading (c :: rest) = (c :: (split next rest).1, (split next rest).2) := by
  rw [split, h]

/-- A character that does not continue the token. -/
lemma split_cons_of_none (h : reading.extend c rest.head? = none) :
    split reading (c :: rest) = ([], tokens (c :: rest)) := by
  have hclosed : Reading.closed.extend c rest.head? = none := rfl
  rw [tokens, split, h, split, hclosed]
  dsimp only
  split <;> rfl

/-- A character that is not blank starts a token. -/
lemma tokens_cons (h : isBlank c = false) :
    tokens (c :: rest) = (c :: (split (.start c) rest).1) :: (split (.start c) rest).2 := by
  have hclosed : Reading.closed.extend c rest.head? = none := rfl
  rw [tokens, split, hclosed]
  simp [h]

end Split

/-- The rest of a token is a beginning of the text, and what is left has the tokens behind it. -/
lemma split_spec (reading : Reading) (text : List Char) :
    (split reading text).1 <+: text ∧
      (split reading text).2 = tokens (text.drop (split reading text).1.length) := by
  induction text generalizing reading with
  | nil => exact ⟨List.prefix_rfl, rfl⟩
  | cons c rest ih =>
    cases hextend : reading.extend c rest.head? with
    | some next =>
      rw [split_cons_of_some hextend]
      exact ⟨List.cons_prefix_cons.mpr ⟨rfl, (ih next).1⟩, (ih next).2⟩
    | none =>
      rw [split_cons_of_none hextend]
      exact ⟨List.nil_prefix, rfl⟩

/-- A reading that looks at single characters takes as many of them as there are. -/
lemma fst_split_eq_takeWhile {reading : Reading} {test : Char → Bool}
    (h : ∀ c after, reading.extend c after = if test c then some reading else none)
    (text : List Char) : (split reading text).1 = text.takeWhile test := by
  induction text with
  | nil => rfl
  | cons c rest ih =>
    by_cases htest : test c = true
    · rw [split_cons_of_some ((h c _).trans (if_pos htest)), List.takeWhile_cons_of_pos htest, ← ih]
    · rw [split_cons_of_none ((h c _).trans (if_neg htest)), List.takeWhile_cons_of_neg htest]

/-- A token that is closed takes nothing more. -/
lemma fst_split_closed (text : List Char) : (split .closed text).1 = [] := by
  rw [@fst_split_eq_takeWhile .closed (fun _ => false) fun _ _ => rfl]
  cases text <;> rfl

lemma fst_split_word (text : List Char) : (split .word text).1 = text.takeWhile isWordPart :=
  fst_split_eq_takeWhile (fun _ _ => rfl) text

/-- The digits behind a point go on as far as there are any. -/
lemma fst_split_fraction (text : List Char) :
    (split .fraction text).1 = text.takeWhile isDigit :=
  fst_split_eq_takeWhile (fun _ _ => rfl) text

/-! ## Preferred matches -/

/-- A range of one character. -/
lemma decide_le_and_le (c d : Char) : (decide (c ≤ d) && decide (d ≤ c)) = (d == c) := by
  rw [Bool.eq_iff_iff, Bool.and_eq_true, decide_eq_true_eq, decide_eq_true_eq, beq_iff_eq,
    and_comm, ← le_antisymm_iff]

/-- The class of the expression for the start of a word has the letters and the low line. -/
lemma holds_wordStart (c : Char) : wordStart.holds c = (isLetter c || c == '_') := by
  simp only [wordStart, CharClass.holds, List.any_cons, List.any_nil, ClassItem.holds, isLetter,
    Bool.bne_false, Bool.or_false, decide_le_and_le '_' c]
  ac_rfl

/-- The class of the expression for the rest of a word has what may go on with one. -/
lemma holds_wordPart : wordPart.holds = isWordPart := by
  funext c
  simp only [wordPart, CharClass.holds, List.any_cons, List.any_nil, ClassItem.holds, isLetter,
    isWordPart, Bool.bne_false, Bool.or_false, decide_le_and_le '_' c]
  ac_rfl

/-- The class of the expression for digits has the digits. -/
lemma holds_digit : digit.holds = isDigit := by
  funext c
  simp [digit, CharClass.holds, ClassItem.holds]

/-- The class of the expression for symbols has what is neither blank nor part of a word. -/
lemma holds_symbol (c : Char) : symbol.holds c = !(isBlank c || isWordPart c) := by
  rw [← holds_wordPart]
  simp only [symbol, wordPart, CharClass.holds, List.any_cons, ClassItem.holds, Bool.bne_false,
    Bool.bne_true]

section Ends

variable (before : Option Char)

/-- The first alternative takes a whole word where one starts, and fails elsewhere. -/
lemma head?_ends_word (c : Char) (rest : List Char) :
    ((Pattern.seq (.one wordStart) (.star true (.one wordPart))).ends
        ⟨before, c :: rest⟩).head? =
      if isLetter c || c == '_' then some (1 + (split .word rest).1.length) else none := by
  rw [Pattern.ends_seq_one_cons, holds_wordStart, fst_split_word]
  split
  · rw [List.head?_map, Pattern.head?_ends_star_one, holds_wordPart]
    rfl
  · rfl

/-- Digits are taken if there is one to begin with. -/
lemma head?_ends_digits (text : List Char) :
    (digits.ends ⟨before, text⟩).head? =
      if text.head?.any isDigit then some (text.takeWhile isDigit).length else none := by
  cases text with
  | nil =>
    rw [digits, Pattern.ends_seq, Pattern.ends_one_nil]
    rfl
  | cons c rest =>
    rw [digits, Pattern.ends_seq_one_cons, holds_digit, List.head?_cons, Option.any_some]
    by_cases hdigit : isDigit c = true
    · rw [if_pos hdigit, if_pos hdigit, List.head?_map, Pattern.head?_ends_star_one, holds_digit,
        List.takeWhile_cons_of_pos hdigit, List.length_cons, Nat.add_comm]
      rfl
    · rw [if_neg hdigit, if_neg hdigit]
      rfl

lemma ends_fraction_ne_nil (s : Pattern.Position) : fraction.ends s ≠ [] := by
  rw [fraction, Pattern.optional, if_pos rfl, Pattern.ends_alt, Pattern.ends_empty]
  exact List.append_ne_nil_of_right_ne_nil _ (List.cons_ne_nil 0 [])

/-- A fraction is taken if a digit follows the point. -/
lemma head?_ends_fraction (c : Char) (rest : List Char) :
    (fraction.ends ⟨before, c :: rest⟩).head? =
      some (if c == '.' && rest.head?.any isDigit then 1 + (rest.takeWhile isDigit).length
        else 0) := by
  rw [fraction, Pattern.optional, if_pos rfl, Pattern.head?_ends_alt, Pattern.char,
    Pattern.ends_seq_one_cons, Pattern.ends_empty, CharClass.single]
  have hpoint : CharClass.holds { items := [.range '.' '.'] } c = (c == '.') := by
    simp [CharClass.holds, ClassItem.holds, decide_le_and_le]
  rw [hpoint]
  cases c == '.' with
  | false => rfl
  | true =>
    rw [if_pos rfl, List.head?_map, head?_ends_digits, Bool.true_and]
    split <;> rfl

/-- What follows the first digit of a number. -/
lemma head?_ends_number (rest : List Char) :
    ((Pattern.seq (.star true (.one digit)) fraction).ends ⟨before, rest⟩).head? =
      some (split .wholeNumber rest).1.length := by
  have hdigits : ∀ (before : Option Char) (text : List Char),
      ((Pattern.seq (.star true (.one digit)) fraction).ends ⟨before, text⟩).head? =
        (fraction.ends ((Pattern.Position.mk before text).skip
          (text.takeWhile isDigit).length)).head?.map ((text.takeWhile isDigit).length + ·) := by
    intro before text
    rw [Pattern.head?_ends_seq ends_fraction_ne_nil, Pattern.head?_ends_star_one, holds_digit]
    rfl
  induction rest generalizing before with
  | nil =>
    rw [hdigits]
    rfl
  | cons c rest ih =>
    by_cases hdigit : isDigit c = true
    · have hextend : Reading.wholeNumber.extend c rest.head? = some .wholeNumber := if_pos hdigit
      have hrest := ih (some c)
      rw [hdigits, Option.map_eq_some_iff] at hrest
      obtain ⟨n, hn, hlength⟩ := hrest
      rw [hdigits, List.takeWhile_cons_of_pos hdigit, List.length_cons,
        Pattern.Position.skip_cons_succ, hn, split_cons_of_some hextend, List.length_cons,
        ← hlength]
      exact congrArg some (Nat.add_right_comm _ _ _)
    · have hextend : Reading.wholeNumber.extend c rest.head? =
          if c == '.' && rest.head?.any isDigit then some .fraction else none := if_neg hdigit
      rw [hdigits, List.takeWhile_cons_of_neg hdigit, List.length_nil, Pattern.Position.skip_zero,
        head?_ends_fraction]
      cases hpoint : c == '.' && rest.head?.any isDigit with
      | true =>
        rw [hpoint, if_pos rfl] at hextend
        rw [split_cons_of_some hextend, fst_split_fraction, List.length_cons, Nat.add_comm 1]
        exact congrArg some (Nat.zero_add _)
      | false =>
        rw [hpoint, if_neg Bool.false_ne_true] at hextend
        rw [split_cons_of_none hextend]
        rfl

/-- At a character that is not blank the preferred match is the token that begins there, and at a
blank there is none. -/
theorem head?_ends_pattern (c : Char) (rest : List Char) :
    (pattern.ends ⟨before, c :: rest⟩).head? =
      if isBlank c then none else some (1 + (split (.start c) rest).1.length) := by
  have hnumber : ((Pattern.seq digits fraction).ends ⟨before, c :: rest⟩).head? =
      if isDigit c then some (1 + (split .wholeNumber rest).1.length) else none := by
    rw [digits, Pattern.ends_seq_assoc, Pattern.ends_seq_one_cons, holds_digit]
    split
    · rw [List.head?_map, head?_ends_number]
      rfl
    · rfl
  have hsymbol : ((Pattern.one symbol).ends ⟨before, c :: rest⟩).head? =
      if isBlank c || isWordPart c then none else some 1 := by
    rw [Pattern.ends_one_cons, holds_symbol]
    cases isBlank c || isWordPart c <;> rfl
  rw [pattern, Pattern.head?_ends_alt, Pattern.head?_ends_alt, head?_ends_word, hnumber, hsymbol]
  by_cases hblank : isBlank c = true
  · have hpart := isWordPart_eq_false_of_isBlank hblank
    have hword : (isLetter c || c == '_') = false := by
      unfold isWordPart at hpart
      rw [Bool.or_eq_false_iff, Bool.or_eq_false_iff] at hpart
      rw [hpart.1.1, hpart.2]
      rfl
    simp [hword, hblank, isDigit_eq_false_of_isBlank hblank]
  · rw [if_neg hblank, Reading.start]
    -- the kinds of tokens in the order in which the pattern tries them
    by_cases hword : (isLetter c || c == '_') = true
    · rw [if_pos hword, if_pos hword, Option.some_or]
    · rw [if_neg hword, if_neg hword, Option.none_or]
      by_cases hdigit : isDigit c = true
      · rw [if_pos hdigit, if_pos hdigit, Option.some_or]
      · rw [if_neg hdigit, if_neg hdigit, Option.none_or, fst_split_closed]
        rw [Bool.not_eq_true] at hblank hword hdigit
        rw [hblank, isWordPart_eq_false hword hdigit]
        rfl

end Ends

/-- At a character that is not blank a match begins. -/
lemma ends_pattern_skip_ne_nil {text : List Char} {i : Nat} (h : i < text.length)
    (hblank : isBlank text[i] = false) :
    pattern.ends ((Pattern.Position.mk none text).skip i) ≠ [] := by
  have hrest := Pattern.Position.rest_skip ⟨none, text⟩ i
  generalize (Pattern.Position.mk none text).skip i = position at hrest ⊢
  obtain ⟨before, rest⟩ := position
  obtain rfl : rest = text[i] :: text.drop (i + 1) := hrest.trans (List.drop_eq_getElem_cons h)
  intro hnil
  have hends := head?_ends_pattern before text[i] (text.drop (i + 1))
  rw [hnil, hblank] at hends
  cases hends

lemma consumes_pattern : pattern.Consumes :=
  ((Pattern.consumes_one _).seq _).alt
    ((((Pattern.consumes_one _).seq _).seq _).alt (Pattern.consumes_one _))

/-! ## Tokens -/

/-- The parts that the pattern takes are the tokens. -/
lemma map_cut_spansFrom (skip : Nat) (before : Option Char) (text : List Char) :
    (pattern.spansFrom skip before text).map (Pattern.Span.cut text) = tokens (text.drop skip) := by
  induction text generalizing skip before with
  | nil =>
    rw [List.drop_nil]
    cases skip <;> rfl
  | cons c rest ih =>
    have hlater : ∀ skip', ((pattern.spansFrom skip' (some c) rest).map Pattern.Span.succ).map
        (Pattern.Span.cut (c :: rest)) = tokens (rest.drop skip') := by
      intro skip'
      rw [List.map_map, ← ih skip' (some c)]
      rfl
    cases skip with
    | succ skip => exact hlater skip
    | zero =>
      have hends := head?_ends_pattern before c rest
      rw [List.drop_zero]
      cases hblank : isBlank c with
      | true =>
        rw [hblank, if_pos rfl] at hends
        rw [Pattern.spansFrom_zero_cons_of_none hends, hlater, tokens_cons_of_isBlank hblank,
          List.drop_zero]
      | false =>
        rw [hblank, if_neg Bool.false_ne_true] at hends
        obtain ⟨hbegins, hbehind⟩ := split_spec (.start c) rest
        have hcut : Pattern.Span.cut (c :: rest) ⟨0, 1 + (split (.start c) rest).1.length⟩ =
            c :: (split (.start c) rest).1 := by
          rw [Pattern.Span.cut, List.drop_zero, Nat.add_comm, List.take_succ_cons,
            ← List.prefix_iff_eq_take.mp hbegins]
        rw [Pattern.spansFrom_zero_cons_of_some hends, List.map_cons, hlater, tokens_cons hblank,
          Nat.add_sub_cancel_left, hbehind, hcut]

/-- All characters of a text but its blanks are in the tokens, in order. -/
lemma append_flatten_split (reading : Reading) (text : List Char) :
    (split reading text).1 ++ (split reading text).2.flatten = text.filter (!isBlank ·) := by
  induction text generalizing reading with
  | nil => rfl
  | cons c rest ih =>
    cases hextend : reading.extend c rest.head? with
    | some next =>
      have hblank : isBlank c = false := by
        by_contra hblank
        rw [Bool.not_eq_false] at hblank
        rw [Reading.extend_of_isBlank hblank] at hextend
        cases hextend
      rw [split_cons_of_some hextend, List.filter_cons_of_pos (by simp [hblank]), ← ih next]
      rfl
    | none =>
      rw [split_cons_of_none hextend, List.nil_append]
      cases hblank : isBlank c with
      | true =>
        rw [tokens_cons_of_isBlank hblank, List.filter_cons_of_neg (by simp [hblank]),
          ← ih .closed, fst_split_closed]
        rfl
      | false =>
        rw [tokens_cons hblank, List.filter_cons_of_pos (by simp [hblank]), ← ih (.start c)]
        rfl

/-- A blank behind a text is the end of its last token. -/
lemma split_append_blank {blank : Char} (h : isBlank blank = true) (reading : Reading)
    (text behind : List Char) :
    split reading (text ++ blank :: behind) =
      ((split reading text).1, (split reading text).2 ++ tokens behind) := by
  induction text generalizing reading with
  | nil =>
    rw [List.nil_append, split_cons_of_none (Reading.extend_of_isBlank h _ _),
      tokens_cons_of_isBlank h]
    rfl
  | cons c rest ih =>
    have hahead : reading.extend c (rest ++ blank :: behind).head? =
        reading.extend c rest.head? := by
      cases rest with
      | cons d rest => rfl
      | nil =>
        have hdigit := isDigit_eq_false_of_isBlank h
        unfold Reading.extend
        simp [hdigit]
    rw [List.cons_append]
    cases hextend : reading.extend c rest.head? with
    | some next =>
      rw [split_cons_of_some (hahead.trans hextend), split_cons_of_some hextend, ih]
    | none =>
      rw [split_cons_of_none (hahead.trans hextend), split_cons_of_none hextend]
      cases hblank : isBlank c with
      | true =>
        rw [tokens_cons_of_isBlank hblank, tokens_cons_of_isBlank hblank, tokens, ih .closed]
        rfl
      | false =>
        rw [tokens_cons hblank, tokens_cons hblank, ih]
        rfl

end Token

/-! ## The law of tokens -/

/-- Nothing is left of a text exactly if it is blank. -/
lemma Characters.trim_eq_nil_iff {text : List Char} :
    trim text = [] ↔ ∀ c ∈ text, isBlank c = true := by
  unfold trim trimEnd
  rw [List.reverse_eq_nil_iff, List.dropWhile_eq_nil_iff]
  constructor
  · intro h c hc
    rw [← List.takeWhile_append_dropWhile (p := isBlank) (l := text), List.mem_append] at hc
    rcases hc with hfront | hrest
    · exact List.mem_takeWhile_imp hfront
    · exact h c (List.mem_reverse.mpr hrest)
  · intro h c hc
    exact h c ((List.dropWhile_suffix isBlank).subset (List.mem_reverse.mp hc))

section Tokens

/-- The tokens are the parts of the text that the pattern matches. -/
theorem tokens_eq_map_cut (text : List Char) :
    tokens text = (Token.pattern.spans text).map (Pattern.Span.cut text) :=
  (Token.map_cut_spansFrom 0 none text).symm

/-- A token is not empty. -/
lemma length_pos_of_mem_tokens {token text : List Char} (h : token ∈ tokens text) :
    0 < token.length := by
  rw [tokens_eq_map_cut] at h
  obtain ⟨span, hmem, rfl⟩ := List.mem_map.mp h
  rw [Pattern.Span.length_cut (Pattern.stop_le_length hmem)]
  exact Token.consumes_pattern.length_pos hmem

/-- The tokens hold all characters but the blanks. -/
theorem flatten_tokens (text : List Char) : (tokens text).flatten = text.filter (!isBlank ·) := by
  have hsplit := Token.append_flatten_split .closed text
  rwa [Token.fst_split_closed, List.nil_append] at hsplit

/-- There are no more tokens than characters that are not blank. -/
lemma tokenCount_le_countP (text : List Char) : tokenCount text ≤ text.countP (!isBlank ·) := by
  have hpos : ∀ n ∈ (tokens text).map List.length, 1 ≤ n := by
    intro n hn
    obtain ⟨token, htoken, rfl⟩ := List.mem_map.mp hn
    exact length_pos_of_mem_tokens htoken
  calc tokenCount text = ((tokens text).map List.length).length := (List.length_map _).symm
    _ ≤ ((tokens text).map List.length).sum := List.length_le_sum_of_one_le _ hpos
    _ = (tokens text).flatten.length := List.length_flatten.symm
    _ = text.countP (!isBlank ·) := by rw [flatten_tokens, List.countP_eq_length_filter]

/-- Blanks keep apart what stands on both sides. -/
theorem tokens_append {blanks : List Char} (hblanks : blanks ≠ [])
    (hall : ∀ c ∈ blanks, isBlank c = true) (text behind : List Char) :
    tokens (text ++ blanks ++ behind) = tokens text ++ tokens behind := by
  obtain ⟨blank, others, rfl⟩ := List.exists_cons_of_ne_nil hblanks
  obtain ⟨hfirst, hothers⟩ := List.forall_mem_cons.mp hall
  have hbehind : tokens (others ++ behind) = tokens behind := by
    clear hblanks hall
    induction others with
    | nil => rfl
    | cons c others ih =>
      obtain ⟨hc, hrest⟩ := List.forall_mem_cons.mp hothers
      rw [List.cons_append, tokens_cons_of_isBlank hc, ih hrest]
  rw [List.append_assoc, List.cons_append, tokens, Token.split_append_blank hfirst, hbehind]
  rfl

/-- Without a blank between them two numbers are read as three tokens. -/
example : tokens "1.23.4".toList = ["1.23".toList, ".".toList, "4".toList] := by
  decide

end Tokens

/-- The tokens of a text are what the pattern of a token matches, and what follows from it for
their number. -/
structure TokenLaw (text : List Char) : Prop where
  read_written : Pattern.read Token.written.toList = .ok Token.pattern
  tokenCount_eq : tokenCount text = Token.pattern.count text
  tokens_eq : tokens text = (Token.pattern.spans text).map (Pattern.Span.cut text)
  /-- The matches are parts of the text that are not empty, one behind the other. -/
  span_mem : ∀ span ∈ Token.pattern.spans text, 0 < span.length ∧ span.stop ≤ text.length
  span_pairwise : (Token.pattern.spans text).Pairwise fun a b => a.stop ≤ b.start
  /-- They contain no blank, and every other character. -/
  isBlank_eq_false : ∀ span ∈ Token.pattern.spans text, ∀ c ∈ span.cut text, isBlank c = false
  exists_span : ∀ (i : Nat) (h : i < text.length), isBlank text[i] = false →
    ∃ span ∈ Token.pattern.spans text, span.start ≤ i ∧ i < span.stop
  flatten_eq : (tokens text).flatten = text.filter (!isBlank ·)
  tokenCount_eq_zero_iff : tokenCount text = 0 ↔ trim text = []
  tokenCount_le : tokenCount text ≤ text.countP (!isBlank ·)
  /-- Blanks, but not less, keep apart the tokens on both sides. -/
  tokenCount_append : ∀ blanks behind : List Char, blanks ≠ [] → (∀ c ∈ blanks, isBlank c = true) →
    tokenCount (text ++ blanks ++ behind) = tokenCount text + tokenCount behind

/-- The tokens of every text follow the law. -/
theorem tokenLaw (text : List Char) : TokenLaw text where
  read_written := Token.read_written
  tokenCount_eq := by
    rw [tokenCount, tokens_eq_map_cut, List.length_map, Token.consumes_pattern.length_spans]
  tokens_eq := tokens_eq_map_cut text
  span_mem := fun span hmem =>
    ⟨Token.consumes_pattern.length_pos hmem, Pattern.stop_le_length hmem⟩
  span_pairwise := Pattern.spans_pairwise _ text
  isBlank_eq_false := by
    intro span hmem c hc
    have htoken : span.cut text ∈ tokens text := by
      rw [tokens_eq_map_cut]
      exact List.mem_map_of_mem hmem
    have hflatten : c ∈ (tokens text).flatten := List.mem_flatten_of_mem htoken hc
    rw [flatten_tokens, List.mem_filter, Bool.not_eq_true'] at hflatten
    exact hflatten.2
  exists_span := fun i h hblank =>
    Token.consumes_pattern.exists_mem_spans h (Token.ends_pattern_skip_ne_nil h hblank)
  flatten_eq := flatten_tokens text
  tokenCount_eq_zero_iff := by
    rw [tokenCount, List.length_eq_zero_iff, tokens_eq_nil_iff, trim_eq_nil_iff]
  tokenCount_le := tokenCount_le_countP text
  tokenCount_append := by
    intro blanks behind hblanks hall
    rw [tokenCount, tokens_append hblanks hall, List.length_append]
    rfl

end LanguageDetection
