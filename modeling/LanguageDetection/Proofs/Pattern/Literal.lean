import LanguageDetection.Proofs.Characters
import LanguageDetection.Proofs.Pattern.Count

/-!
# Texts found as they stand

Two kinds of patterns stand for a text itself: a literal, and a word by itself, which must not have
a word character on either side.  Both match at a position exactly if the text is met there
(`Finds`), so that counting them needs no search.  A literal is counted by going through the text
from left to right and behind each one that is met (`Finds.count_eq_scanCount`).  Words by
themselves do not overlap, so that all of them are counted (`Finds.count_eq_wordCount`).

No such text has a blank in it.  What stands on one side of blanks is therefore counted apart from
what stands on the other side (`Finds.count_append`).
-/

namespace LanguageDetection

open Characters

/-! ## Counting without patterns -/

/-- The number of times that `sequence` is met on the way through a text from left to right.  The
first `skip` characters belong to the one that was met last. -/
def scanFrom (sequence : List Char) : (skip : Nat) → List Char → Nat
  | _, [] => 0
  | skip + 1, _ :: rest => scanFrom sequence skip rest
  | 0, c :: rest =>
    if sequence.isPrefixOf (c :: rest) then scanFrom sequence (sequence.length - 1) rest + 1
    else scanFrom sequence 0 rest

/-- The number of times that `sequence` is met on the way through a text from left to right, where
the way goes on behind each one. -/
def scanCount (sequence text : List Char) : Nat :=
  scanFrom sequence 0 text

/-- Whether a word stands at an index of a text, with no word character in front of it or behind
it. -/
def standsAlone (word text : List Char) (i : Nat) : Bool :=
  word.isPrefixOf (text.drop i) && !isWordAt (text.take i).getLast? &&
    !isWordAt (text.drop (i + word.length)).head?

/-- The number of indices of a text at which a word stands alone. -/
def wordCount (word text : List Char) : Nat :=
  (List.range text.length).countP (standsAlone word text)

namespace Pattern

/-! ## Meeting a text -/

namespace Position

/-- Whether a text is met at a position; if it is to stand `alone`, there must be no word character
in front of it or behind it. -/
def meets (alone : Bool) (word : List Char) (s : Position) : Bool :=
  word.isPrefixOf s.rest &&
    (!alone || !isWordAt s.before && !isWordAt (s.rest.drop word.length).head?)

/-- In front of a position further on is the last of the characters skipped. -/
lemma before_skip (s : Position) (n : Nat) :
    (s.skip n).before = (s.rest.take n).getLast?.or s.before := by
  obtain ⟨before, rest⟩ := s
  induction rest generalizing before n with
  | nil => simp
  | cons c rest ih =>
    cases n with
    | zero => simp
    | succ n =>
      rw [skip_cons_succ, ih, List.take_succ_cons, List.getLast?_cons]
      cases (rest.take n).getLast? <;> rfl

/-- The position in a text that goes on behind its end. -/
def append (s : Position) (text : List Char) : Position where
  before := s.before
  rest := s.rest ++ text

/-- Text that is added behind is not reached by skipping what is in front of it. -/
lemma skip_append (s : Position) {n : Nat} (h : n ≤ s.rest.length) (text : List Char) :
    (s.append text).skip n = (s.skip n).append text := by
  obtain ⟨before, rest⟩ := s
  induction rest generalizing before n with
  | nil =>
    obtain rfl := Nat.le_zero.mp h
    rfl
  | cons c rest ih =>
    cases n with
    | zero => rfl
    | succ n => exact ih (some c) (Nat.le_of_succ_le_succ h)

end Position

/-- A pattern that matches a text where it is met, and nothing else. -/
def Finds (p : Pattern) (alone : Bool) (word : List Char) : Prop :=
  ∀ s : Position, p.ends s = if s.meets alone word then [word.length] else []

section Characters

variable {word : List Char} {s : Position}

/-- Patterns one after the other end where the others do, from an end of the first. -/
lemma ends_concat_cons (p : Pattern) (rest : List Pattern) (s : Position) :
    (concat (p :: rest)).ends s =
      (p.ends s).flatMap fun n => ((concat rest).ends (s.skip n)).map (n + ·) := by
  cases rest with
  | nil => simp [concat]
  | cons q rest => exact ends_seq p _ s

/-- A character ends behind itself. -/
lemma ends_char_cons (c : Char) (before : Option Char) (d : Char) (rest : List Char) :
    (char c).ends ⟨before, d :: rest⟩ = if c = d then [1] else [] := by
  have hholds : (CharClass.single c).holds d = true ↔ c = d := by
    simp only [CharClass.holds, CharClass.single, ClassItem.holds, List.any_cons, List.any_nil,
      Bool.or_false, Bool.bne_false, Bool.and_eq_true, decide_eq_true_eq, le_antisymm_iff (a := c)]
  rw [char, ends_one_cons]
  exact if_congr hholds rfl rfl

/-- The characters of a text match where it is met, and what follows them begins behind it. -/
lemma ends_concat_map_char_append (word : List Char) (rest : List Pattern) (s : Position) :
    (concat (word.map char ++ rest)).ends s =
      if word.isPrefixOf s.rest then
        ((concat rest).ends (s.skip word.length)).map (word.length + ·)
      else [] := by
  induction word generalizing s with
  | nil => simp
  | cons c word ih =>
    rw [List.map_cons, List.cons_append, ends_concat_cons]
    obtain ⟨before, _ | ⟨d, text⟩⟩ := s
    · rfl
    · rw [ends_char_cons]
      by_cases hcd : c = d
      · subst hcd
        rw [if_pos rfl, List.flatMap_singleton, ih, Position.skip_cons_succ, Position.skip_zero,
          List.length_cons, Position.skip_cons_succ]
        dsimp only
        by_cases hprefix : word.isPrefixOf text = true
        · rw [if_pos hprefix, if_pos (by simpa using hprefix), List.map_map]
          refine List.map_congr_left fun m _ => ?_
          change 1 + (word.length + m) = word.length + 1 + m
          omega
        · rw [if_neg hprefix, if_neg (by simpa using hprefix), List.map_nil]
      · rw [if_neg hcd, List.flatMap_nil, if_neg (by simp [hcd])]

/-- A literal finds its text. -/
theorem finds_literal (text : List Char) : (literal text).Finds false text := by
  intro s
  have hends := ends_concat_map_char_append text [] s
  rw [List.append_nil] at hends
  rw [literal, hends]
  simp [Position.meets, concat]

/-- A word by itself finds the word where it stands alone. -/
theorem finds_wholeWord (hne : word ≠ []) (hword : ∀ c ∈ word, isWord c = true) :
    (wholeWord word).Finds true word := by
  intro s
  have hhead : isWordAt word.head? = true := by
    rw [List.head?_eq_some_head hne]
    exact hword _ (List.head_mem hne)
  have hlast : isWordAt word.getLast? = true := by
    rw [List.getLast?_eq_some_getLast hne]
    exact hword _ (List.getLast_mem hne)
  have hpattern : wholeWord word =
      concat (anchor .wordBoundary :: (word.map char ++ [anchor .wordBoundary])) := by
    unfold wholeWord
    simp [hhead, hlast]
  rw [hpattern, ends_concat_cons, ends_anchor]
  by_cases hprefix : word.isPrefixOf s.rest = true
  · -- the two boundaries are in front of the word and behind it
    obtain ⟨behind, hrest⟩ := List.isPrefixOf_iff_prefix.mp hprefix
    have hstart : isWordAt s.rest.head? = true := by
      rw [← hrest, List.head?_append_of_ne_nil _ hne]
      exact hhead
    have hend : isWordAt (s.skip word.length).before = true := by
      rw [Position.before_skip, ← hrest, List.take_left, List.getLast?_eq_some_getLast hne]
      exact hword _ (List.getLast_mem hne)
    have hinner : (concat (word.map char ++ [anchor .wordBoundary])).ends s =
        if isWordAt (s.rest.drop word.length).head? then [] else [word.length] := by
      rw [ends_concat_map_char_append, if_pos hprefix]
      change ((anchor _).ends _).map _ = _
      rw [ends_anchor, Anchor.holds, hend, Position.rest_skip]
      cases isWordAt (s.rest.drop word.length).head? <;> rfl
    unfold Position.meets
    rw [Anchor.holds, hstart, hprefix]
    cases isWordAt s.before with
    | true => simp
    | false =>
      simp only [Bool.false_bne, if_true, List.flatMap_singleton, Position.skip_zero, hinner]
      cases isWordAt (s.rest.drop word.length).head? <;> simp
  · rw [Position.meets, Bool.not_eq_true _ |>.mp hprefix]
    split
    · rw [List.flatMap_singleton, Position.skip_zero, ends_concat_map_char_append, if_neg hprefix]
      rfl
    · rfl

end Characters

/-! ## Counting -/

namespace Finds

variable {p : Pattern} {alone : Bool} {word : List Char} (h : p.Finds alone word) (hne : word ≠ [])

include h hne

/-- A text that is not empty is never found without consuming something. -/
lemma consumes : p.Consumes := by
  intro s hzero
  rw [h s] at hzero
  split at hzero
  · rw [List.mem_singleton] at hzero
    exact hne (List.length_eq_zero_iff.mp hzero.symm)
  · exact List.not_mem_nil hzero

/-- A text that is met is counted, and the count goes on behind it. -/
lemma tally_of_meets {s : Position} (hmeets : s.meets alone word = true) :
    p.tally s = p.tally (s.skip word.length) + 1 := by
  have hends : p.ends s = [word.length] := by
    rw [h, if_pos hmeets]
  apply tally_of_search_eq_some (h.consumes hne)
  rw [search_eq_head?_starts]
  obtain ⟨before, _ | ⟨c, rest⟩⟩ := s
  · rw [starts_nil, hends]
    rfl
  · rw [starts_cons, hends]
    rfl

/-- Otherwise the count goes on with the next character. -/
lemma tally_cons_of_not_meets {before : Option Char} {c : Char} {rest : List Char}
    (hmeets : ¬ Position.meets alone word ⟨before, c :: rest⟩ = true) :
    p.tally ⟨before, c :: rest⟩ = p.tally ⟨some c, rest⟩ := by
  apply tally_cons_of_ends_eq_nil (h.consumes hne)
  rw [h, if_neg hmeets]

/-! ### One after another -/

omit h hne in
/-- Characters that belong to the last text that was met are passed over. -/
lemma scanFrom_eq_scanFrom_drop (sequence : List Char) (skip : Nat) (text : List Char) :
    scanFrom sequence skip text = scanFrom sequence 0 (text.drop skip) := by
  induction text generalizing skip with
  | nil => simp [scanFrom]
  | cons c rest ih =>
    cases skip with
    | zero => rfl
    | succ skip => exact ih skip

/-- A text that need not stand alone is counted as by going through the text. -/
lemma tally_eq_scanFrom (halone : alone = false) (s : Position) :
    p.tally s = scanFrom word 0 s.rest := by
  subst halone
  induction hlength : s.rest.length using Nat.strongRecOn generalizing s with
  | _ length ih =>
    obtain ⟨before, _ | ⟨c, rest⟩⟩ := s
    · exact (h.consumes hne).tally_nil before
    · have hmeets : Position.meets false word ⟨before, c :: rest⟩ =
          word.isPrefixOf (c :: rest) := by
        simp [Position.meets]
      by_cases hprefix : word.isPrefixOf (c :: rest) = true
      · obtain ⟨n, hn⟩ := Nat.exists_eq_add_one.mpr (List.length_pos_iff.mpr hne)
        have hless : ((Position.mk before (c :: rest)).skip word.length).rest.length < length := by
          rw [Position.rest_skip, List.length_drop, ← hlength]
          dsimp only [List.length_cons]
          omega
        rw [h.tally_of_meets hne (hmeets.trans hprefix), ih _ hless _ rfl, Position.rest_skip,
          scanFrom, if_pos hprefix, scanFrom_eq_scanFrom_drop word (word.length - 1), hn]
        rfl
      · have hless : rest.length < length := by
          rw [← hlength]
          exact Nat.lt_succ_self _
        rw [h.tally_cons_of_not_meets hne (by rwa [hmeets]), ih _ hless _ rfl, scanFrom,
          if_neg hprefix]

/-- A text that need not stand alone is counted as by going through the text. -/
theorem count_eq_scanCount (halone : alone = false) (text : List Char) :
    p.count text = scanCount word text :=
  h.tally_eq_scanFrom hne halone ⟨none, text⟩

/-! ### All at once -/

omit h hne in
/-- The first of some numbers is counted apart from the others. -/
lemma countP_range_succ (f : Nat → Bool) (n : Nat) :
    (List.range (n + 1)).countP f =
      (List.range n).countP (fun i => f (i + 1)) + if f 0 then 1 else 0 := by
  rw [List.range_succ_eq_map, List.countP_cons, List.countP_map]
  rfl

omit h hne in
/-- Inside a word no other stands alone, because there is a character of the word in front of it. -/
lemma not_meets_skip (hword : ∀ c ∈ word, isWord c = true) {s : Position}
    (hmeets : s.meets true word = true) {i : Nat} (hi : i < word.length - 1) :
    (s.skip (i + 1)).meets true word = false := by
  rw [Position.meets, Bool.and_eq_true] at hmeets
  obtain ⟨behind, hrest⟩ := List.isPrefixOf_iff_prefix.mp hmeets.1
  have hne : word.take (i + 1) ≠ [] := by
    rw [Ne, List.take_eq_nil_iff]
    rintro (hzero | rfl)
    · omega
    · exact Nat.not_lt_zero i hi
  have hbefore : isWordAt (s.skip (i + 1)).before = true := by
    rw [Position.before_skip, ← hrest, List.take_append_of_le_length (by omega),
      List.getLast?_eq_some_getLast hne]
    exact hword _ (List.mem_of_mem_take (List.getLast_mem hne))
  simp [Position.meets, hbefore]

/-- Words that stand alone are counted at all positions. -/
lemma tally_eq_countP (halone : alone = true) (hword : ∀ c ∈ word, isWord c = true)
    (s : Position) :
    p.tally s = (List.range s.rest.length).countP fun i => (s.skip i).meets true word := by
  subst halone
  induction hlength : s.rest.length using Nat.strongRecOn generalizing s with
  | _ length ih =>
    obtain ⟨before, _ | ⟨c, rest⟩⟩ := s
    · subst hlength
      exact (h.consumes hne).tally_nil before
    · by_cases hmeets : Position.meets true word ⟨before, c :: rest⟩ = true
      · obtain ⟨n, hn⟩ := Nat.exists_eq_add_one.mpr (List.length_pos_iff.mpr hne)
        have hle : word.length ≤ length := by
          rw [Position.meets, Bool.and_eq_true] at hmeets
          rw [← hlength]
          exact (List.isPrefixOf_iff_prefix.mp hmeets.1).length_le
        obtain ⟨m, hm⟩ := Nat.exists_eq_add_of_le hle
        have hbehind : ((Position.mk before (c :: rest)).skip word.length).rest.length = m := by
          rw [Position.rest_skip, List.length_drop, hlength]
          omega
        have hinside : (List.range word.length).countP
            (fun i => ((Position.mk before (c :: rest)).skip i).meets true word) = 1 := by
          rw [hn, countP_range_succ, Position.skip_zero, if_pos hmeets, List.countP_eq_zero.mpr]
          intro i hi
          rw [List.mem_range] at hi
          rw [not_meets_skip hword hmeets (by omega)]
          exact Bool.false_ne_true
        rw [h.tally_of_meets hne hmeets, ih m (by omega) _ hbehind, hm, List.range_add,
          List.countP_append, hinside, List.countP_map, Nat.add_comm]
        congr 1
        refine List.countP_congr fun i _ => ?_
        rw [Position.skip_skip]
        rfl
      · subst hlength
        rw [h.tally_cons_of_not_meets hne hmeets, ih rest.length (Nat.lt_succ_self _) _ rfl,
          List.length_cons, countP_range_succ, Position.skip_zero, if_neg hmeets]
        rfl

/-- Words that stand alone are all counted. -/
theorem count_eq_wordCount (halone : alone = true) (hword : ∀ c ∈ word, isWord c = true)
    (text : List Char) : p.count text = wordCount word text := by
  have htally := h.tally_eq_countP hne halone hword ⟨none, text⟩
  refine htally.trans (List.countP_congr fun i _ => ?_)
  rw [Position.meets, standsAlone, Position.before_skip, Position.rest_skip, List.drop_drop,
    Option.or_none, Bool.not_true, Bool.false_or, Bool.and_assoc]

end Finds

/-! ## On both sides of blanks -/

section Blanks

variable {alone : Bool} {word : List Char} (hblank : ∀ c ∈ word, isBlank c = false)

include hblank

/-- A text without blanks does not reach behind a blank. -/
lemma isPrefixOf_append_blank {c : Char} (hc : isBlank c = true) (text behind : List Char) :
    word.isPrefixOf (text ++ c :: behind) = word.isPrefixOf text := by
  rw [Bool.eq_iff_iff, List.isPrefixOf_iff_prefix, List.isPrefixOf_iff_prefix]
  constructor
  · intro hprefix
    rcases List.prefix_or_prefix_of_prefix hprefix (List.prefix_append text (c :: behind)) with
      hshort | ⟨more, hmore⟩
    · exact hshort
    · rw [← hmore, List.prefix_append_right_inj] at hprefix
      cases more with
      | nil =>
        rw [List.append_nil] at hmore
        subst hmore
        exact List.prefix_rfl
      | cons d more =>
        obtain ⟨rfl, -⟩ := List.cons_prefix_cons.mp hprefix
        have hd := hblank d (hmore ▸ List.mem_append_right text List.mem_cons_self)
        rw [hc] at hd
        exact absurd hd.symm Bool.false_ne_true
  · exact fun hprefix => hprefix.trans (List.prefix_append text _)

/-- Whether a text is met does not depend on what stands behind a blank. -/
lemma meets_append_blank {c : Char} (hc : isBlank c = true) (before : Option Char)
    (text behind : List Char) :
    Position.meets alone word ⟨before, text ++ c :: behind⟩ =
      Position.meets alone word ⟨before, text⟩ := by
  unfold Position.meets
  dsimp only
  rw [isPrefixOf_append_blank hblank hc]
  by_cases hprefix : word.isPrefixOf text = true
  · have hlength := (List.isPrefixOf_iff_prefix.mp hprefix).length_le
    rw [List.drop_append_of_le_length hlength]
    cases text.drop word.length with
    | cons d rest => rfl
    | nil =>
      have hbehind : isWordAt (c :: behind).head? = isWordAt ([] : List Char).head? :=
        isWord_eq_false_of_isBlank hc
      rw [List.nil_append, hbehind]
  · rw [Bool.not_eq_true _ |>.mp hprefix, Bool.false_and, Bool.false_and]

end Blanks

namespace Finds

variable {p : Pattern} {alone : Bool} {word : List Char} (h : p.Finds alone word) (hne : word ≠ [])

include h hne

/-- Of the character in front of a position it only matters whether it is a word character. -/
lemma tally_congr {before before' : Option Char} (hbefore : isWordAt before = isWordAt before')
    (text : List Char) : p.tally ⟨before, text⟩ = p.tally ⟨before', text⟩ := by
  cases text with
  | nil => rw [(h.consumes hne).tally_nil, (h.consumes hne).tally_nil]
  | cons c rest =>
    have hsame : Position.meets alone word ⟨before, c :: rest⟩ =
        Position.meets alone word ⟨before', c :: rest⟩ := by
      unfold Position.meets
      dsimp only
      rw [hbefore]
    by_cases hmeets : Position.meets alone word ⟨before, c :: rest⟩ = true
    · obtain ⟨n, hn⟩ := Nat.exists_eq_add_one.mpr (List.length_pos_iff.mpr hne)
      have hskip : (Position.mk before (c :: rest)).skip word.length =
          (Position.mk before' (c :: rest)).skip word.length := by
        rw [hn, Position.skip_cons_succ, Position.skip_cons_succ]
      rw [h.tally_of_meets hne hmeets, h.tally_of_meets hne (hsame.symm.trans hmeets), hskip]
    · rw [h.tally_cons_of_not_meets hne hmeets, h.tally_cons_of_not_meets hne (by rwa [← hsame])]

variable (hblank : ∀ c ∈ word, isBlank c = false)

include hblank

/-- Blanks in front of a text are passed over. -/
lemma tally_blanks_append {blanks : List Char} (hblanks : blanks ≠ [])
    (hall : ∀ c ∈ blanks, isBlank c = true) (before : Option Char) (text : List Char) :
    p.tally ⟨before, blanks ++ text⟩ = p.tally ⟨none, text⟩ := by
  induction blanks generalizing before with
  | nil => exact absurd rfl hblanks
  | cons c blanks ih =>
    obtain ⟨hc, hrest⟩ := List.forall_mem_cons.mp hall
    have hmeets : ¬ Position.meets alone word ⟨before, c :: (blanks ++ text)⟩ = true := by
      have hsame : Position.meets alone word ⟨before, [] ++ c :: (blanks ++ text)⟩ =
          Position.meets alone word ⟨before, []⟩ :=
        meets_append_blank hblank hc before [] (blanks ++ text)
      rw [List.nil_append] at hsame
      rw [hsame, Position.meets]
      cases word with
      | nil => exact absurd rfl hne
      | cons d word => exact Bool.false_ne_true
    rw [List.cons_append, h.tally_cons_of_not_meets hne hmeets]
    by_cases hnil : blanks = []
    · rw [hnil, List.nil_append]
      have hbefore : isWordAt (some c) = isWordAt none := isWord_eq_false_of_isBlank hc
      exact h.tally_congr hne hbefore text
    · exact ih hnil hrest (some c)

/-- What stands in front of blanks is counted apart from what stands behind them. -/
lemma tally_append {blanks : List Char} (hblanks : blanks ≠ [])
    (hall : ∀ c ∈ blanks, isBlank c = true) (s : Position) (behind : List Char) :
    p.tally (s.append (blanks ++ behind)) = p.tally s + p.tally ⟨none, behind⟩ := by
  obtain ⟨blank, blanks, rfl⟩ := List.exists_cons_of_ne_nil hblanks
  obtain ⟨hfirst, -⟩ := List.forall_mem_cons.mp hall
  induction hlength : s.rest.length using Nat.strongRecOn generalizing s with
  | _ length ih =>
    obtain ⟨before, _ | ⟨c, rest⟩⟩ := s
    · rw [(h.consumes hne).tally_nil, Nat.zero_add]
      exact h.tally_blanks_append hne hblank hblanks hall before behind
    · have hsame : Position.meets alone word
          ((Position.mk before (c :: rest)).append (blank :: blanks ++ behind)) =
            Position.meets alone word ⟨before, c :: rest⟩ :=
        meets_append_blank hblank hfirst before (c :: rest) (blanks ++ behind)
      by_cases hmeets : Position.meets alone word ⟨before, c :: rest⟩ = true
      · have hle : word.length ≤ (c :: rest).length := by
          rw [Position.meets, Bool.and_eq_true] at hmeets
          exact (List.isPrefixOf_iff_prefix.mp hmeets.1).length_le
        have hless : ((Position.mk before (c :: rest)).skip word.length).rest.length < length := by
          have hpos := List.length_pos_iff.mpr hne
          rw [Position.rest_skip, List.length_drop, ← hlength]
          exact Nat.sub_lt_self hpos hle
        rw [h.tally_of_meets hne hmeets, h.tally_of_meets hne (hsame.trans hmeets),
          Position.skip_append _ hle, ih _ hless _ rfl, Nat.add_right_comm]
      · have hless : rest.length < length := by
          rw [← hlength]
          exact Nat.lt_succ_self _
        rw [h.tally_cons_of_not_meets hne hmeets, ← ih _ hless ⟨some c, rest⟩ rfl]
        apply h.tally_cons_of_not_meets hne
        rw [← hsame] at hmeets
        exact hmeets

/-- What stands in front of blanks is counted apart from what stands behind them. -/
theorem count_append {blanks : List Char} (hblanks : blanks ≠ [])
    (hall : ∀ c ∈ blanks, isBlank c = true) (text behind : List Char) :
    p.count (text ++ blanks ++ behind) = p.count text + p.count behind := by
  rw [List.append_assoc]
  exact h.tally_append hne hblank hblanks hall ⟨none, text⟩ behind

end Finds

end Pattern

end LanguageDetection
