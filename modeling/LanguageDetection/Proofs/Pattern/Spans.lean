import LanguageDetection.Proofs.Pattern.Count

/-!
# The parts of a text that a pattern matches

Counting says how many matches there are, and `Pattern.spans` says where.  At each position that
the match before has not taken yet, the preferred match is taken if one begins there, which is the
first of the ends of the pattern.

The parts taken do not overlap (`spans_pairwise`).  If the pattern consumes something, there are as
many of them as it counts (`Consumes.length_spans`), and no match begins outside of them
(`Consumes.exists_mem_spans`).
-/

namespace LanguageDetection.Pattern

/-- A part of a text: `length` characters, the first one being at the index `start`. -/
structure Span where
  start : Nat
  length : Nat

namespace Span

/-- The index behind the part. -/
def stop (span : Span) : Nat := span.start + span.length

/-- The characters of the part. -/
def cut (text : List Char) (span : Span) : List Char := (text.drop span.start).take span.length

/-- The same part of a text with one more character in front. -/
def succ (span : Span) : Span := { span with start := span.start + 1 }

@[simp] lemma start_succ (span : Span) : span.succ.start = span.start + 1 := rfl

@[simp] lemma stop_succ (span : Span) : span.succ.stop = span.stop + 1 :=
  Nat.add_right_comm _ _ _

/-- In a text that is long enough a part has its length. -/
lemma length_cut {span : Span} {text : List Char} (h : span.stop ≤ text.length) :
    (span.cut text).length = span.length := by
  unfold stop at h
  rw [cut, List.length_take, List.length_drop]
  omega

end Span

/-! ## Preferred matches -/

/-- The preferred match of a choice is that of the first pattern that has one. -/
lemma head?_ends_alt (p q : Pattern) (s : Position) :
    ((alt p q).ends s).head? = (p.ends s).head?.or (q.ends s).head? := by
  rw [ends_alt, List.head?_append]

/-- A character of a class goes in front of what follows it. -/
lemma ends_seq_one_cons (cls : CharClass) (q : Pattern) (before : Option Char) (c : Char)
    (rest : List Char) :
    (seq (one cls) q).ends ⟨before, c :: rest⟩ =
      if cls.holds c then (q.ends ⟨some c, rest⟩).map (1 + ·) else [] := by
  rw [ends_seq, ends_one_cons]
  split
  · rw [List.flatMap_singleton, Position.skip_cons_succ, Position.skip_zero]
  · rfl

/-- If the second part of a sequence never fails, the first one is preferred by itself. -/
lemma head?_ends_seq {p q : Pattern} (hq : ∀ s, q.ends s ≠ []) (s : Position) :
    ((seq p q).ends s).head? =
      (p.ends s).head?.bind fun n => (q.ends (s.skip n)).head?.map (n + ·) := by
  rw [ends_seq]
  cases p.ends s with
  | nil => rfl
  | cons n others =>
    have hne : (q.ends (s.skip n)).map (n + ·) ≠ [] := by
      rw [Ne, List.map_eq_nil_iff]
      exact hq _
    rw [List.flatMap_cons, List.head?_append_of_ne_nil _ hne, List.head?_map]
    rfl

/-- Greed takes all the characters of a class that there are. -/
lemma head?_ends_star_one (cls : CharClass) (before : Option Char) (text : List Char) :
    ((star true (one cls)).ends ⟨before, text⟩).head? =
      some (text.takeWhile cls.holds).length := by
  induction text generalizing before with
  | nil => rw [ends_star, if_pos rfl, roundEnds, ends_one_nil]; rfl
  | cons c rest ih =>
    rw [ends_star, if_pos rfl, roundEnds, ends_one_cons]
    by_cases hholds : cls.holds c = true
    · have hround : [1].filter (0 < ·) = [1] := rfl
      rw [if_pos hholds, hround, List.flatMap_singleton, Position.skip_cons_succ,
        Position.skip_zero, List.head?_append, List.head?_map, ih,
        List.takeWhile_cons_of_pos hholds]
      simp [Nat.add_comm]
    · rw [if_neg hholds, List.takeWhile_cons_of_neg hholds]
      rfl

/-- Sequences can be taken together in any way. -/
lemma ends_seq_assoc (p q r : Pattern) (s : Position) :
    (seq (seq p q) r).ends s = (seq p (seq q r)).ends s := by
  rw [ends_seq, ends_seq, List.flatMap_assoc, ends_seq p]
  refine List.flatMap_congr fun n _ => ?_
  rw [List.flatMap_map, ends_seq, List.map_flatMap]
  refine List.flatMap_congr fun m _ => ?_
  rw [Position.skip_skip, List.map_map]
  exact List.map_congr_left fun k _ => Nat.add_assoc n m k

/-! ## Patterns that consume something -/

/-- A class consumes a character. -/
lemma consumes_one (cls : CharClass) : (one cls).Consumes := by
  intro s hzero
  obtain ⟨-, -, -, -, hone⟩ := mem_ends_one.mp hzero
  exact absurd hone (by decide)

/-- A sequence consumes what its first part does. -/
lemma Consumes.seq {p : Pattern} (h : p.Consumes) (q : Pattern) : (seq p q).Consumes := by
  intro s hzero
  obtain ⟨k, hk, m, -, hsum⟩ := mem_ends_seq.mp hzero
  obtain rfl := Nat.eq_zero_of_add_eq_zero_right hsum
  exact h s hk

/-- Two alternatives consume something if both do. -/
lemma Consumes.alt {p q : Pattern} (hp : p.Consumes) (hq : q.Consumes) : (alt p q).Consumes := by
  intro s hzero
  exact (mem_ends_alt.mp hzero).elim (hp s) (hq s)

/-! ## Parts -/

/-- The parts taken from a position on, the first `skip` characters being taken already. -/
def spansFrom (p : Pattern) : (skip : Nat) → Option Char → List Char → List Span
  | _, _, [] => []
  | skip + 1, _, c :: rest => (spansFrom p skip (some c) rest).map Span.succ
  | 0, before, c :: rest =>
    match (p.ends ⟨before, c :: rest⟩).head? with
    | none => (spansFrom p 0 (some c) rest).map Span.succ
    | some length => ⟨0, length⟩ :: (spansFrom p (length - 1) (some c) rest).map Span.succ

/-- The parts of a text that the pattern matches, taken from the left without overlap. -/
def spans (p : Pattern) (text : List Char) : List Span :=
  p.spansFrom 0 none text

section Steps

variable {p : Pattern} {before : Option Char} {c : Char} {rest : List Char}

/-- A character inside a match begins none. -/
lemma spansFrom_succ_cons (skip : Nat) :
    p.spansFrom (skip + 1) before (c :: rest) = (p.spansFrom skip (some c) rest).map Span.succ :=
  rfl

/-- Where nothing matches, the matches are those further on. -/
lemma spansFrom_zero_cons_of_none (h : (p.ends ⟨before, c :: rest⟩).head? = none) :
    p.spansFrom 0 before (c :: rest) = (p.spansFrom 0 (some c) rest).map Span.succ := by
  rw [spansFrom, h]

/-- Where something matches, the other matches are behind it. -/
lemma spansFrom_zero_cons_of_some {n : Nat} (h : (p.ends ⟨before, c :: rest⟩).head? = some n) :
    p.spansFrom 0 before (c :: rest) =
      ⟨0, n⟩ :: (p.spansFrom (n - 1) (some c) rest).map Span.succ := by
  rw [spansFrom, h]

end Steps

variable {p : Pattern}

/-! ## Where the parts lie -/

/-- Each part is the preferred match at its start, and nothing is taken twice. -/
lemma spec_of_mem_spansFrom {skip : Nat} {before : Option Char} {text : List Char} {span : Span}
    (h : span ∈ p.spansFrom skip before text) :
    skip ≤ span.start ∧ span.start < text.length ∧
      (p.ends ((Position.mk before text).skip span.start)).head? = some span.length := by
  induction text generalizing skip before span with
  | nil => cases h
  | cons c rest ih =>
    have hlater : ∀ {skip' : Nat}, span ∈ (p.spansFrom skip' (some c) rest).map Span.succ →
        skip' + 1 ≤ span.start ∧ span.start < (c :: rest).length ∧
          (p.ends ((Position.mk before (c :: rest)).skip span.start)).head? =
            some span.length := by
      intro skip' hmem
      obtain ⟨later, hmem', rfl⟩ := List.mem_map.mp hmem
      obtain ⟨hskip, hlt, hends⟩ := ih hmem'
      exact ⟨Nat.succ_le_succ hskip, Nat.succ_lt_succ hlt, hends⟩
    cases skip with
    | succ skip => exact hlater h
    | zero =>
      cases hends : (p.ends ⟨before, c :: rest⟩).head? with
      | none =>
        rw [spansFrom_zero_cons_of_none hends] at h
        exact ⟨Nat.zero_le _, (hlater h).2⟩
      | some n =>
        rw [spansFrom_zero_cons_of_some hends] at h
        rcases List.mem_cons.mp h with rfl | hmem
        · exact ⟨Nat.zero_le _, Nat.succ_pos _, hends⟩
        · exact ⟨Nat.zero_le _, (hlater hmem).2⟩

/-- A part does not reach behind the end of the text. -/
lemma stop_le_length {text : List Char} {span : Span} (h : span ∈ p.spans text) :
    span.stop ≤ text.length := by
  obtain ⟨-, hlt, hends⟩ := spec_of_mem_spansFrom h
  have hle := le_length_of_mem_ends (List.mem_of_mem_head? hends)
  rw [Position.rest_skip, List.length_drop] at hle
  change span.start + span.length ≤ _
  dsimp only at hle
  omega

/-- Each match ends in front of the next one. -/
lemma spansFrom_pairwise (skip : Nat) (before : Option Char) (text : List Char) :
    (p.spansFrom skip before text).Pairwise fun a b => a.stop ≤ b.start := by
  induction text generalizing skip before with
  | nil => exact List.Pairwise.nil
  | cons c rest ih =>
    have hlater : ∀ skip', ((p.spansFrom skip' (some c) rest).map Span.succ).Pairwise
        fun a b => a.stop ≤ b.start := by
      intro skip'
      refine List.pairwise_map.mpr ((ih skip' (some c)).imp fun {a b} hle => ?_)
      rw [Span.stop_succ, Span.start_succ]
      exact Nat.succ_le_succ hle
    cases skip with
    | succ skip => exact hlater skip
    | zero =>
      cases hends : (p.ends ⟨before, c :: rest⟩).head? with
      | none =>
        rw [spansFrom_zero_cons_of_none hends]
        exact hlater 0
      | some n =>
        rw [spansFrom_zero_cons_of_some hends]
        refine List.pairwise_cons.mpr ⟨fun b hb => ?_, hlater _⟩
        obtain ⟨later, hmem, rfl⟩ := List.mem_map.mp hb
        have hskip := (spec_of_mem_spansFrom hmem).1
        change 0 + n ≤ later.start + 1
        omega

/-- The parts do not overlap. -/
theorem spans_pairwise (p : Pattern) (text : List Char) :
    (p.spans text).Pairwise fun a b => a.stop ≤ b.start :=
  spansFrom_pairwise 0 none text

/-! ## How many there are -/

section Consuming

variable (hconsumes : p.Consumes)

include hconsumes

/-- No part is empty. -/
lemma Consumes.length_pos {text : List Char} {span : Span} (h : span ∈ p.spans text) :
    0 < span.length := by
  obtain ⟨-, -, hends⟩ := spec_of_mem_spansFrom h
  refine Nat.pos_of_ne_zero fun hzero => ?_
  rw [hzero] at hends
  exact hconsumes _ (List.mem_of_mem_head? hends)

/-- There are as many matches as are counted. -/
lemma Consumes.length_spansFrom (skip : Nat) (before : Option Char) (text : List Char) :
    (p.spansFrom skip before text).length = p.tally ((Position.mk before text).skip skip) := by
  induction text generalizing skip before with
  | nil =>
    rw [Position.skip_nil, hconsumes.tally_nil]
    cases skip <;> rfl
  | cons c rest ih =>
    cases skip with
    | succ skip => rw [spansFrom_succ_cons, List.length_map, ih, Position.skip_cons_succ]
    | zero =>
      rw [Position.skip_zero]
      cases hends : (p.ends ⟨before, c :: rest⟩).head? with
      | none =>
        rw [spansFrom_zero_cons_of_none hends, List.length_map, ih, Position.skip_zero,
          tally_cons_of_ends_eq_nil hconsumes (List.head?_eq_none_iff.mp hends)]
      | some n =>
        have hsearch : search p before (c :: rest) = some n := by
          rw [search_eq_head?_starts p ⟨before, c :: rest⟩, starts_cons, List.head?_append, hends,
            Option.some_or]
        obtain ⟨m, rfl⟩ := Nat.exists_eq_add_one.mpr
          (hconsumes.pos_of_search (s := ⟨before, c :: rest⟩) hsearch)
        rw [spansFrom_zero_cons_of_some hends, List.length_cons, List.length_map, ih,
          tally_of_search_eq_some (s := ⟨before, c :: rest⟩) hconsumes hsearch,
          Position.skip_cons_succ, Nat.add_sub_cancel]

/-- There are as many parts as the pattern counts. -/
theorem Consumes.length_spans (text : List Char) : (p.spans text).length = p.count text :=
  hconsumes.length_spansFrom 0 none text

/-- Where a pattern matches, one of its spans covers the place. -/
lemma Consumes.exists_mem_spansFrom {skip : Nat} {before : Option Char} {text : List Char}
    {k : Nat} (hskip : skip ≤ k) (hlt : k < text.length)
    (hends : p.ends ((Position.mk before text).skip k) ≠ []) :
    ∃ span ∈ p.spansFrom skip before text, span.start ≤ k ∧ k < span.stop := by
  induction text generalizing skip before k with
  | nil => exact absurd hlt (Nat.not_lt_zero k)
  | cons c rest ih =>
    -- a part of the rest of the text is one of the text
    have hlater : ∀ skip', skip' + 1 ≤ k →
        ∃ span ∈ (p.spansFrom skip' (some c) rest).map Span.succ,
          span.start ≤ k ∧ k < span.stop := by
      intro skip' hskip'
      obtain ⟨k, rfl⟩ : ∃ k', k = k' + 1 := ⟨k - 1, by omega⟩
      obtain ⟨span, hmem, hstart, hstop⟩ :=
        ih (Nat.le_of_succ_le_succ hskip') (Nat.lt_of_succ_lt_succ hlt) hends
      exact ⟨span.succ, List.mem_map_of_mem hmem, Nat.succ_le_succ hstart, by
        rw [Span.stop_succ]
        exact Nat.succ_lt_succ hstop⟩
    cases skip with
    | succ skip => exact hlater skip hskip
    | zero =>
      cases hfirst : (p.ends ⟨before, c :: rest⟩).head? with
      | none =>
        rw [spansFrom_zero_cons_of_none hfirst]
        refine hlater 0 (Nat.pos_of_ne_zero fun hzero => hends ?_)
        rw [hzero, Position.skip_zero]
        exact List.head?_eq_none_iff.mp hfirst
      | some n =>
        rw [spansFrom_zero_cons_of_some hfirst]
        by_cases hinside : k < n
        · exact ⟨⟨0, n⟩, List.mem_cons_self, Nat.zero_le k, by simpa [Span.stop] using hinside⟩
        · have hpos : n ≠ 0 := by
            rintro rfl
            exact hconsumes _ (List.mem_of_mem_head? hfirst)
          obtain ⟨span, hmem, hspan⟩ := hlater (n - 1) (by omega)
          exact ⟨span, List.mem_cons_of_mem _ hmem, hspan⟩

/-- Where a match begins the text is taken. -/
theorem Consumes.exists_mem_spans {text : List Char} {k : Nat} (hlt : k < text.length)
    (hends : p.ends ((Position.mk none text).skip k) ≠ []) :
    ∃ span ∈ p.spans text, span.start ≤ k ∧ k < span.stop :=
  hconsumes.exists_mem_spansFrom (Nat.zero_le k) hlt hends

end Consuming

end LanguageDetection.Pattern
