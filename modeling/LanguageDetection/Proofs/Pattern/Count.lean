import Mathlib.Data.Char
import LanguageDetection.Proofs.Pattern.Search

/-!
# Counting matches

A pattern whose matches all consume something is counted match by match: a search finds the next
one, and the count goes on behind it (`tally_of_search_eq_some`).

Counts of two patterns can be compared (`count_le_count`): a pattern that has all matches of
another one is counted at least as often, provided that its matches end in the order in which they
begin.  They do if each match ends at the first occurrence of a certain character, which can be read
off the pattern (`endsInOrder_of_closes`), and so can that it has all matches of another one
(`ends_subset_of_covers`).
-/

namespace LanguageDetection.Pattern

/-- Every match of the pattern consumes something. -/
def Consumes (p : Pattern) : Prop :=
  ∀ s : Position, 0 ∉ p.ends s

/-- The number of matches from a position on. -/
def tally (p : Pattern) (s : Position) : Nat :=
  countFrom p 0 true s.before s.rest 0

/-! ## One match after another -/

/-- A search does not look behind the end of the text. -/
lemma le_length_of_search {p : Pattern} {s : Position} {n : Nat}
    (h : search p s.before s.rest = some n) : n ≤ s.rest.length := by
  obtain ⟨k, m, rfl, hk, hm, -⟩ := exists_start_of_search_eq_some h
  have hle := le_length_of_mem_ends hm
  rw [Position.rest_skip, List.length_drop] at hle
  omega

/-- What a search finds for a pattern that consumes something is not at its start. -/
lemma Consumes.pos_of_search {p : Pattern} (h : p.Consumes) {s : Position} {n : Nat}
    (hsearch : search p s.before s.rest = some n) : 0 < n := by
  obtain ⟨k, m, rfl, -, hm, -⟩ := exists_start_of_search_eq_some hsearch
  have hne : m ≠ 0 := fun hzero => h _ (hzero ▸ hm)
  omega

/-- The total reached so far is added to what is counted from here on. -/
lemma countFrom_eq_add (p : Pattern) (skip : Nat) (fresh : Bool) (before : Option Char)
    (text : List Char) (total : Nat) :
    countFrom p skip fresh before text total = total + countFrom p skip fresh before text 0 := by
  induction text generalizing skip fresh before total with
  | nil =>
    cases skip with
    | succ skip => rfl
    | zero =>
      rw [countFrom, countFrom]
      cases search p before [] with
      | none => rfl
      | some length => cases hempty : (decide (length = 0) && !fresh) <;> simp [hempty]
  | cons c rest ih =>
    cases skip with
    | succ skip => exact ih _ _ _ _
    | zero =>
      rw [countFrom, countFrom]
      cases search p before (c :: rest) with
      | none => rfl
      | some length =>
        dsimp only
        cases (decide (length = 0) && !fresh) with
        | true => exact ih _ _ _ _
        | false =>
          rw [if_neg Bool.false_ne_true, if_neg Bool.false_ne_true, ih, ih _ _ _ (0 + 1)]
          omega

/-- Inside the last match nothing is counted. -/
lemma countFrom_skip (p : Pattern) (s : Position) {n : Nat} (h : n ≤ s.rest.length)
    (total : Nat) :
    countFrom p n false s.before s.rest total =
      countFrom p 0 false (s.skip n).before (s.skip n).rest total := by
  obtain ⟨before, rest⟩ := s
  induction rest generalizing before n with
  | nil =>
    obtain rfl := Nat.le_zero.mp h
    rfl
  | cons c rest ih =>
    cases n with
    | zero => rfl
    | succ n => exact ih (some c) (Nat.le_of_succ_le_succ h)

section Consuming

variable {p : Pattern} {s : Position}

/-- Nothing is counted where nothing is found. -/
lemma tally_of_search_eq_none (h : search p s.before s.rest = none) : p.tally s = 0 := by
  rw [tally, countFrom, h]

/-- At the end of a text there is nothing left to consume. -/
lemma Consumes.tally_nil (h : p.Consumes) (before : Option Char) : p.tally ⟨before, []⟩ = 0 := by
  refine tally_of_search_eq_none ?_
  by_contra hsome
  obtain ⟨n, hsearch⟩ := Option.ne_none_iff_exists'.mp hsome
  exact absurd (le_length_of_search hsearch) (Nat.not_le_of_gt (h.pos_of_search hsearch))

/-- Whether a match has just ended does not matter to a pattern that consumes something. -/
lemma Consumes.countFrom_fresh (h : p.Consumes) (fresh : Bool) (total : Nat) :
    countFrom p 0 fresh s.before s.rest total = countFrom p 0 true s.before s.rest total := by
  rw [countFrom, countFrom]
  cases hsearch : search p s.before s.rest with
  | none => rfl
  | some n =>
    have hne : n ≠ 0 := Nat.ne_of_gt (h.pos_of_search hsearch)
    simp [hne]

/-- A match is counted, and the count goes on behind it. -/
theorem tally_of_search_eq_some (h : p.Consumes) {n : Nat}
    (hsearch : search p s.before s.rest = some n) : p.tally s = p.tally (s.skip n) + 1 := by
  have hpos := h.pos_of_search hsearch
  have hle := le_length_of_search hsearch
  obtain ⟨m, rfl⟩ := Nat.exists_eq_add_one.mpr hpos
  obtain ⟨before, rest⟩ := s
  cases rest with
  | nil => exact absurd hle (by simp)
  | cons c rest =>
    have hstep : p.tally ⟨before, c :: rest⟩ = countFrom p m false (some c) rest 1 := by
      rw [tally, countFrom, hsearch]
      simp
    have hskip := countFrom_skip p ⟨some c, rest⟩ (Nat.le_of_succ_le_succ hle) 1
    dsimp only at hskip
    rw [hstep, hskip, countFrom_eq_add, h.countFrom_fresh, Nat.add_comm]
    rfl

/-- Where no match begins, nothing is counted. -/
lemma tally_cons_of_ends_eq_nil (hconsumes : p.Consumes) {before : Option Char} {c : Char}
    {rest : List Char} (h : p.ends ⟨before, c :: rest⟩ = []) :
    p.tally ⟨before, c :: rest⟩ = p.tally ⟨some c, rest⟩ := by
  have hsearch : search p before (c :: rest) = (search p (some c) rest).map (· + 1) := by
    rw [search_eq_head?_starts p ⟨before, c :: rest⟩, search_eq_head?_starts p ⟨some c, rest⟩,
      starts_cons, h, List.nil_append, List.head?_map]
  cases hlater : search p (some c) rest with
  | none =>
    rw [hlater] at hsearch
    rw [tally_of_search_eq_none (s := ⟨before, c :: rest⟩) hsearch,
      tally_of_search_eq_none (s := ⟨some c, rest⟩) hlater]
  | some n =>
    rw [hlater] at hsearch
    rw [tally_of_search_eq_some (s := ⟨before, c :: rest⟩) hconsumes hsearch,
      tally_of_search_eq_some (s := ⟨some c, rest⟩) hconsumes hlater, Position.skip_cons_succ]

end Consuming

/-! ## Comparing counts -/

/-- No match ends behind one that begins later. -/
def EndsInOrder (p : Pattern) : Prop :=
  ∀ s : Position, ∀ n ∈ p.ends s, ∀ k, ∀ m ∈ p.ends (s.skip k), n ≤ k + m

section Compare

variable {p q : Pattern}

/-- What a search finds ends no later than any match that begins at the position or behind it. -/
lemma EndsInOrder.search_le (h : p.EndsInOrder) {s : Position} {k m : Nat}
    (hm : m ∈ p.ends (s.skip k)) : ∃ n ≤ k + m, search p s.before s.rest = some n := by
  cases hsearch : search p s.before s.rest with
  | none =>
    rw [ends_eq_nil_of_search_eq_none hsearch] at hm
    exact absurd hm List.not_mem_nil
  | some n =>
    obtain ⟨j, l, rfl, -, hl, hbefore⟩ := exists_start_of_search_eq_some hsearch
    have hle : j ≤ k := by
      by_contra hlt
      rw [hbefore k (Nat.lt_of_not_le hlt)] at hm
      exact List.not_mem_nil hm
    rw [← Nat.add_sub_cancel' hle, ← Position.skip_skip] at hm
    have horder := h _ l hl (k - j) m hm
    refine ⟨j + l, ?_, rfl⟩
    omega

/-- Every match of `q` takes one match of `p` with it, even if `q` starts to count further on. -/
theorem tally_skip_le_tally (hconsumes : p.Consumes) (horder : p.EndsInOrder)
    (hsubset : ∀ s : Position, q.ends s ⊆ p.ends s) (s : Position) (n : Nat) :
    q.tally (s.skip n) ≤ p.tally s := by
  induction hlength : s.rest.length using Nat.strongRecOn generalizing s n with
  | _ length ih =>
    cases hsearch : search q (s.skip n).before (s.skip n).rest with
    | none =>
      rw [tally_of_search_eq_none hsearch]
      exact Nat.zero_le _
    | some b =>
      obtain ⟨k, m, rfl, -, hm, -⟩ := exists_start_of_search_eq_some hsearch
      rw [Position.skip_skip] at hm
      obtain ⟨a, hle, hfound⟩ := horder.search_le (hsubset _ hm)
      have hconsumes' : q.Consumes := fun s' hzero => hconsumes s' (hsubset s' hzero)
      have hpos := hconsumes.pos_of_search hfound
      have hbound := le_length_of_search hfound
      have hrest : ((s.skip a).rest).length < length := by
        rw [Position.rest_skip, List.length_drop]
        omega
      have hbehind := ih _ hrest (s.skip a) (n + (k + m) - a) rfl
      rw [Position.skip_skip, Nat.add_sub_cancel' (by omega)] at hbehind
      rw [tally_of_search_eq_some hconsumes' hsearch, tally_of_search_eq_some hconsumes hfound,
        Position.skip_skip]
      exact Nat.succ_le_succ hbehind

/-- A pattern with all matches of another one is counted at least as often, if its matches end in
the order in which they begin. -/
theorem count_le_count (hconsumes : p.Consumes) (horder : p.EndsInOrder)
    (hsubset : ∀ s : Position, q.ends s ⊆ p.ends s) (text : List Char) :
    q.count text ≤ p.count text :=
  tally_skip_le_tally hconsumes horder hsubset ⟨none, text⟩ 0

end Compare

/-! ## Patterns that close with a character -/

/-- Whether the pattern keeps clear of a character, by the classes it is made of. -/
def avoids (stop : Char) : Pattern → Bool
  | empty => true
  | one cls => !cls.holds stop
  | anchor _ => true
  | seq p q => p.avoids stop && q.avoids stop
  | alt p q => p.avoids stop && q.avoids stop
  | star _ p => p.avoids stop

/-- Whether every match of the pattern ends with a character that it does not contain before. -/
def closes (stop : Char) : Pattern → Bool
  | one cls => cls = .single stop
  | seq p q => p.avoids stop && q.closes stop
  | alt p q => p.closes stop && q.closes stop
  | empty | anchor _ | star _ _ => false

variable {stop : Char}

/-- A character that occurs in neither part of a text does not occur in it. -/
lemma notMem_take_add {text : List Char} {k m : Nat} (hfirst : stop ∉ text.take k)
    (hsecond : stop ∉ (text.drop k).take m) : stop ∉ text.take (k + m) := by
  rw [List.take_add, List.mem_append, not_or]
  exact ⟨hfirst, hsecond⟩

/-- A match of a pattern that avoids a character does not contain it. -/
lemma notMem_take_of_avoids {p : Pattern} (h : p.avoids stop = true) {s : Position} {n : Nat}
    (hn : n ∈ p.ends s) : stop ∉ s.rest.take n := by
  induction p generalizing s n with
  | empty =>
    rw [ends_empty, List.mem_singleton] at hn
    simp [hn]
  | anchor condition =>
    rw [(mem_ends_anchor.mp hn).2]
    simp
  | one cls =>
    obtain ⟨c, rest, hrest, hholds, rfl⟩ := mem_ends_one.mp hn
    rw [hrest, List.take_one, List.head?_cons]
    intro hmem
    obtain rfl : stop = c := by simpa using hmem
    rw [avoids, hholds] at h
    exact Bool.false_ne_true h
  | alt p q ihp ihq =>
    rw [avoids, Bool.and_eq_true] at h
    rcases mem_ends_alt.mp hn with hp | hq
    · exact ihp h.1 hp
    · exact ihq h.2 hq
  | seq p q ihp ihq =>
    rw [avoids, Bool.and_eq_true] at h
    obtain ⟨k, hk, m, hm, rfl⟩ := mem_ends_seq.mp hn
    have hsecond := ihq h.2 hm
    rw [Position.rest_skip] at hsecond
    exact notMem_take_add (ihp h.1 hk) hsecond
  | star greedy p ih =>
    -- the rounds are counted down by the length of the match
    induction n using Nat.strongRecOn generalizing s with
    | _ n ihn =>
      rcases mem_ends_star.mp hn with rfl | ⟨k, hk, hpos, m, hm, rfl⟩
      · simp
      · have hrounds := ihn m (by omega) hm
        rw [Position.rest_skip] at hrounds
        exact notMem_take_add (ih h hk) hrounds

/-- A match of a pattern that closes with a character ends at its first occurrence. -/
lemma take_eq_of_closes {p : Pattern} (h : p.closes stop = true) {s : Position} {n : Nat}
    (hn : n ∈ p.ends s) : ∃ body rest, s.rest = body ++ stop :: rest ∧ stop ∉ body ∧
      n = body.length + 1 := by
  induction p generalizing s n with
  | empty | anchor | star => exact absurd h Bool.false_ne_true
  | one cls =>
    obtain ⟨c, rest, hrest, hholds, rfl⟩ := mem_ends_one.mp hn
    rw [closes, decide_eq_true_eq] at h
    have heq : c = stop := by
      have hbounds : stop ≤ c ∧ c ≤ stop := by
        rw [h] at hholds
        simpa [CharClass.holds, CharClass.single, ClassItem.holds] using hholds
      exact le_antisymm hbounds.2 hbounds.1
    exact ⟨[], rest, by rw [hrest, heq]; rfl, List.not_mem_nil, rfl⟩
  | alt p q ihp ihq =>
    rw [closes, Bool.and_eq_true] at h
    rcases mem_ends_alt.mp hn with hp | hq
    · exact ihp h.1 hp
    · exact ihq h.2 hq
  | seq p q _ ihq =>
    rw [closes, Bool.and_eq_true] at h
    obtain ⟨k, hk, m, hm, rfl⟩ := mem_ends_seq.mp hn
    obtain ⟨body, rest, hrest, hbody, rfl⟩ := ihq h.2 hm
    have hlength : (s.rest.take k).length = k :=
      List.length_take_of_le (le_length_of_mem_ends hk)
    rw [Position.rest_skip] at hrest
    refine ⟨s.rest.take k ++ body, rest, ?_, ?_, ?_⟩
    · rw [List.append_assoc, ← hrest, List.take_append_drop]
    · rw [List.mem_append, not_or]
      exact ⟨notMem_take_of_avoids h.1 hk, hbody⟩
    · rw [List.length_append, hlength]
      omega

/-- A pattern that closes with a character consumes that character at least. -/
lemma consumes_of_closes {p : Pattern} (h : p.closes stop = true) : p.Consumes := by
  intro s hzero
  obtain ⟨body, rest, -, -, hlength⟩ := take_eq_of_closes h hzero
  omega

/-- The matches of a pattern that closes with a character end in the order in which they begin. -/
theorem endsInOrder_of_closes {p : Pattern} (h : p.closes stop = true) : p.EndsInOrder := by
  intro s n hn k m hm
  obtain ⟨body, rest, hrest, hbody, rfl⟩ := take_eq_of_closes h hn
  obtain ⟨body', rest', hrest', -, rfl⟩ := take_eq_of_closes h hm
  rw [Position.rest_skip] at hrest'
  -- the later match contains the character, which the earlier one has at its end only
  by_contra hlt
  have hget : s.rest[k + body'.length]? = some stop := by
    rw [← List.getElem?_drop, hrest']
    simp
  rw [hrest, List.getElem?_append_left (by omega)] at hget
  exact hbody (List.mem_of_getElem? hget)

/-! ## Patterns with more alternatives -/

/-- The alternatives that a pattern is made of. -/
def alternatives : Pattern → List Pattern
  | alt p q => p.alternatives ++ q.alternatives
  | p => [p]

/-- Whether `p` is like `q`, but with more alternatives here and there. -/
def covers : (p q : Pattern) → Bool
  | seq p q, seq p' q' => p.covers p' && q.covers q'
  | p, q => q.alternatives.all (· ∈ p.alternatives)

/-- The matches of a pattern are those of its alternatives. -/
lemma mem_ends_iff_alternatives {p : Pattern} {s : Position} {n : Nat} :
    n ∈ p.ends s ↔ ∃ q ∈ p.alternatives, n ∈ q.ends s := by
  induction p with
  | alt p q ihp ihq =>
    simp only [mem_ends_alt, ihp, ihq, alternatives, List.mem_append, or_and_right, exists_or]
  | empty | one | anchor | seq | star => simp [alternatives]

/-- A pattern with more alternatives has more matches. -/
theorem ends_subset_of_covers {p q : Pattern} (h : p.covers q = true) (s : Position) :
    q.ends s ⊆ p.ends s := by
  induction p, q using covers.induct generalizing s with
  | case1 p q p' q' ihp ihq =>
    rw [covers, Bool.and_eq_true] at h
    intro n hn
    obtain ⟨k, hk, m, hm, rfl⟩ := mem_ends_seq.mp hn
    exact mem_ends_seq.mpr ⟨k, ihp h.1 s hk, m, ihq h.2 _ hm, rfl⟩
  | case2 p q hshape =>
    rw [covers, List.all_eq_true] at h
    · intro n hn
      obtain ⟨r, hr, hn⟩ := mem_ends_iff_alternatives.mp hn
      exact mem_ends_iff_alternatives.mpr ⟨r, by simpa using h r hr, hn⟩
    · exact hshape

end LanguageDetection.Pattern
