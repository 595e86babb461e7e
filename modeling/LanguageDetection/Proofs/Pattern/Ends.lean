import Mathlib.Data.List.Basic
import LanguageDetection.Pattern

/-!
# Where matches end

`Pattern.ends p s` lists the lengths of all matches of a pattern that begin at a position, the
preferred ones first.  It follows the branches of the pattern one character at a time, as a search
does, but it tries every branch to its end before the next one.

The list obeys one law for each kind of pattern: a sequence takes the ends of its second part behind
each end of the first (`ends_seq`), a choice appends (`ends_alt`), and a repetition goes on behind
each round that consumes something (`ends_star`).  With these laws nobody needs the branches.
-/

namespace LanguageDetection.Pattern

/-! ## Positions -/

/-- A position of a text: the character before it, if there is one, and the text behind it. -/
structure Position where
  before : Option Char
  rest : List Char

namespace Position

/-- The position `n` characters further, or the end of the text. -/
def skip : Position → Nat → Position
  | s, 0 => s
  | ⟨before, []⟩, _ + 1 => ⟨before, []⟩
  | ⟨_, c :: rest⟩, n + 1 => skip ⟨some c, rest⟩ n

@[simp] lemma skip_zero (s : Position) : s.skip 0 = s := by
  unfold skip
  rfl

@[simp] lemma skip_nil (before : Option Char) (n : Nat) : skip ⟨before, []⟩ n = ⟨before, []⟩ := by
  cases n <;> rfl

@[simp] lemma skip_cons_succ (before : Option Char) (c : Char) (rest : List Char) (n : Nat) :
    skip ⟨before, c :: rest⟩ (n + 1) = skip ⟨some c, rest⟩ n := rfl

/-- Skipping leaves the rest of the text. -/
@[simp] lemma rest_skip (s : Position) (n : Nat) : (s.skip n).rest = s.rest.drop n := by
  obtain ⟨before, rest⟩ := s
  induction rest generalizing before n with
  | nil => simp
  | cons c rest ih =>
    cases n with
    | zero => simp
    | succ n => exact ih n (some c)

/-- Skipping twice skips the sum. -/
lemma skip_skip (s : Position) (m n : Nat) : (s.skip m).skip n = s.skip (m + n) := by
  obtain ⟨before, rest⟩ := s
  induction rest generalizing before m with
  | nil => simp
  | cons c rest ih =>
    cases m with
    | zero => simp
    | succ m =>
      rw [skip_cons_succ, ih, Nat.add_right_comm, skip_cons_succ]

end Position

/-! ## Ends -/

/-- The lengths of the matches from a position on, the text behind the position being given first
because the recursion is on it. -/
def endsFrom : List Char → Option Char → Pattern → List Nat
  | [], before, p => (branches before none p).flatMap fun
    | .done => [0]
    | .consume _ => []
  | c :: rest, before, p => (branches before (some c) p).flatMap fun
    | .done => [0]
    | .consume q => (endsFrom rest (some c) q).map (· + 1)

/-- The lengths of all matches that begin at a position, the preferred ones first. -/
def ends (p : Pattern) (s : Position) : List Nat :=
  endsFrom s.rest s.before p

/-- The lengths of the matches that a branch leads to. -/
def Branch.ends (s : Position) : Branch → List Nat
  | .done => [0]
  | .consume q =>
    match s.rest with
    | [] => []
    | c :: rest => (q.ends ⟨some c, rest⟩).map (· + 1)

@[simp] lemma Branch.ends_done (s : Position) : Branch.done.ends s = [0] := rfl

@[simp] lemma Branch.ends_consume_nil (before : Option Char) (q : Pattern) :
    (Branch.consume q).ends ⟨before, []⟩ = [] := rfl

/-- A branch that consumes a character ends where the rest of the pattern does behind it. -/
@[simp] lemma Branch.ends_consume_cons (before : Option Char) (c : Char) (rest : List Char)
    (q : Pattern) :
    (Branch.consume q).ends ⟨before, c :: rest⟩ = (q.ends ⟨some c, rest⟩).map (· + 1) := rfl

/-- The ends of a pattern are those of its branches. -/
theorem ends_eq_flatMap_branches (p : Pattern) (s : Position) :
    p.ends s = (branches s.before s.rest.head? p).flatMap (Branch.ends s) := by
  obtain ⟨before, rest⟩ := s
  cases rest <;> exact List.flatMap_congr fun branch _ => by cases branch <;> rfl

/-- The empty pattern ends where it begins. -/
@[simp] lemma ends_empty (s : Position) : empty.ends s = [0] := by
  rw [ends_eq_flatMap_branches]
  rfl

/-- An anchor ends where it begins, if its condition holds there. -/
lemma ends_anchor (condition : Anchor) (s : Position) :
    (anchor condition).ends s = if condition.holds s.before s.rest.head? then [0] else [] := by
  rw [ends_eq_flatMap_branches, branches]
  split <;> rfl

@[simp] lemma ends_one_nil (cls : CharClass) (before : Option Char) :
    (one cls).ends ⟨before, []⟩ = [] := rfl

/-- A class ends behind a character that belongs to it. -/
@[simp] lemma ends_one_cons (cls : CharClass) (before : Option Char) (c : Char) (rest : List Char) :
    (one cls).ends ⟨before, c :: rest⟩ = if cls.holds c then [1] else [] := by
  rw [ends_eq_flatMap_branches]
  change List.flatMap _ (if _ then _ else _) = _
  split
  · simp
  · rfl

/-- A choice lists the ends of its first pattern before those of its second. -/
theorem ends_alt (p q : Pattern) (s : Position) : (alt p q).ends s = p.ends s ++ q.ends s := by
  rw [ends_eq_flatMap_branches, branches, List.flatMap_append, ← ends_eq_flatMap_branches,
    ← ends_eq_flatMap_branches]

/-- The empty pattern in front of another one makes no difference. -/
lemma ends_seq_empty (q : Pattern) (s : Position) : (seq empty q).ends s = q.ends s := by
  rw [ends_eq_flatMap_branches, branches, branches, List.flatMap_singleton,
    ← ends_eq_flatMap_branches]

/-- What remains of a sequence is a sequence. -/
lemma ends_andThen (p q : Pattern) (s : Position) : (p.andThen q).ends s = (seq p q).ends s := by
  cases p with
  | empty => exact (ends_seq_empty q s).symm
  | one | anchor | seq | alt | star => rfl

/-- A sequence ends where its second part ends behind an end of the first. -/
theorem ends_seq (p q : Pattern) (s : Position) :
    (seq p q).ends s = (p.ends s).flatMap fun n => (q.ends (s.skip n)).map (n + ·) := by
  obtain ⟨before, rest⟩ := s
  induction rest generalizing p before with
  | nil =>
    rw [ends_eq_flatMap_branches, branches, List.flatMap_assoc, ends_eq_flatMap_branches p,
      List.flatMap_assoc]
    refine List.flatMap_congr fun branch _ => ?_
    cases branch with
    | done =>
      change (branches _ _ q).flatMap (Branch.ends _) = _
      rw [← ends_eq_flatMap_branches]
      simp
    | consume r => simp
  | cons c rest ih =>
    rw [ends_eq_flatMap_branches, branches, List.flatMap_assoc, ends_eq_flatMap_branches p,
      List.flatMap_assoc]
    refine List.flatMap_congr fun branch _ => ?_
    cases branch with
    | done =>
      change (branches _ _ q).flatMap (Branch.ends _) = _
      rw [← ends_eq_flatMap_branches]
      simp
    | consume r =>
      rw [List.flatMap_singleton, Branch.ends_consume_cons, Branch.ends_consume_cons, ends_andThen,
        ih, List.map_flatMap, List.flatMap_map]
      refine List.flatMap_congr fun n _ => ?_
      rw [Position.skip_cons_succ, List.map_map]
      exact List.map_congr_left fun m _ => by
        change n + m + 1 = n + 1 + m
        omega

/-- The ends of a repetition behind a round that consumes something. -/
def roundEnds (greedy : Bool) (p : Pattern) (s : Position) : List Nat :=
  ((p.ends s).filter (0 < ·)).flatMap fun n => ((star greedy p).ends (s.skip n)).map (n + ·)

/-- Of the branches of a pattern, those that consume something begin a round. -/
lemma flatMap_branches_eq_roundEnds (greedy : Bool) (p : Pattern) (s : Position) :
    ((branches s.before s.rest.head? p).filterMap fun
      | .done => none
      | .consume rest => some (.consume (rest.andThen (star greedy p)))).flatMap (Branch.ends s) =
        roundEnds greedy p s := by
  rw [List.filterMap_eq_flatMap_toList, List.flatMap_assoc, roundEnds, ends_eq_flatMap_branches,
    List.filter_flatMap, List.flatMap_assoc]
  refine List.flatMap_congr fun branch _ => ?_
  cases branch with
  | done => rfl
  | consume r =>
    obtain ⟨before, _ | ⟨c, rest⟩⟩ := s
    · rfl
    · have hpos : ((r.ends ⟨some c, rest⟩).map (· + 1)).filter (0 < ·) =
          (r.ends ⟨some c, rest⟩).map (· + 1) := by
        rw [List.filter_eq_self]
        simp
      change ((r.andThen _).ends _).map _ ++ [] = _
      rw [List.append_nil, ends_andThen, ends_seq, Branch.ends_consume_cons, hpos, List.map_flatMap,
        List.flatMap_map]
      refine List.flatMap_congr fun n _ => ?_
      rw [Position.skip_cons_succ, List.map_map]
      exact List.map_congr_left fun m _ => Nat.add_right_comm n m 1

/-- A repetition ends at once or behind a round, and greed decides which is preferred. -/
theorem ends_star (greedy : Bool) (p : Pattern) (s : Position) :
    (star greedy p).ends s =
      if greedy then roundEnds greedy p s ++ [0] else 0 :: roundEnds greedy p s := by
  have hrounds := flatMap_branches_eq_roundEnds greedy p s
  rw [ends_eq_flatMap_branches, branches]
  cases greedy with
  | true =>
    rw [if_pos rfl, if_pos rfl, List.flatMap_append, List.flatMap_singleton]
    exact congrArg (· ++ [0]) hrounds
  | false =>
    rw [if_neg Bool.false_ne_true, if_neg Bool.false_ne_true, List.flatMap_cons]
    exact congrArg ([0] ++ ·) hrounds

/-! ## Membership -/

/-- The only end of an anchor is where it begins. -/
lemma mem_ends_anchor {condition : Anchor} {s : Position} {n : Nat} :
    n ∈ (anchor condition).ends s ↔
      condition.holds s.before s.rest.head? = true ∧ n = 0 := by
  rw [ends_anchor]
  split <;> simp [*]

/-- The only end of a class is behind one character. -/
lemma mem_ends_one {cls : CharClass} {s : Position} {n : Nat} :
    n ∈ (one cls).ends s ↔ ∃ c rest, s.rest = c :: rest ∧ cls.holds c = true ∧ n = 1 := by
  obtain ⟨before, _ | ⟨c, rest⟩⟩ := s
  · simp
  · rw [ends_one_cons]
    split <;> simp [*]

/-- The ends of two alternatives are the ends of either. -/
lemma mem_ends_alt {p q : Pattern} {s : Position} {n : Nat} :
    n ∈ (alt p q).ends s ↔ n ∈ p.ends s ∨ n ∈ q.ends s := by
  rw [ends_alt, List.mem_append]

/-- A sequence ends where its second part does, from an end of the first. -/
lemma mem_ends_seq {p q : Pattern} {s : Position} {n : Nat} :
    n ∈ (seq p q).ends s ↔ ∃ k ∈ p.ends s, ∃ m ∈ q.ends (s.skip k), k + m = n := by
  rw [ends_seq, List.mem_flatMap]
  simp only [List.mem_map]

/-- A repetition ends where it begins, or where it ends again behind a round that consumes
something. -/
lemma mem_ends_star {greedy : Bool} {p : Pattern} {s : Position} {n : Nat} :
    n ∈ (star greedy p).ends s ↔
      n = 0 ∨ ∃ k ∈ p.ends s, 0 < k ∧ ∃ m ∈ (star greedy p).ends (s.skip k), k + m = n := by
  have hrounds : n ∈ roundEnds greedy p s ↔
      ∃ k ∈ p.ends s, 0 < k ∧ ∃ m ∈ (star greedy p).ends (s.skip k), k + m = n := by
    simp only [roundEnds, List.mem_flatMap, List.mem_filter, decide_eq_true_eq, List.mem_map,
      and_assoc]
  rw [ends_star, ← hrounds]
  cases greedy <;> simp [or_comm]

/-- A match does not end behind the end of the text. -/
theorem le_length_of_mem_ends {p : Pattern} {s : Position} {n : Nat} (h : n ∈ p.ends s) :
    n ≤ s.rest.length := by
  obtain ⟨before, rest⟩ := s
  induction rest generalizing p before n with
  | nil =>
    rw [ends_eq_flatMap_branches, List.mem_flatMap] at h
    obtain ⟨branch, -, hn⟩ := h
    cases branch <;> simp_all
  | cons c rest ih =>
    rw [ends_eq_flatMap_branches, List.mem_flatMap] at h
    obtain ⟨branch, -, hn⟩ := h
    cases branch with
    | done => simp_all
    | consume q =>
      rw [Branch.ends_consume_cons, List.mem_map] at hn
      obtain ⟨m, hm, rfl⟩ := hn
      exact Nat.succ_le_succ (ih (some c) hm)

end LanguageDetection.Pattern
