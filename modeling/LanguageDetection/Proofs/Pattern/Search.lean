import LanguageDetection.Proofs.Pattern.Ends

/-!
# What a search finds

A search carries many matches at once, drops those that are known already, and stops at the first
complete one of each step.  None of this changes what is found: `search_eq_head?_starts` says that
it is the first match there is, of the first position where one begins, as if the positions were
tried one after another and the branches of the pattern in order.

The threads of a search are residual patterns.  The invariant (`run_eq`) is that what is still to
be found is the first of the ends of the threads, in their order, and then of the matches that
begin later.
-/

namespace LanguageDetection.Pattern

/-! ## Starts -/

/-- The distances to the ends of all matches that begin at a position or behind it, those that begin
first before the others. -/
def startsFrom (p : Pattern) : List Char → Option Char → List Nat
  | [], before => p.ends ⟨before, []⟩
  | c :: rest, before => p.ends ⟨before, c :: rest⟩ ++ (startsFrom p rest (some c)).map (· + 1)

/-- The distances to the ends of all matches that begin at a position or behind it. -/
def starts (p : Pattern) (s : Position) : List Nat :=
  startsFrom p s.rest s.before

@[simp] lemma starts_nil (p : Pattern) (before : Option Char) :
    p.starts ⟨before, []⟩ = p.ends ⟨before, []⟩ := rfl

/-- A pattern is found here first, and then further on. -/
@[simp] lemma starts_cons (p : Pattern) (before : Option Char) (c : Char) (rest : List Char) :
    p.starts ⟨before, c :: rest⟩ =
      p.ends ⟨before, c :: rest⟩ ++ (p.starts ⟨some c, rest⟩).map (· + 1) := rfl

/-! ## Steps -/

/-- Branches up to a complete match make it needless to look at those behind it. -/
lemma advanceBranches_append (first second : List Branch) (threads : List Pattern) :
    advanceBranches (first ++ second) threads =
      match advanceBranches first threads with
      | (next, true) => (next, true)
      | (next, false) => advanceBranches second next := by
  induction first generalizing threads with
  | nil => rfl
  | cons branch first ih =>
    cases branch with
    | done => rfl
    | consume p => exact ih _

/-- A step of threads is a step of all their branches. -/
lemma advance_eq (before after : Option Char) (threads next : List Pattern) :
    advance before after threads next =
      advanceBranches (threads.flatMap (branches before after)) next := by
  induction threads generalizing next with
  | nil => rfl
  | cons p threads ih =>
    rw [List.flatMap_cons, advanceBranches_append, advance]
    rcases advanceBranches (branches before after p) next with ⟨next', _ | _⟩
    · exact ih next'
    · rfl

/-- A pattern that is listed already adds no first choice. -/
lemma findSome?_enlist {β : Type} (f : Pattern → Option β) (threads : List Pattern) (p : Pattern) :
    (enlist threads p).findSome? f = (threads.findSome? f).or (f p) := by
  unfold enlist
  split
  · next hmem =>
    cases hfind : threads.findSome? f with
    | some b => rfl
    | none => exact (List.findSome?_eq_none_iff.mp hfind p hmem).symm
  · rw [List.findSome?_append, List.findSome?_singleton]

/-- The first end of the branches is the first end of the threads they leave, or the complete match
behind those. -/
lemma findSome?_advanceBranches (s : Position) (choices : List Branch) (threads : List Pattern) :
    (threads.findSome? fun p => ((Branch.consume p).ends s).head?).or
        (choices.findSome? fun branch => (branch.ends s).head?) =
      ((advanceBranches choices threads).1.findSome? fun p => ((Branch.consume p).ends s).head?).or
        (if (advanceBranches choices threads).2 then some 0 else none) := by
  induction choices generalizing threads with
  | nil => rfl
  | cons branch choices ih =>
    cases branch with
    | done => rfl
    | consume p =>
      rw [advanceBranches, ← ih, findSome?_enlist, List.findSome?_cons, Option.or_assoc]
      congr 1
      cases ((Branch.consume p).ends s).head? <;> rfl

/-- One step of all threads keeps the first of their ends. -/
theorem findSome?_advance {s : Position} {threads next : List Pattern} {complete : Bool}
    (h : advance s.before s.rest.head? threads [] = (next, complete)) :
    (threads.findSome? fun p => (p.ends s).head?) =
      (next.findSome? fun p => ((Branch.consume p).ends s).head?).or
        (if complete then some 0 else none) := by
  have hbranches := findSome?_advanceBranches s
    (threads.flatMap (branches s.before s.rest.head?)) []
  rw [← advance_eq, h, List.findSome?_nil, Option.none_or] at hbranches
  rw [← hbranches]
  clear h hbranches
  induction threads with
  | nil => rfl
  | cons p threads ih =>
    have hfirst : (branches s.before s.rest.head? p).findSome?
        (fun branch => (branch.ends s).head?) = (p.ends s).head? := by
      rw [ends_eq_flatMap_branches, List.head?_flatMap]
    rw [List.findSome?_cons, List.flatMap_cons, List.findSome?_append, hfirst, ih]
    cases (p.ends s).head? <;> rfl

/-- The ends of residual patterns lie one character further. -/
lemma findSome?_consume (before : Option Char) (c : Char) (rest : List Char)
    (threads : List Pattern) :
    (threads.findSome? fun q => ((Branch.consume q).ends ⟨before, c :: rest⟩).head?) =
      (threads.findSome? fun q => (q.ends ⟨some c, rest⟩).head?).map (· + 1) := by
  induction threads with
  | nil => rfl
  | cons q threads ih =>
    rw [List.findSome?_cons, List.findSome?_cons, ih, Branch.ends_consume_cons, List.head?_map]
    cases (q.ends ⟨some c, rest⟩).head? <;> rfl

/-! ## Runs -/

/-- The threads of a step. While nothing is found, a new match may begin. -/
def started (p : Pattern) (threads : List Pattern) (found : Option Nat) : List Pattern :=
  if found.isNone then threads ++ [p] else threads

/-- What is left to be found by a run: the first end of the threads, and if nothing has been found
yet, the first match that begins at the position or behind it. -/
def pending (p : Pattern) (threads : List Pattern) (found : Option Nat) (s : Position) :
    Option Nat :=
  (threads.findSome? fun q => (q.ends s).head?).or
    (if found.isNone then (p.starts s).head? else none)

/-- Without a match so far, a thread or a new start may find one. -/
@[simp] lemma pending_none (p : Pattern) (threads : List Pattern) (s : Position) :
    pending p threads none s =
      (threads.findSome? fun q => (q.ends s).head?).or (p.starts s).head? := rfl

@[simp] lemma pending_some (p : Pattern) (threads : List Pattern) (n : Nat) (s : Position) :
    pending p threads (some n) s = threads.findSome? fun q => (q.ends s).head? := Option.or_none

/-- At the end of the text only the threads of the step are left. -/
lemma pending_nil (p : Pattern) (threads : List Pattern) (found : Option Nat)
    (before : Option Char) :
    pending p threads found ⟨before, []⟩ =
      (started p threads found).findSome? fun q => (q.ends ⟨before, []⟩).head? := by
  cases found with
  | none =>
    change _ = (threads ++ [p]).findSome? _
    rw [pending_none, List.findSome?_append, List.findSome?_singleton, starts_nil]
  | some n => exact pending_some _ _ _ _

/-- Before the end of the text there may be a later match as well. -/
lemma pending_cons (p : Pattern) (threads : List Pattern) (found : Option Nat)
    (before : Option Char) (c : Char) (rest : List Char) :
    pending p threads found ⟨before, c :: rest⟩ =
      ((started p threads found).findSome? fun q => (q.ends ⟨before, c :: rest⟩).head?).or
        (if found.isNone then (p.starts ⟨some c, rest⟩).head?.map (· + 1) else none) := by
  cases found with
  | none =>
    change _ = ((threads ++ [p]).findSome? _).or _
    rw [pending_none, List.findSome?_append, List.findSome?_singleton, starts_cons,
      List.head?_append, List.head?_map, Option.or_assoc]
    rfl
  | some n => rfl

/-- A run without threads keeps what it has found. -/
lemma run_nil_some (p : Pattern) (offset n : Nat) (before : Option Char) (text : List Char) :
    run p [] offset (some n) before text = some n := by
  cases text <;> rfl

/-- One step of a run. Stopping early once nothing better can be found makes no difference. -/
lemma run_cons {p : Pattern} {threads next : List Pattern} {complete : Bool} {found : Option Nat}
    {before : Option Char} {c : Char}
    (h : advance before (some c) (started p threads found) [] = (next, complete)) (offset : Nat)
    (rest : List Char) :
    run p threads offset found before (c :: rest) =
      run p next (offset + 1) (if complete then some offset else found) (some c) rest := by
  have hnext : (advance before (some c) (started p threads found) []).1 = next :=
    congrArg Prod.fst h
  have hcomplete : (advance before (some c) (started p threads found) []).2 = complete :=
    congrArg Prod.snd h
  have hrun : run p threads offset found before (c :: rest) =
      if (if complete then some offset else found).isSome && next.isEmpty then
        if complete then some offset else found
      else run p next (offset + 1) (if complete then some offset else found) (some c) rest := by
    rw [← hnext, ← hcomplete]
    rfl
  rw [hrun]
  generalize (if complete then some offset else found) = found'
  split
  · next hstop =>
    rw [Bool.and_eq_true, List.isEmpty_iff] at hstop
    obtain ⟨n, hfound⟩ := Option.isSome_iff_exists.mp hstop.1
    rw [hstop.2, hfound, run_nil_some]
  · rfl

/-- A run finds what is pending, and otherwise keeps what it has found. -/
theorem run_eq (p : Pattern) (text : List Char) (before : Option Char) (threads : List Pattern)
    (offset : Nat) (found : Option Nat) :
    run p threads offset found before text =
      ((pending p threads found ⟨before, text⟩).map (offset + ·)).or found := by
  induction text generalizing before threads offset found with
  | nil =>
    obtain ⟨next, complete, hadvance⟩ : ∃ next complete,
        advance before none (started p threads found) [] = (next, complete) := ⟨_, _, rfl⟩
    have hcomplete : (advance before none (started p threads found) []).2 = complete :=
      congrArg Prod.snd hadvance
    have hrun : run p threads offset found before [] =
        if complete then some offset else found := by
      rw [← hcomplete]
      rfl
    have hnone : (next.findSome? fun q => ((Branch.consume q).ends ⟨before, []⟩).head?) = none := by
      rw [List.findSome?_eq_none_iff]
      intro q _
      rfl
    have hpending : pending p threads found ⟨before, []⟩ = if complete then some 0 else none := by
      rw [pending_nil, findSome?_advance (s := ⟨before, []⟩) hadvance, hnone, Option.none_or]
    rw [hrun, hpending]
    cases complete <;> rfl
  | cons c rest ih =>
    obtain ⟨next, complete, hadvance⟩ : ∃ next complete,
        advance before (some c) (started p threads found) [] = (next, complete) := ⟨_, _, rfl⟩
    have hpending := pending_cons p threads found before c rest
    rw [findSome?_advance (s := ⟨before, c :: rest⟩) hadvance, findSome?_consume] at hpending
    have hshift : ∀ first : Option Nat,
        first.map (offset + 1 + ·) = (first.map (· + 1)).map (offset + ·) := by
      intro first
      cases first with
      | none => rfl
      | some n => exact congrArg some (Nat.add_right_comm offset 1 n)
    rw [run_cons hadvance, ih, hpending, hshift]
    -- a complete match keeps later ones from being looked for
    cases complete with
    | true =>
      rw [if_pos rfl, if_pos rfl, pending_some]
      generalize List.findSome? _ _ = first
      cases first <;> rfl
    | false =>
      rw [if_neg Bool.false_ne_true, if_neg Bool.false_ne_true, Option.or_none]
      cases found with
      | none =>
        rw [pending_none, Option.map_or]
        rfl
      | some n =>
        rw [pending_some]
        exact congrArg (Option.or · (some n)) (congrArg _ Option.or_none.symm)

/-- A search finds the first match that begins at the position or behind it. -/
theorem search_eq_head?_starts (p : Pattern) (s : Position) :
    search p s.before s.rest = (p.starts s).head? := by
  have hshift : ∀ first : Option Nat, first.map (0 + ·) = first := by
    intro first
    cases first <;> simp
  rw [search, run_eq, pending_none, List.findSome?_nil, Option.none_or, Option.or_none, hshift]

/-- A search that fails says that no match begins at the position or behind it. -/
theorem ends_eq_nil_of_search_eq_none {p : Pattern} {s : Position}
    (h : search p s.before s.rest = none) (k : Nat) : p.ends (s.skip k) = [] := by
  obtain ⟨before, rest⟩ := s
  rw [search_eq_head?_starts, List.head?_eq_none_iff] at h
  induction rest generalizing before k with
  | nil => rwa [Position.skip_nil]
  | cons c rest ih =>
    rw [starts_cons, List.append_eq_nil_iff, List.map_eq_nil_iff] at h
    cases k with
    | zero => exact h.1
    | succ k => exact ih k (some c) h.2

/-- The match that a search finds begins nowhere behind any other match. -/
theorem exists_start_of_search_eq_some {p : Pattern} {s : Position} {n : Nat}
    (h : search p s.before s.rest = some n) :
    ∃ k m, n = k + m ∧ k ≤ s.rest.length ∧ m ∈ p.ends (s.skip k) ∧
      ∀ j < k, p.ends (s.skip j) = [] := by
  obtain ⟨before, rest⟩ := s
  rw [search_eq_head?_starts] at h
  induction rest generalizing before n with
  | nil =>
    refine ⟨0, n, (Nat.zero_add n).symm, Nat.zero_le _, ?_,
      fun j hj => absurd hj (Nat.not_lt_zero j)⟩
    exact List.mem_of_mem_head? h
  | cons c rest ih =>
    rw [starts_cons, List.head?_append, List.head?_map] at h
    cases hends : (p.ends ⟨before, c :: rest⟩) with
    | cons first others =>
      rw [hends, List.head?_cons, Option.some_or, Option.some.injEq] at h
      refine ⟨0, n, (Nat.zero_add n).symm, Nat.zero_le _, ?_,
        fun j hj => absurd hj (Nat.not_lt_zero j)⟩
      rw [Position.skip_zero, hends, h]
      exact List.mem_cons_self
    | nil =>
      rw [hends, List.head?_nil, Option.none_or, Option.map_eq_some_iff] at h
      obtain ⟨n', hn', rfl⟩ := h
      obtain ⟨k, m, rfl, hk, hm, hbefore⟩ := ih (some c) hn'
      refine ⟨k + 1, m, by omega, Nat.succ_le_succ hk, hm, ?_⟩
      intro j hj
      cases j with
      | zero => exact hends
      | succ j => exact hbefore j (Nat.lt_of_succ_lt_succ hj)

end LanguageDetection.Pattern
