import LanguageDetection.Proofs.Pattern.Count
import LanguageDetection.Proofs.Text

/-!
# Patterns that do not see the line ending

A pattern is counted as often in a text as in the text with a carriage return in front of every line
feed, if it is blind to the carriage return (`count_crlf`).  Whether it is can be computed from the
pattern (`isBlind`), since only what happens around a line feed matters.

In front of a line feed the pattern has branches, and in front of the carriage return it has
branches that consume it and then the line feed.  If both leave the same residual patterns in the
same order, then the first match ends at the same place (`sameEnd_of_follows`), a search finds the
same (`search_crlf`), and so the counts agree.  A match that ends between the two characters is
taken to end behind them.
-/

namespace LanguageDetection.Pattern

/-! ## First choices -/

section FirstChoices

variable {α β : Type}

/-- What is found depends on what is made of the items. -/
lemma findSome?_congr {f g : α → Option β} {l : List α} (h : ∀ a ∈ l, f a = g a) :
    l.findSome? f = l.findSome? g := by
  induction l with
  | nil => rfl
  | cons a l ih =>
    rw [List.findSome?_cons, List.findSome?_cons, h a List.mem_cons_self,
      ih fun b hb => h b (List.mem_cons_of_mem a hb)]

/-- What is found in lists that are put together is found in the first of them that has something.
-/
lemma findSome?_flatMap {γ : Type} (f : β → Option γ) (g : α → List β) (l : List α) :
    (l.flatMap g).findSome? f = l.findSome? fun a => (g a).findSome? f := by
  induction l with
  | nil => rfl
  | cons a l ih =>
    rw [List.flatMap_cons, List.findSome?_append, List.findSome?_cons, ih]
    cases (g a).findSome? f <;> rfl

/-- An element without a choice can be left out. -/
lemma findSome?_filter_ne [DecidableEq α] {f : α → Option β} {a : α} (h : f a = none)
    (l : List α) : (l.filter fun b => !b == a).findSome? f = l.findSome? f := by
  induction l with
  | nil => rfl
  | cons b l ih =>
    by_cases hequal : b = a
    · rw [hequal, List.filter_cons_of_neg (by simp), List.findSome?_cons, h, ih]
    · rw [List.filter_cons_of_pos (by simpa using hequal), List.findSome?_cons,
        List.findSome?_cons, ih]

/-- Repetitions do not change the first choice. -/
lemma findSome?_eraseDups [DecidableEq α] (f : α → Option β) (l : List α) :
    l.eraseDups.findSome? f = l.findSome? f := by
  induction hlength : l.length using Nat.strongRecOn generalizing l with
  | _ length ih =>
    cases l with
    | nil => rfl
    | cons a l =>
      have hless : (l.filter fun b => !b == a).length < length := by
        have hle := List.length_filter_le (fun b => !b == a) l
        rw [List.length_cons] at hlength
        omega
      rw [List.eraseDups_cons, List.findSome?_cons, List.findSome?_cons, ih _ hless _ rfl]
      cases hfirst : f a with
      | some b => rfl
      | none => exact findSome?_filter_ne hfirst l

end FirstChoices

/-! ## What stands before a position -/

/-- Whether the pattern may match the empty text. -/
def isNullable : Pattern → Bool
  | empty => true
  | one _ => false
  | anchor _ => true
  | seq p q => p.isNullable && q.isNullable
  | alt p q => p.isNullable || q.isNullable
  | star _ _ => true

/-- Whether an anchor may stand at the front of the pattern. -/
def looksBack : Pattern → Bool
  | empty => false
  | one _ => false
  | anchor _ => true
  | seq p q => p.looksBack || (p.isNullable && q.looksBack)
  | alt p q => p.looksBack || q.looksBack
  | star _ p => p.looksBack

/-- All that an anchor can tell apart before a position. -/
def anchorContexts : List (Option Char) :=
  [none, some 'a', some ' ', some '\n']

/-- All that the pattern can tell apart before a position. -/
def contexts (p : Pattern) : List (Option Char) :=
  if p.looksBack then anchorContexts else [none]

/-- What stands before a position matters to anchors only. -/
lemma exists_anchorContext (before : Option Char) :
    ∃ context ∈ anchorContexts, ∀ (condition : Anchor) (after : Option Char),
      condition.holds before after = condition.holds context after := by
  cases before with
  | none => exact ⟨none, by decide, fun condition after => rfl⟩
  | some c =>
    by_cases hnewline : c = '\n'
    · exact ⟨some '\n', by decide, fun condition after => by rw [hnewline]⟩
    · have hline : ((some c : Option Char) == some '\n') = false := by simpa using hnewline
      cases hword : Characters.isWord c with
      | true =>
        have hsame : Characters.isWord 'a' = true := by decide
        refine ⟨some 'a', by decide, fun condition after => ?_⟩
        cases condition <;> simp [Anchor.holds, isWordAt, hword, hsame, hline]
      | false =>
        have hsame : Characters.isWord ' ' = false := by decide
        refine ⟨some ' ', by decide, fun condition after => ?_⟩
        cases condition <;> simp [Anchor.holds, isWordAt, hword, hsame, hline]

/-- Where anchors agree, the branches agree. -/
lemma branches_congr {before context after : Option Char}
    (h : ∀ condition : Anchor, condition.holds before after = condition.holds context after)
    (p : Pattern) : branches before after p = branches context after p := by
  induction p with
  | empty => rfl
  | one cls => rfl
  | anchor condition => rw [branches, branches, h]
  | seq p q ihp ihq => rw [branches, branches, ihp, ihq]
  | alt p q ihp ihq => rw [branches, branches, ihp, ihq]
  | star greedy p ih => rw [branches, branches, ih]

/-- A pattern with a complete match at the front is nullable. -/
lemma isNullable_of_done_mem {before after : Option Char} {p : Pattern}
    (h : Branch.done ∈ branches before after p) : p.isNullable = true := by
  induction p with
  | empty | anchor | star => rfl
  | one cls =>
    cases after with
    | none => cases h
    | some c =>
      rw [branches] at h
      split at h <;> simp at h
  | alt p q ihp ihq =>
    rw [isNullable, Bool.or_eq_true]
    rcases List.mem_append.mp h with hp | hq
    · exact Or.inl (ihp hp)
    · exact Or.inr (ihq hq)
  | seq p q ihp ihq =>
    rw [branches] at h
    obtain ⟨branch, hbranch, hmem⟩ := List.mem_flatMap.mp h
    rw [isNullable, Bool.and_eq_true]
    cases branch with
    | done => exact ⟨ihp hbranch, ihq hmem⟩
    | consume rest => simp at hmem

/-- A pattern that does not look back has the same branches everywhere. -/
lemma branches_of_not_looksBack {p : Pattern} (h : p.looksBack = false)
    (before after : Option Char) : branches before after p = branches none after p := by
  induction p with
  | empty => rfl
  | one cls => rfl
  | anchor condition => exact Bool.noConfusion h
  | alt p q ihp ihq =>
    rw [looksBack, Bool.or_eq_false_iff] at h
    rw [branches, branches, ihp h.1, ihq h.2]
  | star greedy p ih => rw [branches, branches, ih h]
  | seq p q ihp ihq =>
    rw [looksBack, Bool.or_eq_false_iff] at h
    rw [branches, branches, ihp h.1]
    refine List.flatMap_congr fun branch hbranch => ?_
    cases branch with
    | done =>
      have hq := h.2
      rw [isNullable_of_done_mem hbranch, Bool.true_and] at hq
      exact ihq hq
    | consume rest => rfl

/-- What stands before a position can be replaced by one of the contexts of the pattern. -/
lemma exists_context (p : Pattern) (before : Option Char) :
    ∃ context ∈ p.contexts, ∀ after, branches before after p = branches context after p := by
  unfold contexts
  cases h : p.looksBack with
  | false => exact ⟨none, List.mem_singleton_self _, branches_of_not_looksBack h before⟩
  | true =>
    obtain ⟨context, hcontext, hsame⟩ := exists_anchorContext before
    exact ⟨context, hcontext,
      fun after => branches_congr (fun condition => hsame condition after) p⟩

/-! ## Residual patterns -/

/-- The patterns that can remain when characters other than carriage returns are consumed. -/
def residuals : Pattern → List Pattern
  | empty => []
  | one cls => if cls = .single '\r' then [] else [empty]
  | anchor _ => []
  | seq p q => p.residuals.map (·.andThen q) ++ q.residuals
  | alt p q => p.residuals ++ q.residuals
  | star greedy p => p.residuals.map (·.andThen (star greedy p))

/-- A branch of a repetition begins with a branch of its round. -/
lemma exists_of_consume_mem_star {before after : Option Char} {greedy : Bool} {p r : Pattern}
    (h : Branch.consume r ∈ branches before after (star greedy p)) :
    ∃ first, Branch.consume first ∈ branches before after p ∧
      first.andThen (star greedy p) = r := by
  have hround : ∃ branch ∈ branches before after p, ∃ first, branch = .consume first ∧
      first.andThen (star greedy p) = r := by
    cases greedy <;>
    · simp only [branches, if_true, Bool.false_eq_true, if_false, List.mem_append,
        List.mem_filterMap, List.mem_cons, List.not_mem_nil, or_false, false_or, reduceCtorEq] at h
      obtain ⟨branch, hbranch, hsome⟩ := h
      cases branch with
      | done => cases hsome
      | consume first => exact ⟨_, hbranch, first, rfl, by simpa using hsome⟩
  obtain ⟨branch, hbranch, first, rfl, hrest⟩ := hround
  exact ⟨first, hbranch, hrest⟩

/-- A branch leaves a residual pattern. -/
lemma mem_residuals_of_consume {before : Option Char} {c : Char} (hc : c ≠ '\r') {p r : Pattern}
    (h : Branch.consume r ∈ branches before (some c) p) : r ∈ p.residuals := by
  induction p generalizing r with
  | empty => simp [branches] at h
  | anchor condition =>
    rw [branches] at h
    split at h <;> simp at h
  | one cls =>
    rw [branches] at h
    split at h
    · next hholds =>
      have hne : cls ≠ .single '\r' := by
        rintro rfl
        have hbounds : '\r' ≤ c ∧ c ≤ '\r' := by
          simpa [CharClass.holds, CharClass.single, ClassItem.holds] using hholds
        exact hc (le_antisymm hbounds.2 hbounds.1)
      rw [residuals, if_neg hne]
      simpa using h
    · simp at h
  | alt p q ihp ihq =>
    rw [branches] at h
    rcases List.mem_append.mp h with hp | hq
    · exact List.mem_append_left _ (ihp hp)
    · exact List.mem_append_right _ (ihq hq)
  | seq p q ihp ihq =>
    rw [branches] at h
    obtain ⟨branch, hbranch, hmem⟩ := List.mem_flatMap.mp h
    cases branch with
    | done => exact List.mem_append_right _ (ihq hmem)
    | consume first =>
      have heq : r = first.andThen q := by simpa using hmem
      rw [heq]
      exact List.mem_append_left _ (List.mem_map_of_mem (ihp hbranch))
  | star greedy p ih =>
    obtain ⟨first, hfirst, rfl⟩ := exists_of_consume_mem_star h
    exact List.mem_map_of_mem (ih hfirst)

/-- What a residual pattern leaves in front of another pattern. -/
lemma residuals_andThen_subset {p r q : Pattern} (h : r.residuals ⊆ p.residuals) :
    (r.andThen q).residuals ⊆ p.residuals.map (·.andThen q) ++ q.residuals := by
  cases r with
  | empty => exact List.subset_append_right _ _
  | one | anchor | seq | alt | star =>
    refine List.append_subset.mpr ⟨?_, List.subset_append_right _ _⟩
    exact List.Subset.trans (List.map_subset _ h) (List.subset_append_left _ _)

/-- The residual patterns of a residual pattern are residual patterns. -/
lemma residuals_subset {p r : Pattern} (h : r ∈ p.residuals) : r.residuals ⊆ p.residuals := by
  induction p generalizing r with
  | empty | anchor => simp [residuals] at h
  | one cls =>
    rw [residuals] at h
    split at h
    · simp at h
    · rw [List.mem_singleton.mp h]
      exact List.nil_subset _
  | alt p q ihp ihq =>
    rcases List.mem_append.mp h with hp | hq
    · exact List.Subset.trans (ihp hp) (List.subset_append_left _ _)
    · exact List.Subset.trans (ihq hq) (List.subset_append_right _ _)
  | seq p q ihp ihq =>
    rcases List.mem_append.mp h with hp | hq
    · obtain ⟨first, hfirst, rfl⟩ := List.mem_map.mp hp
      exact residuals_andThen_subset (ihp hfirst)
    · exact List.Subset.trans (ihq hq) (List.subset_append_right _ _)
  | star greedy p ih =>
    obtain ⟨first, hfirst, rfl⟩ := List.mem_map.mp h
    refine List.Subset.trans (residuals_andThen_subset (ih hfirst)) ?_
    exact List.append_subset.mpr ⟨List.Subset.refl _, List.Subset.refl _⟩

/-! ## Around the line ending -/

/-- A match that is complete between the two characters is taken to be complete behind them. -/
def settle : Branch → Branch
  | .done => .consume empty
  | .consume rest => .consume rest

/-- The branches over the line feed of a pattern that remains behind the carriage return. -/
def feedBranches (p : Pattern) : List Branch :=
  (branches (some '\r') (some '\n') p).map settle

/-- The branches over the whole line ending. -/
def returnBranches (before : Option Char) (p : Pattern) : List Branch :=
  (branches before (some '\r') p).flatMap fun
    | .done => [.done]
    | .consume rest => feedBranches rest

/-- Whether two lists of branches are the same but for repetitions. -/
def agree (choices choices' : List Branch) : Bool :=
  choices.eraseDups = choices'.eraseDups

/-- Whether the pattern goes on over the line ending as over a line feed. -/
def isBlindAt (p : Pattern) : Bool :=
  p.contexts.all fun before => agree (returnBranches before p) (branches before (some '\n') p)

/-- Whether the matches that begin in front of the line ending or within it go on over it as those
that begin in front of a line feed. -/
def isBlindFrom (p : Pattern) : Bool :=
  p.contexts.all fun before =>
    agree (returnBranches before p ++ feedBranches p) (branches before (some '\n') p)

/-- Whether no match begins between the two characters. -/
def isMute (p : Pattern) : Bool :=
  (branches (some '\r') (some '\n') p).isEmpty

/-- Whether no match of the pattern has a certain character at its end. -/
def endAvoids (last : Char) : Pattern → Bool
  | empty => true
  | one cls => !cls.holds last
  | anchor _ => true
  | seq p q => q.endAvoids last && (!q.isNullable || p.endAvoids last)
  | alt p q => p.endAvoids last && q.endAvoids last
  | star _ p => p.endAvoids last

/-- Whether the pattern is blind to carriage returns in front of line feeds. -/
def isBlind (p : Pattern) : Bool :=
  !p.isNullable && (p.isMute || p.endAvoids '\r') && p.isBlindFrom && p.residuals.all isBlindAt

/-- Lists that agree have the same branches, with the same preferences. -/
lemma agree_spec {choices choices' : List Branch} (h : agree choices choices' = true) :
    (∀ {β : Type} (f : Branch → Option β), choices.findSome? f = choices'.findSome? f) ∧
      ∀ branch, branch ∈ choices ↔ branch ∈ choices' := by
  have heq := of_decide_eq_true h
  constructor
  · intro β f
    rw [← findSome?_eraseDups f choices, heq, findSome?_eraseDups]
  · intro branch
    rw [← List.mem_eraseDups, heq, List.mem_eraseDups]

/-- The line ending is gone over alike wherever the branches are the same. -/
lemma returnBranches_congr {before context : Option Char} {p : Pattern}
    (h : ∀ after, branches before after p = branches context after p) :
    returnBranches before p = returnBranches context p := by
  unfold returnBranches
  rw [h]

/-- A pattern that goes on over the line ending does so whatever stands before it. -/
lemma agree_of_isBlindAt {p : Pattern} (h : p.isBlindAt = true) (before : Option Char) :
    agree (returnBranches before p) (branches before (some '\n') p) = true := by
  obtain ⟨context, hcontext, hsame⟩ := p.exists_context before
  rw [returnBranches_congr hsame, hsame]
  exact List.all_eq_true.mp h context hcontext

/-- A pattern that is blind has the same choices at both line endings, wherever it stands. -/
lemma agree_of_isBlindFrom {p : Pattern} (h : p.isBlindFrom = true) (before : Option Char) :
    agree (returnBranches before p ++ feedBranches p) (branches before (some '\n') p) = true := by
  obtain ⟨context, hcontext, hsame⟩ := p.exists_context before
  rw [returnBranches_congr hsame, hsame]
  exact List.all_eq_true.mp h context hcontext

/-! ## Lengths -/

/-- The position in the text with carriage returns. -/
def Position.crlf (s : Position) : Position :=
  ⟨s.before, LanguageDetection.crlf s.rest⟩

/-- The number of characters of a text that `n` characters of the text with carriage returns stand
for, a carriage return standing for the whole line ending. -/
def settled : List Char → Nat → Nat
  | _, 0 => 0
  | [], _ + 1 => 0
  | c :: rest, n + 1 => if c = '\n' then settled rest (n - 1) + 1 else settled rest n + 1

@[simp] lemma settled_zero (text : List Char) : settled text 0 = 0 := by
  unfold settled
  rfl

lemma settled_newline_succ (rest : List Char) (n : Nat) :
    settled ('\n' :: rest) (n + 1) = settled rest (n - 1) + 1 := if_pos rfl

lemma settled_cons_of_ne {c : Char} (h : c ≠ '\n') (rest : List Char) (n : Nat) :
    settled (c :: rest) (n + 1) = settled rest n + 1 := if_neg h

/-! ## Ends -/

/-- The length of the first match that a branch leads to. -/
def Branch.firstEnd (s : Position) (branch : Branch) : Option Nat :=
  (branch.ends s).head?

/-- The preferred end is that of the first branch that has one. -/
lemma head?_ends (p : Pattern) (s : Position) :
    (p.ends s).head? = (branches s.before s.rest.head? p).findSome? (Branch.firstEnd s) := by
  rw [ends_eq_flatMap_branches, List.head?_flatMap]
  rfl

/-- The first match that begins at a position ends at the same place. -/
def SameEnd (p : Pattern) (s : Position) : Prop :=
  ((p.ends s.crlf).head?).map (settled s.rest) = (p.ends s).head?

lemma SameEnd.eq {p : Pattern} {before : Option Char} {rest : List Char}
    (h : p.SameEnd ⟨before, rest⟩) :
    ((p.ends ⟨before, crlf rest⟩).head?).map (settled rest) = (p.ends ⟨before, rest⟩).head? := h

/-- At the end of the text there is no line ending. -/
lemma sameEnd_nil (p : Pattern) (before : Option Char) : p.SameEnd ⟨before, []⟩ := by
  change ((p.ends ⟨before, []⟩).head?).map (settled []) = (p.ends ⟨before, []⟩).head?
  cases hend : (p.ends ⟨before, []⟩).head? with
  | none => rfl
  | some n =>
    have hle := le_length_of_mem_ends (List.mem_of_mem_head? hend)
    obtain rfl : n = 0 := Nat.le_zero.mp hle
    rfl

/-- Whether a pattern that remains, and all that remains of it, goes on over the line ending. -/
def Follows (p : Pattern) : Prop :=
  p.isBlindAt = true ∧ ∀ r ∈ p.residuals, r.isBlindAt = true

/-- What remains goes on as well. -/
lemma Follows.of_mem_residuals {p r : Pattern} (h : ∀ r ∈ p.residuals, r.isBlindAt = true)
    (hr : r ∈ p.residuals) : r.Follows :=
  ⟨h r hr, fun _ hmem => h _ (residuals_subset hr hmem)⟩

section Over

variable {before : Option Char} {rest : List Char}

/-- Over the line feed, the first match of a pattern that remains is that of its branches. -/
lemma firstEnd_feedBranches {p : Pattern}
    (h : ∀ r, Branch.consume r ∈ feedBranches p → r.SameEnd ⟨some '\n', rest⟩) :
    (((p.ends ⟨some '\r', '\n' :: crlf rest⟩).head?).map (· + 1)).map
        (settled ('\n' :: rest)) =
      (feedBranches p).findSome? (Branch.firstEnd ⟨before, '\n' :: rest⟩) := by
  rw [head?_ends, List.map_findSome?, List.map_findSome?, feedBranches, List.findSome?_map]
  refine findSome?_congr fun branch hbranch => ?_
  cases branch with
  | done =>
    -- a match that is complete behind the carriage return
    change some (settled ('\n' :: rest) 1) = (((empty.ends ⟨some '\n', rest⟩).map (· + 1)).head?)
    rw [settled_newline_succ, ends_empty]
    simp
  | consume r =>
    have hr := (h r (List.mem_map.mpr ⟨_, hbranch, rfl⟩)).eq
    change ((((r.ends ⟨some '\n', crlf rest⟩).map (· + 1)).head?).map (· + 1)).map
      (settled ('\n' :: rest)) = ((r.ends ⟨some '\n', rest⟩).map (· + 1)).head?
    rw [List.head?_map, List.head?_map, ← hr]
    cases (r.ends ⟨some '\n', crlf rest⟩).head? <;> simp [settled_newline_succ]

/-- Over the line ending, the first match of a pattern is that of its branches. -/
lemma firstEnd_returnBranches {p : Pattern}
    (h : ∀ r, Branch.consume r ∈ returnBranches before p → r.SameEnd ⟨some '\n', rest⟩) :
    ((p.ends ⟨before, '\r' :: '\n' :: crlf rest⟩).head?).map (settled ('\n' :: rest)) =
      (returnBranches before p).findSome? (Branch.firstEnd ⟨before, '\n' :: rest⟩) := by
  rw [head?_ends, List.map_findSome?, returnBranches, findSome?_flatMap]
  refine findSome?_congr fun branch hbranch => ?_
  cases branch with
  | done => exact congrArg some (settled_zero _)
  | consume q =>
    have hq : ∀ r, Branch.consume r ∈ feedBranches q → r.SameEnd ⟨some '\n', rest⟩ :=
      fun r hr => h r (List.mem_flatMap.mpr ⟨_, hbranch, hr⟩)
    rw [← firstEnd_feedBranches hq, ← List.head?_map]
    rfl

end Over

/-- A character other than a line feed is consumed alike. -/
lemma sameEnd_of_ne {before : Option Char} {c : Char} (hc : c ≠ '\n') {rest : List Char}
    {p : Pattern}
    (h : ∀ r, Branch.consume r ∈ branches before (some c) p → r.SameEnd ⟨some c, rest⟩) :
    p.SameEnd ⟨before, c :: rest⟩ := by
  change ((p.ends ⟨before, crlf (c :: rest)⟩).head?).map (settled (c :: rest)) = _
  rw [crlf_cons_of_ne hc, head?_ends, head?_ends, List.map_findSome?]
  refine findSome?_congr fun branch hbranch => ?_
  cases branch with
  | done => exact congrArg some (settled_zero _)
  | consume r =>
    change (((r.ends ⟨some c, crlf rest⟩).map (· + 1)).head?).map (settled (c :: rest)) =
      ((r.ends ⟨some c, rest⟩).map (· + 1)).head?
    rw [List.head?_map, List.head?_map, ← (h r hbranch).eq]
    cases (r.ends ⟨some c, crlf rest⟩).head? <;> simp [settled_cons_of_ne hc]

/-- The first match of a pattern that remains ends at the same place. -/
theorem sameEnd_of_follows {p : Pattern} (h : p.Follows) (s : Position) (hreturn : '\r' ∉ s.rest) :
    p.SameEnd s := by
  obtain ⟨before, rest⟩ := s
  induction rest generalizing p before with
  | nil => exact sameEnd_nil p before
  | cons c rest ih =>
    rw [List.mem_cons, not_or] at hreturn
    have hresidual : ∀ {q : Pattern} (context : Option Char), q ∈ p.residuals →
        q.SameEnd ⟨context, rest⟩ :=
      fun context hq => ih (Follows.of_mem_residuals h.2 hq) context hreturn.2
    by_cases hnewline : c = '\n'
    · subst hnewline
      obtain ⟨hfirst, hmem⟩ := agree_spec (agree_of_isBlindAt h.1 before)
      unfold SameEnd
      rw [head?_ends p ⟨before, '\n' :: rest⟩]
      refine Eq.trans (firstEnd_returnBranches fun r hr => ?_) (hfirst _)
      exact hresidual _ (mem_residuals_of_consume (by decide) ((hmem _).mp hr))
    · refine sameEnd_of_ne hnewline fun r hr => hresidual _ ?_
      exact mem_residuals_of_consume (Ne.symm hreturn.1) hr

/-! ## Searches -/

/-- What `isBlind` computes. -/
structure Blind (p : Pattern) : Prop where
  not_nullable : p.isNullable = false
  mute_or_endAvoids : p.isMute = true ∨ p.endAvoids '\r' = true
  blindFrom : p.isBlindFrom = true
  residuals_blindAt : ∀ r ∈ p.residuals, r.isBlindAt = true

lemma blind_of_isBlind {p : Pattern} (h : p.isBlind = true) : p.Blind := by
  simp only [isBlind, Bool.and_eq_true, Bool.or_eq_true, Bool.not_eq_true', List.all_eq_true] at h
  exact ⟨h.1.1.1, h.1.1.2, h.1.2, h.2⟩

section Blind

variable {p : Pattern}

/-- The first match that begins at a position or behind it ends at the same place. -/
theorem head?_starts_crlf (h : p.Blind) (s : Position) (hreturn : '\r' ∉ s.rest) :
    ((p.starts s.crlf).head?).map (settled s.rest) = (p.starts s).head? := by
  obtain ⟨before, rest⟩ := s
  induction rest generalizing before with
  | nil => exact sameEnd_nil p before
  | cons c rest ih =>
    rw [List.mem_cons, not_or] at hreturn
    have hresidual : ∀ {q : Pattern} (context : Option Char), q ∈ p.residuals →
        q.SameEnd ⟨context, rest⟩ :=
      fun context hq => sameEnd_of_follows (Follows.of_mem_residuals h.residuals_blindAt hq)
        ⟨context, rest⟩ hreturn.2
    have hlater := ih (some c) hreturn.2
    change ((p.starts ⟨some c, crlf rest⟩).head?).map (settled rest) = _ at hlater
    rw [starts_cons, List.head?_append, List.head?_map, ← hlater]
    by_cases hnewline : c = '\n'
    · subst hnewline
      obtain ⟨hfirst, hmem⟩ := agree_spec (agree_of_isBlindFrom h.blindFrom before)
      have hover : ∀ r, Branch.consume r ∈ returnBranches before p ++ feedBranches p →
          r.SameEnd ⟨some '\n', rest⟩ :=
        fun r hr => hresidual _ (mem_residuals_of_consume (by decide) ((hmem _).mp hr))
      have hreturnEnds := firstEnd_returnBranches fun r hr =>
        hover r (List.mem_append_left _ hr)
      have hfeedEnds := @firstEnd_feedBranches before rest p fun r hr =>
        hover r (List.mem_append_right _ hr)
      -- a match begins in front of the carriage return, behind it, or behind the line feed
      change ((p.ends ⟨before, '\r' :: '\n' :: crlf rest⟩ ++
        (p.ends ⟨some '\r', '\n' :: crlf rest⟩ ++
          (p.starts ⟨some '\n', crlf rest⟩).map (· + 1)).map (· + 1)).head?).map
            (settled ('\n' :: rest)) = _
      rw [head?_ends p ⟨before, '\n' :: rest⟩]
      change _ = ((branches before (some '\n') p).findSome? _).or _
      rw [← hfirst, List.findSome?_append, ← hreturnEnds, ← hfeedEnds, List.head?_append,
        List.head?_map, List.head?_append, List.head?_map, Option.map_or, Option.map_or,
        Option.map_or, Option.or_assoc]
      cases (p.starts ⟨some '\n', crlf rest⟩).head? <;> simp [settled_newline_succ]
    · have hhere := (@sameEnd_of_ne before c hnewline rest p fun r hr =>
        hresidual (some c) (mem_residuals_of_consume (p := p) (Ne.symm hreturn.1) hr)).eq
      rw [crlf_cons_of_ne hnewline] at hhere
      change ((p.starts ⟨before, crlf (c :: rest)⟩).head?).map _ = _
      rw [crlf_cons_of_ne hnewline, starts_cons, List.head?_append, List.head?_map, Option.map_or,
        hhere]
      cases (p.starts ⟨some c, crlf rest⟩).head? <;> simp [settled_cons_of_ne hnewline]

/-- A search finds the same. -/
theorem search_crlf (h : p.Blind) (s : Position) (hreturn : '\r' ∉ s.rest) :
    (search p s.before (crlf s.rest)).map (settled s.rest) = search p s.before s.rest := by
  rw [search_eq_head?_starts, ← head?_starts_crlf h s hreturn, ← search_eq_head?_starts]
  rfl

/-- A pattern that is not nullable consumes something. -/
lemma consumes_of_isNullable_eq_false (h : p.isNullable = false) : p.Consumes := by
  intro s hzero
  induction p generalizing s with
  | empty | anchor | star => exact Bool.noConfusion h
  | one cls =>
    obtain ⟨c, rest, -, -, hone⟩ := mem_ends_one.mp hzero
    omega
  | alt p q ihp ihq =>
    rw [isNullable, Bool.or_eq_false_iff] at h
    rcases mem_ends_alt.mp hzero with hp | hq
    · exact ihp h.1 s hp
    · exact ihq h.2 s hq
  | seq p q ihp ihq =>
    obtain ⟨k, hk, m, hm, hsum⟩ := mem_ends_seq.mp hzero
    obtain ⟨rfl, rfl⟩ : k = 0 ∧ m = 0 := by omega
    rcases Bool.and_eq_false_iff.mp h with hp | hq
    · exact ihp hp s hk
    · exact ihq hq _ hm

/-- A match does not end with a character that the pattern avoids at its end. -/
lemma getElem?_ne_of_endAvoids {last : Char} (h : p.endAvoids last = true) {s : Position} {n : Nat}
    (hn : n + 1 ∈ p.ends s) : s.rest[n]? ≠ some last := by
  induction p generalizing s n with
  | empty => simp at hn
  | anchor condition =>
    have hzero := (mem_ends_anchor.mp hn).2
    omega
  | one cls =>
    obtain ⟨c, rest, hrest, hholds, hone⟩ := mem_ends_one.mp hn
    obtain rfl : n = 0 := by omega
    rw [hrest]
    intro hlast
    obtain rfl : c = last := by simpa using hlast
    rw [endAvoids, hholds] at h
    exact Bool.false_ne_true h
  | alt p q ihp ihq =>
    rw [endAvoids, Bool.and_eq_true] at h
    rcases mem_ends_alt.mp hn with hp | hq
    · exact ihp h.1 hp
    · exact ihq h.2 hq
  | seq p q ihp ihq =>
    rw [endAvoids, Bool.and_eq_true, Bool.or_eq_true, Bool.not_eq_true'] at h
    obtain ⟨k, hk, m, hm, hsum⟩ := mem_ends_seq.mp hn
    cases m with
    | zero =>
      -- the second pattern consumes nothing, so it is nullable
      rcases h.2 with hconsumes | hfirst
      · exact absurd hm (consumes_of_isNullable_eq_false hconsumes _)
      · obtain rfl : k = n + 1 := hsum
        exact ihp hfirst hk
    | succ m =>
      have hsecond := ihq h.1 hm
      rw [Position.rest_skip, List.getElem?_drop] at hsecond
      obtain rfl : n = k + m := by omega
      exact hsecond
  | star greedy p ih =>
    induction n using Nat.strongRecOn generalizing s with
    | _ n ihn =>
      rcases mem_ends_star.mp hn with hzero | ⟨k, hk, hpos, m, hm, hsum⟩
      · omega
      · cases m with
        | zero =>
          obtain rfl : k = n + 1 := by omega
          exact ih h hk
        | succ m =>
          have hrounds := ihn m (by omega) hm
          rw [Position.rest_skip, List.getElem?_drop] at hrounds
          obtain rfl : n = k + m := by omega
          exact hrounds

/-! ## Counts -/

/-- A position of the text with carriage returns is one of the text, or it lies between a carriage
return and a line feed. -/
lemma skip_crlf (s : Position) {n : Nat} (hn : n ≤ (crlf s.rest).length) :
    s.crlf.skip n = (s.skip (settled s.rest n)).crlf ∨
      (∃ m, n = m + 1 ∧ (crlf s.rest)[m]? = some '\r') ∧
        (s.skip (settled s.rest n)).before = some '\n' ∧
        s.crlf.skip n = ⟨some '\r', '\n' :: crlf (s.skip (settled s.rest n)).rest⟩ := by
  obtain ⟨before, rest⟩ := s
  induction rest generalizing before n with
  | nil =>
    obtain rfl : n = 0 := Nat.le_zero.mp hn
    exact Or.inl rfl
  | cons c rest ih =>
    cases n with
    | zero =>
      rw [settled_zero, Position.skip_zero, Position.skip_zero]
      exact Or.inl rfl
    | succ n =>
      by_cases hnewline : c = '\n'
      · subst hnewline
        rw [settled_newline_succ, Position.skip_cons_succ]
        cases n with
        | zero =>
          refine Or.inr ⟨⟨0, rfl, rfl⟩, ?_⟩
          simp [Position.crlf]
        | succ n =>
          have hn' : n ≤ (crlf rest).length :=
            Nat.le_of_succ_le_succ (Nat.le_of_succ_le_succ hn)
          rcases ih (some '\n') hn' with hsame | ⟨⟨m, rfl, hm⟩, hbetween⟩
          · exact Or.inl hsame
          · exact Or.inr ⟨⟨m + 2, rfl, hm⟩, hbetween⟩
      · have hcrlf : Position.crlf ⟨before, c :: rest⟩ = ⟨before, c :: crlf rest⟩ := by
          unfold Position.crlf
          rw [crlf_cons_of_ne hnewline]
        rw [crlf_cons_of_ne hnewline] at hn ⊢
        rw [settled_cons_of_ne hnewline, Position.skip_cons_succ, hcrlf, Position.skip_cons_succ]
        rcases ih (some c) (Nat.le_of_succ_le_succ hn) with hsame | ⟨⟨m, rfl, hm⟩, hbetween⟩
        · exact Or.inl hsame
        · exact Or.inr ⟨⟨m + 1, rfl, hm⟩, hbetween⟩

/-- A match that a blind pattern has in the text with carriage returns is followed by as many others
as in the text. -/
lemma tally_skip_crlf (h : p.Blind) {s : Position} {n : Nat}
    (hsearch : search p s.before (crlf s.rest) = some n) :
    p.tally (s.crlf.skip n) = p.tally (s.skip (settled s.rest n)).crlf := by
  have hconsumes := consumes_of_isNullable_eq_false h.not_nullable
  have hlength : n ≤ (crlf s.rest).length := le_length_of_search (s := s.crlf) hsearch
  rcases skip_crlf s hlength with hsame | ⟨⟨m, rfl, hm⟩, hbefore, hbetween⟩
  · rw [hsame]
  · rcases h.mute_or_endAvoids with hmute | havoids
    · have hnil : p.ends ⟨some '\r', '\n' :: crlf (s.skip (settled s.rest (m + 1))).rest⟩ = [] := by
        have hbranches : branches (some '\r') (some '\n') p = [] := List.isEmpty_iff.mp hmute
        rw [ends_eq_flatMap_branches]
        change (branches (some '\r') (some '\n') p).flatMap _ = []
        rw [hbranches]
        rfl
      rw [hbetween, tally_cons_of_ends_eq_nil hconsumes hnil, Position.crlf, hbefore]
    · obtain ⟨k, l, hsum, -, hl, -⟩ := exists_start_of_search_eq_some (s := s.crlf) hsearch
      cases l with
      | zero => exact absurd hl (hconsumes _)
      | succ l =>
        have hlast := getElem?_ne_of_endAvoids havoids hl
        rw [Position.rest_skip, List.getElem?_drop] at hlast
        obtain rfl : m = k + l := by omega
        exact absurd hm hlast

/-- A blind pattern is counted as often with carriage returns as without. -/
theorem tally_crlf (h : p.Blind) (s : Position) (hreturn : '\r' ∉ s.rest) :
    p.tally s.crlf = p.tally s := by
  have hconsumes := consumes_of_isNullable_eq_false h.not_nullable
  induction hlength : s.rest.length using Nat.strongRecOn generalizing s with
  | _ length ih =>
    have hsame := search_crlf h s hreturn
    cases hsearch : search p s.before (crlf s.rest) with
    | none =>
      rw [hsearch] at hsame
      rw [tally_of_search_eq_none (s := s.crlf) hsearch, tally_of_search_eq_none hsame.symm]
    | some n =>
      rw [hsearch] at hsame
      have hpos := hconsumes.pos_of_search hsame.symm
      have hle := le_length_of_search hsame.symm
      have hless : (s.skip (settled s.rest n)).rest.length < length := by
        rw [Position.rest_skip, List.length_drop]
        omega
      have hrest : '\r' ∉ (s.skip (settled s.rest n)).rest := by
        rw [Position.rest_skip]
        exact fun hmem => hreturn (List.mem_of_mem_drop hmem)
      rw [tally_of_search_eq_some (s := s.crlf) hconsumes hsearch,
        tally_of_search_eq_some hconsumes hsame.symm, tally_skip_crlf h hsearch,
        ih _ hless _ hrest rfl]

/-- A blind pattern is counted as often in the text with carriage returns as in the text. -/
theorem count_crlf (h : p.isBlind = true) {text : List Char} (hreturn : '\r' ∉ text) :
    p.count (crlf text) = p.count text :=
  tally_crlf (blind_of_isBlind h) ⟨none, text⟩ hreturn

end Blind

end LanguageDetection.Pattern
