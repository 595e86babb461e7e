import Mathlib.Data.List.Sort
import LanguageDetection.Features

/-!
# Sorting

`sortBy` is insertion sort for the relation that a comparison decides, so what the library knows of
insertion sort carries over: the result is a permutation, it is in order, and where the comparison
tells all elements apart it does not depend on the order of the input.

The second part follows one element through two sorts.  Taking it out of the input takes it out of
the result and leaves the rest in place (`exists_sortBy_append_cons`), and an element that is moved
forward by the comparison does not fall behind (`length_le_of_precedes`).  At last, lists that agree
place by place are sorted in the same way (`forall₂_sortBy`).
-/

namespace LanguageDetection

variable {β : Type} {precedes : β → β → Bool}

/-! ## Insertion sort -/

/-- An insertion is that of the library, for the relation that the comparison decides. -/
lemma insertBy_eq_orderedInsert (a : β) (l : List β) :
    insertBy precedes a l = l.orderedInsert (fun a b => precedes a b = true) a := by
  induction l with
  | nil => rfl
  | cons b l ih => rw [insertBy, List.orderedInsert_cons, ih]

/-- Sorting is the insertion sort of the library. -/
lemma sortBy_eq_insertionSort (l : List β) :
    sortBy precedes l = l.insertionSort (fun a b => precedes a b = true) := by
  induction l with
  | nil => rfl
  | cons a l ih =>
    rw [List.insertionSort_cons, ← ih, ← insertBy_eq_orderedInsert]
    rfl

/-- Sorting neither loses nor adds an element. -/
theorem sortBy_perm (l : List β) : (sortBy precedes l).Perm l := by
  rw [sortBy_eq_insertionSort]
  exact List.perm_insertionSort _ l

@[simp] lemma mem_sortBy {a : β} {l : List β} : a ∈ sortBy precedes l ↔ a ∈ l :=
  (sortBy_perm l).mem_iff

section Order

variable (trans : ∀ a b c, precedes a b = true → precedes b c = true → precedes a c = true)
  (total : ∀ a b, precedes a b = true ∨ precedes b a = true)

include trans total

/-- A sorted list is in order. -/
theorem sortBy_pairwise (l : List β) :
    (sortBy precedes l).Pairwise (fun a b => precedes a b = true) := by
  have : IsTrans β (fun a b => precedes a b = true) := ⟨trans⟩
  have : Std.Total (fun a b => precedes a b = true) := ⟨total⟩
  rw [sortBy_eq_insertionSort]
  exact List.pairwise_insertionSort _ l

/-- Where the comparison tells all elements apart, the input's order has no influence. -/
theorem sortBy_eq_of_perm {l l' : List β} (hperm : l.Perm l')
    (hanti : ∀ a ∈ l, ∀ b ∈ l, precedes a b = true → precedes b a = true → a = b) :
    sortBy precedes l = sortBy precedes l' := by
  refine List.Perm.eq_of_pairwise ?_ (sortBy_pairwise trans total l)
    (sortBy_pairwise trans total l') ((sortBy_perm l).trans (hperm.trans (sortBy_perm l').symm))
  intro a b ha hb hab hba
  exact hanti a (mem_sortBy.mp ha) b (hperm.mem_iff.mpr (mem_sortBy.mp hb)) hab hba

end Order

/-! ## One element among the others -/

section Split

variable (trans : ∀ a b c, precedes a b = true → precedes b c = true → precedes a c = true)

/-- Inserting an element splits the list at some place. -/
lemma exists_insertBy_eq (a : β) (l : List β) :
    ∃ before after, insertBy precedes a l = before ++ a :: after ∧ before ++ after = l := by
  induction l with
  | nil => exact ⟨[], [], rfl, rfl⟩
  | cons b l ih =>
    rw [insertBy]
    split
    · exact ⟨[], b :: l, rfl, rfl⟩
    · obtain ⟨before, after, hinsert, hsplit⟩ := ih
      exact ⟨b :: before, after, by rw [hinsert]; rfl, by rw [← hsplit]; rfl⟩

include trans

/-- In a list in order it makes no difference for inserting `a` whether `b` stands in the list. -/
lemma exists_insertBy_append_cons (a b : β) {before after : List β}
    (hsorted : (before ++ b :: after).Pairwise (fun a b => precedes a b = true)) :
    ∃ before' after', insertBy precedes a (before ++ b :: after) = before' ++ b :: after' ∧
      before' ++ after' = insertBy precedes a (before ++ after) := by
  induction before with
  | nil =>
    rw [List.nil_append] at hsorted ⊢
    rw [insertBy]
    split
    · next hab =>
      refine ⟨[a], after, rfl, ?_⟩
      cases after with
      | nil => rfl
      | cons c after =>
        -- `c` stands behind `b`, so `a` goes in front of `c` as well
        have hbc : precedes b c = true := (List.pairwise_cons.mp hsorted).1 c (by simp)
        rw [List.nil_append, insertBy, if_pos (trans a b c hab hbc)]
        rfl
    · exact ⟨[], insertBy precedes a after, rfl, rfl⟩
  | cons c before ih =>
    rw [List.cons_append] at hsorted ⊢
    rw [List.cons_append, insertBy, insertBy]
    split
    · exact ⟨a :: c :: before, after, rfl, rfl⟩
    · obtain ⟨before', after', hinsert, hsplit⟩ := ih (List.pairwise_cons.mp hsorted).2
      exact ⟨c :: before', after', by rw [hinsert]; rfl, by rw [← hsplit]; rfl⟩

/-- Sorting with an element and sorting without it give the same list but for that element. -/
theorem exists_sortBy_append_cons
    (total : ∀ a b, precedes a b = true ∨ precedes b a = true) (left right : List β) (b : β) :
    ∃ before after, sortBy precedes (left ++ b :: right) = before ++ b :: after ∧
      before ++ after = sortBy precedes (left ++ right) := by
  induction left with
  | nil => exact exists_insertBy_eq b (sortBy precedes right)
  | cons a left ih =>
    obtain ⟨before, after, hsort, hsplit⟩ := ih
    have hsorted := sortBy_pairwise trans total (left ++ b :: right)
    rw [hsort] at hsorted
    obtain ⟨before', after', hinsert, hsplit'⟩ := exists_insertBy_append_cons trans a b hsorted
    refine ⟨before', after', ?_, ?_⟩
    · change insertBy precedes a (sortBy precedes (left ++ b :: right)) = _
      rw [hsort, hinsert]
    · change _ = insertBy precedes a (sortBy precedes (left ++ right))
      rw [hsplit', hsplit]

/-- Among the same others, an element that comes before another one does not stand further back
than it. -/
theorem length_le_of_precedes
    {a a' : β} {before after before' after' : List β}
    (hothers : before' ++ after' = before ++ after)
    (hsorted : (before ++ a :: after).Pairwise (fun a b => precedes a b = true))
    (hsorted' : (before' ++ a' :: after').Pairwise (fun a b => precedes a b = true))
    (hfirst : precedes a' a = true)
    (hapart : ∀ b ∈ before ++ after, precedes a' b = true → precedes b a' = false) :
    before'.length ≤ before.length := by
  by_contra hlength
  -- an element between the two places stands behind `a` and in front of `a'`
  obtain ⟨between, hbefore, hafter⟩ : ∃ between, before' = before ++ between ∧
      after = between ++ after' := by
    rcases List.append_eq_append_iff.mp hothers with ⟨between, hbefore, -⟩ | h
    · rw [hbefore, List.length_append] at hlength
      omega
    · exact h
  cases between with
  | nil => simp [hbefore] at hlength
  | cons b between =>
    have hab : precedes a b = true := by
      have htail := (List.pairwise_append.mp hsorted).2.1
      exact (List.pairwise_cons.mp htail).1 b (by simp [hafter])
    have hba : precedes b a' = true :=
      (List.pairwise_append.mp hsorted').2.2 b (by simp [hbefore]) a' (by simp)
    have hfar := hapart b (by simp [hafter]) (trans a' a b hfirst hab)
    rw [hba] at hfar
    exact Bool.noConfusion hfar

end Split

/-! ## Two lists side by side -/

section Agreement

variable {β γ : Type} {R : β → γ → Prop} {p : β → β → Bool} {q : γ → γ → Bool}
  (hpq : ∀ {a a' : β} {b b' : γ}, R a b → R a' b' → p a a' = q b b')

include hpq

/-- An insertion keeps lists that agree place by place in agreement. -/
lemma forall₂_insertBy {a : β} {b : γ} (hab : R a b) {l : List β} {l' : List γ}
    (h : List.Forall₂ R l l') : List.Forall₂ R (insertBy p a l) (insertBy q b l') := by
  induction h with
  | nil => exact .cons hab .nil
  | cons hhead htail ih =>
    rw [insertBy, insertBy, hpq hab hhead]
    split
    · exact .cons hab (.cons hhead htail)
    · exact .cons hhead ih

/-- Lists that agree place by place are sorted in the same way by comparisons that agree. -/
theorem forall₂_sortBy {l : List β} {l' : List γ} (h : List.Forall₂ R l l') :
    List.Forall₂ R (sortBy p l) (sortBy q l') := by
  induction h with
  | nil => exact .nil
  | cons hhead _ ih => exact forall₂_insertBy (R := R) hpq hhead ih

end Agreement

end LanguageDetection
