import Mathlib.Data.List.Chain
import Mathlib.Data.List.DropRight
import Mathlib.Data.List.Nodup
import Mathlib.Tactic.SplitIfs
import LanguageDetection.Files
import LanguageDetection.Proofs.Text

/-!
# Paths and the way up

A path has names (`Path.names`), the parts that mean something.  Going up removes the last of them
(`RemovesLastName`), and is impossible where there is none.  Every list of ancestors is therefore a
chain of different paths that is cut at the depth or ends where no name is left (`Ancestry`).
-/

namespace LanguageDetection.Path

/-! ## Parts and names -/

/-- The parts that mean something, of a first part and the others. -/
def namesOf (first : List Char) (rest : List (List Char)) : List (List Char) :=
  [first].filter (· != []) ++ rest.filter (!isVoid ·)

/-- The names of a path: its parts that mean something. -/
def names (path : Path) : List (List Char) :=
  match path.parts with
  | [] => []
  | first :: rest => namesOf first rest

section Parts

variable {path : Path} {first : List Char} {rest : List (List Char)}

lemma exists_parts_eq (path : Path) : ∃ first rest, path.parts = first :: rest :=
  List.exists_cons_of_ne_nil (List.splitOn_ne_nil '/' path.chars)

/-- The names of a path are those of its parts that mean something. -/
lemma names_of_parts_eq (h : path.parts = first :: rest) : path.names = namesOf first rest := by
  unfold names
  rw [h]

/-- Between the slashes there is none. -/
lemma slash_notMem_of_parts_eq (h : path.parts = first :: rest) :
    ∀ part ∈ first :: rest, '/' ∉ part := by
  rw [← h]
  exact fun part hpart => notMem_of_mem_splitOn hpart

/-- A path is put together again from its parts. -/
lemma chars_eq_intercalate (h : path.parts = first :: rest) :
    path.chars = ['/'].intercalate (first :: rest) := by
  rw [← h]
  exact (List.intercalate_splitOn '/').symm

/-- A path starts at the root if nothing stands before its first slash. -/
lemma isAbsolute_of_parts_eq (h : path.parts = first :: rest) :
    path.isAbsolute = (first.isEmpty && !rest.isEmpty) := by
  unfold isAbsolute
  rw [chars_eq_intercalate h]
  cases first with
  | nil => cases rest <;> rfl
  | cons c first =>
    have hslash : '/' ∉ c :: first := slash_notMem_of_parts_eq h _ List.mem_cons_self
    have hc : c ≠ '/' := fun heq => hslash (heq ▸ List.mem_cons_self)
    cases rest <;> simp [List.intercalate_cons_cons, hc]

section OfParts

variable (h : ∀ part ∈ first :: rest, '/' ∉ part)

include h

/-- Parts without slashes make a path that has these parts. -/
lemma parts_ofParts (hne : (first.isEmpty && rest.isEmpty) = false) :
    (ofParts first rest).parts = first :: rest := by
  unfold ofParts
  rw [hne]
  exact List.splitOn_intercalate '/' h (List.cons_ne_nil first rest)

/-- A path put together from parts has their names. -/
lemma names_ofParts : (ofParts first rest).names = namesOf first rest := by
  cases hempty : first.isEmpty && rest.isEmpty with
  | false => exact names_of_parts_eq (parts_ofParts h hempty)
  | true =>
    rw [Bool.and_eq_true, List.isEmpty_iff, List.isEmpty_iff] at hempty
    obtain ⟨rfl, rfl⟩ := hempty
    rfl

/-- A path is absolute if its first part is empty. -/
lemma isAbsolute_ofParts : (ofParts first rest).isAbsolute = first.isEmpty := by
  cases hempty : first.isEmpty && rest.isEmpty with
  | false =>
    rw [isAbsolute_of_parts_eq (parts_ofParts h hempty)]
    revert hempty
    cases first.isEmpty <;> cases rest.isEmpty <;> decide
  | true =>
    rw [Bool.and_eq_true, List.isEmpty_iff, List.isEmpty_iff] at hempty
    obtain ⟨rfl, rfl⟩ := hempty
    rfl

end OfParts

end Parts

/-! ## Parts at the end that mean nothing -/

section VoidEnd

variable {parts : List (List Char)}

lemma dropVoidEnd_isPrefix (parts : List (List Char)) : dropVoidEnd parts <+: parts :=
  List.rdropWhile_prefix isVoid parts

/-- They are no names. -/
lemma filter_dropVoidEnd (parts : List (List Char)) :
    (dropVoidEnd parts).filter (!isVoid ·) = parts.filter (!isVoid ·) := by
  change (parts.rdropWhile isVoid).filter _ = _
  induction parts using List.reverseRecOn with
  | nil => rfl
  | append_singleton parts part ih =>
    rw [List.rdropWhile_concat]
    split_ifs with hvoid
    · simp [ih, hvoid]
    · rfl

/-- Without them the last part is a name. -/
lemma filter_of_dropVoidEnd_ne_nil (h : dropVoidEnd parts ≠ []) :
    parts.filter (!isVoid ·) =
      (dropVoidEnd parts).dropLast.filter (!isVoid ·) ++ [(dropVoidEnd parts).getLast h] := by
  have hlast : ¬ isVoid ((dropVoidEnd parts).getLast h) = true :=
    List.rdropWhile_last_not isVoid parts h
  calc parts.filter (!isVoid ·)
      = (dropVoidEnd parts).filter (!isVoid ·) := (filter_dropVoidEnd parts).symm
    _ = ((dropVoidEnd parts).dropLast ++ [(dropVoidEnd parts).getLast h]).filter (!isVoid ·) := by
        rw [List.dropLast_concat_getLast h]
    _ = _ := by simp [hlast]

end VoidEnd

/-! ## The parent -/

/-- The parent of a path is what is left of it without its last name. -/
structure RemovesLastName (path parent : Path) : Prop where
  names_eq : ∃ name, path.names = parent.names ++ [name]
  isAbsolute_eq : parent.isAbsolute = path.isAbsolute
  chars_isPrefix : parent.chars <+: path.chars

section Parent

variable {path : Path} {first : List Char} {rest : List (List Char)}

/-- Fewer parts make a beginning of the text. -/
lemma intercalate_isPrefix {separator : List Char} {few many : List (List Char)}
    (h : few <+: many) : separator.intercalate few <+: separator.intercalate many := by
  induction few generalizing many with
  | nil => exact List.nil_prefix
  | cons part few ih =>
    obtain ⟨more, rfl⟩ := h
    cases few with
    | nil =>
      cases more with
      | nil => exact List.prefix_rfl
      | cons next more =>
        rw [List.intercalate_singleton, List.singleton_append, List.intercalate_cons_cons,
          List.append_assoc]
        exact List.prefix_append _ _
    | cons next few =>
      rw [List.cons_append, List.cons_append, List.intercalate_cons_cons,
        List.intercalate_cons_cons, ← List.cons_append]
      exact (List.prefix_append_right_inj _).mpr (ih (List.prefix_append _ _))

/-- A path put together from the first of the parts is a beginning of the path. -/
lemma chars_ofParts_isPrefix (h : path.parts = first :: rest) (hne : rest ≠ [])
    {few : List (List Char)} (hfew : few <+: rest) : (ofParts first few).chars <+: path.chars := by
  rw [chars_eq_intercalate h]
  unfold ofParts
  split_ifs with hempty
  · rw [Bool.and_eq_true, List.isEmpty_iff] at hempty
    obtain ⟨next, rest, rfl⟩ := List.exists_cons_of_ne_nil hne
    rw [hempty.1, List.intercalate_cons_cons, List.nil_append]
    exact List.prefix_append _ _
  · exact intercalate_isPrefix ((List.prefix_cons_inj first).mpr hfew)

/-- Where only the first part means something, nothing is left without it. -/
lemma parent?_of_dropVoidEnd_eq_nil (h : path.parts = first :: rest)
    (hkept : dropVoidEnd rest = []) :
    path.parent? = if first.isEmpty then none else some { chars := [] } := by
  unfold parent?
  rw [h]
  dsimp only
  rw [hkept]

/-- A path that has a name behind its first part loses the last one. -/
lemma parent?_of_dropVoidEnd_ne_nil (h : path.parts = first :: rest)
    (hkept : dropVoidEnd rest ≠ []) :
    path.parent? = some (ofParts first (dropVoidEnd (dropVoidEnd rest).dropLast)) := by
  unfold parent?
  rw [h]
  dsimp only
  split
  · contradiction
  · rfl

/-- A path of one name becomes the empty path. -/
lemma removesLastName_of_dropVoidEnd_eq_nil (h : path.parts = first :: rest)
    (hkept : dropVoidEnd rest = []) (hfirst : first ≠ []) :
    path.RemovesLastName { chars := [] } where
  names_eq := by
    have hrest : rest.filter (!isVoid ·) = [] := by
      rw [← filter_dropVoidEnd, hkept, List.filter_nil]
    have hnone : ({ chars := [] } : Path).names = [] := rfl
    refine ⟨first, ?_⟩
    rw [names_of_parts_eq h, namesOf, hrest, hnone]
    simp [hfirst]
  isAbsolute_eq := by
    rw [isAbsolute_of_parts_eq h, List.isEmpty_eq_false_iff.mpr hfirst]
    rfl
  chars_isPrefix := List.nil_prefix

/-- A path of several names loses the last one and nothing else. -/
lemma removesLastName_of_dropVoidEnd_ne_nil (h : path.parts = first :: rest)
    (hkept : dropVoidEnd rest ≠ []) :
    path.RemovesLastName (ofParts first (dropVoidEnd (dropVoidEnd rest).dropLast)) := by
  have hrest : rest ≠ [] := by
    rintro rfl
    exact hkept rfl
  have hfew : dropVoidEnd (dropVoidEnd rest).dropLast <+: rest :=
    ((dropVoidEnd_isPrefix _).trans (List.dropLast_prefix _)).trans (dropVoidEnd_isPrefix rest)
  have hslash : ∀ part ∈ first :: dropVoidEnd (dropVoidEnd rest).dropLast, '/' ∉ part := by
    intro part hpart
    exact slash_notMem_of_parts_eq h part (((List.prefix_cons_inj first).mpr hfew).subset hpart)
  refine { names_eq := ⟨(dropVoidEnd rest).getLast hkept, ?_⟩, isAbsolute_eq := ?_,
           chars_isPrefix := chars_ofParts_isPrefix h hrest hfew }
  · rw [names_of_parts_eq h, names_ofParts hslash, namesOf, namesOf,
      filter_of_dropVoidEnd_ne_nil hkept, filter_dropVoidEnd, List.append_assoc]
  · rw [isAbsolute_of_parts_eq h, isAbsolute_ofParts hslash, List.isEmpty_eq_false_iff.mpr hrest,
      Bool.not_false, Bool.and_true]

/-- A path without names has no parent. -/
lemma parent?_of_names_eq_nil (h : path.names = []) : path.parent? = none := by
  obtain ⟨first, rest, hparts⟩ := exists_parts_eq path
  have hkept : dropVoidEnd rest = [] := by
    by_contra hkept
    obtain ⟨name, hnames⟩ := (removesLastName_of_dropVoidEnd_ne_nil hparts hkept).names_eq
    rw [h] at hnames
    exact List.append_ne_nil_of_right_ne_nil _ (List.cons_ne_nil name []) hnames.symm
  have hfirst : first = [] := by
    by_contra hfirst
    obtain ⟨name, hnames⟩ := (removesLastName_of_dropVoidEnd_eq_nil hparts hkept hfirst).names_eq
    rw [h] at hnames
    exact List.append_ne_nil_of_right_ne_nil _ (List.cons_ne_nil name []) hnames.symm
  rw [parent?_of_dropVoidEnd_eq_nil hparts hkept, hfirst]
  rfl

/-- Every other path has one. -/
lemma exists_parent?_of_names_ne_nil (h : path.names ≠ []) :
    ∃ parent, path.parent? = some parent ∧ path.RemovesLastName parent := by
  obtain ⟨first, rest, hparts⟩ := exists_parts_eq path
  by_cases hkept : dropVoidEnd rest = []
  · have hfirst : first ≠ [] := by
      rintro rfl
      refine h ?_
      rw [names_of_parts_eq hparts, namesOf, ← filter_dropVoidEnd, hkept]
      rfl
    refine ⟨_, ?_, removesLastName_of_dropVoidEnd_eq_nil hparts hkept hfirst⟩
    rw [parent?_of_dropVoidEnd_eq_nil hparts hkept, List.isEmpty_eq_false_iff.mpr hfirst]
    rfl
  · exact ⟨_, parent?_of_dropVoidEnd_ne_nil hparts hkept,
      removesLastName_of_dropVoidEnd_ne_nil hparts hkept⟩

end Parent

/-! ## Ancestors -/

/-- The way up from a path: a chain of different paths, each without the last name of the one before
it, until there are enough or no name is left. -/
structure Ancestry (start : Path) (depth : Nat) (paths : List Path) : Prop where
  length_eq : paths.length = min depth (start.names.length + 1)
  head?_eq : 0 < depth → paths.head? = some start
  isChain : paths.IsChain RemovesLastName
  names_eq_nil : paths.length < depth → ∃ last ∈ paths.getLast?, last.names = []
  nodup_names : (paths.map names).Nodup

section Ancestors

/-- The parent has one name less. -/
lemma RemovesLastName.length_names {path parent : Path} (h : path.RemovesLastName parent) :
    path.names.length = parent.names.length + 1 := by
  obtain ⟨name, hnames⟩ := h.names_eq
  rw [hnames, List.length_append, List.length_singleton]

/-- A path without a name has no ancestor but itself. -/
lemma ancestors_of_names_eq_nil {start : Path} (h : start.names = []) (depth : Nat) :
    start.ancestors (depth + 1) = [start] := by
  rw [ancestors, parent?_of_names_eq_nil h]
  rfl

/-- The ancestors of a path are the path itself and those of its parent. -/
lemma ancestors_of_parent? {start parent : Path} (h : start.parent? = some parent) (depth : Nat) :
    start.ancestors (depth + 1) = start :: parent.ancestors depth := by
  rw [ancestors, h]
  rfl

/-- On a chain the number of names falls, so that no names come twice. -/
lemma nodup_names_of_isChain {paths : List Path} (h : paths.IsChain RemovesLastName) :
    (paths.map names).Nodup := by
  have hfall : ((paths.map names).map List.length).IsChain (· > ·) := by
    rw [List.map_map]
    refine (List.isChain_map _).mpr (h.imp fun path parent hparent => ?_)
    rw [Function.comp_apply, Function.comp_apply, hparent.length_names]
    exact Nat.lt_succ_self _
  exact List.Nodup.of_map _ (hfall.pairwise.imp ne_of_gt)

/-- The ancestors of a path are the way up from it. -/
lemma ancestry_ancestors (start : Path) (depth : Nat) :
    Ancestry start depth (start.ancestors depth) := by
  induction depth generalizing start with
  | zero =>
    exact {
      length_eq := (Nat.zero_min _).symm
      head?_eq := fun h => absurd h (lt_irrefl 0)
      isChain := List.isChain_nil
      names_eq_nil := fun h => absurd h (Nat.not_lt_zero _)
      nodup_names := List.nodup_nil }
  | succ depth ih =>
    by_cases hnames : start.names = []
    · rw [ancestors_of_names_eq_nil hnames]
      exact {
        length_eq := by rw [hnames]; simp
        head?_eq := fun _ => rfl
        isChain := List.isChain_singleton start
        names_eq_nil := fun _ => ⟨start, rfl, hnames⟩
        nodup_names := List.nodup_singleton start.names }
    · obtain ⟨parent, hparent, hremoves⟩ := exists_parent?_of_names_ne_nil hnames
      have hrest := ih parent
      rw [ancestors_of_parent? hparent]
      have hchain : (start :: parent.ancestors depth).IsChain RemovesLastName := by
        refine List.isChain_cons.mpr ⟨fun next hnext => ?_, hrest.isChain⟩
        cases depth with
        | zero => cases hnext
        | succ depth =>
          rw [hrest.head?_eq (Nat.succ_pos depth), Option.mem_some_iff] at hnext
          exact hnext ▸ hremoves
      exact {
        length_eq := by
          rw [List.length_cons, hrest.length_eq, hremoves.length_names]
          exact (Nat.succ_min_succ _ _).symm
        head?_eq := fun _ => rfl
        isChain := hchain
        names_eq_nil := fun hlt => by
          obtain ⟨last, hlast, hnil⟩ := hrest.names_eq_nil (Nat.lt_of_succ_lt_succ hlt)
          refine ⟨last, ?_, hnil⟩
          rw [List.getLast?_cons, Option.mem_def.mp hlast]
          rfl
        nodup_names := nodup_names_of_isChain hchain }

end Ancestors

end LanguageDetection.Path
