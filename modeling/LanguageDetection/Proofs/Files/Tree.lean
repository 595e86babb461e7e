import Mathlib.Tactic.Common
import LanguageDetection.Files
import LanguageDetection.Proofs.Files.Path

/-!
# Trees of files

Where paths lead in a tree of files, and what is the same in trees that differ in one file.
-/

namespace LanguageDetection

/-!
## Trees that differ in one file

A path is followed through directories only.  So where two trees differ at a location that is a
directory in neither of them (`FileTree.DiffersAt`), every path leads to the same location in both,
and what is read at another location is the same.
-/

namespace FileTree

/-- A path is read if it leads to a file. -/
lemma read_eq_ok_iff {tree : FileTree} {directory : Location} {path : Path}
    {content : List UInt8} :
    tree.read directory path = .ok content ↔
      ∃ there, tree.resolve directory path = .ok there ∧
        tree.entry? there = some (.file content) := by
  unfold read find?
  cases tree.resolve directory path with
  | error fault => simp [bind, Except.bind]
  | ok there =>
    -- what stands there decides, and only a file has a content
    simp only [bind, Except.bind, Except.ok.injEq, exists_eq_left']
    cases tree.entry? there with
    | none => simp [throw, throwThe, MonadExceptOf.throw]
    | some entry => cases entry <;> simp [pure, Except.pure, throw, throwThe, MonadExceptOf.throw]

/-- Two trees that differ at one location at most, where neither has a directory: a file is changed,
made or removed. -/
structure DiffersAt (location : Location) (tree tree' : FileTree) : Prop where
  entry?_eq {other : Location} : other ≠ location → tree'.entry? other = tree.entry? other
  entry?_ne : tree.entry? location ≠ some .directory
  entry?_ne' : tree'.entry? location ≠ some .directory

namespace DiffersAt

variable {location : Location} {tree tree' : FileTree}

/-- Trees that differ in one file do so either way. -/
lemma symm (h : DiffersAt location tree tree') : DiffersAt location tree' tree where
  entry?_eq hne := (h.entry?_eq hne).symm
  entry?_ne := h.entry?_ne'
  entry?_ne' := h.entry?_ne

variable (h : DiffersAt location tree tree')

include h

/-- A step starts from a directory, and so from another location. -/
lemma enter_eq_ok {here there : Location} {part : List Char}
    (heq : tree.enter here part = .ok there) :
    tree'.enter here part = .ok there := by
  have hne : here ≠ location := by
    rintro rfl
    unfold enter at heq
    split at heq
    · cases heq
    · cases heq
    · exact h.entry?_ne ‹_›
  unfold enter at heq ⊢
  rwa [h.entry?_eq hne]

/-- The way along some parts is the same in both trees. -/
lemma foldlM_enter_eq_ok {here there : Location} {parts : List (List Char)}
    (heq : parts.foldlM tree.enter here = .ok there) :
    parts.foldlM tree'.enter here = .ok there := by
  induction parts generalizing here with
  | nil => exact heq
  | cons part parts ih =>
    rw [List.foldlM_cons] at heq ⊢
    cases henter : tree.enter here part with
    | error fault =>
      rw [henter] at heq
      cases heq
    | ok next =>
      rw [henter] at heq
      rw [h.enter_eq_ok henter]
      exact ih heq

/-- A path leads to the same location in both trees. -/
lemma resolve_eq_ok {directory there : Location} {path : Path}
    (heq : tree.resolve directory path = .ok there) : tree'.resolve directory path = .ok there := by
  unfold resolve at heq ⊢
  split_ifs at heq ⊢ with hempty
  exact h.foldlM_enter_eq_ok heq

/-- What is read at another location is the same. -/
lemma read_eq_ok {directory : Location} {path : Path} {content : List UInt8}
    (hne : tree.resolve directory path ≠ .ok location)
    (heq : tree.read directory path = .ok content) : tree'.read directory path = .ok content := by
  obtain ⟨there, hresolve, hentry⟩ := read_eq_ok_iff.mp heq
  have hthere : there ≠ location := by
    rintro rfl
    exact hne hresolve
  rw [← h.entry?_eq hthere] at hentry
  exact read_eq_ok_iff.mpr ⟨there, h.resolve_eq_ok hresolve, hentry⟩

end DiffersAt

end FileTree

/-!
## Locations and their paths

A tree is well formed (`FileTree.WellFormed`) if what stands somewhere stands in a directory, under
a name that a path can lead to.  In such a tree the path of a location leads there from everywhere,
and its ancestors are the paths of the locations above it.
-/

/-! ### Names -/

/-- A part of a path that leads from a directory to something in it. -/
structure Path.IsName (part : List Char) : Prop where
  slash_notMem : '/' ∉ part
  not_isVoid : Path.isVoid part = false
  ne_up : part ≠ ['.', '.']

/-- A name is not empty. -/
lemma Path.IsName.ne_nil {part : List Char} (h : Path.IsName part) : part ≠ [] := by
  rintro rfl
  have hvoid := h.not_isVoid
  cases hvoid

namespace Path

variable {location : Location} {name : List Char}

/-- The parts of the path of a location. -/
lemma parts_ofLocation (h : ∀ part ∈ location, IsName part) (hne : location ≠ []) :
    (ofLocation location).parts = [] :: location := by
  refine parts_ofParts ?_ (List.isEmpty_eq_false_iff.mpr hne)
  intro part hpart
  rcases List.mem_cons.mp hpart with rfl | hpart
  · exact List.not_mem_nil
  · exact (h part hpart).slash_notMem

/-- The path of a location begins at the root. -/
lemma isAbsolute_ofLocation (h : ∀ part ∈ location, IsName part) :
    (ofLocation location).isAbsolute = true := by
  refine isAbsolute_ofParts ?_
  intro part hpart
  rcases List.mem_cons.mp hpart with rfl | hpart
  · exact List.not_mem_nil
  · exact (h part hpart).slash_notMem

/-- One more part at the end brings one more separator. -/
lemma intercalate_concat {separator : List Char} {parts : List (List Char)} (hne : parts ≠ [])
    (part : List Char) :
    separator.intercalate (parts ++ [part]) =
      separator.intercalate parts ++ separator ++ part := by
  induction parts with
  | nil => exact absurd rfl hne
  | cons first parts ih =>
    cases parts with
    | nil =>
      rw [List.singleton_append, List.intercalate_cons_cons, List.intercalate_singleton,
        List.intercalate_singleton]
    | cons next parts =>
      rw [List.cons_append, List.cons_append, List.intercalate_cons_cons, ← List.cons_append,
        ih (List.cons_ne_nil next parts), List.intercalate_cons_cons]
      simp only [List.append_assoc]

/-- The path of a location that is not the root has a slash in front of each name. -/
lemma chars_ofLocation (hne : location ≠ []) :
    (ofLocation location).chars = ['/'].intercalate ([] :: location) := by
  unfold ofLocation ofParts
  rw [List.isEmpty_eq_false_iff.mpr hne]
  rfl

/-- The path of a location ends with its last name. -/
lemma chars_ofLocation_concat (location : Location) (name : List Char) :
    (ofLocation (location ++ [name])).chars =
      ['/'].intercalate ([] :: location) ++ '/' :: name := by
  rw [chars_ofLocation (List.concat_ne_nil name location), ← List.cons_append,
    intercalate_concat (List.cons_ne_nil [] location), List.append_assoc]
  rfl

/-- What a name leads to from the path of a location. -/
lemma join_ofLocation (h : ∀ part ∈ location, IsName part) (hname : IsName name) :
    (ofLocation location).join { chars := name } = ofLocation (location ++ [name]) := by
  have hrelative : ({ chars := name } : Path).isAbsolute = false := by
    cases name with
    | nil => rfl
    | cons c name =>
      have hc : c ≠ '/' := fun heq => hname.slash_notMem (heq ▸ List.mem_cons_self)
      simp [isAbsolute, hc]
  have hchars := chars_ofLocation_concat location name
  unfold join
  rw [if_neg (Bool.eq_false_iff.mp hrelative)]
  cases location using List.reverseRecOn with
  | nil => exact congrArg Path.mk hchars.symm
  | append_singleton location last =>
    have hlast := h last (List.mem_append_right location List.mem_cons_self)
    have hend : ¬ ((ofLocation (location ++ [last])).chars.isEmpty ||
        (ofLocation (location ++ [last])).chars.getLast? == some '/') = true := by
      obtain ⟨front, c, rfl⟩ := (List.eq_nil_or_concat' last).resolve_left hlast.ne_nil
      have hc : c ≠ '/' := by
        rintro rfl
        exact hlast.slash_notMem (List.mem_append_right front List.mem_cons_self)
      have hget : (ofLocation (location ++ [front ++ [c]])).chars.getLast? = some c := by
        rw [chars_ofLocation_concat, ← List.cons_append, ← List.append_assoc, List.getLast?_concat]
      have hne : (ofLocation (location ++ [front ++ [c]])).chars ≠ [] := by
        intro hnil
        rw [hnil] at hget
        cases hget
      simp [hget, hc, hne]
    rw [if_neg hend, chars_ofLocation (List.concat_ne_nil last location)]
    exact congrArg Path.mk hchars.symm

/-- Names at the end are not void. -/
lemma dropVoidEnd_of_isName (h : ∀ part ∈ location, IsName part) :
    dropVoidEnd location = location := by
  change location.rdropWhile isVoid = location
  rw [List.rdropWhile_eq_self_iff]
  intro hne hvoid
  rw [(h _ (List.getLast_mem hne)).not_isVoid] at hvoid
  exact Bool.false_ne_true hvoid

/-- Above a location is the one without its last name. -/
lemma parent?_ofLocation (h : ∀ part ∈ location ++ [name], IsName part) :
    (ofLocation (location ++ [name])).parent? = some (ofLocation location) := by
  have hne : location ++ [name] ≠ [] := List.concat_ne_nil name location
  have hparts := parts_ofLocation h hne
  have hkept : dropVoidEnd (location ++ [name]) ≠ [] := by
    rwa [dropVoidEnd_of_isName h]
  have habove : ∀ part ∈ location, IsName part :=
    fun part hpart => h part (List.mem_append_left [name] hpart)
  rw [parent?_of_dropVoidEnd_ne_nil hparts hkept, dropVoidEnd_of_isName h, List.dropLast_concat,
    dropVoidEnd_of_isName habove]
  rfl

/-- The way up from a location leads past each location above it, and past those between first. -/
lemma exists_ancestors_ofLocation {names : List (List Char)}
    (h : ∀ part ∈ location ++ names, IsName part) {depth : Nat} (hdepth : names.length < depth) :
    ∃ nearer farther, (ofLocation (location ++ names)).ancestors depth =
        nearer ++ ofLocation location :: farther ∧
      ∀ path ∈ nearer, ∃ names', names' <+: names ∧ names' ≠ [] ∧
        path = ofLocation (location ++ names') := by
  induction names using List.reverseRecOn generalizing depth with
  | nil =>
    obtain ⟨depth, rfl⟩ := Nat.exists_eq_add_one.mpr hdepth
    rw [List.append_nil, ancestors]
    exact ⟨[], _, rfl, fun path hpath => absurd hpath List.not_mem_nil⟩
  | append_singleton names name ih =>
    rw [List.length_append, List.length_singleton] at hdepth
    obtain ⟨depth, rfl⟩ := Nat.exists_eq_add_one.mpr (Nat.zero_lt_of_lt hdepth)
    rw [← List.append_assoc] at h ⊢
    obtain ⟨nearer, farther, hsplit, hnearer⟩ := ih
      (fun part hpart => h part (List.mem_append_left [name] hpart))
      (Nat.lt_of_add_lt_add_right hdepth)
    rw [ancestors_of_parent? (parent?_ofLocation h), hsplit]
    refine ⟨_ :: nearer, farther, rfl, ?_⟩
    intro path hpath
    rcases List.mem_cons.mp hpath with rfl | hpath
    · exact ⟨names ++ [name], List.prefix_rfl, List.concat_ne_nil name names,
        by rw [List.append_assoc]⟩
    · obtain ⟨names', hprefix, hne, rfl⟩ := hnearer path hpath
      exact ⟨names', hprefix.trans (List.prefix_append names [name]), hne, rfl⟩

end Path

namespace FileTree

/-! ### Well-formed trees -/

/-- A tree whose files and directories stand in directories, under proper names. -/
structure WellFormed (tree : FileTree) : Prop where
  root : tree.entry? [] = some .directory
  isName {location : Location} :
    tree.entry? location ≠ none → ∀ name ∈ location, Path.IsName name
  parent {location : Location} {name : List Char} :
    tree.entry? (location ++ [name]) ≠ none → tree.entry? location = some .directory

/-- The tree that has nothing but its root is well formed. -/
lemma wellFormed_empty : empty.WellFormed where
  root := rfl
  isName {location} h := by
    cases location with
    | nil => exact fun name hname => absurd hname List.not_mem_nil
    | cons part location => exact absurd rfl h
  parent {location name} h := by
    have hnone : empty.entry? (location ++ [name]) = none :=
      if_neg (List.concat_ne_nil name location)
    exact absurd hnone h

section WellFormed

variable {tree : FileTree} (h : tree.WellFormed)

include h

/-- A file in a directory, in place of another one or of nothing. -/
lemma WellFormed.set_file {location : Location} {name : List Char} (content : List UInt8)
    (hdirectory : tree.entry? location = some .directory) (hname : Path.IsName name)
    (hfile : tree.entry? (location ++ [name]) ≠ some .directory) :
    (tree.set (location ++ [name]) (.file content)).WellFormed where
  root := by
    unfold set
    dsimp only
    rw [if_neg (List.concat_ne_nil name location).symm]
    exact h.root
  isName {other} hother := by
    unfold set at hother
    dsimp only at hother
    split_ifs at hother with heq
    · have hlocation : tree.entry? location ≠ none := by
        rw [hdirectory]
        exact Option.some_ne_none _
      intro part hpart
      rw [heq] at hpart
      rcases List.mem_append.mp hpart with hpart | hpart
      · exact h.isName hlocation part hpart
      · exact List.mem_singleton.mp hpart ▸ hname
    · exact h.isName hother
  parent {other part} hother := by
    unfold set at hother ⊢
    dsimp only at hother ⊢
    have habove : tree.entry? other = some .directory := by
      split_ifs at hother with heq
      · obtain ⟨rfl, -⟩ := List.append_inj' heq rfl
        exact hdirectory
      · exact h.parent hother
    rw [if_neg]
    · exact habove
    · rintro rfl
      exact hfile habove

/-- All that stands above a directory is one. -/
lemma WellFormed.entry?_of_append {location : Location} {names : List (List Char)}
    (hdirectory : tree.entry? (location ++ names) = some .directory) :
    tree.entry? location = some .directory := by
  induction names using List.reverseRecOn with
  | nil => rwa [List.append_nil] at hdirectory
  | append_singleton names name ih =>
    rw [← List.append_assoc] at hdirectory
    apply ih
    apply h.parent
    rw [hdirectory]
    exact Option.some_ne_none _

end WellFormed

/-! ### Where paths lead -/

section Enter

variable {tree : FileTree} {here : Location}

/-- A part that means nothing leads nowhere else. -/
lemma enter_of_isVoid {part : List Char} (h : tree.entry? here = some .directory)
    (hvoid : Path.isVoid part = true) : tree.enter here part = .ok here := by
  unfold enter
  rw [h]
  dsimp only
  rw [if_pos hvoid]

/-- A name leads to the location below. -/
lemma enter_of_isName {name : List Char} (h : tree.entry? here = some .directory)
    (hname : Path.IsName name) : tree.enter here name = .ok (here ++ [name]) := by
  unfold enter
  rw [h]
  dsimp only
  rw [if_neg (Bool.eq_false_iff.mp hname.not_isVoid), if_neg hname.ne_up]

/-- Names lead down to a directory. -/
lemma foldlM_enter {names : List (List Char)} (hwell : tree.WellFormed)
    (hdirectory : tree.entry? (here ++ names) = some .directory) :
    names.foldlM tree.enter here = .ok (here ++ names) := by
  induction names generalizing here with
  | nil =>
    rw [List.append_nil]
    rfl
  | cons name names ih =>
    have hsome : tree.entry? (here ++ name :: names) ≠ none := by
      rw [hdirectory]
      exact Option.some_ne_none _
    have hname := hwell.isName hsome name (List.mem_append_right here List.mem_cons_self)
    have hhere := hwell.entry?_of_append hdirectory
    rw [List.append_cons] at hdirectory ⊢
    rw [List.foldlM_cons, enter_of_isName hhere hname]
    exact ih hdirectory

/-- The path of a location in a directory leads there. -/
lemma resolve_ofLocation {location : Location} {name : List Char} (hwell : tree.WellFormed)
    (hdirectory : tree.entry? location = some .directory) (hname : Path.IsName name)
    (here : Location) :
    tree.resolve here (Path.ofLocation (location ++ [name])) = .ok (location ++ [name]) := by
  have hsome : tree.entry? location ≠ none := by
    rw [hdirectory]
    exact Option.some_ne_none _
  have hnames : ∀ part ∈ location ++ [name], Path.IsName part := by
    intro part hpart
    rcases List.mem_append.mp hpart with hpart | hpart
    · exact hwell.isName hsome part hpart
    · exact List.mem_singleton.mp hpart ▸ hname
  have hne : location ++ [name] ≠ [] := List.concat_ne_nil name location
  have habsolute := Path.isAbsolute_ofLocation hnames
  have hchars : (Path.ofLocation (location ++ [name])).chars.isEmpty = false := by
    rw [List.isEmpty_eq_false_iff]
    intro hnil
    unfold Path.isAbsolute at habsolute
    rw [hnil] at habsolute
    cases habsolute
  unfold resolve start
  rw [if_neg (Bool.eq_false_iff.mp hchars), if_pos habsolute, Path.parts_ofLocation hnames hne,
    List.foldlM_cons, enter_of_isVoid hwell.root rfl]
  change (location ++ [name]).foldlM tree.enter [] = _
  have hdown : location.foldlM tree.enter [] = .ok ([] ++ location) := foldlM_enter hwell hdirectory
  rw [List.foldlM_append, hdown]
  change [name].foldlM tree.enter location = _
  rw [List.foldlM_cons, enter_of_isName hdirectory hname]
  rfl

end Enter

/-! ### What stands where a path leads -/

section Access

variable {tree : FileTree} {here there : Location} {path : Path}

/-- Where a path leads nowhere, nothing is read. -/
lemma read_of_resolve_eq_error {fault : FileError} (h : tree.resolve here path = .error fault) :
    tree.read here path = .error fault := by
  unfold read find?
  rw [h]
  rfl

/-- What is read is what stands at the location that the path leads to. -/
lemma read_of_resolve_eq_ok (h : tree.resolve here path = .ok there) :
    tree.read here path =
      match tree.entry? there with
      | none => .error .notFound
      | some .directory => .error .isDirectory
      | some (.file content) => .ok content := by
  unfold read find?
  rw [h]
  dsimp only [bind, Except.bind]
  rcases tree.entry? there with _ | _ | _ <;> rfl

variable (hend : (path.chars.getLast? == some '/') = false)

include hend

/-- Where a path leads nowhere, nothing is written. -/
lemma write_of_resolve_eq_error {fault : FileError} (h : tree.resolve here path = .error fault)
    (content : List UInt8) : tree.write here path content = .error fault := by
  unfold write
  rw [hend, h]
  rfl

/-- A file is written at the location that the path leads to, unless a directory stands there. -/
lemma write_of_resolve_eq_ok (h : tree.resolve here path = .ok there) (content : List UInt8) :
    tree.write here path content =
      match tree.entry? there with
      | some .directory => .error .isDirectory
      | _ => .ok (tree.set there (.file content)) := by
  unfold write
  rw [hend, h]
  dsimp only [bind, Except.bind]
  rcases tree.entry? there with _ | _ | _ <;> rfl

end Access

end FileTree

end LanguageDetection
