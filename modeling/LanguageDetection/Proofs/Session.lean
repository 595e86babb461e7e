import LanguageDetection.Proofs.CommandLine
import LanguageDetection.Proofs.Files.Tree
import LanguageDetection.Proofs.Settings.Discovery

/-!
# Calls one after the other

The one command that writes is the one that creates a settings document, and it writes nothing but
the document of the current directory (`Call.perform_of_creates`).  What it does and what it answers
hang on what kinds of things are there, and not on what any file holds.  So whatever is called, a
file is either as it was before or holds the document of a new project, and then it sets the usual
thresholds for all directories that have no nearer document.
-/

namespace LanguageDetection

/-! ## Kinds of entries -/

/-- What kind of thing stands at a location. -/
inductive EntryKind where
  | file
  | directory

namespace FileTree

/-- The kind of what stands at a location, if anything does. -/
def kind? (tree : FileTree) (location : Location) : Option EntryKind :=
  match tree.entry? location with
  | some (.file _) => some .file
  | some .directory => some .directory
  | none => none

/-- The same kinds of things at the same places, whatever the files hold. -/
def SameKinds (tree tree' : FileTree) : Prop :=
  ∀ location, tree'.kind? location = tree.kind? location

/-- There is no kind exactly where nothing stands. -/
lemma kind?_eq_none_iff {tree : FileTree} {location : Location} :
    tree.kind? location = none ↔ tree.entry? location = none := by
  unfold kind?
  rcases tree.entry? location with _ | _ | _ <;> simp

/-- The kind of a directory stands exactly where there is one. -/
lemma kind?_eq_directory_iff {tree : FileTree} {location : Location} :
    tree.kind? location = some .directory ↔ tree.entry? location = some .directory := by
  unfold kind?
  rcases tree.entry? location with _ | _ | _ <;> simp

/-- The kind of a file does not tell what the file holds. -/
lemma kind?_eq_file_iff {tree : FileTree} {location : Location} :
    tree.kind? location = some .file ↔ ∃ content, tree.entry? location = some (.file content) := by
  unfold kind?
  rcases tree.entry? location with _ | _ | _ <;> simp

end FileTree

/-! ## The creation of a document -/

namespace Settings

/-- Why a document is not created, by what stands at the directory and at the place of the document.
-/
def creationFailure (directory document : Option EntryKind) (force : Bool) : Option Failure :=
  match directory, document, force with
  | none, _, _ => some (.ofFileError .notFound)
  | some .file, _, _ => some (.ofFileError .notDirectory)
  | some .directory, none, _ => none
  | some .directory, some _, false =>
    some { message := "Configuration file already exists. Use --force to overwrite." }
  | some .directory, some .file, true => none
  | some .directory, some .directory, true => some (.ofFileError .isDirectory)

/-- Without a failure there is a directory, and no other one where the document is to be. -/
lemma of_creationFailure_eq_none {directory document : Option EntryKind} {force : Bool}
    (h : creationFailure directory document force = none) :
    directory = some .directory ∧ document ≠ some .directory := by
  rcases directory with _ | _ | _
  · cases h
  · cases h
  · refine ⟨rfl, ?_⟩
    rintro rfl
    cases force <;> cases h

/-- Where something is, only force makes way. -/
lemma exists_creationFailure_eq_some (directory : Option EntryKind) {document : Option EntryKind}
    (h : document ≠ none) : ∃ failure, creationFailure directory document false = some failure := by
  obtain ⟨kind, rfl⟩ := Option.ne_none_iff_exists'.mp h
  rcases directory with _ | _ | _ <;> cases kind <;> exact ⟨_, rfl⟩

/-- The name of a document leads to it from its directory. -/
lemma isName_documentName : Path.IsName documentName.toList where
  slash_notMem := by decide
  not_isVoid := by decide
  ne_up := by decide

end Settings

namespace Call

/-- The location of the settings document of the current directory. -/
def documentLocation (call : Call) : Location :=
  call.directory ++ [Settings.documentName.toList]

/-- The path under which the document is created. -/
def documentPath : Path :=
  Settings.documentIn (.ofString ".")

section Creation

variable {call : Call} {tree : FileTree}

lemma parts_documentPath : documentPath.parts = [['.'], Settings.documentName.toList] := by
  decide

/-- The path leads through the current directory to the name of the document. -/
lemma resolve_documentPath (call : Call) (tree : FileTree) :
    tree.resolve call.directory documentPath =
      tree.enter call.directory ['.'] >>= fun directory =>
        tree.enter directory Settings.documentName.toList := by
  have hchars : documentPath.chars.isEmpty = false := by decide
  have hrelative : documentPath.isAbsolute = false := by decide
  unfold FileTree.resolve FileTree.start
  rw [hchars, hrelative, parts_documentPath]
  change [['.'], Settings.documentName.toList].foldlM tree.enter call.directory = _
  simp only [List.foldlM_cons, List.foldlM_nil, bind_pure]

/-- From a directory that is there, the path leads to the place of its document. -/
lemma resolve_documentPath_of_directory (h : tree.entry? call.directory = some .directory) :
    tree.resolve call.directory documentPath = .ok call.documentLocation := by
  rw [resolve_documentPath, FileTree.enter_of_isVoid h rfl]
  exact FileTree.enter_of_isName h Settings.isName_documentName

/-- A path to what is in something else than a directory leads nowhere. -/
lemma resolve_documentPath_of_error {fault : FileError}
    (h : tree.enter call.directory ['.'] = .error fault) :
    tree.resolve call.directory documentPath = .error fault := by
  rw [resolve_documentPath, h]
  rfl

/-- A creation writes the document of a new project unless it may not. -/
lemma perform_of_asksFor_init {invocation : Invocation} {force : Bool} (h : call.AsksFor invocation)
    (hcommand : invocation.command = .init force) :
    call.perform tree =
      match Settings.creationPath (tree.read call.directory) (.ofString ".") force with
      | .error failure => (tree, .shown "" (some failure))
      | .ok path =>
        match tree.write call.directory path Settings.templateBytes with
        | .ok tree => (tree, .shown Invocation.createdMessage none)
        | .error fault => (tree, .shown "" (some (.ofFileError fault))) := by
  have hrun : invocation.run (call.surroundings tree) =
      Invocation.answer (.init force) (call.surroundings tree) {}
        (call.environment.usesColour invocation.plain) := by
    obtain ⟨_, config, verbosity, plain⟩ := invocation
    subst hcommand
    rfl
  have hread : (call.surroundings tree).sources.read = tree.read call.directory := rfl
  unfold perform
  rw [outcome_of_asksFor h, hrun, Invocation.answer, hread]
  cases Settings.creationPath (tree.read call.directory) (.ofString ".") force <;> rfl

/-- The path of the document is refused if something is there and may not be replaced. -/
lemma creationPath_eq {read : FileReader} {found : Bool} (h : read.exists documentPath = found)
    (force : Bool) :
    Settings.creationPath read (.ofString ".") force =
      if found && !force then
        .error { message := "Configuration file already exists. Use --force to overwrite." }
      else .ok documentPath := by
  subst h
  rfl

lemma getLast?_documentPath : (documentPath.chars.getLast? == some '/') = false := by
  decide

section Init

variable {invocation : Invocation} {force : Bool} (h : call.AsksFor invocation)
  (hcommand : invocation.command = .init force)

include h hcommand

/-- Without a current directory there is nothing to create. -/
lemma perform_of_enter_eq_error {fault : FileError}
    (henter : tree.enter call.directory ['.'] = .error fault) (habsence : fault.isAbsence = true) :
    call.perform tree = (tree, .shown "" (some (.ofFileError fault))) := by
  have hresolve := resolve_documentPath_of_error henter
  have hexists : FileReader.exists (tree.read call.directory) documentPath = false := by
    unfold FileReader.exists
    rw [FileTree.read_of_resolve_eq_error hresolve]
    dsimp only
    rw [habsence]
    rfl
  rw [perform_of_asksFor_init h hcommand, creationPath_eq hexists, Bool.false_and,
    if_neg Bool.false_ne_true]
  dsimp only
  rw [FileTree.write_of_resolve_eq_error getLast?_documentPath hresolve]

/-- In a directory it matters what stands at the place of the document. -/
lemma perform_of_entry?_eq_directory (hdirectory : tree.entry? call.directory = some .directory) :
    call.perform tree =
      if (tree.kind? call.documentLocation).isSome && !force then
        (tree, .shown "" (some
          { message := "Configuration file already exists. Use --force to overwrite." }))
      else
        match tree.kind? call.documentLocation with
        | some .directory => (tree, .shown "" (some (.ofFileError .isDirectory)))
        | _ => (tree.set call.documentLocation (.file Settings.templateBytes),
            .shown Invocation.createdMessage none) := by
  have hresolve := resolve_documentPath_of_directory hdirectory
  have hexists : FileReader.exists (tree.read call.directory) documentPath =
      (tree.kind? call.documentLocation).isSome := by
    unfold FileReader.exists FileTree.kind?
    rw [FileTree.read_of_resolve_eq_ok hresolve]
    rcases tree.entry? call.documentLocation with _ | _ | _ <;> rfl
  rw [perform_of_asksFor_init h hcommand, creationPath_eq hexists]
  split_ifs
  · rfl
  · dsimp only
    rw [FileTree.write_of_resolve_eq_ok getLast?_documentPath hresolve]
    unfold FileTree.kind?
    rcases tree.entry? call.documentLocation with _ | _ | _ <;> rfl

end Init

/-- A creation does what the kinds of things at its two places allow, and says why it does not. -/
theorem perform_of_creates {force : Bool} (h : call.Creates force) :
    call.perform tree =
      match Settings.creationFailure (tree.kind? call.directory) (tree.kind? call.documentLocation)
        force with
      | some failure => (tree, .shown "" (some failure))
      | none => (tree.set call.documentLocation (.file Settings.templateBytes),
          .shown Invocation.createdMessage none) := by
  obtain ⟨invocation, hasks, hcommand⟩ := h
  rcases hkind : tree.kind? call.directory with _ | _ | _
  · refine perform_of_enter_eq_error hasks hcommand ?_ rfl
    unfold FileTree.enter
    rw [FileTree.kind?_eq_none_iff.mp hkind]
  · refine perform_of_enter_eq_error hasks hcommand ?_ rfl
    obtain ⟨content, hfile⟩ := FileTree.kind?_eq_file_iff.mp hkind
    unfold FileTree.enter
    rw [hfile]
  · rw [perform_of_entry?_eq_directory hasks hcommand (FileTree.kind?_eq_directory_iff.mp hkind)]
    rcases tree.kind? call.documentLocation with _ | _ | _ <;> cases force <;> rfl

end Creation

/-! ## Steps and runs -/

/-- A call leaves the tree as it is, or puts the document of a new project into the current
directory, in place of another one or of nothing. -/
lemma perform_cases (call : Call) (tree : FileTree) :
    (call.perform tree).1 = tree ∨
      (∃ force, call.Creates force) ∧ tree.entry? call.directory = some .directory ∧
        tree.entry? call.documentLocation ≠ some .directory ∧
          (call.perform tree).1 =
            tree.set call.documentLocation (.file Settings.templateBytes) := by
  by_cases hcreates : ∃ force, call.Creates force
  · obtain ⟨force, hforce⟩ := hcreates
    rw [perform_of_creates hforce]
    cases hfailure : Settings.creationFailure (tree.kind? call.directory)
        (tree.kind? call.documentLocation) force with
    | some failure => exact .inl rfl
    | none =>
      obtain ⟨hdirectory, hdocument⟩ := Settings.of_creationFailure_eq_none hfailure
      rw [FileTree.kind?_eq_directory_iff] at hdirectory
      rw [Ne, FileTree.kind?_eq_directory_iff] at hdocument
      exact .inr ⟨⟨force, hforce⟩, hdirectory, hdocument, rfl⟩
  · exact .inl (perform_of_not_creates (fun force hforce => hcreates ⟨force, hforce⟩) tree)

lemma performAll_cons (call : Call) (calls : List Call) (tree : FileTree) :
    performAll (call :: calls) tree = performAll calls (call.perform tree).1 :=
  rfl

lemma performAll_append (before after : List Call) (tree : FileTree) :
    performAll (before ++ after) tree = performAll after (performAll before tree) :=
  List.foldl_append

section Runs

variable {calls : List Call} {tree : FileTree} {location : Location}

/-- A call changes nothing but the document of its current directory. -/
lemma entry?_perform {call : Call}
    (h : (∃ force, call.Creates force) → call.documentLocation ≠ location) :
    FileTree.entry? (call.perform tree).1 location = tree.entry? location := by
  rcases perform_cases call tree with heq | ⟨hcreates, -, -, heq⟩
  · rw [heq]
  · rw [heq]
    exact if_neg (h hcreates).symm

/-- A location is left alone by calls none of which creates the document that belongs there. -/
lemma entry?_performAll
    (h : ∀ call ∈ calls, (∃ force, call.Creates force) → call.documentLocation ≠ location) :
    FileTree.entry? (performAll calls tree) location = tree.entry? location := by
  induction calls generalizing tree with
  | nil => rfl
  | cons call calls ih =>
    obtain ⟨hcall, hcalls⟩ := List.forall_mem_cons.mp h
    rw [performAll_cons, ih hcalls, entry?_perform hcall]

/-- What is changed holds the document of a new project. -/
lemma entry?_performAll_cases (calls : List Call) (tree : FileTree) (location : Location) :
    FileTree.entry? (performAll calls tree) location = tree.entry? location ∨
      FileTree.entry? (performAll calls tree) location = some (.file Settings.templateBytes) := by
  induction calls generalizing tree with
  | nil => exact .inl rfl
  | cons call calls ih =>
    rw [performAll_cons]
    rcases ih (call.perform tree).1 with hsame | hnew
    · rw [hsame]
      rcases perform_cases call tree with heq | ⟨-, -, -, heq⟩
      · exact .inl (congrArg (fun tree => tree.entry? location) heq)
      · rw [heq]
        by_cases hlocation : location = call.documentLocation
        · exact .inr (if_pos hlocation)
        · exact .inl (if_neg hlocation)
    · exact .inr hnew

/-- Calls lead from one well-formed tree to another. -/
lemma wellFormed_performAll (h : tree.WellFormed) : (performAll calls tree).WellFormed := by
  induction calls generalizing tree with
  | nil => exact h
  | cons call calls ih =>
    rw [performAll_cons]
    rcases perform_cases call tree with heq | ⟨-, hdirectory, hdocument, heq⟩
    · rw [heq]
      exact ih h
    · rw [heq]
      exact ih (h.set_file Settings.templateBytes hdirectory Settings.isName_documentName hdocument)

end Runs

/-! ## After a creation -/

section Created

variable {before after : List Call} {call : Call} {tree : FileTree} {force : Bool}
  (hcreates : call.Creates force)

include hcreates

/-- A creation that succeeds leaves the document of a new project. -/
lemma entry?_perform_of_exitCode_eq_zero (h : (call.perform tree).2.exitCode = 0) :
    tree.entry? call.directory = some .directory ∧
      FileTree.entry? (call.perform tree).1 call.documentLocation =
        some (.file Settings.templateBytes) := by
  rw [perform_of_creates hcreates] at h ⊢
  cases hfailure : Settings.creationFailure (tree.kind? call.directory)
      (tree.kind? call.documentLocation) force with
  | some failure =>
    rw [hfailure] at h
    cases h
  | none =>
    have hdirectory := (Settings.of_creationFailure_eq_none hfailure).1
    exact ⟨FileTree.kind?_eq_directory_iff.mp hdirectory, if_pos rfl⟩

/-- No call behind it takes the document away. -/
lemma entry?_performAll_of_exitCode_eq_zero
    (h : (call.perform (performAll before tree)).2.exitCode = 0) :
    FileTree.entry? (performAll (before ++ call :: after) tree) call.documentLocation =
      some (.file Settings.templateBytes) := by
  have hcreated := (entry?_perform_of_exitCode_eq_zero hcreates h).2
  rw [performAll_append, performAll_cons]
  rcases entry?_performAll_cases after (call.perform (performAll before tree)).1
    call.documentLocation with hsame | hnew
  · rw [hsame, hcreated]
  · exact hnew

end Created

end Call

namespace FileTree

open Settings

/-! ## The settings of a new project -/

section Template

variable {tree : FileTree} {here location : Location}

/-- The document of a new project sets the usual thresholds where it is the nearest one. -/
lemma thresholds_discover_of_resolve {start directory : Path} {nearer farther : List Path}
    (hentry : tree.entry? location = some (.file templateBytes))
    (hresolve : tree.resolve here (documentIn directory) = .ok location)
    (hsplit : start.ancestors searchDepth = nearer ++ directory :: farther)
    (hnearer : ∀ ancestor ∈ nearer, ¬ HasDocument ofDocument (tree.read here) ancestor) :
    (discover (tree.read here) start).thresholds = .default := by
  have hread : tree.read here (documentIn directory) = .ok templateBytes :=
    read_eq_ok_iff.mpr ⟨location, hresolve, hentry⟩
  obtain ⟨settings, hdocument, hthresholds⟩ := exists_isDocument_template hread
  rw [discover_of_nearest hsplit hnearer hdocument, hthresholds]

/-- So it does for the directory it is in and for those at most nine levels below. -/
lemma thresholds_discover_of_wellFormed {names : List (List Char)} (hwell : tree.WellFormed)
    (hentry : tree.entry? (location ++ [documentName.toList]) = some (.file templateBytes))
    (hnames : ∀ name ∈ names, Path.IsName name) (hlength : names.length ≤ 9)
    (hnearer : ∀ names', names' <+: names → names' ≠ [] →
      ¬ HasDocument ofDocument (tree.read here) (Path.ofLocation (location ++ names'))) :
    (discover (tree.read here) (Path.ofLocation (location ++ names))).thresholds = .default := by
  have hsome : tree.entry? (location ++ [documentName.toList]) ≠ none := by
    rw [hentry]
    exact Option.some_ne_none _
  have hdirectory := hwell.parent hsome
  have hparts : ∀ part ∈ location, Path.IsName part := by
    intro part hpart
    exact hwell.isName hsome part (List.mem_append_left _ hpart)
  have hall : ∀ part ∈ location ++ names, Path.IsName part := by
    intro part hpart
    rcases List.mem_append.mp hpart with hpart | hpart
    · exact hparts part hpart
    · exact hnames part hpart
  obtain ⟨nearer, farther, hsplit, hway⟩ :=
    Path.exists_ancestors_ofLocation hall (Nat.lt_succ_of_le hlength)
  have hresolve : tree.resolve here (documentIn (Path.ofLocation location)) =
      .ok (location ++ [documentName.toList]) := by
    have hjoin : documentIn (Path.ofLocation location) =
        Path.ofLocation (location ++ [documentName.toList]) :=
      Path.join_ofLocation hparts isName_documentName
    rw [hjoin]
    exact resolve_ofLocation hwell hdirectory isName_documentName here
  refine thresholds_discover_of_resolve hentry hresolve hsplit ?_
  intro ancestor hmem
  obtain ⟨names', hprefix, hne, rfl⟩ := hway ancestor hmem
  exact hnearer names' hprefix hne

end Template

end FileTree

/-! ## The law -/

/-- What calls do to a tree of files, one after the other. -/
structure SessionLaw (calls : List Call) (tree : FileTree) : Prop where
  /-- Nothing changes but the settings documents of the current directories of creations. -/
  entry?_eq {location : Location} :
    (∀ call ∈ calls, (∃ force, call.Creates force) → call.documentLocation ≠ location) →
      FileTree.entry? (Call.performAll calls tree) location = tree.entry? location
  wellFormed : tree.WellFormed → (Call.performAll calls tree).WellFormed
  /-- Whatever is at the place of a document is kept unless its replacement is forced: the creation
  fails and changes nothing. -/
  kept {call : Call} :
    call.Creates false → tree.entry? call.documentLocation ≠ none →
      ∃ failure, call.perform tree = (tree, .shown "" (some failure))
  /-- Whatever the files hold, and whatever settings document is asked for, a creation in the same
  directory makes the same change, if any, and answers the same. -/
  creation_eq {call call' : Call} {force : Bool} {tree' : FileTree} :
    call.Creates force → call'.Creates force → call'.directory = call.directory →
      tree.SameKinds tree' →
        ∃ change : FileTree → FileTree, ∃ reply,
          (change = id ∨
            change = (·.set call.documentLocation (.file Settings.templateBytes))) ∧
          call.perform tree = (change tree, reply) ∧ call'.perform tree' = (change tree', reply)
  /-- Behind a creation that succeeds, the usual thresholds are in force wherever its document is
  the nearest one. -/
  thresholds_eq {before after : List Call} {call : Call} {force : Bool} {here : Location}
    {start directory : Path} {nearer farther : List Path} :
    calls = before ++ call :: after → call.Creates force →
      (call.perform (Call.performAll before tree)).2.exitCode = 0 →
        start.ancestors Settings.searchDepth = nearer ++ directory :: farther →
          (Call.performAll calls tree).resolve here (Settings.documentIn directory) =
              .ok call.documentLocation →
            (∀ ancestor ∈ nearer, ¬ Settings.HasDocument Settings.ofDocument
              ((Call.performAll calls tree).read here) ancestor) →
              (Settings.discover ((Call.performAll calls tree).read here) start).thresholds =
                .default
  /-- That is so for the current directory of the creation and at most nine levels below it. -/
  thresholds_below_eq {before after : List Call} {call : Call} {force : Bool} {here : Location}
    {names : List (List Char)} :
    tree.WellFormed → calls = before ++ call :: after → call.Creates force →
      (call.perform (Call.performAll before tree)).2.exitCode = 0 →
        (∀ name ∈ names, Path.IsName name) → names.length ≤ 9 →
          (∀ names', names' <+: names → names' ≠ [] → ¬ Settings.HasDocument Settings.ofDocument
            ((Call.performAll calls tree).read here) (Path.ofLocation (call.directory ++ names'))) →
            (Settings.discover ((Call.performAll calls tree).read here)
              (Path.ofLocation (call.directory ++ names))).thresholds = .default

/-- The law holds of all calls in all trees. -/
theorem sessionLaw_performAll (calls : List Call) (tree : FileTree) : SessionLaw calls tree where
  entry?_eq h := Call.entry?_performAll h
  wellFormed h := Call.wellFormed_performAll h
  kept {call} hcreates hentry := by
    rw [Call.perform_of_creates hcreates]
    rw [Ne, ← FileTree.kind?_eq_none_iff] at hentry
    obtain ⟨failure, hfailure⟩ := Settings.exists_creationFailure_eq_some
      (tree.kind? call.directory) hentry
    rw [hfailure]
    exact ⟨failure, rfl⟩
  creation_eq {call call' force tree'} hcreates hcreates' hdirectory hkinds := by
    have hlocation : call'.documentLocation = call.documentLocation := by
      unfold Call.documentLocation
      rw [hdirectory]
    rw [Call.perform_of_creates hcreates, Call.perform_of_creates hcreates', hdirectory, hlocation,
      hkinds, hkinds]
    cases Settings.creationFailure (tree.kind? call.directory) (tree.kind? call.documentLocation)
        force with
    | some failure => exact ⟨id, _, .inl rfl, rfl, rfl⟩
    | none => exact ⟨_, _, .inr rfl, rfl, rfl⟩
  thresholds_eq hcalls hcreates hsuccess hsplit hresolve hnearer := by
    subst hcalls
    exact FileTree.thresholds_discover_of_resolve
      (Call.entry?_performAll_of_exitCode_eq_zero hcreates hsuccess) hresolve hsplit hnearer
  thresholds_below_eq hwell hcalls hcreates hsuccess hnames hlength hnearer := by
    subst hcalls
    exact FileTree.thresholds_discover_of_wellFormed (Call.wellFormed_performAll hwell)
      (Call.entry?_performAll_of_exitCode_eq_zero hcreates hsuccess) hnames hlength hnearer

/-- A document is created at the root, and a second one is refused. -/
example :
    let call : Call := {
      directory := []
      arguments := ["init"]
      input := []
      environment := { value? := fun _ => none, toTerminal := false } }
    let again := call.perform (call.perform .empty).1
    ((call.perform .empty).2.exitCode, again.2.exitCode) = (0, 1) := by
  decide +kernel

end LanguageDetection
