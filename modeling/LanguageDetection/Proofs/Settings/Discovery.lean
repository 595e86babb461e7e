import LanguageDetection.Proofs.Files.Path
import LanguageDetection.Proofs.Files.Tree
import LanguageDetection.Proofs.Settings.Loading
import LanguageDetection.Proofs.Text.Utf8
import LanguageDetection.Settings

/-!
# The nearest document

What is found of the settings documents on the way up, and what the document of a new project sets
where it is found.
-/

namespace LanguageDetection

/-!
## Discovery

Of the directories on the way up, the first with a settings document decides (`IsDocument`), whether
its thresholds can be used or not.  A file that cannot be read as settings is passed over as if it
were not there.  `NearestLaw` says so for all that can be read, and `DiscoveryLaw` adds the way up
and what it means for trees of files that differ in one of them.
-/

namespace Settings

/-! ### Documents -/

/-- What makes a document: its text can be read, and makes settings. -/
structure IsDocument (parse : DocumentReader) (files : FileReader) (directory : Path)
    (text : String) (settings : Settings Float) : Prop where
  text_eq : files.text (documentIn directory) = .ok text
  parse_eq : parse text = .ok settings

/-- A directory that holds a document. -/
def HasDocument (parse : DocumentReader) (files : FileReader) (directory : Path) : Prop :=
  ∃ text settings, IsDocument parse files directory text settings

section Documents

variable {parse : DocumentReader} {files files' : FileReader} {directory : Path} {text : String}
  {settings : Settings Float}

/-- A text is made of the content of a file. -/
lemma exists_of_text_eq_ok {path : Path} (h : files.text path = .ok text) :
    ∃ content, files path = .ok content := by
  unfold FileReader.text at h
  cases hread : files path with
  | error fault =>
    rw [hread] at h
    cases h
  | ok content => exact ⟨content, rfl⟩

/-- Files that read alike at a path have the same text there. -/
lemma text_eq_of_read_eq {path : Path} (h : files' path = files path) :
    files'.text path = files.text path := by
  unfold FileReader.text
  rw [h]

/-- A document is loaded without the thresholds that cannot be used. -/
lemma load?_of_isDocument (h : IsDocument parse files directory text settings) :
    load? files (documentIn directory) parse = some settings.dropUnusable := by
  unfold load?
  rw [h.text_eq]
  change (Settings.read text parse).toOption = _
  rw [read_of_ok h.parse_eq]
  rfl

/-- A directory without a document has nothing to load. -/
lemma load?_of_not_hasDocument (h : ¬ HasDocument parse files directory) :
    load? files (documentIn directory) parse = none := by
  unfold load?
  cases htext : files.text (documentIn directory) with
  | error fault => rfl
  | ok text =>
    change (Settings.read text parse).toOption = _
    cases hparse : parse text with
    | error error =>
      rw [read_of_error hparse]
      rfl
    | ok settings => exact absurd ⟨text, settings, htext, hparse⟩ h

/-- What is loaded hangs on the text alone. -/
lemma load?_eq_of_text_eq
    (h : files'.text (documentIn directory) = files.text (documentIn directory)) :
    load? files' (documentIn directory) parse = load? files (documentIn directory) parse := by
  unfold load?
  rw [h]

/-- A document stays one as long as its text is the same. -/
lemma IsDocument.of_text_eq (h : IsDocument parse files directory text settings)
    (heq : files'.text (documentIn directory) = files.text (documentIn directory)) :
    IsDocument parse files' directory text settings where
  text_eq := heq.trans h.text_eq
  parse_eq := h.parse_eq

/-- Whether a directory holds a document depends only on the text at its place. -/
lemma HasDocument.of_text_eq (h : HasDocument parse files directory)
    (heq : files'.text (documentIn directory) = files.text (documentIn directory)) :
    HasDocument parse files' directory := by
  obtain ⟨text, settings, hdocument⟩ := h
  exact ⟨text, settings, hdocument.of_text_eq heq⟩

end Documents

/-! ### The first document on the way -/

section Nearest

variable {parse : DocumentReader} {files files' : FileReader} {start : Path}

section Split

variable {nearer farther : List Path} {directory : Path} {text : String}
  {settings : Settings Float}

/-- The first document decides. -/
lemma discover_of_nearest (hsplit : start.ancestors searchDepth = nearer ++ directory :: farther)
    (hnearer : ∀ ancestor ∈ nearer, ¬ HasDocument parse files ancestor)
    (h : IsDocument parse files directory text settings) :
    discover files start parse = settings.dropUnusable := by
  have hfound : (start.ancestors searchDepth).findSome?
      (fun ancestor => load? files (documentIn ancestor) parse) = some settings.dropUnusable := by
    refine List.findSome?_eq_some_iff.mpr
      ⟨nearer, directory, farther, hsplit, load?_of_isDocument h, ?_⟩
    exact fun ancestor hmem => load?_of_not_hasDocument (hnearer ancestor hmem)
  unfold discover
  dsimp only
  rw [hfound]
  rfl

end Split

/-- Without a document in any ancestor, the settings are the usual ones. -/
lemma discover_of_none
    (h : ∀ ancestor ∈ start.ancestors searchDepth, ¬ HasDocument parse files ancestor) :
    discover files start parse = {} := by
  have hnone : (start.ancestors searchDepth).findSome?
      (fun ancestor => load? files (documentIn ancestor) parse) = none :=
    List.findSome?_eq_none_iff.mpr fun ancestor hmem => load?_of_not_hasDocument (h ancestor hmem)
  unfold discover
  dsimp only
  rw [hnone]
  rfl

/-- Two ways of reading with the same documents on the way lead to the same settings. -/
lemma discover_congr
    (h : ∀ ancestor ∈ start.ancestors searchDepth,
      load? files' (documentIn ancestor) parse = load? files (documentIn ancestor) parse) :
    discover files' start parse = discover files start parse := by
  have hload := congrArg (List.findSome? id) (List.map_congr_left h)
  rw [List.findSome?_map, List.findSome?_map] at hload
  exact congrArg (·.getD {}) hload

/-- What becomes of a file that is no document does not matter, as long as it stays none. -/
lemma discover_eq_of_forall
    (h : ∀ ancestor ∈ start.ancestors searchDepth,
      files'.text (documentIn ancestor) = files.text (documentIn ancestor) ∨
        ¬ HasDocument parse files ancestor ∧ ¬ HasDocument parse files' ancestor) :
    discover files' start parse = discover files start parse := by
  refine discover_congr fun ancestor hmem => ?_
  obtain htext | ⟨hnone, hnone'⟩ := h ancestor hmem
  · exact load?_eq_of_text_eq htext
  · rw [load?_of_not_hasDocument hnone, load?_of_not_hasDocument hnone']

end Nearest

/-! ### One file changes -/

section Trees

variable {parse : DocumentReader} {here location : Location} {tree tree' : FileTree}
  {directory start : Path}

/-- A text that is read elsewhere is read in both trees. -/
lemma text_read_eq_ok (h : tree.DiffersAt location tree') {path : Path} {text : String}
    (hne : tree.resolve here path ≠ .ok location)
    (htext : FileReader.text (tree.read here) path = .ok text) :
    FileReader.text (tree'.read here) path = .ok text := by
  obtain ⟨content, hread⟩ := exists_of_text_eq_ok htext
  rwa [text_eq_of_read_eq ((h.read_eq_ok hne hread).trans hread.symm)]

/-- A document elsewhere is as before. -/
lemma text_eq_or_not_hasDocument (h : tree.DiffersAt location tree')
    (hne : tree.resolve here (documentIn directory) ≠ .ok location) :
    FileReader.text (tree'.read here) (documentIn directory) =
        FileReader.text (tree.read here) (documentIn directory) ∨
      ¬ HasDocument parse (tree.read here) directory ∧
        ¬ HasDocument parse (tree'.read here) directory := by
  by_cases hdocument : HasDocument parse (tree.read here) directory
  · obtain ⟨text, settings, hdocument⟩ := hdocument
    exact .inl ((text_read_eq_ok h hne hdocument.text_eq).trans hdocument.text_eq.symm)
  · refine .inr ⟨hdocument, ?_⟩
    rintro ⟨text, settings, hdocument'⟩
    have hne' : tree'.resolve here (documentIn directory) ≠ .ok location :=
      fun hresolve => hne (h.symm.resolve_eq_ok hresolve)
    exact hdocument ⟨text, settings, text_read_eq_ok h.symm hne' hdocument'.text_eq,
      hdocument'.parse_eq⟩

/-- Where nothing is left there is no document. -/
lemma not_hasDocument_of_entry?_eq_none
    (hresolve : tree.resolve here (documentIn directory) = .ok location)
    (h : tree.entry? location = none) : ¬ HasDocument parse (tree.read here) directory := by
  rintro ⟨text, settings, hdocument⟩
  obtain ⟨content, hread⟩ := exists_of_text_eq_ok hdocument.text_eq
  obtain ⟨there, hthere, hentry⟩ := FileTree.read_eq_ok_iff.mp hread
  rw [hresolve] at hthere
  cases hthere
  rw [h] at hentry
  cases hentry

end Trees

/-! ### The laws -/

/-- What is found from a directory on, for one way of reading files. -/
structure NearestLaw (parse : DocumentReader) (files : FileReader) (start : Path) : Prop where
  /-- The nearest document counts, less thresholds that cannot be used. -/
  read_eq_ok {nearer farther : List Path} {directory : Path} {text : String}
    {settings : Settings Float} :
    start.ancestors searchDepth = nearer ++ directory :: farther →
      (∀ ancestor ∈ nearer, ¬ HasDocument parse files ancestor) →
        IsDocument parse files directory text settings →
          Settings.read text parse = .ok (discover files start parse)
  /-- Without any document all is as usual. -/
  eq_empty :
    (∀ ancestor ∈ start.ancestors searchDepth, ¬ HasDocument parse files ancestor) →
      discover files start parse = {}
  /-- Nothing else counts: a file on the way that is no document may go or become another that is
  none, and all other files may be anything. -/
  eq_of_forall {files' : FileReader} :
    (∀ ancestor ∈ start.ancestors searchDepth,
      files'.text (documentIn ancestor) = files.text (documentIn ancestor) ∨
        ¬ HasDocument parse files ancestor ∧ ¬ HasDocument parse files' ancestor) →
      discover files' start parse = discover files start parse
  /-- A document whose thresholds cannot be used hides those farther up, whatever they are: the
  usual thresholds are in force, and the output has the form that the document sets. -/
  eq_of_not_sound {nearer farther : List Path} {directory : Path} {text : String}
    {settings : Settings Float} {files' : FileReader} :
    start.ancestors searchDepth = nearer ++ directory :: farther →
      (∀ ancestor ∈ nearer, ¬ HasDocument parse files ancestor) →
        IsDocument parse files directory text settings → ¬ settings.Sound →
          (∀ ancestor ∈ nearer ++ [directory],
            files'.text (documentIn ancestor) = files.text (documentIn ancestor)) →
            discover files' start parse = { detection := none, output := settings.output } ∧
              (discover files' start parse).thresholds = .default

/-- The search finds the nearest document, and nothing if there is none. -/
lemma nearestLaw_discover (parse : DocumentReader) (files : FileReader) (start : Path) :
    NearestLaw parse files start where
  read_eq_ok hsplit hnearer h := by
    rw [discover_of_nearest hsplit hnearer h, read_of_ok h.parse_eq]
  eq_empty h := discover_of_none h
  eq_of_forall h := discover_eq_of_forall h
  eq_of_not_sound {nearer _ directory _ settings files'} hsplit hnearer h hunsound htext := by
    have hnearer' : ∀ ancestor ∈ nearer, ¬ HasDocument parse files' ancestor := by
      intro ancestor hmem hdocument
      have heq := htext ancestor (List.mem_append_left [directory] hmem)
      exact hnearer ancestor hmem (hdocument.of_text_eq heq.symm)
    have hdirectory := h.of_text_eq (htext directory List.mem_concat_self)
    have hdiscover : discover files' start parse =
        { detection := none, output := settings.output } := by
      rw [discover_of_nearest hsplit hnearer' hdirectory, dropUnusable_of_not_sound hunsound]
    exact ⟨hdiscover, congrArg thresholds hdiscover⟩

/-- What is found from a directory on. -/
structure DiscoveryLaw (parse : DocumentReader) (start : Path) : Prop where
  /-- The search goes up from the directory. -/
  ancestry (depth : Nat) : start.Ancestry depth (start.ancestors depth)
  length_le : (start.ancestors searchDepth).length ≤ 10
  nearest (files : FileReader) : NearestLaw parse files start
  /-- A change of a file that is not a document on the way changes nothing. -/
  elsewhere {tree tree' : FileTree} {here location : Location} :
    tree.DiffersAt location tree' →
      (∀ ancestor ∈ start.ancestors searchDepth,
        tree.resolve here (documentIn ancestor) ≠ .ok location) →
        discover (tree'.read here) start parse = discover (tree.read here) start parse
  /-- The removal of a file that cannot be read as a document changes nothing. -/
  removal {tree tree' : FileTree} {here location : Location} :
    tree.DiffersAt location tree' → tree'.entry? location = none →
      (∀ ancestor ∈ start.ancestors searchDepth,
        tree.resolve here (documentIn ancestor) = .ok location →
          ¬ HasDocument parse (tree.read here) ancestor) →
        discover (tree'.read here) start parse = discover (tree.read here) start parse

/-- The law of discovery holds of every start and of everything that reads documents. -/
theorem discoveryLaw_discover (parse : DocumentReader) (start : Path) :
    DiscoveryLaw parse start where
  ancestry depth := start.ancestry_ancestors depth
  length_le := by
    rw [(start.ancestry_ancestors searchDepth).length_eq]
    exact Nat.min_le_left _ _
  nearest files := nearestLaw_discover parse files start
  elsewhere h hne :=
    discover_eq_of_forall fun ancestor hmem => text_eq_or_not_hasDocument h (hne ancestor hmem)
  removal {tree tree' here location} h hnone hunusable := by
    refine discover_eq_of_forall fun ancestor hmem => ?_
    by_cases hresolve : tree.resolve here (documentIn ancestor) = .ok location
    · refine .inr ⟨hunusable ancestor hmem hresolve, ?_⟩
      exact not_hasDocument_of_entry?_eq_none (h.resolve_eq_ok hresolve) hnone
    · exact text_eq_or_not_hasDocument h hresolve

/-- A low confidence of two in the parent directory hides the tolerance set at the root, and the
form of the output set beside it counts. -/
example :
    let settings := discover (fun path =>
        if path.text = "/a/.codesniff.toml" then
          .ok "detection = { low_confidence = 2.0 }\noutput = [\"json\", true]\n".toUTF8.toList
        else if path.text = "/.codesniff.toml" then
          .ok "detection = { match_tolerance = 0.5 }\n".toUTF8.toList
        else .error .notFound)
      (.ofString "/a/b")
    (settings.detection.isNone, settings.showsAllCandidates) = (true, true) := by
  decide +kernel

end Settings

/-!
## The document of a new project

Read as settings, the document that a new project starts with sets every threshold to the value it
has without a document.  So where it decides, all is as usual.
-/

deriving instance DecidableEq for Thresholds

namespace Settings

/-- The characters of lines, each with its end. -/
def charsOf (lines : List String) : List Char :=
  lines.flatMap fun line => line.toList ++ ['\n']

/-- The lines of a text, each with its line feed, as characters. -/
lemma toList_join_map (lines : List String) :
    (String.join (lines.map (· ++ "\n"))).toList = charsOf lines := by
  have hend : "\n".toList = ['\n'] := rfl
  unfold charsOf
  rw [String.toList_join, List.flatMap_map]
  simp only [String.toList_append, hend]

lemma toList_template : template.toList = charsOf templateLines :=
  toList_join_map templateLines

/-- A document without a mark in front is read line by line. -/
lemma read?_of_toList_eq {text : String} {chars : List Char} (h : text.toList = chars)
    (hmark : chars.head? ≠ some '\uFEFF') :
    Toml.read? text = Toml.readLines (chars.length + 1) [] [] chars := by
  unfold Toml.read?
  rw [h]
  split
  · exact absurd rfl hmark
  · rfl

/-- A document whose table is read makes settings if its members do. -/
lemma ofDocument_eq_ok {text : String} {members : Toml.Members} {settings : Settings Float}
    (hread : Toml.read? text = some members)
    (hmembers : readMembers groups members {} = some settings) :
    ofDocument text = .ok settings := by
  unfold ofDocument
  rw [hread, Option.bind_some, hmembers]

/-- The lines set the usual thresholds. -/
lemma readLines_templateLines :
    ((Toml.readLines ((charsOf templateLines).length + 1) [] [] (charsOf templateLines)).bind
      (readMembers groups · {})).map (·.detection) = some (some .default) := by
  decide +kernel

/-- The document of a new project is read, and sets the usual thresholds. -/
lemma exists_ofDocument_template :
    ∃ settings, ofDocument template = .ok settings ∧ settings.detection = some .default := by
  have hmark : (charsOf templateLines).head? ≠ some '\uFEFF' := by decide
  obtain ⟨settings, hsettings, hdetection⟩ := Option.map_eq_some_iff.mp readLines_templateLines
  obtain ⟨members, hread, hmembers⟩ := Option.bind_eq_some_iff.mp hsettings
  rw [← read?_of_toList_eq toList_template hmark] at hread
  exact ⟨settings, ofDocument_eq_ok hread hmembers, hdetection⟩

end Settings

/-- The text that the bytes of a file were made of. -/
lemma FileReader.text_of_read_eq_encode {read : FileReader} {path : Path} {chars : List Char}
    (h : read path = .ok (Utf8.encode chars)) : read.text path = .ok (String.ofList chars) := by
  unfold text
  rw [h]
  dsimp only [bind, Except.bind]
  rw [Utf8.decode?_encode]
  rfl

namespace Settings

/-- The bytes of the document are one wherever they are found, and then all thresholds are as
usual. -/
lemma exists_isDocument_template {files : FileReader} {directory : Path}
    (h : files (documentIn directory) = .ok templateBytes) :
    ∃ settings, IsDocument ofDocument files directory template settings ∧
      settings.dropUnusable.thresholds = .default := by
  obtain ⟨settings, hparse, hdetection⟩ := exists_ofDocument_template
  have htext := FileReader.text_of_read_eq_encode h
  rw [String.ofList_toList] at htext
  refine ⟨settings, { text_eq := htext, parse_eq := hparse }, ?_⟩
  have hsound : settings.Sound := by
    intro thresholds hthresholds
    rw [hdetection, Option.mem_some_iff] at hthresholds
    exact hthresholds ▸ Thresholds.sound_default
  rw [dropUnusable_of_sound hsound, Settings.thresholds, hdetection]
  rfl

end Settings

end LanguageDetection
