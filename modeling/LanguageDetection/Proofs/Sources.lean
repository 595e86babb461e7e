import Mathlib.Data.List.Forall2
import LanguageDetection.CommandLine.Session

/-!
# Many sources and one

The detections of many files are those of each file alone, in the order of the files, unless a file
cannot be read; then the first of these fails all of them and the command shows nothing.  A verdict
on a file reads the same text with the same hint, so that it judges the classification of the
detection.  `BatchLaw` says both.
-/

namespace LanguageDetection

/-! ## Operations on all members that may fail -/

section Traversal

variable {α β ε : Type} {f : α → Except ε β} {l : List α}

/-- A success is made of the successes on the members. -/
lemma forall₂_of_mapM_eq_ok {results : List β} (h : l.mapM f = .ok results) :
    List.Forall₂ (fun a b => f a = .ok b) l results := by
  induction l generalizing results with
  | nil =>
    cases h
    exact .nil
  | cons a l ih =>
    rw [List.mapM_cons] at h
    cases ha : f a with
    | error e =>
      rw [ha] at h
      cases h
    | ok b =>
      rw [ha] at h
      cases hl : l.mapM f with
      | error e =>
        rw [hl] at h
        cases h
      | ok rest =>
        rw [hl] at h
        cases h
        exact .cons ha (ih hl)

/-- A list is gone through to its end if no element fails. -/
lemma exists_mapM_eq_ok (h : ∀ a ∈ l, ∃ b, f a = .ok b) : ∃ results, l.mapM f = .ok results := by
  induction l with
  | nil => exact ⟨[], rfl⟩
  | cons a l ih =>
    obtain ⟨b, hb⟩ := h a List.mem_cons_self
    obtain ⟨rest, hrest⟩ := ih fun a ha => h a (List.mem_cons_of_mem _ ha)
    refine ⟨b :: rest, ?_⟩
    rw [List.mapM_cons, hb, hrest]
    rfl

/-- The first failure is that of all. -/
lemma mapM_eq_error {before after : List α} {a : α} {e : ε}
    (hbefore : ∀ b ∈ before, ∃ c, f b = .ok c) (ha : f a = .error e) :
    (before ++ a :: after).mapM f = .error e := by
  induction before with
  | nil =>
    rw [List.nil_append, List.mapM_cons, ha]
    rfl
  | cons b before ih =>
    obtain ⟨c, hc⟩ := hbefore b List.mem_cons_self
    rw [List.cons_append, List.mapM_cons, hc, ih fun b hb => hbefore b (List.mem_cons_of_mem _ hb)]
    rfl

end Traversal

namespace Sources

/-! ## Files that can be read -/

/-- A file that can be read. -/
def IsReadable (sources : Sources) (path : Path) : Prop :=
  ∃ bytes, sources.read path = .ok bytes

/-- The failure of a file that cannot be read. -/
def unreadable (path : Path) (fault : FileError) : Failure :=
  { message := "Failed to read " ++ path.text, cause := fault.message }

/-- The first of the files that cannot be read, and why it cannot. -/
structure FirstUnreadable (sources : Sources) (paths : List Path) (path : Path)
    (fault : FileError) : Prop where
  split : ∃ before after, paths = before ++ path :: after ∧
    ∀ other ∈ before, sources.IsReadable other
  read_eq : sources.read path = .error fault

/-- If not all files can be read, one of them is the first that cannot. -/
lemma exists_firstUnreadable {sources : Sources} {paths : List Path}
    (h : ¬ ∀ path ∈ paths, sources.IsReadable path) :
    ∃ path fault, sources.FirstUnreadable paths path fault := by
  induction paths with
  | nil => exact absurd (fun path hpath => absurd hpath List.not_mem_nil) h
  | cons path paths ih =>
    cases hread : sources.read path with
    | error fault =>
      exact ⟨path, fault, ⟨[], paths, rfl, fun other hother => absurd hother List.not_mem_nil⟩,
        hread⟩
    | ok bytes =>
      have hrest : ¬ ∀ path ∈ paths, sources.IsReadable path :=
        fun hall => h (List.forall_mem_cons.mpr ⟨⟨bytes, hread⟩, hall⟩)
      obtain ⟨first, fault, ⟨before, after, rfl, hbefore⟩, hfirst⟩ := ih hrest
      exact ⟨first, fault,
        ⟨path :: before, after, rfl, List.forall_mem_cons.mpr ⟨⟨bytes, hread⟩, hbefore⟩⟩, hfirst⟩

section Detection

variable {α : Type} [Scalar α] {sources : Sources} {catalog : Catalog} {thresholds : Thresholds α}
  {extension : Option String} {path : Path} {paths : List Path}

/-! ## One file -/

/-- The detection of a file with these bytes. -/
def fileReport (catalog : Catalog) (thresholds : Thresholds α) (extension : Option String)
    (path : Path) (bytes : List UInt8) : DetectionReport α :=
  { source := path.text
    classification := classify catalog thresholds (Utf8.decodeLossy bytes)
      (extension.or path.extension?) }

/-- A file that can be read has the report on its content. -/
lemma detectOne_of_read_eq_ok {bytes : List UInt8} (h : sources.read path = .ok bytes) :
    sources.detectOne catalog thresholds extension (some path) =
      .ok (fileReport catalog thresholds extension path bytes) := by
  unfold detectOne sourceText fileText
  dsimp only
  rw [h]
  rfl

/-- A file that cannot be read has no report. -/
lemma detectOne_of_read_eq_error {fault : FileError} (h : sources.read path = .error fault) :
    sources.detectOne catalog thresholds extension (some path) =
      .error (unreadable path fault) := by
  unfold detectOne sourceText fileText
  dsimp only
  rw [h]
  rfl

/-- A file has a report exactly if it can be read. -/
lemma exists_detectOne_eq_ok_iff :
    (∃ report, sources.detectOne catalog thresholds extension (some path) = .ok report) ↔
      sources.IsReadable path := by
  constructor
  · rintro ⟨report, hreport⟩
    cases hread : sources.read path with
    | ok bytes => exact ⟨bytes, hread⟩
    | error fault =>
      rw [detectOne_of_read_eq_error hread] at hreport
      cases hreport
  · rintro ⟨bytes, hread⟩
    exact ⟨_, detectOne_of_read_eq_ok hread⟩

/-! ## Many files -/

/-- If there are paths, the input is not read. -/
lemma detect_of_ne_nil (h : paths ≠ []) :
    sources.detect catalog thresholds extension paths =
      paths.mapM fun path => sources.detectOne catalog thresholds extension (some path) := by
  unfold detect
  rw [List.isEmpty_eq_false_iff.mpr h]
  rfl

/-- A list of one file comes to a list of its detection. -/
lemma detect_singleton :
    sources.detect catalog thresholds extension [path] =
      (sources.detectOne catalog thresholds extension (some path)).map ([·]) := by
  rw [detect_of_ne_nil (List.cons_ne_nil path []), List.mapM_cons]
  cases sources.detectOne catalog thresholds extension (some path) <;> rfl

/-- The first file that cannot be read decides how the batch fails. -/
lemma detect_of_firstUnreadable {fault : FileError} (h : sources.FirstUnreadable paths path fault) :
    sources.detect catalog thresholds extension paths = .error (unreadable path fault) := by
  obtain ⟨before, after, rfl, hbefore⟩ := h.split
  rw [detect_of_ne_nil (List.append_ne_nil_of_right_ne_nil before (List.cons_ne_nil path after))]
  exact mapM_eq_error (fun other hother => exists_detectOne_eq_ok_iff.mpr (hbefore other hother))
    (detectOne_of_read_eq_error h.read_eq)

/-- There are detections exactly if all files can be read. -/
lemma exists_detect_eq_ok_iff (h : paths ≠ []) :
    (∃ reports, sources.detect catalog thresholds extension paths = .ok reports) ↔
      ∀ path ∈ paths, sources.IsReadable path := by
  constructor
  · rintro ⟨reports, hreports⟩
    by_contra hall
    obtain ⟨path, fault, hfirst⟩ := exists_firstUnreadable hall
    rw [detect_of_firstUnreadable hfirst] at hreports
    cases hreports
  · intro hall
    rw [detect_of_ne_nil h]
    exact exists_mapM_eq_ok fun path hpath => exists_detectOne_eq_ok_iff.mpr (hall path hpath)

/-- What the detection of many files says of one of them: what the detection of this one file
says, which is the classification of its text under the extension given, or else its own. -/
structure IsReport (sources : Sources) (catalog : Catalog) (thresholds : Thresholds α)
    (extension : Option String) (path : Path) (report : DetectionReport α) : Prop where
  source_eq : report.source = path.text
  detect_eq : sources.detect catalog thresholds extension [path] = .ok [report]
  classification_eq : ∃ bytes, sources.read path = .ok bytes ∧
    report.classification = classify catalog thresholds (Utf8.decodeLossy bytes)
      (extension.or path.extension?)

/-- What is detected in a file is a report on it. -/
lemma isReport_of_detectOne_eq_ok {report : DetectionReport α}
    (h : sources.detectOne catalog thresholds extension (some path) = .ok report) :
    sources.IsReport catalog thresholds extension path report := by
  have hdetect : sources.detect catalog thresholds extension [path] = .ok [report] := by
    rw [detect_singleton, h]
    rfl
  obtain ⟨bytes, hread⟩ := exists_detectOne_eq_ok_iff.mp ⟨report, h⟩
  rw [detectOne_of_read_eq_ok hread] at h
  cases h
  exact { source_eq := rfl, detect_eq := hdetect, classification_eq := ⟨bytes, hread, rfl⟩ }

/-! ## Verdicts and answers -/

/-- A verdict on a file that fails as the detection of the file does, or else judges the
classification of the detection. -/
def JudgesDetection (sources : Sources) (catalog : Catalog) (thresholds : Thresholds α)
    (extension : Option String) (path : Path) (declared : Language)
    (result : Except Failure (ValidationReport α)) : Prop :=
  (∃ fault, sources.read path = .error fault ∧
    sources.detect catalog thresholds extension [path] = .error (unreadable path fault) ∧
    result = .error (unreadable path fault)) ∨
  ∃ report, sources.IsReport catalog thresholds extension path report ∧
    result = .ok { source := path.text
                   verdict := Verdict.judge declared report.classification thresholds }

/-- A verdict judges the classification of the detection. -/
lemma validate_of_parse_eq_ok {name : String} {declared : Language}
    (h : Language.parse name = .ok declared) :
    sources.validate catalog thresholds name extension (some path) =
      (sources.detectOne catalog thresholds extension (some path)).map fun report =>
        { source := report.source
          verdict := Verdict.judge declared report.classification thresholds } := by
  unfold validate detectOne
  rw [h]
  change (sources.sourceText (some path) >>= _) = _
  cases sources.sourceText (some path) <;> rfl

/-- A validation judges what detection finds in the same file. -/
lemma judgesDetection_validate {name : String} {declared : Language}
    (h : Language.parse name = .ok declared) :
    sources.JudgesDetection catalog thresholds extension path declared
      (sources.validate catalog thresholds name extension (some path)) := by
  rw [validate_of_parse_eq_ok h]
  cases hread : sources.read path with
  | error fault =>
    rw [detectOne_of_read_eq_error hread]
    refine .inl ⟨fault, hread, ?_, rfl⟩
    rw [detect_singleton, detectOne_of_read_eq_error hread]
    rfl
  | ok bytes =>
    have hreport : sources.detectOne catalog thresholds extension (some path) =
        .ok (fileReport catalog thresholds extension path bytes) := detectOne_of_read_eq_ok hread
    rw [hreport]
    exact .inr ⟨_, isReport_of_detectOne_eq_ok hreport, rfl⟩

/-- The answer to a command with a file that cannot be read shows nothing. -/
lemma answer_of_firstUnreadable {around : Surroundings} {fault : FileError}
    (h : around.sources.FirstUnreadable paths path fault) (all : Bool)
    (format : Option OutputFormat) (settings : Settings Float) (colour : Bool) :
    Invocation.answer (.detect paths extension all format) around settings colour =
      .shown "" (some (unreadable path fault)) := by
  unfold Invocation.answer
  dsimp only
  rw [detect_of_firstUnreadable h]
  rfl

/-! ## The law -/

/-- What the detection of many files has to do with that of each, and with verdicts. -/
structure BatchLaw (sources : Sources) (catalog : Catalog) (thresholds : Thresholds α)
    (extension : Option String) (paths : List Path) : Prop where
  exists_detect_eq_ok_iff :
    (∃ reports, sources.detect catalog thresholds extension paths = .ok reports) ↔
      ∀ path ∈ paths, sources.IsReadable path
  /-- The detections stand in the order of the files. -/
  forall₂_isReport {reports : List (DetectionReport α)} :
    sources.detect catalog thresholds extension paths = .ok reports →
      List.Forall₂ (sources.IsReport catalog thresholds extension) paths reports
  exists_firstUnreadable : (¬ ∀ path ∈ paths, sources.IsReadable path) →
    ∃ path fault, sources.FirstUnreadable paths path fault
  /-- The first file that cannot be read fails all. -/
  detect_eq_error {path : Path} {fault : FileError} : sources.FirstUnreadable paths path fault →
    sources.detect catalog thresholds extension paths = .error (unreadable path fault)
  /-- Then the command shows nothing, whatever is asked of the output, and fails the same way unless
  the settings fail before. -/
  run_eq {directory : Option Path} {environment : Environment} {invocation : Invocation}
    {all : Bool} {format : Option OutputFormat} {path : Path} {fault : FileError} :
    invocation.command = .detect paths extension all format →
      sources.FirstUnreadable paths path fault →
        invocation.run { directory, sources, environment } = .shown "" (some
          (match Settings.load sources.read directory invocation.config with
            | .ok _ => unreadable path fault
            | .error error => .ofError error))
  judgesDetection {path : Path} {name : String} {declared : Language} :
    Language.parse name = .ok declared →
      sources.JudgesDetection catalog thresholds extension path declared
        (sources.validate catalog thresholds name extension (some path))

/-- The law holds of any files but none. -/
theorem batchLaw_detect (sources : Sources) (catalog : Catalog) (thresholds : Thresholds α)
    (extension : Option String) {paths : List Path} (h : paths ≠ []) :
    BatchLaw sources catalog thresholds extension paths where
  exists_detect_eq_ok_iff := Sources.exists_detect_eq_ok_iff h
  forall₂_isReport hreports := by
    rw [detect_of_ne_nil h] at hreports
    exact (forall₂_of_mapM_eq_ok hreports).imp fun path report => isReport_of_detectOne_eq_ok
  exists_firstUnreadable hall := Sources.exists_firstUnreadable hall
  detect_eq_error hfirst := detect_of_firstUnreadable hfirst
  run_eq {directory environment invocation all format path fault} hcommand hfirst := by
    unfold Invocation.run Invocation.usesSettings
    rw [hcommand]
    dsimp only
    rw [if_pos rfl]
    cases Settings.load sources.read directory invocation.config with
    | error error => rfl
    | ok settings => exact answer_of_firstUnreadable hfirst all format settings _
  judgesDetection hname := judgesDetection_validate hname

end Detection

/-- A source file that can be read, and nothing else. -/
def mainGo : Sources where
  read path := if path.text = "main.go" then .ok "package main".toUTF8.toList else .error .notFound
  input := []

/-- Three files of which only the first can be read. -/
def threeFiles : List Path :=
  [.ofString "main.go", .ofString "lib.rs", .ofString "add.py"]

/-- The second fails them all, and the third is not asked for. -/
theorem batchLaw_mainGo :
    threeFiles ≠ [] ∧
      BatchLaw mainGo .builtin (Thresholds.default : Thresholds Float) none threeFiles ∧
        mainGo.detect .builtin (Thresholds.default : Thresholds Float) none threeFiles =
          .error (unreadable (.ofString "lib.rs") .notFound) := by
  have hne : threeFiles ≠ [] := List.cons_ne_nil _ _
  have law := batchLaw_detect mainGo .builtin (Thresholds.default : Thresholds Float) none hne
  refine ⟨hne, law, law.detect_eq_error ?_⟩
  have hreadable : mainGo.IsReadable (.ofString "main.go") :=
    ⟨"package main".toUTF8.toList, rfl⟩
  exact {
    split := ⟨_, _, rfl, List.forall_mem_singleton.mpr hreadable⟩
    read_eq := rfl }

end Sources

end LanguageDetection
