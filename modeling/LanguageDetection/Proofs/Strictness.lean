import LanguageDetection.Proofs.CommandLine
import LanguageDetection.Proofs.Sources

/-!
# Strict validation

A validation needs settings, a language and a source, and it looks for them in this order.  The
first that is not to be had is its obstacle (`ValidationRequest.Obstacle`): the run fails with it
and shows nothing.  Otherwise there is a report (`ValidationRequest.IsReported`), and the run shows
it.  Whether the run is strict has no part in this.  It decides on the exit status alone, where the
text is not of the declared language.
-/

namespace LanguageDetection

/-! ## Sources -/

namespace Sources

/-- A source with its label and its bytes. -/
inductive Gives (sources : Sources) : Option Path → String → List UInt8 → Prop
  | file {path : Path} {bytes : List UInt8} (h : sources.read path = .ok bytes) :
    Gives sources (some path) path.text bytes
  | input (h : sources.inputFault = none) : Gives sources none inputLabel sources.input

/-- A source that cannot be read, and the failure to read it. -/
inductive Refuses (sources : Sources) : Option Path → Failure → Prop
  | file {path : Path} {fault : FileError} (h : sources.read path = .error fault) :
    Refuses sources (some path) (unreadable path fault)
  | input {fault : FileError} (h : sources.inputFault = some fault) :
    Refuses sources none { message := "Failed to read standard input", cause := fault.message }

/-- The text of a path is that of the bytes read there, under the path as its label. -/
lemma sourceText_some (sources : Sources) (path : Path) :
    sources.sourceText (some path) =
      match sources.read path with
      | .ok bytes => .ok (path.text, Utf8.decodeLossy bytes)
      | .error fault => .error (unreadable path fault) := by
  rw [sourceText, fileText]
  cases sources.read path <;> rfl

/-- Without a path, the text is that of the input, unless the input cannot be read. -/
lemma sourceText_none (sources : Sources) :
    sources.sourceText none =
      match sources.inputFault with
      | none => .ok (inputLabel, Utf8.decodeLossy sources.input)
      | some fault =>
        .error { message := "Failed to read standard input", cause := fault.message } := by
  rw [sourceText, inputText]
  cases sources.inputFault <;> rfl

variable {sources : Sources} {path : Option Path}

/-- The text that is judged is that of the bytes, whatever faults they have. -/
lemma Gives.sourceText_eq {label : String} {bytes : List UInt8}
    (h : sources.Gives path label bytes) :
    sources.sourceText path = .ok (label, Utf8.decodeLossy bytes) := by
  cases h with
  | file h => rw [sourceText_some, h]
  | input h => rw [sourceText_none, h]

/-- A source that refuses has no text. -/
lemma Refuses.sourceText_eq {failure : Failure} (h : sources.Refuses path failure) :
    sources.sourceText path = .error failure := by
  cases h with
  | file h => rw [sourceText_some, h]
  | input h => rw [sourceText_none, h]

/-- A source gives its bytes or refuses. -/
lemma gives_or_refuses (sources : Sources) (path : Option Path) :
    (∃ label bytes, sources.Gives path label bytes) ∨ ∃ failure, sources.Refuses path failure := by
  cases path with
  | some path =>
    cases hread : sources.read path with
    | ok bytes => exact .inl ⟨_, _, .file hread⟩
    | error fault => exact .inr ⟨_, .file hread⟩
  | none =>
    cases hfault : sources.inputFault with
    | none => exact .inl ⟨_, _, .input hfault⟩
    | some fault => exact .inr ⟨_, .input hfault⟩

end Sources

/-! ## Requests -/

/-- What a validation is asked for, apart from its strictness. -/
structure ValidationRequest where
  language : String
  path : Option Path
  extension : Option String
  format : Option OutputFormat

namespace ValidationRequest

/-- The command that asks for the validation. -/
def command (request : ValidationRequest) (strict : Bool) : Command :=
  .validate request.language request.path request.extension request.format strict

/-- The failure to tell the language. -/
def unknownLanguage (request : ValidationRequest) (error : Error) : Failure :=
  { message := "Cannot validate against '" ++ request.language ++ "'", cause := error.message }

section Outcomes

variable (request : ValidationRequest) (around : Surroundings) (config : Option Path)

/-- What stands in the way of a verdict: settings that cannot be loaded, or else a language that
does not exist, or else a source that cannot be read. -/
inductive Obstacle : Failure → Prop
  | settings {error : Error}
    (hload : Settings.load around.sources.read around.directory config = .error error) :
    Obstacle (.ofError error)
  | language {settings : Settings Float} {error : Error}
    (hload : Settings.load around.sources.read around.directory config = .ok settings)
    (hname : Language.parse request.language = .error error) :
    Obstacle (request.unknownLanguage error)
  | source {settings : Settings Float} {declared : Language} {failure : Failure}
    (hload : Settings.load around.sources.read around.directory config = .ok settings)
    (hname : Language.parse request.language = .ok declared)
    (hsource : around.sources.Refuses request.path failure) : Obstacle failure

/-- The report of a validation that nothing stands in the way of. -/
inductive IsReported : Settings Float → ValidationReport Float → Prop
  | intro {settings : Settings Float} {declared : Language} {label : String} {bytes : List UInt8}
    (hload : Settings.load around.sources.read around.directory config = .ok settings)
    (hname : Language.parse request.language = .ok declared)
    (hsource : around.sources.Gives request.path label bytes) :
    IsReported settings
      { source := label
        verdict := Verdict.validate .builtin settings.thresholds declared (Utf8.decodeLossy bytes)
          (Sources.hint request.extension request.path) }

end Outcomes

variable {request : ValidationRequest} {around : Surroundings} {config : Option Path}

/-- A request meets an obstacle or has a report. -/
lemma obstacle_or_isReported (request : ValidationRequest) (around : Surroundings)
    (config : Option Path) :
    (∃ failure, request.Obstacle around config failure) ∨
      ∃ settings report, request.IsReported around config settings report := by
  cases hload : Settings.load around.sources.read around.directory config with
  | error error => exact .inl ⟨_, .settings hload⟩
  | ok settings =>
    cases hname : Language.parse request.language with
    | error error => exact .inl ⟨_, .language hload hname⟩
    | ok declared =>
      rcases around.sources.gives_or_refuses request.path with
        ⟨label, bytes, hgives⟩ | ⟨_, hrefuses⟩
      · exact .inr ⟨_, _, .intro hload hname hgives⟩
      · exact .inl ⟨_, .source hload hname hrefuses⟩

/-- There is an obstacle or a report, but not both. -/
lemma Obstacle.not_isReported {failure : Failure} {settings : Settings Float}
    {report : ValidationReport Float} (h : request.Obstacle around config failure) :
    ¬ request.IsReported around config settings report := by
  rintro ⟨hload', hname', hgives⟩
  cases h with
  | settings hload =>
    rw [hload] at hload'
    cases hload'
  | language hload hname =>
    rw [hname] at hname'
    cases hname'
  | source hload hname hrefuses =>
    have hsource := hgives.sourceText_eq
    rw [hrefuses.sourceText_eq] at hsource
    cases hsource

variable {invocation : Invocation} {strict : Bool}

/-- A validation asks for settings, and then for a report. -/
lemma run_eq (hcommand : invocation.command = request.command strict) :
    invocation.run around =
      match Settings.load around.sources.read around.directory invocation.config with
      | .ok settings => Invocation.answer (request.command strict) around settings
          (around.environment.usesColour invocation.plain)
      | .error error => .failed (.ofError error) := by
  obtain ⟨_, config, verbosity, plain⟩ := invocation
  subst hcommand
  rfl

/-- An obstacle fails the run, and nothing is shown. -/
lemma Obstacle.run_eq {failure : Failure}
    (h : request.Obstacle around invocation.config failure)
    (hcommand : invocation.command = request.command strict) :
    invocation.run around = .shown "" (some failure) := by
  rw [ValidationRequest.run_eq hcommand]
  cases h with
  | settings hload =>
    rw [hload]
    rfl
  | language hload hname =>
    rw [hload]
    unfold Invocation.answer Sources.validate command
    dsimp only
    rw [hname]
    rfl
  | source hload hname hsource =>
    rw [hload]
    unfold Invocation.answer Sources.validate command
    dsimp only
    rw [hname, hsource.sourceText_eq]
    rfl

/-- A report is shown, and only a strict run may fail behind it. -/
lemma IsReported.run_eq {settings : Settings Float} {report : ValidationReport Float}
    (h : request.IsReported around invocation.config settings report)
    (hcommand : invocation.command = request.command strict) :
    invocation.run around = .shown
      ((Invocation.layout settings request.format
        (around.environment.usesColour invocation.plain)).validation report)
      (Invocation.strictFailure strict report.verdict) := by
  rw [ValidationRequest.run_eq hcommand]
  cases h with
  | intro hload hname hsource =>
    rw [hload]
    unfold Invocation.answer Sources.validate command
    dsimp only
    rw [hname, hsource.sourceText_eq]
    rfl

end ValidationRequest

/-! ## Replies -/

/-- The reply behind a report: a strict run fails where the text is not of the declared language. -/
def Reply.judged (output : String) (strict : Bool) (verdict : Verdict Float) : Reply :=
  if strict = true ∧ verdict.isMatch = false then
    { exitCode := 1, output
      errors := "Error: Validation failed: content does not match " ++
        verdict.declared.displayName ++ "\n" }
  else { exitCode := 0, output, errors := "" }

/-- What a run shows behind its report is the reply that judges the verdict. -/
lemma Reply.shown_strictFailure (output : String) (strict : Bool) (verdict : Verdict Float) :
    Reply.shown output (Invocation.strictFailure strict verdict) =
      Reply.judged output strict verdict := by
  unfold Invocation.strictFailure judged
  cases strict with
  | false => rfl
  | true =>
    cases verdict.isMatch with
    | true => rfl
    | false =>
      have herrors : Failure.report { message := "Validation failed: content does not match " ++
          verdict.declared.displayName } = "Error: Validation failed: content does not match " ++
            verdict.declared.displayName ++ "\n" := by
        unfold Failure.report
        dsimp only
        rw [String.append_empty, ← String.append_assoc]
        rfl
      exact congrArg (Reply.mk 1 output) herrors

/-! ## The law -/

/-- What a validation under the common options of a call comes to, strict or not. -/
structure StrictnessLaw (call : Call) (tree : FileTree) (invocation : Invocation)
    (request : ValidationRequest) : Prop where
  obstacle_or_isReported :
    (∃ failure, request.Obstacle (call.surroundings tree) invocation.config failure) ∨
      ∃ settings report,
        request.IsReported (call.surroundings tree) invocation.config settings report
  not_isReported {failure : Failure} {settings : Settings Float}
    {report : ValidationReport Float} :
    request.Obstacle (call.surroundings tree) invocation.config failure →
      ¬ request.IsReported (call.surroundings tree) invocation.config settings report
  /-- An obstacle is told beside an empty output, and the tree stays as it is. -/
  perform_of_obstacle {failure : Failure} {arguments : List String} {strict : Bool} :
    request.Obstacle (call.surroundings tree) invocation.config failure →
      (call.withArguments arguments).AsksFor
        { invocation with command := request.command strict } →
      (call.withArguments arguments).perform tree =
        (tree, { exitCode := 1, output := "", errors := failure.report })
  /-- A report is the whole output, strict or not, and the tree stays as it is. -/
  perform_of_isReported {settings : Settings Float} {report : ValidationReport Float}
    {arguments : List String} {strict : Bool} :
    request.IsReported (call.surroundings tree) invocation.config settings report →
      (call.withArguments arguments).AsksFor
        { invocation with command := request.command strict } →
      (call.withArguments arguments).perform tree =
        (tree, .judged
          ((Invocation.layout settings request.format
            (call.environment.usesColour invocation.plain)).validation report)
          strict report.verdict)
  /-- Where the call is lenient there is a strict one with one more argument. -/
  exists_strict : invocation.command = request.command false →
    ∃ before behind, call.arguments = before ++ "validate" :: behind ∧
      (call.withArguments (before ++ "validate" :: "--strict" :: behind)).AsksFor
        { invocation with command := request.command true }

/-- The law holds of every call that asks for a run. -/
theorem strictnessLaw_perform (tree : FileTree) (request : ValidationRequest) {call : Call}
    {invocation : Invocation} (h : call.AsksFor invocation) :
    StrictnessLaw call tree invocation request where
  obstacle_or_isReported :=
    ValidationRequest.obstacle_or_isReported request (call.surroundings tree) invocation.config
  not_isReported hobstacle := hobstacle.not_isReported
  perform_of_obstacle {failure arguments strict} hobstacle hasks := by
    have hrun : Invocation.run { invocation with command := request.command strict }
        (call.surroundings tree) = .shown "" (some failure) :=
      ValidationRequest.Obstacle.run_eq hobstacle rfl
    exact Call.perform_of_run_eq hasks hrun
  perform_of_isReported {settings report arguments strict} hreported hasks := by
    rw [← Reply.shown_strictFailure]
    have hrun : Invocation.run { invocation with command := request.command strict }
        (call.surroundings tree) = .shown _ (Invocation.strictFailure strict report.verdict) :=
      ValidationRequest.IsReported.run_eq hreported rfl
    exact Call.perform_of_run_eq hasks hrun
  exists_strict hlenient := CommandLine.exists_readArguments_strict h hlenient

/-- A byte that is no text is to be Rust. -/
def rustRequest : ValidationRequest where
  language := "rust"
  path := none
  extension := none
  format := none

/-- The lenient validation of it. -/
def rustValidation : Invocation where
  command := rustRequest.command false
  config := none
  verbosity := 0
  plain := false

/-- The call that asks for it. -/
def rustCall : Call where
  directory := []
  arguments := ["validate", "-l", "rust"]
  input := [0]
  environment := { value? := fun _ => none, toTerminal := false }

/-- It succeeds, and fails with the same output if it is strict. -/
theorem strictnessLaw_rustCall :
    rustCall.AsksFor rustValidation ∧
      StrictnessLaw rustCall .empty rustValidation rustRequest ∧
        ∃ output errors,
          rustCall.perform .empty = (.empty, { exitCode := 0, output, errors := "" }) ∧
          (rustCall.withArguments ["validate", "--strict", "-l", "rust"]).perform .empty =
            (.empty, { exitCode := 1, output, errors }) := by
  have hasks : rustCall.AsksFor rustValidation := by rfl
  have hstrict : (rustCall.withArguments ["validate", "--strict", "-l", "rust"]).AsksFor
      { rustValidation with command := rustRequest.command true } := by rfl
  have law := strictnessLaw_perform .empty rustRequest hasks
  have hreported :
      rustRequest.IsReported (rustCall.surroundings .empty) rustValidation.config {} _ :=
    .intro (by rfl) (by rfl) (.input rfl)
  have hmatch : (Verdict.validate .builtin (Settings.thresholds ({} : Settings Float)) .rust
      (Utf8.decodeLossy [0]) (Sources.hint none none)).isMatch = false := by
    decide +kernel
  have hlenient := law.perform_of_isReported hreported hasks
  have hfailed := law.perform_of_isReported hreported hstrict
  rw [Reply.judged, if_pos ⟨rfl, hmatch⟩] at hfailed
  exact ⟨hasks, law, _, _, hlenient, hfailed⟩

end LanguageDetection
