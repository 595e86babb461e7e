import LanguageDetection.CommandLine.Arguments
import LanguageDetection.Files
import LanguageDetection.Report
import LanguageDetection.Settings
import LanguageDetection.Sources

/-!
# Runs

What a run of the program comes to, and runs on a tree of files, one after the other.
-/

namespace LanguageDetection

/-!
## Runs

What a run of the program comes to. The settings are loaded before a source is read, and nothing is
shown unless all sources can be read. Creating the settings document asks for no settings.
-/

/-- What a run finds around it. -/
structure Surroundings where
  /-- The path of the current directory, if it can be told. -/
  directory : Option Path
  sources : Sources
  environment : Environment

/-- What a run comes to. -/
inductive Outcome where
  /-- The arguments lead to no command. -/
  | refused (refusal : CommandLine.Refusal)
  /-- Something is shown, and the run may have failed. -/
  | shown (output : String) (failure : Option Failure)
  /-- A file is to be written, and something is shown if that succeeds. -/
  | writes (path : Path) (content : List UInt8) (output : String)

/-- The outcome of a run that fails before it shows anything. -/
def Outcome.failed (failure : Failure) : Outcome :=
  .shown "" (some failure)

namespace Invocation

/-- What is shown once a settings document is created. -/
def createdMessage : String :=
  "Created " ++ Settings.documentName ++ " configuration file\n"

/-- The layout of the output: the format asked for, or that of the settings, or else lines of a
terminal. -/
def layout (settings : Settings Float) (format : Option OutputFormat) (colour : Bool) :
    Report.Layout :=
  { format := (format.or settings.defaultFormat).getD .terminal
    colour
    thresholds := settings.thresholds }

/-- The failure of a strict validation of a text that is not of its declared language. -/
def strictFailure (strict : Bool) (verdict : Verdict Float) : Option Failure :=
  if strict && !verdict.isMatch then
    some { message :=
      "Validation failed: content does not match " ++ verdict.declared.displayName }
  else none

/-- The outcome of a command under settings. -/
def answer (command : Command) (around : Surroundings) (settings : Settings Float)
    (colour : Bool) : Outcome :=
  match command with
  | .detect paths extension all format =>
    match around.sources.detect .builtin settings.thresholds extension paths with
    | .ok reports =>
      .shown ((layout settings format colour).detections (all || settings.showsAllCandidates)
        reports) none
    | .error failure => .failed failure
  | .validate language path extension format strict =>
    match around.sources.validate .builtin settings.thresholds language extension path with
    | .ok report =>
      .shown ((layout settings format colour).validation report)
        (strictFailure strict report.verdict)
    | .error failure => .failed failure
  | .languages format =>
    .shown ((layout settings format colour).languages Catalog.builtin.summaries) none
  | .init force =>
    match Settings.creationPath around.sources.read (.ofString ".") force with
    | .ok path => .writes path Settings.templateBytes createdMessage
    | .error failure => .failed failure

/-- Whether the command asks for settings. -/
def usesSettings (invocation : Invocation) : Bool :=
  match invocation.command with
  | .init _ => false
  | .detect .. | .validate .. | .languages .. => true

/-- The outcome of a run. -/
def run (invocation : Invocation) (around : Surroundings) : Outcome :=
  let colour := around.environment.usesColour invocation.plain
  if invocation.usesSettings then
    match Settings.load around.sources.read around.directory invocation.config with
    | .ok settings => answer invocation.command around settings colour
    | .error error => .failed (.ofError error)
  else answer invocation.command around {} colour

/-- The files that the outcome may depend on. -/
def files (invocation : Invocation) (directory : Option Path) : List Path :=
  let documents :=
    match invocation.config, directory with
    | some path, _ => [path]
    | none, some directory => (directory.ancestors Settings.searchDepth).map Settings.documentIn
    | none, none => []
  match invocation.command with
  | .detect paths .. => documents ++ paths
  | .validate _ path .. => documents ++ path.toList
  | .languages _ => documents
  | .init _ => [Settings.documentIn (.ofString ".")]

/-- Whether the outcome may depend on the standard input. -/
def readsInput (invocation : Invocation) : Bool :=
  match invocation.command with
  | .detect paths .. => paths.isEmpty
  | .validate _ path .. => path.isNone
  | .languages _ | .init _ => false

end Invocation

/-- What a run answers: its exit status, and what it writes to its output and beside it. -/
structure Reply where
  exitCode : Nat
  output : String
  errors : String
deriving DecidableEq, Repr

namespace Reply

/-- The reply of a run that shows something and may have failed. -/
def shown (output : String) : Option Failure → Reply
  | none => { exitCode := 0, output, errors := "" }
  | some failure => { exitCode := 1, output, errors := failure.report }

/-- What is shown on a request for the version. -/
def version : String :=
  "codesniff 0.1.0\n"

/-- The commands and their options, in words of its own: what is shown on a request for help, and on
arguments that are refused. -/
def usage : String :=
  "Usage: codesniff [--config <CONFIG>] [-v]... [--plain] <COMMAND>\n\n" ++
  "Commands:\n" ++
  "  detect [PATHS]... [--ext <EXT>] [--all] [-f <FORMAT>]\n" ++
  "  validate -l <LANG> [PATH] [--ext <EXT>] [-f <FORMAT>] [--strict]\n" ++
  "  languages [-f <FORMAT>]\n" ++
  "  init [--force]\n"

/-- The reply to arguments that lead to no command. -/
def refused (refusal : CommandLine.Refusal) : Reply :=
  match refusal with
  | .helpRequested => { exitCode := 0, output := usage, errors := "" }
  | .versionRequested => { exitCode := 0, output := version, errors := "" }
  | _ => { exitCode := refusal.exitCode, output := "", errors := usage }

end Reply

/-! ## Sessions -/

/-- A call of the program. -/
structure Call where
  /-- The current directory. -/
  directory : Location
  arguments : List String
  input : List UInt8
  /-- Why the standard input cannot be read, if it cannot. -/
  inputFault : Option FileError := none
  environment : Environment

namespace Call

/-- What the call finds around it in a tree of files. -/
def surroundings (call : Call) (tree : FileTree) : Surroundings :=
  { directory := some (Path.ofLocation call.directory)
    sources :=
      { read := tree.read call.directory, input := call.input, inputFault := call.inputFault }
    environment := call.environment }

/-- What the call comes to in a tree of files. -/
def outcome (call : Call) (tree : FileTree) : Outcome :=
  match CommandLine.readArguments call.arguments call.environment.config? with
  | .ok invocation => invocation.run (call.surroundings tree)
  | .error refusal => .refused refusal

/-- The tree of files behind the call, and its reply. -/
def perform (call : Call) (tree : FileTree) : FileTree × Reply :=
  match call.outcome tree with
  | .refused refusal => (tree, .refused refusal)
  | .shown output failure => (tree, .shown output failure)
  | .writes path content output =>
    match tree.write call.directory path content with
    | .ok tree => (tree, .shown output none)
    | .error fault => (tree, .shown "" (some (.ofFileError fault)))

/-- The tree of files behind all calls. -/
def performAll (calls : List Call) (tree : FileTree) : FileTree :=
  calls.foldl (fun tree call => (call.perform tree).1) tree

end Call

end LanguageDetection
