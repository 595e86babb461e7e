import LanguageDetection.Error
import LanguageDetection.Files
import LanguageDetection.Report
import LanguageDetection.Text
import LanguageDetection.Thresholds
import LanguageDetection.Toml

/-!
# Settings

Settings are the thresholds and the form of the output, each of them only if given.  They are read
from documents, which are found in the current directory or above it, or made from a template.
-/

namespace LanguageDetection

/-- The form of the output. -/
structure OutputSettings where
  defaultFormat : Option OutputFormat := none
  showAllCandidates : Bool := false
deriving DecidableEq, Repr

/-- What a settings document sets. -/
structure Settings (α : Type) where
  detection : Option (Thresholds α) := none
  output : Option OutputSettings := none

namespace Settings

variable {α : Type}

/-- The thresholds in force: those given, or else the usual ones. -/
def thresholds [Scalar α] (settings : Settings α) : Thresholds α :=
  settings.detection.getD .default

/-- The output format set, if any. -/
def defaultFormat (settings : Settings α) : Option OutputFormat :=
  settings.output.bind (·.defaultFormat)

/-- Whether all candidates are to be listed. -/
def showsAllCandidates (settings : Settings α) : Bool :=
  settings.output.any (·.showAllCandidates)

/-- The settings without their thresholds if those are unusable. -/
def dropUnusable [Scalar α] (settings : Settings α) : Settings α :=
  match settings.detection.bind Thresholds.fault? with
  | some _ => { settings with detection := none }
  | none => settings

end Settings

/-!
## Documents

Settings documents. Keys that are not known are passed over, and what is not set takes its usual
value. A group of settings may also be given as an array of its values in order.
-/

open Toml (Value)

namespace Settings

/-- The greatest count of 64 bits. -/
def greatestCount : Int := 18446744073709551615

/-- A share: any number will do. -/
def readRatio : Value → Option Float
  | .float x => some x
  | .integer n => if leastInt64 ≤ n && n ≤ greatestCount then some (Float.ofInt n) else none
  | _ => none

/-- A count: a whole number of at most 64 bits that is not negative. -/
def readCount : Value → Option Nat
  | .integer n => if 0 ≤ n && n ≤ greatestCount then some n.toNat else none
  | _ => none

/-- A truth value. -/
def readFlag : Value → Option Bool
  | .boolean b => some b
  | _ => none

/-- An output format: its identifier, or a table with the identifier as the only key and nothing
as its value. -/
def readFormat : Value → Option (Option OutputFormat)
  | .text id => (OutputFormat.ofId? id).map some
  | .table _ [(id, .array _ [])] => (OutputFormat.ofId? id).map some
  | .table _ [(id, .table _ [])] => (OutputFormat.ofId? id).map some
  | _ => none

/-- One setting of a group: the name of its key, and what its value makes of the group. -/
structure Setting (β : Type) where
  key : String
  read : Value → β → Option β

/-- A setting read by a function and put into the group by another. -/
def Setting.of {β γ : Type} (key : String) (read : Value → Option γ) (put : γ → β → β) :
    Setting β :=
  { key, read := fun value group => (read value).map fun x => put x group }

/-- A group with the settings of the members of a table. -/
def readMembers {β : Type} (settings : List (Setting β)) :
    Toml.Members → β → Option β
  | [], group => some group
  | (key, value) :: rest, group =>
    match settings.find? (·.key == key) with
    | some setting => do readMembers settings rest (← setting.read value group)
    | none => if value.isReadable then readMembers settings rest group else none

/-- A group with the settings of the items of an array, as far as there are items. -/
def readItems {β : Type} : List (Setting β) → List Value → β → Option β
  | setting :: settings, value :: values, group => do
    readItems settings values (← setting.read value group)
  | _, _, group => some group

/-- A group of settings, whose usual values are those of `group`. A date sets nothing. -/
def readGroup {β : Type} (settings : List (Setting β)) (group : β) : Value → Option β
  | .table _ members => readMembers settings members group
  | .array _ items => readItems settings items group
  | .moment => some group
  | _ => none

/-- The settings of detection. -/
def detectionSettings : List (Setting (Thresholds Float)) :=
  [.of "match_tolerance" readRatio fun x t => { t with matchTolerance := x },
   .of "medium_confidence" readRatio fun x t => { t with mediumConfidence := x },
   .of "low_confidence" readRatio fun x t => { t with lowConfidence := x },
   .of "min_tokens_for_full_confidence" readCount fun n t =>
     { t with minTokensForFullConfidence := n },
   .of "max_occurrences_per_signature" readCount fun n t =>
     { t with maxOccurrencesPerSignature := n },
   .of "binary_ratio_threshold" readRatio fun x t => { t with binaryRatioThreshold := x }]

/-- The settings of the output. -/
def outputSettings : List (Setting OutputSettings) :=
  [.of "default_format" readFormat fun format o => { o with defaultFormat := format },
   .of "show_all_candidates" readFlag fun b o => { o with showAllCandidates := b }]

/-- The groups of a settings document. -/
def groups : List (Setting (Settings Float)) :=
  [.of "detection" (readGroup detectionSettings .default) fun t s => { s with detection := some t },
   .of "output" (readGroup outputSettings {}) fun o s => { s with output := some o }]

/-- The settings that a document makes, if it is one and its values are of the right kind. -/
def ofDocument (text : String) : Except Error (Settings Float) :=
  match (Toml.read? text).bind fun members => readMembers groups members {} with
  | some settings => .ok settings
  | none => .error (.document "TOML parse error")

/-- What reading a text as a settings document gives. -/
abbrev DocumentReader := String → Except Error (Settings Float)

/-- The settings that a document makes, without thresholds that are unusable. -/
def read (text : String) (parse : DocumentReader := ofDocument) : Except Error (Settings Float) :=
  (parse text).map dropUnusable

/-!
## The template

The settings document that a new project starts with. It sets everything to its usual value.
-/

/-- The name of a settings document. -/
def documentName : String :=
  ".codesniff.toml"

/-- The settings document of a directory. -/
def documentIn (directory : Path) : Path :=
  directory.join (.ofString documentName)

/-- The lines of the document. -/
def templateLines : List String :=
  ["# Codesniff Configuration",
   "",
   "[detection]",
   "# A declared language ranked second is still accepted when its score is at",
   "# least this fraction of the top score",
   "match_tolerance = 0.85",
   "",
   "# Mismatches at or above this confidence name the detected language",
   "medium_confidence = 0.4",
   "",
   "# Below this confidence content is reported as matching no language",
   "low_confidence = 0.15",
   "",
   "# Snippets with fewer tokens get proportionally less confidence",
   "min_tokens_for_full_confidence = 10",
   "",
   "# Repeats of one marker beyond this count are ignored",
   "max_occurrences_per_signature = 5",
   "",
   "# Share of non-printable characters that marks input as binary",
   "binary_ratio_threshold = 0.10",
   "",
   "[output]",
   "default_format = \"terminal\"",
   "show_all_candidates = false"]

/-- The document. -/
def template : String :=
  String.join (templateLines.map (· ++ "\n"))

end Settings

/-!
## Discovery

Finding the settings in force. A document that is asked for must be readable and sound. Otherwise
the nearest readable document counts, in the current directory or one above it; it is passed over
if it cannot be read as settings, and loses its thresholds if they are unusable.

The files are given by a function that reads them, and so are the documents.
-/

/-- What reading the file at a path gives. -/
abbrev FileReader := Path → Except FileError (List UInt8)

/-- The text of a file. -/
def FileReader.text (read : FileReader) (path : Path) : Except FileError String := do
  match Utf8.decode? (← read path) with
  | some text => return String.ofList text
  | none => throw .invalidText

namespace Settings

/-- The number of directories that are searched for a document. -/
def searchDepth : Nat := 10

/-- The settings of a document, if it can be read. -/
def load? (read : FileReader) (path : Path) (parse : DocumentReader := ofDocument) :
    Option (Settings Float) := do
  (Settings.read (← (read.text path).toOption) parse).toOption

/-- The settings found from a directory on. -/
def discover (read : FileReader) (directory : Path) (parse : DocumentReader := ofDocument) :
    Settings Float :=
  let found := (directory.ancestors searchDepth).findSome? fun ancestor =>
    load? read (documentIn ancestor) parse
  found.getD {}

/-- The settings found from the current directory on. Where it cannot be told there is nothing to
search. -/
def discoverHere (read : FileReader) (directory : Option Path)
    (parse : DocumentReader := ofDocument) : Settings Float :=
  match directory with
  | some directory => discover read directory parse
  | none => {}

/-- The result with a context in front of the failure. -/
def withContext {α : Type} (context : String) (result : Except Error α) : Except Error α :=
  result.mapError (·.addContext context)

/-- The settings of a document that was asked for. -/
def loadFile (read : FileReader) (path : Path) (parse : DocumentReader := ofDocument) :
    Except Error (Settings Float) := do
  let text ← withContext ("Reading " ++ path.text)
    ((read.text path).mapError fun fault => .io fault.message)
  let settings ← withContext ("Parsing " ++ path.text) (parse text)
  match settings.detection with
  | some thresholds => discard <| withContext ("Validating " ++ path.text) thresholds.check
  | none => pure ()
  return settings

/-- The settings of the document asked for, or else those found from the current directory on. -/
def load (read : FileReader) (directory : Option Path) (explicit : Option Path)
    (parse : DocumentReader := ofDocument) : Except Error (Settings Float) :=
  match explicit with
  | some path => loadFile read path parse
  | none => .ok (discoverHere read directory parse)

end Settings

/-! ## Creation -/

/-- Whether something is at a path. -/
def FileReader.exists (read : FileReader) (path : Path) : Bool :=
  match read path with
  | .ok _ => true
  | .error fault => !fault.isAbsence

namespace Settings

/-- Where the settings document of a directory is to be written. One that is already there is kept
unless overwriting is forced. -/
def creationPath (read : FileReader) (directory : Path) (force : Bool) : Except Failure Path :=
  if read.exists (documentIn directory) && !force then
    .error { message := "Configuration file already exists. Use --force to overwrite." }
  else .ok (documentIn directory)

/-- The bytes of a new settings document. -/
def templateBytes : List UInt8 :=
  Utf8.encode template.toList

end Settings

end LanguageDetection
