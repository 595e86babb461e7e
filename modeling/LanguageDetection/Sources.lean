import LanguageDetection.Error
import LanguageDetection.Settings

/-!
Sources: files and the standard input, read as text whatever their bytes are. The extension of a
file is a hint to its language unless another hint is given.
-/

namespace LanguageDetection

/-- What is read: files, and bytes that come from the standard input. -/
structure Sources where
  read : FileReader
  input : List UInt8
  /-- Why the standard input cannot be read, if it cannot. -/
  inputFault : Option FileError := none

namespace Sources

/-- The label of the standard input. -/
def inputLabel : String :=
  "<stdin>"

/-- The text of a file. -/
def fileText (sources : Sources) (path : Path) : Except Failure (List Char) :=
  match sources.read path with
  | .ok bytes => .ok (Utf8.decodeLossy bytes)
  | .error fault => .error { message := "Failed to read " ++ path.text, cause := fault.message }

/-- The text of the standard input. -/
def inputText (sources : Sources) : Except Failure (List Char) :=
  match sources.inputFault with
  | none => .ok (Utf8.decodeLossy sources.input)
  | some fault => .error { message := "Failed to read standard input", cause := fault.message }

/-- The label and the text of a file, or else of the standard input. -/
def sourceText (sources : Sources) : Option Path → Except Failure (String × List Char)
  | some path => (sources.fileText path).map fun text => (path.text, text)
  | none => sources.inputText.map fun text => (inputLabel, text)

/-- The hint given, or else the extension of the file. -/
def hint (given : Option String) (path : Option Path) : Option String :=
  given.or (path.bind Path.extension?)

variable {α : Type} [Scalar α]

/-- The detection of one source. -/
def detectOne (sources : Sources) (catalog : Catalog) (thresholds : Thresholds α)
    (extension : Option String) (path : Option Path) : Except Failure (DetectionReport α) := do
  let (source, text) ← sources.sourceText path
  return { source, classification := classify catalog thresholds text (hint extension path) }

/-- The detections of all files, or of the standard input if there are none. The first source that
cannot be read fails all of them. -/
def detect (sources : Sources) (catalog : Catalog) (thresholds : Thresholds α)
    (extension : Option String) (paths : List Path) : Except Failure (List (DetectionReport α)) :=
  if paths.isEmpty then do
    return [← sources.detectOne catalog thresholds extension none]
  else
    paths.mapM fun path => sources.detectOne catalog thresholds extension (some path)

/-- The verdict on one source. The name of the language is read before the source. -/
def validate (sources : Sources) (catalog : Catalog) (thresholds : Thresholds α)
    (name : String) (extension : Option String) (path : Option Path) :
    Except Failure (ValidationReport α) := do
  let declared ← (Language.parse name).mapError fun error =>
    { message := "Cannot validate against '" ++ name ++ "'", cause := error.message }
  let (source, text) ← sources.sourceText path
  return { source,
           verdict := Verdict.validate catalog thresholds declared text (hint extension path) }

end Sources

end LanguageDetection
