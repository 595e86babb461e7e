import LanguageDetection.CommandLine.Session

/-!
The program: it looks at the files a run may depend on, and does what the run comes to.
-/

namespace LanguageDetection.Program

/-- The failure that an error of the system means. -/
def fileErrorOf : IO.Error → FileError
  | .noFileOrDirectory .. => .notFound
  | .inappropriateType _ code _ =>
    if code = 21 || code = 0 - 21 then .isDirectory else .notDirectory
  | .alreadyExists .. => .alreadyExists
  | error => .other (toString error)

/-- The content of a file, or the failure to read it. -/
def readFile (path : Path) : IO (Except FileError (List UInt8)) := do
  try
    return .ok (← IO.FS.readBinFile path.text).toList
  catch error =>
    return .error (fileErrorOf error)

/-- All that is left of the standard input. -/
partial def readInput (stream : IO.FS.Stream) (bytes : ByteArray := .empty) :
    IO (List UInt8) := do
  let more ← stream.read 65536
  if more.isEmpty then return bytes.toList
  else readInput stream (bytes ++ more)

/-- What an invocation finds around it. -/
def surroundingsOf (invocation : Invocation) (environment : Environment) : IO Surroundings := do
  let directory ←
    try
      pure (some (Path.ofString (← IO.currentDir).toString))
    catch _ => pure none
  let files ← (invocation.files directory).mapM fun path => do
    return (path, ← readFile path)
  let (input, inputFault) ←
    if invocation.readsInput then
      try
        pure (← readInput (← IO.getStdin), none)
      catch error => pure ([], some (fileErrorOf error))
    else pure ([], none)
  return { directory
           sources :=
             { read := fun path => (files.lookup path).getD (.error .notFound), input, inputFault }
           environment }

/-- Does what a run comes to. -/
def perform : Outcome → IO Reply
  | .refused refusal => return .refused refusal
  | .shown output failure => return .shown output failure
  | .writes path content output => do
    try
      IO.FS.writeBinFile path.text ⟨content.toArray⟩
      return .shown output none
    catch error =>
      return .shown "" (some (.ofFileError (fileErrorOf error)))

/-- Runs the program, and gives its exit status. -/
def run (arguments : List String) : IO UInt32 := do
  let names := ["CODESNIFF_CONFIG", "NO_COLOR", "CLICOLOR", "CLICOLOR_FORCE"]
  let values ← names.mapM fun name => do return (name, ← IO.getEnv name)
  let environment : Environment :=
    { value? := fun name => (values.lookup name).join
      toTerminal := ← (← IO.getStdout).isTty }
  let outcome ←
    match CommandLine.readArguments arguments environment.config? with
    | .ok invocation => pure (invocation.run (← surroundingsOf invocation environment))
    | .error refusal => pure (.refused refusal)
  let reply ← perform outcome
  IO.print reply.output
  IO.eprint reply.errors
  return reply.exitCode.toUInt32

end LanguageDetection.Program

def main (arguments : List String) : IO UInt32 :=
  LanguageDetection.Program.run arguments
