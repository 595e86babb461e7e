import LanguageDetection.Language

/-!
# Errors

What can go wrong: errors of the library, errors in reading and writing files, and the failures of a
whole run that both lead to.
-/

namespace LanguageDetection

/-!
## Errors of the library

What can go wrong, apart from the reading and writing of single files. Adding a context to an
error keeps its text behind the context.
-/

/-- A failure of the library. -/
inductive Error where
  /-- A name that no language has. -/
  | unknownLanguage (name : String)
  /-- A rule whose pattern cannot be read. -/
  | invalidPattern (language : Language) (pattern : String)
  /-- A supported language without rules. -/
  | incompleteCatalog (language : Language)
  /-- Settings that make no sense. -/
  | configuration (message : String)
  /-- A file that cannot be read or written. -/
  | io (message : String)
  /-- A document that cannot be read or written, be it settings or JSON, in the words of whoever
  found out. -/
  | document (message : String)
  /-- A failure with a context in front. -/
  | withContext (context message : String)
deriving DecidableEq, Repr

namespace Error

/-- The text of the failure. -/
def message : Error → String
  | unknownLanguage name => "Unknown language: " ++ name
  | invalidPattern language pattern =>
    "Invalid pattern for " ++ language.displayName ++ ": " ++ pattern
  | incompleteCatalog language => "Signature catalog has no entry for " ++ language.displayName
  | configuration message => "Configuration error: " ++ message
  | io message => message
  | document message => message
  | withContext context message => context ++ ": " ++ message

/-- The failure with a context in front of its text. -/
def addContext (error : Error) (context : String) : Error :=
  withContext context error.message

/-- Whether the caller can mend the failure by another input. -/
def isUserFixable : Error → Bool
  | unknownLanguage _ | configuration _ => true
  | invalidPattern .. | incompleteCatalog _ | io _ | document _ | withContext .. => false

end Error

/-- The language of a name, or the failure that quotes the name as given. -/
def Language.parse (name : String) : Except Error Language :=
  match Language.ofName? name with
  | some language => .ok language
  | none => .error (.unknownLanguage name)

/-!
## Errors of files

Why a file cannot be read or written.
-/

/-- A failure to read or write a file. -/
inductive FileError where
  | notFound
  | notDirectory
  | isDirectory
  | alreadyExists
  /-- The file holds bytes that are no text. -/
  | invalidText
  | other (message : String)
deriving DecidableEq, Repr

namespace FileError

/-- The failure in words. -/
def message : FileError → String
  | notFound => "No such file or directory (os error 2)"
  | notDirectory => "Not a directory (os error 20)"
  | isDirectory => "Is a directory (os error 21)"
  | alreadyExists => "File exists (os error 17)"
  | invalidText => "stream did not contain valid UTF-8"
  | other message => message

/-- Whether the failure means that there is nothing at the path. -/
def isAbsence : FileError → Bool
  | notFound | notDirectory => true
  | isDirectory | alreadyExists | invalidText | other _ => false

end FileError

/-!
## Failures of a run

Failures of a whole run, as they are reported to the reader: a text and, below it, the text of the
cause.
-/

/-- A failure of a run. -/
structure Failure where
  message : String
  cause : Option String := none
deriving DecidableEq, Repr

namespace Failure

/-- The failure of an operation of the library. -/
def ofError (error : Error) : Failure :=
  { message := error.message }

/-- The failure to read or write a file. -/
def ofFileError (error : FileError) : Failure :=
  { message := error.message }

/-- All texts, from the outermost to the cause. -/
def chain (failure : Failure) : List String :=
  failure.message :: failure.cause.toList

/-- The text with four blanks in front of every line. -/
def indent (text : String) : String :=
  String.ofList (("    " ++ text).toList.flatMap fun c =>
    if c = '\n' then "\n    ".toList else [c])

/-- The failure as shown to the reader. -/
def report (failure : Failure) : String :=
  "Error: " ++ failure.message ++
    (match failure.cause with
      | some cause => "\n\nCaused by:\n" ++ indent cause
      | none => "") ++
    "\n"

end Failure

end LanguageDetection
