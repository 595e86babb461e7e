import LanguageDetection.Error

/-!
# Files

Paths as they are written, and the trees of files and directories that they lead through.
-/

namespace LanguageDetection

/-!
## Paths

Paths of files, as they are written. A path is cut at its slashes; empty parts and single dots
behind the first part mean nothing. Going up to the parent removes the last part that means
something and does not look at the files, so that two dots are a part like any other.
-/

/-- A path as written. -/
structure Path where
  chars : List Char
deriving DecidableEq, Repr

namespace Path

/-- The path of a text. -/
def ofString (text : String) : Path :=
  { chars := text.toList }

/-- The path as a text. -/
def text (path : Path) : String :=
  String.ofList path.chars

/-- Whether the path starts at the root. -/
def isAbsolute (path : Path) : Bool :=
  path.chars.head? == some '/'

/-- The parts between the slashes. -/
def parts (path : Path) : List (List Char) :=
  path.chars.splitOn '/'

/-- Whether a part behind the first one means nothing. -/
def isVoid (part : List Char) : Bool :=
  part == [] || part == ['.']

/-- The parts without those at the end that mean nothing. -/
def dropVoidEnd (parts : List (List Char)) : List (List Char) :=
  (parts.reverse.dropWhile isVoid).reverse

/-- The path of a first part and the others. -/
def ofParts (first : List Char) (rest : List (List Char)) : Path :=
  if first.isEmpty && rest.isEmpty then { chars := ['/'] }
  else { chars := ['/'].intercalate (first :: rest) }

/-- The path without its last part. The empty path and the root have no parent. -/
def parent? (path : Path) : Option Path :=
  match path.parts with
  | [] => none
  | first :: rest =>
    match dropVoidEnd rest with
    | [] => if first.isEmpty then none else some { chars := [] }
    | kept => some (ofParts first (dropVoidEnd kept.dropLast))

/-- The path, its parent, the parent of that, and so on; `depth` paths at most. -/
def ancestors : (depth : Nat) → Path → List Path
  | 0, _ => []
  | depth + 1, path => path :: (path.parent?.map (ancestors depth)).getD []

/-- The last part, unless it stands for a directory. -/
def fileName? (path : Path) : Option (List Char) :=
  match path.parts with
  | [] => none
  | first :: rest =>
    let name := (dropVoidEnd rest).getLast?.getD first
    if isVoid name || name == ['.', '.'] then none else some name

/-- What stands behind the last dot of the file name, if anything stands before it. -/
def extension? (path : Path) : Option String := do
  let name ← path.fileName?
  match name.reverse.span (· != '.') with
  | (extension, _ :: _ :: _) => some (String.ofList extension.reverse)
  | _ => none

/-- The path that another one leads to from this directory. -/
def join (directory path : Path) : Path :=
  if path.isAbsolute then path
  else if directory.chars.isEmpty || directory.chars.getLast? == some '/' then
    { chars := directory.chars ++ path.chars }
  else { chars := directory.chars ++ '/' :: path.chars }

end Path

/-!
## Trees

A tree of files and directories, without links. A path is followed part by part from the current
directory, and each part asks for a directory to start from. A failing operation changes nothing.
-/

/-- Where a file is: the names on the way from the root. -/
abbrev Location := List (List Char)

/-- The path of a location. -/
def Path.ofLocation (location : Location) : Path :=
  Path.ofParts [] location

/-- What stands at a location. -/
inductive Entry where
  | file (content : List UInt8)
  | directory
deriving DecidableEq, Repr

/-- The files and directories at all locations. -/
structure FileTree where
  entry? : Location → Option Entry

namespace FileTree

/-- The tree with nothing but its root. -/
def empty : FileTree where
  entry? location := if location = [] then some .directory else none

/-- The tree with another entry at a location. -/
def set (tree : FileTree) (location : Location) (entry : Entry) : FileTree where
  entry? other := if other = location then some entry else tree.entry? other

/-- The tree without a location and all below it. The root stays. -/
def erase (tree : FileTree) (location : Location) : FileTree where
  entry? other :=
    if location.isPrefixOf other && !other.isEmpty then none else tree.entry? other

/-- Where a part of a path leads from a location, whether something is there or not. -/
def enter (tree : FileTree) (here : Location) (part : List Char) : Except FileError Location :=
  match tree.entry? here with
  | none => .error .notFound
  | some (.file _) => .error .notDirectory
  | some .directory =>
    .ok <|
      if Path.isVoid part then here
      else if part = ['.', '.'] then here.dropLast
      else here ++ [part]

/-- Where a path starts. -/
def start (directory : Location) (path : Path) : Location :=
  if path.isAbsolute then [] else directory

/-- Where a path leads, whether something is there or not. -/
def resolve (tree : FileTree) (directory : Location) (path : Path) : Except FileError Location :=
  if path.chars.isEmpty then .error .notFound
  else path.parts.foldlM tree.enter (start directory path)

/-- What a path leads to. -/
def find? (tree : FileTree) (directory : Location) (path : Path) :
    Except FileError (Location × Entry) := do
  let location ← tree.resolve directory path
  match tree.entry? location with
  | some entry => return (location, entry)
  | none => throw .notFound

/-- The content of a file. -/
def read (tree : FileTree) (directory : Location) (path : Path) :
    Except FileError (List UInt8) := do
  match ← tree.find? directory path with
  | (_, .file content) => return content
  | (_, .directory) => throw .isDirectory

/-- The tree with a file of this content. A path with a slash at its end is no file. -/
def write (tree : FileTree) (directory : Location) (path : Path) (content : List UInt8) :
    Except FileError FileTree := do
  if path.chars.getLast? == some '/' then
    throw .isDirectory
  let location ← tree.resolve directory path
  match tree.entry? location with
  | some .directory => throw .isDirectory
  | _ => return tree.set location (.file content)

/-- The tree with a directory where a part leads, if nothing was there, and its location. -/
def enterMaking (tree : FileTree) (here : Location) (part : List Char) :
    Except FileError (FileTree × Location) := do
  let there ← tree.enter here part
  match tree.entry? there with
  | none => return (tree.set there .directory, there)
  | some _ => return (tree, there)

/-- The tree with a directory at a path, and with those that it needs on the way. -/
def makeDirectories (tree : FileTree) (directory : Location) (path : Path) :
    Except FileError FileTree := do
  if path.chars.isEmpty then
    return tree
  let (tree, there) ← path.parts.foldlM (fun (tree, here) part => tree.enterMaking here part)
    (tree, start directory path)
  match tree.entry? there with
  | some .directory => return tree
  | _ => throw .alreadyExists

/-- The tree without a file, or without a directory and all in it. -/
def remove (tree : FileTree) (directory : Location) (path : Path) : Except FileError FileTree := do
  let (location, _) ← tree.find? directory path
  return tree.erase location

end FileTree

end LanguageDetection
