import LanguageDetection.Decimal

/-!
# JSON documents

JSON documents as values, and their written form.
-/

namespace LanguageDetection

/-!
## Values

JSON documents as values. An object keeps its members in order, and a number keeps its text.
-/

/-- A JSON document. -/
inductive Json where
  | null
  | bool (value : Bool)
  | number (literal : String)
  | string (text : String)
  | array (items : List Json)
  | object (members : List (String × Json))
deriving Inhabited

namespace Json

/-- A natural number. -/
def natural (n : Nat) : Json :=
  number (String.ofList (Decimal.digits n))

/-- A floating point number; `null` if it is not finite. -/
def float (x : Float) : Json :=
  match Decimal.Binary.ofFloat x with
  | .finite .. => number (Decimal.Layout.json.text x)
  | _ => null

/-- A list of texts. -/
def strings (texts : List String) : Json :=
  array (texts.map string)

/-!
## The written form

The written form of JSON documents: every item and member on a line of its own, indented by two
spaces for each level; an empty array or object stays on its line.
-/

/-- A digit of base sixteen. -/
def hexDigit (n : Nat) : Char :=
  (Nat.toDigits 16 (n % 16)).headD '0'

/-- The character as it stands in a quoted text. Quotes, backslashes and control characters are
escaped. -/
def escapeChar (c : Char) : List Char :=
  if c = '"' then ['\\', '"']
  else if c = '\\' then ['\\', '\\']
  else if c = '\n' then ['\\', 'n']
  else if c = '\r' then ['\\', 'r']
  else if c = '\t' then ['\\', 't']
  else if c.toNat = 8 then ['\\', 'b']
  else if c.toNat = 12 then ['\\', 'f']
  else if c.toNat < 32 then ['\\', 'u', '0', '0', hexDigit (c.toNat / 16), hexDigit c.toNat]
  else [c]

/-- A quoted text. -/
def quote (text : String) : List Char :=
  '"' :: text.toList.flatMap escapeChar ++ ['"']

/-- The start of a line at a level. -/
def newLine (level : Nat) : List Char :=
  '\n' :: List.replicate (2 * level) ' '

mutual

/-- The document as it stands at a level. -/
def write (level : Nat) : Json → List Char
  | null => "null".toList
  | bool true => "true".toList
  | bool false => "false".toList
  | number literal => literal.toList
  | string text => quote text
  | array [] => ['[', ']']
  | array (item :: rest) =>
    '[' :: newLine (level + 1) ++ write (level + 1) item ++ writeItems (level + 1) rest ++
      newLine level ++ [']']
  | object [] => ['{', '}']
  | object ((key, value) :: rest) =>
    '{' :: newLine (level + 1) ++ quote key ++ ':' :: ' ' :: write (level + 1) value ++
      writeMembers (level + 1) rest ++ newLine level ++ ['}']

/-- The items behind the first one of an array. -/
def writeItems (level : Nat) : List Json → List Char
  | [] => []
  | item :: rest => ',' :: newLine level ++ write level item ++ writeItems level rest

/-- The members behind the first one of an object. -/
def writeMembers (level : Nat) : List (String × Json) → List Char
  | [] => []
  | (key, value) :: rest =>
    ',' :: newLine level ++ quote key ++ ':' :: ' ' :: write level value ++
      writeMembers level rest

end

/-- The text of a document, ended by a line feed. -/
def document (json : Json) : String :=
  String.ofList (json.write 0 ++ ['\n'])

end Json

end LanguageDetection
