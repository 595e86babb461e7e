import LanguageDetection.Decimal
import LanguageDetection.Json.Reader

/-!
# TOML documents

Reading TOML documents into values: lines of keys with values, and headers of tables.
-/

namespace LanguageDetection.Toml

/-!
## Values

TOML documents as values. A table remembers how it came about, since that decides whether later
lines may add to it.
-/

/-- How a table came about. -/
inductive Origin where
  /-- A header names it. -/
  | header
  /-- It lies on the way to a table that a header names. -/
  | implied
  /-- It lies on the way to the last part of a dotted key. -/
  | dotted
  /-- It is written in braces as a value. -/
  | inline
deriving DecidableEq, Repr

/-- A value of a document. -/
inductive Value where
  | text (value : String)
  | integer (value : Int)
  | float (value : Float)
  /-- A number that is beyond every type of number. -/
  | overflow
  | boolean (value : Bool)
  /-- A date, a time of day, or both. -/
  | moment
  /-- An array; `ofTables` says that it is made of headers in double brackets. -/
  | array (ofTables : Bool) (items : List Value)
  /-- A table with its members in order. -/
  | table (origin : Origin) (members : List (String × Value))
deriving Inhabited

/-- The members of a table. -/
abbrev Members := List (String × Value)

namespace Members

/-- The value of a key. -/
def get? (members : Members) (key : String) : Option Value :=
  (members.find? (·.1 == key)).map (·.2)

/-- The members with a new value for a key, which goes to the end if it is new. -/
def put (members : Members) (key : String) (value : Value) : Members :=
  match members with
  | [] => [(key, value)]
  | (k, v) :: rest => if k == key then (k, value) :: rest else (k, v) :: put rest key value

end Members

namespace Value

mutual

/-- Whether every number in the value is within some type of number. -/
def isReadable : Value → Bool
  | overflow => false
  | array _ items => areReadable items
  | table _ members => membersAreReadable members
  | _ => true

/-- Whether all values of a list are readable. -/
def areReadable : List Value → Bool
  | [] => true
  | value :: rest => value.isReadable && areReadable rest

/-- Whether the values of all members are readable. -/
def membersAreReadable : List (String × Value) → Bool
  | [] => true
  | (_, value) :: rest => value.isReadable && membersAreReadable rest

end

end Value

/-!
## Tables

Adding keys and headers to a document. A key may be given only once. A header may name a table that
so far was only implied by others; the parts of a dotted key may be added to by dotted keys of the
same table only; a table in braces may not be added to at all.
-/

/-- Applies a change to the last of a list of tables. -/
def changeLast (change : Members → Option Members) : List Value → Option (List Value)
  | [] => none
  | [.table origin members] => do return [.table origin (← change members)]
  | [_] => none
  | value :: rest => do return value :: (← changeLast change rest)

/-- Adds a value under a key whose parts but the last are `path`. The flag says whether the last
part may be added to this table. -/
def insertKey (isOpen : Bool) (key : String) (value : Value) (members : Members) :
    (path : List String) → Option Members
  | [] => if isOpen && (members.get? key).isNone then some (members.put key value) else none
  | part :: path =>
    match members.get? part with
    | none => do
      return members.put part (.table .dotted (← insertKey true key value [] path))
    | some (.table .dotted inner) => do
      return members.put part (.table .dotted (← insertKey true key value inner path))
    | some (.table .implied inner) => do
      return members.put part (.table .implied (← insertKey false key value inner path))
    | some (.array true items) => do
      return members.put part
        (.array true (← changeLast (fun inner => insertKey false key value inner path) items))
    | some _ => none

/-- Adds a value under a key of one or several parts to the table of a header. -/
def insert (members : Members) (path : List String) (key : String) (value : Value) :
    Option Members :=
  insertKey path.isEmpty key value members path

/-- Applies a change to the table that the parts of a header lead to. Missing tables are implied;
an array of tables stands for its last one. -/
def changeAt (change : Members → Option Members) (members : Members) :
    (path : List String) → Option Members
  | [] => change members
  | part :: path =>
    match members.get? part with
    | none => do
      return members.put part (.table .implied (← changeAt change [] path))
    | some (.table .inline _) => none
    | some (.table origin inner) => do
      return members.put part (.table origin (← changeAt change inner path))
    | some (.array true items) => do
      return members.put part
        (.array true (← changeLast (fun inner => changeAt change inner path) items))
    | some _ => none

/-- Makes a table of a header, unless there is one that is more than implied. -/
def openTable (key : String) (members : Members) : Option Members :=
  match members.get? key with
  | none => some (members.put key (.table .header []))
  | some (.table .implied inner) => some (members.put key (.table .header inner))
  | some _ => none

/-- Adds a table to an array of tables, which is made if there is none. -/
def appendTable (key : String) (members : Members) : Option Members :=
  match members.get? key with
  | none => some (members.put key (.array true [.table .header []]))
  | some (.array true items) => some (members.put key (.array true (items ++ [.table .header []])))
  | some _ => none

/-!
## Unquoted values

Unquoted values: truth values, whole numbers, floating point numbers, dates and times. A number may
have single underscores between its digits.
-/

/-- Whether a character may stand in an unquoted value. -/
def isLiteralChar (c : Char) : Bool :=
  c.isAlphanum || c = '_' || c = '+' || c = '-' || c = '.' || c = ':'

/-- The digits without their underscores, if each underscore has a digit on both sides and there
is a digit. -/
def plainDigits? (isDigit : Char → Bool) : List Char → Option (List Char)
  | [] => none
  | [c] => if isDigit c then some [c] else none
  | c :: '_' :: rest => if isDigit c then (plainDigits? isDigit rest).map (c :: ·) else none
  | c :: rest => if isDigit c then (plainDigits? isDigit rest).map (c :: ·) else none

/-- The value of digits in a base of at most sixteen. -/
def valueInBase (base : Nat) (digits : List Char) : Nat :=
  digits.foldl (fun n c =>
    base * n +
      if c.isDigit then c.toNat - '0'.toNat else c.toLower.toNat - 'a'.toNat + 10) 0

/-- The least whole number with a sign that fits into 128 bits. -/
def leastInteger : Int := -170141183460469231731687303715884105728

/-- The greatest whole number without a sign that fits into 128 bits. -/
def greatestInteger : Int := 340282366920938463463374607431768211455

/-- A whole number, unless it needs more than 128 bits. -/
def ofInt (n : Int) : Value :=
  if leastInteger ≤ n && n ≤ greatestInteger then .integer n else .overflow

/-- A whole number in a base other than ten. -/
def readBased (base : Nat) (isDigit : Char → Bool) (digits : List Char) : Option Value :=
  (plainDigits? isDigit digits).map fun digits => ofInt (valueInBase base digits)

/-- Whether the character is a digit of base sixteen. -/
def isHexDigit (c : Char) : Bool :=
  c.isDigit || ('a' ≤ c && c ≤ 'f') || ('A' ≤ c && c ≤ 'F')

/-- Digits without a zero in front of others. -/
def isCanonical (digits : List Char) : Bool :=
  digits.head? != some '0' || digits.length = 1

/-- The digits of an exponent, with its sign. -/
def readExponent (text : List Char) : Option (Bool × List Char) := do
  let (negative, text) := Decimal.Literal.readSign text
  return (negative, ← plainDigits? Char.isDigit text)

/-- A number in base ten behind its sign. -/
def readDecimal (negative : Bool) (text : List Char) : Option Value := do
  let (whole, rest) := text.span fun c => c.isDigit || c = '_'
  let whole ← plainDigits? Char.isDigit whole
  if !isCanonical whole then none
  else
    let number (fraction exponent) : Value :=
      let x := ({ negative, whole, fraction, exponent } : Decimal.Literal).toFloat
      if x.isInf then .overflow else .float x
    match rest with
    | [] =>
      let n : Int := Decimal.digitsValue whole
      some (ofInt (if negative then -n else n))
    | '.' :: rest =>
      let (fraction, rest) := rest.span fun c => c.isDigit || c = '_'
      let fraction ← plainDigits? Char.isDigit fraction
      match rest with
      | [] => some (number (some fraction) none)
      | e :: rest =>
        if e = 'e' || e = 'E' then
          some (number (some fraction) (some (← readExponent rest)))
        else none
    | e :: rest =>
      if e = 'e' || e = 'E' then some (number none (some (← readExponent rest))) else none

/-- The number of two digits. -/
def twoDigits? (a b : Char) : Option Nat :=
  if a.isDigit && b.isDigit then some (Decimal.digitsValue [a, b]) else none

/-- The number of days of a month. -/
def daysOf (year month : Nat) : Nat :=
  if month = 2 then
    if year % 4 = 0 && (year % 100 != 0 || year % 400 = 0) then 29 else 28
  else if month = 4 || month = 6 || month = 9 || month = 11 then 30 else 31

/-- The text behind a date. -/
def readDate : List Char → Option (List Char)
  | y₁ :: y₂ :: y₃ :: y₄ :: '-' :: m₁ :: m₂ :: '-' :: d₁ :: d₂ :: rest => do
    let year := 100 * (← twoDigits? y₁ y₂) + (← twoDigits? y₃ y₄)
    let month ← twoDigits? m₁ m₂
    let day ← twoDigits? d₁ d₂
    if 1 ≤ month && month ≤ 12 && 1 ≤ day && day ≤ daysOf year month then some rest else none
  | _ => none

/-- The text behind hours and minutes. -/
def readMinutes : List Char → Option (List Char)
  | h₁ :: h₂ :: ':' :: m₁ :: m₂ :: rest => do
    if (← twoDigits? h₁ h₂) ≤ 23 && (← twoDigits? m₁ m₂) ≤ 59 then some rest else none
  | _ => none

/-- The text behind a time of day, whose seconds may be left out and may have a fraction. -/
def readTime (text : List Char) : Option (List Char) := do
  match ← readMinutes text with
  | ':' :: s₁ :: s₂ :: rest =>
    if 60 < (← twoDigits? s₁ s₂) then none
    else
      match rest with
      | '.' :: rest =>
        if rest.head?.any Char.isDigit then some (rest.dropWhile Char.isDigit) else none
      | rest => some rest
  | rest => some rest

/-- Whether the text is an offset from universal time, or nothing. -/
def isOffset : List Char → Bool
  | [] | ['Z'] | ['z'] => true
  | c :: rest => (c = '+' || c = '-') && readMinutes rest == some []

/-- Whether the text is a date, a time of day, or both with an optional offset. -/
def isMoment (text : List Char) : Bool :=
  match readDate text with
  | some [] => true
  | some (c :: rest) => (c = 'T' || c = 't' || c = ' ') && (readTime rest).any isOffset
  | none => readTime text == some []

/-- The value of an unquoted text. -/
def readLiteral (text : List Char) : Option Value :=
  match text with
  | ['t', 'r', 'u', 'e'] => some (.boolean true)
  | ['f', 'a', 'l', 's', 'e'] => some (.boolean false)
  | '0' :: 'x' :: digits => readBased 16 isHexDigit digits
  | '0' :: 'o' :: digits => readBased 8 (fun c => '0' ≤ c && c ≤ '7') digits
  | '0' :: 'b' :: digits => readBased 2 (fun c => c = '0' || c = '1') digits
  | text =>
    let (negative, unsigned) := Decimal.Literal.readSign text
    if unsigned = ['i', 'n', 'f'] then some (.float (if negative then -(1 / 0) else 1 / 0))
    else if unsigned = ['n', 'a', 'n'] then some (.float (0 / 0))
    else if isMoment text then some .moment
    else readDecimal negative unsigned

/-- The unquoted text at the start, and what follows it. A date and a time may be parted by a
single blank. -/
def spanLiteral (text : List Char) : List Char × List Char :=
  let (first, rest) := text.span isLiteralChar
  match readDate first, rest with
  | some [], ' ' :: c :: more =>
    if c.isDigit then
      let (second, rest) := (c :: more).span isLiteralChar
      (first ++ ' ' :: second, rest)
    else (first, rest)
  | _, _ => (first, rest)

/-!
## Quoted texts

Quoted texts. Double quotes enclose a text with escapes and single quotes one without; three quotes
enclose a text of several lines.
-/

/-- Whether a character may stand as it is in a line: no control character but the tabulator. -/
def isLineChar (c : Char) : Bool :=
  c = '\t' || (32 ≤ c.toNat && c.toNat ≠ 127)

/-- The character of a code point in base sixteen. -/
def charOfHex? (digits : List Char) : Option Char := do
  let values ← digits.mapM Json.hexValue?
  Characters.ofCodePoint? (values.foldl (fun n d => 16 * n + d) 0)

/-- The character that the text behind a backslash begins with, and what follows it. -/
def readEscape : List Char → Option (Char × List Char)
  | 'b' :: rest => some ('\x08', rest)
  | 't' :: rest => some ('\t', rest)
  | 'n' :: rest => some ('\n', rest)
  | 'f' :: rest => some ('\x0c', rest)
  | 'r' :: rest => some ('\r', rest)
  | 'e' :: rest => some ('\x1b', rest)
  | '"' :: rest => some ('"', rest)
  | '\\' :: rest => some ('\\', rest)
  | 'x' :: rest => hex 2 rest
  | 'u' :: rest => hex 4 rest
  | 'U' :: rest => hex 8 rest
  | _ => none
where
  /-- The character of a fixed number of digits. -/
  hex (count : Nat) (text : List Char) : Option (Char × List Char) :=
    if text.length < count then none
    else (charOfHex? (text.take count)).map fun c => (c, text.drop count)

/-- The text up to the closing double quote on the same line, and what follows it. -/
def readDouble : (fuel : Nat) → List Char → Option (List Char × List Char)
  | 0, _ | _, [] => none
  | _ + 1, '"' :: rest => some ([], rest)
  | fuel + 1, '\\' :: rest => do
    let (c, rest) ← readEscape rest
    let (text, rest) ← readDouble fuel rest
    return (c :: text, rest)
  | fuel + 1, c :: rest =>
    if isLineChar c then do
      let (text, rest) ← readDouble fuel rest
      return (c :: text, rest)
    else none

/-- The text up to the closing single quote on the same line, and what follows it. -/
def readSingle : List Char → Option (List Char × List Char)
  | [] => none
  | '\'' :: rest => some ([], rest)
  | c :: rest =>
    if isLineChar c then do
      let (text, rest) ← readSingle rest
      return (c :: text, rest)
    else none

/-- The text without a line feed in front. -/
def skipLineFeed : List Char → List Char
  | '\n' :: rest => rest
  | '\r' :: '\n' :: rest => rest
  | text => text

/-- Whether only blanks come before the end of the line. -/
def isLineRest : List Char → Bool
  | '\n' :: _ => true
  | '\r' :: '\n' :: _ => true
  | ' ' :: rest => isLineRest rest
  | '\t' :: rest => isLineRest rest
  | _ => false

/-- The text without the blanks and line ends in front. -/
def skipWhite : List Char → List Char
  | '\n' :: rest => skipWhite rest
  | '\r' :: '\n' :: rest => skipWhite rest
  | ' ' :: rest => skipWhite rest
  | '\t' :: rest => skipWhite rest
  | text => text

/-- The text of several lines up to three double quotes, and what follows them. Up to two more
quotes at the end belong to the text; a backslash at the end of a line joins it to the next text. -/
def readTripleDouble : (fuel : Nat) → List Char → Option (List Char × List Char)
  | 0, _ | _, [] => none
  | _ + 1, '"' :: '"' :: '"' :: '"' :: '"' :: rest => some (['"', '"'], rest)
  | _ + 1, '"' :: '"' :: '"' :: '"' :: rest => some (['"'], rest)
  | _ + 1, '"' :: '"' :: '"' :: rest => some ([], rest)
  | fuel + 1, '\\' :: rest =>
    if isLineRest rest then readTripleDouble fuel (skipWhite rest)
    else do
      let (c, rest) ← readEscape rest
      let (text, rest) ← readTripleDouble fuel rest
      return (c :: text, rest)
  | fuel + 1, '\r' :: '\n' :: rest => do
    let (text, rest) ← readTripleDouble fuel rest
    return ('\n' :: text, rest)
  | fuel + 1, c :: rest =>
    if isLineChar c || c = '\n' then do
      let (text, rest) ← readTripleDouble fuel rest
      return (c :: text, rest)
    else none

/-- The text of several lines up to three single quotes, and what follows them. -/
def readTripleSingle : List Char → Option (List Char × List Char)
  | [] => none
  | '\'' :: '\'' :: '\'' :: '\'' :: '\'' :: rest => some (['\'', '\''], rest)
  | '\'' :: '\'' :: '\'' :: '\'' :: rest => some (['\''], rest)
  | '\'' :: '\'' :: '\'' :: rest => some ([], rest)
  | '\r' :: '\n' :: rest => do
    let (text, rest) ← readTripleSingle rest
    return ('\n' :: text, rest)
  | c :: rest =>
    if isLineChar c || c = '\n' then do
      let (text, rest) ← readTripleSingle rest
      return (c :: text, rest)
    else none

/-- The quoted text that the text begins with, and what follows it. -/
def readQuoted : List Char → Option (List Char × List Char)
  | '"' :: '"' :: '"' :: rest =>
    let rest := skipLineFeed rest
    readTripleDouble (rest.length + 1) rest
  | '"' :: rest => readDouble (rest.length + 1) rest
  | '\'' :: '\'' :: '\'' :: rest => readTripleSingle (skipLineFeed rest)
  | '\'' :: rest => readSingle rest
  | _ => none

/-!
## Documents

Reading TOML documents: lines of keys with values, and headers of tables.
-/

/-- The text without the blanks in front. -/
def skipBlanks (text : List Char) : List Char :=
  text.dropWhile fun c => c = ' ' || c = '\t'

/-- The text behind the blanks, line ends and comments in front. -/
def skipLines : (inComment : Bool) → List Char → Option (List Char)
  | _, [] => some []
  | _, '\n' :: rest => skipLines false rest
  | _, '\r' :: '\n' :: rest => skipLines false rest
  | true, c :: rest => if isLineChar c then skipLines true rest else none
  | false, '#' :: rest => skipLines true rest
  | false, ' ' :: rest => skipLines false rest
  | false, '\t' :: rest => skipLines false rest
  | false, text => some text

/-- The text behind the end of the line, before which only a comment may stand. -/
def readLineEnd : (inComment : Bool) → List Char → Option (List Char)
  | _, [] => some []
  | _, '\n' :: rest => some rest
  | _, '\r' :: '\n' :: rest => some rest
  | true, c :: rest => if isLineChar c then readLineEnd true rest else none
  | false, '#' :: rest => readLineEnd true rest
  | false, ' ' :: rest => readLineEnd false rest
  | false, '\t' :: rest => readLineEnd false rest
  | false, _ => none

/-- Whether a character may stand in a key without quotes. -/
def isKeyChar (c : Char) : Bool :=
  c.isAlphanum || c = '_' || c = '-'

/-- One part of a key, and what follows it. -/
def readKeyPart : List Char → Option (String × List Char)
  | '"' :: rest => (readDouble (rest.length + 1) rest).map fun (key, rest) =>
    (String.ofList key, rest)
  | '\'' :: rest => (readSingle rest).map fun (key, rest) => (String.ofList key, rest)
  | text =>
    let (key, rest) := text.span isKeyChar
    if key.isEmpty then none else some (String.ofList key, rest)

/-- A key: the parts before its last one, the last one, and what follows behind blanks. -/
def readKey : (fuel : Nat) → List Char → Option (List String × String × List Char)
  | 0, _ => none
  | fuel + 1, text => do
    let (part, rest) ← readKeyPart text
    match skipBlanks rest with
    | '.' :: rest =>
      let (path, last, rest) ← readKey fuel (skipBlanks rest)
      return (part :: path, last, rest)
    | rest => return ([], part, rest)

/-- How deep arrays and tables in braces may be nested. -/
def maxDepth : Nat := 80

mutual

/-- The value that the text begins with, and what follows it. -/
def readValue : (fuel depth : Nat) → List Char → Option (Value × List Char)
  | 0, _, _ => none
  | fuel + 1, depth, text =>
    match text with
    | '[' :: rest =>
      if depth = 0 then none
      else do
        let (items, rest) ← readItems fuel (depth - 1) [] rest
        return (.array false items, rest)
    | '{' :: rest =>
      if depth = 0 then none
      else do
        let (members, rest) ← readMembers fuel (depth - 1) [] rest
        return (.table .inline members, rest)
    | '"' :: _ | '\'' :: _ =>
      (readQuoted text).map fun (text, rest) => (.text (String.ofList text), rest)
    | text =>
      let (literal, rest) := spanLiteral text
      (readLiteral literal).map fun value => (value, rest)

/-- The items of an array up to its closing bracket, added to those already read. -/
def readItems : (fuel depth : Nat) → List Value → List Char → Option (List Value × List Char)
  | 0, _, _, _ => none
  | fuel + 1, depth, items, text => do
    match ← skipLines false text with
    | ']' :: rest => return (items, rest)
    | text =>
      let (item, rest) ← readValue fuel depth text
      match ← skipLines false rest with
      | ',' :: rest => readItems fuel depth (items ++ [item]) rest
      | ']' :: rest => return (items ++ [item], rest)
      | _ => none

/-- The members of a table in braces up to the closing one, added to those already read. -/
def readMembers : (fuel depth : Nat) → Members → List Char → Option (Members × List Char)
  | 0, _, _, _ => none
  | fuel + 1, depth, members, text => do
    match ← skipLines false text with
    | '}' :: rest => return (members, rest)
    | text =>
      let (path, key, rest) ← readKey fuel text
      match rest with
      | '=' :: rest =>
        let (value, rest) ← readValue fuel depth (skipBlanks rest)
        let members ← insert members path key value
        match ← skipLines false rest with
        | ',' :: rest => readMembers fuel depth members rest
        | '}' :: rest => return (members, rest)
        | _ => none
      | _ => none

end

/-- The text behind the closing brackets of a header and the end of its line. -/
def readHeaderEnd (isArray : Bool) : List Char → Option (List Char)
  | ']' :: ']' :: rest => if isArray then readLineEnd false rest else none
  | ']' :: rest => if isArray then none else readLineEnd false rest
  | _ => none

/-- The lines of a document, of which the first ones belong to the table at `here`. -/
def readLines : (fuel : Nat) → (here : List String) → Members → List Char → Option Members
  | 0, _, _, _ => none
  | fuel + 1, here, document, text => do
    match ← skipLines false text with
    | [] => return document
    | '[' :: rest =>
      let (isArray, rest) := match rest with
        | '[' :: rest => (true, rest)
        | rest => (false, rest)
      let (path, key, rest) ← readKey fuel (skipBlanks rest)
      let rest ← readHeaderEnd isArray rest
      let document ← changeAt (if isArray then appendTable key else openTable key) document path
      readLines fuel (path ++ [key]) document rest
    | text =>
      let (path, key, rest) ← readKey fuel text
      match rest with
      | '=' :: rest =>
        let (value, rest) ← readValue fuel maxDepth (skipBlanks rest)
        let rest ← readLineEnd false rest
        let document ← changeAt (insert · path key value) document here
        readLines fuel here document rest
      | _ => none

/-- The document of a text, which may start with a byte order mark. -/
def read? (text : String) : Option Members :=
  match text.toList with
  | '\uFEFF' :: rest => readLines (rest.length + 1) [] [] rest
  | text => readLines (text.length + 1) [] [] text

end LanguageDetection.Toml
