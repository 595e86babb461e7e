import LanguageDetection.Characters
import LanguageDetection.Scalar

/-!
# Texts

A text is a list of characters.  It is read from bytes, whatever they are (`Utf8`), told from binary
data (`looksBinary`) and cut into tokens (`tokens`).
-/

namespace LanguageDetection

open Characters

/-!
## Texts as bytes

Text as bytes. A character is one to four bytes; bytes that are no character are found as the
longest parts that could have begun one, each of them read as one fault.
-/

namespace Utf8

/-- The bytes of a text. -/
def encode (text : List Char) : List UInt8 :=
  text.flatMap String.utf8EncodeChar

/-- Where reading stands: between two characters, or within one that lacks `owed` bytes after the
next, which must lie from `low` to `high`; the bytes before it make up `value`. -/
inductive Reading where
  | between
  | within (owed low high value : Nat)

/-- What a byte between two characters completes, and where reading stands behind it. -/
def first (byte : Nat) : List (Option Char) × Reading :=
  if byte < 0x80 then ([Characters.ofCodePoint? byte], .between)
  else if byte < 0xC2 then ([none], .between)
  else if byte < 0xE0 then ([], .within 0 0x80 0xBF (byte - 0xC0))
  else if byte = 0xE0 then ([], .within 1 0xA0 0xBF 0)
  else if byte = 0xED then ([], .within 1 0x80 0x9F 0xD)
  else if byte < 0xF0 then ([], .within 1 0x80 0xBF (byte - 0xE0))
  else if byte = 0xF0 then ([], .within 2 0x90 0xBF 0)
  else if byte < 0xF4 then ([], .within 2 0x80 0xBF (byte - 0xF0))
  else if byte = 0xF4 then ([], .within 2 0x80 0x8F 4)
  else ([none], .between)

/-- What a byte completes, and where reading stands behind it. A byte that cannot go on with a
character ends it as a fault, and is then read like one between two characters. -/
def next : Reading → Nat → List (Option Char) × Reading
  | .between, byte => first byte
  | .within owed low high value, byte =>
    if low ≤ byte && byte ≤ high then
      let value := 64 * value + (byte - 0x80)
      match owed with
      | 0 => ([Characters.ofCodePoint? value], .between)
      | owed + 1 => ([], .within owed 0x80 0xBF value)
    else
      let (found, reading) := first byte
      (none :: found, reading)

/-- The characters of the bytes that follow, and `none` for every fault. -/
def decodeFrom : Reading → List UInt8 → List (Option Char)
  | .between, [] => []
  | .within .., [] => [none]
  | reading, byte :: bytes =>
    let (found, reading) := next reading byte.toNat
    found ++ decodeFrom reading bytes

/-- The characters of a text as bytes, and `none` for every fault. -/
def decode (bytes : List UInt8) : List (Option Char) :=
  decodeFrom .between bytes

/-- The text with the replacement character in place of every fault. -/
def decodeLossy (bytes : List UInt8) : List Char :=
  (decode bytes).map (·.getD '\uFFFD')

/-- The text, if the bytes are without fault. -/
def decode? (bytes : List UInt8) : Option (List Char) :=
  (decode bytes).mapM id

end Utf8

/-!
## Binary data

Telling binary data from text by the share of characters that do not print.
-/

/-- A control character. -/
def isControl (c : Char) : Bool :=
  c.toNat < 0x20 || (0x7F ≤ c.toNat && c.toNat < 0xA0)

/-- A control character other than line feed, carriage return, tabulator and form feed, or the
character that stands for bytes that are no text. -/
def isNonPrintable (c : Char) : Bool :=
  c == '\uFFFD' || (isControl c && c != '\n' && c != '\r' && c != '\t' && c != '\x0C')

/-- Whether the share of characters that do not print exceeds the threshold. -/
def looksBinary {α : Type} [Scalar α] (text : List Char) (threshold : α) : Bool :=
  !text.isEmpty &&
    threshold < (Scalar.ofNat (text.countP isNonPrintable) / Scalar.ofNat text.length : α)

/-!
## Tokens

Tokens. A token is an ASCII word, a decimal number with an optional fraction, or any other single
character that is not blank. Blanks separate tokens and belong to none.
-/

namespace Token

/-- What the characters read last are part of. -/
inductive Reading where
  /-- A blank or a symbol, which nothing continues. -/
  | closed
  | word
  | wholeNumber
  /-- A fraction, its point included. -/
  | fraction
deriving DecidableEq, Repr

/-- A letter or digit of ASCII, or the underscore. -/
def isWordPart (c : Char) : Bool :=
  isLetter c || ('0' ≤ c && c ≤ '9') || c == '_'

namespace Reading

/-- The reading that a token starts with. -/
def start (c : Char) : Reading :=
  if isLetter c || c == '_' then word else if isDigit c then wholeNumber else closed

/-- The reading after `c` if it continues the token, where `after` is the character behind it. -/
def extend (reading : Reading) (c : Char) (after : Option Char) : Option Reading :=
  match reading with
  | closed => none
  | word => if isWordPart c then some word else none
  | wholeNumber =>
    if isDigit c then some wholeNumber
    else if c == '.' && after.any isDigit then some fraction
    else none
  | fraction => if isDigit c then some fraction else none

end Reading

/-- The rest of the token being read, and the tokens behind it. -/
def split : Reading → List Char → List Char × List (List Char)
  | _, [] => ([], [])
  | reading, c :: rest =>
    match reading.extend c rest.head? with
    | some reading =>
      let (token, tokens) := split reading rest
      (c :: token, tokens)
    | none =>
      if isBlank c then
        ([], (split .closed rest).2)
      else
        let (token, tokens) := split (.start c) rest
        ([], (c :: token) :: tokens)

end Token

/-- The tokens of a text, in order. -/
def tokens (text : List Char) : List (List Char) :=
  (Token.split .closed text).2

/-- The number of tokens of a text. -/
def tokenCount (text : List Char) : Nat :=
  (tokens text).length

end LanguageDetection
