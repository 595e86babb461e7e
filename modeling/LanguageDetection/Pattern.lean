import LanguageDetection.Characters

/-!
# Patterns

Patterns are regular expressions over characters with anchors, word boundaries and ordered choice.
The order of the alternatives matters: an earlier alternative is preferred to a later one, and a
repetition prefers either one more round or to stop.
-/

namespace LanguageDetection

open Characters

/-- One constituent of a character class. -/
inductive ClassItem where
  | range (first last : Char)
  | word
  | digit
  | blank
  | notWord
  | notDigit
  | notBlank
deriving DecidableEq, Repr

/-- Whether the character belongs to the constituent. -/
def ClassItem.holds : ClassItem → Char → Bool
  | range first last, c => first ≤ c && c ≤ last
  | word, c => isWord c
  | digit, c => isDigit c
  | blank, c => isBlank c
  | notWord, c => !isWord c
  | notDigit, c => !isDigit c
  | notBlank, c => !isBlank c

/-- A character class: the union of its items, or the complement of that union. -/
structure CharClass where
  items : List ClassItem
  negated : Bool := false
deriving DecidableEq, Repr

namespace CharClass

/-- The class of one character. -/
def single (c : Char) : CharClass :=
  { items := [.range c c] }

/-- Whether the character is in the class. -/
def holds (cls : CharClass) (c : Char) : Bool :=
  cls.items.any (·.holds c) != cls.negated

end CharClass

/-- A condition on a position of a text, between the character before it and the one after. -/
inductive Anchor where
  | textStart
  | textEnd
  | lineStart
  | lineEnd
  | wordBoundary
  | notWordBoundary
deriving DecidableEq, Repr

/-- Whether there is a word character at this side of a position. -/
def isWordAt : Option Char → Bool
  | none => false
  | some c => isWord c

/-- Whether the condition holds between `before` and `after`, absent at the ends of the text. -/
def Anchor.holds (before after : Option Char) : Anchor → Bool
  | textStart => before.isNone
  | textEnd => after.isNone
  | lineStart => before.isNone || before == some '\n'
  | lineEnd => after.isNone || after == some '\n'
  | wordBoundary => isWordAt before != isWordAt after
  | notWordBoundary => isWordAt before == isWordAt after

/-- Regular expressions with ordered choice. -/
inductive Pattern where
  /-- Matches the empty text. -/
  | empty
  /-- Matches one character of the class. -/
  | one (cls : CharClass)
  /-- Matches the empty text where the condition holds. -/
  | anchor (condition : Anchor)
  /-- Matches one pattern and then the other. -/
  | seq (first second : Pattern)
  /-- Matches either pattern and prefers the first. -/
  | alt (first second : Pattern)
  /-- Matches the pattern any number of times; a greedy repetition prefers more rounds. -/
  | star (greedy : Bool) (body : Pattern)
deriving DecidableEq, Repr

namespace Pattern

/-- The pattern of one character. -/
def char (c : Char) : Pattern := one (.single c)

/-- All patterns of the list, one after another. -/
def concat : List Pattern → Pattern
  | [] => empty
  | [p] => p
  | p :: rest => seq p (concat rest)

/-- Any of the pattern and the patterns of the list, earlier ones preferred. -/
def choice (p : Pattern) : List Pattern → Pattern
  | [] => p
  | q :: rest => alt p (choice q rest)

/-- The text itself. -/
def literal (text : List Char) : Pattern :=
  concat (text.map char)

/-- The pattern or nothing; a greedy option prefers the pattern. -/
def optional (greedy : Bool) (p : Pattern) : Pattern :=
  if greedy then alt p empty else alt empty p

/-- At most `n` rounds of the pattern. -/
def upTo (greedy : Bool) (p : Pattern) : Nat → Pattern
  | 0 => empty
  | 1 => optional greedy p
  | n + 1 => optional greedy (seq p (upTo greedy p n))

/-- At least `least` rounds, and at most `most` if a bound is given. -/
def rounds (greedy : Bool) (p : Pattern) (least : Nat) : Option Nat → Pattern
  | none => concat (List.replicate least p ++ [star greedy p])
  | some most =>
    if most ≤ least then concat (List.replicate least p)
    else concat (List.replicate least p ++ [upTo greedy p (most - least)])

/-- The word by itself: a boundary is asked for at each end that is a word character. -/
def wholeWord (word : List Char) : Pattern :=
  let boundaryAt (end? : Option Char) := if isWordAt end? then [anchor .wordBoundary] else []
  concat (boundaryAt word.head? ++ word.map char ++ boundaryAt word.getLast?)

/-!
## Searching

Searching a text for a pattern. The step of a pattern at a position lists, in order of
preference, what may come next: the match is complete, or the next character is consumed and a
residual pattern remains. A search carries the residual patterns of all matches still possible in
order of preference, so a text is passed once and never searched backwards. The match found is the
one that starts first and, among those, the preferred one; `count` takes matches one after another
without overlap.
-/

/-- One way a match can go on at a position. -/
inductive Branch where
  /-- The match is complete. -/
  | done
  /-- The next character is consumed, and the pattern remains. -/
  | consume (rest : Pattern)
deriving DecidableEq, Repr

/-- The residual pattern followed by another. -/
def andThen : Pattern → Pattern → Pattern
  | empty, q => q
  | p, q => seq p q

/-- The branches of a pattern between `before` and `after`, the preferred ones first. A round of a
repetition consumes at least one character. -/
def branches (before after : Option Char) : Pattern → List Branch
  | empty => [.done]
  | one cls =>
    match after with
    | none => []
    | some c => if cls.holds c then [.consume empty] else []
  | anchor condition => if condition.holds before after then [.done] else []
  | seq p q =>
    (branches before after p).flatMap fun
      | .done => branches before after q
      | .consume rest => [.consume (rest.andThen q)]
  | alt p q => branches before after p ++ branches before after q
  | star greedy p =>
    let more := (branches before after p).filterMap fun
      | .done => none
      | .consume rest => some (.consume (rest.andThen (star greedy p)))
    if greedy then more ++ [.done] else .done :: more

/-- Adds a pattern behind those already there, unless it is one of them. -/
def enlist (threads : List Pattern) (p : Pattern) : List Pattern :=
  if p ∈ threads then threads else threads ++ [p]

/-- The residual patterns that branches leave, up to the first complete match, and whether there
is one: what comes after a complete match is less preferred. -/
def advanceBranches : List Branch → List Pattern → List Pattern × Bool
  | [], threads => (threads, false)
  | .done :: _, threads => (threads, true)
  | .consume p :: rest, threads => advanceBranches rest (enlist threads p)

/-- One step of all threads between `before` and `after`. -/
def advance (before after : Option Char) : List Pattern → List Pattern → List Pattern × Bool
  | [], next => (next, false)
  | p :: rest, next =>
    match advanceBranches (branches before after p) next with
    | (next, true) => (next, true)
    | (next, false) => advance before after rest next

/-- Where the preferred match ends, counted from the position reached at `offset`. While none is
found a new match may start at each position, less preferred than all earlier ones. -/
def run (p : Pattern) :
    List Pattern → (offset : Nat) → (found : Option Nat) → Option Char → List Char → Option Nat
  | threads, offset, found, before, text =>
    let started := if found.isNone then threads ++ [p] else threads
    let (next, complete) := advance before text.head? started []
    let found := if complete then some offset else found
    match text with
    | [] => found
    | c :: rest =>
      if found.isSome && next.isEmpty then found
      else run p next (offset + 1) found (some c) rest

/-- The number of characters up to the end of the leftmost match. -/
def search (p : Pattern) (before : Option Char) (text : List Char) : Option Nat :=
  run p [] 0 none before text

/-- The number of matches from a position on, added to `total`. The first `skip` characters belong
to the last match; `fresh` says that no match has just ended here, so that an empty one counts. -/
def countFrom (p : Pattern) :
    (skip : Nat) → (fresh : Bool) → Option Char → List Char → (total : Nat) → Nat
  | skip + 1, _, _, c :: rest, total => countFrom p skip false (some c) rest total
  | _ + 1, _, _, [], total => total
  | 0, fresh, before, text, total =>
    match search p before text with
    | none => total
    | some length =>
      let total := if length = 0 && !fresh then total else total + 1
      match text with
      | [] => total
      | c :: rest => countFrom p (length - 1) (length = 0) (some c) rest total

/-- The number of matches in a text, taken from the left without overlap. -/
def count (p : Pattern) (text : List Char) : Nat :=
  countFrom p 0 true none text 0

end Pattern

/-!
## The written form

The written form of patterns. `Pattern.read` reads literals, classes, groups, alternatives,
repetitions and anchors. Options may stand at the start of the pattern: `(?i)` ignores case, `(?m)`
lets `^` and `$` look at lines, and `(?s)` lets the dot match a line feed.
-/

/-- Why a text is not the written form of a pattern. -/
inductive PatternError where
  | unclosedGroup
  | unopenedGroup
  | unclosedClass
  | emptyClass
  | reversedRange (first last : Char)
  | nothingToRepeat
  | malformedBounds
  | unknownEscape (c : Char)
  | unfinishedEscape
  | unknownOption
  | caselessBeyondAscii (c : Char)
deriving DecidableEq, Repr

/-- The options that a pattern is read under. -/
structure PatternOptions where
  caseless : Bool := false
  multiLine : Bool := false
  dotAll : Bool := false
deriving DecidableEq, Repr

namespace PatternOptions

/-- The options named by the letters up to the closing parenthesis, and the text behind it. -/
def readLetters (options : PatternOptions) :
    List Char → Except PatternError (PatternOptions × List Char)
  | 'i' :: rest => readLetters { options with caseless := true } rest
  | 'm' :: rest => readLetters { options with multiLine := true } rest
  | 's' :: rest => readLetters { options with dotAll := true } rest
  | ')' :: rest => .ok (options, rest)
  | _ => .error .unknownOption

/-- The options at the start of a written pattern, and the rest of it. -/
def read : List Char → Except PatternError (PatternOptions × List Char)
  | '(' :: '?' :: ':' :: rest => .ok ({}, '(' :: '?' :: ':' :: rest)
  | '(' :: '?' :: rest => readLetters {} rest
  | text => .ok ({}, text)

end PatternOptions

namespace ClassItem

/-- The characters beyond ASCII that differ from an ASCII letter in case only: the long s and the
Kelvin sign. -/
def caseVariants (c : Char) : List Char :=
  if c = 's' then ['S', 'ſ']
  else if c = 'k' then ['K', '\u212A']
  else [c.toUpper]

/-- The lower case ASCII letters. -/
def letters : List Char := "abcdefghijklmnopqrstuvwxyz".toList

/-- The items of a range whose case does not matter. -/
def caseless (first last : Char) : List ClassItem :=
  let within (c : Char) := first ≤ c && c ≤ last
  let partners := letters.flatMap fun c =>
    if (c :: caseVariants c).any within then c :: caseVariants c else []
  range first last :: partners.map fun c => range c c

/-- A range as one item, or as several where case does not matter. -/
def ofRange (options : PatternOptions) (first last : Char) : Except PatternError (List ClassItem) :=
  if last < first then .error (.reversedRange first last)
  else if !options.caseless then .ok [range first last]
  else if last.toNat < 128 then .ok (caseless first last)
  else .error (.caselessBeyondAscii last)

end ClassItem

namespace Pattern

/-- What an escaped character stands for inside and outside a class. -/
inductive Escaped where
  | item (item : ClassItem)
  | char (c : Char)
  | anchor (condition : Anchor)

/-- The meaning of a backslash and the character behind it. -/
def Escaped.of : Char → Except PatternError Escaped
  | 'w' => .ok (.item .word)
  | 'W' => .ok (.item .notWord)
  | 'd' => .ok (.item .digit)
  | 'D' => .ok (.item .notDigit)
  | 's' => .ok (.item .blank)
  | 'S' => .ok (.item .notBlank)
  | 'n' => .ok (.char '\n')
  | 'r' => .ok (.char '\r')
  | 't' => .ok (.char '\t')
  | 'A' => .ok (.anchor .textStart)
  | 'z' => .ok (.anchor .textEnd)
  | 'b' => .ok (.anchor .wordBoundary)
  | 'B' => .ok (.anchor .notWordBoundary)
  | c => if c.toNat < 128 && !c.isAlphanum then .ok (.char c) else .error (.unknownEscape c)

/-- A class member that is a single character, and the rest of the text. -/
def readMember : List Char → Except PatternError (Escaped × List Char)
  | [] => .error .unclosedClass
  | ['\\'] => .error .unfinishedEscape
  | '\\' :: c :: rest => do
    match ← Escaped.of c with
    | .anchor _ => .error (.unknownEscape c)
    | member => .ok (member, rest)
  | c :: rest => .ok (.char c, rest)

/-- The items of a class up to its closing bracket, and the text behind it. -/
def readItems (options : PatternOptions) :
    (fuel : Nat) → (items : List ClassItem) → List Char →
      Except PatternError (List ClassItem × List Char)
  | 0, _, _ => .error .unclosedClass
  | fuel + 1, items, text => do
    match text with
    | [] => .error .unclosedClass
    | ']' :: rest => if items.isEmpty then .error .emptyClass else .ok (items, rest)
    | text =>
      match ← readMember text with
      | (.item item, rest) => readItems options fuel (items ++ [item]) rest
      | (.char first, '-' :: rest) =>
        if rest.head? = some ']' then
          readItems options fuel (items ++ (← ClassItem.ofRange options first first)) ('-' :: rest)
        else
          match ← readMember rest with
          | (.char last, rest) =>
            readItems options fuel (items ++ (← ClassItem.ofRange options first last)) rest
          | _ => .error .malformedBounds
      | (.char c, rest) =>
        readItems options fuel (items ++ (← ClassItem.ofRange options c c)) rest
      | (.anchor _, _) => .error .unclosedClass

/-- A class behind its opening bracket, and the text behind it. -/
def readClass (options : PatternOptions) (text : List Char) :
    Except PatternError (Pattern × List Char) := do
  let (negated, text) := match text with
    | '^' :: rest => (true, rest)
    | text => (false, text)
  let (items, rest) ← readItems options (text.length + 1) [] text
  return (one { items, negated }, rest)

/-- A pattern that is not a group: a class, an escape, an anchor, the dot or a character. -/
def readSimple (options : PatternOptions) : List Char → Except PatternError (Pattern × List Char)
  | [] => .error .nothingToRepeat
  | '[' :: rest => readClass options rest
  | '.' :: rest =>
    let excluded := if options.dotAll then [] else [.range '\n' '\n']
    .ok (one { items := excluded, negated := true }, rest)
  | '^' :: rest => .ok (anchor (if options.multiLine then .lineStart else .textStart), rest)
  | '$' :: rest => .ok (anchor (if options.multiLine then .lineEnd else .textEnd), rest)
  | ['\\'] => .error .unfinishedEscape
  | '\\' :: c :: rest => do
    match ← Escaped.of c with
    | .item item => .ok (one { items := [item] }, rest)
    | .char c => .ok (one { items := ← ClassItem.ofRange options c c }, rest)
    | .anchor condition => .ok (anchor condition, rest)
  | c :: rest => do .ok (one { items := ← ClassItem.ofRange options c c }, rest)

/-- The number at the start of the text, if there is a digit, and the rest. -/
def readNumber (text : List Char) : Option Nat × List Char :=
  let digits := text.takeWhile Char.isDigit
  let number := digits.foldl (fun n c => 10 * n + (c.toNat - '0'.toNat)) 0
  (if digits.isEmpty then none else some number, text.dropWhile Char.isDigit)

/-- The bounds of a counted repetition behind its opening brace. -/
def readBounds (text : List Char) : Except PatternError ((Nat × Option Nat) × List Char) :=
  match readNumber text with
  | (some least, '}' :: rest) => .ok ((least, some least), rest)
  | (some least, ',' :: rest) =>
    match readNumber rest with
    | (most, '}' :: rest) => .ok ((least, most), rest)
    | _ => .error .malformedBounds
  | _ => .error .malformedBounds

/-- Whether a repetition sign is followed by the question mark that makes it lazy. -/
def readGreed : List Char → Bool × List Char
  | '?' :: rest => (false, rest)
  | text => (true, text)

/-- The pattern with the repetition that follows it, if any. -/
def readRepetition (p : Pattern) : List Char → Except PatternError (Pattern × List Char)
  | '*' :: rest => let (greedy, rest) := readGreed rest; .ok (star greedy p, rest)
  | '+' :: rest => let (greedy, rest) := readGreed rest; .ok (seq p (star greedy p), rest)
  | '?' :: rest => let (greedy, rest) := readGreed rest; .ok (optional greedy p, rest)
  | '{' :: rest => do
    let ((least, most), rest) ← readBounds rest
    let (greedy, rest) := readGreed rest
    return (rounds greedy p least most, rest)
  | text => .ok (p, text)

/-- The alternatives up to the end of the text or of the group. `read` holds the alternatives
already read and `current` the parts of the one being read, both last first. -/
def readAlternatives (options : PatternOptions) :
    (fuel : Nat) → (read current : List Pattern) → List Char →
      Except PatternError (Pattern × List Char)
  | 0, _, _, _ => .error .unclosedGroup
  | fuel + 1, read, current, text => do
    let finished := concat current.reverse
    let all := match (finished :: read).reverse with
      | [] => empty
      | p :: rest => choice p rest
    match text with
    | [] => .ok (all, [])
    | ')' :: rest => .ok (all, ')' :: rest)
    | '|' :: rest => readAlternatives options fuel (finished :: read) [] rest
    | '(' :: rest =>
      let inner := match rest with
        | '?' :: ':' :: inner => inner
        | inner => inner
      match ← readAlternatives options fuel [] [] inner with
      | (p, ')' :: rest) =>
        let (p, rest) ← readRepetition p rest
        readAlternatives options fuel read (p :: current) rest
      | _ => .error .unclosedGroup
    | c :: rest =>
      if c = '*' || c = '+' || c = '?' || c = '{' then .error .nothingToRepeat
      else
        let (p, rest) ← readSimple options (c :: rest)
        let (p, rest) ← readRepetition p rest
        readAlternatives options fuel read (p :: current) rest

/-- The pattern that a text is the written form of. -/
def read (text : List Char) : Except PatternError Pattern := do
  let (options, text) ← PatternOptions.read text
  match ← readAlternatives options (text.length + 1) [] [] text with
  | (p, []) => .ok p
  | (_, _) => .error .unopenedGroup

end Pattern

end LanguageDetection
