/-!
# Decimals

Floating-point numbers and their texts.  A number has an exact value (`Binary`), the shortest
decimal that reads back as the number (`Scientific`), and a text that is laid out from that decimal
(`Layout`); decimal literals are read into floating-point numbers (`Literal`).
-/

namespace LanguageDetection.Decimal

/-!
## Exact values

The exact value of a floating point number: a sign, a natural number and a power of two.
-/

/-- What a floating point number stands for. A finite one is its mantissa times two to the
exponent. -/
inductive Binary where
  | nan
  | infinite (negative : Bool)
  | finite (negative : Bool) (mantissa : Nat) (exponent : Int)
deriving DecidableEq, Repr

namespace Binary

/-- Reads the sign bit, the eleven bits of the exponent and the 52 bits of the fraction. -/
def ofBits (bits : Nat) : Binary :=
  let negative := bits / Nat.pow 2 63 % 2 == 1
  let exponent : Nat := bits / Nat.pow 2 52 % Nat.pow 2 11
  let fraction : Nat := bits % Nat.pow 2 52
  if exponent = 2047 then if fraction = 0 then infinite negative else nan
  else if exponent = 0 then finite negative fraction (-1074)
  else finite negative (Nat.pow 2 52 + fraction) ((exponent : Int) - 1075)

/-- The exact value of a floating point number. -/
def ofFloat (x : Float) : Binary :=
  ofBits x.toBits.toNat

end Binary

/-- A power of the base as a quotient of natural numbers. -/
def powerOf (base : Nat) (exponent : Int) : Nat × Nat :=
  if 0 ≤ exponent then (Nat.pow base exponent.toNat, 1) else (1, Nat.pow base (-exponent).toNat)

/-- Two to the exponent as a quotient of natural numbers. -/
def powerOfTwo (exponent : Int) : Nat × Nat :=
  powerOf 2 exponent

/-- The number that a sign, a mantissa and an exponent stand for. -/
def Binary.value (negative : Bool) (mantissa : Nat) (exponent : Int) : Rat :=
  let (up, down) := powerOfTwo exponent
  let numerator : Int := (mantissa * up : Nat)
  mkRat (if negative then -numerator else numerator) down

/-- The integer nearest to a quotient; a half goes to the even neighbour. -/
def roundHalfEven (numerator denominator : Nat) : Nat :=
  let quotient := numerator / denominator
  let remainder := numerator % denominator
  if denominator < 2 * remainder then quotient + 1
  else if 2 * remainder < denominator then quotient
  else if quotient % 2 = 0 then quotient else quotient + 1

/-!
## Shortest decimals

The shortest decimal that reads back as a given floating point number, and of the shortest ones the
nearest. All arithmetic is exact: a number and the interval of the reals that round to it are
fractions of natural numbers with one common denominator.
-/

/-- The coefficient times ten to the exponent. -/
structure Scientific where
  coefficient : Nat
  exponent : Int
deriving DecidableEq, Repr

/-- The same decimal where a carry from nine to ten has left a zero at its end. -/
def Scientific.dropZero (decimal : Scientific) : Scientific :=
  if decimal.coefficient % 10 = 0 then
    { coefficient := decimal.coefficient / 10, exponent := decimal.exponent + 1 }
  else decimal

/-- A positive number with the interval of the reals that round to it. -/
structure Interval where
  low : Nat
  value : Nat
  high : Nat
  denominator : Nat
  /-- Whether the ends of the interval round to the number too. -/
  closed : Bool

namespace Interval

/-- The interval of the mantissa times two to the exponent. Below a power of two the neighbours
are twice as close as above. -/
def ofBinary (mantissa : Nat) (exponent : Int) : Interval :=
  let (scale, denominator) := powerOfTwo (exponent - 2)
  let below := if mantissa = Nat.pow 2 52 && -1074 < exponent then 1 else 2
  { low := (4 * mantissa - below) * scale
    value := 4 * mantissa * scale
    high := (4 * mantissa + 2) * scale
    denominator
    closed := mantissa % 2 = 0 }

/-- Whether a fraction rounds to the number. -/
def contains (interval : Interval) (numerator denominator : Nat) : Bool :=
  let point := numerator * interval.denominator
  if interval.closed then
    interval.low * denominator ≤ point && point ≤ interval.high * denominator
  else
    interval.low * denominator < point && point < interval.high * denominator

end Interval

/-- The least of `fuel` successive exponents `e` from `guess` on with `numerator / denominator`
below ten to the `e`. -/
def magnitudeFrom (numerator denominator : Nat) : (fuel : Nat) → (guess : Int) → Int
  | 0, guess => guess
  | fuel + 1, guess =>
    let (up, down) := powerOf 10 guess
    if numerator * down < denominator * up then guess
    else magnitudeFrom numerator denominator fuel (guess + 1)

/-- The exponent `e` with the quotient below ten to the `e`, and not below a tenth of that. The
binary logarithm gives a guess that is not above and at most three below. -/
def magnitude (numerator denominator : Nat) : Int :=
  let log := (Nat.log2 numerator : Int) - Nat.log2 denominator - 1
  magnitudeFrom numerator denominator 5 (Int.fdiv (log * 30103) 100000)

/-- Which of two neighbours a number just between them goes to. -/
inductive Tie where
  | even
  | up
deriving DecidableEq, Repr

/-- The point of the grid of multiples of ten to the exponent that rounds to the number, if one of
the two neighbours of the number on the grid does; of both the nearer. -/
def onGrid (tie : Tie) (interval : Interval) (exponent : Int) : Option Scientific :=
  let (up, down) := powerOf 10 exponent
  let below := interval.value * down / (interval.denominator * up)
  let fits (coefficient : Nat) := interval.contains (coefficient * up) down
  let middle := (2 * below + 1) * (interval.denominator * up)
  let isNearerAbove :=
    middle < 2 * (interval.value * down) ||
      (middle = 2 * (interval.value * down) && (tie = .up || below % 2 = 1))
  if below != 0 && fits below && !(fits (below + 1) && isNearerAbove) then
    some { coefficient := below, exponent }
  else if fits (below + 1) then some { coefficient := below + 1, exponent }
  else none

/-- The first grid with a hit, from the grid with this number of digits on. -/
def firstGrid (tie : Tie) (interval : Interval) (magnitude : Int) :
    (fuel digits : Nat) → Scientific
  | 0, _ => { coefficient := 0, exponent := 0 }
  | fuel + 1, digits =>
    (onGrid tie interval (magnitude - digits)).getD
      (firstGrid tie interval magnitude fuel (digits + 1))

/-- The shortest decimal that reads back as a positive number given by mantissa and exponent;
seventeen digits always do. -/
def shortest (tie : Tie) (mantissa : Nat) (exponent : Int) : Scientific :=
  let interval := Interval.ofBinary mantissa exponent
  (firstGrid tie interval (magnitude interval.value interval.denominator) 17 1).dropZero

/-!
## Number texts

Number texts. A layout says how the digits of a shortest decimal are written; a number may also be
written with a fixed number of decimal places.
-/

/-- How numbers are written. -/
structure Layout where
  /-- Which of two shortest texts that are equally near is taken. -/
  tie : Tie
  /-- The powers of ten of the first digit that are written without an exponent, from the first to
  below the second; all of them if absent. -/
  positionalPowers : Option (Int × Int)
  /-- Whether whole numbers have a fraction too. -/
  wholeFraction : Bool
  /-- The text of what is not a number. -/
  nan : String
  /-- The text of infinity. -/
  infinity : String
  /-- The text of negative infinity. -/
  negativeInfinity : String

namespace Layout

/-- Numbers of a JSON document: always with a fraction or an exponent, and `null` for what is not
finite. -/
def json : Layout :=
  { tie := .even, positionalPowers := some (-5, 16), wholeFraction := true, nan := "null",
    infinity := "null", negativeInfinity := "null" }

/-- Numbers in messages: never an exponent, and no fraction in whole numbers. -/
def plain : Layout :=
  { tie := .up, positionalPowers := none, wholeFraction := false, nan := "NaN", infinity := "inf",
    negativeInfinity := "-inf" }

end Layout

/-- The digits of a natural number in base ten. -/
def digits (n : Nat) : List Char :=
  Nat.toDigits 10 n

/-- The decimal without an exponent, with a point if there is a fraction or one is asked for. -/
def positional (wholeFraction : Bool) (decimal : Scientific) : List Char :=
  let whole := if wholeFraction then ['.', '0'] else []
  if 0 ≤ decimal.exponent then
    digits (decimal.coefficient * Nat.pow 10 decimal.exponent.toNat) ++ whole
  else
    let places := (-decimal.exponent).toNat
    let ds := digits decimal.coefficient
    let padded := List.replicate (places + 1 - ds.length) '0' ++ ds
    padded.take (padded.length - places) ++ '.' :: padded.drop (padded.length - places)

/-- The decimal with one digit before the point and an exponent, whose sign is always written. -/
def scientific (decimal : Scientific) : List Char :=
  let ds := digits decimal.coefficient
  let exponent := decimal.exponent + (ds.length - 1 : Nat)
  let fraction := if ds.length ≤ 1 then [] else '.' :: ds.drop 1
  ds.take 1 ++ fraction ++ 'e' :: (if exponent < 0 then '-' else '+') :: digits exponent.natAbs

/-- The decimal in a layout. -/
def Layout.write (layout : Layout) (decimal : Scientific) : List Char :=
  let first := decimal.exponent + (digits decimal.coefficient).length - 1
  let isPositional :=
    layout.positionalPowers.all fun (least, below) => least ≤ first && first < below
  if isPositional then positional layout.wholeFraction decimal else scientific decimal

/-- The text with a minus sign in front of it if the number is negative. -/
def signed (negative : Bool) (text : List Char) : String :=
  String.ofList (if negative then '-' :: text else text)

/-- The shortest text in a layout that reads back as the number. -/
def Layout.text (layout : Layout) (x : Float) : String :=
  match Binary.ofFloat x with
  | .nan => layout.nan
  | .infinite negative => if negative then layout.negativeInfinity else layout.infinity
  | .finite negative mantissa exponent =>
    signed negative <|
      if mantissa = 0 then positional layout.wholeFraction { coefficient := 0, exponent := 0 }
      else layout.write (shortest layout.tie mantissa exponent)

/-- A positive number rounded to decimal places, halves to the even neighbour. -/
def fixedDigits (places mantissa : Nat) (exponent : Int) : List Char :=
  let (scale, denominator) := powerOfTwo exponent
  let coefficient := roundHalfEven (mantissa * scale * Nat.pow 10 places) denominator
  positional false { coefficient, exponent := -places }

/-- The number with a fixed number of decimal places. -/
def fixed (places : Nat) (x : Float) : String :=
  match Binary.ofFloat x with
  | .nan => "NaN"
  | .infinite negative => if negative then "-inf" else "inf"
  | .finite negative mantissa exponent => signed negative (fixedDigits places mantissa exponent)

/-!
## Literals

Reading decimal literals: an optional sign, digits, and optionally a fraction and an exponent.
-/

/-- The value of a list of decimal digits. -/
def digitsValue (digits : List Char) : Nat :=
  digits.foldl (fun n c => 10 * n + (c.toNat - '0'.toNat)) 0

/-- A decimal literal: its sign, the digits of its whole part, and the digits of its fraction and
its exponent, each if there is one. -/
structure Literal where
  negative : Bool
  whole : List Char
  fraction : Option (List Char)
  exponent : Option (Bool × List Char)

namespace Literal

/-- An optional sign, which says whether the number is negative, and the text behind it. -/
def readSign : List Char → Bool × List Char
  | '-' :: rest => (true, rest)
  | '+' :: rest => (false, rest)
  | text => (false, text)

/-- The digits of an optional fraction, and the text behind it. -/
def readFraction : List Char → Option (List Char) × List Char
  | '.' :: rest => (some (rest.takeWhile Char.isDigit), rest.dropWhile Char.isDigit)
  | text => (none, text)

/-- The sign and the digits of an optional exponent, and the text behind it. -/
def readExponent : List Char → Option (Bool × List Char) × List Char
  | e :: rest =>
    if e = 'e' || e = 'E' then
      let (negative, rest) := readSign rest
      (some (negative, rest.takeWhile Char.isDigit), rest.dropWhile Char.isDigit)
    else (none, e :: rest)
  | [] => (none, [])

/-- The literal that the text begins with, and the text behind it. A part that has no digits where
some must be is refused. -/
def readPrefix (text : List Char) : Option (Literal × List Char) :=
  let (negative, text) := readSign text
  let whole := text.takeWhile Char.isDigit
  let (fraction, text) := readFraction (text.dropWhile Char.isDigit)
  let (exponent, text) := readExponent text
  if whole.isEmpty || fraction == some [] || exponent.any (·.2.isEmpty) then none
  else some ({ negative, whole, fraction, exponent }, text)

/-- The literal that is the whole text. -/
def read? (text : List Char) : Option Literal :=
  match readPrefix text with
  | some (literal, []) => some literal
  | _ => none

/-- Whether the whole part has a zero in front of other digits. -/
def hasLeadingZero (literal : Literal) : Bool :=
  literal.whole.head? = some '0' && literal.whole.length != 1

/-- Whether the literal is a whole number by its form. -/
def isWhole (literal : Literal) : Bool :=
  literal.fraction.isNone && literal.exponent.isNone

/-- The digits of the literal as one number. -/
def coefficient (literal : Literal) : Nat :=
  digitsValue (literal.whole ++ literal.fraction.getD [])

/-- The power of ten of the last digit. -/
def power (literal : Literal) : Int :=
  let written : Int := match literal.exponent with
    | some (true, digits) => -(digitsValue digits : Int)
    | some (false, digits) => digitsValue digits
    | none => 0
  written - (literal.fraction.getD []).length

/-- The floating point number nearest to the literal. Beyond 400 powers of ten every number is zero
or infinite, so larger exponents need not be worked out. -/
def toFloat (literal : Literal) : Float :=
  let coefficient := literal.coefficient
  let first := literal.power + (Nat.toDigits 10 coefficient).length
  let magnitude : Float :=
    if coefficient = 0 || first < -400 then 0
    else if 400 < first then 1 / 0
    else if 0 ≤ literal.power then Float.ofScientific coefficient false literal.power.toNat
    else Float.ofScientific coefficient true (-literal.power).toNat
  if literal.negative then -magnitude else magnitude

/-- The integer of a literal in whole number form. -/
def toInt (literal : Literal) : Int :=
  let value : Int := digitsValue literal.whole
  if literal.negative then -value else value

end Literal

end LanguageDetection.Decimal
