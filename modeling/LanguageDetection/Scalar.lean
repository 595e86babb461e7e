import LanguageDetection.Decimal

/-!
The numbers that scores, confidences and thresholds are made of. Everything that computes with
them is written once over a `Scalar`; binary floating point is what runs, and the rational numbers
give the same definitions an exact meaning.
-/

namespace LanguageDetection

/-- Numbers with arithmetic, an order that can be decided, and rounding. -/
class Scalar (α : Type) extends Add α, Sub α, Mul α, Div α, Neg α, LE α, LT α where
  /-- The scalar nearest to a rational number. -/
  ofRat : Rat → α
  /-- The nearest integer, halves away from zero, kept within 64 bits. -/
  round64 : α → Int
  /-- Comparison can be decided. -/
  decLe : (a b : α) → Decidable (a ≤ b)
  /-- Strict comparison can be decided. -/
  decLt : (a b : α) → Decidable (a < b)

namespace Scalar

instance {α : Type} [Scalar α] (a b : α) : Decidable (a ≤ b) := decLe a b

instance {α : Type} [Scalar α] (a b : α) : Decidable (a < b) := decLt a b

/-- The scalar of a natural number. -/
def ofNat {α : Type} [Scalar α] (n : Nat) : α := ofRat n

/-- The greater of two scalars. -/
def max {α : Type} [Scalar α] (a b : α) : α := if a < b then b else a

/-- The smaller of two scalars. -/
def min {α : Type} [Scalar α] (a b : α) : α := if b < a then b else a

/-- The scalar of the interval from `low` to `high` that is nearest to `a`. -/
def clamp {α : Type} [Scalar α] (low high a : α) : α :=
  if a < low then low else if high < a then high else a

end Scalar

/-- The nearest integer, halves away from zero. -/
def roundAwayFromZero (r : Rat) : Int :=
  if 0 ≤ r then (r + 1 / 2).floor else -(-r + 1 / 2).floor

/-- The least integer of 64 bits. -/
def leastInt64 : Int := -9223372036854775808

/-- The greatest integer of 64 bits. -/
def greatestInt64 : Int := 9223372036854775807

/-- The integer of 64 bits that is nearest to `n`. -/
def clampInt64 (n : Int) : Int :=
  if n < leastInt64 then leastInt64 else if greatestInt64 < n then greatestInt64 else n

instance : Scalar Rat where
  ofRat r := r
  round64 r := clampInt64 (roundAwayFromZero r)
  decLe := inferInstance
  decLt := inferInstance

/-- The nearest integer of 64 bits, halves away from zero: the last one on its side for infinity,
and zero for what is no number. -/
def Decimal.Binary.round64 : Decimal.Binary → Int
  | nan => 0
  | infinite negative => if negative then leastInt64 else greatestInt64
  | finite negative mantissa exponent =>
    clampInt64 (roundAwayFromZero (value negative mantissa exponent))

instance : Scalar Float where
  ofRat r := Float.ofInt r.num / Float.ofNat r.den
  round64 x := (Decimal.Binary.ofFloat x).round64
  decLe := inferInstance
  decLt := inferInstance

end LanguageDetection
