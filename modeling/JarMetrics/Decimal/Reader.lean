/-!
# Reading decimal text

Digits, an optional fraction and an optional exponent, rounded once to the nearest double.
-/

namespace JarMetrics.Decimal

/-- The value of a decimal digit. -/
def digitValue (c : Char) : Nat := c.toNat - '0'.toNat

/-- The number that a run of digits stands for. -/
def ofDigits (digits : List Char) : Nat :=
  digits.foldl (fun value c => value * 10 + digitValue c) 0

/-- The double nearest to `± digits * 10 ^ exponent`. Exponents far outside the range of doubles
give zero and infinity at once. -/
def toFloat (negative : Bool) (digits : Nat) (exponent : Int) : Float :=
  let length : Int := (Nat.toDigits 10 digits).length
  let magnitude : Float :=
    if digits = 0 ∨ exponent + length < -400 then 0.0
    else if 400 < exponent + length then 1.0 / 0.0
    else if 0 ≤ exponent then Float.ofScientific digits false exponent.toNat
    else Float.ofScientific digits true (-exponent).toNat
  if negative then -magnitude else magnitude

/-- The parts of a number in decimal text. -/
structure Literal where
  negative : Bool
  whole : List Char
  /-- Present when there is a point. -/
  fraction : Option (List Char)
  /-- Present when there is an exponent. -/
  exponent : Option Int
  deriving Repr, DecidableEq

/-- Whether a literal has neither a point nor an exponent. -/
def Literal.isInteger (l : Literal) : Bool := l.fraction.isNone && l.exponent.isNone

/-- The double nearest to a literal. -/
def Literal.toFloat (l : Literal) : Float :=
  let fraction := l.fraction.getD []
  Decimal.toFloat l.negative (ofDigits (l.whole ++ fraction))
    (l.exponent.getD 0 - fraction.length)

/-- The integer of a literal without point and exponent. -/
def Literal.toInt (l : Literal) : Int :=
  if l.negative then -(ofDigits l.whole : Int) else ofDigits l.whole

end JarMetrics.Decimal
