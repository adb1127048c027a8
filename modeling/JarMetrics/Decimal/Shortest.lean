import JarMetrics.Decimal.Binary

/-!
# The fewest digits that read back

Every real number in an interval around a double rounds to that double. `shortest` searches the
decimals of 1, 2, … 17 digits next to the value and takes the first number of digits for which one
of them lies in the interval; of two it takes the nearer, and the even one when both are equally
near.
-/

namespace JarMetrics.Decimal

/-- The decimal `digits * 10 ^ exponent`. -/
structure Digits where
  digits : Nat
  exponent : Int
  deriving Repr, DecidableEq

/-- The value of a decimal as a quotient. -/
def Digits.toRatio (d : Digits) : Ratio := .scaled d.digits 10 d.exponent

/-- Whether a decimal rounds to the given double, whose mantissa must not be 0. -/
def readsBack (b : Binary) (d : Digits) : Bool :=
  let low := Ratio.scaled (4 * b.mantissa - if b.narrowBelow then 1 else 2) 2 (b.exponent - 2)
  let high := Ratio.scaled (4 * b.mantissa + 2) 2 (b.exponent - 2)
  let inside (order : Ordering) : Bool :=
    order == .lt || (order == .eq && b.mantissa % 2 == 0)
  inside (low.compare d.toRatio) && inside (d.toRatio.compare high)

/-- The least `k` with `r < 10 ^ k`, searched upwards from `start` in at most `fuel` steps. -/
def scaleFrom (r : Ratio) (start : Int) : Nat → Int
  | 0 => start
  | fuel + 1 =>
      if r.compare (.scaled 1 10 start) == .lt then start else scaleFrom r (start + 1) fuel

/-- The least `k` with `r < 10 ^ k`, for positive `r`. The binary logarithm puts the start of the
search at most a few steps below. -/
def scale (r : Ratio) : Int :=
  scaleFrom r (((Nat.log2 r.num : Int) - Nat.log2 r.den - 1) * 30103 / 100000 - 1) 6

/-- The neighbour of the value on the grid `10 ^ place` that reads back, the nearer one if both
do. -/
def onGrid (b : Binary) (place : Int) : Option Digits :=
  let r := b.toRatio
  let grid := Ratio.scaled 1 10 place
  let below := r.num * grid.den / (r.den * grid.num)
  let lower : Digits := ⟨below, place⟩
  let upper : Digits := ⟨below + 1, place⟩
  match readsBack b lower, readsBack b upper with
  | true, false => some lower
  | false, true => some upper
  | false, false => none
  | true, true =>
      match (Ratio.mk (2 * r.num) r.den).compare (.scaled (2 * below + 1) 10 place) with
      | .lt => some lower
      | .gt => some upper
      | .eq => if below % 2 = 0 then some lower else some upper

/-- Move the trailing zeros of the digits into the exponent. -/
def Digits.strip (d : Digits) : Digits :=
  go d 20
where
  go (d : Digits) : Nat → Digits
    | 0 => d
    | fuel + 1 =>
        if d.digits ≠ 0 ∧ d.digits % 10 = 0 then go ⟨d.digits / 10, d.exponent + 1⟩ fuel else d

/-- The exact decimal of a double. -/
def exact (b : Binary) : Digits :=
  if 0 ≤ b.exponent then ⟨b.mantissa * Nat.pow 2 b.exponent.toNat, 0⟩
  else ⟨b.mantissa * Nat.pow 5 (-b.exponent).toNat, b.exponent⟩

/-- The shortest decimal that reads back as the given double. -/
def shortest (b : Binary) : Digits :=
  if b.mantissa = 0 then ⟨0, 0⟩
  else
    let top := scale b.toRatio
    match (List.range 17).findSome? fun (n : Nat) => onGrid b (top - (n + 1)) with
    | some found => found.strip
    | none => exact b

end JarMetrics.Decimal
