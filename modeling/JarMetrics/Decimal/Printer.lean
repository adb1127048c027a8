import JarMetrics.Decimal.Shortest

/-!
# Writing numbers

Two ways to write a double: with the fewest digits, in a `Style` that says where exponents begin,
and with a fixed number of places, rounded from the exact value with ties to the even digit.
-/

namespace JarMetrics.Decimal

/-- How numbers are written with the fewest digits. -/
structure Style where
  /-- The least decimal exponent of the first digit that is still written positionally. -/
  least : Int
  /-- The first decimal exponent that is no longer written positionally. -/
  limit : Int
  /-- The least number of digits of the exponent. -/
  exponentWidth : Nat
  notANumber : String := "NaN"
  infinity : String := "+Inf"
  negativeInfinity : String := "-Inf"
  deriving Repr, DecidableEq

/-- `text` with zeros in front up to `width` characters. -/
def zeroPad (width : Nat) (text : String) : String :=
  String.ofList (List.replicate (width - text.length) '0') ++ text

/-- Digits with the point after the `whole`-th of them. -/
def placePoint (digits : List Char) (whole : Nat) : String :=
  if digits.length ≤ whole then
    String.ofList (digits ++ List.replicate (whole - digits.length) '0')
  else
    String.ofList (digits.take whole) ++ "." ++ String.ofList (digits.drop whole)

/-- Write a decimal without an exponent. -/
def positional (digits : List Char) (point : Int) : String :=
  if 0 < point then placePoint digits point.toNat
  else "0." ++ String.ofList (List.replicate (-point).toNat '0' ++ digits)

/-- Write a decimal with one digit before the point and an exponent. -/
def scientific (style : Style) (digits : List Char) (exponent : Int) : String :=
  placePoint digits 1 ++ "e" ++ (if exponent < 0 then "-" else "+") ++
    zeroPad style.exponentWidth (toString exponent.natAbs)

/-- Write a non-negative decimal. -/
def Digits.render (style : Style) (d : Digits) : String :=
  if d.digits = 0 then "0"
  else
    let digits := Nat.toDigits 10 d.digits
    let point := d.exponent + digits.length
    if style.least ≤ point - 1 ∧ point - 1 < style.limit then positional digits point
    else scientific style digits (point - 1)

/-- Write a double with the fewest digits. -/
def render (style : Style) (x : Float) : String :=
  match Value.ofFloat x with
  | .notANumber => style.notANumber
  | .infinite false => style.infinity
  | .infinite true => style.negativeInfinity
  | .finite negative b => (if negative then "-" else "") ++ (shortest b).render style

/-- The quotient rounded to the nearest integer, ties to the even one. -/
def roundHalfEven (num den : Nat) : Nat :=
  let down := num / den
  match Ord.compare (2 * (num % den)) den with
  | .lt => down
  | .gt => down + 1
  | .eq => if down % 2 = 0 then down else down + 1

/-- Write a double with exactly `places` digits after the point. -/
def fixed (places : Nat) (x : Float) : String :=
  match Value.ofFloat x with
  | .notANumber => "NaN"
  | .infinite false => "+Inf"
  | .infinite true => "-Inf"
  | .finite negative b =>
      let r := b.toRatio
      let units := roundHalfEven (r.num * Nat.pow 10 places) r.den
      let whole := toString (units / Nat.pow 10 places)
      let fraction := zeroPad places (toString (units % Nat.pow 10 places))
      (if negative then "-" else "") ++ whole ++ (if places = 0 then "" else "." ++ fraction)

end JarMetrics.Decimal
