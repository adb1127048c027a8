/-!
# Floating-point values as exact numbers

A finite double is an integer times a power of two. Everything that is printed about a double is
computed from that integer and that exponent in exact arithmetic.
-/

namespace JarMetrics.Decimal

/-- The magnitude `mantissa * 2 ^ exponent` of a finite double. -/
structure Binary where
  mantissa : Nat
  exponent : Int
  /-- The next smaller double is only half as far away as the next larger one. -/
  narrowBelow : Bool
  deriving Repr, DecidableEq

/-- A double taken apart. -/
inductive Value
  | notANumber
  | infinite (negative : Bool)
  | finite (negative : Bool) (magnitude : Binary)
  deriving Repr, DecidableEq

/-- Take the bit pattern of a double apart. -/
def Value.ofBits (bits : Nat) : Value :=
  let negative := bits / 0x8000000000000000 == 1
  let biased : Nat := bits / 0x10000000000000 % 0x800
  let fraction : Nat := bits % 0x10000000000000
  if biased = 0x7ff then
    if fraction = 0 then .infinite negative else .notANumber
  else if biased = 0 then
    .finite negative ⟨fraction, -1074, false⟩
  else
    .finite negative ⟨fraction + 0x10000000000000, (biased : Int) - 1075,
      fraction = 0 && biased > 1⟩

/-- Take a double apart. -/
def Value.ofFloat (x : Float) : Value := .ofBits x.toBits.toNat

/-- A non-negative rational number `num / den`. -/
structure Ratio where
  num : Nat
  den : Nat
  deriving Repr, DecidableEq

/-- `m * base ^ e` as a quotient of naturals. -/
def Ratio.scaled (m base : Nat) (e : Int) : Ratio :=
  if 0 ≤ e then ⟨m * Nat.pow base e.toNat, 1⟩ else ⟨m, Nat.pow base (-e).toNat⟩

/-- Exact comparison of `a` and `b`. -/
def Ratio.compare (a b : Ratio) : Ordering :=
  Ord.compare (a.num * b.den) (b.num * a.den)

/-- The magnitude as a quotient. -/
def Binary.toRatio (b : Binary) : Ratio := .scaled b.mantissa 2 b.exponent

end JarMetrics.Decimal
