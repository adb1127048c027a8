/-!
# UTF-16 code units

Reading a sequence of 16-bit code units as text. A surrogate that does not belong to a pair reads as
the replacement character, so every sequence of units has a text.
-/

namespace JarMetrics.Utf16

/-- The character written in place of what cannot be read. -/
def replacement : Char := Char.ofNat 0xFFFD

/-- First half of a surrogate pair. -/
def isHigh (unit : Nat) : Bool := 0xD800 ≤ unit && unit < 0xDC00

/-- Second half of a surrogate pair. -/
def isLow (unit : Nat) : Bool := 0xDC00 ≤ unit && unit < 0xE000

/-- The code point that a surrogate pair stands for. -/
def pairValue (high low : Nat) : Nat :=
  0x10000 + (high - 0xD800) * 0x400 + (low - 0xDC00)

/-- The character of a unit that stands alone. -/
def single (unit : Nat) : Char :=
  if isHigh unit || isLow unit then replacement else Char.ofNat unit

/-- Read code units as characters. -/
def decode (units : List Nat) : List Char :=
  (go units []).reverse
where
  go : List Nat → List Char → List Char
    | [], acc => acc
    | [unit], acc => single unit :: acc
    | first :: second :: rest, acc =>
        if isHigh first && isLow second then
          go rest (Char.ofNat (pairValue first second) :: acc)
        else
          go (second :: rest) (single first :: acc)

/-- The code units of one character. -/
def unitsOf (c : Char) : List Nat :=
  if c.toNat < 0x10000 then [c.toNat]
  else [0xD800 + (c.toNat - 0x10000) / 0x400, 0xDC00 + (c.toNat - 0x10000) % 0x400]

end JarMetrics.Utf16
