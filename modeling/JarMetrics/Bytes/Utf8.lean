import JarMetrics.Bytes.Utf16

/-!
# UTF-8

Reading bytes as text without ever failing: a byte that does not start a well-formed sequence reads
as the replacement character and takes no other byte with it.
-/

namespace JarMetrics.Utf8

/-- A byte that continues a sequence. -/
def isContinuation (b : UInt8) : Bool := 0x80 ≤ b && b < 0xC0

/-- The code point of a two-byte sequence, if it is well formed. -/
def two? (a b : UInt8) : Option Nat :=
  if 0xC2 ≤ a && a < 0xE0 && isContinuation b then
    some ((a.toNat - 0xC0) * 0x40 + (b.toNat - 0x80))
  else none

/-- The code point of a three-byte sequence, if it is well formed: no overlong form, no
surrogate. -/
def three? (a b c : UInt8) : Option Nat :=
  let value := (a.toNat - 0xE0) * 0x1000 + (b.toNat - 0x80) * 0x40 + (c.toNat - 0x80)
  if 0xE0 ≤ a && a < 0xF0 && isContinuation b && isContinuation c && 0x800 ≤ value &&
      !(0xD800 ≤ value && value < 0xE000) then
    some value
  else none

/-- The code point of a four-byte sequence, if it is well formed. -/
def four? (a b c d : UInt8) : Option Nat :=
  let value := (a.toNat - 0xF0) * 0x40000 + (b.toNat - 0x80) * 0x1000 +
    (c.toNat - 0x80) * 0x40 + (d.toNat - 0x80)
  if 0xF0 ≤ a && a < 0xF8 && isContinuation b && isContinuation c && isContinuation d &&
      0x10000 ≤ value && value < 0x110000 then
    some value
  else none

/-- The character at the front and how many bytes it takes; ill-formed bytes count one each. -/
def front (a : UInt8) (rest : List UInt8) : Char × Nat :=
  if a < 0x80 then (Char.ofNat a.toNat, 1)
  else
    let found : Option (Nat × Nat) := match rest with
      | [] => none
      | [b] => (two? a b).map (·, 2)
      | [b, c] => ((two? a b).map (·, 2)).or ((three? a b c).map (·, 3))
      | b :: c :: d :: _ =>
          (((two? a b).map (·, 2)).or ((three? a b c).map (·, 3))).or ((four? a b c d).map (·, 4))
    match found with
    | some (value, size) => (Char.ofNat value, size)
    | none => (Utf16.replacement, 1)

/-- The characters of a byte sequence; every step takes a byte, so `fuel` may be the number of
bytes. -/
def decodeChars : Nat → List UInt8 → List Char → List Char
  | _, [], acc => acc.reverse
  | 0, _, acc => acc.reverse
  | fuel + 1, a :: rest, acc =>
      let (c, size) := front a rest
      decodeChars fuel (rest.drop (size - 1)) (c :: acc)

/-- The text of a byte sequence. -/
def decode (bytes : List UInt8) : String :=
  String.ofList (decodeChars bytes.length bytes [])

/-- The bytes of a text. -/
def encode (text : String) : List UInt8 := text.toList.flatMap String.utf8EncodeChar

/-- Whether a byte sequence is well formed throughout. -/
def isValid (bytes : List UInt8) : Bool := encode (decode bytes) == bytes

end JarMetrics.Utf8
