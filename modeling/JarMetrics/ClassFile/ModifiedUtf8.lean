import JarMetrics.Bytes.Utf16

/-!
# Modified UTF-8

The text encoding of class files. One code unit takes one to three bytes; NUL is written as the two
bytes `C0 80` and a supplementary character as two three-byte surrogates. `decode` never fails: a
lead byte too close to the end of the data, and every byte that is no lead byte, stands for the unit
of its own value. Continuation bytes are used for their low six bits whatever their high bits are.
Bytes that are all below 0x80 are taken as the characters that they are, without going through
units.
-/

namespace JarMetrics.ModifiedUtf8

/-- The unit of a two-byte sequence. -/
def unit2 (lead next : UInt8) : Nat :=
  (lead.toNat % 0x20) * 0x40 + next.toNat % 0x40

/-- The unit of a three-byte sequence. -/
def unit3 (lead second third : UInt8) : Nat :=
  (lead.toNat % 0x10) * 0x1000 + (second.toNat % 0x40) * 0x40 + third.toNat % 0x40

/-- Lead byte of a two-byte sequence. -/
def isLead2 (b : UInt8) : Bool := 0xC0 ≤ b && b < 0xE0

/-- Lead byte of a three-byte sequence. -/
def isLead3 (b : UInt8) : Bool := 0xE0 ≤ b && b < 0xF0

/-- The code units of a byte sequence. -/
def units (bytes : List UInt8) : List Nat :=
  (go bytes []).reverse
where
  go : List UInt8 → List Nat → List Nat
    | [], acc => acc
    | [a], acc => a.toNat :: acc
    | [a, b], acc =>
        if isLead2 a then unit2 a b :: acc else go [b] (a.toNat :: acc)
    | a :: b :: c :: rest, acc =>
        if isLead2 a then go (c :: rest) (unit2 a b :: acc)
        else if isLead3 a then go rest (unit3 a b c :: acc)
        else go (b :: c :: rest) (a.toNat :: acc)

/-- The text of a byte sequence by way of its code units. -/
def unitText (bytes : List UInt8) : String :=
  String.ofList (Utf16.decode (units bytes))

/-- Whether all bytes are below 0x80. -/
def isAscii (bytes : List UInt8) : Bool := bytes.all (· < 0x80)

/-- The text of bytes of which each is a character. -/
def asciiText (bytes : List UInt8) : String := String.ofList (bytes.map fun b => Char.ofNat b.toNat)

/-- The text of a byte sequence. -/
def decode (bytes : List UInt8) : String :=
  if isAscii bytes then asciiText bytes else unitText bytes

/-- The bytes of one code unit. -/
def encodeUnit (unit : Nat) : List UInt8 :=
  if unit = 0 then [0xC0, 0x80]
  else if unit < 0x80 then [UInt8.ofNat unit]
  else if unit < 0x800 then
    [UInt8.ofNat (0xC0 + unit / 0x40), UInt8.ofNat (0x80 + unit % 0x40)]
  else
    [UInt8.ofNat (0xE0 + unit / 0x1000), UInt8.ofNat (0x80 + unit / 0x40 % 0x40),
      UInt8.ofNat (0x80 + unit % 0x40)]

/-- The bytes of one character. -/
def encodeChar (c : Char) : List UInt8 := (Utf16.unitsOf c).flatMap encodeUnit

/-- The bytes of a text. -/
def encode (text : String) : List UInt8 := text.toList.flatMap encodeChar

end JarMetrics.ModifiedUtf8
