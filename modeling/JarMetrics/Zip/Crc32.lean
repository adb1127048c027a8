/-!
# The checksum of zip entries

CRC-32 with the reflected polynomial `EDB88320`, computed byte by byte from a table.
-/

namespace JarMetrics.Crc32

/-- Shift one bit out. -/
def shiftBit (c : UInt32) : UInt32 :=
  if c &&& 1 = 1 then (c >>> 1) ^^^ 0xEDB88320 else c >>> 1

/-- Shift `n` bits out. -/
def shiftBits (c : UInt32) : Nat → UInt32
  | 0 => c
  | n + 1 => shiftBits (shiftBit c) n

/-- What each byte value contributes. -/
def table : Array UInt32 := (Array.range 256).map fun n => shiftBits n.toUInt32 8

/-- Take one more byte into the register. -/
def step (c : UInt32) (b : UInt8) : UInt32 :=
  table.getD ((c ^^^ b.toUInt32) &&& 0xFF).toNat 0 ^^^ (c >>> 8)

/-- The checksum of a byte sequence. -/
def checksum (bytes : ByteArray) : UInt32 :=
  bytes.foldl step 0xFFFFFFFF ^^^ 0xFFFFFFFF

end JarMetrics.Crc32
