import JarMetrics.Bytes.Cursor
import JarMetrics.Bytes.Utf8
import JarMetrics.Zip.Crc32
import JarMetrics.Zip.Inflate

/-!
# Zip archives

The directory at the end of an archive lists its entries. `ZipArchive.read` finds the directory and
reads it; `ZipArchive.content` reads one entry and checks it against its size and its checksum.
Sizes and offsets of 64 bits are read from the extended fields where the short ones are full.

The number of entries is only kept modulo 65536, so headers are read until there is a bad one, and
that is an error only if the number read differs from the number announced.
-/

namespace JarMetrics

/-- One entry of the directory. -/
structure ZipEntry where
  /-- The name in whatever bytes the archive has. -/
  rawName : List UInt8
  method : Nat
  flags : Nat
  checksum : Nat
  compressedSize : Int
  size : Nat
  /-- Where the local header stands. -/
  headerOffset : Int
  isDirectory : Bool
  deriving Repr, DecidableEq

/-- The name as text. -/
def ZipEntry.name (e : ZipEntry) : String := Utf8.decode e.rawName

/-- Whether checksum and sizes are repeated behind the data. -/
def ZipEntry.hasDescriptor (e : ZipEntry) : Bool := e.flags / 8 % 2 == 1

/-- An archive and its directory. -/
structure ZipArchive where
  data : ByteArray
  entries : List ZipEntry

namespace ZipArchive

/-- Offsets are 64-bit signed. -/
def wrap (x : Int) : Int := x.bmod 0x10000000000000000

/-- The bytes from `start` on, at most `count`. -/
def bytesFrom (data : ByteArray) (start count : Nat) : List UInt8 :=
  if data.size ≤ start then [] else (data.extract start (min (start + count) data.size)).toList

/-- Exactly `count` bytes at an offset. -/
def bytesAt (data : ByteArray) (offset : Int) (count : Nat) : Except ZipFault (List UInt8) :=
  if offset < 0 then .error .beforeStart
  else
    let bytes := bytesFrom data offset.toNat count
    if bytes.length = count then .ok bytes else .error .endOfData

/-- Exactly `count` bytes of a stream at a position. -/
def nextBytes (data : ByteArray) (start count : Nat) : Except ZipFault (List UInt8) :=
  let bytes := bytesFrom data start count
  if bytes.length = count then .ok bytes
  else if bytes.isEmpty then .error .endOfData
  else .error .unexpectedEnd

/-- The number in `count` bytes from place `start` of a record. -/
def field (record : List UInt8) (start count : Nat) : Nat :=
  littleEndian ((record.drop start).take count)

/-! ## Directory entries -/

/-- The 64-bit values that are still to be found in the extended fields. -/
structure Wide where
  size : Option Nat
  compressedSize : Option Nat
  headerOffset : Option Nat

/-- Take the next 64-bit value if it is needed. -/
def takeWide (needed : Bool) (body : List UInt8) : Except ZipFault (Option Nat × List UInt8) :=
  if needed then
    if body.length < 8 then .error .notZip
    else .ok (some (littleEndian (body.take 8)), body.drop 8)
  else .ok (none, body)

/-- Look through the extra fields of a header for the extended sizes. Each field takes four bytes at
least, so `fuel` may be the number of bytes. -/
def readExtra (found : Wide) (needSize needCompressed needOffset : Bool) :
    Nat → List UInt8 → Except ZipFault Wide
  | 0, _ => .ok found
  | fuel + 1, extra =>
      if extra.length < 4 then .ok found
      else
        let tag := field extra 0 2
        let length := field extra 2 2
        let rest := extra.drop 4
        if rest.length < length then .ok found
        else if tag = 1 then do
          let body := rest.take length
          let (size, body) ← takeWide (needSize && found.size.isNone) body
          let (compressed, body) ← takeWide (needCompressed && found.compressedSize.isNone) body
          let (offset, _) ← takeWide (needOffset && found.headerOffset.isNone) body
          readExtra ⟨found.size.or size, found.compressedSize.or compressed,
            found.headerOffset.or offset⟩ needSize needCompressed needOffset fuel (rest.drop length)
        else
          readExtra found needSize needCompressed needOffset fuel (rest.drop length)

/-- A value that does not fit in 32 bits. -/
def full32 : Nat := 0xFFFFFFFF

/-- Whether the attributes of an entry, read as its creator meant them, are those of a directory. -/
def isDirectoryMode (creator attributes : Nat) : Bool :=
  if creator = 3 ∨ creator = 19 then attributes / 65536 / 4096 % 16 = 4
  else if creator = 11 ∨ creator = 14 ∨ creator = 0 then attributes / 16 % 2 = 1
  else false

/-- Read the directory header at a position; also the position after it. -/
def readHeader (data : ByteArray) (start : Nat) : Except ZipFault (ZipEntry × Nat) := do
  let header ← nextBytes data start 46
  if field header 0 4 ≠ 0x02014b50 then throw .notZip
  let nameLength := field header 28 2
  let extraLength := field header 30 2
  let commentLength := field header 32 2
  let total := nameLength + extraLength + commentLength
  let tail ← if total = 0 then pure [] else nextBytes data (start + 46) total
  let rawName := tail.take nameLength
  let extra := (tail.drop nameLength).take extraLength
  let compressed := field header 20 4
  let size := field header 24 4
  let offset := field header 42 4
  let wide ← readExtra ⟨none, none, none⟩ (size == full32) (compressed == full32) (offset == full32)
    extra.length extra
  if (compressed = full32 ∧ wide.compressedSize.isNone) ∨
    (offset = full32 ∧ wide.headerOffset.isNone) then
    throw .notZip
  return ({ rawName
            method := field header 10 2
            flags := field header 8 2
            checksum := field header 16 4
            compressedSize := wrap (wide.compressedSize.getD compressed)
            size := wide.size.getD size
            headerOffset := wrap (wide.headerOffset.getD offset)
            isDirectory := isDirectoryMode (field header 5 1) (field header 38 4) ||
              rawName.getLast? == some 0x2F }, start + 46 + total)

/-! ## The end of the directory -/

/-- The length of the record that ends an archive, without its comment. -/
def endLength : Nat := 22

/-- Where the end record stands in the last `blockSize` bytes: the last place that has its
signature, if its comment fits. -/
def findEnd (data : ByteArray) (blockSize : Nat) : Option Nat :=
  let first := data.size - blockSize
  let places := (List.range (blockSize + 1 - endLength)).reverse.map (first + ·)
  match places.find? fun p => bytesFrom data p 4 == [0x50, 0x4b, 0x05, 0x06] with
  | none => none
  | some p =>
      if field (bytesFrom data p endLength) 20 2 + endLength + p ≤ data.size then some p else none

/-- What the end record says: the number of entries, and the size and the offset of the
directory. -/
structure DirectoryEnd where
  place : Int
  records : Nat
  size : Nat
  offset : Nat

/-- The offset of the 64-bit end record that a locator in front of the end record points to. -/
def findWideEnd (data : ByteArray) (place : Int) : Option Nat :=
  if place < 20 then none
  else
    let locator := bytesFrom data (place.toNat - 20) 20
    if field locator 0 4 = 0x07064b50 ∧ field locator 4 4 = 0 ∧ field locator 16 4 = 1 then
      let offset := field locator 8 8
      if offset < 0x8000000000000000 then some offset else none
    else none

/-- Replace what the end record says by what the 64-bit end record says, if there is one. -/
def widen (data : ByteArray) (e : DirectoryEnd) : Except ZipFault DirectoryEnd :=
  match findWideEnd data e.place with
  | none => .ok e
  | some offset => do
      let record ← bytesAt data offset 56
      if field record 0 4 ≠ 0x06064b50 then throw .notZip
      return ⟨offset, field record 32 8, field record 40 8, field record 48 8⟩

/-- Find the end record: in the last kilobyte, or else in the last 65. -/
def readEnd (data : ByteArray) : Except ZipFault DirectoryEnd := do
  let near := min 1024 data.size
  let far := min (65 * 1024) data.size
  match (findEnd data near).or (if near = data.size then none else findEnd data far) with
  | none => throw .notZip
  | some p =>
      let record := bytesFrom data p endLength
      let e : DirectoryEnd := ⟨p, field record 10 2, field record 12 4, field record 16 4⟩
      if e.records = 0xFFFF ∨ e.size = 0xFFFF ∨ e.offset = full32 then widen data e else return e

/-- Where offsets count from, given the end record. Archives may have other data in front, which
shows in the place of the directory; but when there is a directory header where the offset says, the
offset is taken at its word. -/
def baseOffset (data : ByteArray) (e : DirectoryEnd) : Except ZipFault Int :=
  if e.size ≥ 0x8000000000000000 ∨ e.offset ≥ 0x8000000000000000 then .error .notZip
  else
    let base := wrap (e.place - e.size - e.offset)
    let start := wrap (base + e.offset)
    if start < 0 ∨ start ≥ data.size then .error .notZip
    else if base > 0 then
      match readHeader data e.offset with
      | .ok _ => .ok 0
      | .error _ => .ok base
    else .ok base

/-- Directory headers from a position on, and the fault at which they end. Each takes 46 bytes at
least, so `fuel` may be the number of bytes. -/
def readHeaders (data : ByteArray) (base : Int) :
    Nat → Nat → List ZipEntry → List ZipEntry × ZipFault
  | 0, _, entries => (entries.reverse, .notZip)
  | fuel + 1, start, entries =>
      match readHeader data start with
      | .error fault => (entries.reverse, fault)
      | .ok (entry, next) =>
          readHeaders data base fuel next
            ({ entry with headerOffset := wrap (entry.headerOffset + base) } :: entries)

/-- Read the directory of an archive. -/
def read (data : ByteArray) : Except ZipFault ZipArchive := do
  let e ← readEnd data
  let base ← baseOffset data e
  let (entries, fault) := readHeaders data base (data.size + 1) (wrap (base + e.offset)).toNat []
  if fault = .endOfData then throw fault
  else if entries.length % 65536 = e.records % 65536 then return ⟨data, entries⟩
  else throw fault

/-! ## Entries -/

/-- The checksum that stands behind the data of an entry, with or without a signature in front. -/
def readDescriptor (data : ByteArray) (start : Nat) : Except ZipFault Nat := do
  let first ← (nextBytes data start 4).mapError fun _ => .unexpectedEnd
  if littleEndian first = 0x08074b50 then
    return field (← (nextBytes data (start + 4) 12).mapError fun _ => .unexpectedEnd) 0 4
  else
    let _ ← (nextBytes data (start + 4) 8).mapError fun _ => .unexpectedEnd
    return littleEndian first

/-- What an entry's bytes expand to, before any check. -/
def expand (method : Nat) (packed : ByteArray) : Except ZipFault (ByteArray × Option ZipFault) :=
  match method with
  | 0 => .ok (packed, none)
  | 8 => .ok (Inflate.run packed)
  | _ => .error .unsupportedMethod

/-- The content of an entry. More content than announced is noticed before anything else, then
faults of the compressed data, then less content than announced, then checksums. Without a data
descriptor a checksum of 0 counts as not given. -/
def content (archive : ZipArchive) (e : ZipEntry) : Except ZipFault (List UInt8) := do
  let header ← bytesAt archive.data e.headerOffset 30
  if field header 0 4 ≠ 0x04034b50 then throw .notZip
  let start := e.headerOffset.toNat + 30 + field header 26 2 + field header 28 2
  let packed :=
    archive.data.extract start (min (start + e.compressedSize.toNat) archive.data.size)
  let (output, fault) ← expand e.method packed
  if output.size > e.size then throw .notZip
  match fault with
  | some fault => throw fault
  | none =>
      if output.size ≠ e.size then throw .unexpectedEnd
      let sum := (Crc32.checksum output).toNat
      if e.hasDescriptor then
        if (← readDescriptor archive.data (start + e.compressedSize.toNat)) ≠ e.checksum then
          throw .checksum
        if sum ≠ e.checksum then throw .checksum
      else if e.checksum ≠ 0 ∧ sum ≠ e.checksum then
        throw .checksum
      return output.toList

end ZipArchive

end JarMetrics
