import JarMetrics.Bytes.Utf8
import JarMetrics.Files.Tree
import JarMetrics.Zip.Crc32

/-!
# Writing archives

An archive from named contents, in the order of the names. Contents are stored as they are: first
every entry with a header of its own, then the directory, which says again what the headers say and
where they are.
-/

namespace JarMetrics.ZipWriter

/-- A number in so many bytes, the lowest first. -/
def littleEndianBytes : Nat → Nat → List UInt8
  | 0, _ => []
  | count + 1, n => UInt8.ofNat n :: littleEndianBytes count (n / 256)

/-- An entry of an archive in the making. -/
structure Entry where
  name : String
  content : List UInt8

namespace Entry

/-- What both the header and the directory say of an entry. Names are UTF-8. -/
def description (e : Entry) : List UInt8 :=
  littleEndianBytes 2 20 ++ littleEndianBytes 2 0x800 ++ littleEndianBytes 2 0 ++
    littleEndianBytes 4 0 ++
    littleEndianBytes 4 (Crc32.checksum ⟨e.content.toArray⟩).toNat ++
    littleEndianBytes 4 e.content.length ++ littleEndianBytes 4 e.content.length ++
    littleEndianBytes 2 (Utf8.encode e.name).length ++ littleEndianBytes 2 0

/-- The header of an entry and its content. -/
def body (e : Entry) : List UInt8 :=
  littleEndianBytes 4 0x04034b50 ++ e.description ++ Utf8.encode e.name ++ e.content

/-- What the directory says of an entry whose header is at an offset. -/
def listing (offset : Nat) (e : Entry) : List UInt8 :=
  littleEndianBytes 4 0x02014b50 ++ littleEndianBytes 2 20 ++ e.description ++
    littleEndianBytes 2 0 ++
    littleEndianBytes 2 0 ++ littleEndianBytes 2 0 ++ littleEndianBytes 4 0 ++
      littleEndianBytes 4 offset ++
    Utf8.encode e.name

end Entry

/-- The directory of entries, the first of which is at an offset. -/
def directory (offset : Nat) : List Entry → List UInt8
  | [] => []
  | e :: rest => e.listing offset ++ directory (offset + e.body.length) rest

/-- The bytes of an archive. -/
def archive (entries : List Entry) : List UInt8 :=
  let bodies := entries.flatMap Entry.body
  let listings := directory 0 entries
  bodies ++ listings ++ littleEndianBytes 4 0x06054b50 ++ littleEndianBytes 4 0 ++
    littleEndianBytes 2 entries.length ++ littleEndianBytes 2 entries.length ++
    littleEndianBytes 4 listings.length ++
      littleEndianBytes 4 bodies.length ++ littleEndianBytes 2 0

/-- Check that an entry can be written: a directory has no content. -/
def checkEntry (e : Entry) : Outcome Unit :=
  if e.name.endsWith "/" && !e.content.isEmpty then
    .error (.noted ("write entry " ++ e.name) (.plain "zip: write to directory"))
  else .ok ()

/-- The bytes of an archive with its entries in the order of their names. -/
def build (entries : List Entry) : Outcome (List UInt8) := do
  let sorted := entries.mergeSort fun a b => a.name ≤ b.name
  sorted.forM checkEntry
  return archive sorted

/-- Write an archive into a directory, and give its path. -/
def write (tree : FileTree) (place name : String) (entries : List Entry) :
    Outcome (String × FileTree) := do
  let path := Path.join place name
  let tree ← (tree.makeDirectories (Path.directory path)).mapError (.noted "mkdir")
  let tree ← (tree.write path (← build entries)).mapError (.noted "write jar")
  return (path, tree)

end JarMetrics.ZipWriter
