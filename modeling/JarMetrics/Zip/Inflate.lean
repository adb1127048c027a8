import JarMetrics.Zip.Fault

/-!
# Inflating

Undoing the deflate compression: a sequence of blocks that are stored, or coded with a fixed or a
transmitted pair of canonical prefix codes. What was produced before an error is kept, because its
length can matter more than the error.

Codes must be complete; the only exception is a code with a single one-bit word.
-/

namespace JarMetrics.Inflate

/-- The next bit to read, and the output so far. -/
structure State where
  position : Nat
  output : ByteArray

/-- A step that reads bits and appends output; the state survives an error. -/
abbrev Step := ReaderT ByteArray (EStateM ZipFault State)

/-- Whether at least `count` bits are left. -/
def available (count : Nat) : Step Bool := do
  return (← get).position + count ≤ 8 * (← read).size

/-- The bit at a position. -/
def bitAt (data : ByteArray) (position : Nat) : Nat :=
  ((data.get! (position / 8)).toNat >>> (position % 8)) % 2

/-- Read `count` bits, least significant first. -/
def bits (count : Nat) : Step Nat := do
  if ← available count then
    let data ← read
    let start := (← get).position
    modify fun s => { s with position := start + count }
    return (List.range count).foldr (fun i value => bitAt data (start + i) + 2 * value) 0
  else
    throw .unexpectedEnd

/-! ## Prefix codes -/

/-- A canonical prefix code: how many words there are of each length, and the symbols in the order
of their words. -/
structure Code where
  counts : Array Nat
  symbols : Array Nat
  /-- No word is decoded unless this many bits are left. -/
  least : Nat

/-- The longest word of a code. -/
def longest : Nat := 15

/-- The code with the given word lengths, 0 for symbols without a word. Codes that are not complete
are refused, except for the empty one and a single word of one bit. -/
def Code.ofLengths? (lengths : List Nat) : Option Code :=
  let counts := (Array.range (longest + 1)).map fun n => if n = 0 then 0 else lengths.count n
  let indexed := lengths.zipIdx
  let symbols := (List.range (longest + 1)).tail.flatMap fun n =>
    (indexed.filter fun p => p.1 == n).map Prod.snd
  let used := lengths.filter (· ≠ 0)
  let deepest := used.foldl max 0
  let shallowest := used.foldl min longest
  let total := (List.range (deepest + 1)).foldl (fun code n => 2 * code + counts.getD n 0) 0
  if deepest = 0 then some ⟨counts, #[], 0⟩
  else if total = Nat.pow 2 deepest ∨ (total = 1 ∧ deepest = 1) then
    some ⟨counts, symbols.toArray, shallowest⟩
  else none

/-- Follow a word bit by bit: `first` is the first word of the current length, `index` the number of
shorter words, `value` the bits read so far. -/
def followWord (code : Code) (value first index length : Nat) : Nat → Step Nat
  | 0 => throw .corruptData
  | fuel + 1 => do
      let value := value + (← bits 1)
      let count := code.counts.getD length 0
      if value < first + count then
        return code.symbols.getD (index + (value - first)) 0
      else
        followWord code (2 * value) (2 * (first + count)) (index + count) (length + 1) fuel

/-- Decode one symbol. -/
def symbol (code : Code) : Step Nat := do
  if code.symbols.isEmpty then
    throw .corruptData
  else if ← available code.least then
    followWord code 0 0 0 1 (if code.symbols.size = 1 then 1 else longest)
  else
    throw .unexpectedEnd

/-! ## Blocks -/

/-- Append one byte of output. -/
def emit (byte : UInt8) : Step Unit :=
  modify fun s => { s with output := s.output.push byte }

/-- Repeat `count` bytes from `distance` bytes back. -/
def copyBack (distance : Nat) : Nat → Step Unit
  | 0 => return
  | count + 1 => do
      let output := (← get).output
      emit (output.get! (output.size - distance))
      copyBack distance count

/-- The base length of a length symbol and the number of its extra bits. -/
def lengthBase? (sym : Nat) : Option (Nat × Nat) :=
  if sym < 265 then some (sym - 254, 0)
  else if sym < 285 then
    let extra := (sym - 261) / 4
    some ((4 + (sym - 261) % 4) * Nat.pow 2 extra + 3, extra)
  else if sym = 285 then some (258, 0)
  else none

/-- The base distance of a distance symbol and the number of its extra bits. -/
def distanceBase? (sym : Nat) : Option (Nat × Nat) :=
  if sym < 4 then some (sym + 1, 0)
  else if sym < 30 then
    let extra := (sym - 2) / 2
    some ((2 + sym % 2) * Nat.pow 2 extra + 1, extra)
  else none

/-- A base plus its extra bits. -/
def withExtra (base : Option (Nat × Nat)) : Step Nat := do
  match base with
  | none => throw .corruptData
  | some (least, extra) => return least + (← bits extra)

/-- Five bits, most significant first. -/
def fixedDistance : Step Nat := do
  let value ← bits 5
  return (List.range 5).foldl (fun reversed i => 2 * reversed + (value >>> i) % 2) 0

/-- How far back a distance may reach. -/
def window : Nat := 32768

/-- Symbols up to the end of the block. Every symbol takes a bit at least, so `fuel` may be the
number of bits. -/
def codedBlock (literals : Code) (distances : Option Code) : Nat → Step Unit
  | 0 => throw .unexpectedEnd
  | fuel + 1 => do
      let sym ← symbol literals
      if sym < 256 then
        emit sym.toUInt8
        codedBlock literals distances fuel
      else if sym = 256 then
        return
      else
        let length ← withExtra (lengthBase? sym)
        let distance ← match distances with
          | some code => withExtra (distanceBase? (← symbol code))
          | none => withExtra (distanceBase? (← fixedDistance))
        if distance ≤ min (← get).output.size window then
          copyBack distance length
          codedBlock literals distances fuel
        else
          throw .corruptData

/-- The literal code of fixed blocks. -/
def fixedLiterals : Code :=
  (Code.ofLengths? ((List.range 288).map fun n =>
    if n < 144 then 8 else if n < 256 then 9 else if n < 280 then 7 else 8)).getD ⟨#[], #[], 0⟩

/-- The order in which the lengths of the code-length code are sent. -/
def lengthOrder : List Nat := [16, 17, 18, 0, 8, 7, 9, 6, 10, 5, 11, 4, 12, 3, 13, 2, 14, 1, 15]

/-- The lengths of the code-length code, of which the first `count` are sent. -/
def readLengthLengths (count : Nat) : Step (List Nat) := do
  let sent ← (lengthOrder.take count).mapM fun sym => return (sym, ← bits 3)
  return (List.range 19).map fun sym => ((sent.find? (·.1 == sym)).map Prod.snd).getD 0

/-- Word lengths coded by `code` until there are `total`. Every step adds one at least. -/
def readLengths (code : Code) (total : Nat) : Nat → Array Nat → Step (Array Nat)
  | 0, lengths => return lengths
  | fuel + 1, lengths => do
      if total ≤ lengths.size then return lengths
      let sym ← symbol code
      if sym < 16 then
        readLengths code total fuel (lengths.push sym)
      else
        let (value, least, extra) ←
          if sym = 16 then
            match lengths.back? with
            | some last => pure (last, 3, 2)
            | none => throw .corruptData
          else if sym = 17 then pure (0, 3, 3)
          else pure (0, 11, 7)
        let count := least + (← bits extra)
        if lengths.size + count ≤ total then
          readLengths code total fuel (lengths ++ Array.replicate count value)
        else
          throw .corruptData

/-- Require a code to be well formed. -/
def wellFormed (code : Option Code) : Step Code :=
  match code with
  | some code => return code
  | none => throw .corruptData

/-- Read the two codes of a dynamic block. The end mark is a word of the literal code, so no literal
is decoded unless the end mark still fits. -/
def readCodes : Step (Code × Code) := do
  let sizes ← bits 14
  let literalCount := sizes % 32 + 257
  let distanceCount := sizes / 32 % 32 + 1
  if literalCount > 286 ∨ distanceCount > 30 then throw .corruptData
  let lengthCode ← wellFormed (Code.ofLengths? (← readLengthLengths (sizes / 1024 + 4)))
  let total := literalCount + distanceCount
  let lengths ← readLengths lengthCode total total #[]
  let literalLengths := (lengths.extract 0 literalCount).toList
  let literals ← wellFormed (Code.ofLengths? literalLengths)
  let distances ← wellFormed (Code.ofLengths? (lengths.extract literalCount total).toList)
  return ({ literals with least := max literals.least (literalLengths.getD 256 0) }, distances)

/-- Copy `count` stored bytes. -/
def copyStored : Nat → Step Unit
  | 0 => return
  | count + 1 => do
      emit (← bits 8).toUInt8
      copyStored count

/-- A stored block: from the next byte on, its length, the complement of its length, and its
bytes. -/
def storedBlock : Step Unit := do
  modify fun s => { s with position := (s.position + 7) / 8 * 8 }
  let length ← bits 32
  if length % 65536 + length / 65536 = 65535 then copyStored (length % 65536)
  else throw .corruptData

/-- Blocks up to the final one. Every block takes three bits at least, so `fuel` may be the number
of bits. -/
def blocks (bitCount : Nat) : Nat → Step Unit
  | 0 => throw .unexpectedEnd
  | fuel + 1 => do
      let header ← bits 3
      match header / 2 with
      | 0 => storedBlock
      | 1 => codedBlock fixedLiterals none bitCount
      | 2 =>
          let (literals, distances) ← readCodes
          codedBlock literals (some distances) bitCount
      | _ => throw .corruptData
      if header % 2 = 0 then blocks bitCount fuel

/-- Inflate compressed data: the output, and the fault that cut it short. -/
def run (data : ByteArray) : ByteArray × Option ZipFault :=
  let bitCount := 8 * data.size + 1
  match (blocks bitCount bitCount data).run ⟨0, .empty⟩ with
  | .ok _ s => (s.output, none)
  | .error fault s => (s.output, some fault)

end JarMetrics.Inflate
