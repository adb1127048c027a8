import JarMetrics.Assembly.Pool
import JarMetrics.Instruction.Basic

/-!
# Assembling method bodies

A body is put together piece by piece. Pieces that refer to classes or methods intern what they need
in the pool of the class. Switches jump to themselves, which is enough to decode them.
-/

namespace JarMetrics.Assembly

/-- One piece of a body. -/
inductive Piece
  /-- An opcode and its operand bytes as they are. -/
  | raw (opcode : UInt8) (operands : List UInt8)
  | variableAt (opcode index : UInt8)
  | wideVariable (opcode : UInt8) (index : UInt16)
  | increment (index : UInt8) (amount : Int8)
  | wideIncrement (index : UInt16) (amount : Int16)
  | invoke (opcode : UInt8) (owner name descriptor : String)
  | invokeDynamic (name descriptor : String)
  | typeUse (opcode : UInt8) (typeName : String)
  | jump (opcode : UInt8) (offset : Int16)
  | tableSwitch (low high : Int32)
  | lookupSwitch (keys : List Int32)
  deriving Repr, DecidableEq

/-- Zeros up to the next multiple of four. -/
def padding (length : Nat) : List UInt8 := List.replicate ((4 - length % 4) % 4) 0

/-- How often a counter runs from `low` through `high`. The counter has 32 bits and wraps, so it
never gets past the largest number: a count up to there does not end, and is `none` however much
`fuel` there is. -/
def countUp (low high : Int32) (done : Nat) : Nat → Option Nat
  | 0 => none
  | fuel + 1 => if low ≤ high then countUp (low + 1) high (done + 1) fuel else some done

/-- The bytes of a dense switch behind `length` bytes of code. -/
def tableSwitch (length : Nat) (low high : Int32) : Option (List UInt8) :=
  (countUp low high 0 0x100000001).map fun words =>
    UInt8.ofNat Opcode.tableSwitch :: padding (length + 1) ++ u4 0 ++ u4 low.toUInt32.toNat ++
      u4 high.toUInt32.toNat ++ List.replicate (4 * words) 0

/-- The bytes of a sorted switch behind `length` bytes of code. -/
def lookupSwitch (length : Nat) (keys : List Int32) : List UInt8 :=
  UInt8.ofNat Opcode.lookupSwitch :: padding (length + 1) ++ u4 0 ++ u4 keys.length ++
    keys.flatMap fun key => u4 key.toUInt32.toNat ++ u4 0

/-- The bytes of a piece behind `length` bytes of code, and the pool with what the piece refers
to. -/
def Piece.emit (pool : Pool) (length : Nat) : Piece → Option (List UInt8 × Pool)
  | .raw opcode operands => some (opcode :: operands, pool)
  | .variableAt opcode index => some ([opcode, index], pool)
  | .wideVariable opcode index => some (UInt8.ofNat Opcode.wide :: opcode :: u2 index, pool)
  | .increment index amount => some ([UInt8.ofNat Opcode.iinc, index, amount.toUInt8], pool)
  | .wideIncrement index amount =>
      some (UInt8.ofNat Opcode.wide :: UInt8.ofNat Opcode.iinc :: u2 index ++
        u2 amount.toUInt16, pool)
  | .invoke opcode owner name descriptor =>
      let ofInterface := opcode.toNat == Opcode.invokeInterface
      let (index, pool) := pool.methodRef ofInterface owner name descriptor
      some (opcode :: u2 index ++ (if ofInterface then [1, 0] else []), pool)
  | .invokeDynamic name descriptor =>
      let (index, pool) := pool.dynamicCall name descriptor
      some (UInt8.ofNat Opcode.invokeDynamic :: u2 index ++ [0, 0], pool)
  | .typeUse opcode typeName =>
      let (index, pool) := pool.classRef typeName
      some (opcode :: u2 index, pool)
  | .jump opcode offset => some (opcode :: u2 offset.toUInt16, pool)
  | .tableSwitch low high => (Assembly.tableSwitch length low high).map fun bytes => (bytes, pool)
  | .lookupSwitch keys => some (Assembly.lookupSwitch length keys, pool)

/-- Append pieces to a body. -/
def assembleFrom (pool : Pool) (code : List UInt8) : List Piece → Option (List UInt8 × Pool)
  | [] => some (code, pool)
  | piece :: rest =>
      match piece.emit pool code.length with
      | some (bytes, pool) => assembleFrom pool (code ++ bytes) rest
      | none => none

/-- The body made of `pieces`. -/
def assemble (pool : Pool) (pieces : List Piece) : Option (List UInt8 × Pool) :=
  assembleFrom pool [] pieces

end JarMetrics.Assembly
