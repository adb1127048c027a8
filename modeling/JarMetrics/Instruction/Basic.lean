import JarMetrics.ClassFile.ConstantPool

/-!
# Instructions

One constructor per shape of operands. Short forms do not appear: an instruction on a local variable
always names the long opcode and the index. Jump and switch targets are absolute code offsets.
-/

namespace JarMetrics

open ClassFile (MemberRef)

/-- One decoded instruction. -/
inductive Instruction
  /-- No operands. -/
  | plain (opcode : Nat)
  /-- An immediate number. -/
  | push (opcode : Nat) (value : Int)
  /-- A load, a store or a return address in a local variable. -/
  | variableAt (opcode index : Nat)
  | increment (index : Nat) (amount : Int)
  /-- A constant loaded by pool index, which is not resolved. -/
  | constant (opcode index : Nat)
  | field (opcode : Nat) (member : MemberRef)
  | invoke (opcode : Nat) (member : MemberRef)
  | invokeDynamic (name descriptor : String)
  /-- Allocation, array creation, cast or instance test. -/
  | typeUse (opcode : Nat) (typeName : String)
  | jump (opcode : Nat) (target : Int)
  | tableSwitch (low high : Int) (otherwise : Int) (targets : List Int)
  | lookupSwitch (otherwise : Int) (keys targets : List Int)
  | multiArray (descriptor : String) (dimensions : Nat)
  deriving Repr, DecidableEq, Inhabited

/-! ## Opcodes -/

namespace Opcode

/-- Does not return to the next instruction by itself: `goto`, `jsr` and their wide forms. -/
def isUnconditionalJump (opcode : Nat) : Bool :=
  opcode == 0xa7 || opcode == 0xa8 || opcode == 0xc8 || opcode == 0xc9

/-- Stores a value of some type in a local variable. -/
def isStore (opcode : Nat) : Bool := 0x36 ≤ opcode && opcode ≤ 0x3a

/-- Loads a value of some type from a local variable. -/
def isLoad (opcode : Nat) : Bool := 0x15 ≤ opcode && opcode ≤ 0x19

/-- Return to the address in a local variable. -/
def ret : Nat := 0xa9

/-- Add a constant to a local variable. -/
def iinc : Nat := 0x84

/-- Allocate an object. -/
def new : Nat := 0xbb

/-- Call through an interface. -/
def invokeInterface : Nat := 0xb9

/-- Call a dynamic call site. -/
def invokeDynamic : Nat := 0xba

/-- Widen the operands of the next opcode. -/
def wide : Nat := 0xc4

/-- Jump through a dense table. -/
def tableSwitch : Nat := 0xaa

/-- Jump through a sorted list of keys. -/
def lookupSwitch : Nat := 0xab

/-- Names a local variable by an index operand. -/
def hasVariable (opcode : Nat) : Bool := isLoad opcode || isStore opcode || opcode == ret

end Opcode

end JarMetrics
