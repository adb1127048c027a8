import JarMetrics.Instruction.Basic

/-!
# Assignments, branches and conditions

The ABC vector of a method counts three kinds of instructions. Counts are 64-bit and wrap.
-/

namespace JarMetrics

/-- Counts of assignments, branches and conditions. -/
structure Abc where
  assignments : Int64
  branches : Int64
  conditions : Int64
  deriving Repr, DecidableEq, Inhabited

namespace Abc

/-- All counts zero. -/
def zero : Abc := ⟨0, 0, 0⟩

/-- Add component by component. -/
def add (v w : Abc) : Abc :=
  ⟨v.assignments + w.assignments, v.branches + w.branches, v.conditions + w.conditions⟩

instance : Add Abc := ⟨add⟩

theorem add_assoc (u v w : Abc) : u + v + w = u + (v + w) := by
  cases u
  cases v
  cases w
  show Abc.mk (_ + _ + _) (_ + _ + _) (_ + _ + _) = _
  rw [Int64.add_assoc, Int64.add_assoc, Int64.add_assoc]
  rfl

theorem add_comm (v w : Abc) : v + w = w + v := by
  show add v w = add w v
  unfold add
  rw [Int64.add_comm v.assignments, Int64.add_comm v.branches, Int64.add_comm v.conditions]

theorem zero_add (v : Abc) : zero + v = v := by
  cases v
  show Abc.mk (0 + _) (0 + _) (0 + _) = _
  rw [Int64.zero_add, Int64.zero_add, Int64.zero_add]

theorem add_zero (v : Abc) : v + zero = v := by
  cases v
  show Abc.mk (_ + 0) (_ + 0) (_ + 0) = _
  rw [Int64.add_zero, Int64.add_zero, Int64.add_zero]

/-- Whether every count is zero. -/
def isZero (v : Abc) : Bool := v == zero

/-- The Euclidean length of the vector. -/
def magnitude (v : Abc) : Float :=
  let a := v.assignments.toFloat
  let b := v.branches.toFloat
  let c := v.conditions.toFloat
  Float.sqrt (a * a + b * b + c * c)

/-- The counts between angle brackets. -/
def text (v : Abc) : String := s!"<{v.assignments},{v.branches},{v.conditions}>"

/-- What one instruction counts: stores and increments are assignments, calls and allocations are
branches, conditional jumps and the labels of a switch are conditions. -/
def ofInstruction : Instruction → Abc
  | .variableAt opcode _ => if Opcode.isStore opcode then ⟨1, 0, 0⟩ else zero
  | .increment _ _ => ⟨1, 0, 0⟩
  | .invoke _ _ => ⟨0, 1, 0⟩
  | .invokeDynamic _ _ => ⟨0, 1, 0⟩
  | .typeUse opcode _ => if opcode = Opcode.new then ⟨0, 1, 0⟩ else zero
  | .jump opcode _ => if Opcode.isUnconditionalJump opcode then zero else ⟨0, 0, 1⟩
  | .tableSwitch _ _ _ targets => ⟨0, 0, .ofNat targets.length⟩
  | .lookupSwitch _ _ targets => ⟨0, 0, .ofNat targets.length⟩
  | _ => zero

/-- The sum over instructions. -/
def ofInstructions (is : List Instruction) : Abc :=
  is.foldl (fun v i => v + ofInstruction i) zero

end Abc

end JarMetrics
