import JarMetrics.Metrics.Abc
import JarMetrics.Proofs.Encoding

/-!
# What instructions count

Assignments, branches and conditions as plain numbers: how many instructions of a list are of a
kind, and how many case labels its switches have. The kinds are said by opcode. Since an instruction
on a local variable is named by its long opcode, `Encoding.classified` says what that means for the
bytes: a store counts in its long form, in its four short forms and behind `wide`.

`Sequence.ofInstructions_eq` says that the vector of a well-formed code array is these numbers, and
`Sequence.counts_le` that they are at most the number of its bytes, so that 64 bits hold them.
-/

namespace JarMetrics

open ClassFile (ConstantPool)

namespace Instruction

/-! ## Kinds of instructions -/

/-- A store to a local variable, of one of five types, or an increment of one. -/
def isAssignment : Instruction → Bool
  | .variableAt opcode _ => opcode ∈ [0x36, 0x37, 0x38, 0x39, 0x3a]
  | .increment _ _ => true
  | _ => false

/-- A call in one of the four ways to name a method, a dynamic call, or an allocation. -/
def isBranch : Instruction → Bool
  | .invoke opcode _ => opcode ∈ [0xb6, 0xb7, 0xb8, 0xb9]
  | .invokeDynamic _ _ => true
  | .typeUse opcode _ => opcode = 0xbb
  | _ => false

/-- A jump other than `goto`, `jsr` and their wide forms. -/
def isConditionalJump : Instruction → Bool
  | .jump opcode _ => opcode ∉ [0xa7, 0xa8, 0xc8, 0xc9]
  | _ => false

/-- The explicit labels of a switch: each number from `low` to `high`, or each key. -/
def caseLabels : Instruction → List Int
  | .tableSwitch low high _ _ =>
      (List.range (high - low + 1).toNat).map fun (step : Nat) => low + step
  | .lookupSwitch _ keys _ => keys
  | _ => []

/-- How many instructions assign. -/
def assignments (is : List Instruction) : Nat := is.countP isAssignment

/-- How many instructions call or allocate. -/
def branches (is : List Instruction) : Nat := is.countP isBranch

/-- How many jumps are conditional, and how many labels the switches have. -/
def conditions (is : List Instruction) : Nat :=
  is.countP isConditionalJump + (is.flatMap caseLabels).length

/-- The counts as machine numbers. -/
def counts (is : List Instruction) : Abc :=
  ⟨.ofNat (assignments is), .ofNat (branches is), .ofNat (conditions is)⟩

theorem assignments_append (is js : List Instruction) :
    assignments (is ++ js) = assignments is + assignments js :=
  List.countP_append

theorem branches_append (is js : List Instruction) :
    branches (is ++ js) = branches is + branches js :=
  List.countP_append

theorem conditions_append (is js : List Instruction) :
    conditions (is ++ js) = conditions is + conditions js := by
  unfold conditions
  rw [List.countP_append, List.flatMap_append, List.length_append]
  omega

theorem counts_append (is js : List Instruction) : counts (is ++ js) = counts is + counts js := by
  unfold counts
  rw [assignments_append, branches_append, conditions_append, Int64.ofNat_add,
    Int64.ofNat_add, Int64.ofNat_add]
  rfl

/-! ## Kinds of encodings -/

/-- The opcode that is executed: the first byte, or the second one behind `wide`. -/
def operation : List UInt8 → Nat
  | [] => 0
  | op :: operands => if op.toNat = 0xc4 then (operands.headD op).toNat else op.toNat

/-- The kinds of an instruction are told from its opcode. A store has the opcodes 0x36 to 0x3a with
an index behind them and 0x3b to 0x4e without. -/
structure Classified (op : Nat) (i : Instruction) : Prop where
  assignment : i.isAssignment = true ↔ (0x36 ≤ op ∧ op ≤ 0x4e) ∨ op = 0x84
  branch : i.isBranch = true ↔ 0xb6 ≤ op ∧ op ≤ 0xbb
  jump : i.isConditionalJump = true ↔ (0x99 ≤ op ∧ op ≤ 0xa6) ∨ op = 0xc6 ∨ op = 0xc7
  labels : i.caseLabels ≠ [] → op = 0xaa ∨ op = 0xab

theorem operation_wide {op : UInt8} (wide : op.toNat = 0xc4) (target : UInt8) (rest : List UInt8) :
    operation (op :: target :: rest) = target.toNat :=
  if_pos wide

theorem operation_of_ne {op : UInt8} (other : op.toNat ≠ 0xc4) (operands : List UInt8) :
    operation (op :: operands) = op.toNat :=
  if_neg other

section

variable {pool : ConstantPool} {pc : Nat} {bytes : List UInt8} {i : Instruction}

theorem Encoding.classified (encoded : Encoding pool pc bytes i) :
    Classified (operation bytes) i := by
  rcases encoded with ⟨layout, operands⟩
  cases operands with
  | wideVariable index named =>
    simp only [Opcode.IsVariable] at named
    rw [operation_wide layout]
    constructor <;> simp [isAssignment, isBranch, isConditionalJump, caseLabels] <;> omega
  | wideIncrement index amount =>
    rw [List.cons_append, operation_wide layout]
    constructor <;> simp [isAssignment, isBranch, isConditionalJump, caseLabels]
  | _ =>
    simp only [Opcode.HasLayout, Opcode.IsPlain, Opcode.IsVariable] at layout
    rw [operation_of_ne (by omega)]
    constructor <;> simp [isAssignment, isBranch, isConditionalJump, caseLabels] <;> omega

/-! ## Counting one instruction -/

/-- The labels of a switch are spelled out, four bytes or more for each. -/
theorem Encoding.length_caseLabels_le (encoded : Encoding pool pc bytes i) :
    i.caseLabels.length ≤ bytes.length := by
  rcases encoded with ⟨layout, operands⟩
  cases operands with
  | tableSwitch otherwise low high offsets padded ordered count =>
    simp only [caseLabels, List.length_map, List.length_range, List.length_cons, List.length_append,
      length_switchOffsets]
    omega
  | lookupSwitch otherwise count pairs padded counted =>
    simp only [caseLabels, List.length_map, List.length_cons,
      List.length_append, length_switchPairs]
    omega
  | _ => exact Nat.zero_le _

/-- No instruction counts more than its bytes: it is of one kind only. -/
theorem Encoding.counts_le (encoded : Encoding pool pc bytes i) :
    assignments [i] + branches [i] + conditions [i] ≤ bytes.length := by
  obtain ⟨assigns, calls, jumps, switches⟩ := encoded.classified
  have labels := encoded.length_caseLabels_le
  have someByte : 0 < bytes.length := by
    cases encoded
    exact Nat.zero_lt_succ _
  have unlabelled : i.caseLabels.length = 0 ∨ operation bytes = 0xaa ∨ operation bytes = 0xab := by
    by_cases none : i.caseLabels = []
    · exact .inl (by rw [none]; rfl)
    · exact .inr (switches none)
  simp only [assignments, branches, conditions, List.countP_singleton, List.flatMap_singleton,
    assigns, calls, jumps]
  split <;> split <;> split <;> omega

theorem counts_singleton (i : Instruction) :
    counts [i] = ⟨.ofNat (if i.isAssignment then 1 else 0), .ofNat (if i.isBranch then 1 else 0),
      .ofNat ((if i.isConditionalJump then 1 else 0) + i.caseLabels.length)⟩ := by
  unfold counts assignments branches conditions
  rw [List.countP_singleton, List.countP_singleton, List.countP_singleton, List.flatMap_singleton]

theorem ofInstruction_variableAt (opcode index : Nat) :
    Abc.ofInstruction (.variableAt opcode index) = counts [.variableAt opcode index] := by
  have store : Opcode.isStore opcode = (variableAt opcode index).isAssignment := by
    rw [Bool.eq_iff_iff]
    simp [Opcode.isStore, isAssignment]
    omega
  show (if Opcode.isStore opcode = true then _ else _) = _
  rw [counts_singleton, store]
  cases (variableAt opcode index).isAssignment <;> rfl

theorem ofInstruction_jump (opcode : Nat) (target : Int) :
    Abc.ofInstruction (.jump opcode target) = counts [.jump opcode target] := by
  have conditional : Opcode.isUnconditionalJump opcode =
      !(jump opcode target).isConditionalJump := by
    rw [Bool.eq_iff_iff]
    simp [Opcode.isUnconditionalJump, isConditionalJump]
    omega
  show (if Opcode.isUnconditionalJump opcode = true then _ else _) = _
  rw [counts_singleton, conditional]
  cases (jump opcode target).isConditionalJump <;> rfl

/-- What an encoded instruction counts. The opcode of a call is one of the four, and a dense switch
has as many targets as labels. -/
theorem Encoding.ofInstruction_eq (encoded : Encoding pool pc bytes i) :
    Abc.ofInstruction i = counts [i] := by
  rcases encoded with ⟨layout, operands⟩
  cases operands with
  | short opcode index => exact ofInstruction_variableAt opcode index
  | variableIndex index => exact ofInstruction_variableAt _ _
  | wideVariable index named => exact ofInstruction_variableAt _ _
  | branch offset => exact ofInstruction_jump _ _
  | wideBranch offset => exact ofInstruction_jump _ _
  | tableSwitch otherwise low high offsets padded ordered count =>
    have labels : offsets.length = (high.toInt - low.toInt + 1).toNat := by omega
    rw [counts_singleton]
    simp [Abc.ofInstruction, isAssignment, isBranch, isConditionalJump, caseLabels, labels]
  | lookupSwitch otherwise count pairs padded counted =>
    rw [counts_singleton]
    simp [Abc.ofInstruction, isAssignment, isBranch, isConditionalJump, caseLabels]
  | method padded member =>
    rename_i op _ _ _ _
    have call : op.toNat ∈ [0xb6, 0xb7, 0xb8, 0xb9] := by
      simp [Opcode.HasLayout] at layout ⊢
      omega
    rw [counts_singleton]
    simp [Abc.ofInstruction, isAssignment, isBranch, isConditionalJump, caseLabels, call]
  | typeUse named =>
    rename_i op _ _
    show (if op.toNat = 0xbb then _ else _) = _
    rw [counts_singleton]
    by_cases allocation : op.toNat = 0xbb
    · simp [allocation, isAssignment, isBranch, isConditionalJump, caseLabels]
    · simp [allocation, isAssignment, isBranch, isConditionalJump, caseLabels, Abc.zero]
  | _ => rfl

/-! ## Counting a code array -/

theorem Sequence.ofInstructions_eq {is : List Instruction} (encoded : Sequence pool pc bytes is)
    (v : Abc) :
    is.foldl (fun v i => v + Abc.ofInstruction i) v = v + counts is := by
  induction encoded generalizing v with
  | nil pc => exact (Abc.add_zero v).symm
  | @cons pc front back i rest head later ih =>
    rw [List.foldl_cons, ih, head.ofInstruction_eq, Abc.add_assoc, ← counts_append,
      List.singleton_append]

/-- No code array counts more than its bytes. -/
theorem Sequence.counts_le {is : List Instruction} (encoded : Sequence pool pc bytes is) :
    assignments is + branches is + conditions is ≤ bytes.length := by
  induction encoded with
  | nil pc => exact Nat.le_refl 0
  | @cons pc front back i rest head later ih =>
    have first := head.counts_le
    rw [← List.singleton_append, assignments_append, branches_append,
      conditions_append, List.length_append]
    omega

end

end Instruction

end JarMetrics
