import JarMetrics.Instruction.Decoder
import JarMetrics.Proofs.Constants
import JarMetrics.Proofs.Grammar
import JarMetrics.Proofs.Numbers

/-!
# The encoding of instructions

What a code array has to look like, said without reading it. `Opcode.HasLayout` is the table of
opcodes, `Instruction.Operands` says which bytes each layout admits behind the opcode, and
`Instruction.Encoding` puts the two together. A code array is a concatenation of encodings, each at
the offset where it stands: `Instruction.Sequence`. Offsets matter because switches are padded to a
multiple of four and jumps are relative.

`Instruction.CutOff` describes the one kind of incomplete instruction that is reported all the same.
-/

namespace JarMetrics

open ClassFile (ConstantPool)

/-! ## Opcodes -/

namespace Opcode

/-- Opcodes that stand alone: constants, array accesses, stack and arithmetic operations,
conversions, comparisons, returns, array lengths, throws and monitors. -/
def IsPlain (op : Nat) : Prop :=
  op ≤ 0x0f ∨ (0x2e ≤ op ∧ op ≤ 0x35) ∨ (0x4f ≤ op ∧ op ≤ 0x83) ∨ (0x85 ≤ op ∧ op ≤ 0x98) ∨
    (0xac ≤ op ∧ op ≤ 0xb1) ∨ op = 0xbe ∨ op = 0xbf ∨ op = 0xc2 ∨ op = 0xc3

/-- Loads, stores and the return from a subroutine. -/
def IsVariable (op : Nat) : Prop :=
  (0x15 ≤ op ∧ op ≤ 0x19) ∨ (0x36 ≤ op ∧ op ≤ 0x3a) ∨ op = 0xa9

/-- The opcodes of each layout. Together they are the opcodes 0x00 to 0xc9. -/
def HasLayout (op : Nat) : Layout → Prop
  | .bare => IsPlain op
  /- loads and stores of five types on the variables 0 to 3 -/
  | .short opcode index => index < 4 ∧
      ((0x15 ≤ opcode ∧ opcode ≤ 0x19 ∧ op = 0x1a + 4 * (opcode - 0x15) + index) ∨
        (0x36 ≤ opcode ∧ opcode ≤ 0x3a ∧ op = 0x3b + 4 * (opcode - 0x36) + index))
  | .variableIndex => IsVariable op
  | .increment => op = 0x84
  | .immediate width => (width = 1 ∧ (op = 0x10 ∨ op = 0xbc)) ∨ (width = 2 ∧ op = 0x11)
  | .constantIndex width => (width = 1 ∧ op = 0x12) ∨ (width = 2 ∧ (op = 0x13 ∨ op = 0x14))
  | .branch width => (width = 2 ∧ ((0x99 ≤ op ∧ op ≤ 0xa8) ∨ op = 0xc6 ∨ op = 0xc7)) ∨
      (width = 4 ∧ (op = 0xc8 ∨ op = 0xc9))
  | .tableSwitch => op = 0xaa
  | .lookupSwitch => op = 0xab
  | .fieldRef => 0xb2 ≤ op ∧ op ≤ 0xb5
  | .methodRef padding => (padding = 0 ∧ 0xb6 ≤ op ∧ op ≤ 0xb8) ∨ (padding = 2 ∧ op = 0xb9)
  | .dynamicCall => op = 0xba
  | .typeRef => op = 0xbb ∨ op = 0xbd ∨ op = 0xc0 ∨ op = 0xc1
  | .multiArray => op = 0xc5
  | .wide => op = 0xc4
  | .undefined => False

instance (op : Nat) : (layout : Layout) → Decidable (HasLayout op layout)
  | .bare => inferInstanceAs (Decidable (_ ∨ _))
  | .short _ _ => inferInstanceAs (Decidable (_ ∧ _))
  | .variableIndex => inferInstanceAs (Decidable (_ ∨ _))
  | .immediate _ | .constantIndex _ | .branch _ | .methodRef _ | .typeRef =>
      inferInstanceAs (Decidable (_ ∨ _))
  | .fieldRef => inferInstanceAs (Decidable (_ ∧ _))
  | .increment | .tableSwitch | .lookupSwitch | .dynamicCall | .multiArray | .wide =>
      inferInstanceAs (Decidable (_ = _))
  | .undefined => inferInstanceAs (Decidable False)

end Opcode

/-! ## Operands -/

/-- Padding behind the opcode at `pc` that ends at the next multiple of four from the start of the
code. -/
def IsSwitchPadding (pc : Nat) (padding : List UInt8) : Prop :=
  padding.length < 4 ∧ (pc + 1 + padding.length) % 4 = 0

/-- The entries of a dense switch take four bytes each. -/
theorem length_switchOffsets (offsets : List Int32) :
    (offsets.flatMap fun offset => fourBytes offset.toUInt32).length = offsets.length * 4 :=
  Grammar.length_flatMap_of_length (fun offset => length_fourBytes offset.toUInt32) offsets

/-- The entries of a sorted switch take eight bytes each. -/
theorem length_switchPairs (pairs : List (Int32 × Int32)) :
    (pairs.flatMap fun pair => fourBytes pair.1.toUInt32 ++ fourBytes pair.2.toUInt32).length =
      pairs.length * 8 :=
  Grammar.length_flatMap_of_length (fun pair => by simp) pairs

namespace Instruction

/-- The operands that each layout admits, and the instruction that opcode `op` at `pc` makes of
them. -/
inductive Operands (pool : ConstantPool) (pc op : Nat) : Layout → List UInt8 → Instruction → Prop
  | bare : Operands pool pc op .bare [] (.plain op)
  | short (opcode index : Nat) :
      Operands pool pc op (.short opcode index) [] (.variableAt opcode index)
  | variableIndex (index : UInt8) :
      Operands pool pc op .variableIndex [index] (.variableAt op index.toNat)
  | increment (index : UInt8) (amount : Int8) :
      Operands pool pc op .increment [index, amount.toUInt8] (.increment index.toNat amount.toInt)
  | byte (value : Int8) : Operands pool pc op (.immediate 1) [value.toUInt8] (.push op value.toInt)
  | shortValue (value : Int16) :
      Operands pool pc op (.immediate 2) (twoBytes value.toUInt16) (.push op value.toInt)
  | constant (index : UInt8) : Operands pool pc op (.constantIndex 1) [index]
      (.constant op index.toNat)
  | wideConstant (index : UInt16) :
      Operands pool pc op (.constantIndex 2) (twoBytes index) (.constant op index.toNat)
  | branch (offset : Int16) :
      Operands pool pc op (.branch 2) (twoBytes offset.toUInt16) (.jump op (pc + offset.toInt))
  | wideBranch (offset : Int32) :
      Operands pool pc op (.branch 4) (fourBytes offset.toUInt32) (.jump op (pc + offset.toInt))
  /-- One offset for each number from `low` to `high`. -/
  | tableSwitch {padding : List UInt8} (otherwise low high : Int32) (offsets : List Int32) :
      IsSwitchPadding pc padding → low.toInt ≤ high.toInt →
      (offsets.length : Int) = high.toInt - low.toInt + 1 →
      Operands pool pc op .tableSwitch
        (padding ++ fourBytes otherwise.toUInt32 ++ fourBytes low.toUInt32 ++
            fourBytes high.toUInt32 ++
          offsets.flatMap fun offset => fourBytes offset.toUInt32)
        (.tableSwitch low.toInt high.toInt (pc + otherwise.toInt)
          (offsets.map fun offset => pc + offset.toInt))
  /-- A number of pairs that is not negative, and the pairs of key and offset. -/
  | lookupSwitch {padding : List UInt8} (otherwise count : Int32) (pairs : List (Int32 × Int32)) :
      IsSwitchPadding pc padding → count.toInt = pairs.length →
      Operands pool pc op .lookupSwitch
        (padding ++ fourBytes otherwise.toUInt32 ++ fourBytes count.toUInt32 ++
          pairs.flatMap fun pair => fourBytes pair.1.toUInt32 ++ fourBytes pair.2.toUInt32)
        (.lookupSwitch (pc + otherwise.toInt) (pairs.map fun pair => pair.1.toInt)
          (pairs.map fun pair => pc + pair.2.toInt))
  | field {index : UInt16} {member : ClassFile.MemberRef} : pool.MemberAt index member →
      Operands pool pc op .fieldRef (twoBytes index) (.field op member)
  | method {index : UInt16} {member : ClassFile.MemberRef} {padding : List UInt8} {count : Nat} :
      padding.length = count → pool.MemberAt index member →
      Operands pool pc op (.methodRef count) (twoBytes index ++ padding) (.invoke op member)
  | dynamicCall {index : UInt16} {name descriptor : String} {padding : List UInt8} :
      padding.length = 2 → pool.CallSiteAt index name descriptor →
      Operands pool pc op .dynamicCall (twoBytes index ++ padding) (.invokeDynamic name descriptor)
  | typeUse {index : UInt16} {name : String} : pool.ClassAt index name →
      Operands pool pc op .typeRef (twoBytes index) (.typeUse op name)
  | multiArray {index : UInt16} {name : String} (dimensions : UInt8) : pool.ClassAt index name →
      Operands pool pc op .multiArray (twoBytes index ++ [dimensions])
        (.multiArray name dimensions.toNat)
  | wideVariable {target : UInt8} (index : UInt16) : Opcode.IsVariable target.toNat →
      Operands pool pc op .wide (target :: twoBytes index) (.variableAt target.toNat index.toNat)
  | wideIncrement (index : UInt16) (amount : Int16) :
      Operands pool pc op .wide (0x84 :: twoBytes index ++ twoBytes amount.toUInt16)
        (.increment index.toNat amount.toInt)

/-- The complete encoding of one instruction at `pc`. -/
inductive Encoding (pool : ConstantPool) (pc : Nat) : Grammar Instruction
  | intro {op : UInt8} {layout : Layout} {operands : List UInt8} {i : Instruction} :
      Opcode.HasLayout op.toNat layout → Operands pool pc op.toNat layout operands i →
      Encoding pool pc (op :: operands) i

/-- A concatenation of encodings that starts at `pc`, and the instructions in order. -/
inductive Sequence (pool : ConstantPool) : Nat → List UInt8 → List Instruction → Prop
  | nil (pc : Nat) : Sequence pool pc [] []
  | cons {pc : Nat} {front back : List UInt8} {i : Instruction} {rest : List Instruction} :
      Encoding pool pc front i → Sequence pool (pc + front.length) back rest →
      Sequence pool pc (front ++ back) (i :: rest)

/-- What the end of the code may leave of a simple operand, and the instruction that opcode `op` at
`pc` makes with 0 for what is missing. -/
inductive OperandsCutOff (pc op : Nat) : Layout → List UInt8 → Instruction → Prop
  | variableIndex : OperandsCutOff pc op .variableIndex [] (.variableAt op 0)
  | increment : OperandsCutOff pc op .increment [] (.increment 0 0)
  | amount (index : UInt8) : OperandsCutOff pc op .increment [index] (.increment index.toNat 0)
  | immediate {width : Nat} {left : List UInt8} : left.length < width →
      OperandsCutOff pc op (.immediate width) left (.push op 0)
  | constantIndex {width : Nat} {left : List UInt8} : left.length < width →
      OperandsCutOff pc op (.constantIndex width) left (.constant op 0)
  | branch {width : Nat} {left : List UInt8} : left.length < width →
      OperandsCutOff pc op (.branch width) left (.jump op pc)

/-- An instruction with a simple operand that is cut off by the end of the code. -/
inductive CutOff (pc : Nat) : Grammar Instruction
  | intro {op : UInt8} {layout : Layout} {left : List UInt8} {i : Instruction} :
      Opcode.HasLayout op.toNat layout → OperandsCutOff pc op.toNat layout left i →
      CutOff pc (op :: left) i

/-- Bytes are left at `pc`, but no instruction starts there. -/
def Stuck (pool : ConstantPool) (pc : Nat) (rest : List UInt8) : Prop :=
  rest ≠ [] ∧ ∀ front back i, rest = front ++ back → ¬ Encoding pool pc front i

end Instruction

/-! ## The table of opcodes -/

namespace Opcode

/-- Every opcode up to 0xc9 has a layout, and the decoder looks it up. -/
theorem hasLayout_ofOpcode {op : Nat} (defined : op ≤ 0xc9) : HasLayout op (.ofOpcode op) := by
  revert op
  decide +kernel

/-- There are no opcodes above 0xc9. -/
theorem ofOpcode_undefined {op : Nat} (byte : op < 256) (undefined : 0xc9 < op) :
    Layout.ofOpcode op = .undefined := by
  revert op
  decide +kernel

/-- No opcode has two layouts. -/
theorem ofOpcode_eq {op : Nat} {layout : Layout} (byte : op < 256) (h : HasLayout op layout) :
    Layout.ofOpcode op = layout := by
  cases layout with
  | short opcode index =>
    have loads : ∀ type < 5, ∀ slot < 4,
        Layout.ofOpcode (0x1a + 4 * type + slot) = .short (0x15 + type) slot := by decide +kernel
    have stores : ∀ type < 5, ∀ slot < 4,
        Layout.ofOpcode (0x3b + 4 * type + slot) = .short (0x36 + type) slot := by decide +kernel
    obtain ⟨small, ⟨low, high, rfl⟩ | ⟨low, high, rfl⟩⟩ := h
    · rw [loads (opcode - 0x15) (by omega) index small,
        show 0x15 + (opcode - 0x15) = opcode by omega]
    · rw [stores (opcode - 0x36) (by omega) index small,
        show 0x36 + (opcode - 0x36) = opcode by omega]
  | immediate width =>
    obtain ⟨rfl, rfl | rfl⟩ | ⟨rfl, rfl⟩ := h <;> rfl
  | constantIndex width =>
    obtain ⟨rfl, rfl⟩ | ⟨rfl, rfl | rfl⟩ := h <;> rfl
  | branch width =>
    obtain ⟨rfl, h⟩ | ⟨rfl, h⟩ := h <;> revert op <;> decide +kernel
  | methodRef padding =>
    obtain ⟨rfl, h⟩ | ⟨rfl, h⟩ := h <;> revert op <;> decide +kernel
  | _ => revert op; decide +kernel

end Opcode

end JarMetrics
