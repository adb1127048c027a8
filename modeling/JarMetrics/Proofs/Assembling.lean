import JarMetrics.Assembly.Code
import JarMetrics.Proofs.Encoding
import JarMetrics.Proofs.Interning

/-!
# Pieces are written as instructions

`Piece.instruction` is the instruction that a piece stands for at an offset, and `Piece.size` the
number of bytes it takes there. Assembling a piece behind as many bytes as the offset says gives the
encoding of that instruction (`interns_emit`): the padding of a switch, which the assembler finds
from the length of the code in front of it, ends where the decoder expects it, and the references in
the instruction stand for what they should. They still do when the pool has grown
(`stable_sequence`).
-/

namespace JarMetrics

open ClassFile (ConstantPool)

/-! ## Larger pools -/

namespace Instruction

variable {small large : ConstantPool} {pc : Nat}

theorem Operands.mono (grown : large.Extends small) {op : Nat} {layout : Layout}
    {bytes : List UInt8} {i : Instruction} (derived : Operands small pc op layout bytes i) :
    Operands large pc op layout bytes i := by
  cases derived with
  | bare => exact .bare
  | short opcode index => exact .short opcode index
  | variableIndex index => exact .variableIndex index
  | increment index amount => exact .increment index amount
  | byte value => exact .byte value
  | shortValue value => exact .shortValue value
  | constant index => exact .constant index
  | wideConstant index => exact .wideConstant index
  | branch offset => exact .branch offset
  | wideBranch offset => exact .wideBranch offset
  | tableSwitch otherwise low high offsets padded ordered count =>
    exact .tableSwitch otherwise low high offsets padded ordered count
  | lookupSwitch otherwise count pairs padded counted =>
    exact .lookupSwitch otherwise count pairs padded counted
  | field held => exact .field (grown.memberAt held)
  | method padded held => exact .method padded (grown.memberAt held)
  | dynamicCall padded held => exact .dynamicCall padded (grown.callSiteAt held)
  | typeUse held => exact .typeUse (grown.classAt held)
  | multiArray dimensions held => exact .multiArray dimensions (grown.classAt held)
  | wideVariable index target => exact .wideVariable index target
  | wideIncrement index amount => exact .wideIncrement index amount

theorem Encoding.mono (grown : large.Extends small) {bytes : List UInt8} {i : Instruction}
    (encoded : Encoding small pc bytes i) : Encoding large pc bytes i := by
  obtain ⟨layout, derived⟩ := encoded
  exact .intro layout (derived.mono grown)

theorem Sequence.mono (grown : large.Extends small) {bytes : List UInt8} {is : List Instruction}
    (encoded : Sequence small pc bytes is) : Sequence large pc bytes is := by
  induction encoded with
  | nil pc => exact .nil pc
  | cons first _ ih => exact .cons (first.mono grown) ih

/-- One more instruction at the end. -/
theorem Sequence.concat {pool : ConstantPool} {front back : List UInt8} {is : List Instruction}
    {i : Instruction} (encoded : Sequence pool pc front is)
    (last : Encoding pool (pc + front.length) back i) :
    Sequence pool pc (front ++ back) (is ++ [i]) := by
  induction encoded with
  | nil pc =>
    have single := Sequence.cons last (.nil _)
    rwa [List.append_nil] at single
  | cons first _ ih =>
    rw [List.append_assoc]
    refine .cons first (ih ?_)
    rwa [List.length_append, ← Nat.add_assoc] at last

end Instruction

namespace Assembly

/-! ## What a piece stands for -/

/-- Loads and stores that have the variable in the opcode. -/
def IsShort (op : Nat) : Prop := (0x1a ≤ op ∧ op ≤ 0x2d) ∨ (0x3b ≤ op ∧ op ≤ 0x4e)

instance (op : Nat) : Decidable (IsShort op) := inferInstanceAs (Decidable (_ ∨ _))

/-- The instruction of an opcode without operands. -/
def standalone (op : Nat) : Instruction :=
  if 0x1a ≤ op ∧ op ≤ 0x2d then .variableAt (0x15 + (op - 0x1a) / 4) ((op - 0x1a) % 4)
  else if 0x3b ≤ op ∧ op ≤ 0x4e then .variableAt (0x36 + (op - 0x3b) / 4) ((op - 0x3b) % 4)
  else .plain op

/-- How many cases a dense switch has. -/
def cases (low high : Int32) : Nat := (high.toInt - low.toInt + 1).toNat

namespace Piece

/-- The instruction that a piece stands for at `pc`. Switches jump to themselves. -/
def instruction (pc : Nat) : Piece → Instruction
  | .raw opcode _ => standalone opcode.toNat
  | .variableAt opcode index => .variableAt opcode.toNat index.toNat
  | .wideVariable opcode index => .variableAt opcode.toNat index.toNat
  | .increment index amount => .increment index.toNat amount.toInt
  | .wideIncrement index amount => .increment index.toNat amount.toInt
  | .invoke opcode owner name descriptor =>
      .invoke opcode.toNat ⟨owner, name, descriptor, opcode.toNat == Opcode.invokeInterface⟩
  | .invokeDynamic name descriptor => .invokeDynamic name descriptor
  | .typeUse opcode typeName => .typeUse opcode.toNat typeName
  | .jump opcode offset => .jump opcode.toNat (pc + offset.toInt)
  | .tableSwitch low high =>
      .tableSwitch low.toInt high.toInt pc (List.replicate (cases low high) (pc : Int))
  | .lookupSwitch keys =>
      .lookupSwitch pc (keys.map Int32.toInt) (List.replicate keys.length (pc : Int))

/-- The bytes that a piece takes at `pc`. The operands of a switch begin at a multiple of four. -/
def size (pc : Nat) : Piece → Nat
  | .raw _ operands => 1 + operands.length
  | .variableAt _ _ => 2
  | .wideVariable _ _ => 4
  | .increment _ _ => 3
  | .wideIncrement _ _ => 6
  | .invoke opcode _ _ _ => if opcode.toNat = Opcode.invokeInterface then 5 else 3
  | .invokeDynamic _ _ => 5
  | .typeUse _ _ => 3
  | .jump _ _ => 3
  | .tableSwitch low high => 1 + (3 - pc % 4) + 12 + 4 * cases low high
  | .lookupSwitch keys => 1 + (3 - pc % 4) + 8 + 8 * keys.length

/-- The piece is used for what it is there for. -/
def WellFormed : Piece → Prop
  | .raw opcode operands => operands = [] ∧ (Opcode.IsPlain opcode.toNat ∨ IsShort opcode.toNat)
  | .variableAt opcode _ | .wideVariable opcode _ => Opcode.IsVariable opcode.toNat
  | .increment _ _ | .wideIncrement _ _ => True
  | .invoke opcode owner name descriptor =>
      (0xb6 ≤ opcode.toNat ∧ opcode.toNat ≤ 0xb9) ∧
      (Reference.method owner name descriptor).WellFormed
  | .invokeDynamic name descriptor => (Reference.dynamicCall name descriptor).WellFormed
  | .typeUse opcode typeName => Opcode.HasLayout opcode.toNat .typeRef ∧ Writable typeName
  | .jump opcode _ => Opcode.HasLayout opcode.toNat (.branch 2)
  /- a count that ends at the largest number would never end -/
  | .tableSwitch low high => low.toInt ≤ high.toInt ∧ high.toInt < 0x7fffffff
  | .lookupSwitch _ => True

instance : (piece : Piece) → Decidable piece.WellFormed
  | .raw opcode operands =>
      inferInstanceAs
        (Decidable (operands = [] ∧ (Opcode.HasLayout opcode.toNat .bare ∨ IsShort opcode.toNat)))
  | .variableAt opcode _ | .wideVariable opcode _ =>
      inferInstanceAs (Decidable (Opcode.HasLayout opcode.toNat .variableIndex))
  | .increment _ _ | .wideIncrement _ _ | .lookupSwitch _ => inferInstanceAs (Decidable True)
  | .invoke _ owner name descriptor =>
      inferInstanceAs (Decidable ((_ ∧ _) ∧ (Reference.method owner name descriptor).WellFormed))
  | .invokeDynamic name descriptor =>
      inferInstanceAs (Decidable (Reference.dynamicCall name descriptor).WellFormed)
  | .typeUse opcode typeName =>
      inferInstanceAs (Decidable (Opcode.HasLayout opcode.toNat .typeRef ∧ Writable typeName))
  | .jump opcode _ => inferInstanceAs (Decidable (Opcode.HasLayout opcode.toNat (.branch 2)))
  | .tableSwitch low high =>
      inferInstanceAs (Decidable (low.toInt ≤ high.toInt ∧ high.toInt < 0x7fffffff))

end Piece

/-- An opcode without operands is the encoding of its instruction. -/
theorem encoding_standalone (table : ConstantPool) (pc : Nat) {op : UInt8}
    (alone : Opcode.IsPlain op.toNat ∨ IsShort op.toNat) :
    Instruction.Encoding table pc [op] (standalone op.toNat) := by
  unfold standalone
  by_cases load : 0x1a ≤ op.toNat ∧ op.toNat ≤ 0x2d
  · have layout :
        Opcode.HasLayout op.toNat (.short (0x15 + (op.toNat - 0x1a) / 4) ((op.toNat - 0x1a) % 4)) :=
      ⟨by omega, .inl ⟨by omega, by omega, by omega⟩⟩
    rw [if_pos load]
    exact .intro layout (.short _ _)
  · rw [if_neg load]
    by_cases store : 0x3b ≤ op.toNat ∧ op.toNat ≤ 0x4e
    · have layout :
          Opcode.HasLayout op.toNat
            (.short (0x36 + (op.toNat - 0x3b) / 4) ((op.toNat - 0x3b) % 4)) :=
        ⟨by omega, .inr ⟨by omega, by omega, by omega⟩⟩
      rw [if_pos store]
      exact .intro layout (.short _ _)
    · rw [if_neg store]
      have layout : Opcode.HasLayout op.toNat .bare :=
        alone.resolve_right fun short => short.elim load store
      exact .intro layout .bare

/-! ## Switches -/

theorem isSwitchPadding_padding (pc : Nat) : IsSwitchPadding pc (padding (pc + 1)) := by
  unfold IsSwitchPadding padding
  rw [List.length_replicate]
  omega

theorem length_padding (pc : Nat) : (padding (pc + 1)).length = 3 - pc % 4 := by
  unfold padding
  rw [List.length_replicate]
  omega

/-- The counter does not wrap below the largest number. -/
theorem toInt_succ {n : Int32} (below : n.toInt < 0x7fffffff) : (n + 1).toInt = n.toInt + 1 := by
  have lower := n.le_toInt
  rw [Int32.toInt_add, Int32.toInt_one]
  exact Int.bmod_eq_of_le (by omega) (by omega)

/-- The count ends behind `high`, unless that is the largest number. -/
theorem countUp_eq {low high : Int32} {left : Nat} (bounded : high.toInt < 0x7fffffff)
    (distance : low.toInt + left = high.toInt + 1) (done : Nat) {fuel : Nat}
    (enough : left < fuel) :
    countUp low high done fuel = some (done + left) := by
  induction left generalizing low done fuel with
  | zero =>
    obtain ⟨fuel, rfl⟩ := Nat.exists_eq_add_of_lt enough
    have past : ¬ low ≤ high := by
      rw [Int32.le_iff_toInt_le]
      omega
    rw [Nat.zero_add, countUp, if_neg past, Nat.add_zero]
  | succ left ih =>
    obtain ⟨fuel, rfl⟩ : ∃ n, fuel = n + 1 := ⟨fuel - 1, by omega⟩
    have inside : low ≤ high := by
      rw [Int32.le_iff_toInt_le]
      omega
    have next : (low + 1).toInt = low.toInt + 1 := toInt_succ (by omega)
    rw [countUp, if_pos inside, ih (by rw [next]; omega) (done + 1) (by omega)]
    congr 1
    omega

theorem flatMap_zeros (words : Nat) :
    (List.replicate words (0 : Int32)).flatMap (fun offset => fourBytes offset.toUInt32) =
      List.replicate (4 * words) 0 := by
  have word : fourBytes (0 : Int32).toUInt32 = List.replicate 4 0 := by decide
  rw [List.flatMap_replicate, word, List.flatten_replicate_replicate, Nat.mul_comm]

theorem tableSwitch_eq {low high : Int32} (ordered : low.toInt ≤ high.toInt)
    (bounded : high.toInt < 0x7fffffff) (pc : Nat) :
    tableSwitch pc low high =
      some (0xaa :: (padding (pc + 1) ++ fourBytes (0 : Int32).toUInt32 ++ fourBytes low.toUInt32 ++
        fourBytes high.toUInt32 ++
        (List.replicate (cases low high) (0 : Int32)).flatMap fun offset =>
          fourBytes offset.toUInt32)) := by
  have lower := low.le_toInt
  have counted : countUp low high 0 0x100000001 = some (0 + cases low high) :=
    countUp_eq bounded (by unfold cases; omega) 0 (by unfold cases; omega)
  unfold tableSwitch
  rw [counted, Option.map_some, Nat.zero_add, flatMap_zeros]
  rfl

theorem encoding_tableSwitch {low high : Int32} (ordered : low.toInt ≤ high.toInt) (pc : Nat)
    (table : ConstantPool) :
    Instruction.Encoding table pc
      (0xaa :: (padding (pc + 1) ++ fourBytes (0 : Int32).toUInt32 ++ fourBytes low.toUInt32 ++
        fourBytes high.toUInt32 ++
        (List.replicate (cases low high) (0 : Int32)).flatMap fun offset =>
          fourBytes offset.toUInt32))
      (Piece.instruction pc (.tableSwitch low high)) := by
  have layout : Opcode.HasLayout (0xaa : UInt8).toNat .tableSwitch := rfl
  have count : ((List.replicate (cases low high) (0 : Int32)).length : Int) =
      high.toInt - low.toInt + 1 := by
    rw [List.length_replicate]
    unfold cases
    omega
  have derived : Instruction.Operands table pc (0xaa : UInt8).toNat .tableSwitch _ _ :=
    .tableSwitch 0 low high _ (isSwitchPadding_padding pc) ordered count
  rw [List.map_replicate, Int32.toInt_zero, Int.add_zero] at derived
  exact .intro layout derived

theorem encoding_lookupSwitch (pc : Nat) (table : ConstantPool) {keys : List Int32}
    (few : keys.length < 0x80000000) :
    Instruction.Encoding table pc (lookupSwitch pc keys)
      (Piece.instruction pc (.lookupSwitch keys)) := by
  have layout : Opcode.HasLayout (0xab : UInt8).toNat .lookupSwitch := rfl
  have count : (Int32.ofNat keys.length).toInt =
      ((keys.map fun key => (key, (0 : Int32))).length : Int) := by
    rw [List.length_map]
    exact Int32.toInt_ofNat_of_lt few
  have derived : Instruction.Operands table pc (0xab : UInt8).toNat .lookupSwitch _ _ :=
    .lookupSwitch 0 _ _ (isSwitchPadding_padding pc) count
  have written : fourBytes (Int32.ofNat keys.length).toUInt32 = u4 keys.length := by
    have fits : keys.length < UInt32.size := Nat.lt_trans few (by decide)
    unfold fourBytes u4
    rw [Int32.toUInt32_ofNat', UInt32.toNat_ofNat_of_lt' fits]
  have targets : (keys.map fun key => (key, (0 : Int32))).map
      (fun pair => (pc : Int) + pair.2.toInt) =
      List.replicate keys.length (pc : Int) := by
    simp [Function.comp_def, List.map_const']
  rw [written, targets, Int32.toInt_zero, Int.add_zero, List.map_map, List.flatMap_map] at derived
  exact .intro layout derived

theorem length_lookupSwitch (pc : Nat) (keys : List Int32) :
    (lookupSwitch pc keys).length = Piece.size pc (.lookupSwitch keys) := by
  have pairs : (keys.flatMap fun key => u4 key.toUInt32.toNat ++ u4 0).length =
      8 * keys.length := by
    simp [List.length_flatMap, u4, List.map_const', Nat.mul_comm]
  simp only [lookupSwitch, Piece.size, List.length_cons, List.length_append, length_padding, u4,
    length_toBigEndian] at pairs ⊢
  rw [pairs]
  omega

/-! ## All pieces -/

/-- The bytes are those of the piece at `pc`. A body that is too long for its length to be written
may hold a switch with too many keys for their number to be written. -/
def Piece.Written (piece : Piece) (pc : Nat) (bytes : List UInt8) (table : ConstantPool) : Prop :=
  bytes.length = piece.size pc ∧
    (bytes.length < 0x100000000 → Instruction.Encoding table pc bytes (piece.instruction pc))

/-- Assembling a piece writes its instruction. -/
theorem interns_emit {piece : Piece} (h : piece.WellFormed) (pc : Nat) :
    ∃ write : Pool → List UInt8 × Pool, (∀ pool, piece.emit pool pc = some (write pool)) ∧
      Interns (fun _ => True) write (piece.Written pc) := by
  cases piece with
  | raw opcode operands =>
    obtain ⟨rfl, alone⟩ := h
    exact ⟨_, fun _ => rfl, .pure fun table _ => ⟨rfl, fun _ => encoding_standalone table pc alone⟩⟩
  | variableAt opcode index =>
    have layout : Opcode.HasLayout opcode.toNat .variableIndex := h
    exact ⟨_, fun _ => rfl, .pure fun table _ =>
      ⟨rfl, fun _ => .intro layout (.variableIndex index)⟩⟩
  | wideVariable opcode index =>
    have layout : Opcode.HasLayout (0xc4 : UInt8).toNat .wide := rfl
    exact ⟨_, fun _ => rfl, .pure fun table _ =>
      ⟨rfl, fun _ => .intro layout (.wideVariable index h)⟩⟩
  | increment index amount =>
    have layout : Opcode.HasLayout (0x84 : UInt8).toNat .increment := rfl
    exact ⟨_, fun _ => rfl, .pure fun table _ =>
      ⟨rfl, fun _ => .intro layout (.increment index amount)⟩⟩
  | wideIncrement index amount =>
    have layout : Opcode.HasLayout (0xc4 : UInt8).toNat .wide := rfl
    exact ⟨_, fun _ => rfl, .pure fun table _ =>
      ⟨rfl, fun _ => .intro layout (.wideIncrement index amount)⟩⟩
  | invoke opcode owner name descriptor =>
    obtain ⟨⟨lower, upper⟩, named⟩ := h
    refine ⟨fun pool => (opcode ::
        u2 (pool.methodRef (opcode.toNat == Opcode.invokeInterface) owner name descriptor).1 ++
          (if opcode.toNat == Opcode.invokeInterface then [1, 0] else []),
        (pool.methodRef (opcode.toNat == Opcode.invokeInterface) owner name descriptor).2),
      fun _ => rfl, ?_⟩
    refine (interns_methodRef _ named.separated named.writable).map
      (fun index => opcode :: u2 index ++
        (if opcode.toNat == Opcode.invokeInterface then [1, 0] else []))
      fun index table member => ?_
    by_cases ofInterface : opcode.toNat = Opcode.invokeInterface
    · have layout : Opcode.HasLayout opcode.toNat (.methodRef 2) := .inr ⟨rfl, ofInterface⟩
      rw [if_pos (beq_iff_eq.mpr ofInterface)]
      exact ⟨by simp [Piece.size, ofInterface, u2], fun _ => .intro layout (.method rfl member)⟩
    · have layout : Opcode.HasLayout opcode.toNat (.methodRef 0) := by
        unfold Opcode.invokeInterface at ofInterface
        exact .inl ⟨rfl, lower, by omega⟩
      rw [if_neg (mt beq_iff_eq.mp ofInterface)]
      exact ⟨by simp [Piece.size, ofInterface, u2], fun _ => .intro layout (.method rfl member)⟩
  | invokeDynamic name descriptor =>
    have layout : Opcode.HasLayout (0xba : UInt8).toNat .dynamicCall := rfl
    refine ⟨fun pool => (0xba :: u2 (pool.dynamicCall name descriptor).1 ++ [0, 0],
      (pool.dynamicCall name descriptor).2), fun _ => rfl, ?_⟩
    refine (interns_dynamicCall h.separated h.writable).map
      (fun index => 0xba :: u2 index ++ [0, 0])
      fun index table site => ?_
    exact ⟨rfl, fun _ => .intro layout (.dynamicCall rfl site)⟩
  | typeUse opcode typeName =>
    obtain ⟨layout, writable⟩ := h
    refine ⟨fun pool => (opcode :: u2 (pool.classRef typeName).1, (pool.classRef typeName).2),
      fun _ => rfl, ?_⟩
    refine (interns_classRef writable).map (fun index => opcode :: u2 index)
      fun index table named => ?_
    exact ⟨rfl, fun _ => .intro layout (.typeUse named)⟩
  | jump opcode offset =>
    have layout : Opcode.HasLayout opcode.toNat (.branch 2) := h
    exact ⟨_, fun _ => rfl, .pure fun table _ => ⟨rfl, fun _ => .intro layout (.branch offset)⟩⟩
  | tableSwitch low high =>
    obtain ⟨ordered, bounded⟩ := h
    refine ⟨_, fun _ => congrArg (Option.map _) (tableSwitch_eq ordered bounded pc),
      .pure fun table _ => ?_⟩
    refine ⟨?_, fun _ => encoding_tableSwitch ordered pc table⟩
    rw [flatMap_zeros]
    simp [Piece.size, length_padding]
    omega
  | lookupSwitch keys =>
    refine ⟨_, fun _ => rfl, .pure fun table _ => ⟨length_lookupSwitch pc keys, fun short => ?_⟩⟩
    refine encoding_lookupSwitch pc table ?_
    rw [length_lookupSwitch] at short
    simp only [Piece.size] at short
    omega

end Assembly

end JarMetrics
