import JarMetrics.Metrics.Abc
import JarMetrics.Proofs.Decoding

/-!
# The forms of instructions on local variables

A load or a store has up to three forms: a short one for the variables 0 to 3, one with an index of
a byte and one behind `wide`; returns from subroutines and increments have the last two. A form that
is longer moves all that follows, and with it changes the padding of switches and what a relative
jump has to say. `Operation` is an instruction without its form and without its targets,
`Operation.Form` says by which bytes it can be written at an offset, and `Operation.Body` puts such
bytes one after the other.

One form is decoded to the operation or, where a look-up in the pool fails, ends the decoding
(`Form.encoding`, `Form.stuck`). By `Body.decodeFrom` a body delivers the events of its operations
up to the first that fails, so two bodies of the same operations are alike up to targets:
`decodeAll_bodies`.
-/

namespace JarMetrics

open ClassFile (ConstantPool)

/-! ## Targets -/

/-- An instruction with 0 for its targets. How many targets there are stays. -/
def Instruction.untargeted : Instruction → Instruction
  | .jump opcode _ => .jump opcode 0
  | .tableSwitch low high _ targets => .tableSwitch low high 0 (targets.map fun _ => 0)
  | .lookupSwitch _ keys targets => .lookupSwitch 0 keys (targets.map fun _ => 0)
  | i => i

namespace Abc

theorem ofInstruction_untargeted (i : Instruction) :
    ofInstruction i.untargeted = ofInstruction i := by
  cases i with
  | tableSwitch low high otherwise targets =>
    show (⟨0, 0, .ofNat (targets.map fun _ => (0 : Int)).length⟩ : Abc) =
      ⟨0, 0, .ofNat targets.length⟩
    rw [List.length_map]
  | lookupSwitch otherwise keys targets =>
    show (⟨0, 0, .ofNat (targets.map fun _ => (0 : Int)).length⟩ : Abc) =
      ⟨0, 0, .ofNat targets.length⟩
    rw [List.length_map]
  | _ => rfl

theorem ofInstructions_untargeted (is : List Instruction) :
    ofInstructions (is.map Instruction.untargeted) = ofInstructions is := by
  unfold ofInstructions
  simp only [List.foldl_map, ofInstruction_untargeted]

end Abc

/-! ## Operations -/

/-- An instruction without the form in which it is written and without its targets. -/
inductive Operation
  /-- A load, a store or a return from a subroutine. -/
  | access (opcode : UInt8) (index : UInt16)
  | increment (index : UInt16) (amount : Int16)
  | jump (opcode : UInt8)
  | tableSwitch (low high : Int32)
  | lookupSwitch (keys : List Int32)
  /-- Any other instruction, with its operands as they are. -/
  | other (opcode : UInt8) (operands : List UInt8)
  deriving Repr, DecidableEq

/-- The number of operand bytes, where the layout fixes it and the operands do not depend on the
offset. -/
def Layout.width? : Layout → Option Nat
  | .bare => some 0
  | .immediate width | .constantIndex width => some width
  | .fieldRef | .typeRef => some 2
  | .methodRef padding => some (2 + padding)
  | .dynamicCall => some 4
  | .multiArray => some 3
  | _ => none

namespace Operation

/-- The bytes by which an operation can be written at `pc`. Jumps and switches may go anywhere. -/
inductive Form (pc : Nat) : Operation → List UInt8 → Prop
  | short {op opcode : UInt8} {index : UInt16} :
      Opcode.HasLayout op.toNat (.short opcode.toNat index.toNat) →
      Form pc (.access opcode index) [op]
  | indexed {opcode : UInt8} (index : UInt8) : Opcode.IsVariable opcode.toNat →
      Form pc (.access opcode index.toUInt16) [opcode, index]
  | wide {opcode : UInt8} (index : UInt16) : Opcode.IsVariable opcode.toNat →
      Form pc (.access opcode index) (0xc4 :: opcode :: twoBytes index)
  | increment (index : UInt8) (amount : Int8) :
      Form pc (.increment index.toUInt16 amount.toInt16) [0x84, index, amount.toUInt8]
  | wideIncrement (index : UInt16) (amount : Int16) :
      Form pc (.increment index amount) (0xc4 :: 0x84 :: twoBytes index ++ twoBytes amount.toUInt16)
  | jump {opcode : UInt8} {offset : List UInt8} :
      Opcode.HasLayout opcode.toNat (.branch offset.length) →
      Form pc (.jump opcode) (opcode :: offset)
  | tableSwitch {padding : List UInt8} (otherwise low high : Int32) (offsets : List Int32) :
      IsSwitchPadding pc padding → low.toInt ≤ high.toInt →
      (offsets.length : Int) = high.toInt - low.toInt + 1 →
      Form pc (.tableSwitch low high)
        (0xaa :: (padding ++ fourBytes otherwise.toUInt32 ++ fourBytes low.toUInt32 ++
            fourBytes high.toUInt32 ++
          offsets.flatMap fun offset => fourBytes offset.toUInt32))
  | lookupSwitch {padding : List UInt8} (otherwise count : Int32) (pairs : List (Int32 × Int32)) :
      IsSwitchPadding pc padding → count.toInt = pairs.length →
      Form pc (.lookupSwitch (pairs.map Prod.fst))
        (0xab :: (padding ++ fourBytes otherwise.toUInt32 ++ fourBytes count.toUInt32 ++
          pairs.flatMap fun pair => fourBytes pair.1.toUInt32 ++ fourBytes pair.2.toUInt32))
  | other {opcode : UInt8} {operands : List UInt8} {layout : Layout} :
      Opcode.HasLayout opcode.toNat layout →
      layout.width? = some operands.length → Form pc (.other opcode operands) (opcode :: operands)

/-- Code from `pc` on in which operations are written one after the other, each in one of its
forms. -/
inductive Body : Nat → List Operation → List UInt8 → Prop
  | nil (pc : Nat) : Body pc [] []
  | cons {pc : Nat} {op : Operation} {ops : List Operation} {front back : List UInt8} :
      Form pc op front → Body (pc + front.length) ops back → Body pc (op :: ops) (front ++ back)

/-- What an operation is decoded to, up to targets. An operation with one form only is decoded to
what it is decoded to by itself, which may be nothing. -/
def event? (pool : ConstantPool) : Operation → Option Instruction
  | .access opcode index => some (.variableAt opcode.toNat index.toNat)
  | .increment index amount => some (.increment index.toNat amount.toInt)
  | .jump opcode => some (.jump opcode.toNat 0)
  | .tableSwitch low high =>
      some (.tableSwitch low.toInt high.toInt 0
        (List.replicate (high.toInt - low.toInt + 1).toNat 0))
  | .lookupSwitch keys => some (.lookupSwitch 0 (keys.map Int32.toInt) (keys.map fun _ => 0))
  | .other opcode operands =>
      (Instruction.decode pool (.ofList (opcode :: operands))).toOption.map Prod.fst

/-- The events of operations up to the first that is decoded to nothing. -/
def events (pool : ConstantPool) : List Operation → List Instruction
  | [] => []
  | op :: ops =>
      match op.event? pool with
      | some i => i :: events pool ops
      | none => []

end Operation

/-! ## Instructions of one form -/

theorem Opcode.layout_unique {op : UInt8} {layout layout' : Layout}
    (known : HasLayout op.toNat layout) (known' : HasLayout op.toNat layout') : layout = layout' :=
  (ofOpcode_eq op.toNat_lt known).symm.trans (ofOpcode_eq op.toNat_lt known')

namespace Instruction

variable {pool : ConstantPool} {pc : Nat}

/-- Operands whose number is fixed mean the same everywhere, and no target. -/
theorem Operands.of_width {op width : Nat} {layout : Layout} {operands : List UInt8}
    {i : Instruction} (derived : Operands pool pc op layout operands i)
    (fixed : layout.width? = some width) :
    operands.length = width ∧ i.untargeted = i ∧ ∀ pc', Operands pool pc' op layout operands i := by
  cases derived with
  | bare => exact ⟨Option.some.inj fixed, rfl, fun _ => .bare⟩
  | byte value => exact ⟨Option.some.inj fixed, rfl, fun _ => .byte value⟩
  | shortValue value => exact ⟨Option.some.inj fixed, rfl, fun _ => .shortValue value⟩
  | constant index => exact ⟨Option.some.inj fixed, rfl, fun _ => .constant index⟩
  | wideConstant index => exact ⟨Option.some.inj fixed, rfl, fun _ => .wideConstant index⟩
  | field found => exact ⟨Option.some.inj fixed, rfl, fun _ => .field found⟩
  | method length found =>
    cases fixed
    exact ⟨by simp [length], rfl, fun _ => .method length found⟩
  | dynamicCall length found =>
    cases fixed
    exact ⟨by simp [length], rfl, fun _ => .dynamicCall length found⟩
  | typeUse found => exact ⟨Option.some.inj fixed, rfl, fun _ => .typeUse found⟩
  | multiArray dimensions found =>
    exact ⟨Option.some.inj fixed, rfl, fun _ => .multiArray dimensions found⟩
  | _ => cases fixed

section

variable {op : UInt8} {operands : List UInt8} {layout : Layout}
  (known : Opcode.HasLayout op.toNat layout) (fixed : layout.width? = some operands.length)

include known fixed

/-- Such an instruction is encoded in the same way at every offset. -/
theorem Encoding.anywhere {i : Instruction} (encoded : Encoding pool pc (op :: operands) i) :
    i.untargeted = i ∧ ∀ pc', Encoding pool pc' (op :: operands) i := by
  cases encoded with
  | intro known' derived =>
    obtain rfl := Opcode.layout_unique known known'
    obtain ⟨-, untargeted, anywhere⟩ := derived.of_width fixed
    exact ⟨untargeted, fun pc' => .intro known (anywhere pc')⟩

/-- Where it stands, no other instruction starts. -/
theorem Encoding.eq_of_width {front back back' : List UInt8} {i : Instruction}
    (encoded : Encoding pool pc front i) (stands : op :: operands ++ back = front ++ back') :
    front = op :: operands := by
  obtain ⟨known', derived⟩ := encoded
  obtain ⟨rfl, same⟩ := List.cons.inj stands
  obtain rfl := Opcode.layout_unique known known'
  -- the same opcode, so the same layout, and with it as many operands
  obtain ⟨rfl, -⟩ := List.append_inj same (derived.of_width fixed).1.symm
  rfl

theorem event?_other_iff {i : Instruction} :
    (Operation.other op operands).event? pool = some i ↔ Encoding pool pc (op :: operands) i := by
  show (decode pool (.ofList (op :: operands))).toOption.map Prod.fst = some i ↔ _
  constructor
  · intro decoded
    cases run : decode pool (.ofList (op :: operands)) with
    | error fault =>
      rw [run] at decoded
      cases decoded
    | ok pair =>
      rw [run] at decoded
      cases decoded
      obtain ⟨front, encoded, stands, -⟩ := (accepts_decode pool).mp run
      obtain rfl := encoded.eq_of_width known fixed ((List.append_nil _).trans stands)
      exact (encoded.anywhere known fixed).2 pc
  · intro encoded
    have run : decode pool (.ofList (op :: operands)) =
        .ok (i, ⟨0 + (op :: operands).length, []⟩) :=
      (accepts_decode pool).mpr ⟨_, (encoded.anywhere known fixed).2 0,
        (List.append_nil _).symm, rfl⟩
    rw [run]
    rfl

/-- Nor is it cut off. -/
theorem not_cutOff (back : List UInt8) (i : Instruction) :
    ¬ CutOff pc (op :: operands ++ back) i := by
  intro cut
  generalize stands : op :: operands ++ back = bytes at cut
  obtain ⟨known', cut⟩ := cut
  rename_i op' layout' left
  obtain ⟨rfl, same⟩ := List.cons.inj stands
  obtain rfl := Opcode.layout_unique known known'
  have enough : operands.length ≤ left.length := by
    rw [← same]
    exact List.length_append ▸ Nat.le_add_right _ _
  cases cut with
  | immediate short =>
    cases fixed
    omega
  | constantIndex short =>
    cases fixed
    omega
  | _ => cases fixed

end

end Instruction

namespace Operation

open Instruction (Encoding Sequence Stuck CutOff untargeted)

variable {pool : ConstantPool} {pc : Nat} {op : Operation} {bytes : List UInt8}

/-! ## One form -/

/-- A form of an operation with an event encodes that event, up to targets. -/
theorem Form.encoding {i : Instruction} (form : Form pc op bytes)
    (event : op.event? pool = some i) :
    ∃ j : Instruction, j.untargeted = i ∧ Encoding pool pc bytes j := by
  cases form with
  | short known =>
    cases event
    exact ⟨_, rfl, .intro known (.short _ _)⟩
  | indexed index accesses =>
    cases event
    refine ⟨_, ?_, .intro (show Opcode.HasLayout _ .variableIndex from accesses)
      (.variableIndex index)⟩
    rw [UInt8.toNat_toUInt16]
    rfl
  | wide index accesses =>
    cases event
    exact ⟨_, rfl, .intro (show Opcode.HasLayout 0xc4 .wide by decide)
      (.wideVariable index accesses)⟩
  | increment index amount =>
    cases event
    refine ⟨_, ?_, .intro (show Opcode.HasLayout 0x84 .increment by decide)
      (.increment index amount)⟩
    rw [UInt8.toNat_toUInt16, Int8.toInt_toInt16]
    rfl
  | wideIncrement index amount =>
    cases event
    exact ⟨_, rfl, .intro (show Opcode.HasLayout 0xc4 .wide by decide)
      (.wideIncrement index amount)⟩
  | @jump opcode offset known =>
    cases event
    have widths : offset.length = 2 ∨ offset.length = 4 := known.imp And.left And.left
    rcases widths with two | four
    · obtain ⟨value, rfl⟩ := (spells_int16.onto offset).mp two
      exact ⟨_, rfl, .intro (two ▸ known) (.branch value)⟩
    · obtain ⟨value, rfl⟩ := (spells_int32.onto offset).mp four
      exact ⟨_, rfl, .intro (four ▸ known) (.wideBranch value)⟩
  | tableSwitch otherwise low high offsets padded ordered count =>
    cases event
    refine ⟨_, ?_, .intro (show Opcode.HasLayout 0xaa .tableSwitch by decide)
      (.tableSwitch otherwise low high offsets padded ordered count)⟩
    have labels : (high.toInt - low.toInt + 1).toNat = offsets.length := by omega
    rw [labels, untargeted, List.map_map]
    simp [Function.comp_def, List.map_const']
  | lookupSwitch otherwise count pairs padded counted =>
    cases event
    refine ⟨_, ?_, .intro (show Opcode.HasLayout 0xab .lookupSwitch by decide)
      (.lookupSwitch otherwise count pairs padded counted)⟩
    simp [untargeted, Function.comp_def]
  | @other opcode operands _ known fixed =>
    have encoded : Encoding pool pc (opcode :: operands) i :=
      (Instruction.event?_other_iff known fixed).mp event
    exact ⟨i, (encoded.anywhere known fixed).1, encoded⟩

/-- A form of an operation without an event is no instruction, and nothing is reported of it. -/
theorem Form.stuck (form : Form pc op bytes) (nothing : op.event? pool = none) (back : List UInt8) :
    Stuck pool pc (bytes ++ back) ∧ ∀ i, ¬ CutOff pc (bytes ++ back) i := by
  -- only an operation with one form looks something up in the pool
  cases form with
  | other known fixed =>
    refine ⟨⟨List.cons_ne_nil _ _, fun front back' i stands encoded => ?_⟩,
      Instruction.not_cutOff known fixed back⟩
    obtain rfl := encoded.eq_of_width known fixed stands
    rw [(Instruction.event?_other_iff known fixed).mpr encoded] at nothing
    cases nothing
  | _ => cases nothing

/-- Every instruction is a form of an operation. -/
theorem exists_form {i : Instruction} (encoded : Encoding pool pc bytes i) :
    ∃ op, Form pc op bytes := by
  obtain ⟨known, derived⟩ := encoded
  rename_i opcode layout operands
  cases derived with
  | short target index =>
    have small : target < 256 ∧ index < 65536 := by
      obtain ⟨index, ⟨-, loads, -⟩ | ⟨-, stores, -⟩⟩ := known <;> omega
    refine ⟨.access (.ofNat target) (.ofNat index), .short ?_⟩
    rwa [UInt8.toNat_ofNat_of_lt' small.1, UInt16.toNat_ofNat_of_lt' small.2]
  | variableIndex index => exact ⟨_, .indexed index known⟩
  | increment index amount =>
    obtain rfl : opcode = 0x84 := UInt8.toNat_inj.mp known
    exact ⟨_, .increment index amount⟩
  | branch offset => exact ⟨_, .jump known⟩
  | wideBranch offset => exact ⟨_, .jump known⟩
  | tableSwitch otherwise low high offsets padded ordered count =>
    obtain rfl : opcode = 0xaa := UInt8.toNat_inj.mp known
    exact ⟨_, .tableSwitch otherwise low high offsets padded ordered count⟩
  | lookupSwitch otherwise count pairs padded counted =>
    obtain rfl : opcode = 0xab := UInt8.toNat_inj.mp known
    exact ⟨_, .lookupSwitch otherwise count pairs padded counted⟩
  | wideVariable index accesses =>
    obtain rfl : opcode = 0xc4 := UInt8.toNat_inj.mp known
    exact ⟨_, .wide index accesses⟩
  | wideIncrement index amount =>
    obtain rfl : opcode = 0xc4 := UInt8.toNat_inj.mp known
    exact ⟨_, .wideIncrement index amount⟩
  | method length found => exact ⟨_, .other known (by simp [Layout.width?, length])⟩
  | dynamicCall length found => exact ⟨_, .other known (by simp [Layout.width?, length])⟩
  | _ => exact ⟨_, .other known rfl⟩

/-! ## Bodies -/

theorem exists_body {is : List Instruction} {code : List UInt8}
    (encoded : Sequence pool pc code is) :
    ∃ ops, Body pc ops code := by
  induction encoded with
  | nil pc => exact ⟨[], .nil pc⟩
  | cons head _ ih =>
    obtain ⟨op, form⟩ := exists_form head
    obtain ⟨ops, body⟩ := ih
    exact ⟨op :: ops, .cons form body⟩

/-- A body is walked to its end or to the first operation without an event. -/
theorem Body.decodeFrom {ops : List Operation} {code : List UInt8} (pool : ConstantPool)
    (body : Body pc ops code) (done : Array Instruction) :
    (Instruction.decodeFrom pool ⟨pc, code⟩ done).instructions.map untargeted =
        done.toList.map untargeted ++ events pool ops ∧
      ((Instruction.decodeFrom pool ⟨pc, code⟩ done).failure = none ↔
        ∀ op ∈ ops, op.event? pool ≠ none) := by
  -- on the body; what was done before is only carried along, so that each form is met with an
  -- offset of its own
  induction body generalizing done with
  | nil pc =>
    rw [Instruction.decodeFrom_end]
    exact ⟨(List.append_nil _).symm,
      iff_of_true rfl (fun op member => absurd member List.not_mem_nil)⟩
  | @cons pc op ops front back form _ ih =>
    cases event : op.event? pool with
    | some i =>
      obtain ⟨j, same, encoded⟩ := form.encoding event
      rw [Instruction.decodeFrom_encoding encoded]
      obtain ⟨listed, ended⟩ := ih (done.push j)
      constructor
      · rw [listed, events, event]
        simp [same]
      · rw [ended, List.forall_mem_cons, event]
        simp
    | none =>
      obtain ⟨stuck, uncut⟩ := form.stuck event back
      obtain ⟨cut, described, error, walk⟩ := Instruction.decodeFrom_stuck stuck done
      have quiet : cut = none := by
        cases cut with
        | none => rfl
        | some i => exact absurd ((described i).mp rfl) (uncut i)
      rw [walk, quiet]
      constructor
      · rw [events, event]
        simp
      · exact iff_of_false (by simp) (fun all => all op List.mem_cons_self event)

theorem Body.decodeAll {ops : List Operation} {code : List UInt8} (pool : ConstantPool)
    (body : Body 0 ops code) :
    (Instruction.decodeAll pool code).instructions.map untargeted = events pool ops ∧
      ((Instruction.decodeAll pool code).failure = none ↔ ∀ op ∈ ops, op.event? pool ≠ none) :=
  body.decodeFrom pool #[]

/-- **The forms do not matter.** Every code array that is decoded without an error is a body of some
operations. Two bodies of the same operations deliver the same events up to targets, those of the
operations up to the first without one; either both end in an error or none does, and they have the
same vector. -/
theorem decodeAll_bodies (pool : ConstantPool) :
    (∀ code, (Instruction.decodeAll pool code).failure = none → ∃ ops, Body 0 ops code) ∧
    ∀ ops code code', Body 0 ops code → Body 0 ops code' →
      (Instruction.decodeAll pool code).instructions.map untargeted = events pool ops ∧
      (Instruction.decodeAll pool code).instructions.map untargeted =
        (Instruction.decodeAll pool code').instructions.map untargeted ∧
      ((Instruction.decodeAll pool code).failure = none ↔ ∀ op ∈ ops, op.event? pool ≠ none) ∧
      ((Instruction.decodeAll pool code).failure = none ↔
        (Instruction.decodeAll pool code').failure = none) ∧
      Abc.ofInstructions (Instruction.decodeAll pool code).instructions =
        Abc.ofInstructions (Instruction.decodeAll pool code').instructions := by
  constructor
  · intro code decoded
    exact exists_body (Instruction.sequence_of_decodes decoded)
  · intro ops code code' body body'
    obtain ⟨listed, ended⟩ := body.decodeAll pool
    obtain ⟨listed', ended'⟩ := body'.decodeAll pool
    have alike := listed.trans listed'.symm
    refine ⟨listed, alike, ended, ended.trans ended'.symm, ?_⟩
    rw [← Abc.ofInstructions_untargeted, alike, Abc.ofInstructions_untargeted]

/-- A load, a switch, an increment, a store and a return. -/
def sample : List Operation :=
  [.access 0x15 1, .tableSwitch (-1) 0, .increment 2 (-2), .access 0x3a 3, .other 0xb1 []]

/-- That sample in its shortest forms. Two bytes stand before the operands of the switch. -/
def shortSample : List UInt8 :=
  [0x1b, 0xaa, 9, 9, 0, 0, 0, 20, 255, 255, 255, 255, 0, 0, 0, 0, 0, 0, 0, 1, 255, 255, 255,
    255, 0x84, 2, 254, 0x4e, 0xb1]

/-- The same behind `wide`, but for the store. Three bytes stand before the operands of the
switch. -/
def wideSample : List UInt8 :=
  [0xc4, 0x15, 0, 1, 0xaa, 0, 0, 0, 0, 0, 0, 24, 255, 255, 255, 255, 0, 0, 0, 0, 0, 0, 0, 30,
    0, 0, 0, 32, 0xc4, 0x84, 0, 2, 255, 254, 0x3a, 3, 0xb1]

theorem body_shortSample : Body 0 sample shortSample := by
  have load : Form 0 (.access 0x15 1) [0x1b] := .short (by decide)
  have table : Form 1 (.tableSwitch (-1) 0)
      (0xaa :: ([9, 9] ++ fourBytes (20 : Int32).toUInt32 ++ fourBytes (-1 : Int32).toUInt32 ++
        fourBytes (0 : Int32).toUInt32 ++ [1, -1].flatMap fun offset : Int32 =>
          fourBytes offset.toUInt32)) :=
    .tableSwitch 20 (-1) 0 [1, -1] ⟨by decide, by decide⟩ (by decide) (by decide)
  have add : Form 24 (.increment 2 (-2)) [0x84, 2, 254] := .increment 2 (-2)
  have store : Form 27 (.access 0x3a 3) [0x4e] := .short (by decide)
  have done : Form 28 (.other 0xb1 []) [0xb1] :=
    .other (show Opcode.HasLayout 0xb1 .bare by decide) rfl
  exact .cons load (.cons table (.cons add (.cons store (.cons done (.nil 29)))))

theorem body_wideSample : Body 0 sample wideSample := by
  have load : Form 0 (.access 0x15 1) [0xc4, 0x15, 0, 1] := .wide 1 (.inl (by decide))
  have table : Form 4 (.tableSwitch (-1) 0)
      (0xaa :: ([0, 0, 0] ++ fourBytes (24 : Int32).toUInt32 ++ fourBytes (-1 : Int32).toUInt32 ++
        fourBytes (0 : Int32).toUInt32 ++ [30, 32].flatMap fun offset : Int32 =>
          fourBytes offset.toUInt32)) :=
    .tableSwitch 24 (-1) 0 [30, 32] ⟨by decide, by decide⟩ (by decide) (by decide)
  have add : Form 28 (.increment 2 (-2)) [0xc4, 0x84, 0, 2, 255, 254] := .wideIncrement 2 (-2)
  have store : Form 34 (.access 0x3a 3) [0x3a, 3] := .indexed 3 (.inr (.inl (by decide)))
  have done : Form 36 (.other 0xb1 []) [0xb1] :=
    .other (show Opcode.HasLayout 0xb1 .bare by decide) rfl
  exact .cons load (.cons table (.cons add (.cons store (.cons done (.nil 37)))))

theorem decodeAll_bodies_sample :
    (Instruction.decodeAll ⟨#[]⟩ shortSample).instructions.map untargeted =
        [.variableAt 0x15 1, .tableSwitch (-1) 0 0 [0, 0], .increment 2 (-2),
          .variableAt 0x3a 3, .plain 0xb1] ∧
      (Instruction.decodeAll ⟨#[]⟩ wideSample).instructions.map untargeted =
        (Instruction.decodeAll ⟨#[]⟩ shortSample).instructions.map untargeted ∧
      Abc.ofInstructions (Instruction.decodeAll ⟨#[]⟩ wideSample).instructions =
        Abc.ofInstructions (Instruction.decodeAll ⟨#[]⟩ shortSample).instructions := by
  obtain ⟨listed, alike, -, -, vectors⟩ :=
    (decodeAll_bodies ⟨#[]⟩).2 sample shortSample wideSample body_shortSample body_wideSample
  have evaluated : events ⟨#[]⟩ sample =
      [.variableAt 0x15 1, .tableSwitch (-1) 0 0 [0, 0], .increment 2 (-2),
        .variableAt 0x3a 3, .plain 0xb1] := by
    decide
  exact ⟨listed.trans evaluated, alike.symm, vectors.symm⟩

end Operation

end JarMetrics
