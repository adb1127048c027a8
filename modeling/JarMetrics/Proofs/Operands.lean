import JarMetrics.Proofs.Encoding

/-!
# Operand readers

The reader of each layout accepts exactly the operands that the layout admits:
`accepts_readOperands`. The layouts that look something up in the pool accept an index only if it
stands for a constant of the kind they need. The two switches look ahead before they read their
tables, which makes no difference to what they accept.
-/

namespace JarMetrics

open ClassFile (ConstantPool Error Place)
open Grammar CodeReader

/-! ## Single operands -/

theorem accepts_number (width : Nat) :
    Accepts (number width) (fun bytes value => bytes.length = width ∧ value = bigEndian bytes) := by
  apply Accepts.of_take
  · intro c bytes d taken
    unfold number
    rw [taken]
  · intro c cut taken
    unfold number
    rw [taken]
    exact ⟨_, rfl⟩

theorem accepts_lenient (width : Nat) (build : Nat → Instruction) :
    Accepts (lenient width build) (fun bytes i => bytes.length = width ∧
      i = build (bigEndian bytes)) := by
  apply Accepts.of_take
  · intro c bytes d taken
    unfold lenient
    rw [taken]
  · intro c cut taken
    unfold lenient
    rw [taken]
    exact ⟨_, rfl⟩

theorem accepts_lenient_uint8 (build : Nat → Instruction) :
    Accepts (lenient 1 build) (fun bytes i => ∃ n : UInt8, bytes = [n] ∧ i = build n.toNat) :=
  (accepts_lenient 1 build).congr fun _ _ => spells_uint8.exists_iff build

theorem accepts_lenient_uint16 (build : Nat → Instruction) :
    Accepts (lenient 2 build) (fun bytes i => ∃ n : UInt16,
      bytes = twoBytes n ∧ i = build n.toNat) :=
  (accepts_lenient 2 build).congr fun _ _ => spells_uint16.exists_iff build

theorem accepts_lenient_int8 (build : Int → Instruction) :
    Accepts (lenient 1 fun value => build (signed 8 value))
      (fun bytes i => ∃ n : Int8, bytes = [n.toUInt8] ∧ i = build n.toInt) :=
  (accepts_lenient 1 _).congr fun _ _ => spells_int8.exists_iff build

theorem accepts_lenient_int16 (build : Int → Instruction) :
    Accepts (lenient 2 fun value => build (signed 16 value))
      (fun bytes i => ∃ n : Int16, bytes = twoBytes n.toUInt16 ∧ i = build n.toInt) :=
  (accepts_lenient 2 _).congr fun _ _ => spells_int16.exists_iff build

theorem accepts_lenient_int32 (build : Int → Instruction) :
    Accepts (lenient 4 fun value => build (signed 32 value))
      (fun bytes i => ∃ n : Int32, bytes = fourBytes n.toUInt32 ∧ i = build n.toInt) :=
  (accepts_lenient 4 _).congr fun _ _ => spells_int32.exists_iff build

theorem accepts_byte :
    Accepts (number 1) (fun bytes value => ∃ byte : UInt8, bytes = [byte] ∧ value = byte.toNat) :=
  (accepts_number 1).congr fun _ _ => spells_uint8.exists_iff fun n => n

theorem accepts_index :
    Accepts (number 2) (fun bytes value => ∃ index : UInt16, bytes = twoBytes index ∧
      value = index.toNat) :=
  (accepts_number 2).congr fun _ _ => spells_uint16.exists_iff fun n => n

theorem accepts_signedNumber (width : Nat) :
    Accepts (signedNumber width)
      (fun bytes value => bytes.length = width ∧ value = signed (8 * width) (bigEndian bytes)) := by
  refine ((accepts_number width).map (signed (8 * width))).congr fun bytes value => ?_
  constructor
  · rintro ⟨-, ⟨length, rfl⟩, rfl⟩
    exact ⟨length, rfl⟩
  · rintro ⟨length, rfl⟩
    exact ⟨_, ⟨length, rfl⟩, rfl⟩

theorem accepts_signedShort :
    Accepts (signedNumber 2)
      (fun bytes value => ∃ n : Int16, bytes = twoBytes n.toUInt16 ∧ value = n.toInt) :=
  (accepts_signedNumber 2).congr fun _ _ => spells_int16.exists_iff fun n => n

theorem accepts_signedWord :
    Accepts (signedNumber 4)
      (image (fun _ => True) (fun n : Int32 => fourBytes n.toUInt32) Int32.toInt) := by
  refine (accepts_signedNumber 4).congr fun bytes value =>
    (spells_int32.exists_iff fun n => n).trans ?_
  simp only [image, true_and]

/-- A pool look-up takes no bytes and yields what the index stands for. -/
theorem accepts_resolved {α β : Type} {find : UInt16 → Except Error α} (Stands : UInt16 → α → Prop)
    (agrees : ∀ {index value}, find index = .ok value ↔ Stands index value) (place : Place)
    (index : Nat) (build : α → β) :
    Accepts (resolved place (find (.ofNat index)) >>= fun value => pure (build value))
      (fun bytes found => bytes = [] ∧ ∃ value, Stands (.ofNat index) value ∧
        found = build value) := by
  have lookup : Accepts (resolved place (find (.ofNat index)))
      (fun bytes value => bytes = [] ∧ Stands (.ofNat index) value) := by
    simp only [← agrees]
    cases find (.ofNat index) with
    | error error =>
      refine (Accepts.throw (⟨none, .within place error⟩ : Fault)).congr fun bytes value => ?_
      simp
    | ok value =>
      refine (Accepts.pure value).congr fun bytes found => ?_
      constructor
      · rintro ⟨rfl, rfl⟩
        exact ⟨rfl, rfl⟩
      · rintro ⟨rfl, ⟨⟩⟩
        exact ⟨rfl, rfl⟩
  refine (lookup.map build).congr fun bytes found => ?_
  constructor
  · rintro ⟨value, ⟨rfl, stands⟩, rfl⟩
    exact ⟨rfl, value, stands, rfl⟩
  · rintro ⟨rfl, value, stands, rfl⟩
    exact ⟨value, ⟨rfl, stands⟩, rfl⟩

/-- An index and the look-up of what it stands for. -/
theorem accepts_lookup {α β : Type} {find : UInt16 → Except Error α} (Stands : UInt16 → α → Prop)
    (agrees : ∀ {index value}, find index = .ok value ↔ Stands index value) (place : Place)
    (build : α → β) :
    Accepts (number 2 >>= fun index => resolved place (find (.ofNat index)) >>=
        fun value => pure (build value))
      (fun bytes found => ∃ index value, bytes = twoBytes index ∧ Stands index value ∧
        found = build value) := by
  refine (accepts_index.bind fun index => accepts_resolved Stands agrees place index build).congr
    fun bytes found => ?_
  constructor
  · rintro ⟨-, -, -, rfl, ⟨index, rfl, rfl⟩, rfl, value, stands, rfl⟩
    rw [UInt16.ofNat_toNat] at stands
    exact ⟨index, value, List.append_nil _, stands, rfl⟩
  · rintro ⟨index, value, rfl, stands, rfl⟩
    have stands : Stands (.ofNat index.toNat) value := by rwa [UInt16.ofNat_toNat]
    exact ⟨_, [], _, (List.append_nil _).symm, ⟨index, rfl, rfl⟩, rfl, value, stands, rfl⟩

/-- An index, some bytes that are passed by, and the look-up of what the index stands for. -/
theorem accepts_paddedLookup {α β : Type} {find : UInt16 → Except Error α}
    (Stands : UInt16 → α → Prop)
    (agrees : ∀ {index value}, find index = .ok value ↔ Stands index value) (padding : Nat)
    (place : Place) (build : α → β) :
    Accepts (number 2 >>= fun index => number padding >>= fun _ =>
        resolved place (find (.ofNat index)) >>= fun value => pure (build value))
      (fun bytes found => ∃ index skipped value, bytes = twoBytes index ++ skipped ∧
        skipped.length = padding ∧ Stands index value ∧ found = build value) := by
  refine (accepts_index.bind fun index => (accepts_number padding).bind fun _ =>
    accepts_resolved Stands agrees place index build).congr fun bytes found => ?_
  constructor
  · rintro ⟨-, -, -, rfl, ⟨index, rfl, rfl⟩, skipped, -, -, rfl, ⟨length, -⟩,
      rfl, value, stands, rfl⟩
    rw [UInt16.ofNat_toNat] at stands
    exact ⟨index, skipped, value, by rw [List.append_nil], length, stands, rfl⟩
  · rintro ⟨index, skipped, value, rfl, length, stands, rfl⟩
    have stands : Stands (.ofNat index.toNat) value := by rwa [UInt16.ofNat_toNat]
    exact ⟨_, _, _, rfl, ⟨index, rfl, rfl⟩, _, [], _, (List.append_nil _).symm, ⟨length, rfl⟩, rfl,
      value, stands, rfl⟩

/-! ## Counted lists -/

/-- Reading `count` items one after the other. -/
theorem accepts_repeat {α : Type} {read : CodeReader α} {item : Grammar α}
    (accepts : Accepts read item) (count : Nat) (done : List α) :
    Accepts (CodeReader.repeatN read count done) (loop item count done) := by
  induction count generalizing done with
  | zero => exact (Accepts.pure done.reverse).congr fun _ _ => loop_zero_iff.symm
  | succ count ih =>
    exact (accepts.bind fun value => ih (value :: done)).congr fun _ _ => loop_succ_iff.symm

/-- Reading `count` encodings one after the other. -/
theorem accepts_repeat_image {α β : Type} {read : CodeReader α} {encode : β → List UInt8}
    {meaning : β → α} (accepts : Accepts read (image (fun _ => True) encode meaning))
    (count : Nat) :
    Accepts (CodeReader.repeatN read count [])
      (fun bytes values => ∃ items : List β, items.length = count ∧
      bytes = items.flatMap encode ∧ values = items.map meaning) := by
  refine (accepts_repeat accepts count []).congr fun bytes values => ?_
  rw [loop_nil_iff, many_image_iff]
  constructor
  · rintro ⟨⟨items, -, rfl, rfl⟩, length⟩
    exact ⟨items, by rwa [List.length_map] at length, rfl, rfl⟩
  · rintro ⟨items, length, rfl, rfl⟩
    exact ⟨⟨items, fun _ _ => trivial, rfl, rfl⟩, by rwa [List.length_map]⟩

/-- Looking ahead changes nothing when what follows takes the bytes anyway. -/
theorem Accepts.require {α : Type} {count : Nat} {next : CodeReader α} {grammar : Grammar α}
    (accepts : Accepts next grammar)
    (long : ∀ bytes value, grammar bytes value → bytes.length = count) :
    Accepts (CodeReader.require count >>= fun _ => next) grammar := by
  intro c value d
  rw [bind_eq_ok_iff, ← accepts c value d]
  unfold CodeReader.require
  constructor
  · rintro ⟨nothing, m, looked, run⟩
    cases taken : c.take count with
    | error cut =>
      rw [taken] at looked
      cases looked
    | ok pair =>
      rw [taken] at looked
      cases looked
      exact run
  · intro run
    -- what was read shows that the bytes looked for are there
    obtain ⟨bytes, derived, rest, offset⟩ := (accepts c value d).mp run
    have length := long bytes value derived
    refine ⟨(), c, ?_, run⟩
    rw [Cursor.take_eq_ok_iff.mpr ⟨rest, length, length ▸ offset⟩]

/-! ## Switches -/

theorem isSwitchPadding_iff {pc : Nat} {padding : List UInt8} :
    IsSwitchPadding pc padding ↔ padding.length = switchPadding pc := by
  unfold IsSwitchPadding switchPadding
  omega

theorem accepts_readTableSwitch (pool : ConstantPool) (pc op : Nat) :
    Accepts (readTableSwitch pc) (Instruction.Operands pool pc op .tableSwitch) := by
  have targets := accepts_repeat_image accepts_signedWord
  unfold readTableSwitch
  refine ((accepts_number _).bind fun _ => accepts_signedWord.bind fun otherwise =>
    accepts_signedWord.bind fun low => accepts_signedWord.bind fun high =>
    Accepts.ite (Accepts.throw _) (((targets _).map _).require ?_)).congr fun bytes i => ?_
  · rintro bytes i ⟨values, ⟨offsets, length, rfl, rfl⟩, -⟩
    rw [length_flatMap_of_length (fun offset => length_fourBytes _), length]
  · constructor
    · rintro ⟨padding, -, padded, rfl, ⟨length, -⟩, -, -, -, rfl,
        ⟨otherwise, -, rfl, rfl⟩, -, -, -, rfl, ⟨low, -, rfl, rfl⟩, -, last, -,
        rfl, ⟨high, -, rfl, rfl⟩, ⟨-, ⟨⟩⟩ | ⟨ordered, -, ⟨offsets, count, rfl, rfl⟩, rfl⟩⟩
      -- `ordered` is that the reader did not refuse the bounds, and `count` how many targets it
      -- then asked for
      rw [List.map_map]
      simp only [← List.append_assoc]
      exact .tableSwitch otherwise low high offsets
        (isSwitchPadding_iff.mpr length) (by omega) (by omega)
    · intro derived
      cases derived with
      | @tableSwitch padding otherwise low high offsets padded ordered dense =>
        simp only [List.append_assoc]
        refine ⟨padding, _, _, rfl, ⟨isSwitchPadding_iff.mp padded, rfl⟩,
          _, _, _, rfl, ⟨otherwise, trivial, rfl, rfl⟩, _, _, _, rfl,
          ⟨low, trivial, rfl, rfl⟩, _, _, _, rfl, ⟨high, trivial, rfl, rfl⟩,
          .inr ⟨by omega, _, ⟨offsets, by omega, rfl, rfl⟩, ?_⟩⟩
        rw [List.map_map]
        rfl

/-- A key and the offset that belongs to it. -/
theorem accepts_switchPair :
    Accepts (do return (← signedNumber 4, ← signedNumber 4) : CodeReader (Int × Int))
      (image (fun _ => True)
        (fun pair : Int32 × Int32 => fourBytes pair.1.toUInt32 ++ fourBytes pair.2.toUInt32)
        (fun pair => (pair.1.toInt, pair.2.toInt))) := by
  refine (accepts_signedWord.bind fun key => accepts_signedWord.map _).congr fun bytes value => ?_
  constructor
  · rintro ⟨-, -, -, rfl, ⟨key, -, rfl, rfl⟩, -, ⟨offset, -, rfl, rfl⟩, rfl⟩
    exact ⟨(key, offset), trivial, rfl, rfl⟩
  · rintro ⟨⟨key, offset⟩, -, rfl, rfl⟩
    exact ⟨_, _, _, rfl, ⟨key, trivial, rfl, rfl⟩, _, ⟨offset, trivial, rfl, rfl⟩, rfl⟩

theorem accepts_readLookupSwitch (pool : ConstantPool) (pc op : Nat) :
    Accepts (readLookupSwitch pc) (Instruction.Operands pool pc op .lookupSwitch) := by
  have entries := accepts_repeat_image accepts_switchPair
  unfold readLookupSwitch
  refine ((accepts_number _).bind fun _ => accepts_signedWord.bind fun otherwise =>
    accepts_signedWord.bind fun count =>
    Accepts.ite (Accepts.throw _) (((entries _).map _).require ?_)).congr fun bytes i => ?_
  · rintro bytes i ⟨values, ⟨pairs, length, rfl, rfl⟩, -⟩
    rw [length_flatMap_of_length (fun pair => show _ = 8 by simp), length]
  · constructor
    · rintro ⟨padding, -, padded, rfl, ⟨length, -⟩, -, -, -, rfl,
        ⟨otherwise, -, rfl, rfl⟩, -, last, -, rfl, ⟨count, -, rfl, rfl⟩,
        ⟨-, ⟨⟩⟩ | ⟨positive, -, ⟨pairs, counted, rfl, rfl⟩, rfl⟩⟩
      rw [List.map_map, List.map_map]
      simp only [← List.append_assoc]
      exact .lookupSwitch otherwise count pairs (isSwitchPadding_iff.mpr length) (by omega)
    · intro derived
      cases derived with
      | @lookupSwitch padding otherwise count pairs padded counted =>
        simp only [List.append_assoc]
        refine ⟨padding, _, _, rfl, ⟨isSwitchPadding_iff.mp padded, rfl⟩,
          _, _, _, rfl, ⟨otherwise, trivial, rfl, rfl⟩, _, _, _, rfl, ⟨count, trivial, rfl, rfl⟩,
          .inr ⟨by omega, _, ⟨pairs, by omega, rfl, rfl⟩, ?_⟩⟩
        rw [List.map_map, List.map_map]
        rfl

/-! ## Operands of every layout -/

theorem isVariable_iff {op : Nat} : Opcode.IsVariable op ↔ Opcode.hasVariable op = true := by
  simp only [Opcode.IsVariable, Opcode.hasVariable, Opcode.isLoad, Opcode.isStore, Opcode.ret,
    Bool.or_eq_true, Bool.and_eq_true, decide_eq_true_eq, beq_iff_eq]
  omega

theorem accepts_readWide (pool : ConstantPool) (pc op : Nat) :
    Accepts (inWide pc readWide) (Instruction.Operands pool pc op .wide) := by
  unfold inWide readWide
  refine (Accepts.mapError (accepts_byte.bind fun target => accepts_index.bind fun index =>
    Accepts.ite (accepts_signedShort.map _)
      (Accepts.ite (Accepts.pure _) (Accepts.throw _))) _).congr
    fun bytes i => ?_
  constructor
  · rintro ⟨-, -, -, rfl, ⟨target, rfl, rfl⟩, -, last, -, rfl, ⟨index, rfl, rfl⟩,
      ⟨increments, -, ⟨amount, rfl, rfl⟩, rfl⟩ | ⟨-, ⟨named, rfl, rfl⟩ | ⟨-, ⟨⟩⟩⟩⟩
    · rw [show target = 0x84 from UInt8.toNat_inj.mp increments]
      exact .wideIncrement index amount
    · rw [List.append_nil]
      exact .wideVariable index (isVariable_iff.mpr named)
  · intro derived
    cases derived with
    | @wideVariable target index named =>
      have other : target.toNat ≠ Opcode.iinc := by
        unfold Opcode.IsVariable at named
        unfold Opcode.iinc
        omega
      exact ⟨[target], _, _, rfl, ⟨target, rfl, rfl⟩, _, [], _,
        (List.append_nil _).symm, ⟨index, rfl, rfl⟩,
        .inr ⟨other, .inl ⟨isVariable_iff.mp named, rfl, rfl⟩⟩⟩
    | wideIncrement index amount =>
      exact ⟨[0x84], _, _, rfl, ⟨0x84, rfl, rfl⟩, _, _, _, rfl, ⟨index, rfl, rfl⟩,
        .inl ⟨rfl, _, ⟨amount, rfl, rfl⟩, rfl⟩⟩

theorem accepts_increment (pool : ConstantPool) (pc op : Nat) :
    Accepts (readOperands pool pc op .increment) (Instruction.Operands pool pc op .increment) := by
  -- without its index the instruction is reported too, but what is accepted is a byte and then
  -- another
  have same : ∀ c i d, readOperands pool pc op .increment c = .ok (i, d) ↔
      (number 1 >>= fun index => lenient 1 fun amount => .increment index (signed 8 amount)) c =
        .ok (i, d) := by
    intro c i d
    rw [bind_eq_ok_iff]
    unfold readOperands number
    cases taken : c.take 1 with
    | error cut => simp [taken]
    | ok pair =>
      simp only [taken, Except.ok.injEq, Prod.mk.injEq]
      constructor
      · intro run
        exact ⟨_, _, ⟨rfl, rfl⟩, run⟩
      · rintro ⟨middle, m, ⟨rfl, rfl⟩, run⟩
        exact run
  intro c i d
  rw [same]
  refine ((accepts_byte.bind fun index => accepts_lenient_int8 _).congr fun bytes i => ?_) c i d
  constructor
  · rintro ⟨-, -, -, rfl, ⟨index, rfl, rfl⟩, amount, rfl, rfl⟩
    exact .increment index amount
  · intro derived
    cases derived with
    | increment index amount => exact ⟨[index], _, _, rfl, ⟨index, rfl, rfl⟩, amount, rfl, rfl⟩

theorem accepts_immediate (pool : ConstantPool) (pc : Nat) {op width : Nat}
    (h : Opcode.HasLayout op (.immediate width)) :
    Accepts (readOperands pool pc op (.immediate width))
      (Instruction.Operands pool pc op (.immediate width)) := by
  obtain ⟨rfl, -⟩ | ⟨rfl, -⟩ := h
  · refine (accepts_lenient_int8 (.push op)).congr fun bytes i => ?_
    constructor
    · rintro ⟨value, rfl, rfl⟩
      exact .byte value
    · intro derived
      cases derived with
      | byte value => exact ⟨value, rfl, rfl⟩
  · refine (accepts_lenient_int16 (.push op)).congr fun bytes i => ?_
    constructor
    · rintro ⟨value, rfl, rfl⟩
      exact .shortValue value
    · intro derived
      cases derived with
      | shortValue value => exact ⟨value, rfl, rfl⟩

theorem accepts_constantIndex (pool : ConstantPool) (pc : Nat) {op width : Nat}
    (h : Opcode.HasLayout op (.constantIndex width)) :
    Accepts (readOperands pool pc op (.constantIndex width))
      (Instruction.Operands pool pc op (.constantIndex width)) := by
  obtain ⟨rfl, -⟩ | ⟨rfl, -⟩ := h
  · refine (accepts_lenient_uint8 (.constant op)).congr fun bytes i => ?_
    constructor
    · rintro ⟨index, rfl, rfl⟩
      exact .constant index
    · intro derived
      cases derived with
      | constant index => exact ⟨index, rfl, rfl⟩
  · refine (accepts_lenient_uint16 (.constant op)).congr fun bytes i => ?_
    constructor
    · rintro ⟨index, rfl, rfl⟩
      exact .wideConstant index
    · intro derived
      cases derived with
      | wideConstant index => exact ⟨index, rfl, rfl⟩

theorem accepts_branch (pool : ConstantPool) (pc : Nat) {op width : Nat}
    (h : Opcode.HasLayout op (.branch width)) :
    Accepts (readOperands pool pc op (.branch width))
      (Instruction.Operands pool pc op (.branch width)) := by
  obtain ⟨rfl, -⟩ | ⟨rfl, -⟩ := h
  · refine (accepts_lenient_int16 fun offset => .jump op (pc + offset)).congr fun bytes i => ?_
    constructor
    · rintro ⟨offset, rfl, rfl⟩
      exact .branch offset
    · intro derived
      cases derived with
      | branch offset => exact ⟨offset, rfl, rfl⟩
  · refine (accepts_lenient_int32 fun offset => .jump op (pc + offset)).congr fun bytes i => ?_
    constructor
    · rintro ⟨offset, rfl, rfl⟩
      exact .wideBranch offset
    · intro derived
      cases derived with
      | wideBranch offset => exact ⟨offset, rfl, rfl⟩

theorem accepts_fieldRef (pool : ConstantPool) (pc op : Nat) :
    Accepts (readOperands pool pc op .fieldRef) (Instruction.Operands pool pc op .fieldRef) := by
  refine (accepts_lookup pool.MemberAt ConstantPool.memberRef_eq_ok_iff _ _).congr fun bytes i => ?_
  constructor
  · rintro ⟨index, member, rfl, found, rfl⟩
    exact .field found
  · intro derived
    cases derived with
    | field found => exact ⟨_, _, rfl, found, rfl⟩

theorem accepts_methodRef (pool : ConstantPool) (pc op padding : Nat) :
    Accepts (readOperands pool pc op (.methodRef padding))
      (Instruction.Operands pool pc op (.methodRef padding)) := by
  refine (accepts_paddedLookup pool.MemberAt ConstantPool.memberRef_eq_ok_iff padding _ _).congr
    fun bytes i => ?_
  constructor
  · rintro ⟨index, skipped, member, rfl, length, found, rfl⟩
    exact .method length found
  · intro derived
    cases derived with
    | method length found => exact ⟨_, _, _, rfl, length, found, rfl⟩

theorem accepts_dynamicCall (pool : ConstantPool) (pc op : Nat) :
    Accepts (readOperands pool pc op .dynamicCall)
      (Instruction.Operands pool pc op .dynamicCall) := by
  refine (accepts_paddedLookup (fun index pair => pool.CallSiteAt index pair.1 pair.2)
    ConstantPool.dynamicCall_eq_ok_iff 2 _ _).congr fun bytes i => ?_
  constructor
  · rintro ⟨index, skipped, site, rfl, length, found, rfl⟩
    exact .dynamicCall length found
  · intro derived
    cases derived with
    | dynamicCall length found => exact ⟨_, _, (_, _), rfl, length, found, rfl⟩

theorem accepts_typeRef (pool : ConstantPool) (pc op : Nat) :
    Accepts (readOperands pool pc op .typeRef) (Instruction.Operands pool pc op .typeRef) := by
  refine (accepts_lookup pool.ClassAt ConstantPool.className_eq_ok_iff _ _).congr fun bytes i => ?_
  constructor
  · rintro ⟨index, name, rfl, found, rfl⟩
    exact .typeUse found
  · intro derived
    cases derived with
    | typeUse found => exact ⟨_, _, rfl, found, rfl⟩

theorem accepts_multiArray (pool : ConstantPool) (pc op : Nat) :
    Accepts (readOperands pool pc op .multiArray)
      (Instruction.Operands pool pc op .multiArray) := by
  refine (accepts_index.bind fun index => accepts_byte.bind fun dimensions =>
    accepts_resolved _ ConstantPool.className_eq_ok_iff _ index _).congr fun bytes i => ?_
  constructor
  · rintro ⟨-, -, -, rfl, ⟨index, rfl, rfl⟩, -, -, -, rfl, ⟨dimensions, rfl, rfl⟩,
      rfl, name, found, rfl⟩
    rw [UInt16.ofNat_toNat] at found
    exact .multiArray dimensions found
  · intro derived
    cases derived with
    | @multiArray index name dimensions found =>
      exact ⟨_, _, _, rfl, ⟨index, rfl, rfl⟩, _, [], _, (List.append_nil _).symm,
        ⟨dimensions, rfl, rfl⟩, rfl, name, by rwa [UInt16.ofNat_toNat], rfl⟩

/-- The operand readers accept exactly the operands of their layout. -/
theorem accepts_readOperands (pool : ConstantPool) (pc : Nat) {op : Nat} {layout : Layout}
    (h : Opcode.HasLayout op layout) :
    Accepts (readOperands pool pc op layout) (Instruction.Operands pool pc op layout) := by
  cases layout with
  | bare =>
    refine (Accepts.pure (Instruction.plain op)).congr fun bytes i => ?_
    constructor
    · rintro ⟨rfl, rfl⟩
      exact .bare
    · rintro ⟨⟩
      exact ⟨rfl, rfl⟩
  | short opcode index =>
    refine (Accepts.pure (Instruction.variableAt opcode index)).congr fun bytes i => ?_
    constructor
    · rintro ⟨rfl, rfl⟩
      exact .short opcode index
    · rintro ⟨⟩
      exact ⟨rfl, rfl⟩
  | variableIndex =>
    refine (accepts_lenient_uint8 (.variableAt op)).congr fun bytes i => ?_
    constructor
    · rintro ⟨index, rfl, rfl⟩
      exact .variableIndex index
    · intro derived
      cases derived with
      | variableIndex index => exact ⟨index, rfl, rfl⟩
  | increment => exact accepts_increment pool pc op
  | immediate width => exact accepts_immediate pool pc h
  | constantIndex width => exact accepts_constantIndex pool pc h
  | branch width => exact accepts_branch pool pc h
  | tableSwitch => exact accepts_readTableSwitch pool pc op
  | lookupSwitch => exact accepts_readLookupSwitch pool pc op
  | fieldRef => exact accepts_fieldRef pool pc op
  | methodRef padding => exact accepts_methodRef pool pc op padding
  | dynamicCall => exact accepts_dynamicCall pool pc op
  | typeRef => exact accepts_typeRef pool pc op
  | multiArray => exact accepts_multiArray pool pc op
  | wide => exact accepts_readWide pool pc op
  | undefined => exact h.elim

end JarMetrics
