import JarMetrics.Metrics.ClassRecord
import JarMetrics.Proofs.Counting
import JarMetrics.Proofs.Decoding
import JarMetrics.Proofs.Parsing

/-!
# Class records are all or nothing

`ClassRecord.decode` gives a record exactly when the class file can be parsed and every method body
in it can be decoded, and the record then says what the file says (`decode_complete`): names, flags
and fields as declared, each signature once, and the counts of all bodies, where methods that share
a signature are counted each.

The builder takes events one by one. `foldl_methodEvents` says what the events of one method do to
it, and `foldl_methodsEvents` sums this up; a body that stops early stops the whole file
(`methodsEvents_failure_iff`), so its events never reach a record. `length_codes_le` bounds the
bytecode of a file by its bytes, and with it the counts.
-/

namespace JarMetrics

open ClassFile

/-! ## Bodies -/

namespace ClassFile

/-- The name and descriptor of a method. -/
def MethodDecl.signature (m : MethodDecl) : Signature :=
  { name := m.name, descriptor := m.descriptor }

/-- The instructions of a method; there are none when it has no body. -/
def MethodDecl.instructions (pool : ConstantPool) (m : MethodDecl) : List Instruction :=
  match m.code with
  | none => []
  | some code => (Instruction.decodeAll pool code).instructions

/-- The body of a method, if it has one, can be decoded to its end. -/
def MethodDecl.Decodes (pool : ConstantPool) (m : MethodDecl) : Prop :=
  ∀ code, m.code = some code → (Instruction.decodeAll pool code).failure = none

/-- The instructions of all methods, one method after the other. -/
def instructions (file : ClassFile) : List Instruction :=
  file.methods.flatMap (·.instructions file.pool)

/-- What the bodies count is bounded by their bytes. -/
theorem counts_instructions_le {pool : ConstantPool} {methods : List MethodDecl}
    (decoded : ∀ m ∈ methods, m.Decodes pool) :
    Instruction.assignments (methods.flatMap (·.instructions pool)) +
      Instruction.branches (methods.flatMap (·.instructions pool)) +
      Instruction.conditions (methods.flatMap (·.instructions pool)) ≤
      (methods.flatMap fun m => m.code.getD []).length := by
  induction methods with
  | nil => exact Nat.le_refl 0
  | cons m methods ih =>
    have later := ih fun m member => decoded m (List.mem_cons_of_mem _ member)
    have here : Instruction.assignments (m.instructions pool) +
        Instruction.branches (m.instructions pool) +
        Instruction.conditions (m.instructions pool) ≤ (m.code.getD []).length := by
      unfold MethodDecl.instructions
      cases body : m.code with
      | none => exact Nat.le_refl 0
      | some code =>
        exact (Instruction.sequence_of_decodes (decoded m List.mem_cons_self code body)).counts_le
    rw [List.flatMap_cons, Instruction.assignments_append, Instruction.branches_append,
      Instruction.conditions_append, List.flatMap_cons, List.length_append]
    omega

/-! ## The bytes of a file hold its bodies -/

theorem length_flatMap_le {α : Type} {part whole : α → List UInt8} (xs : List α)
    (inside : ∀ x ∈ xs, (part x).length ≤ (whole x).length) :
    (xs.flatMap part).length ≤ (xs.flatMap whole).length := by
  induction xs with
  | nil => exact Nat.le_refl 0
  | cons x xs ih =>
    have first := inside x List.mem_cons_self
    have later := ih fun y member => inside y (List.mem_cons_of_mem _ member)
    rw [List.flatMap_cons, List.flatMap_cons, List.length_append, List.length_append]
    omega

/-- The code of a method stands in one of its attributes. -/
theorem WrittenMember.length_code_le (pool : ConstantPool) (m : WrittenMember) :
    ((m.method pool).code.getD []).length ≤ m.encode.length := by
  show (((m.attributes.items.filter (·.isCode pool)).getLast?.map
    WrittenAttribute.code).getD []).length ≤ _
  cases last : (m.attributes.items.filter (·.isCode pool)).getLast? with
  | none => exact Nat.zero_le _
  | some a =>
    have among : a ∈ m.attributes.items := (List.mem_filter.mp (List.mem_of_getLast? last)).1
    have held : a.encode.length ≤ (m.attributes.items.flatMap WrittenAttribute.encode).length :=
      (List.sublist_flatten_of_mem (List.mem_map_of_mem among)).length_le
    have body : a.code.length ≤ a.encode.length := by
      simp only [WrittenAttribute.code, WrittenAttribute.encode,
        List.length_append, List.length_take, List.length_drop]
      omega
    simp only [WrittenMember.encode, Counted.encode, List.length_append,
      Option.map_some, Option.getD_some]
    omega

/-- The bodies of a class file are part of its bytes, and no two of them overlap. -/
theorem length_codes_le {data : List UInt8} {file : ClassFile} (parsed : parse data = .ok file) :
    (file.methods.flatMap fun m => m.code.getD []).length ≤ data.length := by
  obtain ⟨-, tail, ⟨w, -, rfl, rfl⟩, rfl⟩ := accepts_read.ofList_eq_ok_iff.mp parsed
  have bodies := length_flatMap_le w.methods.items fun m _ => m.length_code_le w.pool.table
  simp only [WrittenClass.classFile, WrittenClass.encode, Counted.encode,
    List.flatMap_map, List.length_append]
  omega

/-! ## Events -/

/-- The events of a method whose body is decoded. -/
theorem methodEvents_of_decodes {file : ClassFile} {m : MethodDecl}
    (decoded : m.Decodes file.pool) :
    file.methodEvents m =
      ⟨.method m.access m.name m.descriptor :: (m.instructions file.pool).map .instruction ++
        [.methodEnd], none⟩ := by
  unfold methodEvents MethodDecl.instructions
  cases body : m.code with
  | none => rfl
  | some code => simp only [decoded code body]

theorem methodEvents_failure_iff {file : ClassFile} {m : MethodDecl} :
    (file.methodEvents m).failure = none ↔ m.Decodes file.pool := by
  constructor
  · intro finished code body
    unfold methodEvents at finished
    simp only [body] at finished
    cases failed : (Instruction.decodeAll file.pool code).failure with
    | none => rfl
    | some error =>
      rw [failed] at finished
      cases finished
  · intro decoded
    rw [methodEvents_of_decodes decoded]

/-- A method whose body is decoded is followed by the next one. -/
theorem methodsEvents_of_decodes {file : ClassFile} {m : MethodDecl} (decoded : m.Decodes file.pool)
    (position : Nat) (methods : List MethodDecl) :
    file.methodsEvents (fun _ _ => true) position (m :: methods) =
      ⟨(file.methodEvents m).events ++
          (file.methodsEvents (fun _ _ => true) (position + 1) methods).events,
        (file.methodsEvents (fun _ _ => true) (position + 1) methods).failure⟩ := by
  have finished := methodEvents_failure_iff.mpr decoded
  simp only [methodsEvents, if_true, finished]

/-- The events reach the end of the class exactly when every body is decoded. -/
theorem methodsEvents_failure_iff {file : ClassFile} {position : Nat} {methods : List MethodDecl} :
    (file.methodsEvents (fun _ _ => true) position methods).failure = none ↔
      ∀ m ∈ methods, m.Decodes file.pool := by
  induction methods generalizing position with
  | nil => simp [methodsEvents]
  | cons m methods ih =>
    rw [List.forall_mem_cons]
    cases failed : (file.methodEvents m).failure with
    | none =>
      have decoded := methodEvents_failure_iff.mp failed
      rw [methodsEvents_of_decodes decoded]
      show (file.methodsEvents _ _ methods).failure = none ↔ _
      rw [ih]
      exact ⟨fun later => ⟨decoded, later⟩, And.right⟩
    | some error =>
      have stopped : ¬ m.Decodes file.pool := by
        intro decoded
        rw [methodEvents_failure_iff.mpr decoded] at failed
        cases failed
      simp only [methodsEvents, if_true, failed]
      exact ⟨nofun, fun both => absurd both.1 stopped⟩

end ClassFile

/-! ## What the builder makes of the events -/

namespace RecordBuilder

theorem modify_push (bodies : Array Abc) (v : Abc) (f : Abc → Abc) :
    (bodies.push v).modify bodies.size f = bodies.push (f v) := by
  refine Array.ext (by simp) fun k modified pushed => ?_
  rw [Array.getElem_modify, Array.getElem_push, Array.getElem_push]
  have bound : k < bodies.size + 1 := by simpa using pushed
  by_cases last : bodies.size = k
  · simp [last]
  · have inner : k < bodies.size := by omega
    simp [last, inner]

/-- An instruction is counted for the latest method. -/
theorem event_instruction (b : RecordBuilder) (bodies : Array Abc) (v : Abc) (i : Instruction) :
    ({ b with bodies := bodies.push v }).event (.instruction i) =
      { b with bodies := bodies.push (v + Abc.ofInstruction i) } := by
  simp only [event, step, Array.size_push, Nat.add_sub_cancel]
  rw [modify_push]

theorem foldl_instructions (b : RecordBuilder) (bodies : Array Abc) (v : Abc)
    (is : List Instruction) :
    (is.map ClassEvent.instruction).foldl event { b with bodies := bodies.push v } =
      { b with bodies := bodies.push (is.foldl (fun v i => v + Abc.ofInstruction i) v) } := by
  induction is generalizing v with
  | nil => rfl
  | cons i is ih => rw [List.map_cons, List.foldl_cons, event_instruction, ih, List.foldl_cons]

theorem event_methodEnd (b : RecordBuilder) (bodies : Array Abc) (v : Abc) :
    ({ b with bodies := bodies.push v }).event .methodEnd =
      { b with bodies := bodies.push v, total := b.total + v } := by
  simp [event, step]

theorem foldl_fields (b : RecordBuilder) (fields : List FieldDecl) :
    (fields.map fun f => ClassEvent.field f.access f.name f.descriptor).foldl event b =
      { b with fieldCount := b.fieldCount + fields.length } := by
  induction fields generalizing b with
  | nil => rfl
  | cons f fields ih =>
    rw [List.map_cons, List.foldl_cons, ih]
    show RecordBuilder.mk _ (b.fieldCount + 1 + fields.length) _ _ _ = _
    rw [List.length_cons, Nat.add_assoc, Nat.add_comm 1]
    rfl

/-- A method adds its signature and, when it ends, what its body counts. -/
theorem foldl_methodEvents {file : ClassFile} {m : MethodDecl} (decoded : m.Decodes file.pool)
    (b : RecordBuilder) :
    (file.methodEvents m).events.foldl event b =
      { b with
        signatures := m.signature :: b.signatures
        bodies := b.bodies.push (Instruction.counts (m.instructions file.pool))
        total := b.total + Instruction.counts (m.instructions file.pool) } := by
  have body : (m.instructions file.pool).foldl (fun v i => v + Abc.ofInstruction i) Abc.zero =
      Instruction.counts (m.instructions file.pool) := by
    unfold MethodDecl.instructions
    cases body : m.code with
    | none => rfl
    | some code =>
      rw [(Instruction.sequence_of_decodes (decoded code body)).ofInstructions_eq, Abc.zero_add]
  rw [methodEvents_of_decodes decoded]
  show ((m.instructions file.pool).map ClassEvent.instruction ++ [ClassEvent.methodEnd]).foldl event
    { b with signatures := m.signature :: b.signatures, bodies := b.bodies.push Abc.zero } = _
  rw [List.foldl_append, foldl_instructions { b with signatures := m.signature :: b.signatures },
    body]
  exact event_methodEnd { b with signatures := m.signature :: b.signatures } _ _

/-- The methods add their signatures, and what all their bodies count. -/
theorem foldl_methodsEvents {file : ClassFile} {methods : List MethodDecl}
    (decoded : ∀ m ∈ methods, m.Decodes file.pool) (position : Nat) (b : RecordBuilder) :
    ∃ bodies, (file.methodsEvents (fun _ _ => true) position methods).events.foldl event b =
      { b with
        signatures := (methods.map MethodDecl.signature).reverse ++ b.signatures
        bodies := bodies
        total := b.total + Instruction.counts (methods.flatMap (·.instructions file.pool)) } := by
  induction methods generalizing position b with
  | nil =>
    refine ⟨b.bodies, ?_⟩
    show b = { b with total := b.total + Abc.zero }
    rw [Abc.add_zero]
  | cons m methods ih =>
    have here := decoded m List.mem_cons_self
    have later := fun m member => decoded m (List.mem_cons_of_mem _ member)
    rw [methodsEvents_of_decodes here, List.foldl_append, foldl_methodEvents here]
    obtain ⟨bodies, rest⟩ := ih later (position + 1) { b with
      signatures := m.signature :: b.signatures
      bodies := b.bodies.push (Instruction.counts (m.instructions file.pool))
      total := b.total + Instruction.counts (m.instructions file.pool) }
    refine ⟨bodies, rest.trans ?_⟩
    simp [Abc.add_assoc, Instruction.counts_append]

/-- What the builder holds at the end of a class whose bodies can all be decoded. -/
theorem foldl_replay {file : ClassFile} (decoded : ∀ m ∈ file.methods, m.Decodes file.pool) :
    ∃ bodies, (file.replay fun _ _ => true).events.foldl event {} =
      { head := some ⟨file.access, file.name, file.superName, file.interfaces⟩
        fieldCount := file.fields.length
        signatures := (file.methods.map MethodDecl.signature).reverse
        bodies := bodies
        total := Instruction.counts file.instructions } := by
  let declared : RecordBuilder :=
    { head := some ⟨file.access, file.name, file.superName, file.interfaces⟩ }
  obtain ⟨bodies, rest⟩ :=
    foldl_methodsEvents decoded 0 { declared with fieldCount := 0 + file.fields.length }
  refine ⟨bodies, ?_⟩
  show ((file.fields.map fun f => ClassEvent.field f.access f.name f.descriptor) ++ _).foldl event
    declared = _
  rw [List.foldl_append, foldl_fields]
  refine rest.trans ?_
  simp only [declared, Nat.zero_add, List.append_nil, Abc.zero_add]
  rfl

end RecordBuilder

/-! ## Records -/

namespace ClassRecord

/-- The record says of the class what its file says. The counts are those of the instructions of all
methods. -/
structure Summarizes (r : ClassRecord) (file : ClassFile) : Prop where
  name : r.name = file.name
  superName : r.superName = file.superName
  interfaces : r.interfaces = file.interfaces
  isInterface : r.isInterface = file.isInterface
  fieldCount : r.fieldCount = file.fields.length
  memMethods : ∀ s, s ∈ r.methods ↔ ∃ m ∈ file.methods, m.signature = s
  nodupMethods : r.methods.Nodup
  abc : r.abc = Instruction.counts file.instructions

/-- The record of a class file whose bodies can be decoded. -/
theorem decode_of_parse {data : List UInt8} {file : ClassFile} (parsed : parse data = .ok file)
    (decoded : ∀ m ∈ file.methods, m.Decodes file.pool) :
    ∃ r, decode data = .ok r ∧ r.Summarizes file := by
  have finished : (file.replay fun _ _ => true).failure = none :=
    methodsEvents_failure_iff.mpr decoded
  obtain ⟨bodies, built⟩ := RecordBuilder.foldl_replay decoded
  unfold decode
  simp only [parsed, finished, built, RecordBuilder.build?, Option.map_some]
  refine ⟨_, rfl, rfl, rfl, rfl, rfl, rfl, fun s => ?_, ?_, rfl⟩
  · simp [Signature.mem_sortedSet]
  · exact Signature.nodup_of_pairwise_before (Signature.pairwise_sortedSet _)

/-- Only a class file whose bodies can be decoded has a record. -/
theorem parse_of_decode {data : List UInt8} {r : ClassRecord} (recorded : decode data = .ok r) :
    ∃ file, parse data = .ok file ∧ ∀ m ∈ file.methods, m.Decodes file.pool := by
  unfold decode at recorded
  cases parsed : parse data with
  | error error =>
    rw [parsed] at recorded
    cases recorded
  | ok file =>
    refine ⟨file, rfl, ?_⟩
    cases failed : (file.replay fun _ _ => true).failure with
    | none => exact methodsEvents_failure_iff.mp failed
    | some error =>
      simp only [parsed, failed] at recorded
      cases recorded

/-- A class file has a record exactly when it can be parsed and all its bodies can be decoded, and
the record says what the file says. Its counts are exact numbers unless the file has 2⁶³ bytes or
more. The instructions that are counted are those that the bodies encode, and of which kind an
instruction is can be told from its opcode, be it in a short, a long or a wide form. -/
theorem decode_complete (data : List UInt8) :
    ((∃ r, decode data = .ok r) ↔
      ∃ file, parse data = .ok file ∧ ∀ m ∈ file.methods, m.Decodes file.pool) ∧
    ∀ r, decode data = .ok r → ∃ file, parse data = .ok file ∧ r.Summarizes file ∧
      (data.length < 0x8000000000000000 →
        r.abc.assignments.toInt = Instruction.assignments file.instructions ∧
        r.abc.branches.toInt = Instruction.branches file.instructions ∧
        r.abc.conditions.toInt = Instruction.conditions file.instructions) ∧
      (∀ m ∈ file.methods, ∀ code, m.code = some code →
        Instruction.Sequence file.pool 0 code (m.instructions file.pool)) ∧
      ∀ pc bytes i, Instruction.Encoding file.pool pc bytes i →
        Instruction.Classified (Instruction.operation bytes) i := by
  refine ⟨⟨fun ⟨r, recorded⟩ => parse_of_decode recorded, fun ⟨file, parsed, decoded⟩ => ?_⟩,
    fun r recorded => ?_⟩
  · obtain ⟨r, recorded, -⟩ := decode_of_parse parsed decoded
    exact ⟨r, recorded⟩
  · obtain ⟨file, parsed, decoded⟩ := parse_of_decode recorded
    obtain ⟨r', recorded', summary⟩ := decode_of_parse parsed decoded
    obtain rfl : r = r' := Except.ok.inj (recorded.symm.trans recorded')
    refine ⟨file, parsed, summary, fun small => ?_, fun m member code body => ?_,
      fun pc bytes i encoded => ?_⟩
    · have bounded := Nat.le_trans (counts_instructions_le decoded) (length_codes_le parsed)
      have exactCount : ∀ n, n ≤ data.length → (Int64.ofNat n).toInt = n :=
        fun n le => Int64.toInt_ofNat_of_lt (Nat.lt_of_le_of_lt le small)
      rw [summary.abc]
      change Instruction.assignments file.instructions + Instruction.branches file.instructions +
        Instruction.conditions file.instructions ≤ data.length at bounded
      exact ⟨exactCount _ (by omega), exactCount _ (by omega), exactCount _ (by omega)⟩
    · have sequence := Instruction.sequence_of_decodes (decoded m member code body)
      unfold MethodDecl.instructions
      rw [body]
      exact sequence
    · exact encoded.classified

/-- A class that declares `m()V` twice. One body stores by a short opcode, the other by a wide
one. -/
def twiceDeclared : List UInt8 :=
  [0xca, 0xfe, 0xba, 0xbe, 0, 0, 0, 52, 0, 6, 1, 0, 1, 0x41, 7, 0, 1, 1, 0, 1, 0x6d, 1,
    0, 3, 0x28, 0x29, 0x56, 1, 0, 4, 0x43, 0x6f, 0x64, 0x65, 0, 0x21, 0, 2, 0, 0, 0, 0, 0, 0, 0, 2,
    0, 1, 0, 3, 0, 4, 0, 1, 0, 5, 0, 0, 0, 10, 0, 0, 0, 0, 0, 0, 0, 2, 0x3c, 0xb1,
    0, 1, 0, 3, 0, 4, 0, 1, 0, 5, 0, 0, 0, 13, 0, 0, 0, 0, 0, 0, 0, 5, 0xc4, 0x36, 0, 1, 0xb1, 0, 0]

theorem decode_complete_twiceDeclared :
    ∃ r, decode twiceDeclared = .ok r ∧ (∀ s, s ∈ r.methods ↔ s = ⟨"m", "()V"⟩) ∧
      r.abc = ⟨2, 0, 0⟩ := by
  let pool : ConstantPool :=
    ⟨#[.unused, .utf8 "A", .classRef 1, .utf8 "m", .utf8 "()V", .utf8 "Code"]⟩
  let methods : List MethodDecl :=
    [⟨1, "m", "()V", some [0x3c, 0xb1]⟩, ⟨1, "m", "()V", some [0xc4, 0x36, 0, 1, 0xb1]⟩]
  have parsed : parse twiceDeclared = .ok ⟨0, 52, pool, 0x21, "A", "", [], [], methods⟩ := rfl
  have ending : ∀ pc, Instruction.Sequence pool pc [0xb1] [.plain 0xb1] := fun pc =>
    .cons (.intro (show Opcode.HasLayout (0xb1 : UInt8).toNat .bare by decide) .bare) (.nil _)
  have short : Instruction.Sequence pool 0 [0x3c, 0xb1] [.variableAt 0x36 1, .plain 0xb1] :=
    .cons (.intro (show Opcode.HasLayout (0x3c : UInt8).toNat (.short 0x36 1) by decide)
      (.short _ _)) (ending _)
  have wide : Instruction.Sequence pool 0 [0xc4, 0x36, 0, 1, 0xb1]
      [.variableAt 0x36 1, .plain 0xb1] :=
    .cons (.intro (show Opcode.HasLayout (0xc4 : UInt8).toNat .wide by decide)
      (.wideVariable 1 (.inr (.inl ⟨by decide, by decide⟩)))) (ending _)
  have first := Instruction.decodeAll_sequence short
  have second := Instruction.decodeAll_sequence wide
  have decoded : ∀ m ∈ methods, m.Decodes pool := by
    intro m member code body
    simp only [methods, List.mem_cons, List.not_mem_nil, or_false] at member
    rcases member with rfl | rfl
    · cases body
      rw [first]
    · cases body
      rw [second]
  obtain ⟨r, recorded⟩ := (decode_complete twiceDeclared).1.mpr ⟨_, parsed, decoded⟩
  obtain ⟨file, parsed', summary, -⟩ := (decode_complete twiceDeclared).2 r recorded
  obtain rfl := Except.ok.inj (parsed.symm.trans parsed')
  refine ⟨r, recorded, fun s => ?_, ?_⟩
  · rw [summary.memMethods]
    simp [methods, MethodDecl.signature, eq_comm]
  · rw [summary.abc]
    simp only [instructions, methods, List.flatMap_cons, List.flatMap_nil,
      MethodDecl.instructions, first, second]
    decide

end ClassRecord

end JarMetrics
