import JarMetrics.Proofs.Records
import JarMetrics.Proofs.SwitchRoom
import Mathlib.Data.List.Perm.Subperm

/-!
# Counters are bounded by the bytes

Whatever a class file claims, the numbers in its record are at most the number of its bytes: an
instruction counts no more than the bytes that encode it, bodies do not overlap, and each member
takes eight bytes at least (`length_members_le`). A counter of 64 bits that is bounded by the bytes
of a file has not wrapped around.

While a body is walked the only numbers that the file chooses freely are those in front of the
entries of a switch, and they are checked against the bytes that are left before anything is made of
them (`SwitchHeader.Admitted`).
-/

namespace JarMetrics

open ClassFile

namespace ClassFile

/-! ## Members -/

/-- A member takes two bytes each for its flags, its name, its descriptor and the number of its
attributes. -/
theorem length_members_le (members : Counted WrittenMember) :
    members.items.length * 8 ≤ (members.encode WrittenMember.encode).length := by
  have each : ∀ m ∈ members.items, (List.replicate 8 (0 : UInt8)).length ≤ m.encode.length := by
    intro m _
    simp only [WrittenMember.encode, Counted.encode, List.length_append,
      length_twoBytes, length_toBigEndian, List.length_replicate]
    omega
  have words : (members.items.flatMap fun _ => List.replicate 8 (0 : UInt8)).length =
      members.items.length * 8 :=
    Grammar.length_flatMap_of_length (fun _ => List.length_replicate) members.items
  have held := length_flatMap_le members.items each
  rw [words] at held
  simp only [Counted.encode, List.length_append]
  omega

/-- The fields and the methods of a class file are spelled out, one after the other. -/
theorem length_fields_methods_le {data : List UInt8} {file : ClassFile}
    (parsed : parse data = .ok file) :
    (file.fields.length + file.methods.length) * 8 ≤ data.length := by
  obtain ⟨-, tail, ⟨w, -, rfl, rfl⟩, rfl⟩ := accepts_read.ofList_eq_ok_iff.mp parsed
  have fields := length_members_le w.fields
  have methods := length_members_le w.methods
  simp only [WrittenClass.classFile, WrittenClass.encode, List.length_append, List.length_map]
  omega

/-- The length of a body can be written in four bytes, since that of its attribute can. -/
theorem length_code_lt {data : List UInt8} {file : ClassFile} (parsed : parse data = .ok file)
    {m : MethodDecl} (member : m ∈ file.methods) {code : List UInt8} (body : m.code = some code) :
    code.length < 0x100000000 := by
  obtain ⟨-, tail, ⟨w, -, rfl, rfl⟩, rfl⟩ := accepts_read.ofList_eq_ok_iff.mp parsed
  obtain ⟨written, -, rfl⟩ := List.mem_map.mp member
  obtain ⟨a, -, rfl⟩ := Option.map_eq_some_iff.mp body
  have fits := a.fits
  simp only [WrittenAttribute.code, List.length_take, List.length_drop]
  omega

end ClassFile

/-! ## Records -/

theorem toInt_ofNat_le (n : Nat) : (Int64.ofNat n).toInt ≤ n := by
  rw [Int64.toInt_ofNat', Int.bmod_def, show Int64.size = 0x10000000000000000 from rfl]
  split <;> omega

namespace ClassRecord

/-- A record is that of a file whose bodies can be decoded. -/
theorem summarizes_of_decode {data : List UInt8} {r : ClassRecord}
    (recorded : decode data = .ok r) :
    ∃ file, parse data = .ok file ∧ (∀ m ∈ file.methods, m.Decodes file.pool) ∧
      r.Summarizes file := by
  obtain ⟨file, parsed, decoded⟩ := parse_of_decode recorded
  obtain ⟨other, recorded', summary⟩ := decode_of_parse parsed decoded
  obtain rfl : r = other := Except.ok.inj (recorded.symm.trans recorded')
  exact ⟨file, parsed, decoded, summary⟩

/-- Each signature is that of a method, and stands in the record once. -/
theorem Summarizes.length_methods_le {r : ClassRecord} {file : ClassFile}
    (summary : r.Summarizes file) :
    r.methods.length ≤ file.methods.length := by
  have among : r.methods ⊆ file.methods.map MethodDecl.signature := fun s member =>
    List.mem_map.mpr ((summary.memMethods s).mp member)
  have shorter := (List.subperm_of_subset summary.nodupMethods among).length_le
  rwa [List.length_map] at shorter

/-- The numbers of the record of `file` are bounded by its size in bytes. -/
structure Bounded (r : ClassRecord) (file : ClassFile) (size : Nat) : Prop where
  counts : r.abc.assignments.toInt + r.abc.branches.toInt + r.abc.conditions.toInt ≤ size
  fieldCount : r.fieldCount ≤ size
  methods : r.methods.length ≤ size
  /-- A size that fits in 64 bits leaves no counter room to wrap around. -/
  exactCounts : size < 0x8000000000000000 →
    r.abc.assignments.toInt = Instruction.assignments file.instructions ∧
    r.abc.branches.toInt = Instruction.branches file.instructions ∧
    r.abc.conditions.toInt = Instruction.conditions file.instructions

/-- Every record is bounded by the bytes it is decoded from. -/
theorem exists_bounded {data : List UInt8} {r : ClassRecord} (recorded : decode data = .ok r) :
    ∃ file, parse data = .ok file ∧ r.Bounded file data.length := by
  obtain ⟨file, parsed, decoded, summary⟩ := summarizes_of_decode recorded
  have bounded : Instruction.assignments file.instructions +
      Instruction.branches file.instructions +
      Instruction.conditions file.instructions ≤ data.length :=
    Nat.le_trans (counts_instructions_le decoded) (length_codes_le parsed)
  have members := length_fields_methods_le parsed
  refine ⟨file, parsed, ?_, ?_, ?_, fun small => ?_⟩
  · rw [summary.abc]
    have assignments := toInt_ofNat_le (Instruction.assignments file.instructions)
    have branches := toInt_ofNat_le (Instruction.branches file.instructions)
    have conditions := toInt_ofNat_le (Instruction.conditions file.instructions)
    simp only [Instruction.counts]
    omega
  · rw [summary.fieldCount]
    omega
  · have methods := summary.length_methods_le
    omega
  · have exactCount : ∀ n, n ≤ data.length → (Int64.ofNat n).toInt = n :=
      fun n le => Int64.toInt_ofNat_of_lt (Nat.lt_of_le_of_lt le small)
    rw [summary.abc]
    exact ⟨exactCount _ (by omega), exactCount _ (by omega), exactCount _ (by omega)⟩

end ClassRecord

/-! ## Files and bodies -/

/-- The counts of a record add up to at most the bytes of its file, and neither its fields nor its
methods are more, so that 64 bits hold them; and the code of a method has less than 2³² bytes.
Whenever the walk over any code reaches a switch, the bytes that its entries would take are computed
without overflow, whatever the header says, and compared with those that are left before an entry is
read. If they are there, the switch is reported with as many targets as were announced. If not,
nothing is reported of it and the walk ends with the bytes asked for and the bytes there were. So
four bytes are left behind the header for each target of each switch that is ever reported. -/
theorem counters_bounded :
    (∀ data r, ClassRecord.decode data = .ok r → ∃ file, parse data = .ok file ∧
      r.Bounded file data.length ∧
      ∀ m ∈ file.methods, ∀ code, m.code = some code → code.length < 0x100000000) ∧
    ∀ pool code,
      (∀ i ∈ (Instruction.decodeAll pool code).instructions, i.isSwitch = true →
        ∃ before h front padding after,
          Instruction.AtSwitch pool code before h front padding after ∧
          (i.targets.length : Int) = h.entries ∧ i.targets.length * 4 ≤ after.length) ∧
      ∀ before h front padding after, Instruction.AtSwitch pool code before h front padding after →
        h.room.toInt = h.entries * h.width ∧
        (code.length < 0x4000000000000000 →
          (h.Admitted after.length ↔ h.least ≤ h.entries ∧
            h.fits (.ofNat (front.length + (h.encode padding).length))
              (.ofNat code.length) = true)) ∧
        (h.Admitted after.length →
          ∃ i later, (Instruction.decodeAll pool code).instructions =
            before ++ i :: later ∧ i.isSwitch = true ∧
            (i.targets.length : Int) = h.entries ∧ i.targets.length * 4 ≤ after.length) ∧
        (¬ h.Admitted after.length →
          Instruction.decodeAll pool code = ⟨before, some (h.refusal front.length
            (front.length + (h.encode padding).length) after.length)⟩) := by
  refine ⟨fun data r recorded => ?_, fun pool code => ⟨fun i member switch => ?_, ?_⟩⟩
  · obtain ⟨file, parsed, bounded⟩ := ClassRecord.exists_bounded recorded
    exact ⟨file, parsed, bounded, fun m member code body => length_code_lt parsed member body⟩
  · obtain ⟨before, h, front, padding, after, reached, room, count⟩ :=
      Instruction.exists_header_of_mem member switch
    exact ⟨before, h, front, padding, after, reached, count, room.four_mul_le count⟩
  · intro before h front padding after reached
    refine ⟨h.toInt_room, fun small => ?_, fun room => ?_, reached.refused⟩
    · have size : code.length = front.length + (h.encode padding).length + after.length := by
        rw [reached.whole, List.length_append, List.length_append, Nat.add_assoc]
      rw [size] at small ⊢
      exact h.admitted_iff_fits small
    · obtain ⟨i, later, walk, switch, count⟩ := reached.admitted room
      exact ⟨i, later, walk, switch, count, room.four_mul_le count⟩

/-- A class with a field and a method that switches on its argument, from -1 to 0. -/
def switchingClass : List UInt8 :=
  [0xca, 0xfe, 0xba, 0xbe, 0, 0, 0, 52, 0, 6, 1, 0, 1, 0x41, 7, 0, 1, 1, 0, 1, 0x6d, 1,
    0, 3, 0x28, 0x29, 0x56, 1, 0, 4, 0x43, 0x6f, 0x64, 0x65, 0, 0x21, 0, 2, 0, 0, 0, 0, 0, 1, 0, 1,
    0, 3, 0, 4, 0, 0, 0, 1, 0, 1, 0, 3, 0, 4, 0, 1, 0, 5, 0, 0, 0, 35, 0, 1, 0, 2, 0, 0, 0, 25,
    0x1b, 0xaa, 0, 0, 0, 0, 0, 23, 255, 255, 255, 255, 0, 0, 0, 0, 0, 0, 0, 23, 0, 0,
    0, 23, 0xb1, 0, 0, 0, 0]

/-- The class is counted within its bytes, and a switch that announces all 2³² numbers is refused 16
GiB. -/
theorem counters_bounded_switches :
    (∃ r, ClassRecord.decode switchingClass = .ok r ∧
      r.abc.assignments.toInt + r.abc.branches.toInt + r.abc.conditions.toInt ≤
        switchingClass.length ∧
      r.fieldCount ≤ switchingClass.length ∧ r.methods.length ≤ switchingClass.length) ∧
    Instruction.decodeAll ⟨#[]⟩ [0xaa, 0, 0, 0, 0, 0, 0, 0, 0x80, 0, 0, 0, 0x7f, 255,
      255, 255, 0, 0, 0, 0] =
      ⟨[], some (.truncated ⟨16, 0x400000000, 4⟩)⟩ := by
  constructor
  · let pool : ConstantPool :=
      ⟨#[.unused, .utf8 "A", .classRef 1, .utf8 "m", .utf8 "()V", .utf8 "Code"]⟩
    let body : List UInt8 :=
      [0x1b, 0xaa, 0, 0, 0, 0, 0, 23, 255, 255, 255, 255, 0, 0, 0, 0, 0, 0, 0,
        23, 0, 0, 0, 23, 0xb1]
    have parsed : parse switchingClass =
        .ok ⟨0, 52, pool, 0x21, "A", "", [], [⟨1, "m", "()V"⟩], [⟨1, "m", "()V", some body⟩]⟩ := rfl
    have load : Instruction.Encoding pool 0 [0x1b] (.variableAt 0x15 1) :=
      .intro (show Opcode.HasLayout 0x1b (.short 0x15 1) by decide) (.short 0x15 1)
    have table : Instruction.Encoding pool 1
        (0xaa :: ([0, 0] ++ fourBytes (23 : Int32).toUInt32 ++ fourBytes (-1 : Int32).toUInt32 ++
          fourBytes (0 : Int32).toUInt32 ++ [23, 23].flatMap fun offset : Int32 =>
            fourBytes offset.toUInt32))
        (.tableSwitch (-1) 0 24 [24, 24]) :=
      .intro (show Opcode.HasLayout 0xaa .tableSwitch by decide)
        (.tableSwitch 23 (-1) 0 [23, 23] ⟨by decide, by decide⟩ (by decide) (by decide))
    have ending : Instruction.Encoding pool 24 [0xb1] (.plain 0xb1) :=
      .intro (show Opcode.HasLayout 0xb1 .bare by decide) .bare
    have walk := Instruction.decodeAll_sequence (.cons load (.cons table (.cons ending (.nil 25))))
    obtain ⟨r, recorded, -⟩ := ClassRecord.decode_of_parse parsed fun m member code held => by
      cases List.mem_singleton.mp member
      cases held
      exact congrArg Listing.failure walk
    obtain ⟨_, _, bounded, _⟩ := counters_bounded.1 switchingClass r recorded
    exact ⟨r, recorded, bounded.counts, bounded.fieldCount, bounded.methods⟩
  · have reached : Instruction.AtSwitch ⟨#[]⟩
        [0xaa, 0, 0, 0, 0, 0, 0, 0, 0x80, 0, 0, 0, 0x7f, 255, 255, 255, 0, 0, 0, 0] []
        (.table 0 (-0x80000000) 0x7fffffff) [] [0, 0, 0] [0, 0, 0, 0] :=
      ⟨by decide, .nil 0, by decide, by decide⟩
    exact (counters_bounded.2 _ _).2 _ _ _ _ _ reached |>.2.2.2 fun room =>
      absurd room.2 (by decide)

end JarMetrics
