import JarMetrics.Proofs.Outline
import JarMetrics.Proofs.Records

/-!
# Assembled classes are read back

The bytes of a class that was built call by call are the encoding of a well-formed class file
(`encode_written`, `wellFormed_written`), so they can be parsed. What is parsed is what the calls
asked for, and the events of the class are those of its outline (`assembled_agrees`).

Everything is said for classes whose counts and lengths can be written: `Class.Fits`.
-/

namespace JarMetrics.Assembly

open ClassFile

/-! ## The class file -/

/-- The slots of the pool and the numbers of interfaces, fields and methods fit in 16 bits, and the
lengths of the bodies, together with what is written around them, in 32. -/
structure Class.Fits (c : Class) : Prop where
  pool : (c.pool.utf8 "Code").2.Fits
  interfaces : c.interfaces.length < 0x10000
  fields : c.fields.length < 0x10000
  methods : c.methods.length < 0x10000
  bodies : ∀ m ∈ c.methods, ∀ code ∈ m.code, 12 + code.length < 0x100000000

instance (c : Class) : Decidable c.Fits :=
  decidable_of_iff
    ((c.pool.utf8 "Code").2.interned.length + 1 < 0x10000 ∧ c.interfaces.length < 0x10000 ∧
      c.fields.length < 0x10000 ∧ c.methods.length < 0x10000 ∧
      ∀ m ∈ c.methods, ∀ code ∈ m.code, 12 + code.length < 0x100000000)
    ⟨fun all => ⟨all.1, all.2.1, all.2.2.1, all.2.2.2.1, all.2.2.2.2⟩,
      fun fits => ⟨fits.pool, fits.interfaces, fits.fields, fits.methods, fits.bodies⟩⟩

/-- What a code attribute holds. -/
def codeBody (code : List UInt8) : List UInt8 :=
  u2 8 ++ u2 8 ++ u4 code.length ++ code ++ u2 0 ++ u2 0

theorem length_codeBody (code : List UInt8) : (codeBody code).length = 12 + code.length := by
  simp [codeBody, u2, u4]
  omega

/-- The code attribute, if its length can be written. -/
def codeAttribute? (label : UInt16) (code : List UInt8) : Option WrittenAttribute :=
  if fits : (codeBody code).length < 0x100000000 then some ⟨label, codeBody code, fits⟩ else none

theorem codeAttribute?_eq (label : UInt16) {code : List UInt8}
    (fits : 12 + code.length < 0x100000000) :
    codeAttribute? label code = some ⟨label, codeBody code, length_codeBody code ▸ fits⟩ :=
  dif_pos _

theorem length_nil_lt {α : Type} : ([] : List α).length < 0x10000 := Nat.zero_lt_succ _

/-- A field, which has no attributes. -/
def writtenField (m : Member) : WrittenMember :=
  { access := m.access, name := m.name, descriptor := m.descriptor,
    attributes := ⟨[], length_nil_lt⟩ }

/-- A method, which has a code attribute if it has a body. -/
def writtenMethod (label : UInt16) (m : Member) : WrittenMember :=
  { access := m.access
    name := m.name
    descriptor := m.descriptor
    attributes := ⟨(m.code.bind (codeAttribute? label)).toList,
      Nat.lt_of_le_of_lt Option.length_toList_le (by decide)⟩ }

/-- The class file of a class whose pool has these entries. -/
def Class.written (c : Class) (fits : c.Fits) (entries : List WrittenConstant) : WrittenClass :=
  { minor := 0
    major := 52
    pool := ⟨UInt16.ofNat (entries.length + 1), entries⟩
    access := c.access
    this := c.name
    super := c.super
    interfaces := ⟨c.interfaces, fits.interfaces⟩
    fields := ⟨c.fields.map writtenField, by rw [List.length_map]; exact fits.fields⟩
    methods :=
      ⟨c.methods.map (writtenMethod (c.pool.utf8 "Code").1),
        by rw [List.length_map]; exact fits.methods⟩
    attributes := ⟨[], length_nil_lt⟩ }

/-! ## Its bytes -/

theorem encode_writtenMethod (label : UInt16) {m : Member}
    (fits : ∀ code ∈ m.code, 12 + code.length < 0x100000000) :
    (writtenMethod label m).encode = Class.methodBytes label m := by
  obtain ⟨access, name, descriptor, body⟩ := m
  cases body with
  | none => rfl
  | some code =>
    simp only [writtenMethod, Option.bind_some,
      codeAttribute?_eq label (fits code rfl), Option.toList_some, WrittenMember.encode,
      Counted.encode, List.flatMap_singleton, WrittenAttribute.encode, length_codeBody]
    simp only [Class.methodBytes, Class.codeAttribute, codeBody, List.append_assoc]
    rfl

/-- A count that fits is written as it is. -/
theorem count_eq {α : Type} {items : List α} (fits : items.length < 0x10000) :
    Class.count items = toBigEndian 2 items.length := by
  unfold Class.count u2
  rw [UInt16.toNat_ofNat_of_lt' fits]

/-- The bytes of a class are the encoding of its class file. -/
theorem encode_written {c : Class} (fits : c.Fits) {entries : List WrittenConstant}
    (sound : Sound (c.pool.utf8 "Code").2 entries) : (c.written fits entries).encode = c.bytes := by
  have fields : (c.fields.map writtenField).flatMap WrittenMember.encode =
      c.fields.flatMap Class.fieldBytes := by
    rw [List.flatMap_map]
    rfl
  have methods : (c.methods.map (writtenMethod (c.pool.utf8 "Code").1)).flatMap
      WrittenMember.encode =
      c.methods.flatMap (Class.methodBytes (c.pool.utf8 "Code").1) := by
    rw [List.flatMap_map]
    exact List.flatMap_congr fun m member => encode_writtenMethod _ (fits.bodies m member)
  simp only [WrittenClass.encode, Class.written, WrittenPool.encode,
    Counted.encode, fields, methods, ← sound.bytes, ← sound.count, List.length_map,
    ← count_eq fits.interfaces, ← count_eq fits.fields, ← count_eq fits.methods, List.append_assoc]
  simp only [Class.bytes, List.append_assoc]
  rfl

/-! ## Its table -/

theorem flatMap_slots {entries : List WrittenConstant}
    (narrow : ∀ entry ∈ entries, entry.constant.isWide = false) :
    entries.flatMap WrittenConstant.slots = entries.map WrittenConstant.constant := by
  rw [← List.flatMap_pure_eq_map]
  refine List.flatMap_congr fun entry member => slots_narrow ?_
  rw [narrow entry member]
  exact Bool.false_ne_true

theorem filled_written {entries : List WrittenConstant} (few : entries.length + 1 < 0x10000)
    (narrow : ∀ entry ∈ entries, entry.constant.isWide = false) :
    WrittenPool.Filled ⟨UInt16.ofNat (entries.length + 1), entries⟩ := by
  refine ⟨entries.length, UInt16.toNat_ofNat_of_lt' few, .inl ?_⟩
  rw [flatMap_slots narrow, List.length_map]

theorem table_written {entries : List WrittenConstant} (few : entries.length + 1 < 0x10000)
    (narrow : ∀ entry ∈ entries, entry.constant.isWide = false) :
    WrittenPool.table ⟨UInt16.ofNat (entries.length + 1), entries⟩ = tableOf entries := by
  unfold WrittenPool.table tableOf
  rw [flatMap_slots narrow, UInt16.toNat_ofNat_of_lt' few, List.take_of_length_le]
  simp

/-! ## What it means -/

/-- The bytecode is found where the attribute says it is. -/
theorem code_codeBody (label : UInt16) {code : List UInt8}
    (fits : (codeBody code).length < 0x100000000) :
    (WrittenAttribute.mk label (codeBody code) fits).HoldsCode ∧
      (WrittenAttribute.mk label (codeBody code) fits).code = code := by
  have behindSizes : (codeBody code).drop 4 = u4 code.length ++ (code ++ (u2 0 ++ u2 0)) := by
    simp only [codeBody, List.append_assoc]
    rw [← List.append_assoc]
    exact List.drop_left' rfl
  have behindLength : (codeBody code).drop 8 = code ++ (u2 0 ++ u2 0) := by
    rw [show 8 = 4 + 4 from rfl, ← List.drop_drop, behindSizes]
    exact List.drop_left' rfl
  have announced : (WrittenAttribute.mk label (codeBody code) fits).codeLength = code.length := by
    unfold WrittenAttribute.codeLength
    have field : (u4 code.length ++ (code ++ (u2 0 ++ u2 0))).take 4 = u4 code.length :=
      List.take_left' rfl
    rw [behindSizes, field]
    rw [length_codeBody] at fits
    exact bigEndian_toBigEndian_of_lt (show code.length < 0x100000000 by omega)
  constructor
  · unfold WrittenAttribute.HoldsCode
    rw [announced, length_codeBody]
    omega
  · unfold WrittenAttribute.code
    rw [announced, behindLength]
    exact List.take_left' rfl

section Meaning

variable {table : ConstantPool} {label : UInt16} {m : Member}

theorem field_writtenField {f : FieldDecl} (named : Named table f.access f.name f.descriptor m) :
    (writtenField m).field table = f := by
  unfold writtenField WrittenMember.field
  simp only [named.accessEq, named.nameAt.textOf_eq, named.descriptorAt.textOf_eq]

/-- A method is declared with its bytes. -/
theorem method_writtenMethod (labelled : table.TextAt label "Code")
    (fits : ∀ code ∈ m.code, 12 + code.length < 0x100000000) {access : UInt16}
    {name descriptor : String} (named : Named table access name descriptor m) :
    (writtenMethod label m).method table = ⟨access, name, descriptor, m.code⟩ := by
  obtain ⟨flags, nameIndex, descriptorIndex, body⟩ := m
  obtain ⟨rfl, nameAt, descriptorAt⟩ := named
  have bodies : (((body.bind (codeAttribute? label)).toList.filter (·.isCode table)).getLast?.map
      WrittenAttribute.code) = body := by
    cases body with
    | none => rfl
    | some code =>
      have counted : WrittenAttribute.isCode table
          ⟨label, codeBody code, length_codeBody code ▸ fits code rfl⟩ =
          true := beq_iff_eq.mpr labelled.textOf_eq
      rw [Option.bind_some, codeAttribute?_eq label (fits code rfl), Option.toList_some,
        List.filter_cons_of_pos counted]
      exact congrArg some (code_codeBody label _).2
  unfold writtenMethod WrittenMember.method
  simp only [nameAt.textOf_eq, descriptorAt.textOf_eq, bodies]

theorem readable_writtenMethod (labelled : table.TextAt label "Code") :
    ∀ a ∈ (writtenMethod label m).attributes.items, a.Readable table := by
  intro a member
  obtain ⟨code, -, held⟩ := Option.bind_eq_some_iff.mp (Option.mem_toList.mp member)
  unfold codeAttribute? at held
  split at held
  · cases held
    exact ⟨"Code", labelled, fun _ => (code_codeBody label _).1⟩
  · cases held

end Meaning

theorem exists_of_mem {α β : Type} {related : α → β → Prop} {xs : List α} {ys : List β}
    (all : List.Forall₂ related xs ys) {x : α} (member : x ∈ xs) : ∃ y, related x y := by
  induction all with
  | nil => nomatch member
  | cons first _ ih =>
    rcases List.mem_cons.mp member with rfl | later
    · exact ⟨_, first⟩
    · exact ih later

/-- The class file of a described session is well formed. -/
theorem wellFormed_written {s : Session} {o : Outline} (fits : s.built.Fits)
    {entries : List WrittenConstant} (sound : Sound (s.built.pool.utf8 "Code").2 entries)
    (labelled : (tableOf entries).TextAt (s.built.pool.utf8 "Code").1 "Code")
    (described : Describes (tableOf entries) o s) : (s.built.written fits entries).WellFormed := by
  have few : entries.length + 1 < 0x10000 := sound.length ▸ fits.pool
  have table : (s.built.written fits entries).pool.table = tableOf entries :=
    table_written few sound.narrow
  constructor
  · exact filled_written few sound.narrow
  · rw [table]
    exact ⟨o.name, described.name⟩
  · rw [table]
    intro present
    exact ⟨o.superName, described.super.resolve_left fun absent => present absent.2⟩
  · rw [table]
    intro index member
    exact exists_of_mem described.interfaces member
  · rw [table]
    intro w member
    obtain ⟨m, among, rfl⟩ := List.mem_map.mp member
    obtain ⟨f, named⟩ := exists_of_mem described.fields among
    exact ⟨⟨f.name, named.nameAt⟩, ⟨f.descriptor, named.descriptorAt⟩⟩
  · rw [table]
    intro w member
    obtain ⟨m, among, rfl⟩ := List.mem_map.mp member
    obtain ⟨outline, written⟩ := exists_of_mem described.methods among
    exact ⟨⟨⟨outline.name, written.named.nameAt⟩, ⟨outline.descriptor, written.named.descriptorAt⟩⟩,
      readable_writtenMethod labelled⟩

/-- What the class file of a described session means. -/
theorem classFile_written {s : Session} {o : Outline} (fits : s.built.Fits)
    {entries : List WrittenConstant} (sound : Sound (s.built.pool.utf8 "Code").2 entries)
    (described : Describes (tableOf entries) o s) :
    (s.built.written fits entries).classFile =
      { minor := 0, major := 52, pool := tableOf entries, access := o.access, name := o.name
        superName := o.superName, interfaces := o.interfaces, fields := o.fields
        methods := (s.built.methods.map (writtenMethod (s.built.pool.utf8 "Code").1)).map
          (·.method (tableOf entries)) } := by
  have few : entries.length + 1 < 0x10000 := sound.length ▸ fits.pool
  have table : (s.built.written fits entries).pool.table = tableOf entries :=
    table_written few sound.narrow
  have name : (tableOf entries).classNameOf s.built.name = o.name := described.name.classNameOf_eq
  have superName : (if s.built.super = 0 then "" else (tableOf entries).classNameOf s.built.super) =
      o.superName := by
    rcases described.super with ⟨absent, zero⟩ | named
    · rw [if_pos zero, absent]
    · have present : s.built.super ≠ 0 := by
        obtain ⟨nameIndex, slot, -⟩ := named
        exact slot.1
      rw [if_neg present, named.classNameOf_eq]
  have interfaces : s.built.interfaces.map (tableOf entries).classNameOf = o.interfaces := by
    rw [← List.forall₂_eq_eq_eq, List.forall₂_map_left_iff]
    exact described.interfaces.imp fun _ _ named => named.classNameOf_eq
  have fields : (s.built.fields.map writtenField).map (·.field (tableOf entries)) = o.fields := by
    rw [← List.forall₂_eq_eq_eq, List.forall₂_map_left_iff, List.forall₂_map_left_iff]
    exact described.fields.imp fun _ _ named => field_writtenField named
  unfold WrittenClass.classFile
  rw [table]
  simp only [Class.written, described.access, name, superName, interfaces, fields]

/-! ## Events -/

/-- A method that is declared as the outline says, and whose body is the encoding of its
instructions. -/
structure Declares (table : ConstantPool) (d : MethodDecl) (o : MethodOutline) : Prop where
  access : d.access = o.access
  name : d.name = o.name
  descriptor : d.descriptor = o.descriptor
  body : Option.Rel (fun code body => Instruction.Sequence table 0 code body.instructions)
    d.code o.body

theorem MethodWritten.declares {table : ConstantPool} {label : UInt16} {m : Member}
    {o : MethodOutline} (labelled : table.TextAt label "Code")
    (fits : ∀ code ∈ m.code, 12 + code.length < 0x100000000) (written : MethodWritten table m o) :
    Declares table ((writtenMethod label m).method table) o := by
  rw [method_writtenMethod labelled fits written.named]
  refine ⟨rfl, rfl, rfl, rel_imp (fun code held body encoded => ?_) written.body⟩
  have short := fits code held
  exact encoded.sequence (by omega)

theorem Declares.signature {table : ConstantPool} {d : MethodDecl} {o : MethodOutline}
    (declared : Declares table d o) :
    (d.access, d.name, d.descriptor, d.code.isSome) =
      (o.access, o.name, o.descriptor, o.body.isSome) := by
  obtain ⟨access, name, descriptor, code⟩ := d
  obtain ⟨access', name', descriptor', outline⟩ := o
  obtain ⟨rfl, rfl, rfl, body⟩ := declared
  cases body with
  | none => rfl
  | some _ => rfl

/-- A declared method can be decoded, to the instructions of the outline. -/
theorem Declares.decodes {table : ConstantPool} {d : MethodDecl} {o : MethodOutline}
    (declared : Declares table d o) :
    d.Decodes table ∧ d.instructions table = o.body.elim [] BodyOutline.instructions := by
  obtain ⟨access, name, descriptor, code⟩ := d
  obtain ⟨access', name', descriptor', outline⟩ := o
  obtain ⟨-, -, -, body⟩ := declared
  cases body with
  | none => exact ⟨nofun, rfl⟩
  | some sequence =>
    have walk := Instruction.decodeAll_sequence sequence
    refine ⟨fun code found => ?_, ?_⟩
    · cases found
      rw [walk]
    · unfold MethodDecl.instructions
      simp only [walk, Option.elim_some]

/-- The events of declared methods are those of their outlines. -/
theorem methodsEvents_eq {file : ClassFile} {methods : List MethodDecl}
    {outlines : List MethodOutline} (declared : List.Forall₂ (Declares file.pool) methods outlines)
    (position : Nat) :
    file.methodsEvents (fun _ _ => true) position methods =
      ⟨outlines.flatMap MethodOutline.events ++ [.classEnd], none⟩ := by
  induction declared generalizing position with
  | nil => rfl
  | cons first _ ih =>
    obtain ⟨decodes, instructions⟩ := first.decodes
    rw [methodsEvents_of_decodes decodes, ih, methodEvents_of_decodes decodes,
      instructions, first.access, first.name, first.descriptor]
    simp [MethodOutline.events]

/-! ## Agreement -/

/-- A class file that holds what the outline asks for, with the bodies of the class as it was
built. -/
structure Outline.Realized (o : Outline) (c : Class) (file : ClassFile) : Prop where
  minor : file.minor = 0
  major : file.major = 52
  access : file.access = o.access
  name : file.name = o.name
  superName : file.superName = o.superName
  interfaces : file.interfaces = o.interfaces
  fields : file.fields = o.fields
  methods : file.methods.map (fun m => (m.access, m.name, m.descriptor, m.code.isSome)) =
    o.methods.map (fun m => (m.access, m.name, m.descriptor, m.body.isSome))
  codes : file.methods.map MethodDecl.code = c.methods.map Member.code
  events : file.replay (fun _ _ => true) = ⟨o.events, none⟩

/-- The class file of a described session holds what was asked for. -/
theorem realized_written {s : Session} {o : Outline} (fits : s.built.Fits)
    {entries : List WrittenConstant} (sound : Sound (s.built.pool.utf8 "Code").2 entries)
    (labelled : (tableOf entries).TextAt (s.built.pool.utf8 "Code").1 "Code")
    (described : Describes (tableOf entries) o s) :
    o.Realized s.built (s.built.written fits entries).classFile := by
  have both := (List.forall₂_and_left _ _).mpr ⟨fits.bodies, described.methods⟩
  have declared : List.Forall₂ (Declares (tableOf entries))
      ((s.built.methods.map (writtenMethod (s.built.pool.utf8 "Code").1)).map
        (·.method (tableOf entries)))
      o.methods := by
    rw [List.forall₂_map_left_iff, List.forall₂_map_left_iff]
    exact both.imp fun _ _ method => method.2.declares labelled method.1
  rw [classFile_written fits sound described]
  constructor
  case methods =>
    rw [← List.forall₂_eq_eq_eq, List.forall₂_map_left_iff, List.forall₂_map_right_iff]
    exact declared.imp fun d outline method => method.signature
  case codes =>
    rw [List.map_map, List.map_map]
    refine List.map_congr_left fun m among => ?_
    obtain ⟨outline, written⟩ := exists_of_mem described.methods among
    show ((writtenMethod _ m).method (tableOf entries)).code = m.code
    rw [method_writtenMethod labelled (fits.bodies m among) written.named]
  case events =>
    unfold ClassFile.replay
    rw [methodsEvents_eq declared]
    simp [Outline.events]
  all_goals rfl

/-- **The assembler and the decoder agree.** Whatever calls build a class, in whatever order, they
return; and if the class can be written, its bytes are parsed as exactly what the calls declared,
and decoded to exactly the instructions that they assembled: every interned index still stands for
what it was interned for, and every switch is padded as the decoder expects. -/
theorem assembled_agrees {name superName : String} {interfaces : List String} {calls : List Call}
    (writable : ∀ text ∈ name :: superName :: interfaces, Writable text)
    (wellFormed : ∀ call ∈ calls, call.WellFormed) (access : UInt16) :
    ∃ s, (Session.start access name superName interfaces).run calls = some s ∧
      (s.built.Fits → ∃ file, ClassFile.parse s.built.bytes = .ok file ∧
        ((Outline.start access name superName interfaces).run calls).Realized s.built file) := by
  obtain ⟨s, ran, advances⟩ :=
    exists_run wellFormed (Session.start access name superName interfaces)
    (Outline.start access name superName interfaces)
  refine ⟨s, ran, fun fits => ?_⟩
  have coded :
      Interns (fun _ => True) (·.utf8 "Code") (fun index table => table.TextAt index "Code") :=
    interns_utf8 (by decide)
  -- the pool of the finished file is the largest, so all pools before it fit too
  have grown := coded.grows s.built.pool
  have started := advances.grows
  have last := fits.pool
  unfold Pool.Fits at last
  obtain ⟨entries, sound, described⟩ := describes_start writable access (by unfold Pool.Fits; omega)
  obtain ⟨entries', sound', described'⟩ :=
    advances.sound sound described (by unfold Pool.Fits; omega)
  obtain ⟨more, sound'', described'', labelled⟩ :=
    (coded.frame (stable_describes _ s)).sound sound' described' fits.pool
  have readable := wellFormed_written fits sound'' labelled described''
  have whole : s.built.bytes = (s.built.written fits (entries' ++ more)).encode ++ [] := by
    rw [encode_written fits sound'', List.append_nil]
  refine ⟨_, accepts_read.ofList_eq_ok_iff.mpr ⟨_, [], ⟨_, readable, rfl, rfl⟩, whole⟩, ?_⟩
  exact realized_written fits sound'' labelled described''

/-- Two bodies that are assembled in turns. Body 0 goes into two methods, into the second with a
jump more; `n` names a field, a method and a class; and what an instruction refers to is interned
between other references. -/
def interleavedCalls : List Call :=
  [.field 2 "n" "I",
    .emit 0 (.raw 0x1b []),
    .emit 1 (.invoke 0xb9 "p/I" "run" "()V"),
    .emit 0 (.tableSwitch (-1) 0),
    .method 1 "f" "()V" (some 0),
    .refer (.dynamicCall "run" "()V"),
    .emit 0 (.jump 0xa7 (-25)),
    .emit 1 (.lookupSwitch [-7]),
    .method 1 "g" "()V" (some 0),
    .method 0x401 "n" "I" none,
    .emit 1 (.typeUse 0xbb "n"),
    .method 9 "h" "()V" (some 1)]

theorem assembled_agrees_interleaved :
    (∀ text ∈ ["p/A", "", "p/I"], Writable text) ∧ (∀ call ∈ interleavedCalls, call.WellFormed) ∧
      ∃ s file, (Session.start 0x21 "p/A" "" ["p/I"]).run interleavedCalls = some s ∧ s.built.Fits ∧
        ClassFile.parse s.built.bytes = .ok file ∧
        file.replay (fun _ _ => true) =
          ⟨[.declaration 52 0x21 "p/A" "" ["p/I"], .field 2 "n" "I",
            .method 1 "f" "()V", .instruction (.variableAt 0x15 1),
            .instruction (.tableSwitch (-1) 0 1 [1, 1]), .methodEnd,
            .method 1 "g" "()V", .instruction (.variableAt 0x15 1),
            .instruction (.tableSwitch (-1) 0 1 [1, 1]), .instruction (.jump 0xa7 (-1)), .methodEnd,
            .method 0x401 "n" "I", .methodEnd,
            .method 9 "h" "()V", .instruction (.invoke 0xb9 ⟨"p/I", "run", "()V", true⟩),
            .instruction (.lookupSwitch 5 [-7] [5]), .instruction (.typeUse 0xbb "n"), .methodEnd,
            .classEnd], none⟩ := by
  have writable : ∀ text ∈ ["p/A", "", "p/I"], Writable text := by decide +kernel
  have wellFormed : ∀ call ∈ interleavedCalls, call.WellFormed := by decide +kernel
  obtain ⟨s, ran, agrees⟩ := assembled_agrees writable wellFormed 0x21
  have fits : s.built.Fits := by
    have checked : ((Session.start 0x21 "p/A" "" ["p/I"]).run interleavedCalls).all
        (fun s => decide s.built.Fits) = true := by decide +kernel
    rw [ran] at checked
    exact of_decide_eq_true checked
  obtain ⟨file, parsed, realized⟩ := agrees fits
  refine ⟨writable, wellFormed, s, file, ran, fits, parsed, realized.events.trans ?_⟩
  exact congrArg (Replay.mk · none) (by decide +kernel)

end JarMetrics.Assembly
