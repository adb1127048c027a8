import JarMetrics.Proofs.PoolReading

/-!
# Parsing is exact

`parse_exact` says what `ClassFile.parse` accepts and what it returns. It succeeds exactly on the
bytes that start with the encoding of a well-formed `WrittenClass`, and then it returns the meaning
of that class file, whatever follows it.

Attributes, members and the whole file are treated in turn, each with the grammar that its reader
accepts.
-/

namespace JarMetrics.ClassFile

open Grammar

/-! ## Resolved indices -/

theorem ConstantPool.TextAt.textOf_eq {pool : ConstantPool} {index : UInt16} {text : String}
    (held : pool.TextAt index text) : pool.textOf index = text := by
  unfold textOf
  rw [held.2]

theorem ConstantPool.ClassAt.classNameOf_eq {pool : ConstantPool} {index : UInt16} {name : String}
    (held : pool.ClassAt index name) : pool.classNameOf index = name := by
  obtain ⟨nameIndex, slot, text⟩ := held
  unfold classNameOf
  rw [slot.2]
  exact text.textOf_eq

/-- A text that is looked up while reading. -/
theorem accepts_utf8 (pool : ConstantPool) (index : UInt16) :
    Accepts (liftM (pool.utf8 index) : Reader String)
      (fun bytes text => bytes = [] ∧ pool.TextAt index text) :=
  (Accepts.lift _).congr fun _ _ => by rw [ConstantPool.utf8_eq_ok_iff]

theorem inPlace_eq_ok_iff {α : Type} {place : Place} {action : Except Error α} {value : α} :
    inPlace place action = .ok value ↔ action = .ok value := by
  cases action with
  | error fault =>
    constructor
    · intro run
      cases run
    · intro run
      cases run
  | ok found =>
    constructor
    · intro run
      cases run
      rfl
    · intro run
      cases run
      rfl

/-- A class name that is looked up while reading. -/
theorem accepts_className (pool : ConstantPool) (place : Place) (index : UInt16) :
    Accepts (liftM (inPlace place (pool.className index)) : Reader String)
      (fun bytes name => bytes = [] ∧ pool.ClassAt index name) :=
  (Accepts.lift _).congr fun _ _ => by rw [inPlace_eq_ok_iff, ConstantPool.className_eq_ok_iff]

theorem accepts_inPlace {α : Type} {read : Reader α} {grammar : Grammar α}
    (accepts : Accepts read grammar) (place : Place) :
    Accepts (Reader.inPlace place read) grammar :=
  accepts.mapError _

/-! ## Attributes -/

theorem accepts_readAttribute :
    Accepts readAttribute (image (fun _ => True) WrittenAttribute.encode fun a =>
      (a.name, a.body)) := by
  refine (accepts_u2.bind fun name => (accepts_number 4).bind fun length =>
    (accepts_take length).map fun body => (name, body)).congr fun bytes value => ?_
  constructor
  · rintro ⟨-, -, name, rfl, rfl, front, back, -, rfl, ⟨width, rfl⟩, body, ⟨length, rfl⟩, rfl⟩
    have fits : body.length < 0x100000000 := length ▸ bigEndian_lt width
    refine ⟨⟨name, body, fits⟩, trivial, ?_, rfl⟩
    show _ = twoBytes name ++ toBigEndian 4 body.length ++ body
    rw [length, toBigEndian_bigEndian width, List.append_assoc]
  · rintro ⟨a, -, rfl, rfl⟩
    refine ⟨_, _, a.name, List.append_assoc _ _ _, rfl, _, _, _, rfl, ⟨length_toBigEndian 4 _, rfl⟩,
      a.body, ⟨?_, rfl⟩, rfl⟩
    exact (bigEndian_toBigEndian_of_lt a.fits).symm

theorem accepts_skipAttribute :
    Accepts skipAttribute (image (fun _ => True) WrittenAttribute.encode fun _ => ()) := by
  refine ((accepts_skip 2).bind fun _ => (accepts_number 4).bind accepts_skip).congr
    fun bytes value => ?_
  constructor
  · rintro ⟨label, -, -, rfl, named, front, body, -, rfl, ⟨width, rfl⟩, length⟩
    obtain ⟨name, rfl⟩ := length_two_iff.mp named
    have fits : body.length < 0x100000000 := length ▸ bigEndian_lt width
    refine ⟨⟨name, body, fits⟩, trivial, ?_, rfl⟩
    show _ = twoBytes name ++ toBigEndian 4 body.length ++ body
    rw [length, toBigEndian_bigEndian width, List.append_assoc]
  · rintro ⟨a, -, rfl, -⟩
    refine ⟨_, _, (), List.append_assoc _ _ _, length_twoBytes a.name, _, _, _, rfl,
      ⟨length_toBigEndian 4 _, rfl⟩, ?_⟩
    exact (bigEndian_toBigEndian_of_lt a.fits).symm

/-- The bytecode of an attribute is found exactly when its body has room for it. -/
theorem codeOfAttribute_eq_ok_iff {a : WrittenAttribute} {code : List UInt8} :
    codeOfAttribute a.body = .ok code ↔ a.HoldsCode ∧ code = a.code := by
  have accepts := (accepts_skip 4).bind fun _ => (accepts_number 4).bind accepts_take
  refine accepts.ofList_eq_ok_iff.trans ?_
  constructor
  · -- the body is the two sizes, the length of the code, the code and what follows it
    rintro ⟨-, tail, ⟨sizes, back, -, rfl, four, front, code, -, rfl, ⟨width, rfl⟩, length, rfl⟩,
      body⟩
    have announced : a.codeLength = code.length := by
      unfold WrittenAttribute.codeLength
      rw [body, List.append_assoc, List.append_assoc, List.drop_left' four,
        List.take_left' width, length]
    refine ⟨?_, ?_⟩
    · unfold WrittenAttribute.HoldsCode
      rw [announced, body]
      simp only [List.length_append]
      omega
    · unfold WrittenAttribute.code
      have eight : (sizes ++ front).length = 8 := by rw [List.length_append, four, width]
      rw [announced, body, ← List.append_assoc, List.append_assoc (sizes ++ front),
        List.drop_left' eight, List.take_left]
  · rintro ⟨⟨eight, room⟩, rfl⟩
    have sizes : (a.body.take 4).length = 4 := by rw [List.length_take]; omega
    have front : ((a.body.drop 4).take 4).length = 4 := by
      rw [List.length_take, List.length_drop]; omega
    have code : a.code.length = a.codeLength := by
      unfold WrittenAttribute.code
      rw [List.length_take, List.length_drop]
      omega
    refine ⟨_, a.body.drop (8 + a.codeLength),
      ⟨_, _, (), rfl, sizes, _, _, _, rfl, ⟨front, rfl⟩, code, rfl⟩, ?_⟩
    unfold WrittenAttribute.code
    have twice : (a.body.drop 4).drop 4 = a.body.drop 8 := List.drop_drop
    rw [List.append_assoc, List.append_assoc, ← List.drop_drop, List.take_append_drop, ← twice,
      List.take_append_drop, List.take_append_drop]

/-- What reading an attribute of a method leaves behind: the bytecode that it holds, if it is a
`Code`. -/
def WrittenAttribute.found (pool : ConstantPool) (a : WrittenAttribute) : Option (List UInt8) :=
  if a.isCode pool then some a.code else none

theorem WrittenAttribute.found_of_textAt {pool : ConstantPool} {a : WrittenAttribute}
    {label : String} (held : pool.TextAt a.name label) :
    a.found pool = if label = "Code" then some a.code else none := by
  unfold found isCode
  rw [held.textOf_eq]
  simp only [beq_iff_eq]

theorem accepts_readMethodAttribute (pool : ConstantPool) (place : Place) :
    Accepts (readMethodAttribute pool place)
      (image (WrittenAttribute.Readable pool) WrittenAttribute.encode
        (WrittenAttribute.found pool)) := by
  refine (accepts_readAttribute.bind fun pair => (accepts_utf8 pool pair.1).bind fun label =>
    Accepts.ite ((Accepts.lift (inPlace place (codeOfAttribute pair.2))).map some)
      (Accepts.pure none)).congr
      fun bytes value => ?_
  constructor
  · rintro ⟨-, -, -, rfl, ⟨a, -, rfl, rfl⟩, -, -, label, rfl, ⟨rfl, held⟩,
      ⟨isCode, code, ⟨rfl, run⟩, rfl⟩ | ⟨other, rfl, rfl⟩⟩
    · obtain ⟨holds, rfl⟩ := codeOfAttribute_eq_ok_iff.mp (inPlace_eq_ok_iff.mp run)
      refine ⟨a, ⟨label, held, fun _ => holds⟩, List.append_nil _, ?_⟩
      rw [WrittenAttribute.found_of_textAt held, if_pos isCode]
    · refine ⟨a, ⟨label, held, fun isCode => absurd isCode other⟩, List.append_nil _, ?_⟩
      rw [WrittenAttribute.found_of_textAt held, if_neg other]
  · rintro ⟨a, ⟨label, held, holds⟩, rfl, rfl⟩
    refine ⟨_, [], _, (List.append_nil _).symm, ⟨a, trivial, rfl, rfl⟩, [], [],
      label, rfl, ⟨rfl, held⟩, ?_⟩
    rw [WrittenAttribute.found_of_textAt held]
    by_cases isCode : label = "Code"
    · rw [if_pos isCode]
      have run := codeOfAttribute_eq_ok_iff.mpr ⟨holds isCode, rfl⟩
      exact .inl ⟨isCode, _, ⟨rfl, inPlace_eq_ok_iff.mpr run⟩, rfl⟩
    · rw [if_neg isCode]
      exact .inr ⟨isCode, rfl, rfl⟩

/-- The last bytecode that was found is that of the last `Code`. -/
theorem getLast_found (pool : ConstantPool) (attributes : List WrittenAttribute) :
    ((attributes.map (WrittenAttribute.found pool)).filterMap id).getLast? =
      (attributes.filter (·.isCode pool)).getLast?.map WrittenAttribute.code := by
  have kept : (attributes.map (WrittenAttribute.found pool)).filterMap id =
      (attributes.filter (·.isCode pool)).map WrittenAttribute.code := by
    rw [List.filterMap_map]
    induction attributes with
    | nil => rfl
    | cons a rest ih =>
      by_cases isCode : a.isCode pool = true
      · have found : (id ∘ WrittenAttribute.found pool) a = some a.code := if_pos isCode
        rw [List.filterMap_cons_some found, List.filter_cons_of_pos isCode, List.map_cons, ih]
      · have found : (id ∘ WrittenAttribute.found pool) a = none := if_neg isCode
        rw [List.filterMap_cons_none found, List.filter_cons_of_neg isCode, ih]
  rw [kept, List.getLast?_map]

/-! ## Members -/

theorem accepts_readMemberHead (pool : ConstantPool) :
    Accepts (readMemberHead pool) (fun bytes value => ∃ access name descriptor count,
      bytes = twoBytes access ++ twoBytes name ++ twoBytes descriptor ++ toBigEndian 2 count ∧
      count < 0x10000 ∧ value = (access, pool.textOf name, pool.textOf descriptor, count) ∧
      (∃ text, pool.TextAt name text) ∧ ∃ text, pool.TextAt descriptor text) := by
  refine (accepts_u2.bind fun access => accepts_u2.bind fun name =>
    accepts_u2.bind fun descriptor =>
    (accepts_number 2).bind fun count => (accepts_utf8 pool name).bind fun text =>
      (accepts_utf8 pool descriptor).map fun kind =>
        (access, text, kind, count)).congr fun bytes value => ?_
  constructor
  · rintro ⟨-, -, access, rfl, rfl, -, -, name, rfl, rfl, -, -, descriptor, rfl,
      rfl, front, -, -, rfl, ⟨width, rfl⟩, -, -, text, rfl, ⟨rfl, named⟩, kind, ⟨rfl, typed⟩, rfl⟩
    refine ⟨access, name, descriptor, bigEndian front, ?_, bigEndian_lt width, ?_,
      ⟨text, named⟩, kind, typed⟩
    · rw [toBigEndian_bigEndian width]
      simp only [List.append_nil, List.append_assoc]
    · rw [named.textOf_eq, typed.textOf_eq]
  · rintro ⟨access, name, descriptor, count, rfl, fits, rfl, ⟨text, named⟩, kind, typed⟩
    refine ⟨_, _, access, ?_, rfl, _, _, name, rfl, rfl, _, _, descriptor, rfl, rfl, _, [], _, rfl,
      ⟨length_toBigEndian 2 count, rfl⟩, [], [], text, rfl, ⟨rfl, named⟩, kind, ⟨rfl, typed⟩, ?_⟩
    · simp only [List.append_nil, List.append_assoc]
    · rw [named.textOf_eq, typed.textOf_eq, bigEndian_toBigEndian_of_lt fits]

/-- A member whose attributes are read one by one and then put together with its head. -/
theorem accepts_member {α β : Type} (pool : ConstantPool) {read : String → String → Nat → Reader α}
    {valid : WrittenAttribute → Prop} {meaning : WrittenAttribute → α}
    (accepts : ∀ name descriptor position,
      Accepts (read name descriptor position) (image valid WrittenAttribute.encode meaning))
    (build : UInt16 → String → String → List α → β) :
    Accepts (do
        let (access, name, descriptor, attributes) ← readMemberHead pool
        let found ← Reader.repeatN (read name descriptor) attributes
        return build access name descriptor found)
      (image (fun m => m.Named pool ∧ ∀ a ∈ m.attributes.items, valid a) WrittenMember.encode
        fun m => build m.access (pool.textOf m.name) (pool.textOf m.descriptor)
          (m.attributes.items.map meaning)) := by
  refine ((accepts_readMemberHead pool).bind fun head =>
    (accepts_repeatN (accepts head.2.1 head.2.2.1) head.2.2.2).map
      (build head.1 head.2.1 head.2.2.1)).congr fun bytes value => ?_
  constructor
  · rintro ⟨-, back, -, rfl, ⟨access, name, descriptor, count, rfl, fits, rfl, named⟩,
      found, ⟨many, length⟩, rfl⟩
    obtain ⟨attributes, good, rfl, rfl⟩ := many_image_iff.mp many
    rw [List.length_map] at length
    subst length
    refine ⟨⟨access, name, descriptor, attributes, fits⟩, ⟨named, good⟩, ?_, rfl⟩
    rw [List.append_assoc]
    rfl
  · rintro ⟨m, ⟨named, good⟩, rfl, rfl⟩
    exact ⟨_, _, _, (List.append_assoc _ _ _).symm,
      ⟨m.access, m.name, m.descriptor, _, rfl, m.attributes.fits, rfl, named⟩,
      _, ⟨many_image_iff.mpr ⟨_, good, rfl, rfl⟩, List.length_map _⟩, rfl⟩

theorem accepts_readField (pool : ConstantPool) :
    Accepts (readField pool)
      (image (WrittenMember.Named pool) WrittenMember.encode (WrittenMember.field pool)) := by
  refine (accepts_member pool (fun _ _ _ => accepts_readAttribute)
    fun access name descriptor _ =>
      ({ access, name, descriptor } : FieldDecl)).congr fun bytes value => ?_
  constructor
  · rintro ⟨m, ⟨named, -⟩, rfl, rfl⟩
    exact ⟨m, named, rfl, rfl⟩
  · rintro ⟨m, named, rfl, rfl⟩
    exact ⟨m, ⟨named, fun _ _ => trivial⟩, rfl, rfl⟩

theorem accepts_readMethod (pool : ConstantPool) :
    Accepts (readMethod pool)
      (image (fun m => m.Named pool ∧
        ∀ a ∈ m.attributes.items, a.Readable pool) WrittenMember.encode
        (WrittenMember.method pool)) := by
  refine (accepts_member pool
    (fun name descriptor _ => accepts_readMethodAttribute pool (.method name descriptor))
    fun access name descriptor codes =>
      ({ access, name, descriptor, code := (codes.filterMap id).getLast? } : MethodDecl)).congr
        fun bytes value => ?_
  have meaning : ∀ m : WrittenMember, m.method pool =
      { access := m.access
        name := pool.textOf m.name
        descriptor := pool.textOf m.descriptor
        code :=
            ((m.attributes.items.map (WrittenAttribute.found pool)).filterMap id).getLast? } := by
    intro m
    rw [getLast_found]
    rfl
  constructor
  · rintro ⟨m, valid, rfl, rfl⟩
    exact ⟨m, valid, rfl, (meaning m).symm⟩
  · rintro ⟨m, valid, rfl, rfl⟩
    exact ⟨m, valid, rfl, meaning m⟩

/-! ## The whole file -/

theorem accepts_readMagic : Accepts readMagic (fun bytes _ => bytes = toBigEndian 4 magic) := by
  have check : ∀ found,
      Accepts (if found ≠ magic then throw (.badMagic found) else pure () : Reader Unit) _ :=
    fun found => Accepts.ite (Accepts.throw _) (Accepts.pure ())
  refine ((accepts_number 4).bind check).congr fun bytes value => ?_
  constructor
  · rintro ⟨front, -, -, rfl, ⟨width, rfl⟩, ⟨-, ⟨⟩⟩ | ⟨right, rfl, -⟩⟩
    rw [← Decidable.of_not_not right, toBigEndian_bigEndian width, List.append_nil]
  · rintro rfl
    refine ⟨_, [], _, (List.append_nil _).symm, ⟨length_toBigEndian 4 _, rfl⟩, .inr ⟨?_, rfl, rfl⟩⟩
    rw [bigEndian_toBigEndian_of_lt (by decide)]
    exact fun wrong => wrong rfl

theorem accepts_superclassName (pool : ConstantPool) (index : UInt16) :
    Accepts (liftM (superclassName pool index) : Reader String) (fun bytes name => bytes = [] ∧
      (index ≠ 0 → ∃ held, pool.ClassAt index held) ∧
      name = if index = 0 then "" else pool.classNameOf index) := by
  refine (Accepts.lift _).congr fun bytes name => and_congr_right fun _ => ?_
  unfold superclassName
  by_cases zero : index = 0
  · rw [if_pos zero, if_pos zero]
    constructor
    · rintro ⟨⟩
      exact ⟨fun present => absurd zero present, rfl⟩
    · rintro ⟨-, rfl⟩
      rfl
  · rw [if_neg zero, if_neg zero, inPlace_eq_ok_iff, ConstantPool.className_eq_ok_iff]
    constructor
    · intro held
      exact ⟨fun _ => ⟨name, held⟩, held.classNameOf_eq.symm⟩
    · rintro ⟨present, rfl⟩
      obtain ⟨held, found⟩ := present zero
      rwa [found.classNameOf_eq]

theorem accepts_readInterface (pool : ConstantPool) (position : Nat) :
    Accepts (readInterface pool position)
      (image (fun index => ∃ name, pool.ClassAt index name) twoBytes pool.classNameOf) := by
  refine (accepts_u2.bind (accepts_className pool (.interface position))).congr fun bytes name => ?_
  constructor
  · rintro ⟨-, -, index, rfl, rfl, rfl, held⟩
    exact ⟨index, ⟨name, held⟩, List.append_nil _, held.classNameOf_eq.symm⟩
  · rintro ⟨index, ⟨name, held⟩, rfl, rfl⟩
    exact ⟨_, [], index, (List.append_nil _).symm, rfl, rfl, by rwa [held.classNameOf_eq]⟩

/-- The access flags and the names of the class and of its superclass, with whatever is read behind
them. -/
theorem accepts_names {α : Type} (pool : ConstantPool) {rest : UInt16 → String → String → Reader α}
    {grammar : UInt16 → String → String → Grammar α}
    (accepts : ∀ access name superName,
      Accepts (rest access name superName) (grammar access name superName)) :
    Accepts (do
        let access ← Reader.u2
        let this ← Reader.u2
        let super ← Reader.u2
        let name ← inPlace .thisClass (pool.className this)
        let superName ← superclassName pool super
        rest access name superName)
      (fun bytes value => ∃ access this super back,
        bytes = twoBytes access ++ (twoBytes this ++ (twoBytes super ++ back)) ∧
        (∃ name, pool.ClassAt this name) ∧ (super ≠ 0 → ∃ name, pool.ClassAt super name) ∧
        grammar access (pool.classNameOf this)
          (if super = 0 then "" else pool.classNameOf super) back value) := by
  refine (accepts_u2.bind fun access => accepts_u2.bind fun this => accepts_u2.bind fun super =>
    (accepts_className pool .thisClass this).bind fun name =>
    (accepts_superclassName pool super).bind fun superName =>
      accepts access name superName).congr fun bytes value => ?_
  constructor
  · rintro ⟨-, -, access, rfl, rfl, -, -, this, rfl, rfl, -, -, super, rfl, rfl, -, -, name,
      rfl, ⟨rfl, thisClass⟩, -, back, -, rfl, ⟨rfl, superClass, rfl⟩, written⟩
    rw [← thisClass.classNameOf_eq] at written
    exact ⟨access, this, super, back, rfl, ⟨name, thisClass⟩, superClass, written⟩
  · rintro ⟨access, this, super, back, rfl, ⟨name, thisClass⟩, superClass, written⟩
    rw [thisClass.classNameOf_eq] at written
    exact ⟨_, _, access, rfl, rfl, _, _, this, rfl, rfl, _, _, super, rfl, rfl, [], _, name,
      rfl, ⟨rfl, thisClass⟩, [], back, _, rfl, ⟨rfl, superClass, rfl⟩, written⟩

/-- The four lists that end a class file, of which the last one is only skipped. -/
theorem accepts_lists {α : Type} (pool : ConstantPool)
    (build : List String → List FieldDecl → List MethodDecl → α) :
    Accepts (do
        let interfaces ← Reader.counted (readInterface pool)
        let fields ← Reader.inPlace .fields (Reader.counted fun _ => readField pool)
        let methods ← Reader.inPlace .methods (Reader.counted fun _ => readMethod pool)
        let _ ← Reader.inPlace .attributes (Reader.counted fun _ => skipAttribute)
        return build interfaces fields methods)
      (fun bytes value => ∃ (interfaces : Counted UInt16) (fields methods : Counted WrittenMember)
        (attributes : Counted WrittenAttribute),
        bytes = interfaces.encode twoBytes ++ (fields.encode WrittenMember.encode ++
          (methods.encode WrittenMember.encode ++ attributes.encode WrittenAttribute.encode)) ∧
        (∀ index ∈ interfaces.items, ∃ name, pool.ClassAt index name) ∧
        (∀ m ∈ fields.items, m.Named pool) ∧
        (∀ m ∈ methods.items, m.Named pool ∧ ∀ a ∈ m.attributes.items, a.Readable pool) ∧
        value = build (interfaces.items.map pool.classNameOf)
          (fields.items.map (WrittenMember.field pool))
          (methods.items.map (WrittenMember.method pool))) := by
  refine ((accepts_counted (accepts_readInterface pool)).bind fun interfaces =>
    (accepts_inPlace (accepts_counted fun _ => accepts_readField pool) .fields).bind fun fields =>
    (accepts_inPlace (accepts_counted fun _ =>
      accepts_readMethod pool) .methods).bind fun methods =>
    (accepts_inPlace (accepts_counted fun _ => accepts_skipAttribute) .attributes).map fun _ =>
      build interfaces fields methods).congr fun bytes value => ?_
  constructor
  · rintro ⟨-, -, -, rfl, ⟨interfaces, resolved, rfl, rfl⟩, -, -, -, rfl, ⟨fields, named, rfl, rfl⟩,
      -, -, -, rfl, ⟨methods, readable, rfl, rfl⟩, -, ⟨attributes, -, rfl, -⟩, rfl⟩
    exact ⟨interfaces, fields, methods, attributes, rfl, resolved, named, readable, rfl⟩
  · rintro ⟨interfaces, fields, methods, attributes, rfl, resolved, named, readable, rfl⟩
    exact ⟨_, _, _, rfl, ⟨interfaces, resolved, rfl, rfl⟩, _, _, _, rfl, ⟨fields, named, rfl, rfl⟩,
      _, _, _, rfl, ⟨methods, readable, rfl, rfl⟩, _,
      ⟨attributes, fun _ _ => trivial, rfl, rfl⟩, rfl⟩

theorem accepts_read :
    Accepts read (image WrittenClass.WellFormed WrittenClass.encode WrittenClass.classFile) := by
  refine (accepts_readMagic.bind fun _ => accepts_u2.bind fun minor => accepts_u2.bind fun major =>
    accepts_readPool.bind fun pool => accepts_names pool fun access name superName =>
      accepts_lists pool fun interfaces fields methods =>
        ({ minor, major, pool, access, name, superName, interfaces, fields, methods } :
          ClassFile)).congr fun bytes file => ?_
  constructor
  · rintro ⟨-, -, -, rfl, rfl, -, -, minor, rfl, rfl, -, -, major, rfl, rfl, -, -, -, rfl,
      ⟨pool, filled, rfl, rfl⟩, access, this, super, -, rfl, thisClass, superClass,
      interfaces, fields, methods, attributes, rfl, resolved, named, readable, rfl⟩
    refine ⟨⟨minor, major, pool, access, this, super, interfaces, fields, methods, attributes⟩,
      ⟨filled, thisClass, superClass, resolved, named, readable⟩, ?_, rfl⟩
    unfold WrittenClass.encode
    simp only [List.append_assoc]
  · rintro ⟨w, ⟨filled, thisClass, superClass, resolved, named, readable⟩, rfl, rfl⟩
    unfold WrittenClass.encode
    simp only [List.append_assoc]
    exact ⟨_, _, (), rfl, rfl, _, _, w.minor, rfl, rfl, _, _, w.major, rfl, rfl, _, _, _, rfl,
      ⟨w.pool, filled, rfl, rfl⟩, w.access, w.this, w.super, _, rfl, thisClass, superClass,
      w.interfaces, w.fields, w.methods, w.attributes, rfl, resolved, named, readable, rfl⟩

/-- Parsing succeeds exactly on the encodings of well-formed class files, with any bytes behind
them, and returns what was encoded: the versions, the pool with its unused slots, the access flags,
the names behind the indices, and the members in order, each method with the bytecode of its last
`Code` attribute if it has one. -/
theorem parse_exact (bytes : List UInt8) (file : ClassFile) :
    parse bytes = .ok file ↔
      ∃ (w : WrittenClass) (tail : List UInt8), w.WellFormed ∧ bytes = w.encode ++ tail ∧
        file = w.classFile := by
  refine accepts_read.ofList_eq_ok_iff.trans ?_
  constructor
  · rintro ⟨-, tail, ⟨w, wellFormed, rfl, rfl⟩, rfl⟩
    exact ⟨w, tail, wellFormed, rfl, rfl⟩
  · rintro ⟨w, tail, wellFormed, rfl, rfl⟩
    exact ⟨_, tail, ⟨w, wellFormed, rfl, rfl⟩, rfl⟩

/-- A class without members. Its last constant is a long whose second slot falls past the end of the
pool. -/
def bareClass : WrittenClass :=
  { minor := 0
    major := 52
    pool := ⟨4, [.utf8 [0x41] (by decide), .classRef 1, .long 7]⟩
    access := 0x21
    this := 2
    super := 0
    interfaces := ⟨[], by decide⟩
    fields := ⟨[], by decide⟩
    methods := ⟨[], by decide⟩
    attributes := ⟨[], by decide⟩ }

theorem parse_exact_bareClass :
    parse [0xca, 0xfe, 0xba, 0xbe, 0, 0, 0, 52, 0, 4, 1, 0, 1, 0x41, 7, 0, 1, 5, 0, 0, 0, 0, 0, 0,
        0, 7, 0, 0x21, 0, 2, 0, 0, 0, 0, 0, 0, 0, 0, 0, 0, 0xff] =
      .ok { minor := 0, major := 52, pool := ⟨#[.unused, .utf8 "A", .classRef 1, .long]⟩,
            access := 0x21, name := "A", superName := "", interfaces := [], fields := [],
            methods := [] } := by
  have filled : bareClass.pool.Filled :=
    ⟨3, by decide, .inr ⟨by decide, [.utf8 [0x41] (by decide), .classRef 1], .long 7, rfl, rfl⟩⟩
  have named : bareClass.pool.table.ClassAt 2 "A" :=
    ⟨1, ⟨by decide, by decide +kernel⟩, by decide, by decide +kernel⟩
  refine (parse_exact _ _).mpr ⟨bareClass, [0xff], ?_, by decide +kernel, by decide +kernel⟩
  exact
    { pool := filled
      thisClass := ⟨"A", named⟩
      superClass := fun present => absurd rfl present
      interfaces := fun _ member => nomatch member
      fields := fun _ member => nomatch member
      methods := fun _ member => nomatch member }

end JarMetrics.ClassFile
