import JarMetrics.ClassFile.ConstantPool

/-!
# What a pool index stands for

The look-ups of `ConstantPool` as relations. An index stands for a text, a class name, a name and
type, a member or a dynamic call site when its slot holds a constant of that kind and the indices in
the constant stand for what they have to in turn. Each look-up succeeds exactly when the relation
holds, with the texts that the relation names. What an index stands for does not change when the
pool grows (`Extends`).
-/

namespace JarMetrics.ClassFile.ConstantPool

/-- The slot of a non-zero index holds `constant`. -/
def Holds (pool : ConstantPool) (index : UInt16) (constant : Constant) : Prop :=
  index ≠ 0 ∧ pool.slots[index.toNat]? = some constant

/-- The index of a text. -/
def TextAt (pool : ConstantPool) (index : UInt16) (text : String) : Prop :=
  pool.Holds index (.utf8 text)

/-- The index of a class constant, which refers to the text of its name. -/
def ClassAt (pool : ConstantPool) (index : UInt16) (name : String) : Prop :=
  ∃ nameIndex, pool.Holds index (.classRef nameIndex) ∧ pool.TextAt nameIndex name

/-- The index of a name and a descriptor. -/
def NameAndTypeAt (pool : ConstantPool) (index : UInt16) (name descriptor : String) : Prop :=
  ∃ nameIndex descriptorIndex, pool.Holds index (.nameAndType nameIndex descriptorIndex) ∧
    pool.TextAt nameIndex name ∧ pool.TextAt descriptorIndex descriptor

/-- The three kinds of constant that refer to a member, and whether the member is an interface's. -/
inductive RefersToMember (owner nameAndType : UInt16) : Bool → Constant → Prop
  | field : RefersToMember owner nameAndType false (.fieldRef owner nameAndType)
  | method : RefersToMember owner nameAndType false (.methodRef owner nameAndType)
  | interfaceMethod : RefersToMember owner nameAndType true (.interfaceMethodRef owner nameAndType)

/-- The index of a member reference of any of the three kinds. -/
def MemberAt (pool : ConstantPool) (index : UInt16) (member : MemberRef) : Prop :=
  ∃ owner nameAndType constant, RefersToMember owner nameAndType member.ofInterface constant ∧
    pool.Holds index constant ∧ pool.ClassAt owner member.owner ∧
    pool.NameAndTypeAt nameAndType member.name member.descriptor

/-- The index of a dynamic call site. -/
def CallSiteAt (pool : ConstantPool) (index : UInt16) (name descriptor : String) : Prop :=
  ∃ bootstrap nameAndType, pool.Holds index (.invokeDynamic bootstrap nameAndType) ∧
    pool.NameAndTypeAt nameAndType name descriptor

variable {pool : ConstantPool} {index : UInt16}

theorem get_eq_ok_iff {constant : Constant} :
    pool.get index = .ok constant ↔ pool.Holds index constant := by
  unfold get Holds
  by_cases zero : index = 0
  · simp [zero]
  · rw [if_neg zero]
    cases pool.slots[index.toNat]? with
    | none => simp
    | some found => simp [zero]

/-- A look-up that goes on from the constant at an index. -/
theorem get_bind_eq_ok_iff {α : Type} {next : Constant → Except Error α} {value : α} :
    (pool.get index >>= next) = .ok value ↔ ∃ constant, pool.Holds index constant ∧
    next constant = .ok value := by
  simp only [← get_eq_ok_iff]
  cases pool.get index with
  | error fault => simp [bind, Except.bind]
  | ok constant => simp [bind, Except.bind]

theorem utf8_eq_ok_iff {text : String} : pool.utf8 index = .ok text ↔ pool.TextAt index text := by
  unfold utf8 TextAt
  rw [get_bind_eq_ok_iff]
  constructor
  · rintro ⟨constant, held, run⟩
    cases constant with
    | utf8 found =>
      cases run
      exact held
    | _ => cases run
  · intro held
    exact ⟨_, held, rfl⟩

theorem className_eq_ok_iff {name : String} :
    pool.className index = .ok name ↔ pool.ClassAt index name := by
  unfold className ClassAt
  rw [get_bind_eq_ok_iff]
  constructor
  · rintro ⟨constant, held, run⟩
    cases constant with
    | classRef nameIndex => exact ⟨nameIndex, held, utf8_eq_ok_iff.mp run⟩
    | _ => cases run
  · rintro ⟨nameIndex, held, text⟩
    exact ⟨_, held, utf8_eq_ok_iff.mpr text⟩

/-- Two look-ups whose results are paired. -/
theorem pair_eq_ok_iff {ε α β : Type} {first : Except ε α} {second : Except ε β} {a : α} {b : β} :
    (do return (← first, ← second) : Except ε (α × β)) = .ok (a, b) ↔
    first = .ok a ∧ second = .ok b := by
  cases first with
  | error fault => simp [bind, Except.bind]
  | ok x =>
    cases second with
    | error fault => simp [bind, Except.bind]
    | ok y => simp [bind, Except.bind, pure, Except.pure]

theorem nameAndType_eq_ok_iff {name descriptor : String} :
    pool.nameAndType index = .ok (name, descriptor) ↔ pool.NameAndTypeAt index name descriptor := by
  unfold nameAndType NameAndTypeAt
  rw [get_bind_eq_ok_iff]
  constructor
  · rintro ⟨constant, held, run⟩
    cases constant with
    | nameAndType nameIndex descriptorIndex =>
      obtain ⟨hname, hdescriptor⟩ := pair_eq_ok_iff.mp run
      exact ⟨_, _, held, utf8_eq_ok_iff.mp hname, utf8_eq_ok_iff.mp hdescriptor⟩
    | _ => cases run
  · rintro ⟨nameIndex, descriptorIndex, held, hname, hdescriptor⟩
    exact ⟨_, held, pair_eq_ok_iff.mpr ⟨utf8_eq_ok_iff.mpr hname, utf8_eq_ok_iff.mpr hdescriptor⟩⟩

/-- All three kinds of reference go on with the same two look-ups. -/
theorem memberOf_eq_ok_iff {owner nameAndType : UInt16} {ofInterface : Bool} {member : MemberRef} :
    pool.memberOf owner nameAndType ofInterface = .ok member ↔
      ofInterface = member.ofInterface ∧ pool.ClassAt owner member.owner ∧
        pool.NameAndTypeAt nameAndType member.name member.descriptor := by
  rw [← className_eq_ok_iff, ← nameAndType_eq_ok_iff]
  unfold memberOf
  cases member
  cases pool.className owner with
  | error fault => simp [bind, Except.bind]
  | ok found =>
    cases pool.nameAndType nameAndType with
    | error fault => simp [bind, Except.bind]
    | ok pair =>
      cases pair
      simp only [bind, Except.bind, pure, Except.pure, Except.ok.injEq,
        MemberRef.mk.injEq, Prod.mk.injEq]
      constructor
      · rintro ⟨ho, hn, hd, hi⟩
        exact ⟨hi, ho, hn, hd⟩
      · rintro ⟨hi, ho, hn, hd⟩
        exact ⟨ho, hn, hd, hi⟩

theorem memberRef_eq_ok_iff {member : MemberRef} :
    pool.memberRef index = .ok member ↔ pool.MemberAt index member := by
  unfold memberRef MemberAt
  rw [get_bind_eq_ok_iff]
  constructor
  · rintro ⟨constant, held, run⟩
    cases constant with
    | fieldRef owner nameAndType =>
      obtain ⟨kind, texts⟩ := memberOf_eq_ok_iff.mp run
      exact ⟨owner, nameAndType, _, kind ▸ .field, held, texts⟩
    | methodRef owner nameAndType =>
      obtain ⟨kind, texts⟩ := memberOf_eq_ok_iff.mp run
      exact ⟨owner, nameAndType, _, kind ▸ .method, held, texts⟩
    | interfaceMethodRef owner nameAndType =>
      obtain ⟨kind, texts⟩ := memberOf_eq_ok_iff.mp run
      exact ⟨owner, nameAndType, _, kind ▸ .interfaceMethod, held, texts⟩
    | _ => cases run
  · rintro ⟨owner, nameAndType, constant, kind, held, texts⟩
    refine ⟨constant, held, ?_⟩
    generalize hflag : member.ofInterface = flag at kind
    cases kind with
    | field => exact memberOf_eq_ok_iff.mpr ⟨hflag.symm, texts⟩
    | method => exact memberOf_eq_ok_iff.mpr ⟨hflag.symm, texts⟩
    | interfaceMethod => exact memberOf_eq_ok_iff.mpr ⟨hflag.symm, texts⟩

theorem dynamicCall_eq_ok_iff {name descriptor : String} :
    pool.dynamicCall index = .ok (name, descriptor) ↔ pool.CallSiteAt index name descriptor := by
  unfold dynamicCall CallSiteAt
  rw [get_bind_eq_ok_iff]
  constructor
  · rintro ⟨constant, held, run⟩
    cases constant with
    | invokeDynamic bootstrap nameAndType => exact ⟨_, _, held, nameAndType_eq_ok_iff.mp run⟩
    | _ => cases run
  · rintro ⟨bootstrap, nameAndType, held, texts⟩
    exact ⟨_, held, nameAndType_eq_ok_iff.mpr texts⟩

/-! ## Larger pools -/

/-- Every slot of `small` stands in `large` as it is. -/
def Extends (large small : ConstantPool) : Prop :=
  ∀ (slot : Nat) (constant : Constant), small.slots[slot]? = some constant →
    large.slots[slot]? = some constant

namespace Extends

variable {small large : ConstantPool}

theorem holds {constant : Constant} (grown : large.Extends small)
    (held : small.Holds index constant) :
    large.Holds index constant :=
  ⟨held.1, grown _ _ held.2⟩

theorem textAt {text : String} (grown : large.Extends small) (held : small.TextAt index text) :
    large.TextAt index text :=
  grown.holds held

theorem classAt {name : String} (grown : large.Extends small) (held : small.ClassAt index name) :
    large.ClassAt index name := by
  obtain ⟨nameIndex, slot, text⟩ := held
  exact ⟨nameIndex, grown.holds slot, grown.textAt text⟩

theorem nameAndTypeAt {name descriptor : String} (grown : large.Extends small)
    (held : small.NameAndTypeAt index name descriptor) :
    large.NameAndTypeAt index name descriptor := by
  obtain ⟨nameIndex, descriptorIndex, slot, text, text'⟩ := held
  exact ⟨nameIndex, descriptorIndex, grown.holds slot, grown.textAt text, grown.textAt text'⟩

theorem memberAt {member : MemberRef} (grown : large.Extends small)
    (held : small.MemberAt index member) :
    large.MemberAt index member := by
  obtain ⟨owner, pair, constant, kind, slot, named, typed⟩ := held
  exact ⟨owner, pair, constant, kind, grown.holds slot, grown.classAt named,
    grown.nameAndTypeAt typed⟩

theorem callSiteAt {name descriptor : String} (grown : large.Extends small)
    (held : small.CallSiteAt index name descriptor) : large.CallSiteAt index name descriptor := by
  obtain ⟨bootstrap, pair, slot, typed⟩ := held
  exact ⟨bootstrap, pair, grown.holds slot, grown.nameAndTypeAt typed⟩

end Extends

end JarMetrics.ClassFile.ConstantPool
