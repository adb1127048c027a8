import JarMetrics.Assembly.Pool
import JarMetrics.Proofs.Texts
import JarMetrics.Proofs.WrittenClass

/-!
# Interned references keep their meaning

A pool in the making is `Sound` for the entries written so far when every index that it hands out
stands, in the table of these entries, for what was asked. Interning keeps a pool sound and only
adds entries, so an index that was handed out early still stands for the same thing once the pool is
complete.

Two things could go wrong. Two references could spell the same key and share an index;
`Reference.key_inj` rules that out for references whose names are free of the characters that the
keys are put together with. And the 16-bit count of entries could wrap around; so every statement is
made for pools that do not get that large.

`Interns` is the form of all statements about operations on a pool: what holds of the table before,
and what holds of the result and the table afterwards.
-/

namespace JarMetrics.Assembly

open ClassFile

/-! ## Keys -/

/-- A name with none of the characters that separate the parts of a key. -/
def IsName (text : String) : Prop := ∀ c ∈ text.toList, c ≠ '.' ∧ c ≠ ':' ∧ c ≠ '('

instance (text : String) : Decidable (IsName text) := List.decidableBAll _ text.toList

/-- A descriptor of a method: it begins with the parameters. -/
def IsMethodDescriptor (text : String) : Prop := text.toList.head? = some '('

instance (text : String) : Decidable (IsMethodDescriptor text) :=
  inferInstanceAs (Decidable (text.toList.head? = some '('))

/-- A text that is the same in plain and in modified UTF-8 and whose length can be written. -/
structure Writable (text : String) : Prop where
  basic : ∀ c ∈ text.toList, c.toNat < 0x10000
  fits : (Utf8.encode text).length < 0x10000

instance (text : String) : Decidable (Writable text) :=
  -- only the characters of the text are looked at, not all there are
  have : Decidable (∀ c ∈ text.toList, c.toNat < 0x10000) := List.decidableBAll _ text.toList
  decidable_of_iff ((∀ c ∈ text.toList, c.toNat < 0x10000) ∧ (Utf8.encode text).length < 0x10000)
    ⟨fun both => ⟨both.1, both.2⟩, fun w => ⟨w.basic, w.fits⟩⟩

namespace Reference

/-- The texts that a reference is made of. -/
def texts : Reference → List String
  | .utf8 text => [text]
  | .classRef name => [name]
  | .nameAndType name descriptor | .dynamicCall name descriptor => [name, descriptor]
  | .method owner name descriptor | .interfaceMethod owner name descriptor =>
      [owner, name, descriptor]

/-- The parts of the reference can be told apart in its key. -/
def Separated : Reference → Prop
  | .utf8 _ | .classRef _ => True
  | .nameAndType name _ => IsName name
  | .method owner name descriptor | .interfaceMethod owner name descriptor =>
      IsName owner ∧ IsName name ∧ IsMethodDescriptor descriptor
  | .dynamicCall name descriptor => IsName name ∧ IsMethodDescriptor descriptor

instance : (r : Reference) → Decidable r.Separated
  | .utf8 _ | .classRef _ => inferInstanceAs (Decidable True)
  | .nameAndType name _ => inferInstanceAs (Decidable (IsName name))
  | .method .. | .interfaceMethod .. => inferInstanceAs (Decidable (_ ∧ _ ∧ _))
  | .dynamicCall .. => inferInstanceAs (Decidable (_ ∧ _))

/-- The reference can be interned without being confused with another one or cut short. -/
structure WellFormed (r : Reference) : Prop where
  separated : r.Separated
  writable : ∀ text ∈ r.texts, Writable text

instance (r : Reference) : Decidable r.WellFormed :=
  decidable_of_iff (r.Separated ∧ ∀ text ∈ r.texts, Writable text)
    ⟨fun both => ⟨both.1, both.2⟩, fun w => ⟨w.separated, w.writable⟩⟩

/-- What stands in front of the first colon of a key. -/
def kind : Reference → List Char
  | .utf8 _ => ['u']
  | .classRef _ => ['c']
  | .nameAndType _ _ => ['n', 't']
  | .method _ _ _ => ['m']
  | .interfaceMethod _ _ _ => ['i', 'm']
  | .dynamicCall _ _ => ['i', 'n', 'd', 'y']

/-- What stands behind the first colon of a key. -/
def spelling : Reference → List Char
  | .utf8 text => text.toList
  | .classRef name => name.toList
  | .nameAndType name descriptor => name.toList ++ ':' :: descriptor.toList
  | .method owner name descriptor | .interfaceMethod owner name descriptor =>
      owner.toList ++ '.' :: (name.toList ++ descriptor.toList)
  | .dynamicCall name descriptor => name.toList ++ descriptor.toList

theorem toList_key (r : Reference) : r.key.toList = r.kind ++ ':' :: r.spelling := by
  cases r <;> simp [key, kind, spelling]

theorem colon_not_mem_kind (r : Reference) : ':' ∉ r.kind := by
  cases r <;> simp [kind]

end Reference

/-- A list is cut at the first place of a character in one way only. -/
theorem cut_unique {x : Char} {front front' back back' : List Char}
    (same : front ++ x :: back = front' ++ x :: back') (first : x ∉ front) (first' : x ∉ front') :
    front = front' ∧ back = back' := by
  induction front generalizing front' with
  | nil =>
    cases front' with
    | nil => exact ⟨rfl, List.tail_eq_of_cons_eq same⟩
    | cons y front' => exact absurd (List.head_eq_of_cons_eq same ▸ List.mem_cons_self) first'
  | cons y front ih =>
    cases front' with
    | nil => exact absurd (List.head_eq_of_cons_eq same ▸ List.mem_cons_self) first
    | cons z front' =>
      obtain ⟨fronts, backs⟩ :=
        ih (List.tail_eq_of_cons_eq same) (fun h => first (List.mem_cons_of_mem _ h))
        (fun h => first' (List.mem_cons_of_mem _ h))
      exact ⟨by rw [fronts, List.head_eq_of_cons_eq same], backs⟩

/-- A name and the descriptor behind it can be told apart. -/
theorem name_descriptor_inj {name name' descriptor descriptor' : String} (h : IsName name)
    (h' : IsName name') (d : IsMethodDescriptor descriptor) (d' : IsMethodDescriptor descriptor')
    (same : name.toList ++ descriptor.toList = name'.toList ++ descriptor'.toList) :
    name = name' ∧ descriptor = descriptor' := by
  obtain ⟨parameters, opened⟩ := List.head?_eq_some_iff.mp d
  obtain ⟨parameters', opened'⟩ := List.head?_eq_some_iff.mp d'
  rw [opened, opened'] at same
  obtain ⟨names, rest⟩ := cut_unique same (fun inside => (h _ inside).2.2 rfl)
    (fun inside => (h' _ inside).2.2 rfl)
  exact ⟨String.toList_injective names, String.toList_injective (by rw [opened, opened', rest])⟩

theorem owner_name_descriptor_inj {owner owner' name name' descriptor descriptor' : String}
    (h : IsName owner ∧ IsName name ∧ IsMethodDescriptor descriptor)
    (h' : IsName owner' ∧ IsName name' ∧ IsMethodDescriptor descriptor')
    (same : owner.toList ++ '.' :: (name.toList ++ descriptor.toList) =
      owner'.toList ++ '.' :: (name'.toList ++ descriptor'.toList)) :
    owner = owner' ∧ name = name' ∧ descriptor = descriptor' := by
  obtain ⟨owners, rest⟩ := cut_unique same (fun inside => (h.1 _ inside).1 rfl)
    (fun inside => (h'.1 _ inside).1 rfl)
  exact ⟨String.toList_injective owners, name_descriptor_inj h.2.1 h'.2.1 h.2.2 h'.2.2 rest⟩

/-- Keys are the same where kinds and spellings are. -/
theorem Reference.key_eq_iff {r r' : Reference} :
    r.key = r'.key ↔ r.kind = r'.kind ∧ r.spelling = r'.spelling := by
  rw [← String.toList_inj, toList_key, toList_key]
  constructor
  · intro same
    exact cut_unique same r.colon_not_mem_kind r'.colon_not_mem_kind
  · rintro ⟨kinds, spellings⟩
    rw [kinds, spellings]

/-- Different references have different keys. -/
theorem Reference.key_inj {r r' : Reference} (h : r.Separated) (h' : r'.Separated)
    (same : r.key = r'.key) :
    r = r' := by
  obtain ⟨kinds, spellings⟩ := key_eq_iff.mp same
  -- references of two kinds differ in front of the colon
  cases r with
  | utf8 text =>
    cases r' with
    | utf8 text' => exact congrArg utf8 (String.toList_injective spellings)
    | _ => simp [kind] at kinds
  | classRef name =>
    cases r' with
    | classRef name' => exact congrArg classRef (String.toList_injective spellings)
    | _ => simp [kind] at kinds
  | nameAndType name descriptor =>
    cases r' with
    | nameAndType name' descriptor' =>
      obtain ⟨names, descriptors⟩ := cut_unique spellings (fun inside => (h _ inside).2.1 rfl)
        (fun inside => (h' _ inside).2.1 rfl)
      rw [String.toList_injective names, String.toList_injective descriptors]
    | _ => simp [kind] at kinds
  | method owner name descriptor =>
    cases r' with
    | method owner' name' descriptor' =>
      obtain ⟨rfl, rfl, rfl⟩ := owner_name_descriptor_inj h h' spellings
      rfl
    | _ => simp [kind] at kinds
  | interfaceMethod owner name descriptor =>
    cases r' with
    | interfaceMethod owner' name' descriptor' =>
      obtain ⟨rfl, rfl, rfl⟩ := owner_name_descriptor_inj h h' spellings
      rfl
    | _ => simp [kind] at kinds
  | dynamicCall name descriptor =>
    cases r' with
    | dynamicCall name' descriptor' =>
      obtain ⟨rfl, rfl⟩ := name_descriptor_inj h.1 h'.1 h.2 h'.2 spellings
      rfl
    | _ => simp [kind] at kinds

/-! ## Sound pools -/

/-- What an index stands for when it is handed out for a reference. -/
def Stands (table : ConstantPool) : Reference → UInt16 → Prop
  | .utf8 text, index => table.TextAt index text
  | .classRef name, index => table.ClassAt index name
  | .nameAndType name descriptor, index => table.NameAndTypeAt index name descriptor
  | .method owner name descriptor, index => table.MemberAt index ⟨owner, name, descriptor, false⟩
  | .interfaceMethod owner name descriptor, index =>
      table.MemberAt index ⟨owner, name, descriptor, true⟩
  | .dynamicCall name descriptor, index => table.CallSiteAt index name descriptor

/-- The table of entries that take one slot each. -/
def tableOf (entries : List WrittenConstant) : ConstantPool :=
  ⟨(Constant.unused :: entries.map WrittenConstant.constant).toArray⟩

/-- A property of tables that stays true when the table grows. -/
def Stable (property : ConstantPool → Prop) : Prop :=
  ∀ large small : ConstantPool, large.Extends small → property small → property large

theorem stable_stands (r : Reference) (index : UInt16) :
    Stable fun table => Stands table r index := by
  intro large small grown stood
  cases r with
  | utf8 text => exact grown.textAt stood
  | classRef name => exact grown.classAt stood
  | nameAndType name descriptor => exact grown.nameAndTypeAt stood
  | method owner name descriptor => exact grown.memberAt stood
  | interfaceMethod owner name descriptor => exact grown.memberAt stood
  | dynamicCall name descriptor => exact grown.callSiteAt stood

theorem tableOf_append (entries more : List WrittenConstant) :
    (tableOf (entries ++ more)).Extends (tableOf entries) := by
  intro slot constant held
  simp only [tableOf, List.map_append, List.getElem?_toArray] at held ⊢
  rw [← List.cons_append, List.getElem?_append_left (List.getElem?_eq_some_iff.mp held).1]
  exact held

/-- The entries of a pool in the making, and what its indices stand for. -/
structure Sound (pool : Pool) (entries : List WrittenConstant) : Prop where
  bytes : pool.bytes = entries.flatMap WrittenConstant.encode
  narrow : ∀ entry ∈ entries, entry.constant.isWide = false
  count : pool.count = UInt16.ofNat (entries.length + 1)
  length : pool.interned.length = entries.length
  stands : ∀ {r : Reference} {index : UInt16}, r.Separated → pool.find? r.key = some index →
    Stands (tableOf entries) r index

theorem sound_empty : Sound {} [] where
  bytes := rfl
  narrow := nofun
  count := rfl
  length := rfl
  stands := nofun

/-- The slots of a pool, with slot 0, can be counted in 16 bits. -/
def Pool.Fits (pool : Pool) : Prop := pool.interned.length + 1 < 0x10000

/-- The operation only adds entries. Where `before` holds of the table and the pool still fits at
the end, `after` holds of what is returned. -/
structure Interns {α : Type} (before : ConstantPool → Prop) (op : Pool → α × Pool)
    (after : α → ConstantPool → Prop) : Prop where
  grows : ∀ pool, pool.interned.length ≤ (op pool).2.interned.length
  sound : ∀ {pool entries}, Sound pool entries → before (tableOf entries) → (op pool).2.Fits →
    ∃ more, Sound (op pool).2 (entries ++ more) ∧ after (op pool).1 (tableOf (entries ++ more))

namespace Interns

variable {α β : Type} {before : ConstantPool → Prop} {op : Pool → α × Pool}
  {after : α → ConstantPool → Prop}

/-- An operation that does not touch the pool. -/
theorem pure {value : α} (holds : ∀ table, before table → after value table) :
    Interns before (fun pool => (value, pool)) after where
  grows _ := Nat.le_refl _
  sound {pool entries} sound given _ := by
    refine ⟨[], ?_, ?_⟩
    · rwa [List.append_nil]
    · rw [List.append_nil]
      exact holds _ given

/-- One operation after the other. -/
theorem bind {next : α → Pool → β × Pool} {final : β → ConstantPool → Prop}
    (first : Interns before op after) (second : ∀ value, Interns (after value) (next value) final) :
    Interns before (fun pool => next (op pool).1 (op pool).2) final where
  grows pool := Nat.le_trans (first.grows pool) ((second _).grows _)
  sound {pool entries} sound given fits := by
    have grows := (second (op pool).1).grows (op pool).2
    obtain ⟨more, sound', given'⟩ := first.sound sound given (by unfold Pool.Fits at *; omega)
    obtain ⟨more', sound'', reached⟩ := (second _).sound sound' given' fits
    rw [List.append_assoc] at sound'' reached
    exact ⟨more ++ more', sound'', reached⟩

/-- The result is passed on in another form. -/
theorem map (result : α → β) {final : β → ConstantPool → Prop} (first : Interns before op after)
    (implied : ∀ value table, after value table → final (result value) table) :
    Interns before (fun pool => (result (op pool).1, (op pool).2)) final :=
  first.bind fun value => pure (implied value)

/-- What holds of the table before the operation still does afterwards, if it is stable. -/
theorem frame {kept : ConstantPool → Prop} (stable : Stable kept)
    (step : Interns (fun _ => True) op after) :
    Interns kept op (fun value table => kept table ∧ after value table) where
  grows := step.grows
  sound {pool entries} sound given fits := by
    obtain ⟨more, sound', reached⟩ := step.sound sound trivial fits
    exact ⟨more, sound', stable _ _ (tableOf_append entries more) given, reached⟩

/-- Two operations that do not depend on each other. -/
theorem both {op' : Pool → β × Pool} {after' : β → ConstantPool → Prop}
    (first : Interns before op after) (stable : ∀ value, Stable (after value))
    (second : Interns (fun _ => True) op' after') :
    Interns before (fun pool => (((op pool).1, (op' (op pool).2).1), (op' (op pool).2).2))
      (fun pair table => after pair.1 table ∧ after' pair.2 table) :=
  first.bind fun value => (second.frame (stable value)).map (value, ·) fun _ _ reached => reached

end Interns

/-! ## The operations -/

/-- A reference is interned as an entry that stands for it. -/
theorem interns_intern {before : ConstantPool → Prop} (stable : Stable before) (r : Reference)
    (entry : WrittenConstant) (separated : r.Separated) (narrow : entry.constant.isWide = false)
    (meant : ∀ table index, before table → table.Holds index entry.constant →
      Stands table r index) :
    Interns before (fun pool => pool.intern r.key entry.encode)
      (fun index table => Stands table r index) where
  grows pool := by
    simp only [Pool.intern]
    split
    · exact Nat.le_refl _
    · exact Nat.le_succ _
  sound {pool entries} sound given fits := by
    simp only [Pool.intern] at fits ⊢
    cases found : pool.find? r.key with
    | some index =>
      refine ⟨[], ?_, ?_⟩
      · rwa [List.append_nil]
      · rw [List.append_nil]
        exact sound.stands separated found
    | none =>
      rw [found] at fits
      have few : entries.length + 2 < 0x10000 := by
        have length := sound.length
        simp only [Pool.Fits, List.length_cons] at fits
        omega
      have index : pool.count.toNat = entries.length + 1 := by
        rw [sound.count]
        exact UInt16.toNat_ofNat_of_lt (by show _ < 0x10000; omega)
      have grown := tableOf_append entries [entry]
      have slot : (tableOf (entries ++ [entry])).Holds pool.count entry.constant := by
        refine ⟨fun zero => ?_, ?_⟩
        · rw [zero] at index
          exact absurd index (by simp)
        · simp [tableOf, index]
      have here : Stands (tableOf (entries ++ [entry])) r pool.count :=
        meant _ _ (stable _ _ grown given) slot
      refine ⟨[entry], ⟨?_, ?_, ?_, ?_, ?_⟩, here⟩
      · simp [sound.bytes]
      · intro other member
        rcases List.mem_append.mp member with old | new
        · exact sound.narrow other old
        · rwa [List.mem_singleton.mp new]
      · simp only [sound.count, List.length_append, List.length_singleton]
        exact (UInt16.ofNat_add _ 1).symm
      · simp [sound.length]
      · intro r' index' separated' found'
        simp only [Pool.find?, List.find?_cons] at found'
        by_cases same : r.key = r'.key
        · -- the new key is not that of another reference
          have equal := Reference.key_inj separated separated' same
          subst equal
          simp only [beq_self_eq_true, Option.map_some, Option.some.injEq] at found'
          rwa [← found']
        · rw [beq_false_of_ne same] at found'
          exact stable_stands r' index' _ _ grown (sound.stands separated' found')

theorem stable_true : Stable fun _ => True := fun _ _ _ _ => trivial

theorem stable_textAt (index : UInt16) (text : String) :
    Stable fun table => table.TextAt index text :=
  stable_stands (.utf8 text) index

theorem Stable.and {p q : ConstantPool → Prop} (hp : Stable p) (hq : Stable q) :
    Stable fun table => p table ∧ q table :=
  fun large small grown both => ⟨hp large small grown both.1, hq large small grown both.2⟩

/-- A text is interned as its bytes. -/
theorem utf8_eq_intern {text : String} (fits : (Utf8.encode text).length < 0x10000) (pool : Pool) :
    pool.utf8 text =
      pool.intern (Reference.utf8 text).key
        (WrittenConstant.utf8 (Utf8.encode text) fits).encode := by
  have spelled : 1 :: u2 (UInt16.ofNat (Utf8.encode text).length) ++ Utf8.encode text =
      (WrittenConstant.utf8 (Utf8.encode text) fits).encode := by
    show 1 :: toBigEndian 2 (UInt16.ofNat (Utf8.encode text).length).toNat ++ _ = _
    rw [UInt16.toNat_ofNat_of_lt' fits]
    rfl
  unfold Pool.utf8
  simp only [spelled]

theorem interns_utf8 {text : String} (writable : Writable text) :
    Interns (fun _ => True) (·.utf8 text) (fun index table => table.TextAt index text) := by
  simp only [utf8_eq_intern writable.fits]
  refine interns_intern stable_true (.utf8 text) _ trivial rfl fun table index _ held => ?_
  have decoded : (WrittenConstant.utf8 (Utf8.encode text) writable.fits).constant = .utf8 text :=
    congrArg Constant.utf8 (ModifiedUtf8.decode_encode writable.basic)
  rwa [decoded] at held

theorem interns_classRef {name : String} (writable : Writable name) :
    Interns (fun _ => True) (·.classRef name) (fun index table => table.ClassAt index name) :=
  (interns_utf8 writable).bind fun nameIndex =>
    interns_intern (stable_textAt nameIndex name) (.classRef name) (.classRef nameIndex) trivial rfl
      fun _ _ text held => ⟨nameIndex, held, text⟩

theorem interns_nameAndType {name descriptor : String} (separated : IsName name)
    (writable : Writable name) (writable' : Writable descriptor) :
    Interns (fun _ => True) (·.nameAndType name descriptor)
      (fun index table => table.NameAndTypeAt index name descriptor) :=
  ((interns_utf8 writable).both (stable_textAt · name) (interns_utf8 writable')).bind fun pair =>
    interns_intern ((stable_textAt pair.1 name).and (stable_textAt pair.2 descriptor))
      (.nameAndType name descriptor) (.nameAndType pair.1 pair.2) separated rfl
      fun _ _ texts held => ⟨pair.1, pair.2, held, texts⟩

theorem interns_methodRef {owner name descriptor : String} (ofInterface : Bool)
    (separated : (Reference.method owner name descriptor).Separated)
    (writable : ∀ text ∈ [owner, name, descriptor], Writable text) :
    Interns (fun _ => True) (·.methodRef ofInterface owner name descriptor)
      (fun index table => table.MemberAt index ⟨owner, name, descriptor, ofInterface⟩) := by
  have named : Interns (fun _ => True) (·.classRef owner)
      (fun index table => table.ClassAt index owner) :=
    interns_classRef (writable owner (by simp))
  have typed : Interns (fun _ => True) (·.nameAndType name descriptor)
      (fun index table => table.NameAndTypeAt index name descriptor) :=
    interns_nameAndType separated.2.1 (writable name (by simp)) (writable descriptor (by simp))
  have stable : ∀ pair : UInt16 × UInt16, Stable fun table =>
      table.ClassAt pair.1 owner ∧ table.NameAndTypeAt pair.2 name descriptor := fun pair =>
    (stable_stands (.classRef owner) pair.1).and
      (stable_stands (.nameAndType name descriptor) pair.2)
  have parts := named.both (stable_stands (.classRef owner)) typed
  cases ofInterface with
  | false =>
    exact parts.bind fun pair =>
      interns_intern (stable pair) (.method owner name descriptor)
        (.methodRef pair.1 pair.2) separated rfl
        fun _ _ texts held => ⟨pair.1, pair.2, _, .method, held, texts⟩
  | true =>
    exact parts.bind fun pair =>
      interns_intern (stable pair) (.interfaceMethod owner name descriptor)
        (.interfaceMethodRef pair.1 pair.2)
        separated rfl fun _ _ texts held => ⟨pair.1, pair.2, _, .interfaceMethod, held, texts⟩

theorem interns_dynamicCall {name descriptor : String}
    (separated : (Reference.dynamicCall name descriptor).Separated)
    (writable : ∀ text ∈ [name, descriptor], Writable text) :
    Interns (fun _ => True) (·.dynamicCall name descriptor)
      (fun index table => table.CallSiteAt index name descriptor) :=
  (interns_nameAndType separated.1 (writable name (by simp))
    (writable descriptor (by simp))).bind fun pair =>
    interns_intern (stable_stands (.nameAndType name descriptor) pair)
      (.dynamicCall name descriptor) (.invokeDynamic 0 pair) separated rfl
      fun _ _ texts held => ⟨0, pair, held, texts⟩

/-- Every reference is interned as what it is. -/
theorem interns_add {r : Reference} (h : r.WellFormed) :
    Interns (fun _ => True) (·.add r) (fun index table => Stands table r index) := by
  obtain ⟨separated, writable⟩ := h
  cases r with
  | utf8 text => exact interns_utf8 (writable text (by simp [Reference.texts]))
  | classRef name => exact interns_classRef (writable name (by simp [Reference.texts]))
  | nameAndType name descriptor =>
    exact interns_nameAndType separated (writable name (by simp [Reference.texts]))
      (writable descriptor (by simp [Reference.texts]))
  | method owner name descriptor => exact interns_methodRef false separated writable
  | interfaceMethod owner name descriptor => exact interns_methodRef true separated writable
  | dynamicCall name descriptor => exact interns_dynamicCall separated writable

end JarMetrics.Assembly
