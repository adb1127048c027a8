import JarMetrics.Proofs.Assembled
import JarMetrics.Proofs.Utf8

/-!
# References that share an index

References are interned under keys, and different references can spell the same key: in the key of a
method nothing stands between its name and its descriptor, and in that of a name and a descriptor
stands a colon, which names may hold. Then the second one to be asked for is given the index of the
first.

`Recorded` says what a pool is after any requests: a row for each key, in the order of their first
mention, with the reference that was asked for first and the entry that was written for it. So two
requests are given the same index exactly if they spell the same key. What an index refers to is
found by following entries (`Resolves`).

`references_told_apart_iff` says when nothing is confused: exactly if no two references that are
interned on the way, those that others are made of included, spell the same key without being the
same. Names as class files have them never do.
-/

namespace JarMetrics.Assembly

open ClassFile

/-! ## What an index refers to -/

/-- The entry with an index. The first one has index 1. -/
def EntryAt (entries : List WrittenConstant) (index : UInt16) (entry : WrittenConstant) : Prop :=
  ∃ slot, index.toNat = slot + 1 ∧ entries[slot]? = some entry

/-- The entry is a text, byte by byte. -/
def TextEntry (entries : List WrittenConstant) (index : UInt16) (text : String) : Prop :=
  ∃ fits, EntryAt entries index (.utf8 (Utf8.encode text) fits)

/-- The entry is a class with a name. -/
def ClassEntry (entries : List WrittenConstant) (index : UInt16) (name : String) : Prop :=
  ∃ nameIndex, EntryAt entries index (.classRef nameIndex) ∧ TextEntry entries nameIndex name

/-- The entry is a name and a descriptor. -/
def PairEntry (entries : List WrittenConstant) (index : UInt16) (name descriptor : String) : Prop :=
  ∃ nameIndex descriptorIndex, EntryAt entries index (.nameAndType nameIndex descriptorIndex) ∧
    TextEntry entries nameIndex name ∧ TextEntry entries descriptorIndex descriptor

/-- An index refers to an entry that resolves to a reference: it is of the same kind, and its parts
resolve to those of the reference. -/
def Resolves (entries : List WrittenConstant) (index : UInt16) : Reference → Prop
  | .utf8 text => TextEntry entries index text
  | .classRef name => ClassEntry entries index name
  | .nameAndType name descriptor => PairEntry entries index name descriptor
  | .method owner name descriptor =>
      ∃ ownerIndex pairIndex, EntryAt entries index (.methodRef ownerIndex pairIndex) ∧
      ClassEntry entries ownerIndex owner ∧ PairEntry entries pairIndex name descriptor
  | .interfaceMethod owner name descriptor =>
      ∃ ownerIndex pairIndex, EntryAt entries index (.interfaceMethodRef ownerIndex pairIndex) ∧
        ClassEntry entries ownerIndex owner ∧ PairEntry entries pairIndex name descriptor
  | .dynamicCall name descriptor =>
      ∃ pairIndex, EntryAt entries index (.invokeDynamic 0 pairIndex) ∧
      PairEntry entries pairIndex name descriptor

section Entries

variable {entries : List WrittenConstant} {index : UInt16}

theorem EntryAt.unique {entry entry' : WrittenConstant} (first : EntryAt entries index entry)
    (second : EntryAt entries index entry') : entry = entry' := by
  obtain ⟨slot, atSlot, held⟩ := first
  obtain ⟨slot', atSlot', held'⟩ := second
  obtain rfl : slot = slot' := by omega
  rw [held, Option.some.injEq] at held'
  exact held'

theorem TextEntry.unique {text text' : String} (first : TextEntry entries index text)
    (second : TextEntry entries index text') : text = text' := by
  obtain ⟨_, held⟩ := first
  obtain ⟨_, held'⟩ := second
  have bytes : Utf8.encode text = Utf8.encode text' := by
    have same := held.unique held'
    injection same
  rw [← Utf8.decode_encode text, bytes, Utf8.decode_encode]

theorem PairEntry.unique {name name' descriptor descriptor' : String}
    (first : PairEntry entries index name descriptor)
    (second : PairEntry entries index name' descriptor') :
    name = name' ∧ descriptor = descriptor' := by
  obtain ⟨_, _, held, named, described⟩ := first
  obtain ⟨_, _, held', named', described'⟩ := second
  have same := held.unique held'
  injection same with names descriptors
  subst names descriptors
  exact ⟨named.unique named', described.unique described'⟩

/-! ## As a reader sees it -/

theorem EntryAt.holds {entry : WrittenConstant} (held : EntryAt entries index entry) :
    (tableOf entries).Holds index entry.constant := by
  obtain ⟨slot, atSlot, found⟩ := held
  refine ⟨fun zero => ?_, ?_⟩
  · rw [zero] at atSlot
    cases atSlot
  · simp [tableOf, atSlot, found]

theorem TextEntry.textAt {text : String} (held : TextEntry entries index text)
    (basic : ∀ c ∈ text.toList, c.toNat < 0x10000) : (tableOf entries).TextAt index text := by
  obtain ⟨fits, held⟩ := held
  have constant : (WrittenConstant.utf8 (Utf8.encode text) fits).constant = .utf8 text :=
    congrArg Constant.utf8 (ModifiedUtf8.decode_encode basic)
  have slot := held.holds
  rwa [constant] at slot

theorem ClassEntry.classAt {name : String} (held : ClassEntry entries index name)
    (basic : ∀ c ∈ name.toList, c.toNat < 0x10000) : (tableOf entries).ClassAt index name := by
  obtain ⟨nameIndex, held, named⟩ := held
  exact ⟨nameIndex, held.holds, named.textAt basic⟩

theorem PairEntry.nameAndTypeAt {name descriptor : String}
    (held : PairEntry entries index name descriptor)
    (basic : ∀ text ∈ [name, descriptor], ∀ c ∈ text.toList, c.toNat < 0x10000) :
    (tableOf entries).NameAndTypeAt index name descriptor := by
  obtain ⟨nameIndex, descriptorIndex, held, named, described⟩ := held
  exact ⟨nameIndex, descriptorIndex, held.holds, named.textAt (basic name (by simp)),
    described.textAt (basic descriptor (by simp))⟩

/-- Texts that are the same in plain and in modified UTF-8 are looked up as what they are. -/
theorem Resolves.stands {r : Reference} (resolved : Resolves entries index r)
    (basic : ∀ text ∈ r.texts, ∀ c ∈ text.toList, c.toNat < 0x10000) :
    Stands (tableOf entries) r index := by
  cases r with
  | utf8 text => exact TextEntry.textAt resolved (basic text (by simp [Reference.texts]))
  | classRef name => exact ClassEntry.classAt resolved (basic name (by simp [Reference.texts]))
  | nameAndType name descriptor => exact PairEntry.nameAndTypeAt resolved basic
  | method owner name descriptor =>
    obtain ⟨ownerIndex, pairIndex, held, owned, paired⟩ := resolved
    exact ⟨ownerIndex, pairIndex, _, .method, held.holds,
      owned.classAt (basic owner (by simp [Reference.texts])),
      paired.nameAndTypeAt fun text member => basic text (List.mem_cons_of_mem owner member)⟩
  | interfaceMethod owner name descriptor =>
    obtain ⟨ownerIndex, pairIndex, held, owned, paired⟩ := resolved
    exact ⟨ownerIndex, pairIndex, _, .interfaceMethod, held.holds,
      owned.classAt (basic owner (by simp [Reference.texts])),
      paired.nameAndTypeAt fun text member => basic text (List.mem_cons_of_mem owner member)⟩
  | dynamicCall name descriptor =>
    obtain ⟨pairIndex, held, paired⟩ := resolved
    exact ⟨0, pairIndex, held.holds, paired.nameAndTypeAt basic⟩

end Entries

/-! ## Parts -/

namespace Reference

/-- What is interned for a reference: the references that it is made of, and then itself. -/
def parts : Reference → List Reference
  | .utf8 text => [.utf8 text]
  | .classRef name => [.utf8 name, .classRef name]
  | .nameAndType name descriptor => [.utf8 name, .utf8 descriptor, .nameAndType name descriptor]
  | .method owner name descriptor =>
      [.utf8 owner, .classRef owner, .utf8 name, .utf8 descriptor, .nameAndType name descriptor,
        .method owner name descriptor]
  | .interfaceMethod owner name descriptor =>
      [.utf8 owner, .classRef owner, .utf8 name, .utf8 descriptor, .nameAndType name descriptor,
        .interfaceMethod owner name descriptor]
  | .dynamicCall name descriptor =>
      [.utf8 name, .utf8 descriptor, .nameAndType name descriptor, .dynamicCall name descriptor]

/-- A text or a class: nothing else has its key. -/
def IsPlain : Reference → Prop
  | .utf8 _ | .classRef _ => True
  | _ => False

theorem IsPlain.separated {r : Reference} (plain : r.IsPlain) : r.Separated := by
  cases r with
  | utf8 | classRef => trivial
  | _ => exact plain.elim

theorem IsPlain.of_kind {r r' : Reference} (plain : r.IsPlain) (kinds : r.kind = r'.kind) :
    r'.IsPlain := by
  cases r' with
  | utf8 | classRef => trivial
  | _ => cases r <;> simp [IsPlain, kind] at plain kinds

theorem IsPlain.eq_of_key {r r' : Reference} (plain : r.IsPlain) (same : r.key = r'.key) : r = r' :=
  key_inj plain.separated (plain.of_kind (key_eq_iff.mp same).1).separated same

theorem self_mem_parts (r : Reference) : r ∈ r.parts := by
  cases r <;> simp [parts]

/-- What is interned for a reference besides itself is plain, or its name and descriptor. -/
theorem mem_parts_cases {p r : Reference} (member : p ∈ r.parts) :
    p = r ∨ p.IsPlain ∨ ∃ name descriptor, p = .nameAndType name descriptor := by
  cases r <;> simp only [parts, List.mem_cons, List.not_mem_nil, or_false] at member <;>
    rcases member with rfl | rfl | rfl | rfl | rfl | rfl | rfl <;> simp [IsPlain]

theorem separated_of_mem_parts {p r : Reference} (separated : r.Separated) (member : p ∈ r.parts) :
    p.Separated := by
  rcases mem_parts_cases member with rfl | plain | ⟨name, descriptor, rfl⟩
  · exact separated
  · exact plain.separated
  · cases r <;> simp [parts] at member
    · exact member.1 ▸ separated
    · exact member.1 ▸ separated.2.1
    · exact member.1 ▸ separated.2.1
    · exact member.1 ▸ separated.1

end Reference

/-! ## Rows -/

/-- The entry that is written for a reference. Its parts are written as the indices that the pool
has for their keys. -/
inductive EntryOf (pool : Pool) : Reference → WrittenConstant → Prop
  | utf8 {text : String} (fits : (Utf8.encode text).length < 0x10000) :
      EntryOf pool (.utf8 text) (.utf8 (Utf8.encode text) fits)
  | classRef {name : String} {i : UInt16} (named : pool.find? (Reference.utf8 name).key = some i) :
      EntryOf pool (.classRef name) (.classRef i)
  | nameAndType {name descriptor : String} {i j : UInt16}
      (named : pool.find? (Reference.utf8 name).key = some i)
      (described : pool.find? (Reference.utf8 descriptor).key = some j) :
      EntryOf pool (.nameAndType name descriptor) (.nameAndType i j)
  | method {owner name descriptor : String} {i j : UInt16}
      (owned : pool.find? (Reference.classRef owner).key = some i)
      (paired : pool.find? (Reference.nameAndType name descriptor).key = some j) :
      EntryOf pool (.method owner name descriptor) (.methodRef i j)
  | interfaceMethod {owner name descriptor : String} {i j : UInt16}
      (owned : pool.find? (Reference.classRef owner).key = some i)
      (paired : pool.find? (Reference.nameAndType name descriptor).key = some j) :
      EntryOf pool (.interfaceMethod owner name descriptor) (.interfaceMethodRef i j)
  | dynamicCall {name descriptor : String} {j : UInt16}
      (paired : pool.find? (Reference.nameAndType name descriptor).key = some j) :
      EntryOf pool (.dynamicCall name descriptor) (.invokeDynamic 0 j)

theorem EntryOf.mono {pool larger : Pool} {r : Reference} {entry : WrittenConstant}
    (written : EntryOf pool r entry)
    (grown : ∀ key index, pool.find? key = some index → larger.find? key = some index) :
    EntryOf larger r entry := by
  cases written with
  | utf8 fits => exact .utf8 fits
  | classRef named => exact .classRef (grown _ _ named)
  | nameAndType named described => exact .nameAndType (grown _ _ named) (grown _ _ described)
  | method owned paired => exact .method (grown _ _ owned) (grown _ _ paired)
  | interfaceMethod owned paired => exact .interfaceMethod (grown _ _ owned) (grown _ _ paired)
  | dynamicCall paired => exact .dynamicCall (grown _ _ paired)

theorem EntryOf.narrow {pool : Pool} {r : Reference} {entry : WrittenConstant}
    (written : EntryOf pool r entry) :
    entry.constant.isWide = false := by
  cases written <;> rfl

/-- The pool has a row for each key that was asked for. The row holds the reference that was the
first with its key, and the entry that was written for it; its place is the index of the key. -/
structure Recorded (pool : Pool) (rows : List (Reference × WrittenConstant))
    (asked : List Reference) : Prop where
  bytes : pool.bytes = rows.flatMap fun row => row.2.encode
  count : pool.count = UInt16.ofNat (rows.length + 1)
  length : pool.interned.length = rows.length
  found : ∀ key index, pool.find? key = some index ↔
    ∃ slot row, rows[slot]? = some row ∧ row.1.key = key ∧ index = UInt16.ofNat (slot + 1)
  written : ∀ row ∈ rows, EntryOf pool row.1 row.2
  heard : ∀ row ∈ rows, row.1 ∈ asked
  kept : ∀ r ∈ asked, ∃ index, pool.find? r.key = some index

theorem recorded_empty : Recorded {} [] [] where
  bytes := rfl
  count := rfl
  length := rfl
  found key index := by simp [Pool.find?]
  written := by simp
  heard := by simp
  kept := by simp

namespace Recorded

variable {pool larger : Pool} {rows more : List (Reference × WrittenConstant)}
  {asked asked' : List Reference}

/-- An index that was given out is not given up. -/
theorem mono (before : Recorded pool rows asked) (after : Recorded larger (rows ++ more) asked')
    {key : String} {index : UInt16} (found : pool.find? key = some index) :
    larger.find? key = some index := by
  obtain ⟨slot, row, held, same, place⟩ := (before.found key index).mp found
  refine (after.found key index).mpr ⟨slot, row, ?_, same, place⟩
  rw [List.getElem?_append_left (List.getElem?_eq_some_iff.mp held).1, held]

/-- A known key is asked for once more. -/
theorem repeated (recorded : Recorded pool rows asked) {r : Reference} {index : UInt16}
    (known : pool.find? r.key = some index) : Recorded pool rows (asked ++ [r]) where
  bytes := recorded.bytes
  count := recorded.count
  length := recorded.length
  found := recorded.found
  written := recorded.written
  heard row member := List.mem_append_left _ (recorded.heard row member)
  kept other member := by
    rcases List.mem_append.mp member with before | last
    · exact recorded.kept other before
    · rw [List.mem_singleton.mp last]
      exact ⟨index, known⟩

theorem find?_cons (pool : Pool) (bytes : List UInt8) (count index : UInt16) (key other : String) :
    Pool.find? ⟨bytes, count, (key, index) :: pool.interned⟩ other =
      if key = other then some index else pool.find? other := by
  unfold Pool.find?
  by_cases same : key = other
  · simp [same]
  · simp [same]

/-- The indices of other keys are kept when a key is new. -/
theorem find?_cons_of_fresh {bytes : List UInt8} {count next index : UInt16} {new key : String}
    (fresh : pool.find? new = none) (known : pool.find? key = some index) :
    Pool.find? ⟨bytes, count, (new, next) :: pool.interned⟩ key = some index := by
  have other : new ≠ key := by
    rintro rfl
    rw [fresh] at known
    cases known
  rw [find?_cons, if_neg other, known]

/-- With one more row, the key of that row is found behind the others. -/
theorem found_added (recorded : Recorded pool rows asked) {r : Reference} {entry : WrittenConstant}
    (fresh : pool.find? r.key = none) (bytes : List UInt8) (count : UInt16) (key : String)
    (index : UInt16) :
    Pool.find? ⟨bytes, count, (r.key, pool.count) :: pool.interned⟩ key = some index ↔
      ∃ slot row, (rows ++ [(r, entry)])[slot]? = some row ∧ row.1.key = key ∧
        index = UInt16.ofNat (slot + 1) := by
  constructor
  · intro known
    rw [find?_cons] at known
    split at known
    next same =>
      cases known
      exact ⟨rows.length, (r, entry), by simp, same, recorded.count⟩
    next other =>
      obtain ⟨slot, row, held, same, place⟩ := (recorded.found key index).mp known
      refine ⟨slot, row, ?_, same, place⟩
      rw [List.getElem?_append_left (List.getElem?_eq_some_iff.mp held).1, held]
  · rintro ⟨slot, row, held, same, place⟩
    by_cases old : slot < rows.length
    · rw [List.getElem?_append_left old] at held
      exact find?_cons_of_fresh fresh
        ((recorded.found key index).mpr ⟨slot, row, held, same, place⟩)
    · -- the slot behind the last one holds the new row
      have inside := (List.getElem?_eq_some_iff.mp held).1
      rw [List.length_append, List.length_singleton] at inside
      obtain rfl : slot = rows.length := by omega
      simp only [List.getElem?_concat_length, Option.some.injEq] at held
      subst held
      rw [find?_cons, if_pos same, place, recorded.count]

/-- A new key gets the next row. -/
theorem added (recorded : Recorded pool rows asked) {r : Reference} {entry : WrittenConstant}
    (fresh : pool.find? r.key = none) (written : EntryOf pool r entry) :
    Recorded ⟨pool.bytes ++ entry.encode, pool.count + 1, (r.key, pool.count) :: pool.interned⟩
      (rows ++ [(r, entry)])
      (asked ++ [r]) where
  bytes := by simp [recorded.bytes]
  count := by
    rw [List.length_append, recorded.count]
    exact (UInt16.ofNat_add _ 1).symm
  length := by simp [recorded.length]
  found := recorded.found_added fresh _ _
  written row member := by
    rcases List.mem_append.mp member with old | last
    · exact (recorded.written row old).mono fun _ _ => find?_cons_of_fresh fresh
    · rw [List.mem_singleton.mp last]
      exact written.mono fun _ _ => find?_cons_of_fresh fresh
  heard row member := by
    rcases List.mem_append.mp member with old | last
    · exact List.mem_append_left _ (recorded.heard row old)
    · rw [List.mem_singleton.mp last]
      simp
  kept other member := by
    rcases List.mem_append.mp member with old | last
    · obtain ⟨index, known⟩ := recorded.kept other old
      exact ⟨index, find?_cons_of_fresh fresh known⟩
    · rw [List.mem_singleton.mp last]
      exact ⟨pool.count, by rw [find?_cons, if_pos rfl]⟩

theorem intern (recorded : Recorded pool rows asked) {r : Reference} {entry : WrittenConstant}
    (written : EntryOf pool r entry) :
    ∃ more, Recorded (pool.intern r.key entry.encode).2 (rows ++ more) (asked ++ [r]) ∧
      (pool.intern r.key entry.encode).2.find? r.key = some (pool.intern r.key entry.encode).1 := by
  unfold Pool.intern
  cases known : pool.find? r.key with
  | some index => exact ⟨[], by simpa using recorded.repeated known, known⟩
  | none => exact ⟨[(r, entry)], recorded.added known written, by rw [find?_cons, if_pos rfl]⟩

end Recorded

/-! ## Requests -/

/-- The length of the text can be written. -/
def Short (text : String) : Prop := (Utf8.encode text).length < 0x10000

instance (text : String) : Decidable (Short text) := inferInstanceAs (Decidable (_ < _))

/-- The operation interns a reference with its parts and gives the index of its key. -/
def Records (op : Pool → UInt16 × Pool) (r : Reference) : Prop :=
  ∀ {pool : Pool} {rows : List (Reference × WrittenConstant)} {asked : List Reference},
    Recorded pool rows asked →
    ∃ more, Recorded (op pool).2 (rows ++ more) (asked ++ r.parts) ∧
      (op pool).2.find? r.key = some (op pool).1

theorem records_utf8 {text : String} (short : Short text) : Records (·.utf8 text) (.utf8 text) := by
  intro pool rows asked recorded
  simp only [utf8_eq_intern short]
  exact recorded.intern (.utf8 short)

theorem records_classRef {name : String} (short : Short name) :
    Records (·.classRef name) (.classRef name) := by
  intro pool rows asked recorded
  obtain ⟨more, named, index⟩ := records_utf8 short recorded
  obtain ⟨last, done, found⟩ := named.intern (.classRef index)
  rw [List.append_assoc, List.append_assoc] at done
  exact ⟨more ++ last, done, found⟩

theorem records_nameAndType {name descriptor : String} (short : Short name)
    (short' : Short descriptor) :
    Records (·.nameAndType name descriptor) (.nameAndType name descriptor) := by
  intro pool rows asked recorded
  obtain ⟨more, named, nameIndex⟩ := records_utf8 short recorded
  obtain ⟨more', described, descriptorIndex⟩ := records_utf8 short' named
  obtain ⟨last, done, found⟩ :=
    described.intern (.nameAndType (named.mono described nameIndex) descriptorIndex)
  simp only [List.append_assoc] at done
  exact ⟨more ++ (more' ++ last), done, found⟩

theorem records_methodRef {owner name descriptor : String} (ofInterface : Bool)
    (short : Short owner) (short' : Short name) (short'' : Short descriptor) :
    Records (·.methodRef ofInterface owner name descriptor)
      (if ofInterface then .interfaceMethod owner name descriptor
        else .method owner name descriptor) := by
  intro pool rows asked recorded
  obtain ⟨more, owned, ownerIndex⟩ := records_classRef short recorded
  obtain ⟨more', paired, pairIndex⟩ := records_nameAndType short' short'' owned
  have kept := owned.mono paired ownerIndex
  cases ofInterface with
  | false =>
    obtain ⟨last, done, found⟩ := paired.intern (.method kept pairIndex)
    simp only [List.append_assoc] at done
    exact ⟨more ++ (more' ++ last), done, found⟩
  | true =>
    obtain ⟨last, done, found⟩ := paired.intern (.interfaceMethod kept pairIndex)
    simp only [List.append_assoc] at done
    exact ⟨more ++ (more' ++ last), done, found⟩

theorem records_dynamicCall {name descriptor : String} (short : Short name)
    (short' : Short descriptor) :
    Records (·.dynamicCall name descriptor) (.dynamicCall name descriptor) := by
  intro pool rows asked recorded
  obtain ⟨more, paired, pairIndex⟩ := records_nameAndType short short' recorded
  obtain ⟨last, done, found⟩ := paired.intern (.dynamicCall pairIndex)
  rw [List.append_assoc, List.append_assoc] at done
  exact ⟨more ++ last, done, found⟩

/-- Every request is recorded as what it is. -/
theorem records_add {r : Reference} (short : ∀ text ∈ r.texts, Short text) :
    Records (·.add r) r := by
  cases r with
  | utf8 text => exact records_utf8 (short text (by simp [Reference.texts]))
  | classRef name => exact records_classRef (short name (by simp [Reference.texts]))
  | nameAndType name descriptor =>
    exact records_nameAndType (short name (by simp [Reference.texts]))
      (short descriptor (by simp [Reference.texts]))
  | method owner name descriptor =>
    exact records_methodRef false (short owner (by simp [Reference.texts]))
      (short name (by simp [Reference.texts]))
      (short descriptor (by simp [Reference.texts]))
  | interfaceMethod owner name descriptor =>
    exact records_methodRef true (short owner (by simp [Reference.texts]))
      (short name (by simp [Reference.texts]))
      (short descriptor (by simp [Reference.texts]))
  | dynamicCall name descriptor =>
    exact records_dynamicCall (short name (by simp [Reference.texts]))
      (short descriptor (by simp [Reference.texts]))

/-- Ask for references one after the other, and keep the index that is given for each. -/
def Class.referAll (c : Class) : List Reference → List (Reference × UInt16) × Class
  | [] => ([], c)
  | r :: rest =>
      let (index, c) := c.refer r
      let (answers, c) := c.referAll rest
      ((r, index) :: answers, c)

theorem map_fst_referAll (c : Class) (calls : List Reference) :
    (c.referAll calls).1.map Prod.fst = calls := by
  induction calls generalizing c with
  | nil => rfl
  | cons r rest ih => exact congrArg (r :: ·) (ih (c.refer r).2)

/-- All requests are recorded, and the index that was given for each is that of its key in the
end. -/
theorem recorded_referAll {c : Class} {rows : List (Reference × WrittenConstant)}
    {asked calls : List Reference} (recorded : Recorded c.pool rows asked)
    (short : ∀ r ∈ calls, ∀ text ∈ r.texts, Short text) :
    ∃ more, Recorded (c.referAll calls).2.pool (rows ++ more)
      (asked ++ calls.flatMap Reference.parts) ∧
      ∀ a ∈ (c.referAll calls).1, (c.referAll calls).2.pool.find? a.1.key = some a.2 := by
  induction calls generalizing c rows asked with
  | nil => exact ⟨[], by simpa [Class.referAll] using recorded, by simp [Class.referAll]⟩
  | cons r rest ih =>
    obtain ⟨more, first, given⟩ := records_add (short r List.mem_cons_self) recorded
    have refers : Recorded (c.refer r).2.pool (rows ++ more) (asked ++ r.parts) := first
    obtain ⟨more', last, later⟩ :=
      ih refers fun other member => short other (List.mem_cons_of_mem r member)
    have kept := first.mono last given
    rw [List.append_assoc, List.append_assoc] at last
    refine ⟨more ++ more', last, ?_⟩
    intro a member
    rcases List.mem_cons.mp member with rfl | inside
    · exact kept
    · exact later a inside

/-! ## The declaration of a class -/

/-- Nothing but texts and classes was asked for. -/
def PlainlyRecorded (pool : Pool) : Prop :=
  ∃ rows asked, Recorded pool rows asked ∧ ∀ r ∈ asked, r.IsPlain

theorem PlainlyRecorded.classRef {pool : Pool} (plainly : PlainlyRecorded pool) {name : String}
    (short : Short name) :
    PlainlyRecorded (pool.classRef name).2 := by
  obtain ⟨rows, asked, recorded, plain⟩ := plainly
  obtain ⟨more, recorded', -⟩ := records_classRef short recorded
  refine ⟨rows ++ more, _, recorded', ?_⟩
  intro r member
  rcases List.mem_append.mp member with before | added
  · exact plain r before
  · rcases List.mem_pair.mp added with rfl | rfl <;> trivial

theorem PlainlyRecorded.internSuper {pool : Pool} (plainly : PlainlyRecorded pool)
    {superName : String} (short : Short superName) :
    PlainlyRecorded (internSuper superName pool).2 := by
  unfold Assembly.internSuper
  split
  · exact plainly
  · exact plainly.classRef short

theorem PlainlyRecorded.internClasses {pool : Pool} (plainly : PlainlyRecorded pool)
    {names : List String} (short : ∀ name ∈ names, Short name) :
    PlainlyRecorded (internClasses pool names).2 := by
  induction names generalizing pool with
  | nil => exact plainly
  | cons name names ih =>
    exact ih (plainly.classRef (short name List.mem_cons_self)) fun other member =>
      short other (List.mem_cons_of_mem name member)

theorem plainlyRecorded_declare {name superName : String} {interfaces : List String}
    (short : ∀ text ∈ name :: superName :: interfaces, Short text) (access : UInt16) :
    PlainlyRecorded (Class.declare access name superName interfaces).pool := by
  have start : PlainlyRecorded {} := ⟨[], [], recorded_empty, by simp⟩
  have named := start.classRef (short name (by simp))
  have inherited := named.internSuper (short superName (by simp))
  exact inherited.internClasses fun text member => short text (by simp [member])

/-! ## What is given -/

namespace Recorded

variable {pool : Pool} {rows : List (Reference × WrittenConstant)} {asked : List Reference}
  {index : UInt16}

/-- In a pool that fits, an index is the place of a row. -/
theorem exists_slot (recorded : Recorded pool rows asked) (fits : pool.Fits) {key : String}
    (found : pool.find? key = some index) :
    ∃ slot row, rows[slot]? = some row ∧ row.1.key = key ∧ index.toNat = slot + 1 := by
  obtain ⟨slot, row, held, same, rfl⟩ := (recorded.found key index).mp found
  have inside := (List.getElem?_eq_some_iff.mp held).1
  have few := recorded.length
  unfold Pool.Fits at fits
  exact ⟨slot, row, held, same, UInt16.toNat_ofNat_of_lt' (by show _ < 0x10000; omega)⟩

/-- Keys with the same index are the same. -/
theorem key_eq (recorded : Recorded pool rows asked) (fits : pool.Fits) {key key' : String}
    (found : pool.find? key = some index) (found' : pool.find? key' = some index) : key = key' := by
  obtain ⟨slot, row, held, rfl, place⟩ := recorded.exists_slot fits found
  obtain ⟨slot', row', held', rfl, place'⟩ := recorded.exists_slot fits found'
  obtain rfl : slot = slot' := by omega
  rw [held, Option.some.injEq] at held'
  rw [held']

/-- An index refers to the entry that was written for the first reference with its key. -/
theorem exists_entry (recorded : Recorded pool rows asked) (fits : pool.Fits) {key : String}
    (found : pool.find? key = some index) :
    ∃ first entry, first ∈ asked ∧ first.key = key ∧ EntryAt (rows.map Prod.snd) index entry ∧
      EntryOf pool first entry := by
  obtain ⟨slot, row, held, same, place⟩ := recorded.exists_slot fits found
  have member := List.mem_of_getElem? held
  exact ⟨row.1, row.2, recorded.heard row member, same, ⟨slot, place, by simp [held]⟩,
    recorded.written row member⟩

theorem textEntry (recorded : Recorded pool rows asked) (fits : pool.Fits) {text : String}
    (found : pool.find? (Reference.utf8 text).key = some index) :
    TextEntry (rows.map Prod.snd) index text := by
  obtain ⟨first, entry, -, same, held, written⟩ := recorded.exists_entry fits found
  obtain rfl : .utf8 text = first := Reference.IsPlain.eq_of_key trivial same.symm
  cases written with
  | utf8 short => exact ⟨short, held⟩

theorem classEntry (recorded : Recorded pool rows asked) (fits : pool.Fits) {name : String}
    (found : pool.find? (Reference.classRef name).key = some index) :
    ClassEntry (rows.map Prod.snd) index name := by
  obtain ⟨first, entry, -, same, held, written⟩ := recorded.exists_entry fits found
  obtain rfl : .classRef name = first := Reference.IsPlain.eq_of_key trivial same.symm
  cases written with
  | classRef named => exact ⟨_, held, recorded.textEntry fits named⟩

/-- No other reference was asked for with the same key. -/
def Alone (asked : List Reference) (r : Reference) : Prop :=
  ∀ other ∈ asked, other.key = r.key → other = r

theorem pairEntry (recorded : Recorded pool rows asked) (fits : pool.Fits)
    {name descriptor : String}
    (found : pool.find? (Reference.nameAndType name descriptor).key = some index)
    (alone : Alone asked (.nameAndType name descriptor)) :
    PairEntry (rows.map Prod.snd) index name descriptor := by
  obtain ⟨first, entry, member, same, held, written⟩ := recorded.exists_entry fits found
  rw [alone first member same] at written
  cases written with
  | nameAndType named described =>
    exact ⟨_, _, held, recorded.textEntry fits named, recorded.textEntry fits described⟩

/-- Where a reference and its parts are alone with their keys, the index resolves to the
reference. -/
theorem resolves (recorded : Recorded pool rows asked) (fits : pool.Fits) {r : Reference}
    (found : pool.find? r.key = some index) (alone : ∀ p ∈ r.parts, Alone asked p) :
    Resolves (rows.map Prod.snd) index r := by
  obtain ⟨first, entry, member, same, held, written⟩ := recorded.exists_entry fits found
  rw [alone r r.self_mem_parts first member same] at written
  cases written with
  | utf8 short => exact ⟨short, held⟩
  | classRef named => exact ⟨_, held, recorded.textEntry fits named⟩
  | nameAndType named described =>
    exact ⟨_, _, held, recorded.textEntry fits named, recorded.textEntry fits described⟩
  | method owned paired =>
    exact ⟨_, _, held, recorded.classEntry fits owned,
      recorded.pairEntry fits paired (alone _ (by simp [Reference.parts]))⟩
  | interfaceMethod owned paired =>
    exact ⟨_, _, held, recorded.classEntry fits owned,
      recorded.pairEntry fits paired (alone _ (by simp [Reference.parts]))⟩
  | dynamicCall paired =>
    exact ⟨_, held, recorded.pairEntry fits paired (alone _ (by simp [Reference.parts]))⟩

end Recorded

/-- Where a reference resolves to what it is, so do its name and descriptor, provided that the entry
was written for the reference. -/
theorem Resolves.exists_pairEntry {pool : Pool} {entries : List WrittenConstant} {index : UInt16}
    {r : Reference} {name descriptor : String} (resolved : Resolves entries index r)
    (found : pool.find? r.key = some index) (part : .nameAndType name descriptor ∈ r.parts)
    (own : r = .nameAndType name descriptor ∨ ∃ entry, EntryAt entries index entry ∧
      EntryOf pool r entry) :
    ∃ pairIndex, pool.find? (Reference.nameAndType name descriptor).key = some pairIndex ∧
      PairEntry entries pairIndex name descriptor := by
  rcases own with rfl | ⟨entry, held, written⟩
  · exact ⟨index, found, resolved⟩
  cases written with
  | utf8 | classRef => simp [Reference.parts] at part
  | nameAndType =>
    obtain ⟨rfl, rfl⟩ : name = _ ∧ descriptor = _ := by simpa [Reference.parts] using part
    exact ⟨index, found, resolved⟩
  | method owned paired =>
    obtain ⟨rfl, rfl⟩ : name = _ ∧ descriptor = _ := by simpa [Reference.parts] using part
    obtain ⟨_, _, held', -, pair⟩ := resolved
    cases held.unique held'
    exact ⟨_, paired, pair⟩
  | interfaceMethod owned paired =>
    obtain ⟨rfl, rfl⟩ : name = _ ∧ descriptor = _ := by simpa [Reference.parts] using part
    obtain ⟨_, _, held', -, pair⟩ := resolved
    cases held.unique held'
    exact ⟨_, paired, pair⟩
  | dynamicCall paired =>
    obtain ⟨rfl, rfl⟩ : name = _ ∧ descriptor = _ := by simpa [Reference.parts] using part
    obtain ⟨_, held', pair⟩ := resolved
    cases held.unique held'
    exact ⟨_, paired, pair⟩

/-! ## Confusion -/

/-- Nothing is confused: every index resolves to what was asked for, and two requests are given the
same index exactly if they are for the same reference. -/
structure ToldApart (entries : List WrittenConstant) (answers : List (Reference × UInt16)) :
    Prop where
  resolves : ∀ a ∈ answers, Resolves entries a.2 a.1
  apart : ∀ a ∈ answers, ∀ b ∈ answers, a.2 = b.2 ↔ a.1 = b.1

/-- No two different references have the same key. -/
def KeysApart (asked : List Reference) : Prop := ∀ r ∈ asked, ∀ r' ∈ asked, r.key = r'.key → r = r'

/-- What is known of requests that were made to a class: those of its declaration are plain. -/
structure Answered (pool : Pool) (rows : List (Reference × WrittenConstant))
    (declared calls : List Reference) (answers : List (Reference × UInt16)) : Prop where
  recorded : Recorded pool rows (declared ++ calls.flatMap Reference.parts)
  plain : ∀ r ∈ declared, r.IsPlain
  fits : pool.Fits
  calls : answers.map Prod.fst = calls
  given : ∀ a ∈ answers, pool.find? a.1.key = some a.2

namespace Answered

variable {pool : Pool} {rows : List (Reference × WrittenConstant)} {declared calls : List Reference}
  {answers : List (Reference × UInt16)}

theorem mem_calls (answered : Answered pool rows declared calls answers) {a : Reference × UInt16}
    (member : a ∈ answers) :
    a.1 ∈ calls := by
  rw [← answered.calls]
  exact List.mem_map_of_mem member

theorem exists_answer (answered : Answered pool rows declared calls answers) {r : Reference}
    (called : r ∈ calls) :
    ∃ index, (r, index) ∈ answers := by
  rw [← answered.calls] at called
  obtain ⟨a, member, rfl⟩ := List.mem_map.mp called
  exact ⟨a.2, member⟩

/-- The same index is given for the same key. -/
theorem index_eq_iff (answered : Answered pool rows declared calls answers)
    {a b : Reference × UInt16} (first : a ∈ answers) (second : b ∈ answers) :
    a.2 = b.2 ↔ a.1.key = b.1.key := by
  have found := answered.given a first
  have found' := answered.given b second
  constructor
  · intro same
    rw [← same] at found'
    exact answered.recorded.key_eq answered.fits found found'
  · intro same
    rw [same, found', Option.some.injEq] at found
    exact found.symm

theorem toldApart_of_keysApart (answered : Answered pool rows declared calls answers)
    (keys : KeysApart (calls.flatMap Reference.parts)) : ToldApart (rows.map Prod.snd) answers := by
  have alone {r : Reference} (called : r ∈ calls) (p : Reference) (part : p ∈ r.parts) :
      Recorded.Alone (declared ++ calls.flatMap Reference.parts) p := by
    intro other member same
    rcases List.mem_append.mp member with before | asked
    · exact (answered.plain other before).eq_of_key same
    · exact keys other asked p (List.mem_flatMap.mpr ⟨r, called, part⟩) same
  constructor
  · intro a member
    exact answered.recorded.resolves answered.fits (answered.given a member)
      (alone (answered.mem_calls member))
  · intro a first b second
    rw [answered.index_eq_iff first second]
    constructor
    · intro same
      have called (c : Reference × UInt16) (member : c ∈ answers) :
          c.1 ∈ calls.flatMap Reference.parts :=
        List.mem_flatMap.mpr ⟨c.1, answered.mem_calls member, c.1.self_mem_parts⟩
      exact keys a.1 (called a first) b.1 (called b second) same
    · intro same
      rw [same]

/-- Where nothing is confused, whatever was asked for with the key of a call is that call, names and
descriptors apart, which can come in with other references. -/
theorem eq_of_toldApart (answered : Answered pool rows declared calls answers)
    (told : ToldApart (rows.map Prod.snd) answers) {r other : Reference} (called : r ∈ calls)
    (asked : other ∈ declared ++ calls.flatMap Reference.parts) (same : other.key = r.key) :
    other = r ∨ ∃ name descriptor, r = .nameAndType name descriptor := by
  rcases List.mem_append.mp asked with before | asked
  · exact .inl ((answered.plain other before).eq_of_key same)
  obtain ⟨call, called', part⟩ := List.mem_flatMap.mp asked
  rcases Reference.mem_parts_cases part with rfl | plain | ⟨name, descriptor, rfl⟩
  · obtain ⟨index, answer⟩ := answered.exists_answer called
    obtain ⟨index', answer'⟩ := answered.exists_answer called'
    have shared := (answered.index_eq_iff answer' answer).mpr same
    exact .inl ((told.apart _ answer' _ answer).mp shared)
  · exact .inl (plain.eq_of_key same)
  · have kinds := (Reference.key_eq_iff.mp same).1
    cases r with
    | nameAndType name' descriptor' => exact .inr ⟨name', descriptor', rfl⟩
    | _ => simp [Reference.kind] at kinds

/-- The name and the descriptor of a call are then found under their own key. -/
theorem exists_pairEntry (answered : Answered pool rows declared calls answers)
    (told : ToldApart (rows.map Prod.snd) answers) {r : Reference} (called : r ∈ calls)
    {name descriptor : String} (part : .nameAndType name descriptor ∈ r.parts) :
    ∃ pairIndex, pool.find? (Reference.nameAndType name descriptor).key = some pairIndex ∧
      PairEntry (rows.map Prod.snd) pairIndex name descriptor := by
  obtain ⟨index, answer⟩ := answered.exists_answer called
  have found := answered.given _ answer
  refine (told.resolves _ answer).exists_pairEntry found part ?_
  obtain ⟨first, entry, asked, same, held, written⟩ :=
    answered.recorded.exists_entry answered.fits found
  rcases answered.eq_of_toldApart told called asked same with rfl | ⟨name', descriptor', rfl⟩
  · exact .inr ⟨entry, held, written⟩
  · obtain ⟨rfl, rfl⟩ : name = name' ∧ descriptor = descriptor' := by
      simpa [Reference.parts] using part
    exact .inl rfl

theorem keysApart_of_toldApart (answered : Answered pool rows declared calls answers)
    (told : ToldApart (rows.map Prod.snd) answers) : KeysApart (calls.flatMap Reference.parts) := by
  intro r asked r' asked' same
  obtain ⟨call, called, part⟩ := List.mem_flatMap.mp asked
  obtain ⟨call', called', part'⟩ := List.mem_flatMap.mp asked'
  have pairs {name descriptor : String} (pair : r = .nameAndType name descriptor) : r = r' := by
    subst pair
    have kinds := (Reference.key_eq_iff.mp same).1
    cases r' with
    | nameAndType name' descriptor' =>
      -- both are found under one key, where there is one name and one descriptor
      obtain ⟨index, found, held⟩ := answered.exists_pairEntry told called part
      obtain ⟨index', found', held'⟩ := answered.exists_pairEntry told called' part'
      rw [same, found', Option.some.injEq] at found
      subst found
      obtain ⟨rfl, rfl⟩ := held.unique held'
      rfl
    | _ => simp [Reference.kind] at kinds
  rcases Reference.mem_parts_cases part with rfl | plain | ⟨name, descriptor, pair⟩
  · rcases answered.eq_of_toldApart told called (List.mem_append_right _ asked') same.symm
      with equal | ⟨_, _, pair⟩
    · exact equal.symm
    · exact pairs pair
  · exact plain.eq_of_key same
  · exact pairs pair

theorem keysApart_of_separated (separated : ∀ r ∈ calls, r.Separated) :
    KeysApart (calls.flatMap Reference.parts) := by
  intro r asked r' asked' same
  obtain ⟨call, called, part⟩ := List.mem_flatMap.mp asked
  obtain ⟨call', called', part'⟩ := List.mem_flatMap.mp asked'
  exact Reference.key_inj (Reference.separated_of_mem_parts (separated call called) part)
    (Reference.separated_of_mem_parts (separated call' called') part') same

end Answered

/-- The pool is written as these entries, and a reader that comes to it reads them. -/
structure WrittenAs (pool : Pool) (entries : List WrittenConstant) : Prop where
  bytes : pool.bytes = entries.flatMap WrittenConstant.encode
  read : ∀ offset rest, readPool ⟨offset, u2 pool.count ++ pool.bytes ++ rest⟩ =
    .ok (tableOf entries, ⟨offset + (u2 pool.count ++ pool.bytes).length, rest⟩)

theorem Recorded.writtenAs {pool : Pool} {rows : List (Reference × WrittenConstant)}
    {asked : List Reference} (recorded : Recorded pool rows asked) (fits : pool.Fits) :
    WrittenAs pool (rows.map Prod.snd) := by
  have bytes : pool.bytes = (rows.map Prod.snd).flatMap WrittenConstant.encode := by
    rw [recorded.bytes, List.flatMap_map]
  have few : (rows.map Prod.snd).length + 1 < 0x10000 := by
    rw [List.length_map, ← recorded.length]
    exact fits
  have narrow : ∀ entry ∈ rows.map Prod.snd, entry.constant.isWide = false := by
    intro entry member
    obtain ⟨row, inside, rfl⟩ := List.mem_map.mp member
    exact (recorded.written row inside).narrow
  have count : pool.count = UInt16.ofNat ((rows.map Prod.snd).length + 1) := by
    rw [List.length_map]
    exact recorded.count
  refine ⟨bytes, fun offset rest => ?_⟩
  refine (accepts_readPool _ _ _).mpr ⟨_, ⟨⟨pool.count, rows.map Prod.snd⟩, ?_, ?_, ?_⟩, rfl, rfl⟩
  · rw [count]
    exact filled_written few narrow
  · rw [bytes]
    rfl
  · rw [count]
    exact (table_written few narrow).symm

/-- Requests to a class for references of any names and descriptors. Two of them are given the same
index exactly if the references have the same key. Nothing is confused, that is, every index
resolves to what was asked for and only requests for one reference share an index, exactly if no two
of the references that are interned for the requests have the same key without being the same; and
so for all references whose names have none of the characters that keys are put together with. What
an index resolves to is also what a reader of the pool looks up there, if it is the same in modified
UTF-8. -/
theorem references_told_apart_iff {access : UInt16} {name superName : String}
    {interfaces : List String} {calls : List Reference} {answers : List (Reference × UInt16)}
    {c : Class}
    (short : ∀ text ∈ name :: superName :: interfaces ++ calls.flatMap Reference.texts, Short text)
    (ran : (Class.declare access name superName interfaces).referAll calls = (answers, c))
    (fits : c.pool.Fits) :
    ∃ entries, WrittenAs c.pool entries ∧
      (∀ a ∈ answers, ∀ b ∈ answers, a.2 = b.2 ↔ a.1.key = b.1.key) ∧
      (ToldApart entries answers ↔ KeysApart (calls.flatMap Reference.parts)) ∧
      ((∀ r ∈ calls, r.Separated) → ToldApart entries answers) ∧
      ∀ r index, Resolves entries index r →
        (∀ text ∈ r.texts, ∀ c ∈ text.toList, c.toNat < 0x10000) →
        Stands (tableOf entries) r index := by
  obtain ⟨rows, declared, recorded, plain⟩ :=
    plainlyRecorded_declare (fun text member => short text (List.mem_append_left _ member)) access
  obtain ⟨more, all, given⟩ := recorded_referAll recorded fun r called text member =>
    short text (List.mem_append_right _ (List.mem_flatMap.mpr ⟨r, called, member⟩))
  have asked := map_fst_referAll (Class.declare access name superName interfaces) calls
  rw [ran] at all given asked
  have answered : Answered c.pool (rows ++ more) declared calls answers :=
    ⟨all, plain, fits, asked, given⟩
  refine ⟨(rows ++ more).map Prod.snd, all.writtenAs fits,
    fun a first b second => answered.index_eq_iff first second,
    ⟨answered.keysApart_of_toldApart, answered.toldApart_of_keysApart⟩, fun separated => ?_,
    fun r index => Resolves.stands⟩
  exact answered.toldApart_of_keysApart (Answered.keysApart_of_separated separated)

/-- References of all kinds with the same texts, one of them twice. -/
def likeNamed : List Reference :=
  [.utf8 "f", .classRef "f", .method "f" "f" "()V", .interfaceMethod "f" "f" "()V",
    .dynamicCall "f" "()V", .method "f" "f" "()V"]

/-- Methods of two classes whose names and descriptors spell the same with a colon between. -/
def likePaired : List Reference := [.method "o" "a" "b:c", .method "p" "a:b" "c"]

theorem references_told_apart_iff_samples :
    (∃ entries, WrittenAs ((Class.declare 0x21 "A" "" ["f"]).referAll likeNamed).2.pool entries ∧
      ToldApart entries ((Class.declare 0x21 "A" "" ["f"]).referAll likeNamed).1) ∧
    ∃ entries, WrittenAs ((Class.declare 0x21 "A" "B" []).referAll likePaired).2.pool entries ∧
      ¬ ToldApart entries ((Class.declare 0x21 "A" "B" []).referAll likePaired).1 := by
  have short : ∀ text ∈ "A" :: "" :: ["f"] ++ likeNamed.flatMap Reference.texts, Short text := by
    decide +kernel
  have fits : ((Class.declare 0x21 "A" "" ["f"]).referAll likeNamed).2.pool.Fits := by
    show _ + 1 < 0x10000
    decide +kernel
  have short' : ∀ text ∈ "A" :: "B" :: [] ++ likePaired.flatMap Reference.texts, Short text := by
    decide +kernel
  have fits' : ((Class.declare 0x21 "A" "B" []).referAll likePaired).2.pool.Fits := by
    show _ + 1 < 0x10000
    decide +kernel
  obtain ⟨entries, written, -, -, told, -⟩ := references_told_apart_iff short rfl fits
  obtain ⟨entries', written', -, toldIff, -⟩ := references_told_apart_iff short' rfl fits'
  refine ⟨⟨entries, written, told (by decide +kernel)⟩, entries', written', fun told' => ?_⟩
  have same :=
    toldIff.mp told' (.nameAndType "a" "b:c") (by decide) (.nameAndType "a:b" "c") (by decide)
    (by decide +kernel)
  exact absurd same (by decide)

/-- The name and the descriptor of two methods are run together to the same text, and the second one
is given the index of the first. -/
theorem split_name_shares_index :
    ((Class.declare 0x21 "A" "B" []).referAll [.method "a" "b" "c", .method "a" "bc" ""]).1 =
      [(.method "a" "b" "c", 10), (.method "a" "bc" "", 10)] := by
  decide +kernel

end JarMetrics.Assembly
