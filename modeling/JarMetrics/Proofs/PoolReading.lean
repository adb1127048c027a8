import JarMetrics.Proofs.Grammar
import JarMetrics.Proofs.WrittenClass

/-!
# Reading the constant pool

The readers of the class-file parser from the bottom up to the pool, each with the grammar that it
accepts. `accepts_readConstant` covers the 17 kinds of entry; `accepts_readSlots` follows the
entries through the slots, where a long or a double takes two and the second may fall past the end;
`accepts_readPool` is the whole pool. `accepts_counted` is the shape of every counted list in a
class file.
-/

namespace JarMetrics.ClassFile

open Grammar

/-! ## Readers at the bottom -/

theorem accepts_take (count : Nat) :
    Accepts (Reader.take count) (fun bytes value => bytes.length = count ∧ value = bytes) := by
  apply Accepts.of_take
  · intro c bytes d taken
    unfold Reader.take
    rw [taken]
    rfl
  · intro c cut taken
    unfold Reader.take
    rw [taken]
    exact ⟨_, rfl⟩

theorem accepts_skip (count : Nat) :
    Accepts (Reader.skip count) (fun bytes _ => bytes.length = count) := by
  refine ((accepts_take count).map fun _ => ()).congr fun bytes value => ?_
  constructor
  · rintro ⟨-, ⟨length, -⟩, -⟩
    exact length
  · intro length
    exact ⟨bytes, ⟨length, rfl⟩, rfl⟩

theorem accepts_number (count : Nat) :
    Accepts (Reader.number count) (fun bytes value => bytes.length = count ∧
      value = bigEndian bytes) := by
  refine ((accepts_take count).map bigEndian).congr fun bytes value => ?_
  constructor
  · rintro ⟨taken, ⟨length, rfl⟩, rfl⟩
    exact ⟨length, rfl⟩
  · rintro ⟨length, rfl⟩
    exact ⟨bytes, ⟨length, rfl⟩, rfl⟩

theorem accepts_u1 : Accepts Reader.u1 (fun bytes value => bytes = [value]) := by
  refine ((accepts_number 1).map UInt8.ofNat).congr fun bytes value => ?_
  constructor
  · rintro ⟨-, ⟨length, rfl⟩, rfl⟩
    obtain ⟨byte, rfl⟩ := length_one_iff.mp length
    rw [bigEndian_singleton, UInt8.ofNat_toNat]
  · rintro rfl
    refine ⟨_, ⟨rfl, rfl⟩, ?_⟩
    rw [bigEndian_singleton, UInt8.ofNat_toNat]

theorem accepts_u2 : Accepts Reader.u2 (fun bytes value => bytes = twoBytes value) := by
  refine ((accepts_number 2).map UInt16.ofNat).congr fun bytes value => ?_
  constructor
  · rintro ⟨-, ⟨length, rfl⟩, rfl⟩
    obtain ⟨value, rfl⟩ := length_two_iff.mp length
    rw [bigEndian_twoBytes, UInt16.ofNat_toNat]
  · rintro rfl
    refine ⟨_, ⟨length_twoBytes value, rfl⟩, ?_⟩
    rw [bigEndian_twoBytes, UInt16.ofNat_toNat]

/-- Reading `count` items one after the other. -/
theorem accepts_repeatN {α : Type} {read : Nat → Reader α} {item : Grammar α}
    (accepts : ∀ position, Accepts (read position) item) (count : Nat) :
    Accepts (Reader.repeatN read count)
      (fun bytes values => Many item bytes values ∧ values.length = count) := by
  have walk : ∀ left position done,
      Accepts (Reader.repeatN.go read left position done) (loop item left done) := by
    intro left
    induction left with
    | zero =>
      intro position done
      exact (Accepts.pure done.reverse).congr fun _ _ => loop_zero_iff.symm
    | succ left ih =>
      intro position done
      exact ((accepts position).bind fun value => ih (position + 1) (value :: done)).congr
        fun _ _ => loop_succ_iff.symm
  exact (walk count 0 []).congr fun _ _ => loop_nil_iff

/-- A list that is announced by its length in two bytes. -/
theorem accepts_counted {α β : Type} {read : Nat → Reader α} {valid : β → Prop}
    {encode : β → List UInt8} {meaning : β → α}
    (accepts : ∀ position, Accepts (read position) (image valid encode meaning)) :
    Accepts (Reader.counted read)
      (image (fun list : Counted β => ∀ x ∈ list.items, valid x) (Counted.encode encode)
        (fun list => list.items.map meaning)) := by
  refine ((accepts_number 2).bind fun count => accepts_repeatN accepts count).congr
    fun bytes values => ?_
  constructor
  · rintro ⟨front, back, -, rfl, ⟨length, rfl⟩, many, count⟩
    obtain ⟨xs, good, rfl, rfl⟩ := many_image_iff.mp many
    rw [List.length_map] at count
    have fits : xs.length < 0x10000 := count ▸ bigEndian_lt length
    refine ⟨⟨xs, fits⟩, good, ?_, rfl⟩
    show front ++ _ = toBigEndian 2 xs.length ++ _
    rw [count, toBigEndian_bigEndian length]
  · rintro ⟨list, good, rfl, rfl⟩
    refine ⟨_, _, _, rfl, ⟨length_toBigEndian 2 _, rfl⟩, many_image_iff.mpr ⟨_, good, rfl, rfl⟩, ?_⟩
    rw [List.length_map, bigEndian_toBigEndian_of_lt list.fits]

/-! ## The constant pool -/

/-- The entries with a given tag. -/
def WrittenConstant.HasTag : Nat → WrittenConstant → Prop
  | 1, entry => ∃ text : { text : List UInt8 // text.length < 0x10000 }, entry = .utf8 text.1 text.2
  | 3, entry => ∃ bits, entry = .integer bits
  | 4, entry => ∃ bits, entry = .float bits
  | 5, entry => ∃ bits, entry = .long bits
  | 6, entry => ∃ bits, entry = .double bits
  | 7, entry => ∃ i, entry = .classRef i
  | 8, entry => ∃ i, entry = .string i
  | 9, entry => ∃ pair : UInt16 × UInt16, entry = .fieldRef pair.1 pair.2
  | 10, entry => ∃ pair : UInt16 × UInt16, entry = .methodRef pair.1 pair.2
  | 11, entry => ∃ pair : UInt16 × UInt16, entry = .interfaceMethodRef pair.1 pair.2
  | 12, entry => ∃ pair : UInt16 × UInt16, entry = .nameAndType pair.1 pair.2
  | 15, entry => ∃ pair : UInt8 × UInt16, entry = .methodHandle pair.1 pair.2
  | 16, entry => ∃ i, entry = .methodType i
  | 17, entry => ∃ pair : UInt16 × UInt16, entry = .dynamic pair.1 pair.2
  | 18, entry => ∃ pair : UInt16 × UInt16, entry = .invokeDynamic pair.1 pair.2
  | 19, entry => ∃ i, entry = .module i
  | 20, entry => ∃ i, entry = .package i
  | _, _ => False

theorem WrittenConstant.hasTag (entry : WrittenConstant) :
    HasTag entry.constant.tag.toNat entry := by
  cases entry with
  | utf8 bytes fits => exact ⟨⟨bytes, fits⟩, rfl⟩
  | integer bits | float bits | long bits | double bits => exact ⟨bits, rfl⟩
  | classRef i | string i | methodType i | module i | package i => exact ⟨i, rfl⟩
  | methodHandle kind i => exact ⟨(kind, i), rfl⟩
  | fieldRef i j | methodRef i j | interfaceMethodRef i j | nameAndType i j | dynamic i j
  | invokeDynamic i j => exact ⟨(i, j), rfl⟩

/-- The payloads that may follow a tag, and the constants they make. -/
def payloadOf (tag : Nat) : Grammar Constant :=
  image (fun entry : WrittenConstant => entry.constant.tag.toNat = tag)
    WrittenConstant.payload WrittenConstant.constant

/-- A reader for all entries of one shape, where the shape is the only one with its tag. -/
theorem accepts_payloadOf {ι : Type} {tag : Nat} {read : Reader Constant} {encode : ι → List UInt8}
    {meaning : ι → Constant}
    (accepts : Accepts read (fun bytes value => ∃ x, bytes = encode x ∧ value = meaning x))
    (shape : ι → WrittenConstant)
    (only : ∀ entry, WrittenConstant.HasTag tag entry → ∃ x, entry = shape x)
    (spelled : ∀ x, (shape x).constant.tag.toNat = tag ∧ encode x = (shape x).payload ∧
      meaning x = (shape x).constant) :
    Accepts read (payloadOf tag) := by
  refine accepts.congr fun bytes value => ?_
  constructor
  · rintro ⟨x, rfl, rfl⟩
    exact ⟨shape x, spelled x⟩
  · rintro ⟨entry, tags, rfl, rfl⟩
    obtain ⟨x, rfl⟩ := only entry (tags ▸ entry.hasTag)
    exact ⟨x, (spelled x).2.1.symm, (spelled x).2.2.symm⟩

theorem accepts_oneIndex (build : UInt16 → Constant) :
    Accepts (Reader.u2 >>= fun i => pure (build i))
      (fun bytes value => ∃ i, bytes = twoBytes i ∧ value = build i) :=
  accepts_u2.map build

theorem accepts_twoIndices (build : UInt16 → UInt16 → Constant) :
    Accepts (Reader.u2 >>= fun i => Reader.u2 >>= fun j => pure (build i j))
      (fun bytes value => ∃ pair : UInt16 × UInt16,
        bytes = twoBytes pair.1 ++ twoBytes pair.2 ∧ value = build pair.1 pair.2) := by
  refine (accepts_u2.bind fun i => accepts_u2.map (build i)).congr fun bytes value => ?_
  constructor
  · rintro ⟨-, -, i, rfl, rfl, j, rfl, rfl⟩
    exact ⟨(i, j), rfl, rfl⟩
  · rintro ⟨⟨i, j⟩, rfl, rfl⟩
    exact ⟨_, _, i, rfl, rfl, j, rfl, rfl⟩

/-- A number that is passed by, of a width that spells all numbers of its type. -/
theorem accepts_skipped {α : Type} {width : Nat} {encode : α → List UInt8}
    (spells : ∀ bytes : List UInt8, bytes.length = width ↔ ∃ bits, bytes = encode bits)
    (constant : Constant) :
    Accepts (Reader.skip width >>= fun _ => pure constant)
      (fun bytes value => ∃ bits, bytes = encode bits ∧ value = constant) := by
  refine ((accepts_skip width).map fun _ => constant).congr fun bytes value => ?_
  rw [spells]
  constructor
  · rintro ⟨-, ⟨bits, rfl⟩, rfl⟩
    exact ⟨bits, rfl, rfl⟩
  · rintro ⟨bits, rfl, rfl⟩
    exact ⟨(), ⟨bits, rfl⟩, rfl⟩

theorem accepts_fourSkipped (constant : Constant) :
    Accepts (Reader.skip 4 >>= fun _ => pure constant)
      (fun bytes value => ∃ bits, bytes = fourBytes bits ∧ value = constant) :=
  accepts_skipped (fun _ => length_four_iff) constant

theorem accepts_eightSkipped (constant : Constant) :
    Accepts (Reader.skip 8 >>= fun _ => pure constant)
      (fun bytes value => ∃ bits, bytes = eightBytes bits ∧ value = constant) :=
  accepts_skipped (fun _ => length_eight_iff) constant

theorem accepts_handle :
    Accepts (Reader.skip 1 >>= fun _ => Reader.u2 >>= fun i => pure (Constant.methodHandle i))
      (fun bytes value => ∃ pair : UInt8 × UInt16,
        bytes = pair.1 :: twoBytes pair.2 ∧ value = .methodHandle pair.2) := by
  refine ((accepts_skip 1).bind fun _ => accepts_oneIndex .methodHandle).congr fun bytes value => ?_
  constructor
  · rintro ⟨front, -, -, rfl, length, i, rfl, rfl⟩
    obtain ⟨kind, rfl⟩ := length_one_iff.mp length
    exact ⟨(kind, i), rfl, rfl⟩
  · rintro ⟨⟨kind, i⟩, rfl, rfl⟩
    exact ⟨[kind], _, (), rfl, rfl, i, rfl, rfl⟩

theorem accepts_text :
    Accepts
      (do return .utf8 (ModifiedUtf8.decode (← Reader.take (← Reader.number 2))) : Reader Constant)
      (fun bytes value => ∃ text : { text : List UInt8 // text.length < 0x10000 },
        bytes = toBigEndian 2 text.1.length ++ text.1 ∧
        value = .utf8 (ModifiedUtf8.decode text.1)) := by
  refine ((accepts_number 2).bind fun count => (accepts_take count).map _).congr
    fun bytes value => ?_
  constructor
  · rintro ⟨front, back, -, rfl, ⟨length, rfl⟩, text, ⟨count, rfl⟩, rfl⟩
    have fits : text.length < 0x10000 := count ▸ bigEndian_lt length
    refine ⟨⟨text, fits⟩, ?_, rfl⟩
    show front ++ text = toBigEndian 2 text.length ++ text
    rw [count, toBigEndian_bigEndian length]
  · rintro ⟨⟨text, fits⟩, rfl, rfl⟩
    refine ⟨_, _, _, rfl, ⟨length_toBigEndian 2 _, rfl⟩, text, ⟨?_, rfl⟩, rfl⟩
    exact (bigEndian_toBigEndian_of_lt fits).symm

theorem accepts_readPayload (index : Nat) (tag : UInt8) :
    Accepts (readPayload index tag) (payloadOf tag.toNat) := by
  unfold readPayload
  split
  · next known =>
    rw [known]
    exact accepts_payloadOf accepts_text (fun text => .utf8 text.1 text.2) (fun _ => id)
      fun _ => ⟨rfl, rfl, rfl⟩
  · next known =>
    rw [known]
    exact accepts_payloadOf (accepts_fourSkipped .integer) .integer (fun _ => id)
      fun _ => ⟨rfl, rfl, rfl⟩
  · next known =>
    rw [known]
    exact accepts_payloadOf (accepts_fourSkipped .float) .float (fun _ => id)
      fun _ => ⟨rfl, rfl, rfl⟩
  · next known =>
    rw [known]
    exact accepts_payloadOf (accepts_eightSkipped .long) .long (fun _ => id)
      fun _ => ⟨rfl, rfl, rfl⟩
  · next known =>
    rw [known]
    exact accepts_payloadOf (accepts_eightSkipped .double) .double (fun _ => id)
      fun _ => ⟨rfl, rfl, rfl⟩
  · next known =>
    rw [known]
    exact accepts_payloadOf (accepts_oneIndex .classRef) .classRef (fun _ => id)
      fun _ => ⟨rfl, rfl, rfl⟩
  · next known =>
    rw [known]
    exact accepts_payloadOf (accepts_oneIndex .string) .string (fun _ => id)
      fun _ => ⟨rfl, rfl, rfl⟩
  · next known =>
    rw [known]
    exact accepts_payloadOf (accepts_twoIndices .fieldRef) (fun pair => .fieldRef pair.1 pair.2)
      (fun _ => id) fun _ => ⟨rfl, rfl, rfl⟩
  · next known =>
    rw [known]
    exact accepts_payloadOf (accepts_twoIndices .methodRef) (fun pair => .methodRef pair.1 pair.2)
      (fun _ => id) fun _ => ⟨rfl, rfl, rfl⟩
  · next known =>
    rw [known]
    exact accepts_payloadOf (accepts_twoIndices .interfaceMethodRef)
      (fun pair => .interfaceMethodRef pair.1 pair.2)
      (fun _ => id) fun _ => ⟨rfl, rfl, rfl⟩
  · next known =>
    rw [known]
    exact accepts_payloadOf (accepts_twoIndices .nameAndType)
      (fun pair => .nameAndType pair.1 pair.2)
      (fun _ => id) fun _ => ⟨rfl, rfl, rfl⟩
  · next known =>
    rw [known]
    exact accepts_payloadOf accepts_handle (fun pair => .methodHandle pair.1 pair.2)
      (fun _ => id) fun _ => ⟨rfl, rfl, rfl⟩
  · next known =>
    rw [known]
    exact accepts_payloadOf (accepts_oneIndex .methodType) .methodType (fun _ => id)
      fun _ => ⟨rfl, rfl, rfl⟩
  · next known =>
    rw [known]
    exact accepts_payloadOf (accepts_twoIndices .dynamic) (fun pair => .dynamic pair.1 pair.2)
      (fun _ => id) fun _ => ⟨rfl, rfl, rfl⟩
  · next known =>
    rw [known]
    exact accepts_payloadOf (accepts_twoIndices .invokeDynamic)
      (fun pair => .invokeDynamic pair.1 pair.2)
      (fun _ => id) fun _ => ⟨rfl, rfl, rfl⟩
  · next known =>
    rw [known]
    exact accepts_payloadOf (accepts_oneIndex .module) .module (fun _ => id)
      fun _ => ⟨rfl, rfl, rfl⟩
  · next known =>
    rw [known]
    exact accepts_payloadOf (accepts_oneIndex .package) .package (fun _ => id)
      fun _ => ⟨rfl, rfl, rfl⟩
  · -- the tag is none of the 17, so no entry has it
    refine (Accepts.throw _).congr fun bytes value => ⟨False.elim, ?_⟩
    rintro ⟨entry, tags, -, -⟩
    cases entry <;> simp_all [WrittenConstant.constant, Constant.tag]

theorem accepts_readConstant (index : Nat) :
    Accepts (readConstant index)
      (image (fun _ => True) WrittenConstant.encode WrittenConstant.constant) := by
  refine (accepts_u1.bind fun tag => accepts_readPayload index tag).congr fun bytes value => ?_
  constructor
  · rintro ⟨-, -, tag, rfl, rfl, entry, tags, rfl, rfl⟩
    cases UInt8.toNat_inj.mp tags
    exact ⟨entry, trivial, rfl, rfl⟩
  · rintro ⟨entry, -, rfl, rfl⟩
    exact ⟨[_], _, _, rfl, rfl, entry, rfl, rfl, rfl⟩

/-! ### Slots -/

theorem slots_narrow {entry : WrittenConstant} (narrow : ¬ entry.constant.isWide = true) :
    entry.slots = [entry.constant] := if_neg narrow

theorem slots_wide {entry : WrittenConstant} (wide : entry.constant.isWide = true) :
    entry.slots = [entry.constant, .unused] := if_pos wide

theorem endsWide_cons_iff {entry : WrittenConstant} {rest : List WrittenConstant} :
    EndsWide (entry :: rest) ↔ (rest = [] ∧ entry.constant.isWide = true) ∨ EndsWide rest := by
  constructor
  · rintro ⟨front, last, whole, wide⟩
    cases front with
    | nil =>
      cases whole
      exact .inl ⟨rfl, wide⟩
    | cons head front =>
      cases whole
      exact .inr ⟨front, last, rfl, wide⟩
  · rintro (⟨rfl, wide⟩ | ⟨front, last, rfl, wide⟩)
    · exact ⟨[], entry, rfl, wide⟩
    · exact ⟨entry :: front, last, rfl, wide⟩

theorem EndsWide.length {entries : List WrittenConstant} (wide : EndsWide entries) :
    2 ≤ (entries.flatMap WrittenConstant.slots).length := by
  obtain ⟨front, last, rfl, wide⟩ := wide
  rw [List.flatMap_append, List.flatMap_singleton, slots_wide wide, List.length_append]
  exact Nat.le_add_left 2 _

theorem not_fillSlots_nil (left : Nat) : ¬ FillSlots (left + 1) [] := by
  rintro (noneTaken | ⟨noneTaken, -⟩)
  · cases noneTaken
  · cases noneTaken

theorem fillSlots_zero_iff {entries : List WrittenConstant} :
    FillSlots 0 entries ↔ entries = [] := by
  constructor
  · rintro (noneTaken | ⟨oneTaken, wide⟩)
    · cases entries with
      | nil => rfl
      | cons entry rest =>
        rw [List.flatMap_cons, List.length_append] at noneTaken
        unfold WrittenConstant.slots at noneTaken
        split at noneTaken <;> simp at noneTaken
    · -- an entry that ends wide takes two slots, one too many even so
      have two := wide.length
      omega
  · rintro rfl
    exact .inl rfl

theorem fillSlots_narrow_iff {left : Nat} {entry : WrittenConstant} {rest : List WrittenConstant}
    (narrow : ¬ entry.constant.isWide = true) :
    FillSlots (left + 1) (entry :: rest) ↔ FillSlots left rest := by
  unfold FillSlots
  rw [endsWide_cons_iff, List.flatMap_cons, slots_narrow narrow, List.length_append,
    List.length_singleton]
  constructor
  · rintro (filled | ⟨filled, ⟨-, wide⟩ | wide⟩)
    · exact .inl (by omega)
    · exact absurd wide narrow
    · exact .inr ⟨by omega, wide⟩
  · rintro (filled | ⟨filled, wide⟩)
    · exact .inl (by omega)
    · exact .inr ⟨by omega, .inr wide⟩

theorem fillSlots_wide_iff {left : Nat} {entry : WrittenConstant} {rest : List WrittenConstant}
    (wide : entry.constant.isWide = true) :
    FillSlots (left + 2) (entry :: rest) ↔ FillSlots left rest := by
  unfold FillSlots
  rw [endsWide_cons_iff, List.flatMap_cons, slots_wide wide, List.length_append]
  show 2 + _ = _ ∨ (2 + _ = _ ∧ _) ↔ _
  constructor
  · rintro (filled | ⟨filled, ⟨rfl, -⟩ | later⟩)
    · exact .inl (by omega)
    · rw [List.flatMap_nil, List.length_nil] at filled
      omega
    · exact .inr ⟨by omega, later⟩
  · rintro (filled | ⟨filled, later⟩)
    · exact .inl (by omega)
    · exact .inr ⟨by omega, .inr later⟩

/-- In the last slot only one more entry has room, and its second slot falls past the end. -/
theorem fillSlots_last_iff {entry : WrittenConstant} {rest : List WrittenConstant}
    (wide : entry.constant.isWide = true) : FillSlots 1 (entry :: rest) ↔ rest = [] := by
  rw [← fillSlots_zero_iff]
  unfold FillSlots
  rw [endsWide_cons_iff, List.flatMap_cons, slots_wide wide, List.length_append]
  show 2 + _ = _ ∨ (2 + _ = _ ∧ _) ↔ _
  constructor
  · rintro (filled | ⟨filled, -⟩)
    · omega
    · exact .inl (by omega)
  · rintro (filled | ⟨filled, later⟩)
    · refine .inr ⟨by omega, .inl ⟨?_, wide⟩⟩
      exact fillSlots_zero_iff.mp (.inl filled)
    · have two := later.length
      omega

/-- The slots that a pool has once `left` more are filled from the entries. -/
def filled (slots : Array Constant) (left : Nat) (entries : List WrittenConstant) :
    Array Constant :=
  slots ++ ((entries.flatMap WrittenConstant.slots).take left).toArray

theorem filled_zero (slots : Array Constant) (entries : List WrittenConstant) :
    filled slots 0 entries = slots := by
  simp [filled]

theorem filled_narrow (slots : Array Constant) (left : Nat) {entry : WrittenConstant}
    (rest : List WrittenConstant) (narrow : ¬ entry.constant.isWide = true) :
    filled slots (left + 1) (entry :: rest) = filled (slots.push entry.constant) left rest := by
  unfold filled
  rw [List.flatMap_cons, slots_narrow narrow]
  simp

theorem filled_wide (slots : Array Constant) (left : Nat) {entry : WrittenConstant}
    (rest : List WrittenConstant) (wide : entry.constant.isWide = true) :
    filled slots (left + 2) (entry :: rest) =
      filled ((slots.push entry.constant).push .unused) left rest := by
  unfold filled
  rw [List.flatMap_cons, slots_wide wide]
  simp

theorem filled_last (slots : Array Constant) {entry : WrittenConstant}
    (wide : entry.constant.isWide = true) : filled slots 1 [entry] = slots.push entry.constant := by
  unfold filled
  rw [List.flatMap_singleton, slots_wide wide]
  simp

/-- One entry and the slots behind it. What follows a narrow entry is read the same way everywhere,
but what follows a wide one depends on whether there is room for its second slot. -/
theorem accepts_slot {left : Nat} {slots : Array Constant}
    {afterWide : Constant → Reader (Array Constant)} {grammar : Constant → Grammar (Array Constant)}
    (accepts : ∀ constant, Accepts (afterWide constant) (grammar constant))
    (described : ∀ entry : WrittenConstant, entry.constant.isWide = true → ∀ bytes found,
      grammar entry.constant bytes found ↔ ∃ rest, FillSlots (left + 1) (entry :: rest) ∧
      bytes = rest.flatMap WrittenConstant.encode ∧ found = filled slots (left + 1) (entry :: rest))
    (afterNarrow : ∀ constant,
      Accepts (readSlots left (slots.push constant))
        (image (FillSlots left) (List.flatMap WrittenConstant.encode)
          (filled (slots.push constant) left))) :
    Accepts (readConstant slots.size >>= fun constant =>
        if constant.isWide = true then afterWide constant else readSlots left (slots.push constant))
      (image (FillSlots (left + 1)) (List.flatMap WrittenConstant.encode)
        (filled slots (left + 1))) := by
  refine ((accepts_readConstant _).bind fun constant =>
    Accepts.ite (accepts constant) (afterNarrow constant)).congr fun bytes found => ?_
  constructor
  · rintro ⟨-, back, -, rfl, ⟨entry, -, rfl, rfl⟩, ⟨wide, behind⟩ | ⟨narrow, rest, fills, rfl, rfl⟩⟩
    · obtain ⟨rest, fills, rfl, rfl⟩ := (described entry wide _ _).mp behind
      exact ⟨entry :: rest, fills, rfl, rfl⟩
    · exact ⟨entry :: rest, (fillSlots_narrow_iff narrow).mpr fills, rfl,
        (filled_narrow slots left rest narrow).symm⟩
  · rintro ⟨entries, fills, rfl, rfl⟩
    cases entries with
    | nil => exact absurd fills (not_fillSlots_nil left)
    | cons entry rest =>
      refine ⟨_, _, _, rfl, ⟨entry, trivial, rfl, rfl⟩, ?_⟩
      by_cases wide : entry.constant.isWide = true
      · exact .inl ⟨wide, (described entry wide _ _).mpr ⟨rest, fills, rfl, rfl⟩⟩
      · exact .inr ⟨wide, rest, (fillSlots_narrow_iff wide).mp fills, rfl,
          filled_narrow slots left rest wide⟩

theorem accepts_readSlots (left : Nat) (slots : Array Constant) :
    Accepts (readSlots left slots)
      (image (FillSlots left) (List.flatMap WrittenConstant.encode) (filled slots left)) := by
  -- strong induction, since a wide entry takes two slots at once
  induction left using Nat.strongRecOn generalizing slots with
  | _ left ih =>
    cases left with
    | zero =>
      refine (Accepts.pure slots).congr fun bytes found => ?_
      constructor
      · rintro ⟨rfl, rfl⟩
        exact ⟨[], fillSlots_zero_iff.mpr rfl, rfl, (filled_zero found []).symm⟩
      · rintro ⟨entries, fills, rfl, rfl⟩
        cases fillSlots_zero_iff.mp fills
        exact ⟨rfl, filled_zero _ []⟩
    | succ left =>
      have afterNarrow := fun constant => ih left (Nat.lt_succ_self left) (slots.push constant)
      cases left with
      | zero =>
        refine accepts_slot (fun constant => Accepts.pure (slots.push constant)) ?_ afterNarrow
        intro entry wide bytes found
        constructor
        · rintro ⟨rfl, rfl⟩
          exact ⟨[], (fillSlots_last_iff wide).mpr rfl, rfl, (filled_last slots wide).symm⟩
        · rintro ⟨rest, fills, rfl, rfl⟩
          cases (fillSlots_last_iff wide).mp fills
          exact ⟨rfl, filled_last slots wide⟩
      | succ left =>
        have afterWide :=
          fun constant : Constant => ih left (by omega) ((slots.push constant).push .unused)
        refine accepts_slot afterWide ?_ afterNarrow
        intro entry wide bytes found
        refine exists_congr fun rest => ?_
        rw [fillSlots_wide_iff wide, filled_wide slots left rest wide]

/-- What follows a slot count, which must not be zero. -/
theorem accepts_readTable (count : Nat) :
    Accepts (readTable count) (fun bytes found => ∃ left entries, count = left + 1 ∧
      FillSlots left entries ∧
      bytes = entries.flatMap WrittenConstant.encode ∧
      found = ⟨filled #[.unused] left entries⟩) := by
  cases count with
  | zero =>
    refine (Accepts.throw _).congr fun bytes found => ⟨False.elim, ?_⟩
    rintro ⟨left, entries, ⟨⟩, -⟩
  | succ left =>
    refine ((accepts_readSlots left #[.unused]).map ConstantPool.mk).congr fun bytes found => ?_
    constructor
    · rintro ⟨-, ⟨entries, fills, rfl, rfl⟩, rfl⟩
      exact ⟨left, entries, rfl, fills, rfl, rfl⟩
    · rintro ⟨slots, entries, count, fills, rfl, rfl⟩
      cases count
      exact ⟨_, ⟨entries, fills, rfl, rfl⟩, rfl⟩

theorem table_eq_filled {p : WrittenPool} {left : Nat} (count : p.count.toNat = left + 1) :
    p.table = ⟨filled #[.unused] left p.entries⟩ := by
  unfold WrittenPool.table filled
  rw [count, List.take_succ_cons]
  simp

theorem accepts_readPool :
    Accepts readPool (image WrittenPool.Filled WrittenPool.encode WrittenPool.table) := by
  refine ((accepts_number 2).bind accepts_readTable).congr fun bytes found => ?_
  constructor
  · rintro ⟨front, -, -, rfl, ⟨length, rfl⟩, left, entries, count, fills, rfl, rfl⟩
    obtain ⟨announced, rfl⟩ := length_two_iff.mp length
    rw [bigEndian_twoBytes] at count
    have table : WrittenPool.table ⟨announced, entries⟩ = ⟨filled #[.unused] left entries⟩ :=
      table_eq_filled count
    exact ⟨⟨announced, entries⟩, ⟨left, count, fills⟩, rfl, table.symm⟩
  · rintro ⟨p, ⟨left, count, fills⟩, rfl, rfl⟩
    refine ⟨_, _, _, rfl, ⟨length_twoBytes p.count, rfl⟩, left, p.entries, ?_, fills, rfl,
      table_eq_filled count⟩
    rw [bigEndian_twoBytes, count]

end JarMetrics.ClassFile
