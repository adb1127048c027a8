import JarMetrics.Bytes.Cursor

/-!
# Readers and the grammars they accept

A grammar relates byte strings to what they stand for. `Accepts read grammar` says in one
equivalence that a reader invents nothing and misses nothing: it succeeds exactly when the bytes in
front of it start with a string of the grammar, it returns what that string stands for, and it stops
right behind it.

The lemmas follow the way readers are put together: `Accepts.pure`, `Accepts.bind`, `Accepts.map`,
`Accepts.ite`, `Accepts.throw` and `Accepts.lift`; the readers at the bottom all come from
`Accepts.of_take`.
-/

namespace JarMetrics

/-- A relation between byte strings and what they stand for. -/
abbrev Grammar (α : Type) := List UInt8 → α → Prop

namespace Grammar

/-- The empty string, standing for `value`. -/
def empty {α : Type} (value : α) : Grammar α := fun bytes found => bytes = [] ∧ found = value

/-- A string of `first`, then one of the grammar that its meaning selects. -/
def andThen {α β : Type} (first : Grammar α) (next : α → Grammar β) : Grammar β :=
  fun bytes found =>
    ∃ front back middle, bytes = front ++ back ∧ first front middle ∧ next middle back found

/-- Strings of `item` one behind the other. -/
inductive Many {α : Type} (item : Grammar α) : Grammar (List α)
  | nil : Many item [] []
  | cons {front back : List UInt8} {value : α} {values : List α} :
      item front value → Many item back values → Many item (front ++ back) (value :: values)

theorem many_nil_iff {α : Type} {item : Grammar α} {bytes : List UInt8} :
    Many item bytes [] ↔ bytes = [] := by
  constructor
  · intro derived
    cases derived
    rfl
  · rintro rfl
    exact .nil

/-- The encodings of valid values, each standing for the value's meaning. -/
def image {α β : Type} (valid : β → Prop) (encode : β → List UInt8) (meaning : β → α) : Grammar α :=
  fun bytes value => ∃ x, valid x ∧ bytes = encode x ∧ value = meaning x

/-- Many encodings one behind the other are the encodings of many values. -/
theorem many_image_iff {α β : Type} {valid : β → Prop} {encode : β → List UInt8} {meaning : β → α}
    {bytes : List UInt8} {values : List α} :
    Many (image valid encode meaning) bytes values ↔
      ∃ xs : List β, (∀ x ∈ xs, valid x) ∧ bytes = xs.flatMap encode ∧ values = xs.map meaning := by
  constructor
  · intro derived
    induction derived with
    | nil => exact ⟨[], (fun _ member => nomatch member), rfl, rfl⟩
    | cons here _ ih =>
      obtain ⟨x, good, rfl, rfl⟩ := here
      obtain ⟨xs, allGood, rfl, rfl⟩ := ih
      exact ⟨x :: xs, List.forall_mem_cons.mpr ⟨good, allGood⟩, rfl, rfl⟩
  · rintro ⟨xs, allGood, rfl, rfl⟩
    induction xs with
    | nil => exact .nil
    | cons x xs ih =>
      obtain ⟨good, restGood⟩ := List.forall_mem_cons.mp allGood
      exact .cons ⟨x, good, rfl, rfl⟩ (ih restGood)

/-- `count` strings of `item`, whose meanings are put behind those in `done`, latest first. This is
how the counted loops of the readers go. -/
def loop {α : Type} (item : Grammar α) (count : Nat) (done : List α) : Grammar (List α) :=
  fun bytes values => ∃ items, Many item bytes items ∧ items.length = count ∧
    values = done.reverse ++ items

theorem loop_zero_iff {α : Type} {item : Grammar α} {done values : List α} {bytes : List UInt8} :
    loop item 0 done bytes values ↔ empty done.reverse bytes values := by
  constructor
  · rintro ⟨items, many, noneLeft, rfl⟩
    cases List.eq_nil_of_length_eq_zero noneLeft
    exact ⟨many_nil_iff.mp many, List.append_nil _⟩
  · rintro ⟨rfl, rfl⟩
    exact ⟨[], .nil, rfl, (List.append_nil _).symm⟩

theorem loop_succ_iff {α : Type} {item : Grammar α} {count : Nat} {done values : List α}
    {bytes : List UInt8} :
    loop item (count + 1) done bytes values ↔
      item.andThen (fun value => loop item count (value :: done)) bytes values := by
  constructor
  · rintro ⟨items, many, length, rfl⟩
    cases many with
    | nil => cases length
    | cons here later =>
      refine ⟨_, _, _, rfl, here, _, later, Nat.succ.inj length, ?_⟩
      rw [List.reverse_cons, List.append_assoc, List.singleton_append]
  · rintro ⟨front, back, value, rfl, here, items, later, rfl, rfl⟩
    refine ⟨value :: items, .cons here later, rfl, ?_⟩
    rw [List.reverse_cons, List.append_assoc, List.singleton_append]

/-- A loop that starts with nothing done. -/
theorem loop_nil_iff {α : Type} {item : Grammar α} {count : Nat} {values : List α}
    {bytes : List UInt8} :
    loop item count [] bytes values ↔ Many item bytes values ∧ values.length = count := by
  constructor
  · rintro ⟨items, many, length, rfl⟩
    exact ⟨many, length⟩
  · rintro ⟨many, length⟩
    exact ⟨values, many, length, rfl⟩

/-- The length of concatenated encodings that all have the same length. -/
theorem length_flatMap_of_length {β : Type} {encode : β → List UInt8} {width : Nat}
    (same : ∀ x, (encode x).length = width) (xs : List β) :
    (xs.flatMap encode).length = xs.length * width := by
  induction xs with
  | nil => rw [List.flatMap_nil, List.length_nil, List.length_nil, Nat.zero_mul]
  | cons x xs ih =>
    rw [List.flatMap_cons, List.length_append, same, ih, List.length_cons,
      Nat.succ_mul, Nat.add_comm]

end Grammar

open Grammar

/-- The reader succeeds exactly on the strings of the grammar, whatever follows them. -/
def Accepts {ε α : Type} (read : StateT Cursor (Except ε) α) (grammar : Grammar α) : Prop :=
  ∀ c value d, read c = .ok (value, d) ↔
    ∃ bytes, grammar bytes value ∧ c.rest = bytes ++ d.rest ∧ d.offset = c.offset + bytes.length

/-- Peel the first reader off a computation. -/
theorem bind_eq_ok_iff {ε α β : Type} {first : StateT Cursor (Except ε) α}
    {next : α → StateT Cursor (Except ε) β} {c d : Cursor} {value : β} :
    (first >>= next) c = .ok (value, d) ↔
      ∃ middle m, first c = .ok (middle, m) ∧ next middle m = .ok (value, d) := by
  show (first c >>= fun p => next p.1 p.2) = _ ↔ _
  cases first c with
  | error fault => simp [bind, Except.bind]
  | ok p =>
    constructor
    · intro run
      exact ⟨p.1, p.2, rfl, run⟩
    · rintro ⟨middle, m, ⟨⟩, run⟩
      exact run

namespace Accepts

variable {ε α β : Type}

/-- Only the meaning of a grammar counts. -/
theorem congr {read : StateT Cursor (Except ε) α} {grammar other : Grammar α}
    (accepts : Accepts read grammar)
    (same : ∀ bytes value, grammar bytes value ↔ other bytes value) :
    Accepts read other := by
  intro c value d
  rw [accepts c value d]
  simp only [same]

/-- What a reader makes of a list of bytes is what some front of the list stands for. -/
theorem ofList_eq_ok_iff {read : StateT Cursor (Except ε) α} {grammar : Grammar α}
    (accepts : Accepts read grammar) {bytes : List UInt8} {value : α} :
    (do return (← read.run (.ofList bytes)).1 : Except ε α) = .ok value ↔
      ∃ front tail, grammar front value ∧ bytes = front ++ tail := by
  have outcome : (do return (← read.run (.ofList bytes)).1 : Except ε α) = .ok value ↔
      ∃ d, read (.ofList bytes) = .ok (value, d) := by
    show (read (.ofList bytes) >>= fun p => Pure.pure p.1) = _ ↔ _
    cases read (.ofList bytes) with
    | error fault => simp [Bind.bind, Except.bind]
    | ok pair =>
      cases pair
      simp [Bind.bind, Except.bind, Pure.pure, Except.pure]
  rw [outcome]
  constructor
  · rintro ⟨d, run⟩
    obtain ⟨front, derived, rest, -⟩ := (accepts _ _ _).mp run
    exact ⟨front, d.rest, derived, rest⟩
  · rintro ⟨front, tail, derived, rfl⟩
    exact ⟨⟨front.length, tail⟩, (accepts _ _ _).mpr ⟨front, derived, rfl, (Nat.zero_add _).symm⟩⟩

/-- A reader that takes `width` bytes, makes something of them and fails without them. -/
theorem of_take {read : StateT Cursor (Except ε) α} {width : Nat} {build : List UInt8 → α}
    (succeeds : ∀ c bytes d, c.take width = .ok (bytes, d) → read c = .ok (build bytes, d))
    (fails : ∀ c cut, c.take width = .error cut → ∃ error, read c = .error error) :
    Accepts read (fun bytes value => bytes.length = width ∧ value = build bytes) := by
  intro c value d
  constructor
  · intro run
    cases taken : c.take width with
    | error cut =>
      obtain ⟨error, failed⟩ := fails c cut taken
      rw [failed] at run
      cases run
    | ok pair =>
      rw [succeeds c pair.1 pair.2 taken] at run
      cases run
      obtain ⟨rest, length, offset⟩ := Cursor.take_eq_ok_iff.mp taken
      exact ⟨pair.1, ⟨length, rfl⟩, rest, length ▸ offset⟩
  · rintro ⟨bytes, ⟨rfl, rfl⟩, rest, offset⟩
    exact succeeds c bytes d (Cursor.take_eq_ok_iff.mpr ⟨rest, rfl, offset⟩)

theorem pure (value : α) : Accepts (pure value : StateT Cursor (Except ε) α) (empty value) := by
  intro c found d
  constructor
  · intro run
    cases run
    exact ⟨[], ⟨rfl, rfl⟩, rfl, rfl⟩
  · -- a cursor is its offset and what is left, and neither has changed
    rintro ⟨bytes, ⟨rfl, rfl⟩, rest, offset⟩
    cases c
    cases d
    cases rest
    cases offset
    rfl

theorem bind {first : StateT Cursor (Except ε) α} {next : α → StateT Cursor (Except ε) β}
    {head : Grammar α} {tail : α → Grammar β} (hfirst : Accepts first head)
    (hnext : ∀ value, Accepts (next value) (tail value)) :
    Accepts (first >>= next) (head.andThen tail) := by
  intro c value d
  rw [bind_eq_ok_iff]
  constructor
  · rintro ⟨middle, m, run, after⟩
    obtain ⟨front, hhead, rest, offset⟩ := (hfirst _ _ _).mp run
    obtain ⟨back, htail, rest', offset'⟩ := (hnext _ _ _ _).mp after
    refine ⟨front ++ back, ⟨front, back, middle, rfl, hhead, htail⟩, ?_, ?_⟩
    · rw [rest, rest', List.append_assoc]
    · rw [offset', offset, List.length_append, Nat.add_assoc]
  · rintro ⟨-, ⟨front, back, middle, rfl, hhead, htail⟩, rest, offset⟩
    -- between the two readers the cursor stands right behind `front`
    refine ⟨middle, ⟨c.offset + front.length, back ++ d.rest⟩, ?_, ?_⟩
    · exact (hfirst _ _ _).mpr ⟨front, hhead, by rw [rest, List.append_assoc], rfl⟩
    · refine (hnext _ _ _ _).mpr ⟨back, htail, rfl, ?_⟩
      rw [offset, List.length_append, Nat.add_assoc]

/-- Use what was read without reading more. -/
theorem map {first : StateT Cursor (Except ε) α} {head : Grammar α} (hfirst : Accepts first head)
    (build : α → β) :
    Accepts (first >>= fun value => Pure.pure (build value))
      (fun bytes found => ∃ value, head bytes value ∧ found = build value) := by
  refine (bind hfirst fun value => pure (build value)).congr fun bytes found => ?_
  constructor
  · rintro ⟨front, back, value, rfl, hhead, rfl, rfl⟩
    exact ⟨value, by rwa [List.append_nil], rfl⟩
  · rintro ⟨value, hhead, rfl⟩
    exact ⟨bytes, [], value, (List.append_nil bytes).symm, hhead, rfl, rfl⟩

theorem throw (error : ε) :
    Accepts (throw error : StateT Cursor (Except ε) α) (fun _ _ => False) := by
  intro c value d
  constructor
  · intro run
    cases run
  · rintro ⟨bytes, ⟨⟩, -⟩

theorem ite {p : Prop} [Decidable p] {yes no : StateT Cursor (Except ε) α} {left right : Grammar α}
    (hyes : Accepts yes left) (hno : Accepts no right) :
    Accepts (if p then yes else no)
      (fun bytes value => (p ∧ left bytes value) ∨ (¬ p ∧ right bytes value)) := by
  by_cases h : p
  · rw [if_pos h]
    exact hyes.congr fun bytes value => by simp [h]
  · rw [if_neg h]
    exact hno.congr fun bytes value => by simp [h]

/-- An outcome that was decided elsewhere takes no bytes. -/
theorem lift (found : Except ε α) :
    Accepts (liftM found : StateT Cursor (Except ε) α)
      (fun bytes value => bytes = [] ∧ found = .ok value) := by
  cases found with
  | error fault =>
    intro c value d
    constructor
    · intro run
      cases run
    · rintro ⟨bytes, ⟨-, ⟨⟩⟩, -⟩
  | ok outcome =>
    refine (pure outcome).congr fun bytes value => ?_
    constructor
    · rintro ⟨rfl, rfl⟩
      exact ⟨rfl, rfl⟩
    · rintro ⟨rfl, ⟨⟩⟩
      exact ⟨rfl, rfl⟩

/-- Rewording errors does not touch what is accepted. -/
theorem mapError {δ : Type} {read : StateT Cursor (Except ε) α} {grammar : Grammar α}
    (accepts : Accepts read grammar) (reword : ε → δ) :
    Accepts (fun c => (read c).mapError reword : StateT Cursor (Except δ) α) grammar := by
  intro c value d
  rw [← accepts c value d]
  show (read c).mapError reword = _ ↔ _
  cases read c with
  | error error =>
    constructor
    · intro run
      cases run
    · intro run
      cases run
  | ok pair =>
    constructor
    · intro run
      cases run
      rfl
    · intro run
      cases run
      rfl

end Accepts

end JarMetrics
