import JarMetrics.Proofs.Documents
import JarMetrics.Settings.Strict

/-!
# Plain tables of settings

The tables of a settings file are *plain* if every known key holds a value of the type that the
settings declare for it, and nothing else can be taken for it: no two keys differ in case only, and
no key has a dot behind a known name. Of other keys nothing is asked.

`effect_of_grows`: a part of a document that leaves its tables plain finds them plain, and it does
one of three things to the known keys. It leaves all of them as they are, or it gives a table of
settings its members, or it gives a known key its first value.
-/

namespace JarMetrics

/-! ## Names -/

namespace Value

/-- What a name holds in any case; of several keys the first counts. -/
def named (name : String) (members : Entries Value) : Option Value :=
  (List.find? (fun m => Text.lower m.1 == name) members).map Prod.snd

/-- Whether no two keys go by the name. -/
def once (name : String) (members : Entries Value) : Bool :=
  members.countP (fun m => Text.lower m.1 == name) ≤ 1

/-- Whether no key has the name and a dot in front. -/
def undotted (name : String) (members : Entries Value) : Bool :=
  members.all fun m => !(name ++ ".").toList.isPrefixOf (Text.lower m.1).toList

variable {name key k : String} {value held : Value} {members rest : Entries Value}

theorem named_cons :
    named name ((k, held) :: rest) =
      if Text.lower k = name then some held else named name rest := by
  by_cases same : Text.lower k = name <;> simp [named, same]

theorem once_cons : once name ((k, held) :: rest) =
    if Text.lower k = name then (named name rest).isNone else once name rest := by
  by_cases same : Text.lower k = name
  · have alone : List.countP (fun m => Text.lower m.1 == name) rest = 0 ↔
        (named name rest).isNone := by
      simp [named, List.countP_eq_zero]
    rw [if_pos same, Bool.eq_iff_iff, ← alone]
    simp [once, same]
  · simp [once, same]

/-- A name that only one key goes by means that key. -/
theorem named_of_mem (single : once name members = true) {m : String × Value} (member : m ∈ members)
    (called : Text.lower m.1 = name) : named name members = some m.2 := by
  induction members with
  | nil => cases member
  | cons entry rest ih =>
    obtain ⟨k, held⟩ := entry
    rw [once_cons] at single
    rw [named_cons]
    rcases List.mem_cons.mp member with rfl | later
    · rw [if_pos called]
    · by_cases same : Text.lower k = name
      · -- then two keys would go by the name
        rw [if_pos same, Option.isNone_iff_eq_none, named, Option.map_eq_none_iff,
          List.find?_eq_none] at single
        exact absurd (beq_iff_eq.mpr called) (single m later)
      · rw [if_neg same] at single ⊢
        exact ih single later

theorem undotted_cons : undotted name ((k, held) :: rest) =
    (!(name ++ ".").toList.isPrefixOf (Text.lower k).toList && undotted name rest) := rfl

theorem named_put_self_ne_none : named (Text.lower key) (members.put key value) ≠ none := by
  induction members with
  | nil => simp [Entries.put, named_cons]
  | cons entry rest ih =>
    obtain ⟨k, held⟩ := entry
    by_cases same : k = key
    · simp [Entries.put, same, named_cons]
    · by_cases called : Text.lower k = Text.lower key <;>
        simp [Entries.put, same, named_cons, called, ih]

/-- A key that is put is the one that its name means, if no other goes by that name. -/
theorem named_put (single : once name (members.put key value) = true) :
    named name (members.put key value) =
      if Text.lower key = name then some value else named name members := by
  induction members with
  | nil => simp [Entries.put, named_cons]
  | cons entry rest ih =>
    obtain ⟨k, held⟩ := entry
    by_cases same : k = key
    · subst same
      by_cases called : Text.lower k = name <;> simp [Entries.put, named_cons, called]
    · simp only [Entries.put, beq_iff_eq, same, if_false] at single ⊢
      rw [once_cons] at single
      by_cases called : Text.lower k = name
      · -- two keys would go by the name if this were the name of the key that is put
        rw [if_pos called, Option.isNone_iff_eq_none] at single
        have other : Text.lower key ≠ name := by
          rintro rfl
          exact named_put_self_ne_none single
        simp [named_cons, called, other]
      · rw [if_neg called] at single
        simp [named_cons, called, ih single]

/-- Before a key is put, its name means the key itself. -/
theorem named_of_put (single : once (Text.lower key) (members.put key value) = true) :
    named (Text.lower key) members = members.at? key := by
  induction members with
  | nil => rfl
  | cons entry rest ih =>
    obtain ⟨k, held⟩ := entry
    rw [named_cons, Entries.at?_cons]
    by_cases same : k = key
    · simp [same]
    · simp only [Entries.put, beq_iff_eq, same, if_false, once_cons] at single ⊢
      by_cases called : Text.lower k = Text.lower key
      · rw [if_pos called, Option.isNone_iff_eq_none] at single
        exact absurd single named_put_self_ne_none
      · rw [if_neg called] at single
        simp [called, ih single]

/-- Putting a key leaves all keys where they are. -/
theorem keys_sublist_put (key : String) (value : Value) (members : Entries Value) :
    (members.map Prod.fst).Sublist ((members.put key value).map Prod.fst) := by
  induction members with
  | nil => exact List.nil_sublist _
  | cons entry rest ih =>
    obtain ⟨k, held⟩ := entry
    by_cases same : k = key
    · simp [Entries.put, same]
    · simpa [Entries.put, same] using ih

theorem once_of_put (single : once name (members.put key value) = true) :
    once name members = true := by
  have fewer := (keys_sublist_put key value members).countP_le (p := (Text.lower · == name))
  simp only [List.countP_map, Function.comp_def] at fewer
  simp only [once, decide_eq_true_eq] at single ⊢
  exact Nat.le_trans fewer single

theorem undotted_of_put (clean : undotted name (members.put key value) = true) :
    undotted name members = true := by
  simp only [undotted, List.all_eq_true] at clean ⊢
  intro entry member
  obtain ⟨other, member', same⟩ :=
    List.mem_map.mp ((keys_sublist_put key value members).subset (List.mem_map_of_mem member))
  rw [← same]
  exact clean other member'

/-- Whether each of the known names is unmistakable and holds something that fits. -/
def orderly {α : Type} (known : Entries α) (fits : α → Value → Bool) (members : Entries Value) :
    Bool :=
  known.all fun k => once k.1 members && undotted k.1 members && (named k.1 members).all (fits k.2)

section

variable {α : Type} {known : Entries α} {fits : α → Value → Bool}

theorem orderly_iff : orderly known fits members = true ↔
    ∀ k ∈ known, once k.1 members = true ∧ undotted k.1 members = true ∧
      ∀ v, named k.1 members = some v → fits k.2 v = true := by
  simp [orderly, Option.all_eq_true, and_assoc]

theorem orderly_cons (sound : orderly known fits ((key, value) :: rest) = true) :
    orderly known fits rest = true ∧
      ∀ k ∈ known, Text.lower key = k.1 → fits k.2 value = true ∧ named k.1 rest = none := by
  constructor
  · refine orderly_iff.mpr fun k member => ?_
    obtain ⟨single, clean, held⟩ := orderly_iff.mp sound k member
    rw [undotted_cons, Bool.and_eq_true] at clean
    refine ⟨?_, clean.2, fun v found => held v ?_⟩
    · simp only [once, List.countP_cons, decide_eq_true_eq] at single ⊢
      omega
    · rw [once_cons] at single
      rw [named_cons]
      split at single
      · rw [found] at single
        cases single
      · rw [if_neg ‹_›, found]
  · intro k member same
    obtain ⟨single, -, held⟩ := orderly_iff.mp sound k member
    rw [once_cons, if_pos same, Option.isNone_iff_eq_none] at single
    exact ⟨held value (by rw [named_cons, if_pos same]), single⟩

/-- What is put at a key is what the known names find. -/
theorem named_of_orderly (sound : orderly known fits (members.put key value) = true)
    {k : String × α} (member : k ∈ known) :
    (Text.lower key ≠ k.1 → named k.1 (members.put key value) = named k.1 members) ∧
      (Text.lower key = k.1 → named k.1 (members.put key value) = some value ∧
        fits k.2 value = true ∧
        named k.1 members = members.at? key) := by
  obtain ⟨single, -, held⟩ := orderly_iff.mp sound k member
  refine ⟨fun other => by rw [named_put single, if_neg other], fun same => ?_⟩
  have found : named k.1 (members.put key value) = some value := by
    rw [named_put single, if_pos same]
  refine ⟨found, held value found, ?_⟩
  rw [← same] at single ⊢
  exact named_of_put single

/-- Members were in order before a key was put, if what the key held before fits where its new value
does. -/
theorem orderly_of_put (sound : orderly known fits (members.put key value) = true)
    (before : ∀ k ∈ known, Text.lower key = k.1 → ∀ v, members.at? key = some v →
      fits k.2 value = true → fits k.2 v = true) :
    orderly known fits members = true := by
  refine orderly_iff.mpr fun k member => ?_
  obtain ⟨single, clean, held⟩ := orderly_iff.mp sound k member
  obtain ⟨others, own⟩ := named_of_orderly sound member
  refine ⟨once_of_put single, undotted_of_put clean, fun v found => ?_⟩
  by_cases same : Text.lower key = k.1
  · obtain ⟨-, fitting, was⟩ := own same
    exact before k member same v (was ▸ found) fitting
  · exact held v (others same ▸ found)

end

end Value

/-! ## Known keys -/

/-- The types that settings can have. -/
inductive Kind
  | text
  | int
  | bool
  | texts
  deriving Repr, DecidableEq

/-- Whether a value is of a type. Integers have 64 bits. -/
def Kind.fits : Kind → Value → Bool
  | .text, .text _ => true
  | .int, .int n => -0x8000000000000000 ≤ n && n < 0x8000000000000000
  | .bool, .bool _ => true
  | .texts, .list items => items.all fun item => item.text?.isSome
  | _, _ => false

@[simp] theorem Value.texts?_map (texts : List String) :
    texts? (.list (texts.map .text)) = some texts := by
  induction texts with
  | nil => rfl
  | cons t rest ih =>
    simp only [texts?] at ih
    simp [texts?, List.mapM_cons, Value.text?, ih]

theorem Kind.fits_text {value : Value} : Kind.text.fits value = true ↔ ∃ t, value = .text t := by
  cases value <;> simp [fits]

theorem Kind.fits_int {value : Value} : Kind.int.fits value = true ↔
    ∃ n, value = .int n ∧ -0x8000000000000000 ≤ n ∧ n < 0x8000000000000000 := by
  cases value <;> simp [fits]

theorem Kind.fits_bool {value : Value} : Kind.bool.fits value = true ↔ ∃ b, value = .bool b := by
  cases value <;> simp [fits]

theorem Kind.fits_texts {value : Value} :
    Kind.texts.fits value = true ↔ ∃ texts : List String, value = .list (texts.map .text) := by
  cases value with
  | list items =>
    simp only [fits, Value.list.injEq]
    induction items with
    | nil => simp
    | cons item rest ih =>
      rw [List.all_cons, Bool.and_eq_true, ih]
      constructor
      · rintro ⟨first, texts, rfl⟩
        cases item <;> simp [Value.text?] at first
        rename_i t
        exact ⟨t :: texts, rfl⟩
      · rintro ⟨texts, cut⟩
        cases texts with
        | nil => cases cut
        | cons t texts =>
          obtain ⟨rfl, rfl⟩ := List.cons.inj cut
          exact ⟨rfl, texts, rfl⟩
  | _ => simp [fits]

/-- The tables of settings, and the type of each key in them. -/
def kinds : Entries (Entries Kind) :=
  [("analysis", [("include_patterns", .texts), ("exclude_patterns", .texts), ("workers", .int),
    ("recursive", .bool)]), ("output", [("format", .text), ("show_details", .bool),
    ("sort_by", .text), ("top", .int), ("directory", .text)]), ("graph", [("uri", .text),
    ("username", .text), ("password", .text), ("database", .text), ("batch_size", .int)])]

/-- The type of a key in a table of settings. -/
def kindOf (table key : String) : Option Kind := (kinds.at? table).bind (Entries.at? key)

/-- Whether a value is a table whose known keys are in order. -/
def plainTable (keys : Entries Kind) : Value → Bool
  | .table members => Value.orderly keys Kind.fits members
  | _ => false

/-- Whether the tables of settings are plain. -/
def plain (tables : Entries Value) : Bool := Value.orderly kinds plainTable tables

namespace Value

/-- What a name holds in a value that is a table. -/
def member? (key : String) : Value → Option Value
  | .table members => named key members
  | _ => none

/-- What a key holds in a table of settings. -/
def seek (tables : Entries Value) (table key : String) : Option Value :=
  (named table tables).bind (member? key)

theorem seek_of_getD {tables members : Entries Value} {table : String}
    (held : (named table tables).getD (.table []) = .table members) (key : String) :
    seek tables table key = named key members := by
  unfold seek
  cases found : named table tables with
  | none =>
    rw [found] at held
    cases held
    rfl
  | some value =>
    rw [found] at held
    cases held
    rfl

end Value

theorem Entries.mem_of_at? {α : Type} {key : String} {held : α} {entries : Entries α}
    (found : entries.at? key = some held) : (key, held) ∈ entries := by
  obtain ⟨entry, first, rfl⟩ := Option.map_eq_some_iff.mp found
  have same : entry.1 = key := by simpa using List.find?_some first
  rw [← same]
  exact List.mem_of_find?_eq_some first

theorem Entries.at?_eq_none_iff {α : Type} {key : String} {entries : Entries α} :
    entries.at? key = none ↔ key ∉ entries.map Prod.fst := by
  induction entries with
  | nil => simp
  | cons entry rest ih =>
    obtain ⟨k, held⟩ := entry
    by_cases same : k = key
    · simp [at?_cons, same]
    · rw [at?_cons, if_neg same, ih]
      simp [Ne.symm same]

theorem FileSettings.keysOf?_eq (table : String) :
    FileSettings.keysOf? table = (kinds.at? table).map (List.map Prod.fst) := by
  have same : FileSettings.known = kinds.map fun t => (t.1, t.2.map Prod.fst) := rfl
  unfold FileSettings.keysOf?
  rw [same, List.find?_map, Entries.at?, Option.map_map, Option.map_map]
  rfl

/-! ## What a part of a document does -/

/-- What a key already holds is kept, or it is a list that gets one more table. -/
def Additive (leaf : Option Value → Option Value) : Prop :=
  ∀ {v w : Value}, leaf (some v) = some w →
    (∃ members, v = .table members ∧ w = .table members) ∨
      ∃ front members, w = .list (front ++ [.table members])

theorem additive_leaf (e : Toml.Expression) : Additive e.leaf := by
  intro v w given
  cases e with
  | assignment => cases (Toml.leaf_assignment given).1
  | header =>
    obtain ⟨members, becomes, held⟩ := Toml.leaf_header given
    exact .inl ⟨members, held, becomes⟩
  | item => exact .inr (Toml.leaf_item given)

theorem Kind.fits_table (kind : Kind) (members : Entries Value) :
    kind.fits (.table members) = false := by
  cases kind <;> rfl

theorem Kind.fits_tables (kind : Kind) (front : List Value) (members : Entries Value) :
    kind.fits (.list (front ++ [.table members])) = false := by
  cases kind <;> simp [fits, Value.text?]

section

open Value FileSettings

variable {leaf : Option Value → Option Value} {path : List String}

/-- Within a table of settings only a first value can be given to a known key. -/
theorem keys_of_grows {keys : Entries Kind} {members members' : Entries Value}
    (additive : Additive leaf) (grows : Toml.Grows leaf path members members')
    (sound : orderly keys Kind.fits members' = true) :
    orderly keys Kind.fits members = true ∧ ∃ key rest, path = key :: rest ∧
      ∀ k ∈ keys, (Text.lower key ≠ k.1 → named k.1 members' = named k.1 members) ∧
        (Text.lower key = k.1 → rest = [] ∧
          ∃ w, leaf (named k.1 members) = some w ∧ k.2.fits w = true ∧
            named k.1 members' = some w) := by
  -- a key that holds a table is not a known one
  have astray : ∀ (key : String) (rest : List String) {w : Value},
      (∀ kind : Kind, kind.fits w = false) →
      orderly keys Kind.fits (members.put key w) = true →
      orderly keys Kind.fits members = true ∧ ∀ k ∈ keys,
        (Text.lower key ≠ k.1 → named k.1 (members.put key w) = named k.1 members) ∧
          (Text.lower key = k.1 → rest = [] ∧
            ∃ w', leaf (named k.1 members) = some w' ∧ k.2.fits w' = true ∧
            named k.1 (members.put key w) = some w') := by
    intro key rest w misfit sound
    have unknown : ∀ k ∈ keys, Text.lower key ≠ k.1 := fun k member same =>
      absurd ((named_of_orderly sound member).2 same).2.1 (by rw [misfit]; exact Bool.false_ne_true)
    exact ⟨orderly_of_put sound fun k member same => absurd same (unknown k member),
      fun k member =>
        ⟨(named_of_orderly sound member).1, fun same => absurd same (unknown k member)⟩⟩
  cases grows with
  | @last key _ value given =>
    refine ⟨orderly_of_put sound fun k member same v found fitting => ?_, key, [],
      rfl, fun k member => ?_⟩
    · rw [found] at given
      rcases additive given with ⟨inner, -, rfl⟩ | ⟨front, inner, rfl⟩
      · rw [Kind.fits_table] at fitting
        cases fitting
      · rw [Kind.fits_tables] at fitting
        cases fitting
    · obtain ⟨others, own⟩ := named_of_orderly sound member
      refine ⟨others, fun same => ?_⟩
      obtain ⟨now, fitting, was⟩ := own same
      exact ⟨rfl, value, by rw [was, given], fitting, now⟩
  | @table key rest _ inner inner' held below =>
    obtain ⟨before, known⟩ := astray key rest (Kind.fits_table · inner') sound
    exact ⟨before, key, rest, rfl, known⟩
  | @item key rest _ inner inner' front held below =>
    obtain ⟨before, known⟩ := astray key rest (Kind.fits_tables · front inner') sound
    exact ⟨before, key, rest, rfl, known⟩

/-- What a part of a document that leads to a target does to the known keys. -/
inductive Effect (leaf : Option Value → Option Value) (tables tables' : Entries Value) :
    Target → Prop
  | foreign (same : ∀ t k, (kindOf t k).isSome → seek tables' t k = seek tables t k) :
      Effect leaf tables tables' .foreign
  | table {name : String} {keys : Entries Kind} {members : Entries Value}
      (known : kinds.at? name = some keys)
      (given : leaf (named name tables) = some (.table members))
        (sound : orderly keys Kind.fits members = true)
      (now : named name tables' = some (.table members))
      (others : ∀ t k, (kindOf t k).isSome → t ≠ name → seek tables' t k = seek tables t k) :
      Effect leaf tables tables' (.table name)
  | key {table name : String} {kind : Kind} {value : Value} (known : kindOf table name = some kind)
      (given : leaf (seek tables table name) = some value) (fits : kind.fits value = true)
      (now : seek tables' table name = some value)
      (others : ∀ t k, (kindOf t k).isSome → ¬ (t = table ∧ k = name) →
        seek tables' t k = seek tables t k) :
      Effect leaf tables tables' (.key table name)

theorem exists_of_kindOf {table key : String} (known : (kindOf table key).isSome) :
    ∃ keys kind, (table, keys) ∈ kinds ∧ kinds.at? table = some keys ∧ (key, kind) ∈ keys ∧
      kindOf table key = some kind := by
  obtain ⟨kind, found⟩ := Option.isSome_iff_exists.mp known
  obtain ⟨keys, first, second⟩ := Option.bind_eq_some_iff.mp found
  exact ⟨keys, kind, Entries.mem_of_at? first, first, Entries.mem_of_at? second, found⟩

/-- Where the tables stay plain, tables of another name keep what they hold. -/
theorem seek_put_of_ne {tables : Entries Value} {key : String} {value : Value}
    (sound : plain (tables.put key value) = true) {t k : String} (known : (kindOf t k).isSome)
    (other : t ≠ Text.lower key) : seek (tables.put key value) t k = seek tables t k := by
  obtain ⟨keys, kind, member, -⟩ := exists_of_kindOf known
  unfold seek
  rw [(named_of_orderly sound member).1 (Ne.symm other)]

/-- What stands in an unknown table leaves the known keys as they are. -/
theorem effect_of_unknown {tables : Entries Value} {key : String} {value : Value}
    (unknown : kinds.at? (Text.lower key) = none) (sound : plain (tables.put key value) = true)
    (rest : List String) :
    Effect leaf tables (tables.put key value) (target (key :: rest)) := by
  rw [show target (key :: rest) = .foreign by simp [target, keysOf?_eq, unknown]]
  refine .foreign fun t k known => seek_put_of_ne sound known ?_
  rintro rfl
  obtain ⟨_, _, _, found, _⟩ := exists_of_kindOf known
  rw [unknown] at found
  cases found

/-- A part of a document that leaves its tables plain finds them plain. -/
theorem effect_of_grows {tables tables' : Entries Value} (additive : Additive leaf)
    (grows : Toml.Grows leaf path tables tables') (sound : plain tables' = true) :
    plain tables = true ∧ Effect leaf tables tables' (target path) := by
  cases grows with
  | @last key _ value given =>
    constructor
    · refine orderly_of_put sound fun t member same v found fitting => ?_
      rw [found] at given
      rcases additive given with ⟨inner, rfl, rfl⟩ | ⟨front, inner, rfl⟩
      · exact fitting
      · cases fitting
    · cases head : kinds.at? (Text.lower key) with
      | none => exact effect_of_unknown head sound []
      | some keys =>
        obtain ⟨now, fitting, was⟩ := (named_of_orderly sound (Entries.mem_of_at? head)).2 rfl
        cases value with
        | table members =>
          rw [show target [key] = .table (Text.lower key) by simp [target, keysOf?_eq, head]]
          exact .table head (by rw [was, given]) fitting now fun t k known other =>
            seek_put_of_ne sound known other
        | _ => cases fitting
  | @item key rest _ inner inner' front held below =>
    have unknown : ∀ t ∈ kinds, Text.lower key ≠ t.1 := fun t member same =>
      nomatch ((named_of_orderly sound member).2 same).2.1
    have head : kinds.at? (Text.lower key) = none := by
      cases found : kinds.at? (Text.lower key) with
      | none => rfl
      | some keys => exact absurd rfl (unknown _ (Entries.mem_of_at? found))
    exact ⟨orderly_of_put sound fun t member same => absurd same (unknown t member),
      effect_of_unknown head sound rest⟩
  | @table key rest _ inner inner' held below =>
    constructor
    · refine orderly_of_put sound fun t member same v found fitting => ?_
      rw [found] at held
      cases held
      exact (keys_of_grows additive below fitting).1
    · cases head : kinds.at? (Text.lower key) with
      | none => exact effect_of_unknown head sound rest
      | some keys =>
        obtain ⟨now, fitting, was⟩ := (named_of_orderly sound (Entries.mem_of_at? head)).2 rfl
        obtain ⟨-, second, beyond, rfl, effects⟩ := keys_of_grows additive below fitting
        have before : ∀ k, seek tables (Text.lower key) k =
            named k inner := seek_of_getD (was ▸ held)
        have after :
            ∀ k, seek (tables.put key (.table inner')) (Text.lower key) k = named k inner' :=
          seek_of_getD (by rw [now]; rfl)
        have elsewhere : ∀ t k, (kindOf t k).isSome →
            ¬ (t = Text.lower key ∧ k = Text.lower second) →
            seek (tables.put key (.table inner')) t k = seek tables t k := by
          intro t k known other
          by_cases same : t = Text.lower key
          · subst same
            obtain ⟨keys', kind, -, found, member, -⟩ := exists_of_kindOf known
            rw [head] at found
            cases found
            rw [before, after]
            exact (effects _ member).1 fun again => other ⟨rfl, again.symm⟩
          · exact seek_put_of_ne sound known same
        cases inside : keys.at? (Text.lower second) with
        | none =>
          have foreign : target (key :: second :: beyond) = .foreign := by
            have outside := Entries.at?_eq_none_iff.mp inside
            simp [target, keysOf?_eq, head, outside]
          rw [foreign]
          refine .foreign fun t k known => elsewhere t k known ?_
          rintro ⟨rfl, rfl⟩
          rw [kindOf, head, Option.bind_some, inside] at known
          cases known
        | some kind =>
          have member := Entries.mem_of_at? inside
          obtain ⟨rfl, w, given, fits, found⟩ := (effects _ member).2 rfl
          have leads : target [key, second] = .key (Text.lower key) (Text.lower second) := by
            have contained : Text.lower second ∈ keys.map Prod.fst := List.mem_map_of_mem member
            simp [target, keysOf?_eq, head, contained]
          rw [leads]
          exact .key (by rw [kindOf, head, Option.bind_some, inside]) (by rw [before, given]) fits
            (by rw [after, found]) elsewhere

end

end JarMetrics
