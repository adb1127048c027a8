import JarMetrics.Proofs.PlainTables
import JarMetrics.Settings.Lenient

/-!
# Settings read loosely

A loose reader looks for each known key in the table of the whole file, with all keys in lower case
and with dots that may stand for nested keys. `readLoosely_of_plain`: if the tables of the file are
plain, it finds what the known keys hold and nothing else.
-/

namespace JarMetrics

open Value

/-! ## Keys in lower case -/

/-- Where at most one item counts, the order does not matter. -/
theorem find?_of_perm {α : Type} {p : α → Bool} {l l' : List α} (few : l.countP p ≤ 1)
    (perm : l.Perm l') :
    l.find? p = l'.find? p := by
  have same : l.filter p = l'.filter p := by
    have filtered := perm.filter p
    rw [List.countP_eq_length_filter] at few
    cases chosen : l.filter p with
    | nil =>
      rw [chosen] at filtered
      exact filtered.nil_eq
    | cons a rest =>
      rw [chosen] at filtered few
      cases rest with
      | nil => exact List.singleton_perm.mp filtered
      | cons => simp at few
  rw [← List.head?_filter, ← List.head?_filter, same]

/-- A member with its key in lower case. -/
def lowerMember (m : String × Value) : String × Value := (Text.lower m.1, m.2.lowerKeys)

theorem lowerMembers_eq (already : Bool) (members : Entries Value) :
    lowerMembers already members =
      (members.filter fun m => (Text.lower m.1 == m.1) == already).map lowerMember := by
  induction members with
  | nil => rfl
  | cons entry rest ih =>
    obtain ⟨key, value⟩ := entry
    rw [lowerMembers, ih, List.filter_cons]
    split <;> rfl

/-- The members with keys in lower case are all members, in another order. -/
theorem lowered_perm (members : Entries Value) :
    (lowered members).Perm (members.map lowerMember) := by
  rw [lowered, lowerMembers_eq, lowerMembers_eq, ← List.map_append]
  refine List.Perm.map _ ?_
  have parts := List.filter_append_perm (fun m : String × Value => Text.lower m.1 == m.1) members
  simpa using parts

/-- A name that only one key goes by means that key. -/
theorem get?_lowered {name : String} {members : Entries Value} (single : once name members = true) :
    get? name (lowered members) = (named name members).map lowerKeys := by
  have perm : (members.map lowerMember).Perm (lowered members).reverse :=
    (lowered_perm members).symm.trans (List.reverse_perm _).symm
  have few : (members.map lowerMember).countP (·.1 == name) ≤ 1 := by
    simpa [once, List.countP_map, Function.comp_def, lowerMember] using single
  rw [get?, ← find?_of_perm few perm, List.find?_map, Option.map_map, named, Option.map_map]
  rfl

theorem mem_lowered {key : String} {value : Value} {members : Entries Value} :
    (key, value) ∈ lowered members ↔ ∃ m ∈ members, Text.lower m.1 = key ∧
    m.2.lowerKeys = value := by
  rw [(lowered_perm members).mem_iff, List.mem_map]
  simp [lowerMember]

/-- A value of a declared type holds no keys. -/
theorem lowerKeys_of_fits {kind : Kind} {value : Value} (fits : kind.fits value = true) :
    value.lowerKeys = value := by
  have plainItems : ∀ texts : List String, lowerItems (texts.map .text) = texts.map .text := by
    intro texts
    induction texts with
    | nil => rfl
    | cons t rest ih => simp [lowerItems, lowerKeys, ih]
  cases kind with
  | text =>
    obtain ⟨t, rfl⟩ := Kind.fits_text.mp fits
    rfl
  | int =>
    obtain ⟨n, rfl, -⟩ := Kind.fits_int.mp fits
    rfl
  | bool =>
    obtain ⟨b, rfl⟩ := Kind.fits_bool.mp fits
    rfl
  | texts =>
    obtain ⟨texts, rfl⟩ := Kind.fits_texts.mp fits
    rw [lowerKeys, plainItems]

/-! ## Keys with dots -/

mutual

theorem fullKeys_append (front key : String) : ∀ value : Value,
    value.fullKeys (front ++ key) = (value.fullKeys key).map (front ++ ·)
  | .table members => by
    rw [fullKeys, fullKeys, String.append_assoc]
    exact memberKeys_append front (key ++ ".") members
  | .null | .bool _ | .int _ | .float _ | .text _ | .moment | .malformed | .clash | .list _ => rfl

/-- What stands in front of keys stands in front of all that they lead to. -/
theorem memberKeys_append (front more : String) : ∀ members : List (String × Value),
    memberKeys (front ++ more) members = (memberKeys more members).map (front ++ ·)
  | [] => rfl
  | (key, value) :: rest => by
    rw [memberKeys, memberKeys, String.append_assoc, fullKeys_append front (more ++ key) value,
      memberKeys_append front more rest, List.map_append]

end

theorem mem_memberKeys {full : String} {members : Entries Value} :
    full ∈ memberKeys "" members ↔ ∃ m ∈ members, full ∈ m.2.fullKeys m.1 := by
  induction members with
  | nil => simp [memberKeys]
  | cons entry rest ih =>
    obtain ⟨key, value⟩ := entry
    rw [memberKeys, List.mem_append, ih]
    simp

theorem mem_fullKeys_table {full key : String} {members : Entries Value} :
    full ∈ (Value.table members).fullKeys key ↔
    ∃ rest ∈ memberKeys "" members, full = key ++ "." ++ rest := by
  have behind : memberKeys (key ++ ".") members =
      (memberKeys "" members).map (key ++ "." ++ ·) := by
    rw [← memberKeys_append, String.append_empty]
  rw [fullKeys, behind]
  simp [eq_comm]

theorem eq_of_dotted {name key : List Char} (rest : List Char) (dotless : '.' ∉ name)
    (apart : ¬ name ++ ['.'] <+: key) (front : name ++ ['.'] <+: key ++ '.' :: rest) :
    key = name := by
  induction name generalizing key with
  | nil =>
    cases key with
    | nil => rfl
    | cons c key =>
      obtain ⟨rfl, -⟩ := List.cons_prefix_cons.mp front
      exact absurd (List.prefix_append ['.'] key) apart
  | cons x name ih =>
    cases key with
    | nil =>
      obtain ⟨rfl, -⟩ := List.cons_prefix_cons.mp front
      exact absurd List.mem_cons_self dotless
    | cons c key =>
      obtain ⟨rfl, behind⟩ := List.cons_prefix_cons.mp front
      have inner : ¬ name ++ ['.'] <+: key :=
        fun inner => apart (List.cons_prefix_cons.mpr ⟨rfl, inner⟩)
      rw [ih (fun dot => dotless (List.mem_cons_of_mem x dot)) inner behind]

/-- What stands behind a name and a dot stands in the table of that name, if the name has no dots
and no key has the name and a dot in front. -/
theorem exists_table_of_dotted {name full : String} {members : Entries Value}
    (dotless : '.' ∉ name.toList) (clean : undotted name members = true)
    (listed : full ∈ memberKeys "" (lowered members))
    (front : (name ++ ".").toList <+: full.toList) :
    ∃ m ∈ members, Text.lower m.1 = name ∧ ∃ inner, m.2 = .table inner ∧
      ∃ rest ∈ memberKeys "" (lowered inner), full = name ++ "." ++ rest := by
  obtain ⟨⟨key, value⟩, standing, reached⟩ := mem_memberKeys.mp listed
  obtain ⟨m, member, rfl, rfl⟩ := mem_lowered.mp standing
  have apart : ¬ (name ++ ".").toList <+: (Text.lower m.1).toList := by
    intro front
    have none := List.all_eq_true.mp clean m member
    rw [List.isPrefixOf_iff_prefix.mpr front] at none
    cases none
  cases held : m.2 with
  | table inner =>
    rw [held, lowerKeys] at reached
    obtain ⟨rest, below, rfl⟩ := mem_fullKeys_table.mp reached
    have same : Text.lower m.1 = name := by
      apply String.toList_injective
      refine eq_of_dotted rest.toList dotless (by simpa using apart) ?_
      simpa using front
    exact ⟨m, member, same, inner, held, rest, below, by rw [same]⟩
  | _ =>
    -- anything else is what its key leads to
    rw [held] at reached
    obtain rfl := List.mem_singleton.mp reached
    exact absurd front apart

/-! ## Known keys -/

theorem dotless_of_mem_kinds : ∀ t ∈ kinds, '.' ∉ t.1.toList ∧ ∀ k ∈ t.2, '.' ∉ k.1.toList := by
  decide

section

variable {tables : Entries Value} {table key : String} {kind : Kind}

/-- Where the tables are plain, a known table is one whose known keys are in order. -/
theorem exists_of_named (sound : plain tables = true) {keys : Entries Kind}
    (known : (table, keys) ∈ kinds) {value : Value} (found : named table tables = some value) :
    ∃ members, value = .table members ∧ orderly keys Kind.fits members = true := by
  obtain ⟨-, -, held⟩ := orderly_iff.mp sound _ known
  have fits := held value found
  cases value with
  | table members => exact ⟨members, rfl, fits⟩
  | _ => cases fits

/-- A known key holds a value of its type. -/
theorem fits_of_seek (sound : plain tables = true) (known : kindOf table key = some kind)
    {value : Value} (found : seek tables table key = some value) : kind.fits value = true := by
  obtain ⟨keys, inTables, inKeys⟩ := Option.bind_eq_some_iff.mp known
  obtain ⟨held, first, second⟩ := Option.bind_eq_some_iff.mp found
  obtain ⟨members, rfl, fits⟩ := exists_of_named sound (Entries.mem_of_at? inTables) first
  exact (orderly_iff.mp fits _ (Entries.mem_of_at? inKeys)).2.2 value second

/-- Nothing stands below a known key. -/
theorem hasBelow_of_plain (sound : plain tables = true) (known : kindOf table key = some kind) :
    Settings.hasBelow (lowered tables) table key = false := by
  obtain ⟨keys, inTables, inKeys⟩ := Option.bind_eq_some_iff.mp known
  obtain ⟨single, clean, held⟩ := orderly_iff.mp sound _ (Entries.mem_of_at? inTables)
  obtain ⟨dotless, dotless'⟩ := dotless_of_mem_kinds _ (Entries.mem_of_at? inTables)
  rw [Settings.hasBelow, List.any_eq_false]
  intro full listed
  rw [Bool.and_eq_true, not_and]
  intro front
  have front := List.isPrefixOf_iff_prefix.mp front
  exfalso
  -- what stands behind the table is in the table, and what stands behind the key there is in a
  -- table again
  have first : (table ++ ".").toList <+: full.toList :=
    (List.prefix_append _ (key ++ ".").toList).trans (by simpa using front)
  obtain ⟨m, member, called, inner, holds, rest, below, rfl⟩ :=
    exists_table_of_dotted dotless clean listed first
  have fits : orderly keys Kind.fits inner = true :=
    held (.table inner) (by rw [named_of_mem single member called, holds])
  obtain ⟨single', clean', held'⟩ := orderly_iff.mp fits _ (Entries.mem_of_at? inKeys)
  have second : (key ++ ".").toList <+: rest.toList := by
    simpa [List.prefix_append_right_inj] using front
  obtain ⟨m', member', called', inner', holds', -⟩ :=
    exists_table_of_dotted (dotless' _ (Entries.mem_of_at? inKeys)) clean' below second
  have misfit := held' (.table inner') (by rw [named_of_mem single' member' called', holds'])
  rw [Kind.fits_table] at misfit
  cases misfit

/-- A key that joins a table of settings and one of its keys by a dot does not occur. -/
theorem get?_joined (clean : undotted table tables = true) (key : String) :
    get? (table ++ "." ++ key) (lowered tables) = none := by
  rw [get?, Option.map_eq_none_iff, List.find?_eq_none]
  rintro ⟨k, value⟩ listed same
  obtain ⟨m, member, rfl, -⟩ := mem_lowered.mp (List.mem_reverse.mp listed)
  have clear := List.all_eq_true.mp clean m member
  have front : (table ++ ".").toList <+: (Text.lower m.1).toList := by
    rw [show Text.lower m.1 = _ from beq_iff_eq.mp same]
    exact ⟨key.toList, by simp⟩
  rw [List.isPrefixOf_iff_prefix.mpr front] at clear
  cases clear

/-- The search for a known key finds what the key holds. -/
theorem search_of_plain (sound : plain tables = true) (known : kindOf table key = some kind) :
    search (lowered tables) "" [table, key] = seek tables table key := by
  obtain ⟨keys, inTables, inKeys⟩ := Option.bind_eq_some_iff.mp known
  obtain ⟨single, clean, -⟩ := orderly_iff.mp sound _ (Entries.mem_of_at? inTables)
  simp only [search, String.empty_append, get?_joined clean key,
    get?_lowered single, Option.or, seek]
  cases found : named table tables with
  | none => rfl
  | some value =>
    obtain ⟨members, rfl, fits⟩ := exists_of_named sound (Entries.mem_of_at? inTables) found
    obtain ⟨single', -, held⟩ := orderly_iff.mp fits _ (Entries.mem_of_at? inKeys)
    simp only [Option.map_some, lowerKeys, Option.bind_some, member?]
    rw [show lowerMembers true members ++ lowerMembers false members = lowered members
      from rfl, get?_lowered single']
    cases inner : named key members with
    | none => rfl
    | some v =>
      have fitting := held v inner
      rw [Option.map_some, lowerKeys_of_fits fitting]
      cases v with
      | null => cases kind <;> cases fitting
      | _ => rfl

/-- A known key that holds something is listed. -/
theorem mem_memberKeys_of_seek (sound : plain tables = true) (known : kindOf table key = some kind)
    {value : Value} (found : seek tables table key = some value) :
    table ++ "." ++ key ∈ memberKeys "" (lowered tables) := by
  have fits := fits_of_seek sound known found
  obtain ⟨held, first, second⟩ := Option.bind_eq_some_iff.mp found
  have memOfNamed : ∀ {name : String} {members : Entries Value} {v : Value},
      named name members = some v →
      (name, v.lowerKeys) ∈ lowered members := by
    intro name members v found
    obtain ⟨m, chosen, rfl⟩ := Option.map_eq_some_iff.mp found
    exact mem_lowered.mpr ⟨m, List.mem_of_find?_eq_some chosen,
      by simpa using List.find?_some chosen, rfl⟩
  cases held with
  | table members =>
    refine mem_memberKeys.mpr ⟨_, memOfNamed first, mem_fullKeys_table.mpr ⟨key, ?_, rfl⟩⟩
    refine mem_memberKeys.mpr ⟨_, memOfNamed second, ?_⟩
    rw [lowerKeys_of_fits fits]
    cases value with
    | table members =>
      rw [Kind.fits_table] at fits
      cases fits
    | _ => exact List.mem_singleton.mpr rfl
  | _ => cases second

/-- A setting is what its key holds, or the old value. -/
theorem setting_of_plain {α : Type} (sound : plain tables = true)
    (known : kindOf table key = some kind) (old : α) (read : Value → Option α) :
    Settings.setting (lowered tables) table key old read =
      ((seek tables table key).map read).getD (some old) := by
  unfold Settings.setting
  rw [hasBelow_of_plain sound known, search_of_plain sound known]
  cases found : seek tables table key with
  | none => simp
  | some value => simp [mem_memberKeys_of_seek sound known found]

theorem setting_text (sound : plain tables = true) (known : kindOf table key = some .text)
    (old : String) :
    Settings.setting (lowered tables) table key old looseText? =
      some (((seek tables table key).bind text?).getD old) := by
  rw [setting_of_plain sound known]
  cases found : seek tables table key with
  | none => rfl
  | some value =>
    obtain ⟨t, rfl⟩ := Kind.fits_text.mp (fits_of_seek sound known found)
    rfl

theorem setting_bool (sound : plain tables = true) (known : kindOf table key = some .bool)
    (old : Bool) :
    Settings.setting (lowered tables) table key old looseBool? =
      some (((seek tables table key).bind bool?).getD old) := by
  rw [setting_of_plain sound known]
  cases found : seek tables table key with
  | none => rfl
  | some value =>
    obtain ⟨b, rfl⟩ := Kind.fits_bool.mp (fits_of_seek sound known found)
    rfl

theorem setting_int (sound : plain tables = true) (known : kindOf table key = some .int)
    (old : Int) :
    Settings.setting (lowered tables) table key old looseInt? =
      some (((seek tables table key).bind int?).getD old) := by
  rw [setting_of_plain sound known]
  cases found : seek tables table key with
  | none => rfl
  | some value =>
    obtain ⟨n, rfl, least, most⟩ := Kind.fits_int.mp (fits_of_seek sound known found)
    have whole : (Int64.ofInt n).toInt = n := by
      rw [Int64.toInt_ofInt]
      exact Int.bmod_eq_of_le (by simpa using least) (by simpa using most)
    simp [looseInt?, int?, whole]

theorem setting_texts (sound : plain tables = true) (known : kindOf table key = some .texts)
    (old : List String) :
    Settings.setting (lowered tables) table key old (looseTexts? old) =
      some (((seek tables table key).bind texts?).getD old) := by
  have items : ∀ (texts old : List String), looseItems? old (texts.map .text) = some texts := by
    intro texts
    induction texts with
    | nil => exact fun _ => rfl
    | cons t rest ih =>
      intro old
      simp [looseItems?, looseText?, ih]
  rw [setting_of_plain sound known]
  cases found : seek tables table key with
  | none => rfl
  | some value =>
    obtain ⟨texts, rfl⟩ := Kind.fits_texts.mp (fits_of_seek sound known found)
    simp [looseTexts?, items]

/-- A known table is not something else. -/
theorem isTable_of_plain (sound : plain tables = true) {keys : Entries Kind}
    (known : kinds.at? table = some keys) :
    (get? table (lowered tables)).all Settings.isTable = true := by
  obtain ⟨single, -, -⟩ := orderly_iff.mp sound _ (Entries.mem_of_at? known)
  rw [get?_lowered single]
  cases found : named table tables with
  | none => rfl
  | some value =>
    obtain ⟨members, rfl, -⟩ := exists_of_named sound (Entries.mem_of_at? known) found
    rfl

end

namespace Settings

/-- A password that is not empty. -/
def filled (password : Option String) : Option String :=
  password.bind fun p => if p.isEmpty then none else some p

/-- Settings with what a lookup finds at the known keys, and a password from outside if there is
one. -/
def ofLookup (password : Option String) (look : String → String → Option Value) (s : Settings) :
    Settings where
  includes := ((look "analysis" "include_patterns").bind texts?).getD s.includes
  excludes := ((look "analysis" "exclude_patterns").bind texts?).getD s.excludes
  workers := ((look "analysis" "workers").bind int?).getD s.workers
  recursive := ((look "analysis" "recursive").bind bool?).getD s.recursive
  format := ((look "output" "format").bind text?).getD s.format
  details := ((look "output" "show_details").bind bool?).getD s.details
  sort := ((look "output" "sort_by").bind text?).getD s.sort
  top := ((look "output" "top").bind int?).getD s.top
  directory := ((look "output" "directory").bind text?).getD s.directory
  uri := ((look "graph" "uri").bind text?).getD s.uri
  username := ((look "graph" "username").bind text?).getD s.username
  password := (filled password).getD (((look "graph" "password").bind text?).getD s.password)
  database := ((look "graph" "database").bind text?).getD s.database
  batchSize := ((look "graph" "batch_size").bind int?).getD s.batchSize

theorem passwordIn_of_plain {tables : Entries Value} (sound : plain tables = true) (old : String) :
    passwordIn (lowered tables) old =
      some (((seek tables "graph" "password").bind text?).getD old) := by
  have known : kindOf "graph" "password" = some .text := rfl
  unfold passwordIn
  rw [search_of_plain sound known]
  cases found : seek tables "graph" "password" with
  | none => rfl
  | some value =>
    obtain ⟨t, rfl⟩ := Kind.fits_text.mp (fits_of_seek sound known found)
    rfl

/-- From plain tables the loose reader takes what the known keys hold. -/
theorem readLoosely_of_plain {tables : Entries Value} (sound : plain tables = true)
    (password : Option String) (s : Settings) :
    s.readLoosely password tables = some (ofLookup password (seek tables) s) := by
  have tablesOnly : (["analysis", "output", "graph"].any fun name =>
      !(get? name (lowered tables)).all isTable) = false := by
    have analysis := isTable_of_plain sound (show kinds.at? "analysis" = some _ from rfl)
    have output := isTable_of_plain sound (show kinds.at? "output" = some _ from rfl)
    have graph := isTable_of_plain sound (show kinds.at? "graph" = some _ from rfl)
    simp [analysis, output, graph]
  unfold readLoosely
  simp only [tablesOnly, Bool.false_eq_true, if_false]
  simp (disch := decide) only [setting_text sound, setting_texts sound,
    setting_int sound, setting_bool sound]
  unfold ofLookup filled
  cases password.bind fun p => if p.isEmpty then none else some p with
  | none =>
    simp only [passwordIn_of_plain sound]
    rfl
  | some p => rfl

end Settings

end JarMetrics
