import JarMetrics.Proofs.PlainTables

/-!
# Settings read strictly

A strict reader takes up the parts of a file one by one and does not look at unknown sections.
`Follows` says what it has to do with the document so far; `Follows.step` is what one more part
keeps of it, and `ofExpressions_of_plain` is what comes of a whole file: if its tables are plain,
the reader ends, and with nothing but what the known keys hold in the table of the whole document.
-/

namespace JarMetrics

namespace FileSettings

open Value

/-! ## Settings of a lookup -/

/-- What a file says whose known keys hold what a lookup finds. -/
def ofLookup (look : String → String → Option Value) : FileSettings where
  includes := ((look "analysis" "include_patterns").bind texts?).getD []
  excludes := (look "analysis" "exclude_patterns").bind texts?
  workers := (look "analysis" "workers").bind int?
  recursive := (look "analysis" "recursive").bind bool?
  format := ((look "output" "format").bind text?).getD ""
  details := (look "output" "show_details").bind bool?
  sort := ((look "output" "sort_by").bind text?).getD ""
  top := (look "output" "top").bind int?
  directory := ((look "output" "directory").bind text?).getD ""
  uri := ((look "graph" "uri").bind text?).getD ""
  username := ((look "graph" "username").bind text?).getD ""
  password := ((look "graph" "password").bind text?).getD ""
  database := ((look "graph" "database").bind text?).getD ""
  batchSize := ((look "graph" "batch_size").bind int?).getD 0

/-- A lookup that finds a value at one key, and otherwise what another one finds. -/
def withValue (table key : String) (value : Value) (look : String → String → Option Value) :
    String → String → Option Value :=
  fun t k => if t = table ∧ k = key then some value else look t k

section

variable {table key t k : String} {value : Value} {look : String → String → Option Value}

@[simp] theorem withValue_self : withValue table key value look table key = some value :=
  if_pos ⟨rfl, rfl⟩

theorem withValue_of_table (other : t ≠ table) : withValue table key value look t k = look t k :=
  if_neg fun same => other same.1

theorem withValue_of_key (other : k ≠ key) : withValue table key value look t k = look t k :=
  if_neg fun same => other same.2

end

/-- Only the known keys count. -/
theorem ofLookup_congr {look look' : String → String → Option Value}
    (same : ∀ t k, (kindOf t k).isSome → look t k = look' t k) :
    ofLookup look = ofLookup look' := by
  unfold ofLookup
  simp (disch := decide) only [same]

/-- A known key that gets a value of its type. -/
theorem assign_known {table key : String} {kind : Kind} {value : Value}
    (known : kindOf table key = some kind) (fits : kind.fits value = true)
    (look : String → String → Option Value) :
    (ofLookup look).assign table key value = some (ofLookup (withValue table key value look)) := by
  unfold assign
  split
  case h_15 =>
    -- the known keys are those that have a case of their own
    obtain ⟨keys, kind, inTables, -, inKeys, -⟩ :=
      exists_of_kindOf (known ▸ rfl : (kindOf table key).isSome = true)
    simp only [kinds, List.mem_cons, Prod.mk.injEq, List.not_mem_nil, or_false] at inTables
    rcases inTables with ⟨rfl, rfl⟩ | ⟨rfl, rfl⟩ | ⟨rfl, rfl⟩ <;> simp_all
  all_goals cases known
  case h_1 | h_2 =>
    obtain ⟨texts, rfl⟩ := Kind.fits_texts.mp fits
    simp [ofLookup, withValue_of_table, withValue_of_key]
  case h_3 | h_8 | h_14 =>
    obtain ⟨n, rfl, -⟩ := Kind.fits_int.mp fits
    simp [ofLookup, withValue_of_table, withValue_of_key, int?]
  case h_4 | h_6 =>
    obtain ⟨b, rfl⟩ := Kind.fits_bool.mp fits
    simp [ofLookup, withValue_of_table, withValue_of_key, bool?]
  case h_5 | h_7 | h_9 | h_10 | h_11 | h_12 | h_13 =>
    obtain ⟨t, rfl⟩ := Kind.fits_text.mp fits
    simp [ofLookup, withValue_of_table, withValue_of_key, text?]

theorem assign_unknown {table key : String} (unknown : kindOf table key = none) (value : Value)
    (f : FileSettings) :
    f.assign table key value = some f := by
  unfold assign
  split
  case h_15 => rfl
  all_goals cases unknown

/-- Taking up the members of a table whose known keys are in order gives each of these keys its
value. -/
theorem assignMembers_ofLookup {table : String} {keys : Entries Kind}
    (known : kinds.at? table = some keys) {members : Entries Value}
    (sound : orderly keys Kind.fits members = true) (look : String → String → Option Value) :
    (ofLookup look).assignMembers table members =
      some (ofLookup fun t k =>
        if t = table then (named k members).or (look t k) else look t k) := by
  unfold assignMembers
  induction members generalizing look with
  | nil =>
    refine congrArg some (ofLookup_congr fun t k _ => ?_)
    by_cases same : t = table <;> simp [same, named]
  | cons entry rest ih =>
    obtain ⟨key, value⟩ := entry
    obtain ⟨tail, head⟩ := orderly_cons sound
    simp only [List.foldlM_cons, Option.bind_eq_bind]
    cases asked : kindOf table (Text.lower key) with
    | none =>
      rw [assign_unknown asked, Option.bind_some, ih tail]
      refine congrArg some (ofLookup_congr fun t k isKnown => ?_)
      by_cases same : t = table
      · subst same
        have other : Text.lower key ≠ k := by
          rintro rfl
          rw [asked] at isKnown
          cases isKnown
        simp [named_cons, other]
      · simp [same]
    | some kind =>
      have inKeys : (Text.lower key, kind) ∈ keys := by
        rw [kindOf, known] at asked
        exact Entries.mem_of_at? asked
      obtain ⟨fits, alone⟩ := head _ inKeys rfl
      rw [assign_known asked fits, Option.bind_some, ih tail]
      refine congrArg some (ofLookup_congr fun t k isKnown => ?_)
      by_cases same : t = table
      · subst same
        by_cases own : Text.lower key = k
        · subst own
          simp [named_cons, alone, withValue]
        · simp [named_cons, own, withValue, Ne.symm own]
      · simp [same, withValue]

/-! ## Parts of a file -/

/-- A value that is assigned in a document with plain tables is taken up. -/
theorem assignAt_of_effect {path : List String} {value : Value} {tables tables' : Entries Value}
    {place : List String}
    (effect : Effect (Toml.Expression.assignment path value).leaf tables tables' (target place)) :
    (ofLookup (seek tables)).assignAt place value = some (ofLookup (seek tables')) := by
  unfold assignAt
  generalize target place = reached at effect ⊢
  cases effect with
  | foreign same => exact congrArg some (ofLookup_congr fun t k known => (same t k known).symm)
  | @table name keys members known given sound now others =>
    obtain ⟨before, rfl⟩ := Toml.leaf_assignment given
    show (ofLookup _).assignMembers name members = _
    rw [assignMembers_ofLookup known sound]
    refine congrArg some (ofLookup_congr fun t k isKnown => ?_)
    by_cases same : t = name
    · subst same
      simp [seek, now, before, member?]
    · rw [if_neg same, others t k isKnown same]
  | @key table name kind v known given fits now others =>
    obtain ⟨-, rfl⟩ := Toml.leaf_assignment given
    show (ofLookup _).assign table name v = _
    rw [assign_known known fits]
    refine congrArg some (ofLookup_congr fun t k isKnown => ?_)
    unfold withValue
    split
    · rename_i same
      rw [same.1, same.2, now]
    · rename_i other
      rw [others t k isKnown other]

/-- A header opens a table of settings or something unknown, and the known keys keep what they
hold. -/
theorem ofLookup_of_header {path : List String} {tables tables' : Entries Value} {reached : Target}
    (effect : Effect (Toml.Expression.header path).leaf tables tables' reached) :
    ofLookup (seek tables') = ofLookup (seek tables) ∧
    (reached = .foreign ∨ ∃ name, reached = .table name) := by
  cases effect with
  | foreign same => exact ⟨ofLookup_congr same, .inl rfl⟩
  | @table name keys members known given sound now others =>
    obtain ⟨inner, becomes, held⟩ := Toml.leaf_header given
    refine ⟨ofLookup_congr fun t k isKnown => ?_, .inr ⟨name, rfl⟩⟩
    by_cases same : t = name
    · subst same
      rw [seek_of_getD (by rw [now]; exact becomes), seek_of_getD held]
    · exact others t k isKnown same
  | @key table name kind v known given fits now others =>
    obtain ⟨inner, rfl, -⟩ := Toml.leaf_header given
    rw [Kind.fits_table] at fits
    cases fits

/-- A further table of a list is something unknown. -/
theorem ofLookup_of_item {path : List String} {tables tables' : Entries Value} {reached : Target}
    (effect : Effect (Toml.Expression.item path).leaf tables tables' reached) :
    ofLookup (seek tables') = ofLookup (seek tables) ∧ reached = .foreign := by
  cases effect with
  | foreign same => exact ⟨ofLookup_congr same, rfl⟩
  | @table name keys members known given sound now others =>
    obtain ⟨front, inner, becomes⟩ := Toml.leaf_item given
    cases becomes
  | @key table name kind v known given fits now others =>
    obtain ⟨front, inner, rfl⟩ := Toml.leaf_item given
    rw [Kind.fits_tables] at fits
    cases fits

/-! ## Whole files -/

/-- What a section is about that was opened by a header. -/
def Target.scope : Target → Scope
  | .table name => .table name
  | .key _ _ => .key
  | .beyond | .foreign => .foreign

/-- What a reader has to do with the document that it has read so far. It has passed over
assignments in unknown sections, and has taken up what all known keys hold. -/
structure Follows (current : List String) (members : Toml.Members) (r : Reading) : Prop where
  settings : r.settings = ofLookup (seek (Toml.membersToValue members))
  path : r.path = current
  scope : current = [] ∧ r.scope = .top ∨
    current ≠ [] ∧ r.scope = (target current).scope ∧
      (target current = .foreign ∨ ∃ name, target current = .table name)
  thin : Toml.Thin r.seen members
  opened : Toml.Opened current r.seen

/-- The names of the tables of settings are in lower case. -/
theorem lower_of_keysOf? {name : String} (known : keysOf? name ≠ none) :
    Text.lower name = name := by
  have listed : ∀ t ∈ FileSettings.known, Text.lower t.1 = t.1 := by decide +kernel
  cases found : FileSettings.known.find? (·.1 == name) with
  | none => exact absurd (by rw [keysOf?, found]; rfl) known
  | some t =>
    have same : t.1 = name := by simpa using List.find?_some found
    rw [← same]
    exact listed t (List.mem_of_find?_eq_some found)

/-- Below a table of settings, the name of the table may stand for its key. -/
theorem target_of_table {current : List String} {name : String}
    (leads : target current = .table name) (path : List String) :
    target (name :: path) = target (current ++ path) := by
  cases current with
  | nil => cases leads
  | cons key rest =>
    cases known : keysOf? (Text.lower key) with
    | none => simp [target, known] at leads
    | some keys =>
      cases rest with
      | nil =>
        obtain rfl : Text.lower key = name := by simpa [target, known] using leads
        have again : Text.lower (Text.lower key) = Text.lower key :=
          lower_of_keysOf? (by simp [known])
        simp [target, again]
      | cons second rest =>
        simp only [target, List.map_cons, known] at leads
        split at leads
        · cases leads
        · split at leads <;> cases leads

/-- Below something unknown everything is unknown. -/
theorem target_of_foreign {current : List String} (opened : current ≠ [])
    (leads : target current = .foreign) (path : List String) :
    target (current ++ path) = .foreign := by
  cases current with
  | nil => exact absurd rfl opened
  | cons key rest =>
    cases known : keysOf? (Text.lower key) with
    | none => simp [target, known]
    | some keys =>
      cases rest with
      | nil => simp [target, known] at leads
      | cons second rest =>
        simp only [target, List.map_cons, List.cons_append, known] at leads ⊢
        split at leads
        · rw [if_pos ‹_›]
        · split at leads <;> cases leads

/-- Where a value goes is a matter of the target alone. -/
theorem assignAt_congr {place place' : List String} (same : target place = target place')
    (value : Value) (f : FileSettings) : f.assignAt place value = f.assignAt place' value := by
  unfold assignAt
  rw [same]

theorem assignAt_foreign {place : List String} (foreign : target place = .foreign) (value : Value)
    (f : FileSettings) : f.assignAt place value = some f := by
  unfold assignAt
  rw [foreign]

/-- A reader that follows a document follows it through one more part. -/
theorem Follows.step {current : List String} {members members' : Toml.Members} {r : Reading}
    {e : Toml.Expression} (follows : Follows current members r)
    (fits : members.extend current e = some members')
    (sound : plain (Toml.membersToValue members') = true) :
    ∃ r', r.step e = some r' ∧ Follows (e.opens current) members' r' := by
  obtain ⟨-, effect⟩ := effect_of_grows (additive_leaf e) (Toml.Members.extend_grows fits) sound
  obtain ⟨seen, grown, thin⟩ := follows.thin.extend fits
  have opened := Toml.opened_of_extend grown
  rw [← follows.path] at grown
  cases e with
  | assignment path value =>
    have taken : r.settings.assignAt (current ++ path) value =
        some (ofLookup (seek (Toml.membersToValue members'))) := by
      rw [follows.settings]
      exact assignAt_of_effect effect
    rcases follows.scope with ⟨rfl, top⟩ | ⟨below, scope, unknown | ⟨name, leads⟩⟩
    · refine ⟨{ r with settings := ofLookup (seek (Toml.membersToValue members')), seen },
        ?_, rfl, follows.path, follows.scope, thin, opened⟩
      rw [List.nil_append] at taken
      simp [Reading.step, top, grown, taken]
    · -- nothing is taken up in an unknown section, and nothing is noted down
      have passed := assignAt_foreign (target_of_foreign below unknown path) value r.settings
      refine ⟨r, by simp [Reading.step, scope, unknown, Target.scope],
        Option.some.inj (passed.symm.trans taken), follows.path, follows.scope,
        follows.thin.skip follows.opened fits, follows.opened⟩
    · rw [← assignAt_congr (target_of_table leads path)] at taken
      refine ⟨{ r with settings := ofLookup (seek (Toml.membersToValue members')), seen },
        ?_, rfl, follows.path, follows.scope, thin, opened⟩
      simp [Reading.step, scope, leads, Target.scope, grown, taken]
  | header path =>
    obtain ⟨same, reached⟩ := ofLookup_of_header effect
    have named : path ≠ [] := by
      rintro rfl
      cases fits
    refine ⟨{ r with scope := (target path).scope, path, seen }, ?_,
      by rw [same, ← follows.settings], rfl,
      .inr ⟨named, rfl, reached⟩, thin, opened⟩
    rcases reached with leads | ⟨name, leads⟩ <;>
      simp [Reading.step, Reading.openSection, Target.scope, grown, show target path = _ from leads]
  | item path =>
    obtain ⟨same, leads⟩ := ofLookup_of_item effect
    have named : path ≠ [] := by
      rintro rfl
      cases fits
    refine ⟨{ r with scope := (target path).scope, path, seen }, ?_,
      by rw [same, ← follows.settings], rfl,
      .inr ⟨named, rfl, .inl leads⟩, thin, opened⟩
    simp [Reading.step, Reading.openItem, Target.scope, grown, show target path = _ from leads]

/-- The tables of a document with plain tables are plain all along. -/
theorem plain_of_build {current : List String} {parts : List Toml.Expression}
    {members final : Toml.Members} (built : Toml.build current members parts = some final)
    (sound : plain (Toml.membersToValue final) = true) :
    plain (Toml.membersToValue members) = true := by
  induction parts generalizing current members with
  | nil =>
    cases built
    exact sound
  | cons e rest ih =>
    obtain ⟨next, fits, built⟩ := Option.bind_eq_some_iff.mp built
    exact (effect_of_grows (additive_leaf e) (Toml.Members.extend_grows fits) (ih built)).1

/-- A reader that follows a document follows it to its end. -/
theorem Follows.run {current : List String} {parts : List Toml.Expression}
    {members final : Toml.Members} {r : Reading} (follows : Follows current members r)
    (built : Toml.build current members parts = some final)
    (sound : plain (Toml.membersToValue final) = true) :
    ∃ r', parts.foldlM Reading.step r = some r' ∧
      r'.settings = ofLookup (seek (Toml.membersToValue final)) := by
  induction parts generalizing current members r with
  | nil =>
    cases built
    exact ⟨r, rfl, follows.settings⟩
  | cons e rest ih =>
    obtain ⟨next, fits, built⟩ := Option.bind_eq_some_iff.mp built
    obtain ⟨r₁, stepped, follows⟩ := follows.step fits (plain_of_build built sound)
    obtain ⟨r', ran, settings⟩ := ih follows built
    exact ⟨r', by rw [List.foldlM_cons, stepped]; exact ran, settings⟩

/-- From a document with plain tables the strict reader takes what the known keys hold. -/
theorem ofExpressions_of_plain {parts : List Toml.Expression} {tables : Entries Value}
    (described : Toml.document parts = some tables) (sound : plain tables = true) :
    ofExpressions parts = some (ofLookup (seek tables)) := by
  obtain ⟨final, built, rfl⟩ := Option.map_eq_some_iff.mp described
  have start : Follows [] [] {} := ⟨rfl, rfl, .inl ⟨rfl, rfl⟩, Toml.thin_nil, trivial⟩
  obtain ⟨r, ran, settings⟩ := start.run built sound
  rw [ofExpressions, ran, ← settings]
  rfl

end FileSettings

end JarMetrics
