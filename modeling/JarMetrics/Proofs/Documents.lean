import JarMetrics.Toml.Document
import Mathlib.Data.List.Basic

/-!
# Parts of a document

A document grows part by part. `Members.extend_grows` says what one more part does to the table that
the document describes: it reaches one place, and there a key gets a value, or a table or a list of
tables is opened.

A reader may pass over assignments that it has no use for. `Thin.extend` and `Thin.skip`: what is
left still fits together, as only assignments are missing from it; so whoever passes over some of
them sees no fault that the whole document does not have.
-/

namespace JarMetrics

namespace Entries

variable {α : Type}

@[simp] theorem at?_nil (key : String) : at? key ([] : Entries α) = none := rfl

theorem at?_cons (key k : String) (held : α) (rest : Entries α) :
    at? key ((k, held) :: rest) = if k = key then some held else at? key rest := by
  by_cases same : k = key <;> simp [at?, same]

@[simp] theorem at?_put (key k : String) (held : α) (entries : Entries α) :
    at? k (put key held entries) = if key = k then some held else at? k entries := by
  induction entries with
  | nil => simp [put, at?_cons]
  | cons entry rest ih =>
    obtain ⟨old, was⟩ := entry
    by_cases same : old = key
    · subst same
      by_cases asked : old = k <;> simp [put, at?_cons, asked]
    · by_cases asked : old = k
      · subst asked
        simp [put, at?_cons, same, Ne.symm same]
      · simp [put, at?_cons, same, asked, ih]

end Entries

namespace Toml

open Members

theorem at?_closeAll (key : String) (members : Members) :
    Entries.at? key (closeAll members) = (members.at? key).map Node.close := by
  induction members with
  | nil => rfl
  | cons entry rest ih =>
    obtain ⟨k, node⟩ := entry
    by_cases same : k = key <;> simp [closeAll, Entries.at?_cons, same, ih]

/-! ## One change -/

section

variable {way : Way} {last : Option Node → Option Node} {inside : Members → Option Members}
  {key next : String} {rest : List String} {members changed : Members}

theorem change_one : change way last [key] members = some changed ↔
    ∃ node, last (members.at? key) = some node ∧ members.put key node = changed := by
  simp [change]

theorem change_more : change way last (key :: next :: rest) members = some changed ↔
    ∃ inner held inner', way (members.at? key) = some (inner, held) ∧
      change way last (next :: rest) inner = some inner' ∧
          members.put key (held inner') = changed := by
  simp only [change, Option.bind_eq_bind, Option.bind_eq_some_iff, Prod.exists,
    Option.pure_def, Option.some.injEq]
  constructor
  · rintro ⟨inner, held, found, inner', grown, rfl⟩
    exact ⟨inner, held, inner', found, grown, rfl⟩
  · rintro ⟨inner, held, inner', found, grown, rfl⟩
    exact ⟨inner, held, found, inner', grown, rfl⟩

theorem within_cons : within way inside (key :: rest) members = some changed ↔
    ∃ inner held inner', way (members.at? key) = some (inner, held) ∧
      within way inside rest inner = some inner' ∧ members.put key (held inner') = changed := by
  simp only [within, Option.bind_eq_bind, Option.bind_eq_some_iff, Prod.exists,
    Option.pure_def, Option.some.injEq]
  constructor
  · rintro ⟨inner, held, found, inner', grown, rfl⟩
    exact ⟨inner, held, inner', found, grown, rfl⟩
  · rintro ⟨inner, held, inner', found, grown, rfl⟩
    exact ⟨inner, held, found, inner', grown, rfl⟩

theorem extend_assignment {current path : List String} {value : Value} :
    members.extend current (.assignment path value) = some changed ↔
      value.clashes = false ∧ members.assignIn current path value = some changed := by
  cases clashes : value.clashes <;> simp [Members.extend, clashes]

end

/-! ## Leaving out assignments -/

/-- What a key holds in a document of which assignments were left out, next to what it holds in the
whole. A table that is missing was made by dotted keys. -/
inductive Thinner : Option Node → Option Node → Prop
  | absent : Thinner none none
  | value {v w : Value} : Thinner (some (.value v)) (some (.value w))
  | table {fixed dotted fixed' dotted' : Bool} {part whole : Members}
      (narrower : fixed = true → fixed' = true)
      (closing : (fixed || dotted) = true → (fixed' || dotted') = true)
      (inner : ∀ key, Thinner (part.at? key) (whole.at? key)) :
      Thinner (some (.table fixed dotted part)) (some (.table fixed' dotted' whole))
  | tables {closed closed' : List Members} {part whole : Members}
      (inner : ∀ key, Thinner (part.at? key) (whole.at? key)) :
      Thinner (some (.tables closed part)) (some (.tables closed' whole))
  | lostValue {v : Value} : Thinner none (some (.value v))
  | lostTable {fixed dotted : Bool} {whole : Members} (made : (fixed || dotted) = true)
      (inner : ∀ key, Thinner none (whole.at? key)) :
      Thinner none (some (.table fixed dotted whole))

/-- The members are what is left of others when assignments are left out. -/
def Thin (part whole : Members) : Prop := ∀ key, Thinner (part.at? key) (whole.at? key)

theorem thin_nil : Thin [] [] := fun _ => .absent

theorem Thin.put {part whole : Members} (thin : Thin part whole) (key : String) {node node' : Node}
    (held : Thinner (some node) (some node')) : Thin (part.put key node) (whole.put key node') := by
  intro k
  by_cases same : key = k
  · simpa [same] using held
  · simpa [same] using thin k

/-- What the whole gets at a key may be left out. -/
theorem Thin.put_right {part whole : Members} (thin : Thin part whole) {key : String} {node : Node}
    (held : Thinner (part.at? key) (some node)) : Thin part (whole.put key node) := by
  intro k
  by_cases same : key = k
  · subst same
    simpa using held
  · simpa [same] using thin k

/-- Closing tables keeps apart what was left out. -/
theorem Thinner.close {a b : Option Node} (thinner : Thinner a b) :
    Thinner (a.map Node.close) (b.map Node.close) := by
  induction thinner with
  | absent => exact .absent
  | value => exact .value
  | table narrower closing inner ih =>
    refine .table closing (by simpa using closing) fun key => ?_
    rw [at?_closeAll, at?_closeAll]
    exact ih key
  | tables inner ih =>
    refine .tables fun key => ?_
    rw [at?_closeAll, at?_closeAll]
    exact ih key
  | lostValue => exact .lostValue
  | lostTable made inner ih =>
    refine .lostTable (by simpa using made) fun key => ?_
    rw [at?_closeAll]
    exact ih key

theorem Thin.close {part whole : Members} (thin : Thin part whole) :
    Thin (closeAll part) (closeAll whole) := by
  intro key
  rw [at?_closeAll, at?_closeAll]
  exact (thin key).close

/-- A way that leads into the whole leads into what is left as well. -/
def KeepsWay (way : Way) : Prop :=
  ∀ {a b : Option Node} {inner : Members} {held : Members → Node}, Thinner a b →
    way b = some (inner, held) →
    ∃ inner' held', way a = some (inner', held') ∧ Thin inner' inner ∧
      ∀ {part whole}, Thin part whole → Thinner (some (held' part)) (some (held whole))

theorem keepsWay_byDots : KeepsWay byDots := by
  intro a b inner held thinner found
  cases thinner with
  | absent =>
    cases found
    exact ⟨_, _, rfl, thin_nil, fun thin => .table id id thin⟩
  | value => cases found
  | tables => cases found
  | lostValue => cases found
  | @table fixed dotted fixed' dotted' _ _ narrower closing thin =>
    cases fixed' with
    | true => cases found
    | false =>
      -- what is left is not fixed either
      obtain rfl : fixed = false := by simpa using narrower
      cases found
      exact ⟨_, _, rfl, thin, fun thin => .table id closing thin⟩
  | @lostTable fixed dotted _ made thin =>
    cases fixed with
    | true => cases found
    | false =>
      cases found
      exact ⟨_, _, rfl, thin, fun thin => .table id (fun _ => made) thin⟩

theorem keepsWay_byHeaders : KeepsWay byHeaders := by
  intro a b inner held thinner found
  cases thinner with
  | absent =>
    cases found
    exact ⟨_, _, rfl, thin_nil, fun thin => .table id id thin⟩
  | value => cases found
  | lostValue => cases found
  | table narrower closing thin =>
    cases found
    exact ⟨_, _, rfl, thin, fun thin => .table narrower closing thin⟩
  | tables thin =>
    cases found
    exact ⟨_, _, rfl, thin, fun thin => .tables thin⟩
  | lostTable made thin =>
    cases found
    exact ⟨_, _, rfl, thin, fun thin => .table (by simp) (by simp) thin⟩

/-- What can be done at a key of the whole can be done at that key of what is left. -/
def KeepsLast (last : Option Node → Option Node) : Prop :=
  ∀ {a b : Option Node} {node : Node}, Thinner a b → last b = some node →
    ∃ node', last a = some node' ∧ Thinner (some node') (some node)

theorem keepsLast_newValue (value : Value) : KeepsLast (newValue value) := by
  intro a b node thinner done
  cases thinner with
  | absent =>
    cases done
    exact ⟨_, rfl, .value⟩
  | _ => cases done

theorem keepsLast_newTable : KeepsLast newTable := by
  intro a b node thinner done
  cases thinner with
  | absent =>
    cases done
    exact ⟨_, rfl, .table id id thin_nil⟩
  | value => cases done
  | tables => cases done
  | lostValue => cases done
  | @table fixed dotted fixed' dotted' _ _ narrower closing thin =>
    cases fixed' with
    | true => cases done
    | false =>
      obtain rfl : fixed = false := by simpa using narrower
      cases done
      exact ⟨_, rfl, .table id (by simp) thin⟩
  | @lostTable fixed dotted _ made thin =>
    cases fixed with
    | true => cases done
    | false =>
      cases done
      exact ⟨_, rfl, .table id (by simp) thin⟩

theorem keepsLast_newItem : KeepsLast newItem := by
  intro a b node thinner done
  cases thinner with
  | absent =>
    cases done
    exact ⟨_, rfl, .tables thin_nil⟩
  | tables thin =>
    cases done
    exact ⟨_, rfl, .tables thin_nil⟩
  | _ => cases done

/-- A change of the whole can be made in what is left. -/
theorem Thin.change {way : Way} {last : Option Node → Option Node} (keepsWay : KeepsWay way)
    (keepsLast : KeepsLast last) {path : List String} {part whole whole' : Members}
    (thin : Thin part whole) (changed : change way last path whole = some whole') :
    ∃ part', Members.change way last path part = some part' ∧ Thin part' whole' := by
  induction path generalizing part whole whole' with
  | nil => cases changed
  | cons key rest ih =>
    cases rest with
    | nil =>
      obtain ⟨node, done, rfl⟩ := change_one.mp changed
      obtain ⟨node', done', held⟩ := keepsLast (thin key) done
      exact ⟨_, change_one.mpr ⟨node', done', rfl⟩, thin.put key held⟩
    | cons next rest =>
      obtain ⟨inner, held, inner', found, grown, rfl⟩ := change_more.mp changed
      obtain ⟨part₁, held', found', below, holds⟩ := keepsWay (thin key) found
      obtain ⟨part₂, grown', below'⟩ := ih below grown
      exact ⟨_, change_more.mpr ⟨part₁, held', part₂, found', grown', rfl⟩,
        thin.put key (holds below')⟩

theorem Thin.within {way : Way} {inside : Members → Option Members} (keepsWay : KeepsWay way)
    (keeps : ∀ {part whole whole'}, Thin part whole → inside whole = some whole' →
      ∃ part', inside part = some part' ∧ Thin part' whole')
    {path : List String} {part whole whole' : Members} (thin : Thin part whole)
    (changed : within way inside path whole = some whole') :
    ∃ part', Members.within way inside path part = some part' ∧ Thin part' whole' := by
  induction path generalizing part whole whole' with
  | nil => exact keeps thin changed
  | cons key rest ih =>
    obtain ⟨inner, held, inner', found, grown, rfl⟩ := within_cons.mp changed
    obtain ⟨part₁, held', found', below, holds⟩ := keepsWay (thin key) found
    obtain ⟨part₂, grown', below'⟩ := ih below grown
    exact ⟨_, within_cons.mpr ⟨part₁, held', part₂, found', grown', rfl⟩,
      thin.put key (holds below')⟩

/-- Every part that fits into the whole fits into what is left. -/
theorem Thin.extend {current : List String} {part whole whole' : Members} {e : Expression}
    (thin : Thin part whole) (fits : whole.extend current e = some whole') :
    ∃ part', part.extend current e = some part' ∧ Thin part' whole' := by
  cases e with
  | assignment path value =>
    obtain ⟨sound, fits⟩ := extend_assignment.mp fits
    obtain ⟨part', fits', thin'⟩ := thin.within keepsWay_byHeaders
      (fun thin => thin.change keepsWay_byDots (keepsLast_newValue value)) fits
    exact ⟨part', extend_assignment.mpr ⟨sound, fits'⟩, thin'⟩
  | header path => exact thin.close.change keepsWay_byHeaders keepsLast_newTable fits
  | item path => exact thin.close.change keepsWay_byHeaders keepsLast_newItem fits

/-- Headers have led to a path. -/
def Opened : List String → Members → Prop
  | [], _ => True
  | key :: rest, members => ∃ node inner held, members.at? key = some node ∧
      byHeaders (some node) = some (inner, held) ∧ Opened rest inner

/-- A way by headers leads back to where it has led. -/
theorem byHeaders_held {a : Option Node} {inner : Members} {held : Members → Node}
    (found : byHeaders a = some (inner, held)) (members : Members) :
    byHeaders (some (held members)) = some (members, held) := by
  cases a with
  | none =>
    cases found
    rfl
  | some node =>
    cases node <;> cases found <;> rfl

theorem opened_of_within {inside : Members → Option Members} {path : List String}
    {members changed : Members} (done : within byHeaders inside path members = some changed) :
    Opened path changed := by
  induction path generalizing members changed with
  | nil => trivial
  | cons key rest ih =>
    obtain ⟨inner, held, inner', found, grown, rfl⟩ := within_cons.mp done
    exact ⟨held inner', inner', held, by simp, byHeaders_held found inner', ih grown⟩

theorem opened_of_change {last : Option Node → Option Node}
    (leads : ∀ {a node}, last a = some node →
      ∃ inner held, byHeaders (some node) = some (inner, held))
    {path : List String} {members changed : Members}
    (done : change byHeaders last path members = some changed) :
    Opened path changed := by
  induction path generalizing members changed with
  | nil => cases done
  | cons key rest ih =>
    cases rest with
    | nil =>
      obtain ⟨node, made, rfl⟩ := change_one.mp done
      obtain ⟨inner, held, found⟩ := leads made
      exact ⟨node, inner, held, by simp, found, trivial⟩
    | cons next rest =>
      obtain ⟨inner, held, inner', found, grown, rfl⟩ := change_more.mp done
      exact ⟨held inner', inner', held, by simp, byHeaders_held found inner', ih grown⟩

/-- Behind each part the open section is one to which headers have led. -/
theorem opened_of_extend {current : List String} {members members' : Members} {e : Expression}
    (fits : members.extend current e = some members') : Opened (e.opens current) members' := by
  cases e with
  | assignment path value => exact opened_of_within (extend_assignment.mp fits).2
  | header path =>
    refine opened_of_change (fun {a node} done => ?_) fits
    unfold newTable at done
    split at done <;> cases done <;> exact ⟨_, _, rfl⟩
  | item path =>
    refine opened_of_change (fun {a node} done => ?_) fits
    unfold newItem at done
    split at done <;> cases done <;> exact ⟨_, _, rfl⟩

/-- A value that is assigned by dotted keys may be left out. -/
theorem Thin.skip_assign {value : Value} {path : List String} {part whole whole' : Members}
    (thin : Thin part whole) (assigned : assign value path whole = some whole') :
    Thin part whole' := by
  unfold assign at assigned
  induction path generalizing part whole whole' with
  | nil => cases assigned
  | cons key rest ih =>
    cases rest with
    | nil =>
      obtain ⟨node, done, rfl⟩ := change_one.mp assigned
      refine thin.put_right ?_
      have held := thin key
      cases here : whole.at? key with
      | some node => simp [here, newValue] at done
      | none =>
        rw [here] at held done
        cases done
        cases absent : part.at? key with
        | none => exact .lostValue
        | some node =>
          rw [absent] at held
          cases held
    | cons next rest =>
      obtain ⟨inner, dotted, inner', found, grown, rfl⟩ := change_more.mp assigned
      refine thin.put_right ?_
      have held := thin key
      generalize part.at? key = a at held ⊢
      generalize whole.at? key = b at held found
      cases held with
      | absent =>
        cases found
        exact .lostTable rfl (ih thin_nil grown)
      | value => cases found
      | tables => cases found
      | lostValue => cases found
      | @table _ _ fixed' _ _ _ narrower closing below =>
        cases fixed' with
        | true => cases found
        | false =>
          cases found
          exact .table narrower closing (ih below grown)
      | @lostTable fixed' _ _ made below =>
        cases fixed' with
        | true => cases found
        | false =>
          cases found
          exact .lostTable made (ih (show Thin [] _ from below) grown)

/-- An assignment in a section to which headers have led may be left out. -/
theorem Thin.skip {value : Value} {current path : List String} {part whole whole' : Members}
    (thin : Thin part whole) (opened : Opened current part)
    (fits : whole.extend current (.assignment path value) = some whole') :
    Thin part whole' := by
  obtain ⟨-, assigned⟩ := extend_assignment.mp fits
  clear fits
  unfold assignIn at assigned
  induction current generalizing part whole whole' with
  | nil => exact thin.skip_assign assigned
  | cons key rest ih =>
    obtain ⟨node, inner₀, held₀, stands, leads, opened⟩ := opened
    obtain ⟨inner, held, inner', found, grown, rfl⟩ := within_cons.mp assigned
    refine thin.put_right ?_
    have below := thin key
    rw [stands] at below ⊢
    generalize whole.at? key = b at below found
    cases below with
    | value => cases found
    | table narrower closing below =>
      cases leads
      cases found
      exact .table narrower closing (ih below opened grown)
    | tables below =>
      cases leads
      cases found
      exact .tables (ih below opened grown)

/-! ## The table of a document -/

mutual

theorem Node.toValue_close : ∀ node : Node, node.close.toValue = node.toValue
  | .value _ => rfl
  | .table _ _ members => by
      rw [Node.close, Node.toValue, Node.toValue, membersToValue_closeAll members]
  | .tables _ last => by rw [Node.close, Node.toValue, Node.toValue, membersToValue_closeAll last]

theorem membersToValue_closeAll : ∀ members : List (String × Node),
    membersToValue (closeAll members) = membersToValue members
  | [] => rfl
  | (key, node) :: rest => by
    rw [closeAll, membersToValue, membersToValue, Node.toValue_close node,
      membersToValue_closeAll rest]

end

theorem at?_membersToValue (key : String) (members : Members) :
    Entries.at? key (membersToValue members) = (members.at? key).map Node.toValue := by
  induction members with
  | nil => rfl
  | cons entry rest ih =>
    obtain ⟨k, node⟩ := entry
    by_cases same : k = key <;> simp [membersToValue, Entries.at?_cons, same, ih]

theorem membersToValue_put (key : String) (node : Node) (members : Members) :
    membersToValue (members.put key node) =
      Entries.put key node.toValue (membersToValue members) := by
  induction members with
  | nil => rfl
  | cons entry rest ih =>
    obtain ⟨k, old⟩ := entry
    by_cases same : k = key <;> simp [membersToValue, Entries.put, same, ih]

theorem tablesToValue_concat (closed : List Members) (last : Members) :
    tablesToValue (closed ++ [last]) = tablesToValue closed ++ [.table (membersToValue last)] := by
  induction closed with
  | nil => rfl
  | cons first rest ih => simp [tablesToValue, ih]

/-- A table becomes another one at the end of a path, where `leaf` says what the last key holds from
then on. Tables on the path are made as needed, and a list of tables stands for its last one. -/
inductive Grows (leaf : Option Value → Option Value) :
    List String → Entries Value → Entries Value → Prop
  | last {key : String} {members : Entries Value} {value : Value}
      (given : leaf (members.at? key) = some value) :
      Grows leaf [key] members (members.put key value)
  | table {key : String} {rest : List String} {members inner inner' : Entries Value}
      (held : (members.at? key).getD (.table []) = .table inner)
        (below : Grows leaf rest inner inner') :
      Grows leaf (key :: rest) members (members.put key (.table inner'))
  | item {key : String} {rest : List String}
      {members inner inner' : Entries Value} {front : List Value}
      (held : members.at? key = some (.list (front ++ [.table inner])))
        (below : Grows leaf rest inner inner') :
      Grows leaf (key :: rest) members (members.put key (.list (front ++ [.table inner'])))

/-- What the last key holds when a part of a document has reached it. -/
def Expression.leaf : Expression → Option Value → Option Value
  | .assignment _ value, none => some value
  | .header _, none => some (.table [])
  | .header _, some (.table members) => some (.table members)
  | .item _, none => some (.list [.table []])
  | .item _, some (.list items) => some (.list (items ++ [.table []]))
  | _, _ => none

section

variable {path : List String} {value becomes : Value} {held : Option Value}

/-- A value is assigned only where there is none. -/
theorem leaf_assignment (given : (Expression.assignment path value).leaf held = some becomes) :
    held = none ∧ becomes = value := by
  cases held <;> cases given
  exact ⟨rfl, rfl⟩

/-- A header keeps the table that it finds. -/
theorem leaf_header (given : (Expression.header path).leaf held = some becomes) :
    ∃ members, becomes = .table members ∧ held.getD (.table []) = .table members := by
  cases held with
  | none =>
    cases given
    exact ⟨[], rfl, rfl⟩
  | some v =>
    cases v <;> cases given
    exact ⟨_, rfl, rfl⟩

/-- A further table of a list is its last one. -/
theorem leaf_item (given : (Expression.item path).leaf held = some becomes) :
    ∃ front members, becomes = .list (front ++ [.table members]) := by
  cases held with
  | none =>
    cases given
    exact ⟨[], [], rfl⟩
  | some v =>
    cases v <;> cases given
    exact ⟨_, _, rfl⟩

end

/-- The place that a part of a document reaches. -/
def Expression.place (current : List String) : Expression → List String
  | .assignment path _ => current ++ path
  | .header path => path
  | .item path => path

/-- Where a way leads: into a table, or into the last of a list of tables. -/
def Leads (way : Way) : Prop :=
  ∀ {a : Option Node} {inner : Members} {held : Members → Node}, way a = some (inner, held) →
    ((a.map Node.toValue).getD (.table []) = .table (membersToValue inner) ∧
      ∀ members, (held members).toValue = .table (membersToValue members)) ∨
    ∃ front, a.map Node.toValue = some (.list (front ++ [.table (membersToValue inner)])) ∧
      ∀ members, (held members).toValue = .list (front ++ [.table (membersToValue members)])

theorem leads_byDots : Leads byDots := by
  intro a inner held found
  unfold byDots at found
  split at found <;> cases found <;> exact .inl ⟨rfl, fun _ => rfl⟩

theorem leads_byHeaders : Leads byHeaders := by
  intro a inner held found
  unfold byHeaders at found
  split at found <;> cases found
  · exact .inl ⟨rfl, fun _ => rfl⟩
  · exact .inl ⟨rfl, fun _ => rfl⟩
  · exact .inr ⟨_, rfl, fun _ => rfl⟩

/-- One step further on a way. -/
theorem Grows.step {way : Way} (leads : Leads way) {leaf : Option Value → Option Value}
    {key : String} {rest : List String} {members inner inner' : Members} {held : Members → Node}
    (found : way (members.at? key) = some (inner, held))
    (below : Grows leaf rest (membersToValue inner) (membersToValue inner')) :
    Grows leaf (key :: rest) (membersToValue members)
      (membersToValue (members.put key (held inner'))) := by
  rw [membersToValue_put]
  rcases leads found with ⟨stands, becomes⟩ | ⟨front, stands, becomes⟩
  · rw [becomes]
    exact .table (by rw [at?_membersToValue, stands]) below
  · rw [becomes]
    exact .item (by rw [at?_membersToValue, stands]) below

theorem grows_of_change {way : Way} (leads : Leads way) {last : Option Node → Option Node}
    {leaf : Option Value → Option Value}
    (reads : ∀ {a node}, last a = some node → leaf (a.map Node.toValue) = some node.toValue)
    {path : List String} {members members' : Members}
    (changed : change way last path members = some members') :
    Grows leaf path (membersToValue members) (membersToValue members') := by
  induction path generalizing members members' with
  | nil => cases changed
  | cons key rest ih =>
    cases rest with
    | nil =>
      obtain ⟨node, made, rfl⟩ := change_one.mp changed
      rw [membersToValue_put]
      exact .last (by rw [at?_membersToValue, reads made])
    | cons next rest =>
      obtain ⟨inner, held, inner', found, grown, rfl⟩ := change_more.mp changed
      exact .step leads found (ih grown)

theorem grows_of_within {leaf : Option Value → Option Value} {inside : Members → Option Members}
    {current path : List String} {members members' : Members}
    (grows : ∀ {members members'}, inside members = some members' →
      Grows leaf path (membersToValue members) (membersToValue members'))
    (changed : within byHeaders inside current members = some members') :
    Grows leaf (current ++ path) (membersToValue members) (membersToValue members') := by
  induction current generalizing members members' with
  | nil => exact grows changed
  | cons key rest ih =>
    obtain ⟨inner, held, inner', found, grown, rfl⟩ := within_cons.mp changed
    exact .step leads_byHeaders found (ih grown)

/-- What one more part of a document does to its table. -/
theorem Members.extend_grows {current : List String} {members members' : Members} {e : Expression}
    (fits : members.extend current e = some members') :
    Grows e.leaf (e.place current) (membersToValue members) (membersToValue members') := by
  cases e with
  | assignment path value =>
    refine grows_of_within (grows_of_change leads_byDots fun {a node} made => ?_)
      (extend_assignment.mp fits).2
    unfold newValue at made
    split at made <;> cases made
    rfl
  | header path =>
    rw [← membersToValue_closeAll members]
    refine grows_of_change leads_byHeaders (fun {a node} made => ?_) fits
    unfold newTable at made
    split at made <;> cases made <;> rfl
  | item path =>
    rw [← membersToValue_closeAll members]
    refine grows_of_change leads_byHeaders (fun {a node} made => ?_) fits
    unfold newItem at made
    split at made <;> cases made
    · rfl
    · simp [Node.toValue, Expression.leaf, tablesToValue_concat, membersToValue]

end Toml

end JarMetrics
