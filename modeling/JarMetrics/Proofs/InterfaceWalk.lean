import JarMetrics.Metrics.Hierarchy

/-!
# The walk along interfaces finds the closure

`Resolves` says which class a name stands for in a list of classes, and `Leads` is the closure of
the interface edges between names. `Hierarchy.reachable` is a depth-first walk that is resumed for
one class after the other with the names it has met; `mem_reachable_iff` says that it finds exactly
what the closure contains.

Two facts carry the proof. What is found is what the names met so far stand for, and the interfaces
of a name that was met have been met or are still on the stack (`Walk.Consistent`). One step keeps
both, so the whole walk does (`consistent_follow`), and with an empty stack the names met are
closed.
-/

namespace JarMetrics.Hierarchy

/-! ## Names and what they stand for -/

/-- The class that a name stands for: the last one of that name. -/
def Resolves (records : List ClassRecord) (name : String) (r : ClassRecord) : Prop :=
  ∃ earlier later, records = earlier ++ r :: later ∧ r.name = name ∧
    ∀ other ∈ later, other.name ≠ name

theorem not_resolves_nil {name : String} {r : ClassRecord} : ¬ Resolves [] name r := by
  rintro ⟨earlier, later, whole, -⟩
  cases earlier <;> cases whole

/-- A class in front counts only if no later one has its name. -/
theorem resolves_cons_iff {first : ClassRecord} {records : List ClassRecord} {name : String}
    {r : ClassRecord} :
    Resolves (first :: records) name r ↔
      Resolves records name r ∨
      (r = first ∧ r.name = name ∧ ∀ other ∈ records, other.name ≠ name) := by
  constructor
  · rintro ⟨earlier, later, whole, named, last⟩
    cases earlier with
    | nil =>
      cases whole
      exact .inr ⟨rfl, named, last⟩
    | cons head earlier =>
      cases whole
      exact .inl ⟨earlier, later, rfl, named, last⟩
  · rintro (⟨earlier, later, rfl, named, last⟩ | ⟨rfl, named, last⟩)
    · exact ⟨first :: earlier, later, rfl, named, last⟩
    · exact ⟨[], records, rfl, named, last⟩

/-- Inserting classes one after the other leaves the last one of each name. -/
theorem getElem?_foldl_insert (records : List ClassRecord)
    (classes : Std.HashMap String ClassRecord) (name : String) (r : ClassRecord) :
    (records.foldl (fun classes r => classes.insert r.name r) classes)[name]? = some r ↔
      Resolves records name r ∨
      ((∀ other ∈ records, other.name ≠ name) ∧ classes[name]? = some r) := by
  induction records generalizing classes with
  | nil => simp [not_resolves_nil]
  | cons first records ih =>
    rw [List.foldl_cons, ih, resolves_cons_iff, Std.HashMap.getElem?_insert, List.forall_mem_cons]
    by_cases same : first.name = name
    · rw [if_pos (beq_iff_eq.mpr same)]
      constructor
      · rintro (later | ⟨last, found⟩)
        · exact .inl (.inl later)
        · cases found
          exact .inl (.inr ⟨rfl, same, last⟩)
      · rintro ((later | ⟨rfl, -, last⟩) | ⟨⟨other, -⟩, -⟩)
        · exact .inl later
        · exact .inr ⟨last, rfl⟩
        · exact absurd same other
    · rw [if_neg fun equal => same (beq_iff_eq.mp equal)]
      constructor
      · rintro (later | ⟨last, found⟩)
        · exact .inl (.inl later)
        · exact .inr ⟨⟨same, last⟩, found⟩
      · rintro ((later | ⟨rfl, named, -⟩) | ⟨⟨-, last⟩, found⟩)
        · exact .inl later
        · exact absurd named same
        · exact .inr ⟨last, found⟩

theorem lookup_ofList_iff {records : List ClassRecord} {name : String} {r : ClassRecord} :
    (ofList records).lookup name = some r ↔ Resolves records name r := by
  refine (getElem?_foldl_insert records ∅ name r).trans ?_
  simp

/-! ## The closure -/

/-- Zero or more interface edges lead from one name to another. -/
inductive Leads (records : List ClassRecord) (start : String) : String → Prop
  | here : Leads records start start
  | next {middle name : String} {i : ClassRecord} :
      Leads records start middle → Resolves records middle i → name ∈ i.interfaces →
      Leads records start name

/-- One or more interface edges lead from a class to a name. -/
def Reaches (records : List ClassRecord) (c : ClassRecord) (name : String) : Prop :=
  ∃ start ∈ c.interfaces, Leads records start name

/-- An edge may also come first. -/
theorem Leads.before {records : List ClassRecord} {first start name : String} {i : ClassRecord}
    (resolved : Resolves records first i) (listed : start ∈ i.interfaces)
    (leads : Leads records start name) :
    Leads records first name := by
  induction leads with
  | here => exact .next .here resolved listed
  | next _ found further ih => exact .next ih found further

/-! ## The walk -/

variable {records : List ClassRecord} {stack : List String} {walk : Walk}

/-- What is found are the classes of the names met, and their interfaces are met or on the stack. -/
structure Walk.Consistent (records : List ClassRecord) (stack : List String) (walk : Walk) :
    Prop where
  found : ∀ i, i ∈ walk.found ↔ ∃ name ∈ walk.seen, Resolves records name i
  closed : ∀ name ∈ walk.seen, ∀ i, Resolves records name i → ∀ next ∈ i.interfaces,
    next ∈ walk.seen ∨ next ∈ stack

theorem Resolves.unique {name : String} {r s : ClassRecord} (hr : Resolves records name r)
    (hs : Resolves records name s) : r = s := by
  have same := (lookup_ofList_iff.mpr hr).symm.trans (lookup_ofList_iff.mpr hs)
  injection same

/-- The name on top of the stack is about to be met, so it need not wait on the stack. -/
theorem Walk.Consistent.closed_pop {name seen next : String} {i : ClassRecord}
    (consistent : walk.Consistent records (name :: stack)) (member : seen ∈ walk.seen)
    (resolved : Resolves records seen i) (listed : next ∈ i.interfaces) :
    next ∈ name :: walk.seen ∨ next ∈ stack := by
  obtain already | waiting := consistent.closed seen member i resolved next listed
  · exact .inl (List.mem_cons_of_mem _ already)
  · obtain rfl | below := List.mem_cons.mp waiting
    · exact .inl List.mem_cons_self
    · exact .inr below

theorem Walk.Consistent.pop_met {name : String}
    (consistent : walk.Consistent records (name :: stack)) (met : name ∈ walk.seen) :
    walk.Consistent records stack := by
  refine ⟨consistent.found, fun seen member i resolved next listed => ?_⟩
  obtain metNow | below := consistent.closed_pop member resolved listed
  · obtain rfl | already := List.mem_cons.mp metNow
    · exact .inl met
    · exact .inl already
  · exact .inr below

theorem Walk.Consistent.pop_missing {name : String}
    (consistent : walk.Consistent records (name :: stack))
    (missing : ∀ i, ¬ Resolves records name i) :
    Walk.Consistent records stack { walk with seen := name :: walk.seen } := by
  constructor
  · intro i
    rw [consistent.found i]
    constructor
    · rintro ⟨seen, member, resolved⟩
      exact ⟨seen, List.mem_cons_of_mem _ member, resolved⟩
    · rintro ⟨seen, member, resolved⟩
      obtain rfl | member := List.mem_cons.mp member
      · exact absurd resolved (missing i)
      · exact ⟨seen, member, resolved⟩
  · intro seen member i resolved next listed
    obtain rfl | member := List.mem_cons.mp member
    · exact absurd resolved (missing i)
    · exact consistent.closed_pop member resolved listed

theorem Walk.Consistent.pop_resolved {name : String} {r : ClassRecord}
    (consistent : walk.Consistent records (name :: stack)) (resolves : Resolves records name r) :
    Walk.Consistent records (r.interfaces ++ stack)
      { seen := name :: walk.seen, found := r :: walk.found } := by
  constructor
  · intro i
    rw [List.mem_cons, consistent.found i]
    constructor
    · rintro (rfl | ⟨seen, member, resolved⟩)
      · exact ⟨name, List.mem_cons_self, resolves⟩
      · exact ⟨seen, List.mem_cons_of_mem _ member, resolved⟩
    · rintro ⟨seen, member, resolved⟩
      obtain rfl | member := List.mem_cons.mp member
      · exact .inl (resolved.unique resolves)
      · exact .inr ⟨seen, member, resolved⟩
  · intro seen member i resolved next listed
    obtain rfl | member := List.mem_cons.mp member
    · -- the name itself was just met, and all its interfaces were pushed
      cases resolved.unique resolves
      exact .inr (List.mem_append_left _ listed)
    · obtain met | below := consistent.closed_pop member resolved listed
      · exact .inl met
      · exact .inr (List.mem_append_right _ below)

theorem missing_of_lookup {name : String} (noneFound : (ofList records).lookup name = none)
    (i : ClassRecord) :
    ¬ Resolves records name i := by
  intro resolved
  rw [lookup_ofList_iff.mpr resolved] at noneFound
  cases noneFound

/-- The whole walk keeps what each step keeps. -/
theorem consistent_follow (consistent : walk.Consistent records stack) :
    ((ofList records).follow stack walk).Consistent records [] := by
  fun_induction follow (ofList records) stack walk with
  | case1 walk => exact consistent
  | case2 walk name stack met ih => exact ih (consistent.pop_met met)
  | case3 walk name stack fresh noneFound _ ih =>
    exact ih (consistent.pop_missing (missing_of_lookup noneFound))
  | case4 walk name stack fresh r resolved _ ih =>
    exact ih (consistent.pop_resolved (lookup_ofList_iff.mp resolved))

/-- Names that were met stay met. -/
theorem mem_seen_follow_of_mem {name : String} (h : Hierarchy) (met : name ∈ walk.seen) :
    name ∈ (h.follow stack walk).seen := by
  fun_induction follow h stack walk with
  | case1 walk => exact met
  | case2 walk other stack _ ih => exact ih met
  | case3 walk other stack _ _ _ ih => exact ih (List.mem_cons_of_mem _ met)
  | case4 walk other stack _ r _ _ ih => exact ih (List.mem_cons_of_mem _ met)

/-- Every name on the stack is met in the end. -/
theorem mem_seen_follow_of_mem_stack {name : String} (h : Hierarchy) (waiting : name ∈ stack) :
    name ∈ (h.follow stack walk).seen := by
  fun_induction follow h stack walk with
  | case1 walk => nomatch waiting
  | case2 walk other stack met ih =>
    obtain rfl | below := List.mem_cons.mp waiting
    · exact mem_seen_follow_of_mem h met
    · exact ih below
  | case3 walk other stack _ _ _ ih =>
    obtain rfl | below := List.mem_cons.mp waiting
    · exact mem_seen_follow_of_mem h List.mem_cons_self
    · exact ih below
  | case4 walk other stack _ r _ _ ih =>
    obtain rfl | below := List.mem_cons.mp waiting
    · exact mem_seen_follow_of_mem h List.mem_cons_self
    · exact ih (List.mem_append_right _ below)

/-- No name is met that the stack does not lead to. -/
theorem leads_of_mem_seen_follow {name : String}
    (member : name ∈ ((ofList records).follow stack walk).seen) :
    name ∈ walk.seen ∨ ∃ start ∈ stack, Leads records start name := by
  fun_induction follow (ofList records) stack walk with
  | case1 walk => exact .inl member
  | case2 walk other stack met ih =>
    obtain already | ⟨start, below, leads⟩ := ih member
    · exact .inl already
    · exact .inr ⟨start, List.mem_cons_of_mem _ below, leads⟩
  | case3 walk other stack _ _ _ ih =>
    obtain already | ⟨start, below, leads⟩ := ih member
    · obtain rfl | already := List.mem_cons.mp already
      · exact .inr ⟨name, List.mem_cons_self, .here⟩
      · exact .inl already
    · exact .inr ⟨start, List.mem_cons_of_mem _ below, leads⟩
  | case4 walk other stack _ r resolved _ ih =>
    obtain already | ⟨start, waiting, leads⟩ := ih member
    · obtain rfl | already := List.mem_cons.mp already
      · exact .inr ⟨name, List.mem_cons_self, .here⟩
      · exact .inl already
    · -- an interface of `other` is one edge further than `other`, which was on the stack
      obtain listed | below := List.mem_append.mp waiting
      · exact .inr ⟨other, List.mem_cons_self, leads.before (lookup_ofList_iff.mp resolved) listed⟩
      · exact .inr ⟨start, List.mem_cons_of_mem _ below, leads⟩

/-- With nothing left on the stack, the names met are closed under interface edges. -/
theorem Walk.Consistent.mem_seen_of_leads {start name : String}
    (consistent : walk.Consistent records []) (met : start ∈ walk.seen)
    (leads : Leads records start name) : name ∈ walk.seen := by
  induction leads with
  | here => exact met
  | next _ resolved listed ih =>
    obtain already | waiting := consistent.closed _ ih _ resolved _ listed
    · exact already
    · nomatch waiting

/-- A walk with an empty stack may be resumed with any other. -/
theorem Walk.Consistent.resume (consistent : walk.Consistent records []) (stack : List String) :
    walk.Consistent records stack := by
  refine ⟨consistent.found, fun seen member i resolved next listed => ?_⟩
  obtain already | waiting := consistent.closed seen member i resolved next listed
  · exact .inl already
  · nomatch waiting

theorem consistent_followAll (classes : List ClassRecord)
    (consistent : walk.Consistent records []) :
    ((ofList records).followAll classes walk).Consistent records [] := by
  induction classes generalizing walk with
  | nil => exact consistent
  | cons c classes ih => exact ih (consistent_follow (consistent.resume c.interfaces))

/-- The names met are those that some class reaches. -/
theorem mem_seen_followAll_iff {name : String} (classes : List ClassRecord)
    (consistent : walk.Consistent records []) :
    name ∈ ((ofList records).followAll classes walk).seen ↔
      name ∈ walk.seen ∨ ∃ c ∈ classes, Reaches records c name := by
  induction classes generalizing walk with
  | nil => simp [followAll]
  | cons c classes ih =>
    have resumed := consistent_follow (consistent.resume c.interfaces)
    refine (ih resumed).trans ?_
    constructor
    · rintro (member | ⟨d, later, reaches⟩)
      · obtain already | reaches := leads_of_mem_seen_follow member
        · exact .inl already
        · exact .inr ⟨c, List.mem_cons_self, reaches⟩
      · exact .inr ⟨d, List.mem_cons_of_mem _ later, reaches⟩
    · rintro (already | ⟨d, member, reaches⟩)
      · exact .inl (mem_seen_follow_of_mem _ already)
      · obtain rfl | later := List.mem_cons.mp member
        · obtain ⟨start, listed, leads⟩ := reaches
          exact .inl (resumed.mem_seen_of_leads (mem_seen_follow_of_mem_stack _ listed) leads)
        · exact .inr ⟨d, later, reaches⟩

theorem Walk.consistent_empty (records : List ClassRecord) : Walk.Consistent records [] {} :=
  ⟨fun _ => ⟨fun member => (nomatch member), fun ⟨_, member, _⟩ => (nomatch member)⟩,
    fun _ member => nomatch member⟩

/-- The walk finds the classes of exactly those names that interface edges lead to. -/
theorem mem_reachable_iff {starts : List ClassRecord} {i : ClassRecord} :
    i ∈ (ofList records).reachable starts ↔
      ∃ c ∈ starts, ∃ name, Reaches records c name ∧ Resolves records name i := by
  have fresh := Walk.consistent_empty records
  unfold reachable
  rw [(consistent_followAll starts fresh).found]
  constructor
  · rintro ⟨name, member, resolved⟩
    obtain member | ⟨c, start, reaches⟩ := (mem_seen_followAll_iff starts fresh).mp member
    · nomatch member
    · exact ⟨c, start, name, reaches, resolved⟩
  · rintro ⟨c, start, name, reaches, resolved⟩
    exact ⟨name, (mem_seen_followAll_iff starts fresh).mpr (.inr ⟨c, start, reaches⟩), resolved⟩

end JarMetrics.Hierarchy
