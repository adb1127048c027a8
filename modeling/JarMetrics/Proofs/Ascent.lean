import JarMetrics.Proofs.Inheritance
import Mathlib.Data.List.Perm.Subperm

/-!
# How deep a class stands

The depth of a class is the number of names on the way up from it (`depth_exact`). The way is a path
in the graph of superclass edges (`Above`) that meets no name twice and cannot be continued without
doing so (`Ascent`). There is exactly one such path from each class, and it is what the superclass
chain follows (`ascent_iff`).

A path may end in a cycle that its first class is not part of, and the first class need not be the
one that its name stands for. So the depth of a class is one more than that of its superclass only
if the path ends for another reason than a name that was met before.
-/

namespace JarMetrics.Hierarchy

variable {records : List ClassRecord}

/-! ## Paths -/

/-- The class right above `c` is the one that its superclass name stands for. Neither an empty name
nor the root type leads to a class. -/
def Above (records : List ClassRecord) (c s : ClassRecord) : Prop :=
  c.superName ≠ "" ∧ c.superName ≠ rootType ∧ Resolves records c.superName s

/-- The classes `above` are the way up from `r`: each is right above the one before, no two names on
the way are the same, and the class above the last one has a name that is on the way already, if
there is such a class. -/
structure Ascent (records : List ClassRecord) (r : ClassRecord) (above : List ClassRecord) :
    Prop where
  climbs : (r :: above).IsChain (Above records)
  fresh : ((r :: above).map (·.name)).Nodup
  ends : ∀ s, Above records (above.getLastD r) s → s.name ∈ (r :: above).map (·.name)

theorem Resolves.name_eq {name : String} {r : ClassRecord} (resolved : Resolves records name r) :
    r.name = name := by
  obtain ⟨earlier, later, whole, named, last⟩ := resolved
  exact named

theorem Resolves.mem {name : String} {r : ClassRecord} (resolved : Resolves records name r) :
    r ∈ records := by
  obtain ⟨earlier, later, whole, named, last⟩ := resolved
  rw [whole]
  exact List.mem_append_right _ List.mem_cons_self

theorem Above.name_eq {c s : ClassRecord} (above : Above records c s) : s.name = c.superName :=
  above.2.2.name_eq

/-- There is at most one class above another. -/
theorem Above.unique {c s t : ClassRecord} (first : Above records c s)
    (second : Above records c t) : s = t :=
  first.2.2.unique second.2.2

/-- A chain ends where the class above, if there is one, was met before. -/
theorem ended_iff {seen : List String} {c : ClassRecord} :
    (c.superName = "" ∨ c.superName = rootType ∨ c.superName ∈ seen ∨
      ∀ s, ¬ Resolves records c.superName s) ↔
      ∀ s, Above records c s → s.name ∈ seen := by
  constructor
  · intro ended s above
    rw [above.name_eq]
    rcases ended with empty | root | met | missing
    · exact absurd empty above.1
    · exact absurd root above.2.1
    · exact met
    · exact absurd above.2.2 (missing s)
  · intro met
    by_cases empty : c.superName = ""
    · exact .inl empty
    by_cases root : c.superName = rootType
    · exact .inr (.inl root)
    by_cases missing : ∀ s, ¬ Resolves records c.superName s
    · exact .inr (.inr (.inr missing))
    · obtain ⟨s, resolved⟩ := not_forall_not.mp missing
      have named := met s ⟨empty, root, resolved⟩
      rw [resolved.name_eq] at named
      exact .inr (.inr (.inl named))

/-- A superclass chain, said as a path: with the names in `seen` it stops at each of them, and at
its own. -/
theorem superChain_iff {seen : List String} {c : ClassRecord} {chain : List ClassRecord} :
    SuperChain records seen c chain ↔
      (c :: chain).IsChain (Above records) ∧ (chain.map (·.name)).Nodup ∧
      (∀ name ∈ chain.map (·.name), name ∉ seen) ∧
      ∀ s, Above records (chain.getLastD c) s → s.name ∈ seen ∨ s.name ∈ chain.map (·.name) := by
  induction chain generalizing seen c with
  | nil =>
    constructor
    · intro followed
      cases followed with
      | stop ended =>
        refine ⟨.singleton c, List.nodup_nil, ?_, ?_⟩
        · intro name member
          exact absurd member List.not_mem_nil
        · intro s above
          exact .inl (ended_iff.mp ended s above)
    · intro ⟨_, _, _, ends⟩
      refine .stop (ended_iff.mpr ?_)
      intro s above
      rcases ends s above with met | own
      · exact met
      · exact absurd own List.not_mem_nil
  | cons next rest ih =>
    rw [List.isChain_cons_cons, List.map_cons, List.nodup_cons, List.getLastD_cons]
    constructor
    · intro followed
      cases followed with
      | up present below fresh resolved later =>
        have named := resolved.name_eq
        obtain ⟨climbs, distinct, unmet, ends⟩ := ih.mp later
        refine ⟨⟨⟨present, below, resolved⟩, climbs⟩, ⟨?_, distinct⟩, ?_, ?_⟩
        · intro again
          exact unmet next.name again (named ▸ List.mem_cons_self)
        · intro name member met
          rcases List.mem_cons.mp member with rfl | member
          · exact fresh (named ▸ met)
          · exact unmet name member (List.mem_cons_of_mem _ met)
        · intro s above
          rcases ends s above with met | own
          · rcases List.mem_cons.mp met with same | met
            · exact .inr (List.mem_cons.mpr (.inl (same.trans named.symm)))
            · exact .inl met
          · exact .inr (List.mem_cons_of_mem _ own)
    · intro ⟨⟨above, climbs⟩, ⟨once, distinct⟩, unmet, ends⟩
      have named := above.name_eq
      refine .up above.1 above.2.1 ?_ above.2.2 (ih.mpr ⟨climbs, distinct, ?_, ?_⟩)
      · rw [← named]
        exact unmet next.name List.mem_cons_self
      · intro name member met
        rcases List.mem_cons.mp met with rfl | met
        · exact once (named ▸ member)
        · exact unmet name (List.mem_cons_of_mem _ member) met
      · intro s last
        rcases ends s last with met | own
        · exact .inl (List.mem_cons_of_mem _ met)
        · rcases List.mem_cons.mp own with same | own
          · exact .inl (List.mem_cons.mpr (.inl (same.trans named)))
          · exact .inr own

/-- The way up is the chain that starts with the name of the class itself. -/
theorem ascent_iff {r : ClassRecord} {above : List ClassRecord} :
    Ascent records r above ↔ SuperChain records [r.name] r above := by
  rw [superChain_iff]
  constructor
  · intro ⟨climbs, fresh, ends⟩
    obtain ⟨once, distinct⟩ := List.nodup_cons.mp fresh
    refine ⟨climbs, distinct, ?_, ?_⟩
    · intro name member met
      rw [List.mem_singleton.mp met] at member
      exact once member
    · intro s last
      rcases List.mem_cons.mp (ends s last) with same | later
      · exact .inl (List.mem_singleton.mpr same)
      · exact .inr later
  · intro ⟨climbs, distinct, unmet, ends⟩
    refine ⟨climbs, List.nodup_cons.mpr ⟨?_, distinct⟩, ?_⟩
    · intro member
      exact unmet r.name member (List.mem_singleton.mpr rfl)
    · intro s last
      rcases ends s last with met | later
      · exact List.mem_cons.mpr (.inl (List.mem_singleton.mp met))
      · exact List.mem_cons_of_mem _ later

theorem Ascent.unique {r : ClassRecord} {above other : List ClassRecord}
    (one : Ascent records r above) (two : Ascent records r other) : above = other :=
  (ascent_iff.mp one).unique (ascent_iff.mp two)

/-- What is computed is the way up. -/
theorem ascent_superChain (records : List ClassRecord) (r : ClassRecord) :
    Ascent records r ((ofList records).superChain r) :=
  ascent_iff.mpr (superChain_superChainFrom [r.name] r)

theorem Ascent.depth_eq {r : ClassRecord} {above : List ClassRecord}
    (ascent : Ascent records r above) :
    (ofList records).depth r = (r :: above).length := by
  rw [ascent.unique (ascent_superChain records r), List.length_cons, Nat.add_comm]
  rfl

/-- Without its first class the way up is that of the second class, unless the end is a name met
before: then the first class may have been what ended it. -/
theorem Ascent.tail {r next : ClassRecord} {rest : List ClassRecord}
    (ascent : Ascent records r (next :: rest))
    (unrepeated : ∀ s, ¬ Above records ((next :: rest).getLastD r) s) :
    Ascent records next rest where
  climbs := (List.isChain_cons_cons.mp ascent.climbs).2
  fresh := (List.nodup_cons.mp ascent.fresh).2
  ends s last := by
    rw [List.getLastD_cons] at unrepeated
    exact absurd last (unrepeated s)

/-! ## The number of names -/

/-- The names that stand for a class are the names of the classes. -/
theorem exists_resolves_iff {name : String} :
    (∃ s, Resolves records name s) ↔ ∃ c ∈ records, c.name = name := by
  constructor
  · intro ⟨s, resolved⟩
    exact ⟨s, resolved.mem, resolved.name_eq⟩
  · intro known
    induction records with
    | nil =>
      obtain ⟨c, listed, _⟩ := known
      exact absurd listed List.not_mem_nil
    | cons first records ih =>
      by_cases later : ∃ other ∈ records, other.name = name
      · obtain ⟨s, resolved⟩ := ih later
        exact ⟨s, resolves_cons_iff.mpr (.inl resolved)⟩
      · obtain ⟨c, listed, named⟩ := known
        rcases List.mem_cons.mp listed with rfl | behind
        · refine ⟨c, resolves_cons_iff.mpr (.inr ⟨rfl, named, ?_⟩)⟩
          intro other member same
          exact later ⟨other, member, same⟩
        · exact absurd ⟨c, behind, named⟩ later

/-- A list of distinct names that all stand for classes is no longer than the number of names in the
archive. -/
theorem length_le_size_of_nodup {names : List String} (distinct : names.Nodup)
    (known : ∀ name ∈ names, ∃ c ∈ records, c.name = name) :
    names.length ≤ (ofList records).size := by
  have among : names ⊆ (ofList records).classes.keys := by
    intro name member
    obtain ⟨s, resolved⟩ := exists_resolves_iff.mpr (known name member)
    have found : (ofList records).classes[name]? = some s := lookup_ofList_iff.mpr resolved
    rw [Std.HashMap.mem_keys, Std.HashMap.mem_iff_isSome_getElem?, found]
    rfl
  have bound := (List.subperm_of_subset distinct among).length_le
  rwa [Std.HashMap.length_keys] at bound

/-- The way up from a class of the archive stays in the archive. -/
theorem known_of_isChain {r : ClassRecord} {above : List ClassRecord}
    (climbs : (r :: above).IsChain (Above records)) (listed : r ∈ records) :
    ∀ c ∈ r :: above, ∃ d ∈ records, d.name = c.name := by
  induction above generalizing r with
  | nil =>
    intro c member
    rw [List.mem_singleton.mp member]
    exact ⟨r, listed, rfl⟩
  | cons next rest ih =>
    obtain ⟨above, later⟩ := List.isChain_cons_cons.mp climbs
    intro c member
    rcases List.mem_cons.mp member with rfl | member
    · exact ⟨c, listed, rfl⟩
    · exact ih later above.2.2.mem c member

theorem Ascent.length_le_size {r : ClassRecord} {above : List ClassRecord}
    (ascent : Ascent records r above) (listed : r ∈ records) :
    (r :: above).length ≤ (ofList records).size := by
  have known : ∀ name ∈ (r :: above).map (·.name), ∃ c ∈ records, c.name = name := by
    intro name member
    obtain ⟨c, onWay, rfl⟩ := List.mem_map.mp member
    exact known_of_isChain ascent.climbs listed c onWay
  have bound := length_le_size_of_nodup ascent.fresh known
  rwa [List.length_map] at bound

/-- A class is one deeper than the class above it, if no name is met again. -/
theorem Ascent.depth_of_above {r s : ClassRecord} {above : List ClassRecord}
    (ascent : Ascent records r above) (unrepeated : ∀ t, ¬ Above records (above.getLastD r) t)
    (edge : Above records r s) :
    (ofList records).depth r = 1 + (ofList records).depth s := by
  cases above with
  | nil => exact absurd edge (unrepeated s)
  | cons next rest =>
    obtain ⟨first, _⟩ := List.isChain_cons_cons.mp ascent.climbs
    cases first.unique edge
    rw [ascent.depth_eq, (ascent.tail unrepeated).depth_eq, List.length_cons, Nat.add_comm]

theorem Ascent.depth_of_top {r : ClassRecord} {above : List ClassRecord}
    (ascent : Ascent records r above) (noneAbove : ∀ s, ¬ Above records r s) :
    (ofList records).depth r = 1 := by
  cases above with
  | nil => exact ascent.depth_eq
  | cons next rest =>
    obtain ⟨first, _⟩ := List.isChain_cons_cons.mp ascent.climbs
    exact absurd first (noneAbove next)

/-- The depth of a class is the number of names on its way up, of which there is one: it follows
superclass names to the last class of each name until there is none, or until the next name was met
before. So the depth is at least 1 and at most the number of names in the archive. If no name is met
again, the depth is one more than that of the superclass, and 1 where there is none. -/
theorem depth_exact (records : List (Option ClassRecord)) (r : ClassRecord)
    (listed : some r ∈ records) :
    ∃ above, Ascent (records.filterMap id) r above ∧
      (∀ other, Ascent (records.filterMap id) r other → other = above) ∧
      (ofSparse records).depth r = ((r :: above).map (·.name)).length ∧
      1 ≤ (ofSparse records).depth r ∧ (ofSparse records).depth r ≤ (ofSparse records).size ∧
      ((∀ s, ¬ Above (records.filterMap id) (above.getLastD r) s) →
        (∀ s, Above (records.filterMap id) r s →
          (ofSparse records).depth r = 1 + (ofSparse records).depth s) ∧
        ((∀ s, ¬ Above (records.filterMap id) r s) → (ofSparse records).depth r = 1)) := by
  have present : r ∈ records.filterMap id := List.mem_filterMap.mpr ⟨some r, listed, rfl⟩
  have ascent := ascent_superChain (records.filterMap id) r
  have depth : (ofSparse records).depth r = _ := ascent.depth_eq
  refine ⟨_, ascent, fun other way => way.unique ascent, ?_, ?_, ?_, ?_⟩
  · rw [depth, List.length_map]
  · rw [depth]
    exact Nat.succ_pos _
  · rw [depth]
    exact ascent.length_le_size present
  · intro unrepeated
    exact ⟨fun s above => ascent.depth_of_above unrepeated above,
      fun noneAbove => ascent.depth_of_top noneAbove⟩

/-- Of the two classes with the name B the second counts, and the way up ends at a name that stands
for nothing. -/
theorem depth_exact_namesakes :
    let records :=
      [some (runner "C" "B"), none, some (runner "B" "C"), some (runner "B" "A"),
        some (runner "A" "X")]
    some (runner "C" "B") ∈ records ∧ (ofSparse records).depth (runner "C" "B") = 3 ∧
      (ofSparse records).depth (runner "C" "B") = 1 + (ofSparse records).depth (runner "B" "A") ∧
      3 ≤ (ofSparse records).size := by
  intro records
  have listed : some (runner "C" "B") ∈ records := List.mem_cons_self
  have second : Above (records.filterMap id) (runner "C" "B") (runner "B" "A") :=
    ⟨by decide, by decide, [runner "C" "B", runner "B" "C"], [runner "A" "X"], rfl, rfl, by decide⟩
  have third : Above (records.filterMap id) (runner "B" "A") (runner "A" "X") :=
    ⟨by decide, by decide, [runner "C" "B", runner "B" "C", runner "B" "A"],
      [], rfl, rfl, by decide⟩
  have top : ∀ s, ¬ Above (records.filterMap id) (runner "A" "X") s := by
    intro s above
    exact absurd (exists_resolves_iff.mp ⟨s, above.2.2⟩) (by decide)
  have way : Ascent (records.filterMap id) (runner "C" "B") [runner "B" "A", runner "A" "X"] :=
    { climbs := .cons_cons second (.cons_cons third (.singleton _))
      fresh := by decide
      ends := fun s above => absurd above (top s) }
  obtain ⟨above, _, unique, number, _, bound, law⟩ := depth_exact records (runner "C" "B") listed
  cases unique _ way
  rw [number] at bound
  exact ⟨listed, number, (law top).1 _ second, bound⟩

end JarMetrics.Hierarchy
