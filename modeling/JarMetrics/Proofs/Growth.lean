import JarMetrics.Proofs.Ascent

/-!
# Figures grow with the archive

When more of an archive is decoded, the figures of the classes decoded before do not shrink
(`figures_grow`): a class gets deeper or stays where it is, what it can override remains, and it
overrides at least as many methods.

All of it comes from one relation between two lists of classes, `Extends`: every name that stands
for a class keeps standing for it. The superclass chain in the smaller list is then the front of the
one in the larger list (`superChain_isPrefix_of_extends`), since a chain is cut short by names that
stand for nothing and by no others that a new class could change; and interface edges only become
more.
-/

namespace JarMetrics.Hierarchy

variable {records larger : List ClassRecord}

/-- Every name that stands for a class in `records` stands for the same class in `larger`. -/
def Extends (larger records : List ClassRecord) : Prop :=
  ∀ name r, Resolves records name r → Resolves larger name r

/-- A class with a new name may be inserted anywhere. -/
theorem extends_insert {front back : List ClassRecord} {extra : ClassRecord}
    (new : ∀ c ∈ front ++ back, c.name ≠ extra.name) :
    Extends (front ++ extra :: back) (front ++ back) := by
  intro name r resolved
  induction front with
  | nil => exact resolves_cons_iff.mpr (.inl resolved)
  | cons first front ih =>
    rcases resolves_cons_iff.mp resolved with later | ⟨rfl, named, last⟩
    · have behind := ih (fun c member => new c (List.mem_cons_of_mem _ member)) later
      exact resolves_cons_iff.mpr (.inl behind)
    · -- the first class is still the last of its name, because the inserted one has another name
      refine resolves_cons_iff.mpr (.inr ⟨rfl, named, ?_⟩)
      intro other member
      rcases List.mem_append.mp member with ahead | behind
      · exact last other (List.mem_append_left _ ahead)
      · rcases List.mem_cons.mp behind with rfl | behind
        · rw [← named]
          exact (new r List.mem_cons_self).symm
        · exact last other (List.mem_append_right _ behind)

/-! ## Superclasses -/

/-- The chain goes the same way as far as it went before, and may go on from there. -/
theorem SuperChain.extended (grown : Extends larger records) {seen : List String} {r : ClassRecord}
    {chain : List ClassRecord} (followed : SuperChain records seen r chain) :
    ∃ more, SuperChain larger seen r (chain ++ more) := by
  induction followed with
  | @stop seen r ended => exact ⟨_, superChain_superChainFrom seen r⟩
  | up present below fresh resolved _ ih =>
    obtain ⟨more, later⟩ := ih
    exact ⟨more, .up present below fresh (grown _ _ resolved) later⟩

theorem superChain_isPrefix_of_extends (grown : Extends larger records) (r : ClassRecord) :
    (ofList records).superChain r <+: (ofList larger).superChain r := by
  have followed : SuperChain records [r.name] r ((ofList records).superChain r) :=
    superChain_superChainFrom [r.name] r
  obtain ⟨more, extended⟩ := followed.extended grown
  exact ⟨more, extended.unique (superChain_superChainFrom [r.name] r)⟩

theorem depth_le (grown : Extends larger records) (r : ClassRecord) :
    (ofList records).depth r ≤ (ofList larger).depth r :=
  Nat.add_le_add_left (superChain_isPrefix_of_extends grown r).length_le 1

/-! ## Interfaces and methods -/

theorem Leads.extended (grown : Extends larger records) {start name : String}
    (leads : Leads records start name) :
    Leads larger start name := by
  induction leads with
  | here => exact .here
  | next _ resolved listed ih => exact .next ih (grown _ _ resolved) listed

theorem Reaches.extended (grown : Extends larger records) {c : ClassRecord} {name : String}
    (reaches : Reaches records c name) : Reaches larger c name := by
  obtain ⟨start, listed, leads⟩ := reaches
  exact ⟨start, listed, leads.extended grown⟩

theorem Inheritable.extended (grown : Extends larger records) {r : ClassRecord} {s : Signature}
    (inherited : Inheritable records r s) : Inheritable larger r s := by
  obtain ⟨chain, followed, source⟩ := inherited
  obtain ⟨more, extended⟩ := followed.extended grown
  refine ⟨chain ++ more, extended, ?_⟩
  rcases source with root | ⟨c, member, declared⟩ | ⟨c, start, name, i, reaches, resolved, declared⟩
  · exact .inl root
  · exact .inr (.inl ⟨c, List.mem_append_left _ member, declared⟩)
  · have longer : c ∈ r :: (chain ++ more) := List.mem_append_left more start
    exact .inr (.inr ⟨c, longer, name, i, reaches.extended grown, grown _ _ resolved, declared⟩)

theorem inheritable_subset (grown : Extends larger records) (r : ClassRecord) :
    (ofList records).inheritable r ⊆ (ofList larger).inheritable r := by
  intro s inherited
  rw [mem_inheritable_iff] at inherited ⊢
  exact inherited.extended grown

theorem overridden_le (grown : Extends larger records) (r : ClassRecord) :
    (ofList records).overridden r ≤ (ofList larger).overridden r := by
  unfold overridden
  split
  · exact Nat.le_refl 0
  · simp only [← List.countP_eq_length_filter]
    apply List.countP_mono_left
    intro s _ counted
    rw [Bool.and_eq_true, List.contains_iff_mem] at counted ⊢
    exact ⟨counted.1, inheritable_subset grown r counted.2⟩

/-! ## Inserting a class -/

/-- A further class whose name is new, wherever it is inserted, leaves every class as deep as it was
or makes it deeper, takes nothing from the methods that it can override, and none from those that it
does override. -/
theorem figures_grow (front back : List (Option ClassRecord)) (extra r : ClassRecord)
    (new : ∀ c, some c ∈ front ++ back → c.name ≠ extra.name) :
    (ofSparse (front ++ back)).depth r ≤ (ofSparse (front ++ some extra :: back)).depth r ∧
      (∀ s ∈ (ofSparse (front ++ back)).inheritable r,
        s ∈ (ofSparse (front ++ some extra :: back)).inheritable r) ∧
      (ofSparse (front ++ back)).overridden r ≤
        (ofSparse (front ++ some extra :: back)).overridden r := by
  have grown : Extends ((front ++ some extra :: back).filterMap id)
      ((front ++ back).filterMap id) := by
    rw [List.filterMap_append, List.filterMap_append]
    apply extends_insert
    intro c member
    rw [← List.filterMap_append] at member
    obtain ⟨place, listed, held⟩ := List.mem_filterMap.mp member
    cases held
    exact new c listed
  exact ⟨depth_le grown r, fun s inherited => inheritable_subset grown r inherited,
    overridden_le grown r⟩

/-- The further class completes the chain of another one and closes a cycle with it. -/
theorem figures_grow_cycle :
    let before := ofSparse ([some (runner "A" "B")] ++ [none])
    let after := ofSparse ([some (runner "A" "B")] ++ some (runner "B" "A") :: [none])
    before.depth (runner "A" "B") = 1 ∧ after.depth (runner "A" "B") = 2 ∧
      before.depth (runner "A" "B") ≤ after.depth (runner "A" "B") ∧
      (∀ s ∈ before.inheritable (runner "A" "B"), s ∈ after.inheritable (runner "A" "B")) ∧
      before.overridden (runner "A" "B") ≤ after.overridden (runner "A" "B") := by
  intro before after
  have alone : Ascent [runner "A" "B"] (runner "A" "B") [] :=
    { climbs := .singleton _
      fresh := by decide
      ends := fun s above => absurd (exists_resolves_iff.mp ⟨s, above.2.2⟩) (by decide) }
  have edge : Above [runner "A" "B", runner "B" "A"] (runner "A" "B") (runner "B" "A") :=
    ⟨by decide, by decide, [runner "A" "B"], [], rfl, rfl, by decide⟩
  have both : Ascent [runner "A" "B", runner "B" "A"] (runner "A" "B") [runner "B" "A"] :=
    { climbs := .cons_cons edge (.singleton _)
      fresh := by decide
      ends := by
        intro s above
        rw [above.name_eq]
        decide }
  have new : ∀ c, some c ∈ [some (runner "A" "B")] ++ [none] → c.name ≠ (runner "B" "A").name := by
    intro c member
    simp only [List.singleton_append, List.mem_cons, Option.some.injEq,
      reduceCtorEq, List.not_mem_nil, or_self, or_false] at member
    rw [member]
    decide
  exact ⟨alone.depth_eq, both.depth_eq, figures_grow _ _ _ _ new⟩

end JarMetrics.Hierarchy
