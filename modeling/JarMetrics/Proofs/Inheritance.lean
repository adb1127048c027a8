import JarMetrics.Proofs.InterfaceWalk
import Mathlib.Data.List.Forall2

/-!
# Inherited methods

What a class can override, said as a closure (`Inheritable`), and the proof that
`Hierarchy.inheritable` computes it and that `Hierarchy.overridden` counts it (`inheritable_exact`).
The classes may form cycles, refer to themselves or to names that stand for nothing, share names,
and be used as superclass and interface at once.

The superclass chain is a deterministic relation, `SuperChain`, that `Hierarchy.superChain` follows
to its end. The interfaces come from `mem_reachable_iff`.
-/

namespace JarMetrics.Hierarchy

/-! ## The superclass chain -/

/-- The classes above `r`, nearest first. The chain ends at an empty name, at the root type, at a
name that is on the chain already or at one that stands for nothing. -/
inductive SuperChain (records : List ClassRecord) :
    List String → ClassRecord → List ClassRecord → Prop
  | stop {seen : List String} {r : ClassRecord} :
      (r.superName = "" ∨ r.superName = rootType ∨ r.superName ∈ seen ∨
        ∀ c, ¬ Resolves records r.superName c) →
      SuperChain records seen r []
  | up {seen : List String} {r next : ClassRecord} {rest : List ClassRecord} :
      r.superName ≠ "" → r.superName ≠ rootType → r.superName ∉ seen →
      Resolves records r.superName next →
      SuperChain records (r.superName :: seen) next rest → SuperChain records seen r (next :: rest)

variable {records : List ClassRecord}

theorem superChain_superChainFrom (seen : List String) (r : ClassRecord) :
    SuperChain records seen r ((ofList records).superChainFrom seen r) := by
  fun_induction superChainFrom (ofList records) seen r with
  | case1 seen r stop =>
    refine .stop ?_
    obtain empty | root | met := stop
    · exact .inl empty
    · exact .inr (.inl root)
    · exact .inr (.inr (.inl met))
  | case2 seen r _ noneFound => exact .stop (.inr (.inr (.inr (missing_of_lookup noneFound))))
  | case3 seen r go next found _ ih =>
    obtain ⟨present, go⟩ := not_or.mp go
    obtain ⟨below, fresh⟩ := not_or.mp go
    exact .up present below fresh (lookup_ofList_iff.mp found) ih

/-- Where the chain goes on it does not end. -/
theorem not_ended {seen : List String} {r next : ClassRecord} (present : r.superName ≠ "")
    (below : r.superName ≠ rootType) (fresh : r.superName ∉ seen)
    (resolved : Resolves records r.superName next) :
    ¬ (r.superName = "" ∨ r.superName = rootType ∨ r.superName ∈ seen ∨
      ∀ c, ¬ Resolves records r.superName c) := by
  rintro (empty | root | met | missing)
  · exact present empty
  · exact below root
  · exact fresh met
  · exact missing next resolved

/-- There is only one chain. -/
theorem SuperChain.unique {seen : List String} {r : ClassRecord} {chain other : List ClassRecord}
    (one : SuperChain records seen r chain) (two : SuperChain records seen r other) :
    chain = other := by
  induction one generalizing other with
  | stop ended =>
    cases two with
    | stop _ => rfl
    | up present below fresh resolved _ =>
      exact absurd ended (not_ended present below fresh resolved)
  | up present below fresh resolved _ ih =>
    cases two with
    | stop ended => exact absurd ended (not_ended present below fresh resolved)
    | up _ _ _ resolved' rest =>
      cases resolved.unique resolved'
      rw [ih rest]

/-! ## The methods -/

/-- The methods that `r` can override: those of the root type, those of its superclasses that are no
initializers, and those of the interfaces of `r` and its superclasses that are no class
initializers. -/
def Inheritable (records : List ClassRecord) (r : ClassRecord) (s : Signature) : Prop :=
  ∃ chain, SuperChain records [r.name] r chain ∧
    (s ∈ rootMethods ∨
      (∃ c ∈ chain, s ∈ c.methods ∧ s.name ≠ "<init>" ∧ s.name ≠ "<clinit>") ∨
      ∃ c ∈ r :: chain, ∃ name i, Reaches records c name ∧ Resolves records name i ∧
        s ∈ i.methods ∧ s.name ≠ "<clinit>")

theorem isConstructor_eq_false_iff {s : Signature} :
    (!s.isConstructor) = true ↔ s.name ≠ "<init>" := by
  simp [Signature.isConstructor]

theorem isStaticInitializer_eq_false_iff {s : Signature} :
    (!s.isStaticInitializer) = true ↔ s.name ≠ "<clinit>" := by
  simp [Signature.isStaticInitializer]

theorem mem_inheritable_iff {r : ClassRecord} {s : Signature} :
    s ∈ (ofList records).inheritable r ↔ Inheritable records r s := by
  have followed : SuperChain records [r.name] r ((ofList records).superChain r) :=
    superChain_superChainFrom [r.name] r
  unfold inheritable Inheritable
  simp only [Signature.mem_sortedSet, List.mem_append, List.mem_flatMap,
    List.mem_filter, Bool.and_eq_true, isConstructor_eq_false_iff, isStaticInitializer_eq_false_iff,
    mem_reachable_iff, or_assoc]
  constructor
  · rintro (root | inherited | ⟨i, ⟨c, start, name, reaches, resolved⟩, declared⟩)
    · exact ⟨_, followed, .inl root⟩
    · exact ⟨_, followed, .inr (.inl inherited)⟩
    · exact ⟨_, followed, .inr (.inr ⟨c, start, name, i, reaches, resolved, declared⟩)⟩
  · rintro ⟨chain, same, root | inherited | ⟨c, start, name, i, reaches, resolved, declared⟩⟩
    · exact .inl root
    · cases same.unique followed
      exact .inr (.inl inherited)
    · cases same.unique followed
      exact .inr (.inr ⟨i, ⟨c, start, name, reaches, resolved⟩, declared⟩)

/-! ## The order of interface lists -/

/-- The same class with its interfaces listed in another order. -/
def Relisted (r r' : ClassRecord) : Prop :=
  ∃ interfaces, r.interfaces.Perm interfaces ∧ r' = { r with interfaces := interfaces }

theorem Relisted.symm {r r' : ClassRecord} (relisted : Relisted r r') : Relisted r' r := by
  obtain ⟨interfaces, perm, rfl⟩ := relisted
  exact ⟨r.interfaces, perm.symm, rfl⟩

theorem forall₂_relisted_symm {records' : List ClassRecord}
    (relisted : List.Forall₂ Relisted records records') :
    List.Forall₂ Relisted records' records :=
  relisted.flip.imp fun _ _ => Relisted.symm

theorem exists_relisted_of_mem {xs ys : List ClassRecord} (relisted : List.Forall₂ Relisted xs ys)
    {c : ClassRecord} (member : c ∈ xs) : ∃ c' ∈ ys, Relisted c c' := by
  induction relisted with
  | nil => nomatch member
  | cons first _ ih =>
    obtain rfl | later := List.mem_cons.mp member
    · exact ⟨_, List.mem_cons_self, first⟩
    · obtain ⟨c', member', same⟩ := ih later
      exact ⟨c', List.mem_cons_of_mem _ member', same⟩

section

variable {records' : List ClassRecord}

/-- Names stand for the same classes, up to the order of their interfaces. -/
theorem Resolves.relisted (relisted : List.Forall₂ Relisted records records') {name : String}
    {r : ClassRecord} (resolved : Resolves records name r) :
    ∃ r', Relisted r r' ∧ Resolves records' name r' := by
  induction relisted with
  | nil => exact absurd resolved not_resolves_nil
  | cons first rest ih =>
    obtain later | ⟨rfl, named, last⟩ := resolves_cons_iff.mp resolved
    · obtain ⟨r', same, resolved'⟩ := ih later
      exact ⟨r', same, resolves_cons_iff.mpr (.inl resolved')⟩
    · -- the first class counts here too, since the later ones keep their names
      refine ⟨_, first, resolves_cons_iff.mpr (.inr ⟨rfl, ?_, fun other member => ?_⟩)⟩
      · obtain ⟨interfaces, -, rfl⟩ := first
        exact named
      · obtain ⟨original, listed, ⟨interfaces, -, rfl⟩⟩ :=
          exists_relisted_of_mem (forall₂_relisted_symm rest) member
        have differs := last _ listed
        exact differs

theorem Leads.relisted (relisted : List.Forall₂ Relisted records records') {start name : String}
    (leads : Leads records start name) : Leads records' start name := by
  induction leads with
  | here => exact .here
  | next _ resolved listed ih =>
    obtain ⟨i', ⟨interfaces, perm, rfl⟩, resolved'⟩ := resolved.relisted relisted
    exact .next ih resolved' (perm.mem_iff.mp listed)

theorem Reaches.relisted (relisted : List.Forall₂ Relisted records records') {c c' : ClassRecord}
    {name : String} (same : Relisted c c') (reaches : Reaches records c name) :
    Reaches records' c' name := by
  obtain ⟨interfaces, perm, rfl⟩ := same
  obtain ⟨start, listed, leads⟩ := reaches
  exact ⟨start, perm.mem_iff.mp listed, leads.relisted relisted⟩

theorem SuperChain.relisted (relisted : List.Forall₂ Relisted records records') {seen : List String}
    {r r' : ClassRecord} {chain : List ClassRecord} (same : Relisted r r')
    (followed : SuperChain records seen r chain) :
    ∃ chain', SuperChain records' seen r' chain' ∧ List.Forall₂ Relisted chain chain' := by
  induction followed generalizing r' with
  | stop ended =>
    obtain ⟨interfaces, -, rfl⟩ := same
    refine ⟨[], .stop ?_, .nil⟩
    obtain empty | root | met | missing := ended
    · exact .inl empty
    · exact .inr (.inl root)
    · exact .inr (.inr (.inl met))
    · refine .inr (.inr (.inr fun c resolved => ?_))
      obtain ⟨c', -, resolved'⟩ := resolved.relisted (forall₂_relisted_symm relisted)
      exact missing c' resolved'
  | up present below fresh resolved _ ih =>
    obtain ⟨interfaces, -, rfl⟩ := same
    obtain ⟨next', same', resolved'⟩ := resolved.relisted relisted
    obtain ⟨rest', followed', all⟩ := ih same'
    exact ⟨next' :: rest', .up present below fresh resolved' followed', .cons same' all⟩

theorem Inheritable.relisted (relisted : List.Forall₂ Relisted records records')
    {r r' : ClassRecord} (same : Relisted r r') {s : Signature}
    (inherited : Inheritable records r s) : Inheritable records' r' s := by
  obtain ⟨chain, followed, source⟩ := inherited
  -- the chains run side by side, class for class
  obtain ⟨chain', followed', all⟩ := followed.relisted relisted same
  have renamed : r'.name = r.name := by
    obtain ⟨interfaces, -, rfl⟩ := same
    rfl
  refine ⟨chain', renamed ▸ followed', ?_⟩
  obtain root | ⟨c, member, declared, proper⟩ |
      ⟨c, member, name, i, reaches, resolved, declared, proper⟩ := source
  · exact .inl root
  · obtain ⟨c', member', ⟨interfaces, -, rfl⟩⟩ := exists_relisted_of_mem all member
    exact .inr (.inl ⟨_, member', declared, proper⟩)
  · obtain ⟨c', member', same'⟩ := exists_relisted_of_mem (.cons same all) member
    obtain ⟨i', ⟨interfaces, -, rfl⟩, resolved'⟩ := resolved.relisted relisted
    exact .inr (.inr ⟨c', member', name, _, reaches.relisted relisted same', resolved',
      declared, proper⟩)

/-- The order of interface lists does not matter. -/
theorem inheritable_relisted (relisted : List.Forall₂ Relisted records records')
    {r r' : ClassRecord} (same : Relisted r r') :
    (ofList records').inheritable r' = (ofList records).inheritable r := by
  refine Signature.eq_of_pairwise_before (Signature.pairwise_sortedSet _)
    (Signature.pairwise_sortedSet _)
    fun s => ?_
  show s ∈ (ofList records').inheritable r' ↔ s ∈ (ofList records).inheritable r
  rw [mem_inheritable_iff, mem_inheritable_iff]
  constructor
  · exact Inheritable.relisted (forall₂_relisted_symm relisted) same.symm
  · exact Inheritable.relisted relisted same

end

/-! ## Overridden methods -/

theorem overridden_of_isInterface {r : ClassRecord} (interface : r.isInterface = true)
    (h : Hierarchy) :
    h.overridden r = 0 := if_pos interface

/-- Each own method that can be overridden is counted once. -/
theorem overridden_eq_length {r : ClassRecord} (proper : r.isInterface = false) :
    ∃ own : List Signature, own.Nodup ∧
      (∀ s, s ∈ own ↔ s ∈ r.methods ∧ s.name ≠ "<init>" ∧ s.name ≠ "<clinit>" ∧
        Inheritable records r s) ∧
      (ofList records).overridden r = own.length := by
  refine ⟨_, (Signature.nodup_of_pairwise_before r.ordered).filter _, fun s => ?_,
    if_neg (Bool.eq_false_iff.mp proper)⟩
  simp only [List.mem_filter, Bool.and_eq_true, isConstructor_eq_false_iff,
    isStaticInitializer_eq_false_iff, List.contains_iff_mem, mem_inheritable_iff, and_assoc]

/-- The methods that a class can override are those of the root type, of its superclass chain and of
all the interfaces that the class or its chain reaches. They do not depend on the order of interface
lists. The number of methods that it does override is 0 for an interface, and otherwise that of its
own distinct methods among them that are no initializers. -/
theorem inheritable_exact (records : List ClassRecord) (r : ClassRecord) :
    (∀ s, s ∈ (ofList records).inheritable r ↔ Inheritable records r s) ∧
    (∀ records' r', List.Forall₂ Relisted records records' → Relisted r r' →
      (ofList records').inheritable r' = (ofList records).inheritable r) ∧
    (r.isInterface = true → (ofList records).overridden r = 0) ∧
    (r.isInterface = false → ∃ own : List Signature, own.Nodup ∧
      (∀ s, s ∈ own ↔ s ∈ r.methods ∧ s.name ≠ "<init>" ∧ s.name ≠ "<clinit>" ∧
        Inheritable records r s) ∧
      (ofList records).overridden r = own.length) :=
  ⟨fun _ => mem_inheritable_iff, fun _ _ relisted same => inheritable_relisted relisted same,
    fun interface => overridden_of_isInterface interface _, overridden_eq_length⟩

/-- A class with one method and no interfaces. -/
def runner (name superName : String) : ClassRecord :=
  { name, superName, interfaces := [], methods := [⟨"run", "()V"⟩],
    ordered := List.pairwise_singleton _ _, fieldCount := 0, abc := Abc.zero, isInterface := false }

/-- Two classes that extend each other: the chain of the first ends when it comes back to it. -/
theorem inheritable_exact_cycle :
    (ofList [runner "A" "B", runner "B" "A"]).overridden (runner "A" "B") = 1 := by
  have resolved : Resolves [runner "A" "B", runner "B" "A"] "B" (runner "B" "A") :=
    ⟨[runner "A" "B"], [], rfl, rfl, fun _ member => nomatch member⟩
  have chain : SuperChain [runner "A" "B", runner "B" "A"] ["A"]
      (runner "A" "B") [runner "B" "A"] :=
    .up (by decide) (by decide) (by decide) resolved (.stop (.inr (.inr (.inl (by decide)))))
  have inherited : Inheritable [runner "A" "B", runner "B" "A"] (runner "A" "B") ⟨"run", "()V"⟩ :=
    ⟨_, chain, .inr (.inl ⟨_, List.mem_cons_self, List.mem_cons_self, by decide, by decide⟩)⟩
  obtain ⟨own, distinct, counted, number⟩ :=
    (inheritable_exact [runner "A" "B", runner "B" "A"] (runner "A" "B")).2.2.2 rfl
  have only : own.Perm [⟨"run", "()V"⟩] := by
    refine (List.perm_ext_iff_of_nodup distinct (by decide)).mpr fun s => ?_
    rw [counted]
    constructor
    · exact fun described => described.1
    · intro member
      cases List.mem_singleton.mp member
      exact ⟨member, by decide, by decide, inherited⟩
  rw [number, only.length_eq]
  rfl

end JarMetrics.Hierarchy
