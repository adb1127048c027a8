import JarMetrics.Metrics.Archive
import JarMetrics.Proofs.Growth
import Mathlib.Algebra.BigOperators.Group.List.Basic
import Mathlib.Algebra.Ring.Int.Defs
import Mathlib.Algebra.Ring.Nat
import Mathlib.Data.List.Forall2
import Mathlib.Data.List.Nodup

/-!
# The order of records does not matter

Every total, maximum and average of an archive is taken over its records, with the depths and the
overridden methods that they have in the hierarchy of all of them (`ArchiveFigures.Tallied`). The
classes that it lists are the records in the order of their names, where records of one name stay in
the order given (`StablySorted`), and each of them tells of its record what is to be told
(`ClassFigures.Describes`). Where all names are distinct, the records in another order give the same
figures (`figures_order_irrelevant`).

A permutation gives another index of names, but the same one as far as look-ups go: each of the two
lists extends the other (`extends_of_perm`). So depths and overridden methods, which only grow, are
the same in both.
-/

namespace JarMetrics

/-! ## Stable sorting -/

/-- The list `sorted` has the items in the order of their keys, and items of one key in the order
given. -/
structure StablySorted {α : Type} (key : α → String) (items sorted : List α) : Prop where
  perm : sorted.Perm items
  ordered : sorted.Pairwise fun a b => key a ≤ key b
  kept : ∀ k, sorted.filter (fun a => key a = k) = items.filter fun a => key a = k

/-- Sorting by keys puts the keys in order, and keeps the order of items no one of which has a
greater key than another. -/
theorem mergeSort_key {α κ : Type} [LE κ] [DecidableLE κ]
    (trans : ∀ a b c : κ, a ≤ b → b ≤ c → a ≤ c) (total : ∀ a b : κ, a ≤ b ∨ b ≤ a) (key : α → κ)
    (items : List α) :
    (items.mergeSort fun a b => key a ≤ key b).Pairwise (fun a b => key a ≤ key b) ∧
    ∀ p : α → Bool, (∀ a ∈ items.filter p, ∀ b ∈ items.filter p, key a ≤ key b) →
      (items.mergeSort fun a b => key a ≤ key b).filter p = items.filter p := by
  have trans' : ∀ a b c : α, decide (key a ≤ key b) = true → decide (key b ≤ key c) = true →
      decide (key a ≤ key c) = true := by
    intro a b c first second
    rw [decide_eq_true_eq] at first second ⊢
    exact trans _ _ _ first second
  have total' : ∀ a b : α, (decide (key a ≤ key b) || decide (key b ≤ key a)) = true := by
    intro a b
    rw [Bool.or_eq_true, decide_eq_true_eq, decide_eq_true_eq]
    exact total (key a) (key b)
  constructor
  · refine (List.pairwise_mergeSort trans' total' items).imp ?_
    intro a b le
    exact of_decide_eq_true le
  · -- such items are in order already, so sorting keeps them as a sublist, and it keeps their
    -- number
    intro p tied
    have ordered : (items.filter p).Pairwise fun a b => decide (key a ≤ key b) = true := by
      refine List.pairwise_of_forall_mem_list ?_
      intro a first b second
      exact decide_eq_true (tied a first b second)
    have sublist := (List.sublist_mergeSort trans' total' ordered List.filter_sublist).filter p
    rw [List.filter_filter] at sublist
    simp only [Bool.and_self] at sublist
    exact (sublist.eq_of_length ((List.mergeSort_perm items _).filter p).length_eq.symm).symm

theorem stablySorted_mergeSort {α : Type} (key : α → String) (items : List α) :
    StablySorted key items (items.mergeSort fun a b => key a ≤ key b) := by
  obtain ⟨ordered, kept⟩ := mergeSort_key (fun _ _ _ => String.le_trans) String.le_total key items
  refine ⟨List.mergeSort_perm items _, ordered, ?_⟩
  intro k
  refine kept _ ?_
  intro a first b second
  rewrite [of_decide_eq_true (List.mem_filter.mp first).2,
    of_decide_eq_true (List.mem_filter.mp second).2]
  exact String.le_refl k

/-! ## What figures tell -/

/-- The figures of a class are those of a record: what it says itself, and what it is in a
hierarchy. -/
structure ClassFigures.Describes (h : Hierarchy) (r : ClassRecord) (c : ClassFigures) : Prop where
  name : c.name = r.name
  superName : c.superName = r.superName
  interfaces : c.interfaces = r.interfaces
  isInterface : c.isInterface = r.isInterface
  depth : c.depth = h.depth r
  overridden : c.overridden = h.overridden r
  fieldCount : c.fieldCount = r.fieldCount
  methodCount : c.methodCount = r.methods.length
  abc : c.abc = r.abc
  magnitude : c.magnitude = r.abc.magnitude

theorem ClassFigures.describes_of (h : Hierarchy) (r : ClassRecord) : Describes h r (of h r) :=
  ⟨rfl, rfl, rfl, rfl, rfl, rfl, rfl, rfl, rfl, rfl⟩

/-- The mean of numbers, 0 if there are none. -/
def mean (numbers : List Nat) : Float :=
  if numbers = [] then 0.0 else Float.ofNat numbers.sum / Float.ofNat numbers.length

/-- The totals, the maximum and the averages are taken over records within a hierarchy. Depths and
fields are averaged over all records, overridden methods over those that are no interfaces. Each of
the three counts is the sum over the records, of which 64 bits are kept. -/
structure ArchiveFigures.Tallied (h : Hierarchy) (records : List ClassRecord)
    (a : ArchiveFigures) : Prop where
  totalClasses : a.totalClasses = records.countP fun r => !r.isInterface
  totalInterfaces : a.totalInterfaces = records.countP fun r => r.isInterface
  maxDepth : a.maxDepth = (records.map h.depth).max?.getD 0
  averageDepth : a.averageDepth = mean (records.map h.depth)
  averageOverridden :
    a.averageOverridden = mean ((records.filter fun r => !r.isInterface).map h.overridden)
  averageFields : a.averageFields = mean (records.map ClassRecord.fieldCount)
  assignments :
    a.abc.assignments = Int64.ofInt (records.map fun r => r.abc.assignments.toInt).sum
  branches : a.abc.branches = Int64.ofInt (records.map fun r => r.abc.branches.toInt).sum
  conditions : a.abc.conditions = Int64.ofInt (records.map fun r => r.abc.conditions.toInt).sum
  magnitude : a.magnitude = a.abc.magnitude

/-- An average over items is the mean of what they are averaged by. -/
theorem average_foldl {α : Type} (items : List α) (f : α → Nat) :
    average (items.foldl (fun sum a => sum + f a) 0) items.length = mean (items.map f) := by
  have sum : items.foldl (fun sum a => sum + f a) 0 = (items.map f).sum := by
    rw [List.sum_eq_foldl, List.foldl_map]
  unfold average mean
  rw [sum, List.length_map]
  cases items with
  | nil => rfl
  | cons a rest => simp

theorem foldl_max {α : Type} (items : List α) (f : α → Nat) :
    items.foldl (fun most a => max most (f a)) 0 = (items.map f).max?.getD 0 := by
  rw [← List.foldl_map, List.foldl_max, Nat.zero_max]

/-- A count that adds up over vectors is summed over the integers, of which 64 bits are kept. -/
theorem foldl_count {count : Abc → Int64} (added : ∀ v w, count (v + w) = count v + count w)
    (records : List ClassRecord) (start : Abc) :
    count (records.foldl (fun v r => v + r.abc) start) =
      count start + Int64.ofInt (records.map fun r => (count r.abc).toInt).sum := by
  induction records generalizing start with
  | nil => exact (Int64.add_zero _).symm
  | cons r rest ih =>
    rw [List.foldl_cons, ih, added, List.map_cons, List.sum_cons, Int64.ofInt_add,
      Int64.ofInt_toInt, Int64.add_assoc]

theorem tallied_of (name : String) (records : List ClassRecord) :
    (ArchiveFigures.of name records).Tallied (.ofList records) records := by
  have counts {count : Abc → Int64} (added : ∀ v w, count (v + w) = count v + count w)
      (zero : count Abc.zero = 0) : count (ArchiveFigures.of name records).abc =
        Int64.ofInt (records.map fun r => (count r.abc).toInt).sum := by
    rw [← Int64.zero_add (Int64.ofInt _), ← zero]
    exact foldl_count added records Abc.zero
  -- what is counted and averaged over the listed classes is said by their records
  have counted (p : ClassFigures → Bool) :
      ((records.map (ClassFigures.of (.ofList records))).filter p).length =
        records.countP fun r => p (.of (.ofList records) r) := by
    rw [← List.countP_eq_length_filter, List.countP_map]
    rfl
  have listed (f : ClassFigures → Nat) : (records.map (ClassFigures.of (.ofList records))).map f =
      records.map fun r => f (.of (.ofList records) r) := List.map_map
  constructor
  · exact counted _
  · exact counted _
  · exact (foldl_max _ ClassFigures.depth).trans (by rw [listed]; rfl)
  · exact (average_foldl _ ClassFigures.depth).trans (by rw [listed]; rfl)
  · refine (average_foldl _ ClassFigures.overridden).trans ?_
    rw [List.filter_map, List.map_map]
    rfl
  · exact (average_foldl _ ClassFigures.fieldCount).trans (by rw [listed]; rfl)
  · exact counts (fun _ _ => rfl) rfl
  · exact counts (fun _ _ => rfl) rfl
  · exact counts (fun _ _ => rfl) rfl
  · rfl

/-! ## The order of the records -/

namespace Hierarchy

variable {records records' : List ClassRecord}

/-- Where names are distinct, a name stands for the one class that has it. -/
theorem resolves_iff_of_nodup (distinct : (records.map (·.name)).Nodup) {name : String}
    {r : ClassRecord} :
    Resolves records name r ↔ r ∈ records ∧ r.name = name := by
  constructor
  · intro resolved
    exact ⟨resolved.mem, resolved.name_eq⟩
  · rintro ⟨listed, rfl⟩
    obtain ⟨s, resolved⟩ := exists_resolves_iff.mpr ⟨r, listed, rfl⟩
    cases List.inj_on_of_nodup_map distinct resolved.mem listed resolved.name_eq
    exact resolved

theorem extends_of_perm (distinct : (records.map (·.name)).Nodup) (perm : records.Perm records') :
    Extends records' records := by
  have distinct' : (records'.map (·.name)).Nodup := (perm.map _).nodup_iff.mp distinct
  intro name r resolved
  rw [resolves_iff_of_nodup distinct] at resolved
  exact (resolves_iff_of_nodup distinct').mpr ⟨perm.mem_iff.mp resolved.1, resolved.2⟩

/-- Two lists that extend each other give a class the same depth and the same overridden methods. -/
theorem depth_overridden_congr (grown : Extends records' records)
    (shrunk : Extends records records') (r : ClassRecord) :
    (ofList records').depth r = (ofList records).depth r ∧
      (ofList records').overridden r = (ofList records).overridden r :=
  ⟨Nat.le_antisymm (depth_le shrunk r) (depth_le grown r),
    Nat.le_antisymm (overridden_le shrunk r) (overridden_le grown r)⟩

end Hierarchy

section

variable {h h' : Hierarchy} {records records' : List ClassRecord}

/-- The mean of numbers does not depend on their order. -/
theorem mean_of_perm {numbers numbers' : List Nat} (perm : numbers.Perm numbers') :
    mean numbers = mean numbers' := by
  have empty : numbers = [] ↔ numbers' = [] := by
    rw [← List.length_eq_zero_iff, perm.length_eq, List.length_eq_zero_iff]
  unfold mean
  simp only [empty, perm.sum_nat, perm.length_eq]

theorem max_of_perm {numbers numbers' : List Nat} (perm : numbers.Perm numbers') :
    numbers.max?.getD 0 = numbers'.max?.getD 0 := by
  have commutes : ∀ x ∈ numbers, ∀ y ∈ numbers, ∀ z, max (max z x) y = max (max z y) x := by
    intro x _ y _ z
    omega
  have same := perm.foldl_eq' commutes 0
  rwa [List.foldl_max, List.foldl_max, Nat.zero_max, Nat.zero_max] at same

/-- The tallies of records are those of the records in another order, in a hierarchy where they are
as deep and override as much. -/
theorem ArchiveFigures.Tallied.of_perm {a : ArchiveFigures} (tallied : a.Tallied h records)
    (perm : records.Perm records') (depth : h'.depth = h.depth)
    (overridden : h'.overridden = h.overridden) : a.Tallied h' records' where
  totalClasses := tallied.totalClasses.trans (perm.countP_eq _)
  totalInterfaces := tallied.totalInterfaces.trans (perm.countP_eq _)
  maxDepth := by
    rw [tallied.maxDepth, depth]
    exact max_of_perm (perm.map _)
  averageDepth := by
    rw [tallied.averageDepth, depth]
    exact mean_of_perm (perm.map _)
  averageOverridden := by
    rw [tallied.averageOverridden, overridden]
    exact mean_of_perm ((perm.filter _).map _)
  averageFields := tallied.averageFields.trans (mean_of_perm (perm.map _))
  assignments := tallied.assignments.trans (congrArg Int64.ofInt (perm.map _).sum_eq)
  branches := tallied.branches.trans (congrArg Int64.ofInt (perm.map _).sum_eq)
  conditions := tallied.conditions.trans (congrArg Int64.ofInt (perm.map _).sum_eq)
  magnitude := tallied.magnitude

/-- Tallies of one list of records are the same, but for the name and the classes listed. -/
theorem ArchiveFigures.Tallied.unique {a b : ArchiveFigures} (left : a.Tallied h records)
    (right : b.Tallied h records) (named : a.name = b.name) (classes : a.classes = b.classes) :
    a = b := by
  have proper := left.totalClasses.trans right.totalClasses.symm
  have interfaces := left.totalInterfaces.trans right.totalInterfaces.symm
  have deepest := left.maxDepth.trans right.maxDepth.symm
  have depth := left.averageDepth.trans right.averageDepth.symm
  have overridden := left.averageOverridden.trans right.averageOverridden.symm
  have fields := left.averageFields.trans right.averageFields.symm
  have abc : a.abc = b.abc := by
    have assignments := left.assignments.trans right.assignments.symm
    have branches := left.branches.trans right.branches.symm
    have conditions := left.conditions.trans right.conditions.symm
    exact Abc.mk.injEq .. ▸ ⟨assignments, branches, conditions⟩
  have magnitude : a.magnitude = b.magnitude := by rw [left.magnitude, right.magnitude, abc]
  cases a
  cases b
  simp only at named proper interfaces deepest depth abc magnitude overridden fields classes
  subst named proper interfaces deepest depth abc magnitude overridden fields classes
  rfl

/-- The classes that are listed are the records in the stable order of their names. -/
theorem classes_of (name : String) (records : List ClassRecord) :
    (ArchiveFigures.of name records).classes =
      (records.mergeSort fun r s => r.name ≤ s.name).map (ClassFigures.of (.ofList records)) := by
  symm
  apply List.map_mergeSort
  intro r _ s _
  rfl

/-- Records with distinct names have one order. -/
theorem mergeSort_of_perm (distinct : (records.map (·.name)).Nodup)
    (perm : records.Perm records') :
    (records'.mergeSort fun r s => r.name ≤ s.name) =
      records.mergeSort fun r s => r.name ≤ s.name := by
  have sorted := stablySorted_mergeSort ClassRecord.name records
  have sorted' := stablySorted_mergeSort ClassRecord.name records'
  refine List.Perm.eq_of_pairwise ?_ sorted'.ordered sorted.ordered
    ((sorted'.perm.trans perm.symm).trans sorted.perm.symm)
  -- two records of one name are one record
  intro r s first second le ge
  have listed := perm.mem_iff.mpr (sorted'.perm.mem_iff.mp first)
  have listed' := sorted.perm.mem_iff.mp second
  exact List.inj_on_of_nodup_map distinct listed listed' (String.le_antisymm le ge)

/-- The figures are the same for every order of records with distinct names. -/
theorem figures_of_perm (name : String) (distinct : (records.map (·.name)).Nodup)
    (perm : records.Perm records') :
    ArchiveFigures.of name records' = ArchiveFigures.of name records := by
  have distinct' : (records'.map (·.name)).Nodup := (perm.map _).nodup_iff.mp distinct
  have same := Hierarchy.depth_overridden_congr (Hierarchy.extends_of_perm distinct perm)
    (Hierarchy.extends_of_perm distinct' perm.symm)
  have depth : (Hierarchy.ofList records').depth = (Hierarchy.ofList records).depth :=
    funext fun r => (same r).1
  have overridden : (Hierarchy.ofList records').overridden =
      (Hierarchy.ofList records).overridden :=
    funext fun r => (same r).2
  have tallied := (tallied_of name records).of_perm perm depth overridden
  refine (tallied_of name records').unique tallied rfl ?_
  rw [classes_of, classes_of, mergeSort_of_perm distinct perm]
  refine List.map_congr_left fun r _ => ?_
  unfold ClassFigures.of
  rw [depth, overridden]

end

/-- The figures of an archive do not depend on the order of its records, as long as no two of them
have one name. For every list of records, of which some may be missing, the figures are tallied over
the records that are there, with the depths and overridden methods that they have in the hierarchy
of all of them. The classes listed are these records, each described as it is, in the stable order
of their names, and the maximum depth is the largest of theirs. -/
theorem figures_order_irrelevant (name : String) (records : List (Option ClassRecord)) :
    (((records.filterMap id).map (·.name)).Nodup → ∀ records', records.Perm records' →
      ArchiveFigures.ofSparse name records' = ArchiveFigures.ofSparse name records) ∧
    (ArchiveFigures.ofSparse name records).totalClasses +
        (ArchiveFigures.ofSparse name records).totalInterfaces =
      (ArchiveFigures.ofSparse name records).classes.length ∧
    (ArchiveFigures.ofSparse name records).classes.length = records.countP Option.isSome ∧
    (ArchiveFigures.ofSparse name records).maxDepth =
      ((ArchiveFigures.ofSparse name records).classes.map (·.depth)).max?.getD 0 ∧
    (ArchiveFigures.ofSparse name records).Tallied (Hierarchy.ofSparse records)
      (records.filterMap id) ∧
    ∃ sorted, StablySorted ClassRecord.name (records.filterMap id) sorted ∧
      List.Forall₂ (ClassFigures.Describes (Hierarchy.ofSparse records)) sorted
        (ArchiveFigures.ofSparse name records).classes := by
  have tallied := tallied_of name (records.filterMap id)
  have listed := classes_of name (records.filterMap id)
  have sorted := stablySorted_mergeSort ClassRecord.name (records.filterMap id)
  unfold ArchiveFigures.ofSparse Hierarchy.ofSparse
  have length : (ArchiveFigures.of name (records.filterMap id)).classes.length =
      (records.filterMap id).length := by
    rw [listed, List.length_map, sorted.perm.length_eq]
  refine ⟨?_, ?_, ?_, ?_, tallied, _, sorted, ?_⟩
  · intro distinct records' perm
    exact figures_of_perm name distinct (perm.filterMap id)
  · rw [tallied.totalClasses, tallied.totalInterfaces, length, Nat.add_comm,
      List.countP_eq_length_filter, List.countP_eq_length_filter]
    exact (List.length_eq_length_filter_add _).symm
  · rw [length]
    exact List.length_filterMap_eq_countP
  · rw [tallied.maxDepth, listed, List.map_map]
    exact max_of_perm (sorted.perm.symm.map _)
  · rw [listed, List.forall₂_map_right_iff, List.forall₂_same]
    exact fun r _ => ClassFigures.describes_of _ r

/-- An interface that has a method of the class that it extends. -/
def overridingInterface : ClassRecord :=
  { Hierarchy.runner "I" "A" with isInterface := true }

open Hierarchy in
theorem figures_order_irrelevant_reversed :
    let records := [some (runner "B" "A"), none, some overridingInterface, some (runner "A" "X")]
    ((records.filterMap id).map (·.name)).Nodup ∧
      ArchiveFigures.ofSparse "x.jar"
          [some (runner "A" "X"), some overridingInterface, none, some (runner "B" "A")] =
        ArchiveFigures.ofSparse "x.jar" records ∧
      (ArchiveFigures.ofSparse "x.jar" records).classes.length = 3 ∧
      (ArchiveFigures.ofSparse "x.jar" records).totalInterfaces = 1 ∧
      (ArchiveFigures.ofSparse "x.jar" records).averageOverridden =
        mean [(ofSparse records).overridden (runner "B" "A"),
          (ofSparse records).overridden (runner "A" "X")] := by
  intro records
  have distinct : ((records.filterMap id).map (·.name)).Nodup := by decide
  obtain ⟨invariant, -, length, -, tallied, -⟩ := figures_order_irrelevant "x.jar" records
  exact ⟨distinct, invariant distinct _ (List.reverse_perm records).symm, length,
    tallied.totalInterfaces, tallied.averageOverridden⟩

end JarMetrics
