import JarMetrics.Proofs.ClassLimit
import JarMetrics.Proofs.DoubleOrder
import JarMetrics.Proofs.RecordOrder
import Mathlib.Data.String.Basic

/-!
# The classes that come first

A criterion orders classes by one of their numbers, the largest first, and classes with the same
number by name. Any other criterion orders by name alone. `Ranked` says what a list in that order
is: it has the classes given, none stands before one that must precede it, and classes that the
order does not tell apart stand as they were given.

`selectClasses_ranked` says that a limit cuts such a list, so that no class left out should have
stood before one that is kept, and that the answer does not depend on the order given as long as no
two classes have one name.

All numbers are compared as doubles, which is no total order where some are no numbers, and which
confuses large whole numbers. On classes without such numbers (`Measured`) the comparison is that of
ranks in a linear order (`before_eq_rank`), and the sort is one by rank.
-/

namespace JarMetrics

theorem SortKey.ofName?_eq_some_iff {name : String} {key : SortKey} :
    ofName? name = some key ↔ key.text = name := by
  constructor
  · intro found
    have holds := List.find?_some found
    exact of_decide_eq_true holds
  · intro same
    subst same
    cases key <;> decide

theorem SortKey.text_ne_of_unknown {name : String} (unknown : ofName? name = none) (key : SortKey) :
    name ≠ key.text := by
  intro same
  rw [ofName?_eq_some_iff.mpr same.symm] at unknown
  cases unknown

namespace ClassReport

/-! ## The order -/

/-- Whether class `a` has more than class `b` of what a criterion counts. A criterion that counts
nothing makes no difference between classes. -/
def Exceeds (sort : String) (a b : ClassReport) : Prop :=
  sort = "depth" ∧ b.depth < a.depth ∨
  sort = "complexity" ∧ b.magnitude < a.magnitude ∨
  sort = "overrides" ∧ b.overridden < a.overridden ∨
  sort = "fields" ∧ b.fieldCount < a.fieldCount

instance (sort : String) (a b : ClassReport) : Decidable (Exceeds sort a b) :=
  inferInstanceAs (Decidable (_ ∨ _))

/-- Class `a` may stand before class `b`. -/
def Precedes (sort : String) (a b : ClassReport) : Prop :=
  Exceeds sort a b ∨ ¬ Exceeds sort b a ∧ a.name ≤ b.name

/-- The order makes no difference between two classes. -/
def Tied (sort : String) (a b : ClassReport) : Prop :=
  ¬ Exceeds sort a b ∧ ¬ Exceeds sort b a ∧ a.name = b.name

instance (sort : String) (a b : ClassReport) : Decidable (Tied sort a b) :=
  inferInstanceAs (Decidable (_ ∧ _))

/-- The numbers of a class are numbers, and doubles tell the whole ones apart. -/
structure Measured (c : ClassReport) : Prop where
  depth : c.depth.natAbs ≤ 2 ^ 53
  overridden : c.overridden.natAbs ≤ 2 ^ 53
  fieldCount : c.fieldCount.natAbs ≤ 2 ^ 53
  magnitude : c.magnitude.isNaN = false

/-- The classes in the order of a criterion, and those that are tied in the order given. -/
structure Ranked (sort : String) (classes ranked : List ClassReport) : Prop where
  perm : ranked.Perm classes
  ordered : ranked.Pairwise (Precedes sort)
  kept : ∀ c ∈ classes, ranked.filter (fun a => Tied sort c a) = classes.filter
    fun a => Tied sort c a

/-! ## Ranks -/

/-- Where the number that a criterion looks at stands among all doubles. -/
def grade (sort : String) (c : ClassReport) : ℤ ×ₗ ℤ ×ₗ ℤ :=
  match (SortKey.ofName? sort).bind SortKey.weight? with
  | some weight => Double.standing (weight c)
  | none => toLex (0, toLex (0, 0))

/-- Classes stand in the order of their ranks, the least first. -/
def rank (sort : String) (c : ClassReport) : (ℤ ×ₗ ℤ ×ₗ ℤ)ᵒᵈ ×ₗ String :=
  toLex (OrderDual.toDual (grade sort c), c.name)

variable {sort : String} {a b c : ClassReport}

theorem Measured.isNaN_weight (measured : c.Measured) {key : SortKey} {weight : ClassReport → Float}
    (weighs : key.weight? = some weight) : (weight c).isNaN = false := by
  cases key with
  | name => cases weighs
  | depth => cases weighs; exact Double.isNaN_ofInt measured.depth
  | complexity => cases weighs; exact measured.magnitude
  | overrides => cases weighs; exact Double.isNaN_ofInt measured.overridden
  | fields => cases weighs; exact Double.isNaN_ofInt measured.fieldCount

/-- More of what a criterion counts is a higher grade. -/
theorem exceeds_iff_grade (left : a.Measured) (right : b.Measured) :
    Exceeds sort a b ↔ grade sort b < grade sort a := by
  unfold Exceeds grade
  cases named : SortKey.ofName? sort with
  | none =>
    have unknown := SortKey.text_ne_of_unknown named
    have depth : sort ≠ "depth" := unknown .depth
    have complexity : sort ≠ "complexity" := unknown .complexity
    have overrides : sort ≠ "overrides" := unknown .overrides
    have fields : sort ≠ "fields" := unknown .fields
    simp [depth, complexity, overrides, fields]
  | some key =>
    obtain rfl := SortKey.ofName?_eq_some_iff.mp named
    cases key with
    | name => simp [SortKey.text, SortKey.weight?]
    | depth =>
      simp [SortKey.text, SortKey.weight?, Double.standing_ofInt_lt_iff right.depth left.depth]
    | complexity =>
      simp [SortKey.text, SortKey.weight?, Double.lt_iff_standing right.magnitude left.magnitude]
    | overrides =>
      simp [SortKey.text, SortKey.weight?,
        Double.standing_ofInt_lt_iff right.overridden left.overridden]
    | fields =>
      simp [SortKey.text, SortKey.weight?,
        Double.standing_ofInt_lt_iff right.fieldCount left.fieldCount]

theorem rank_lt_iff : rank sort a < rank sort b ↔
    grade sort b < grade sort a ∨ grade sort a = grade sort b ∧ a.name < b.name := by
  unfold rank
  rw [Prod.Lex.toLex_lt_toLex]
  rfl

theorem rank_le_iff : rank sort a ≤ rank sort b ↔
    grade sort b < grade sort a ∨ grade sort a = grade sort b ∧ a.name ≤ b.name := by
  unfold rank
  rw [Prod.Lex.toLex_le_toLex]
  rfl

theorem precedes_iff_rank (left : a.Measured) (right : b.Measured) :
    Precedes sort a b ↔ rank sort a ≤ rank sort b := by
  unfold Precedes
  rw [exceeds_iff_grade left right, exceeds_iff_grade right left, rank_le_iff]
  constructor
  · intro precedes
    rcases precedes with more | ⟨noLess, named⟩
    · exact .inl more
    · rcases lt_or_eq_of_le (not_lt.mp noLess) with more | same
      · exact .inl more
      · exact .inr ⟨same.symm, named⟩
  · intro ranked
    rcases ranked with more | ⟨same, named⟩
    · exact .inl more
    · exact .inr ⟨same.not_lt, named⟩

/-- Classes are tied if they have one rank. -/
theorem tied_iff_rank (left : a.Measured) (right : b.Measured) :
    Tied sort a b ↔ rank sort a = rank sort b := by
  unfold Tied
  rw [exceeds_iff_grade left right, exceeds_iff_grade right left]
  constructor
  · intro tied
    obtain ⟨noMore, noLess, named⟩ := tied
    have same : grade sort a = grade sort b := le_antisymm (not_lt.mp noMore) (not_lt.mp noLess)
    unfold rank
    rw [same, named]
  · intro same
    unfold rank at same
    have parts := Prod.mk.inj (toLex.injective same)
    have grades : grade sort a = grade sort b := OrderDual.toDual.injective parts.1
    exact ⟨grades.symm.not_lt, grades.not_lt, parts.2⟩

/-- Comparing the doubles and then the names is comparing ranks. -/
theorem before_eq_rank (left : a.Measured) (right : b.Measured) :
    before ((SortKey.ofName? sort).bind SortKey.weight?) a b =
      decide (rank sort a < rank sort b) := by
  rw [Bool.eq_iff_iff, decide_eq_true_iff, rank_lt_iff]
  unfold before grade
  cases weighs : (SortKey.ofName? sort).bind SortKey.weight? with
  | none => simp
  | some weight =>
    obtain ⟨key, _, weighs⟩ := Option.bind_eq_some_iff.mp weighs
    have number := left.isNaN_weight weighs
    have number' := right.isNaN_weight weighs
    have equal := Double.beq_iff_standing number number'
    have less := Double.lt_iff_standing number' number
    cases same : weight a == weight b with
    | true =>
      have grades := equal.mp same
      simp [bne, same, grades]
    | false =>
      have grades : Double.standing (weight a) ≠ Double.standing (weight b) := by
        intro grades
        rw [equal.mpr grades] at same
        cases same
      simp [bne, same, grades, less]

/-! ## Sorting -/

variable {classes others : List ClassReport}

/-- Without a limit, the classes are sorted by rank. -/
theorem selectClasses_eq_mergeSort (measured : ∀ c ∈ classes, c.Measured) :
    selectClasses classes sort 0 = classes.mergeSort fun a b => rank sort a ≤ rank sort b := by
  let weight? := (SortKey.ofName? sort).bind SortKey.weight?
  have agree : ∀ a ∈ classes, ∀ b ∈ classes,
      (!before weight? b a) = decide (rank sort a ≤ rank sort b) := by
    intro a first b second
    rw [before_eq_rank (measured b second) (measured a first), ← decide_not]
    exact decide_eq_decide.mpr not_lt
  have sorted : (classes.mergeSort fun a b => !before weight? b a).map id =
      (classes.map id).mergeSort fun a b => rank sort a ≤ rank sort b := List.map_mergeSort agree
  rw [List.map_id, List.map_id] at sorted
  exact sorted

theorem ranked_selectClasses (measured : ∀ c ∈ classes, c.Measured) :
    Ranked sort classes (selectClasses classes sort 0) := by
  obtain ⟨ordered, kept⟩ := mergeSort_key (fun _ _ _ => le_trans) le_total (rank sort) classes
  have perm := List.mergeSort_perm classes fun a b => rank sort a ≤ rank sort b
  rw [selectClasses_eq_mergeSort measured]
  refine ⟨perm, ?_, ?_⟩
  · refine ordered.imp_of_mem ?_
    intro a b first second ranked
    have first := measured a (perm.mem_iff.mp first)
    have second := measured b (perm.mem_iff.mp second)
    exact (precedes_iff_rank first second).mpr ranked
  · -- classes that are tied with one class have its rank, so none of them has a greater one than
    -- another
    intro c listed
    have rankEq : ∀ a ∈ classes.filter (fun a => Tied sort c a), rank sort c = rank sort a := by
      intro a member
      obtain ⟨present, tied⟩ := List.mem_filter.mp member
      exact (tied_iff_rank (measured c listed) (measured a present)).mp (of_decide_eq_true tied)
    refine kept _ ?_
    intro a first b second
    rw [← rankEq a first, ← rankEq b second]

/-- The names of a list of classes decide in which order it can be ranked. -/
theorem Ranked.eq_of_perm {ranked ranked' : List ClassReport} (measured : ∀ c ∈ classes, c.Measured)
    (distinct : (classes.map (·.name)).Nodup) (left : Ranked sort classes ranked)
    (right : Ranked sort others ranked') (perm : classes.Perm others) : ranked' = ranked := by
  have listed : ∀ c ∈ ranked', c ∈ classes := by
    intro c member
    exact perm.mem_iff.mpr (right.perm.mem_iff.mp member)
  refine List.Perm.eq_of_pairwise ?_ right.ordered left.ordered
    ((right.perm.trans perm.symm).trans left.perm.symm)
  -- classes each of which precedes the other have one rank, and so one name
  intro a b first second le ge
  have first := listed a first
  have second := left.perm.mem_iff.mp second
  rw [precedes_iff_rank (measured a first) (measured b second)] at le
  rw [precedes_iff_rank (measured b second) (measured a first)] at ge
  have tied := (tied_iff_rank (measured a first) (measured b second)).mpr (le_antisymm le ge)
  exact List.inj_on_of_nodup_map distinct first second tied.2.2

end ClassReport

open ClassReport

/-- What is left out of a list of classes that has a limit. -/
def droppedClasses (classes : List ClassReport) (sort : String) (top : Int) : List ClassReport :=
  (selectClasses classes sort 0).drop top.toNat

theorem selectClasses_append_dropped {top : Int} (limited : 0 < top) (classes : List ClassReport)
    (sort : String) :
    selectClasses classes sort top ++ droppedClasses classes sort top =
      selectClasses classes sort 0 := by
  have positive : top.toNat ≠ 0 := by omega
  rw [selectClasses_eq, firstClasses, if_neg positive, droppedClasses, List.take_append_drop]

/-- The classes selected are the first of those given, in the order of the criterion. This is a list
in which tied classes keep their order. A limit that is not positive leaves nothing out, any other
one all but the first so many, none of which had to stand behind one that is left out. Where no two
classes have one name, the order in which they are given does not matter. An archive keeps the list
of all its classes whatever the criterion and the limit of those selected from it. -/
theorem selectClasses_ranked (sort : String) (classes : List ClassReport)
    (measured : ∀ c ∈ classes, c.Measured) :
    (∀ top ≤ 0, Ranked sort classes (selectClasses classes sort top)) ∧
    (∀ top > 0, ∃ dropped, Ranked sort classes (selectClasses classes sort top ++ dropped) ∧
      selectClasses classes sort 0 = selectClasses classes sort top ++ dropped ∧
      (selectClasses classes sort top).length = min top.toNat classes.length ∧
      ∀ a ∈ selectClasses classes sort top, ∀ b ∈ dropped, Precedes sort a b) ∧
    ((classes.map (·.name)).Nodup → ∀ others, classes.Perm others → ∀ top,
      selectClasses others sort top = selectClasses classes sort top) ∧
    ∀ path request contents,
      (ArchiveReport.ofContents path request contents).allClasses =
        (ArchiveFigures.of (Path.base path) contents.records).classes.map .ofFigures ∧
      (ArchiveReport.ofContents path request contents).classes =
        if request.details then
          selectClasses (ArchiveReport.ofContents path request contents).allClasses
            request.sort request.top
        else [] := by
  have ranked : Ranked sort classes (selectClasses classes sort 0) := ranked_selectClasses measured
  refine ⟨?_, ?_, ?_, ?_⟩
  · intro top unlimited
    have none : top.toNat = 0 := by omega
    rw [selectClasses_eq, none]
    exact ranked
  · intro top limited
    have parts := selectClasses_append_dropped limited classes sort
    refine ⟨droppedClasses classes sort top, ?_, parts.symm, ?_, ?_⟩
    · rw [parts]
      exact ranked
    · have positive : top.toNat ≠ 0 := by omega
      rw [selectClasses_eq, length_firstClasses, if_neg positive]
    · have ordered := ranked.ordered
      rw [← parts] at ordered
      exact (List.pairwise_append.mp ordered).2.2
  · intro distinct others perm top
    have measured' : ∀ c ∈ others, c.Measured := by
      intro c listed
      exact measured c (perm.mem_iff.mpr listed)
    have same := ranked.eq_of_perm measured distinct (ranked_selectClasses measured') perm
    rw [selectClasses_eq, selectClasses_eq, firstClasses, firstClasses, same]
  · intro path request contents
    rw [ArchiveReport.ofContents_eq]
    exact ⟨rfl, rfl⟩

/-- A class of which only the name and the depth are told. -/
def ClassReport.atDepth (name : String) (depth : Int) : ClassReport where
  name := name
  superName := "java/lang/Object"
  interfaces := []
  isInterface := false
  depth := depth
  overridden := 0
  fieldCount := 0
  methodCount := 0
  assignments := 0
  branches := 0
  conditions := 0
  magnitude := Float.ofInt 0

theorem selectClasses_ranked_deepest :
    let classes := [atDepth "B" 2, atDepth "A" 2, atDepth "C" 5]
    (∀ c ∈ classes, c.Measured) ∧ (classes.map (·.name)).Nodup ∧
      Ranked "depth" classes (selectClasses classes "depth" 0) ∧
      (selectClasses classes "depth" 2).length = 2 ∧
      selectClasses classes.reverse "depth" 2 = selectClasses classes "depth" 2 := by
  intro classes
  have measured : ∀ c ∈ classes, c.Measured := by
    intro c listed
    have shallow : c.depth.natAbs ≤ 2 ^ 53 ∧ c.overridden = 0 ∧ c.fieldCount = 0 ∧
        c.magnitude = Float.ofInt 0 := by
      simp only [classes, List.mem_cons, List.not_mem_nil, or_false] at listed
      rcases listed with rfl | rfl | rfl <;> exact ⟨by decide, rfl, rfl, rfl⟩
    obtain ⟨depth, overridden, fields, magnitude⟩ := shallow
    refine ⟨depth, ?_, ?_, ?_⟩
    · simp [overridden]
    · simp [fields]
    · rw [magnitude]
      exact Double.isNaN_ofInt (by decide)
  have distinct : (classes.map (·.name)).Nodup := by decide
  obtain ⟨unlimited, limited, invariant, _⟩ := selectClasses_ranked "depth" classes measured
  obtain ⟨_, _, _, length, _⟩ := limited 2 (by decide)
  exact ⟨measured, distinct, unlimited 0 (by decide), length,
    invariant distinct _ (List.reverse_perm classes).symm 2⟩

end JarMetrics
