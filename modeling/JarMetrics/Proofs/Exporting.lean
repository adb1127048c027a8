import JarMetrics.Graph.Export
import JarMetrics.Proofs.Batches
import Mathlib.Data.List.Forall2

/-!
# An export issues one script, up to the first failure

What an export sends is a script that does not depend on the store: the two indexes, and then one
part for each archive (`Puts`), with the rows of the archive cut into batches.
`exportReport_script`: a store that takes every statement is sent the whole script, and a store that
refuses one is sent the script up to and including that one.

Within a part the classes come before the edges (`Puts.classes_before`). So all classes of an
archive have been sent when its first edge is, and both ends of every edge are among them. What a
store finds in the parameters of the statements of a part are the rows of the archive (`Received`).

Rows that cannot be cut are met after the statements before them have been issued. An export that
meets some breaks down there, without an outcome (`exportReport_breaks_down`).
-/

namespace JarMetrics.Graph

/-! ## What statements carry -/

namespace Statement

/-- The rows of classes in a statement. -/
def classBatch : Statement → List ClassRow
  | .classes batch => batch
  | _ => []

/-- The rows of edges to super classes in a statement. -/
def extensionBatch : Statement → List EdgeRow
  | .extensions batch => batch
  | _ => []

/-- The rows of edges to interfaces in a statement. -/
def implementationBatch : Statement → List EdgeRow
  | .implementations batch => batch
  | _ => []

end Statement

/-- The rows of classes that statements carry, in order. -/
def sentClasses (statements : List Statement) : List ClassRow :=
  statements.flatMap Statement.classBatch

/-- The rows of edges to super classes that statements carry. -/
def sentExtensions (statements : List Statement) : List EdgeRow :=
  statements.flatMap Statement.extensionBatch

/-- The rows of edges to interfaces that statements carry. -/
def sentImplementations (statements : List Statement) : List EdgeRow :=
  statements.flatMap Statement.implementationBatch

/-- The statements for one archive: the old classes are removed if that is asked for, the archive
comes next, and then the batches of its classes and of its edges. -/
def partOf (clear : Bool) (a : ArchiveReport) (classes : List (List ClassRow))
    (extensions implementations : List (List EdgeRow)) : List Statement :=
  (if clear then [Statement.clear a.fileName] else []) ++ [.jar a] ++ classes.map .classes ++
    extensions.map .extensions ++ implementations.map .implementations

/-- A part carries the rows of its batches. -/
theorem sent_partOf (clear : Bool) (a : ArchiveReport) (classes : List (List ClassRow))
    (extensions implementations : List (List EdgeRow)) :
    sentClasses (partOf clear a classes extensions implementations) = classes.flatten ∧
      sentExtensions (partOf clear a classes extensions implementations) = extensions.flatten ∧
      sentImplementations (partOf clear a classes extensions implementations) =
        implementations.flatten := by
  have nothing : ∀ {α β : Type} (batches : List α),
      (batches.flatMap fun _ => ([] : List β)) = [] := by simp
  cases clear <;>
    simp [nothing, partOf, sentClasses, sentExtensions, sentImplementations,
      List.flatMap_map, Statement.classBatch, Statement.extensionBatch,
      Statement.implementationBatch]

/-- The statements that put in one archive, with its rows in batches of a size. -/
inductive Puts (size : Nat) (clear : Bool) (a : ArchiveReport) : List Statement → Prop
  | intro {classes : List (List ClassRow)} {extensions implementations : List (List EdgeRow)} :
      Batched size (classRows a) classes → Batched size (extendsRows a) extensions →
      Batched size (implementsRows a) implementations →
      Puts size clear a (partOf clear a classes extensions implementations)

/-! ## Edges -/

theorem declares_iff {a : ArchiveReport} {name : String} :
    declares a name = true ↔ name ∈ a.allClasses.map (·.name) := by
  simp [declares]

/-- The key of every class of an archive is among its rows. -/
theorem key_mem_classRows {a : ArchiveReport} {name : String}
    (declared : name ∈ a.allClasses.map (·.name)) :
    classKey a.fileName name ∈ (classRows a).map ClassRow.key := by
  obtain ⟨c, listed, rfl⟩ := List.mem_map.mp declared
  exact List.mem_map.mpr ⟨⟨a.fileName, c⟩, List.mem_map.mpr ⟨c, listed, rfl⟩, rfl⟩

/-- Both ends of an edge are classes of the archive. -/
theorem ends_of_mem {a : ArchiveReport} {row : EdgeRow}
    (sent : row ∈ extendsRows a ∨ row ∈ implementsRows a) :
    row.source ∈ (classRows a).map ClassRow.key ∧ row.target ∈ (classRows a).map ClassRow.key := by
  rcases sent with extension | implementation
  · obtain ⟨c, kept, rfl⟩ := List.mem_map.mp extension
    obtain ⟨listed, linked⟩ := List.mem_filter.mp kept
    have declared := declares_iff.mp (Bool.and_eq_true_iff.mp linked).2
    exact ⟨key_mem_classRows (List.mem_map_of_mem listed), key_mem_classRows declared⟩
  · obtain ⟨c, listed, edges⟩ := List.mem_flatMap.mp implementation
    obtain ⟨name, kept, rfl⟩ := List.mem_map.mp edges
    have declared := declares_iff.mp (List.mem_filter.mp kept).2
    exact ⟨key_mem_classRows (List.mem_map_of_mem listed), key_mem_classRows declared⟩

/-- There is one edge for each class whose super class has a name and is declared. -/
theorem count_extendsRows (a : ArchiveReport) (row : EdgeRow) :
    (extendsRows a).count row = a.allClasses.countP fun c => decide (c.superName ≠ "" ∧
      c.superName ∈ a.allClasses.map (·.name) ∧
      row = ⟨classKey a.fileName c.name, classKey a.fileName c.superName⟩) := by
  unfold extendsRows
  rw [List.count, List.countP_map, List.countP_filter]
  refine List.countP_congr fun c _ => ?_
  simp only [Function.comp_apply, Bool.and_eq_true, beq_iff_eq, bne_iff_ne, declares_iff,
    edge, decide_eq_true_eq]
  constructor
  · rintro ⟨rfl, named, declared⟩
    exact ⟨named, declared, rfl⟩
  · rintro ⟨named, declared, rfl⟩
    exact ⟨rfl, named, declared⟩

theorem count_implementsRows (a : ArchiveReport) (row : EdgeRow) :
    (implementsRows a).count row =
      (a.allClasses.flatMap fun c => c.interfaces.map fun name => (c, name)).countP
      fun link => decide (link.2 ∈ a.allClasses.map (·.name) ∧
        row = ⟨classKey a.fileName link.1.name, classKey a.fileName link.2⟩) := by
  unfold implementsRows
  rw [List.count, List.countP_flatMap, List.countP_flatMap]
  congr 1
  refine List.map_congr_left fun c _ => ?_
  simp only [Function.comp_apply, List.countP_map, List.countP_filter]
  refine List.countP_congr fun name _ => ?_
  simp only [Function.comp_apply, Bool.and_eq_true, beq_iff_eq, declares_iff,
    edge, decide_eq_true_eq]
  constructor
  · rintro ⟨rfl, declared⟩
    exact ⟨declared, rfl⟩
  · rintro ⟨declared, rfl⟩
    exact ⟨rfl, declared⟩

/-! ## Parts -/

section

variable {size : Nat} {clear : Bool} {a : ArchiveReport} {part : List Statement}

/-- A part carries exactly the rows of its archive. -/
theorem Puts.sent (puts : Puts size clear a part) :
    sentClasses part = classRows a ∧ sentExtensions part = extendsRows a ∧
      sentImplementations part = implementsRows a := by
  cases puts with
  | intro classes extensions implementations =>
    rw [← classes.flatten, ← extensions.flatten, ← implementations.flatten]
    exact sent_partOf _ _ _ _ _

/-- Where a list is cut at something that is not in its front, the front is before the cut. -/
theorem exists_of_append_eq {α : Type} {front back before after : List α} {s : α}
    (cut : front ++ back = before ++ s :: after) (absent : s ∉ front) :
    ∃ mid, before = front ++ mid := by
  rcases List.append_eq_append_iff.mp cut with ⟨mid, split, -⟩ | ⟨mid, split, rest⟩
  · exact ⟨mid, split⟩
  · cases mid with
    | nil => exact ⟨[], by simpa using split.symm⟩
    | cons t mid =>
      obtain ⟨rfl, -⟩ := List.cons.inj rest
      exact absurd (by simp [split]) absent

/-- What comes before a statement about edges holds all classes of the archive. -/
theorem Puts.classes_before (puts : Puts size clear a part) {before after : List Statement}
    {s : Statement} (cut : part = before ++ s :: after)
    (edges : s.extensionBatch ≠ [] ∨ s.implementationBatch ≠ []) :
    ∀ row ∈ classRows a, row ∈ sentClasses before := by
  cases puts with
  | @intro classes extensions implementations batched =>
    have absent : s ∉ (if clear then [Statement.clear a.fileName] else []) ++ [.jar a] ++
        classes.map .classes := by
      cases s <;> simp_all [Statement.extensionBatch, Statement.implementationBatch]
    rw [partOf, List.append_assoc _ (extensions.map _)] at cut
    obtain ⟨mid, rfl⟩ := exists_of_append_eq cut absent
    intro row listed
    rw [← batched.flatten] at listed
    obtain ⟨batch, sent, carried⟩ := List.mem_flatten.mp listed
    refine List.mem_flatMap.mpr ⟨.classes batch, ?_, carried⟩
    simp [sent]

/-- When an edge is sent, the classes at both of its ends have been. -/
theorem Puts.ends_before (puts : Puts size clear a part) {before after : List Statement}
    {s : Statement} (cut : part = before ++ s :: after) {row : EdgeRow}
    (carried : row ∈ s.extensionBatch ∨ row ∈ s.implementationBatch) :
    row.source ∈ (sentClasses before).map ClassRow.key ∧
    row.target ∈ (sentClasses before).map ClassRow.key := by
  have known := puts.classes_before cut (carried.imp List.ne_nil_of_mem List.ne_nil_of_mem)
  have present : s ∈ part := by simp [cut]
  have among : row ∈ extendsRows a ∨ row ∈ implementsRows a := by
    obtain ⟨-, extensions, implementations⟩ := puts.sent
    rw [← extensions, ← implementations]
    exact carried.imp (fun c => List.mem_flatMap.mpr ⟨s, present, c⟩) fun c =>
      List.mem_flatMap.mpr ⟨s, present, c⟩
  obtain ⟨source, target⟩ := ends_of_mem among
  have moved : ∀ key ∈ (classRows a).map ClassRow.key,
      key ∈ (sentClasses before).map ClassRow.key := by
    intro key listed
    obtain ⟨row, member, rfl⟩ := List.mem_map.mp listed
    exact List.mem_map_of_mem (known row member)
  exact ⟨moved _ source, moved _ target⟩

end

/-! ## What a store receives -/

/-- A parameter of a statement. -/
def Statement.parameter? (name : String) (s : Statement) : Option Json :=
  s.parameters.bind (·.get? name)

/-- The rows of the batch that comes with a statement. -/
def Statement.batch (s : Statement) : List Json := ((s.parameter? "batch").bind Json.array?).getD []

/-- The rows that come with a text. -/
def rowsUnder (text : String) (statements : List Statement) : List Json :=
  statements.flatMap fun s => if s.text = text then s.batch else []

theorem texts_nodup : [Statement.clearText, Statement.jarText, Statement.classesText,
    Statement.extensionsText, Statement.implementationsText].Nodup := by
  decide +kernel

/-- What is told of a class by a row. -/
structure ClassRow.ToldBy (row : ClassRow) (told : Json) : Prop where
  key : told.get "key" = .string row.key
  name : told.get "name" = .string row.report.name
  jar : told.get "jar" = .string row.jar
  isInterface : told.get "interface" = .bool row.report.isInterface
  depth : told.get "depth" = .int row.report.depth
  overridden : told.get "overrides" = .int row.report.overridden
  fieldCount : told.get "fields" = .int row.report.fieldCount
  methodCount : told.get "methods" = .int row.report.methodCount
  assignments : told.get "a" = .int row.report.assignments
  branches : told.get "b" = .int row.report.branches
  conditions : told.get "c" = .int row.report.conditions
  magnitude : told.get "abc" = .float row.report.magnitude

theorem ClassRow.toldBy_toJson (row : ClassRow) : row.ToldBy row.toJson := by
  constructor <;> rfl

/-- What is told of an edge by a row. -/
structure EdgeRow.ToldBy (row : EdgeRow) (told : Json) : Prop where
  source : told.get "from" = .string row.source
  target : told.get "to" = .string row.target

theorem EdgeRow.toldBy_toJson (row : EdgeRow) : row.ToldBy row.toJson := by
  constructor <;> rfl

/-- What is told of an archive by a row. -/
structure ArchiveToldBy (a : ArchiveReport) (told : Json) : Prop where
  name : told.get "name" = .string a.fileName
  totalClasses : told.get "total_classes" = .int a.totalClasses
  totalInterfaces : told.get "total_interfaces" = .int a.totalInterfaces
  maxDepth : told.get "max_depth" = .int a.maxDepth
  averageDepth : told.get "average_depth" = .float a.averageDepth
  magnitude : told.get "abc_magnitude" = .float a.magnitude
  averageOverridden : told.get "average_overridden_methods" = .float a.averageOverridden
  averageFields : told.get "average_fields_per_class" = .float a.averageFields

theorem archiveToldBy_jarRow (a : ArchiveReport) : ArchiveToldBy a (jarRow a) := by
  constructor <;> rfl

/-- What a store receives with the statements for an archive. It is told to remove the classes of no
other archive, and of that one only if that is asked for. It is told of the archive once, and with
each of the three texts that put in rows it is told of all rows of that kind, in their order. -/
structure Received (clear : Bool) (a : ArchiveReport) (part : List Statement) : Prop where
  removal :
    part.filterMap (Statement.parameter? "jar") = if clear then [.string a.fileName] else []
  archive : ∃ told, part.filterMap (Statement.parameter? "row") = [told] ∧ ArchiveToldBy a told
  classes : List.Forall₂ ClassRow.ToldBy (classRows a) (rowsUnder Statement.classesText part)
  extensions : List.Forall₂ EdgeRow.ToldBy (extendsRows a) (rowsUnder Statement.extensionsText part)
  implementations :
    List.Forall₂ EdgeRow.ToldBy (implementsRows a) (rowsUnder Statement.implementationsText part)

section

variable {clear : Bool} {a : ArchiveReport} {classes : List (List ClassRow)}
  {extensions implementations : List (List EdgeRow)}

/-- The statements with batches have no other parameters, so those that open a part have them
all. -/
theorem filterMap_parameter_partOf {name : String} (other : name = "jar" ∨ name = "row") :
    (partOf clear a classes extensions implementations).filterMap (Statement.parameter? name) =
      ((if clear then [Statement.clear a.fileName] else []) ++ [Statement.jar a]).filterMap
        (Statement.parameter? name) := by
  have silent : ∀ s ∈ classes.map Statement.classes ++ (extensions.map Statement.extensions ++
      implementations.map Statement.implementations), s.parameter? name = none := by
    intro s member
    simp only [List.mem_append, List.mem_map] at member
    rcases other with rfl | rfl <;>
      rcases member with ⟨_, _, rfl⟩ | ⟨_, _, rfl⟩ | ⟨_, _, rfl⟩ <;> rfl
  rw [partOf, List.append_assoc, List.append_assoc, List.filterMap_append,
    List.filterMap_eq_nil_iff.mpr silent, List.append_nil]

/-- Batches that come with a text of their own are found under it, and under no other. -/
theorem rowsUnder_map {α : Type} (statement : List α → Statement) (own : String)
    (toJson : α → Json) (known : ∀ batch, (statement batch).text = own)
    (carried : ∀ batch, (statement batch).batch = batch.map toJson) (text : String)
    (batches : List (List α)) :
    rowsUnder text (batches.map statement) =
      if own = text then batches.flatten.map toJson else [] := by
  unfold rowsUnder
  simp only [List.flatMap_map, known, carried]
  split
  · rw [List.map_flatten, List.flatMap_def]
  · exact List.flatMap_eq_nil_iff.mpr fun _ _ => rfl

/-- Under each text there are the batches that come with it. -/
theorem rowsUnder_partOf (text : String) :
    rowsUnder text (partOf clear a classes extensions implementations) =
      (if Statement.classesText = text then classes.flatten.map ClassRow.toJson else []) ++
      (if Statement.extensionsText = text then extensions.flatten.map EdgeRow.toJson else []) ++
      if Statement.implementationsText = text then implementations.flatten.map EdgeRow.toJson
      else [] := by
  -- neither the removal nor the archive comes with a batch
  have opening : rowsUnder text
      ((if clear then [Statement.clear a.fileName] else []) ++ [.jar a]) = [] := by
    refine List.flatMap_eq_nil_iff.mpr fun s member => ?_
    have bare : s.batch = [] := by
      cases clear <;> simp at member
      · obtain rfl := member
        rfl
      · rcases member with rfl | rfl <;> rfl
    rw [bare, ite_self]
  rw [← rowsUnder_map .classes Statement.classesText _ (fun _ => rfl) (fun _ => rfl),
    ← rowsUnder_map .extensions Statement.extensionsText _ (fun _ => rfl) (fun _ => rfl),
    ← rowsUnder_map .implementations Statement.implementationsText _ (fun _ => rfl) fun _ => rfl]
  unfold rowsUnder at opening ⊢
  simp only [partOf, List.flatMap_append] at opening ⊢
  rw [opening, List.nil_append]

end

theorem Puts.received {size : Nat} {clear : Bool} {a : ArchiveReport} {part : List Statement}
    (puts : Puts size clear a part) : Received clear a part := by
  obtain ⟨-, -, distinct, distinct', -⟩ := by simpa only [List.nodup_cons] using texts_nodup
  simp only [List.mem_cons, List.not_mem_nil, or_false, not_or] at distinct distinct'
  cases puts with
  | intro cut cut' cut'' =>
    constructor
    · rw [filterMap_parameter_partOf (.inl rfl)]
      cases clear <;> rfl
    · refine ⟨jarRow a, ?_, archiveToldBy_jarRow a⟩
      rw [filterMap_parameter_partOf (.inr rfl)]
      cases clear <;> rfl
    · rw [rowsUnder_partOf, if_pos rfl, if_neg (Ne.symm distinct.1), if_neg (Ne.symm distinct.2),
        List.append_nil, List.append_nil, cut.flatten, List.forall₂_map_right_iff,
        List.forall₂_same]
      exact fun row _ => row.toldBy_toJson
    · rw [rowsUnder_partOf, if_neg distinct.1, if_pos rfl, if_neg (Ne.symm distinct'),
        List.append_nil, List.nil_append, cut'.flatten, List.forall₂_map_right_iff,
        List.forall₂_same]
      exact fun row _ => row.toldBy_toJson
    · rw [rowsUnder_partOf, if_neg distinct.2, if_neg distinct', if_pos rfl,
        List.nil_append, List.nil_append, cut''.flatten, List.forall₂_map_right_iff,
        List.forall₂_same]
      exact fun row _ => row.toldBy_toJson

/-! ## The script -/

/-- The rows of an archive can be counted: there are no more than a quarter of the range of 64 bits,
which is far more than a memory can hold. -/
structure Countable (a : ArchiveReport) : Prop where
  classes : (a.allClasses.length : Int) ≤ quarter
  interfaces : ((a.allClasses.flatMap (·.interfaces)).length : Int) ≤ quarter

theorem length_extendsRows_le (a : ArchiveReport) :
    (extendsRows a).length ≤ a.allClasses.length := by
  unfold extendsRows
  rw [List.length_map]
  exact List.length_filter_le _ _

theorem length_implementsRows_le (a : ArchiveReport) :
    (implementsRows a).length ≤ (a.allClasses.flatMap (·.interfaces)).length := by
  unfold implementsRows
  induction a.allClasses with
  | nil => exact Nat.le_refl _
  | cons c rest ih =>
    simp only [List.flatMap_cons, List.length_append, List.length_map]
    have fewer := List.length_filter_le (declares a) c.interfaces
    omega

/-- The part for an archive whose rows can be counted is whole. -/
theorem archiveStage_puts {size : Int64} (positive : 0 < size.toInt) (small : size.toInt < quarter)
    (clear : Bool) {a : ArchiveReport} (countable : Countable a) :
    (archiveStage size clear a).breaks = false ∧
      Puts size.toInt.toNat clear a (archiveStage size clear a).statements := by
  have classes : ((classRows a).length : Int) ≤ quarter := by
    simpa [classRows] using countable.classes
  have extensions : ((extendsRows a).length : Int) ≤ quarter :=
    Int.le_trans (by exact_mod_cast length_extendsRows_le a) countable.classes
  have implementations : ((implementsRows a).length : Int) ≤ quarter :=
    Int.le_trans (by exact_mod_cast length_implementsRows_le a) countable.interfaces
  obtain ⟨cs, cut, batched⟩ := chunkRows_batched classes positive small
  obtain ⟨es, cut', batched'⟩ := chunkRows_batched extensions positive small
  obtain ⟨is, cut'', batched''⟩ := chunkRows_batched implementations positive small
  have steps : rowSteps size a =
      [some (cs.map .classes), some (es.map .extensions), some (is.map .implementations)] := by
    unfold rowSteps
    rw [cut, cut', cut'']
    rfl
  have rows : ((rowSteps size a).takeWhile Option.isSome).flatMap (·.getD []) =
      cs.map .classes ++ es.map .extensions ++ is.map .implementations := by
    rw [steps]
    show cs.map Statement.classes ++
      (es.map Statement.extensions ++ (is.map Statement.implementations ++ [])) = _
    rw [List.append_nil, List.append_assoc]
  have statements : (archiveStage size clear a).statements = partOf clear a cs es is := by
    show _ ++ List.flatMap _ _ = _
    rw [rows, partOf, ← List.append_assoc, ← List.append_assoc]
  have unbroken : (archiveStage size clear a).breaks = false := by
    unfold archiveStage
    rw [steps]
    rfl
  refine ⟨unbroken, ?_⟩
  rw [statements]
  exact .intro batched batched' batched''

/-- The largest number of rows in a batch; a size that is not positive stands for 500. -/
def batchBound (size : Int64) : Nat := if size ≤ 0 then 500 else size.toInt.toNat

theorem effectiveBatchSize_eq {size : Int64} (small : size.toInt < quarter) :
    0 < (effectiveBatchSize size).toInt ∧ (effectiveBatchSize size).toInt < quarter ∧
      (effectiveBatchSize size).toInt.toNat = batchBound size := by
  unfold effectiveBatchSize batchBound
  by_cases given : size ≤ 0
  · rw [if_pos given, if_pos given]
    decide
  · rw [if_neg given, if_neg given]
    rw [Int64.le_iff_toInt_le, Int64.toInt_zero] at given
    exact ⟨by omega, small, rfl⟩

/-- The statements for each archive of a report. -/
def archiveParts (size : Int64) (clear : Bool) (archives : List ArchiveReport) :
    List (List Statement) :=
  archives.map fun a => (archiveStage (effectiveBatchSize size) clear a).statements

/-- A report whose rows can be counted has a whole part for each archive. -/
theorem archiveParts_put (size : Int64) (small : size.toInt < quarter) (clear : Bool)
    {report : Report} (countable : ∀ a ∈ report.archives, Countable a) :
    (∀ stage ∈ stages size clear report, stage.breaks = false) ∧
      List.Forall₂ (Puts (batchBound size) clear) report.archives
        (archiveParts size clear report.archives) := by
  obtain ⟨positive, bounded, effective⟩ := effectiveBatchSize_eq small
  have each (a : ArchiveReport) (member : a ∈ report.archives) :=
    archiveStage_puts positive bounded clear (countable a member)
  constructor
  · intro stage member
    rcases List.mem_cons.mp member with rfl | later
    · rfl
    · obtain ⟨a, listed, rfl⟩ := List.mem_map.mp later
      exact (each a listed).1
  · unfold archiveParts
    rw [List.forall₂_map_right_iff, List.forall₂_same]
    intro a member
    exact effective ▸ (each a member).2

/-! ## Issuing statements -/

/-- The store takes every statement of a script, of which `done` came before. -/
def Store.Takes (store : Store) (done : Nat) (script : List Statement) : Prop :=
  ∀ k s, script[k]? = some s → store (done + k + 1) s = none

/-- The first statement of a script that the store refuses is the one behind `k` others. -/
def Store.Refuses (store : Store) (done : Nat) (script : List Statement) (k : Nat)
    (cause : Failure) : Prop :=
  (∃ s, script[k]? = some s ∧ store (done + k + 1) s = some cause) ∧
    store.Takes done (script.take k)

section

variable {store : Store} {done : Nat} {script : List Statement}

theorem Store.Takes.rest {s : Statement} (takes : store.Takes done (s :: script)) :
    store.Takes (done + 1) script := by
  intro k t stands
  rw [show done + 1 + k + 1 = done + (k + 1) + 1 by omega]
  exact takes (k + 1) t stands

theorem Store.Takes.append {front back : List Statement}
    (takes : store.Takes done (front ++ back)) :
    store.Takes done front ∧ store.Takes (done + front.length) back := by
  constructor
  · intro k s stands
    have inside := (List.getElem?_eq_some_iff.mp stands).1
    exact takes k s (by rw [List.getElem?_append_left inside, stands])
  · intro k s stands
    rw [Nat.add_assoc done]
    exact takes (front.length + k) s
      (by rw [List.getElem?_append_right (by omega)]; simpa using stands)

/-- A store that takes all statements is sent all of them. -/
theorem issue_of_takes (takes : store.Takes done script) :
    issue store done script = ⟨script, none⟩ := by
  induction script generalizing done with
  | nil => rfl
  | cons s rest ih =>
    have first : store (done + 1) s = none := takes 0 s rfl
    simp [issue, first, ih takes.rest]

/-- A store is sent nothing behind the first statement that it refuses. -/
theorem issue_of_refuses {k : Nat} {cause : Failure} (refuses : store.Refuses done script k cause) :
    issue store done script = ⟨script.take (k + 1), some cause⟩ := by
  induction script generalizing done k with
  | nil =>
    obtain ⟨⟨s, stands, -⟩, -⟩ := refuses
    cases stands
  | cons t rest ih =>
    obtain ⟨⟨s, stands, refused⟩, takes⟩ := refuses
    cases k with
    | zero =>
      obtain rfl : t = s := by simpa using stands
      simp [issue, refused]
    | succ k =>
      rw [List.take_succ_cons] at takes
      have first : store (done + 1) t = none := takes 0 t rfl
      rw [show done + (k + 1) + 1 = done + 1 + k + 1 by omega] at refused
      have others := ih ⟨⟨s, by simpa using stands, refused⟩, takes.rest⟩
      simp [issue, first, others]

theorem issue_append_of_failure {front back : List Statement} {cause : Failure}
    (failed : (issue store done front).failure = some cause) :
    issue store done (front ++ back) = issue store done front := by
  induction front generalizing done with
  | nil => cases failed
  | cons s rest ih =>
    cases answer : store (done + 1) s with
    | some failure => simp [issue, answer]
    | none =>
      simp only [issue, answer] at failed
      simp [issue, answer, ih failed]

theorem issue_append_of_none {front : List Statement}
    (quiet : (issue store done front).failure = none) (back : List Statement) :
    (issue store done front).statements = front ∧
      issue store done (front ++ back) =
        ⟨front ++ (issue store (done + front.length) back).statements,
        (issue store (done + front.length) back).failure⟩ := by
  induction front generalizing done with
  | nil => exact ⟨rfl, rfl⟩
  | cons s rest ih =>
    cases answer : store (done + 1) s with
    | some failure => simp [issue, answer] at quiet
    | none =>
      simp only [issue, answer] at quiet
      obtain ⟨all, others⟩ := ih quiet
      rw [show done + 1 + rest.length = done + (s :: rest).length by rw [List.length_cons]; omega]
        at others
      simp [issue, answer, all, others]

theorem issue_front (store : Store) (done : Nat) (statements : List Statement) :
    (issue store done statements).statements <+: statements := by
  induction statements generalizing done with
  | nil => exact List.prefix_refl _
  | cons s rest ih =>
    unfold issue
    cases store (done + 1) s with
    | some failure => exact List.prefix_append [s] rest
    | none => exact List.prefix_cons_iff.mpr (.inr ⟨_, rfl, ih (done + 1)⟩)

/-- Whole parts are issued like their statements in a row; a failure is told with a note on the part
in which it came. -/
theorem issueStages_eq (store : Store) (summary : ExportSummary) (done : Nat) {parts : List Stage}
    (whole : ∀ part ∈ parts, part.breaks = false) :
    (issueStages store summary done parts).statements =
      (issue store done (parts.flatMap Stage.statements)).statements ∧
    ((issue store done (parts.flatMap Stage.statements)).failure = none →
      (issueStages store summary done parts).outcome = some (.ok summary)) ∧
    ∀ cause, (issue store done (parts.flatMap Stage.statements)).failure = some cause →
      ∃ complaint, (issueStages store summary done parts).outcome =
        some (.error (.codedBy .graphExport complaint cause)) := by
  induction parts generalizing done with
  | nil => exact ⟨rfl, fun _ => rfl, fun cause failed => by cases failed⟩
  | cons part rest ih =>
    have here := whole part List.mem_cons_self
    rw [List.flatMap_cons]
    cases failed : (issue store done part.statements).failure with
    | some cause =>
      rw [issue_append_of_failure failed, failed]
      simp only [issueStages, failed]
      refine ⟨trivial, fun quiet => (nomatch quiet), fun cause' same => ?_⟩
      obtain rfl := Option.some.inj same
      exact ⟨_, rfl⟩
    | none =>
      obtain ⟨all, others⟩ := issue_append_of_none failed (rest.flatMap Stage.statements)
      obtain ⟨statements, summarized, noted⟩ := ih (done + part.statements.length)
        fun other member => whole other (List.mem_cons_of_mem part member)
      rw [others]
      simp only [issueStages, failed, all, here]
      exact ⟨by rw [← statements]; rfl, summarized, noted⟩

/-- What is issued of parts is a front of any statements that go on where a part breaks off. -/
theorem issueStages_front (store : Store) (summary : ExportSummary) (done : Nat)
    (parts : List Stage) (wholes : List (List Statement))
    (continued : List.Forall₂ (fun part whole => part.statements <+: whole ∧
      (part.breaks = false → part.statements = whole)) parts wholes) :
    (issueStages store summary done parts).statements <+: wholes.flatten := by
  induction continued generalizing done with
  | nil => exact List.prefix_refl _
  | @cons part whole parts wholes first _ ih =>
    have front := (issue_front store done part.statements).trans first.1
    rw [List.flatten_cons]
    cases failed : (issue store done part.statements).failure with
    | some cause =>
      simp only [issueStages, failed]
      exact front.trans (List.prefix_append _ _)
    | none =>
      cases broken : part.breaks with
      | true =>
        simp only [issueStages, failed, broken]
        exact front.trans (List.prefix_append _ _)
      | false =>
        have all := (issue_append_of_none failed []).1
        obtain rfl := first.2 broken
        simp only [issueStages, failed, broken, all, Bool.false_eq_true, if_false]
        exact (List.prefix_append_right_inj _).mpr (ih _)

/-- A store that takes everything is sent all parts up to the first one that breaks, and there is no
outcome. -/
theorem issueStages_of_breaks {summary : ExportSummary} {front rest : List Stage} {part : Stage}
    (whole : ∀ other ∈ front, other.breaks = false) (broken : part.breaks = true)
    (takes : store.Takes done ((front ++ [part]).flatMap Stage.statements)) :
    (issueStages store summary done (front ++ part :: rest)).statements =
        (front ++ [part]).flatMap Stage.statements ∧
      (issueStages store summary done (front ++ part :: rest)).outcome = none := by
  induction front generalizing done with
  | nil =>
    rw [List.nil_append, List.flatMap_singleton] at takes
    simp [issueStages, issue_of_takes takes, broken]
  | cons other front ih =>
    have here := whole other List.mem_cons_self
    rw [List.cons_append, List.flatMap_cons] at takes
    obtain ⟨sent, behind⟩ := takes.append
    obtain ⟨statements, outcome⟩ := ih
      (fun other' member => whole other' (List.mem_cons_of_mem other member)) behind
    simp [issueStages, issue_of_takes sent, here, statements, outcome]

end

/-! ## The whole export -/

theorem foldl_length {α β : Type} (rows : α → List β) (archives : List α) (start : Nat) :
    archives.foldl (fun sum a => sum + (rows a).length) start =
      start + (archives.flatMap rows).length := by
  induction archives generalizing start with
  | nil => rfl
  | cons a rest ih =>
    rw [List.foldl_cons, ih, List.flatMap_cons, List.length_append]
    omega

/-- The parts together carry the rows of all archives. -/
theorem sent_flatten {size : Nat} {clear : Bool} {archives : List ArchiveReport}
    {parts : List (List Statement)} (puts : List.Forall₂ (Puts size clear) archives parts) :
    sentClasses parts.flatten = archives.flatMap classRows ∧
      sentExtensions parts.flatten = archives.flatMap extendsRows ∧
      sentImplementations parts.flatten = archives.flatMap implementsRows := by
  induction puts with
  | nil => exact ⟨rfl, rfl, rfl⟩
  | cons first _ ih =>
    obtain ⟨classes, extensions, implementations⟩ := first.sent
    unfold sentClasses sentExtensions sentImplementations at *
    simp [classes, extensions, implementations, ih]

/-- What is sent when nothing fails: the indexes, and then the parts for the archives. -/
def script (parts : List (List Statement)) : List Statement :=
  .jarIndex :: .classIndex :: parts.flatten

/-- The summary of a report counts the rows of its script. -/
theorem summary_of_puts {size : Nat} {clear : Bool} {report : Report}
    {parts : List (List Statement)}
    (puts : List.Forall₂ (Puts size clear) report.archives parts) :
    (ExportSummary.of report).classes = (sentClasses (script parts)).length ∧
      (ExportSummary.of report).extensions = (sentExtensions (script parts)).length ∧
      (ExportSummary.of report).implementations = (sentImplementations (script parts)).length := by
  obtain ⟨classes, extensions, implementations⟩ := sent_flatten puts
  refine ⟨?_, ?_, ?_⟩
  · show report.archives.foldl _ 0 = (sentClasses parts.flatten).length
    rw [foldl_length, classes, Nat.zero_add]
  · show report.archives.foldl _ 0 = (sentExtensions parts.flatten).length
    rw [foldl_length, extensions, Nat.zero_add]
  · show report.archives.foldl _ 0 = (sentImplementations parts.flatten).length
    rw [foldl_length, implementations, Nat.zero_add]

/-- All parts of an export in a row are a script. -/
theorem flatMap_stages (size : Int64) (clear : Bool) (archives : List ArchiveReport) :
    (indexStage :: archives.map (archiveStage (effectiveBatchSize size) clear)).flatMap
      Stage.statements = script (archiveParts size clear archives) := by
  rw [List.flatMap_cons, List.flatMap_map, List.flatMap_def]
  rfl

/-- An export issues one script, whatever the store answers, and stops at the first statement that
is refused. The script makes the two indexes and then puts in one archive after the other, with
parameters that tell all of its rows. Each edge of the script has both its ends among the classes
that were sent for its archive before, and there is exactly one edge for each super class that has a
name and each interface that is listed, if the archive declares them. When all is taken, the summary
counts the archives and the rows that were sent; when a statement is refused there is no summary,
and the failure has the code of an export. -/
theorem exportReport_script (report : Report) (size : Int64) (clear : Bool)
    (small : size.toInt < 0x4000000000000000) (countable : ∀ a ∈ report.archives, Countable a) :
    ∃ parts, List.Forall₂ (Puts (batchBound size) clear) report.archives parts ∧
      (∀ a part, Puts (batchBound size) clear a part → Received clear a part ∧
        ∀ before s after, part = before ++ s :: after →
          ∀ row, row ∈ s.extensionBatch ∨ row ∈ s.implementationBatch →
            row.source ∈ (sentClasses before).map ClassRow.key ∧
            row.target ∈ (sentClasses before).map ClassRow.key) ∧
      (∀ a row,
        ((extendsRows a).count row = a.allClasses.countP fun c => decide (c.superName ≠ "" ∧
          c.superName ∈ a.allClasses.map (·.name) ∧
          row = ⟨classKey a.fileName c.name, classKey a.fileName c.superName⟩)) ∧
        (implementsRows a).count row =
          (a.allClasses.flatMap fun c => c.interfaces.map fun name => (c, name)).countP
          fun link => decide (link.2 ∈ a.allClasses.map (·.name) ∧
            row = ⟨classKey a.fileName link.1.name, classKey a.fileName link.2⟩)) ∧
      ∀ store : Store,
        (store.Takes 0 (script parts) →
          (exportReport store size clear (some report)).statements = script parts ∧
          ∃ summary, (exportReport store size clear (some report)).outcome = some (.ok summary) ∧
            summary.archives = report.archives.length ∧
            summary.classes = (sentClasses (script parts)).length ∧
            summary.extensions = (sentExtensions (script parts)).length ∧
            summary.implementations = (sentImplementations (script parts)).length) ∧
        ∀ k cause, store.Refuses 0 (script parts) k cause →
          (exportReport store size clear (some report)).statements = (script parts).take (k + 1) ∧
          ∃ failure, (exportReport store size clear (some report)).outcome = some (.error failure) ∧
            failure.code?.map FailureCode.name = some "EXPORT_ERROR" ∧ cause ∈ failure.chain := by
  obtain ⟨whole, parts⟩ := archiveParts_put size small clear countable
  refine ⟨archiveParts size clear report.archives, parts,
    fun a part puts => ⟨puts.received, fun before s after cut row => puts.ends_before cut⟩,
    fun a row => ⟨count_extendsRows a row, count_implementsRows a row⟩, ?_⟩
  intro store
  obtain ⟨statements, summarized, noted⟩ := issueStages_eq store (.of report) 0 whole
  rw [show (stages size clear report).flatMap Stage.statements = _ from
    flatMap_stages size clear report.archives] at statements summarized noted
  unfold exportReport
  rw [statements]
  refine ⟨fun takes => ?_, fun k cause refuses => ?_⟩
  · rw [issue_of_takes takes] at summarized ⊢
    exact ⟨rfl, _, summarized rfl, rfl, summary_of_puts parts⟩
  · rw [issue_of_refuses refuses] at noted ⊢
    obtain ⟨complaint, failed⟩ := noted cause rfl
    refine ⟨rfl, _, failed, rfl, ?_⟩
    exact List.mem_cons_of_mem _ (by cases cause <;> simp [Failure.chain])

/-- An export breaks down at the first archive that has rows which cannot be cut. A store that takes
everything has been sent the archives before it, and of that archive what comes before those
rows. -/
theorem exportReport_breaks_down {report : Report} {size : Int64} {clear : Bool}
    {before after : List ArchiveReport} {a : ArchiveReport}
    (listed : report.archives = before ++ a :: after)
    (whole : ∀ b ∈ before, none ∉ rowSteps (effectiveBatchSize size) b)
    (broken : none ∈ rowSteps (effectiveBatchSize size) a) {store : Store}
    (takes : store.Takes 0 (script (archiveParts size clear (before ++ [a])))) :
    (exportReport store size clear (some report)).statements =
        script (archiveParts size clear (before ++ [a])) ∧
      (exportReport store size clear (some report)).outcome = none := by
  have parts : stages size clear report =
      (indexStage :: before.map (archiveStage (effectiveBatchSize size) clear)) ++
        archiveStage (effectiveBatchSize size) clear a ::
          after.map (archiveStage (effectiveBatchSize size) clear) := by
    rw [stages, listed, List.map_append, List.map_cons, List.cons_append]
  have sent := flatMap_stages size clear (before ++ [a])
  rw [List.map_append, List.map_singleton, ← List.cons_append] at sent
  have front : ∀ stage ∈ indexStage :: before.map (archiveStage (effectiveBatchSize size) clear),
      stage.breaks = false := by
    intro stage member
    rcases List.mem_cons.mp member with rfl | later
    · rfl
    · obtain ⟨b, earlier, rfl⟩ := List.mem_map.mp later
      refine Bool.eq_false_iff.mpr fun broken => ?_
      obtain ⟨step, member, missing⟩ := List.any_eq_true.mp broken
      cases step with
      | none => exact whole b earlier member
      | some batches => cases missing
  have here : (archiveStage (effectiveBatchSize size) clear a).breaks = true :=
    List.any_eq_true.mpr ⟨none, broken, rfl⟩
  simp only [exportReport]
  rw [parts, ← sent]
  exact issueStages_of_breaks front here (sent ▸ takes)

/-- A class of which nothing is known but what it extends and implements. -/
def bareReport (name superName : String) (interfaces : List String) : ClassReport :=
  { name, superName, interfaces, isInterface := false, depth := 0, overridden := 0, fieldCount := 0,
    methodCount := 0, assignments := 0, branches := 0, conditions := 0, magnitude := 0 }

/-- An archive of which nothing is known but its classes. -/
def bareArchive (path : String) (allClasses : List ClassReport) : ArchiveReport :=
  { fileName := path, path, totalClasses := 0, totalInterfaces := 0, maxDepth := 0,
    averageDepth := 0, assignments := 0, branches := 0, conditions := 0, magnitude := 0,
    averageOverridden := 0, averageFields := 0, entriesScanned := 0, skipped := [], classes := [],
    allClasses }

/-- Three classes, one of which extends another and implements the third. -/
def threeClasses : Report :=
  { archives := [bareArchive "shapes.jar" [bareReport "Base" "" ["Shape", "Closeable"],
      bareReport "Circle" "Base" ["Shape"], bareReport "Shape" "" []]]
    summary := .of [], warnings := [], errors := [], generatedAt := "", version := "" }

/-- With batches of two, the store that refuses the fourth statement is sent the same four as the
one that takes all. -/
theorem exportReport_script_threeClasses :
    ∃ parts, List.Forall₂ (Puts 2 true) threeClasses.archives parts ∧
      (exportReport (fun _ _ => none) 2 true (some threeClasses)).statements = script parts ∧
      (exportReport (fun k _ => if k = 4 then some (.plain "refused") else none) 2 true
        (some threeClasses)).statements = (script parts).take 4 := by
  have countable : ∀ a ∈ threeClasses.archives, Countable a := by
    intro a member
    obtain rfl := List.mem_singleton.mp member
    exact ⟨by decide, by decide⟩
  obtain ⟨parts, puts, -, -, issued⟩ :=
    exportReport_script threeClasses 2 true (by decide) countable
  refine ⟨parts, puts, ((issued _).1 fun _ _ _ => rfl).1,
    ((issued _).2 3 (.plain "refused") ⟨?_, ?_⟩).1⟩
  · -- behind the two indexes and the removal comes the archive
    cases puts with
    | cons first rest =>
      cases rest
      cases first with
      | intro => exact ⟨_, rfl, rfl⟩
  · intro k s stands
    have bound := (List.getElem?_eq_some_iff.mp stands).1
    rw [List.length_take] at bound
    exact if_neg (by omega)

end JarMetrics.Graph
