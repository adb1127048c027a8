import JarMetrics.Metrics.Hierarchy

/-!
# Figures of a whole archive

Totals, maxima and averages over the classes of one archive, and the figures of each class by name.
Depths and fields are averaged over all classes, overridden methods only over those that are no
interfaces. An average over nothing is 0.
-/

namespace JarMetrics

/-- The figures of one class. -/
structure ClassFigures where
  name : String
  superName : String
  interfaces : List String
  isInterface : Bool
  depth : Nat
  overridden : Nat
  fieldCount : Nat
  methodCount : Nat
  abc : Abc
  magnitude : Float
  deriving Inhabited

/-- The figures of an archive. -/
structure ArchiveFigures where
  name : String
  totalClasses : Nat
  totalInterfaces : Nat
  maxDepth : Nat
  averageDepth : Float
  abc : Abc
  magnitude : Float
  averageOverridden : Float
  averageFields : Float
  /-- By name; classes of the same name stay in the order given. -/
  classes : List ClassFigures

/-- The quotient, 0 over nothing. -/
def average (sum count : Nat) : Float :=
  if count = 0 then 0.0 else Float.ofNat sum / Float.ofNat count

/-- The figures of a class within its hierarchy. -/
def ClassFigures.of (h : Hierarchy) (r : ClassRecord) : ClassFigures :=
  { name := r.name
    superName := r.superName
    interfaces := r.interfaces
    isInterface := r.isInterface
    depth := h.depth r
    overridden := h.overridden r
    fieldCount := r.fieldCount
    methodCount := r.methods.length
    abc := r.abc
    magnitude := r.abc.magnitude }

/-- The figures of the classes of an archive. -/
def ArchiveFigures.of (name : String) (records : List ClassRecord) : ArchiveFigures :=
  let h := Hierarchy.ofList records
  let classes := records.map (ClassFigures.of h)
  let total := records.foldl (fun v r => v + r.abc) Abc.zero
  let proper := classes.filter fun c => !c.isInterface
  { name
    totalClasses := proper.length
    totalInterfaces := (classes.filter (·.isInterface)).length
    maxDepth := classes.foldl (fun deepest c => max deepest c.depth) 0
    averageDepth := average (classes.foldl (fun sum c => sum + c.depth) 0) classes.length
    abc := total
    magnitude := total.magnitude
    averageOverridden := average (proper.foldl (fun sum c => sum + c.overridden) 0) proper.length
    averageFields := average (classes.foldl (fun sum c => sum + c.fieldCount) 0) classes.length
    classes := classes.mergeSort fun c d => c.name ≤ d.name }

/-- The figures of the classes of a list that may have gaps; a gap counts for nothing. -/
def ArchiveFigures.ofSparse (name : String) (records : List (Option ClassRecord)) :
    ArchiveFigures :=
  .of name (records.filterMap id)

end JarMetrics
