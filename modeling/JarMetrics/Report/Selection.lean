import JarMetrics.Report.Basic

/-!
# Which classes are listed

Classes are listed in the order of a criterion, the largest first, or by name. Ties are settled by
name, and classes of one name stay in their order.
-/

namespace JarMetrics

/-- What classes are ordered by. -/
inductive SortKey
  | name
  | depth
  /-- The magnitude of the ABC vector. -/
  | complexity
  | overrides
  | fields
  deriving Repr, DecidableEq

namespace SortKey

/-- The name of a criterion. -/
def text : SortKey → String
  | .name => "name"
  | .depth => "depth"
  | .complexity => "complexity"
  | .overrides => "overrides"
  | .fields => "fields"

/-- All criteria. -/
def all : List SortKey := [.name, .depth, .complexity, .overrides, .fields]

/-- The criterion with a name. -/
def ofName? (name : String) : Option SortKey := all.find? (·.text == name)

/-- Whether a name is that of a criterion. -/
def isValid (name : String) : Bool := (ofName? name).isSome

/-- The number that a criterion orders by, if it orders by one. -/
def weight? : SortKey → Option (ClassReport → Float)
  | .name => none
  | .depth => some fun c => Float.ofInt c.depth
  | .complexity => some (·.magnitude)
  | .overrides => some fun c => Float.ofInt c.overridden
  | .fields => some fun c => Float.ofInt c.fieldCount

end SortKey

/-- Whether class `a` must stand before class `b`. -/
def ClassReport.before (weight? : Option (ClassReport → Float)) (a b : ClassReport) : Bool :=
  match weight? with
  | some weight => if weight a != weight b then weight b < weight a else a.name < b.name
  | none => a.name < b.name

/-- The first `top` classes in the order of a criterion, or all if `top` is not positive. An unknown
criterion orders by name. -/
def selectClasses (classes : List ClassReport) (sort : String) (top : Int) : List ClassReport :=
  let weight? := (SortKey.ofName? sort).bind SortKey.weight?
  let sorted := classes.mergeSort fun a b => !ClassReport.before weight? b a
  if 0 < top then sorted.take top.toNat else sorted

end JarMetrics
