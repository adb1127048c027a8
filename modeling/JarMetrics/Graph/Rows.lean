import JarMetrics.Json.Basic
import JarMetrics.Report.Basic

/-!
# Rows for a graph store

Every class of an archive is a node with its figures. An edge leads from a class to its super class
or to an interface if that is declared in the same archive.
-/

namespace JarMetrics.Graph

/-- The key of a class: classes of different archives are different nodes. -/
def classKey (jar name : String) : String := jar ++ "!" ++ name

/-- The row of a class. -/
structure ClassRow where
  jar : String
  report : ClassReport

/-- The key of a row. -/
def ClassRow.key (row : ClassRow) : String := classKey row.jar row.report.name

/-- A row as JSON. -/
def ClassRow.toJson (row : ClassRow) : Json :=
  let c := row.report
  .object [("key", .string row.key), ("name", .string c.name), ("jar", .string row.jar),
    ("interface", .bool c.isInterface), ("depth", .int c.depth), ("overrides", .int c.overridden),
    ("fields", .int c.fieldCount), ("methods", .int c.methodCount), ("a", .int c.assignments),
    ("b", .int c.branches), ("c", .int c.conditions), ("abc", .float c.magnitude)]

/-- The row of an edge between two keys. -/
structure EdgeRow where
  source : String
  target : String
  deriving Repr, DecidableEq

/-- A row as JSON. -/
def EdgeRow.toJson (row : EdgeRow) : Json :=
  .object [("from", .string row.source), ("to", .string row.target)]

/-- The row of an archive as JSON. -/
def jarRow (a : ArchiveReport) : Json :=
  .object [("name", .string a.fileName), ("total_classes", .int a.totalClasses),
    ("total_interfaces", .int a.totalInterfaces), ("max_depth", .int a.maxDepth),
    ("average_depth", .float a.averageDepth), ("abc_magnitude", .float a.magnitude),
    ("average_overridden_methods", .float a.averageOverridden),
    ("average_fields_per_class", .float a.averageFields)]

/-- Whether an archive declares a class of a name. -/
def declares (a : ArchiveReport) (name : String) : Bool := a.allClasses.any (·.name == name)

/-- The edge from a class to a name. -/
def edge (a : ArchiveReport) (c : ClassReport) (name : String) : EdgeRow :=
  ⟨classKey a.fileName c.name, classKey a.fileName name⟩

/-- The rows of the classes of an archive. -/
def classRows (a : ArchiveReport) : List ClassRow := a.allClasses.map fun c => ⟨a.fileName, c⟩

/-- The rows of the edges to super classes. -/
def extendsRows (a : ArchiveReport) : List EdgeRow :=
  (a.allClasses.filter fun c => c.superName != "" && declares a c.superName).map fun c =>
    edge a c c.superName

/-- The rows of the edges to interfaces. -/
def implementsRows (a : ArchiveReport) : List EdgeRow :=
  a.allClasses.flatMap fun c => (c.interfaces.filter (declares a)).map (edge a c)

end JarMetrics.Graph
