import JarMetrics.Json.Basic
import JarMetrics.Metrics.Archive

/-!
# Reports

What an analysis found: figures per archive, possibly with the classes of each, and a summary over
all archives. `Report.toJson` is the one tree from which the structured formats are written.
-/

namespace JarMetrics

/-- The figures of one class or interface. -/
structure ClassReport where
  name : String
  superName : String
  interfaces : List String
  isInterface : Bool
  depth : Int
  overridden : Int
  fieldCount : Int
  methodCount : Int
  assignments : Int
  branches : Int
  conditions : Int
  magnitude : Float
  deriving BEq

/-- An entry that could not be decoded, with the reason. -/
structure SkippedReport where
  entry : String
  reason : String
  deriving Repr, DecidableEq

/-- The figures of one archive. -/
structure ArchiveReport where
  fileName : String
  path : String
  totalClasses : Int
  totalInterfaces : Int
  maxDepth : Int
  averageDepth : Float
  assignments : Int
  branches : Int
  conditions : Int
  magnitude : Float
  averageOverridden : Float
  averageFields : Float
  entriesScanned : Int
  skipped : List SkippedReport
  /-- The classes that are listed. -/
  classes : List ClassReport
  /-- All classes, listed or not. -/
  allClasses : List ClassReport
  deriving BEq

/-- Sums over all archives. -/
structure Summary where
  archives : Int
  totalClasses : Int
  totalInterfaces : Int
  maxDepth : Int
  skippedEntries : Int
  deriving Repr, DecidableEq

/-- The result of an analysis. -/
structure Report where
  archives : List ArchiveReport
  /-- Whether there is a list of archives, if only an empty one. -/
  listed : Bool := true
  summary : Summary
  warnings : List String
  errors : List String
  generatedAt : String
  version : String
  deriving BEq

/-! ## From figures to reports -/

/-- The report of a class. -/
def ClassReport.ofFigures (c : ClassFigures) : ClassReport where
  name := c.name
  superName := c.superName
  interfaces := c.interfaces
  isInterface := c.isInterface
  depth := c.depth
  overridden := c.overridden
  fieldCount := c.fieldCount
  methodCount := c.methodCount
  assignments := c.abc.assignments.toInt
  branches := c.abc.branches.toInt
  conditions := c.abc.conditions.toInt
  magnitude := c.magnitude

/-- The sums over archives. -/
def Summary.of (archives : List ArchiveReport) : Summary where
  archives := archives.length
  totalClasses := archives.foldl (fun sum a => sum + a.totalClasses) 0
  totalInterfaces := archives.foldl (fun sum a => sum + a.totalInterfaces) 0
  maxDepth := archives.foldl (fun depth a => max depth a.maxDepth) 0
  skippedEntries := archives.foldl (fun sum a => sum + a.skipped.length) 0

/-! ## As trees -/

/-- A member that is left out when its text is empty. -/
def textMember (key text : String) : List (String × Json) :=
  if text.isEmpty then [] else [(key, .string text)]

/-- A member that is left out when it has no items. -/
def listMember (key : String) (items : List Json) : List (String × Json) :=
  if items.isEmpty then [] else [(key, .array items)]

/-- The tree of a class. -/
def ClassReport.toJson (c : ClassReport) : Json :=
  .object ([("name", .string c.name)] ++ textMember "superName" c.superName ++
    listMember "interfaces" (c.interfaces.map .string) ++
    [("isInterface", .bool c.isInterface), ("inheritanceDepth", .int c.depth),
      ("overriddenMethods", .int c.overridden), ("fieldCount", .int c.fieldCount),
      ("methodCount", .int c.methodCount),
      ("abc", .object [("assignments", .int c.assignments), ("branches", .int c.branches),
        ("conditions", .int c.conditions), ("magnitude", .float c.magnitude)])])

/-- The tree of a skipped entry. -/
def SkippedReport.toJson (s : SkippedReport) : Json :=
  .object [("entry", .string s.entry), ("reason", .string s.reason)]

/-- The tree of an archive. -/
def ArchiveReport.toJson (a : ArchiveReport) : Json :=
  .object ([("jarFileName", .string a.fileName), ("totalClasses", .int a.totalClasses),
    ("totalInterfaces", .int a.totalInterfaces),
    ("inheritance",
      .object [("maxDepth", .int a.maxDepth), ("averageDepth", .float a.averageDepth)]),
    ("abc", .object [("totalAssignments", .int a.assignments), ("totalBranches", .int a.branches),
      ("totalConditions", .int a.conditions), ("magnitude", .float a.magnitude)]),
    ("averageOverriddenMethods", .float a.averageOverridden),
    ("averageFieldsPerClass", .float a.averageFields), ("entriesScanned", .int a.entriesScanned)] ++
    listMember "skippedEntries" (a.skipped.map (·.toJson)) ++
    listMember "classes" (a.classes.map (·.toJson)))

/-- The tree of a summary. -/
def Summary.toJson (s : Summary) : Json :=
  .object [("archivesAnalyzed", .int s.archives), ("totalClasses", .int s.totalClasses),
    ("totalInterfaces", .int s.totalInterfaces), ("maxDepth", .int s.maxDepth),
    ("skippedEntries", .int s.skippedEntries)]

/-- The tree of the archives of a report. -/
def Report.archivesJson (r : Report) : Json :=
  if r.listed then .array (r.archives.map (·.toJson)) else .null

/-- The tree of a report. -/
def Report.toJson (r : Report) : Json :=
  .object ([("archives", r.archivesJson), ("summary", r.summary.toJson)] ++
    listMember "warnings" (r.warnings.map .string) ++ listMember "errors" (r.errors.map .string) ++
    [("generatedAt", .string r.generatedAt), ("version", .string r.version)])

end JarMetrics
