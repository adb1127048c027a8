import JarMetrics.Report.Basic

/-!
# Reading reports back

The inverse of `Report.toJson`. A member that is missing counts as zero, empty or false.
-/

namespace JarMetrics

namespace Json

/-- The text of a member, empty when there is none. -/
def textAt (key : String) (value : Json) : String := ((value.get key).string?).getD ""

/-- The items of a member, empty when there are none. -/
def itemsAt (key : String) (value : Json) : List Json := ((value.get key).array?).getD []

/-- The texts of a member; an item that is none counts as empty. -/
def textsAt (key : String) (value : Json) : List String :=
  (value.itemsAt key).map (·.string?.getD "")

/-- The truth value of a member. -/
def boolAt (key : String) (value : Json) : Bool := ((value.get key).bool?).getD false

/-- The number of a member as a double. -/
def floatAt (key : String) (value : Json) : Float := ((value.get key).float?).getD 0.0

/-- The integer of a member. -/
def intAt (key : String) (value : Json) : Int :=
  match value.get key with
  | .int n => n
  | _ => 0

end Json

/-- Read a class. -/
def ClassReport.ofJson (j : Json) : ClassReport where
  name := j.textAt "name"
  superName := j.textAt "superName"
  interfaces := j.textsAt "interfaces"
  isInterface := j.boolAt "isInterface"
  depth := j.intAt "inheritanceDepth"
  overridden := j.intAt "overriddenMethods"
  fieldCount := j.intAt "fieldCount"
  methodCount := j.intAt "methodCount"
  assignments := (j.get "abc").intAt "assignments"
  branches := (j.get "abc").intAt "branches"
  conditions := (j.get "abc").intAt "conditions"
  magnitude := (j.get "abc").floatAt "magnitude"

/-- Read a skipped entry. -/
def SkippedReport.ofJson (j : Json) : SkippedReport := ⟨j.textAt "entry", j.textAt "reason"⟩

/-- Read an archive. Its path and its unlisted classes are not written. -/
def ArchiveReport.ofJson (j : Json) : ArchiveReport where
  fileName := j.textAt "jarFileName"
  path := ""
  totalClasses := j.intAt "totalClasses"
  totalInterfaces := j.intAt "totalInterfaces"
  maxDepth := (j.get "inheritance").intAt "maxDepth"
  averageDepth := (j.get "inheritance").floatAt "averageDepth"
  assignments := (j.get "abc").intAt "totalAssignments"
  branches := (j.get "abc").intAt "totalBranches"
  conditions := (j.get "abc").intAt "totalConditions"
  magnitude := (j.get "abc").floatAt "magnitude"
  averageOverridden := j.floatAt "averageOverriddenMethods"
  averageFields := j.floatAt "averageFieldsPerClass"
  entriesScanned := j.intAt "entriesScanned"
  skipped := (j.itemsAt "skippedEntries").map .ofJson
  classes := (j.itemsAt "classes").map .ofJson
  allClasses := []

/-- Read a summary. -/
def Summary.ofJson (j : Json) : Summary where
  archives := j.intAt "archivesAnalyzed"
  totalClasses := j.intAt "totalClasses"
  totalInterfaces := j.intAt "totalInterfaces"
  maxDepth := j.intAt "maxDepth"
  skippedEntries := j.intAt "skippedEntries"

/-- Read a report. -/
def Report.ofJson (j : Json) : Report where
  archives := (j.itemsAt "archives").map .ofJson
  listed := (j.get "archives").array?.isSome
  summary := .ofJson (j.get "summary")
  warnings := j.textsAt "warnings"
  errors := j.textsAt "errors"
  generatedAt := j.textAt "generatedAt"
  version := j.textAt "version"

end JarMetrics
