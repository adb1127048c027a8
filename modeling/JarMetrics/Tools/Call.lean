import JarMetrics.Analysis.Run
import JarMetrics.Tools.Schema

/-!
# Calling tools

A tool answers with a text, which is JSON, or with what went wrong. What a call leaves open is up to
the settings.
-/

namespace JarMetrics.Tools

/-- The answer of a tool. -/
structure Answer where
  text : String
  isError : Bool := false
  deriving Repr, DecidableEq

/-- Everything that a call shows. -/
structure Call where
  answer : Answer
  log : List Log.Line := []

/-- A call that went wrong. -/
def Call.failed (text : String) (log : List Log.Line := []) : Call :=
  ⟨{ text, isError := true }, log⟩

/-- How many classes are listed where no number is given. -/
def defaultTop : Int := 20

/-- The texts of a list of which not all need be texts; empty ones do not count. -/
def textItems : Json → List String
  | .array items => (items.filterMap Json.string?).filter (· != "")
  | _ => []

/-- A list, or null if nothing is in it. -/
def listOrNull (items : List String) : Json := if items.isEmpty then .null else .strings items

/-- The arguments of a call with the path that is among them, or what is wrong with them. -/
def readPath (tree : FileTree) (arguments : Json) : Except String (Json × String) :=
  match arguments with
  | .object members =>
      match ((Json.object members).get "path").string? with
      | none | some "" => .error "path parameter is required and must be a string"
      | some path =>
          match tree.status true path with
          | .error .notFound => .error ("path does not exist: " ++ path)
          | _ => .ok (.object members, path)
  | _ => .error "invalid arguments format"

/-- The request of a call that asks for nothing but a path. -/
def pathRequest (settingsPath path : String) : Request :=
  { paths := [path], writer := true, settingsPath }

/-- Carry out the request of a call and tell of its report. -/
def answerRequest (host : Host) (request : Request) (tell : Report → Json) : Call :=
  let run := request.analyzed host .filled none
  match run.outcome with
  | .error f => .failed ("analysis failed: " ++ f.message) run.log
  | .ok p => ⟨{ text := (tell p.report).compact true }, run.log⟩

/-! ## Figures of archives -/

/-- The figures of an archive. -/
def archiveJson (a : ArchiveReport) : Json :=
  .object [
    ("abc", .object [("assignments", .int a.assignments), ("branches", .int a.branches),
      ("conditions", .int a.conditions), ("magnitude", .float a.magnitude)]),
    ("average_fields_per_class", .float a.averageFields),
    ("average_overridden_methods", .float a.averageOverridden),
    ("inheritance",
      .object [("average_depth", .float a.averageDepth), ("max_depth", .int a.maxDepth)]),
    ("jar_file", .string a.fileName),
    ("skipped_entries", .int a.skipped.length),
    ("total_classes", .int a.totalClasses),
    ("total_interfaces", .int a.totalInterfaces)]

/-- A report without classes. -/
def summaryJson (r : Report) : Json :=
  .object [
    ("archives", .array (r.archives.map archiveJson)),
    ("errors", listOrNull r.errors),
    ("summary", .object [
      ("archives_analyzed", .int r.summary.archives),
      ("max_depth", .int r.summary.maxDepth),
      ("skipped_entries", .int r.summary.skippedEntries),
      ("total_classes", .int r.summary.totalClasses),
      ("total_interfaces", .int r.summary.totalInterfaces)]),
    ("warnings", listOrNull r.warnings)]

/-- Whether the whole report is asked for. -/
def isFull (arguments : Json) : Bool := (arguments.get "output_mode").string? == some "full"

/-- The request of a call that asks for figures. -/
def figuresRequest (settingsPath path : String) (arguments : Json) : Request :=
  { pathRequest settingsPath path with
    recursive := (arguments.get "recursive").bool?
    includes := textItems (arguments.get "include")
    excludes := textItems (arguments.get "exclude")
    details := isFull arguments }

/-- Tell the figures of archives. -/
def callAnalyzeJar (host : Host) (settingsPath : String) (arguments : Json) : Call :=
  match readPath host.tree arguments with
  | .error text => .failed text
  | .ok (arguments, path) =>
      answerRequest host (figuresRequest settingsPath path arguments) fun r =>
        if isFull arguments then r.toJson else summaryJson r

/-! ## Lists of classes -/

/-- The number of classes that is asked for, or nothing if it is negative. -/
def topArgument (arguments : Json) : Option Int :=
  match (arguments.get "top").float? with
  | some top => if top < 0.0 then none else some (Value.wholePart top)
  | none => some defaultTop

/-- The criterion that is asked for. -/
def sortArgument (arguments : Json) : Except String String :=
  match (arguments.get "sort").string? with
  | none | some "" => .ok SortKey.complexity.text
  | some sort =>
      if SortKey.isValid sort then .ok sort else .error ("unsupported sort criteria: " ++ sort)

/-- The classes of an archive. -/
def classesJson (a : ArchiveReport) : Json :=
  .object [("classes", .array (a.classes.map ClassReport.toJson)), ("jar_file", .string a.fileName),
    ("total_classes", .int a.totalClasses)]

/-- The classes of all archives, which are in the order of a criterion. -/
def classListJson (sort : String) (r : Report) : Json :=
  .object [("archives", .array (r.archives.map classesJson)), ("errors", listOrNull r.errors),
    ("sort_by", .string sort)]

/-- The request of a call that asks for classes. -/
def listRequest (settingsPath path sort : String) (top : Int) : Request :=
  { pathRequest settingsPath path with details := true, sort, top }

/-- List classes. -/
def callListClasses (host : Host) (settingsPath : String) (arguments : Json) : Call :=
  match readPath host.tree arguments with
  | .error text => .failed text
  | .ok (arguments, path) =>
      match sortArgument arguments, topArgument arguments with
      | .error text, _ => .failed text
      | .ok _, none => .failed "top cannot be negative"
      | .ok sort, some top =>
          answerRequest host (listRequest settingsPath path sort top) (classListJson sort)

/-- Call a tool by its name. -/
def call? (host : Host) (settingsPath name : String) (arguments : Json) : Option Call :=
  if name == analyzeJar.name then some (callAnalyzeJar host settingsPath arguments)
  else if name == listClasses.name then some (callListClasses host settingsPath arguments)
  else none

end JarMetrics.Tools
