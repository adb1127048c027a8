import JarMetrics.Archive.Selection
import JarMetrics.Json.Basic
import JarMetrics.Report.Selection

/-!
# Tools

What is offered to a client that calls tools: their names, what they do and which arguments they
take.
-/

namespace JarMetrics.Tools

/-- What an argument of a tool is. -/
inductive ArgumentKind
  | text
  /-- One of several texts. -/
  | choice (options : List String)
  | flag
  | number
  | texts
  deriving Repr, DecidableEq

/-- An argument of a tool. -/
structure Argument where
  name : String
  kind : ArgumentKind
  about : String
  required : Bool := false
  deriving Repr, DecidableEq

/-- A tool. -/
structure Tool where
  name : String
  about : String
  arguments : List Argument
  deriving Repr, DecidableEq

/-- The schema of an argument. -/
def Argument.schema (a : Argument) : Json :=
  let about := ("description", Json.string a.about)
  match a.kind with
  | .text => .object [about, ("type", .string "string")]
  | .choice options => .object [about, ("enum", .strings options), ("type", .string "string")]
  | .flag => .object [about, ("type", .string "boolean")]
  | .number => .object [about, ("type", .string "number")]
  | .texts =>
      .object [about, ("items", .object [("type", .string "string")]), ("type", .string "array")]

namespace Tool

/-- The schemas of the arguments, in the order of their names. -/
def properties (t : Tool) : Json :=
  .object ((t.arguments.mergeSort fun a b => a.name ≤ b.name).map fun a => (a.name, a.schema))

/-- The arguments that must be given. -/
def required (t : Tool) : List String := (t.arguments.filter (·.required)).map (·.name)

/-- A tool as it is told to a client. Nothing is known of its effects, so the worst is told. -/
def toJson (t : Tool) : Json :=
  .object [
    ("annotations", .object [("readOnlyHint", .bool false), ("destructiveHint", .bool true),
      ("idempotentHint", .bool false), ("openWorldHint", .bool true)]),
    ("description", .string t.about),
    ("inputSchema", .object [("properties", t.properties), ("required", .strings t.required),
      ("type", .string "object")]),
    ("name", .string t.name)]

end Tool

/-- The argument for the archives. -/
def pathArgument : Argument :=
  { name := "path", kind := .text, about := "Path to a .jar file or a directory containing jars"
    required := true }

/-- The tool that tells the figures of archives. -/
def analyzeJar : Tool where
  name := "analyze_jar"
  about := "Compute inheritance depth, overridden methods, fields per class and ABC metrics " ++
    "from the bytecode of JAR files"
  arguments := [pathArgument,
    { name := "recursive", kind := .flag
      about := "Recursively search directories for jars (default: true)" },
    { name := "include", kind := .texts
      about :=
        "Glob patterns selecting archive entries (default: " ++ Selection.classFiles ++ ")" },
    { name := "exclude", kind := .texts, about := "Glob patterns of archive entries to skip" },
    { name := "output_mode", kind := .choice ["summary", "full"]
      about := "summary returns archive metrics, full adds per-class metrics (default: summary)" }]

/-- The tool that lists classes. -/
def listClasses : Tool where
  name := "list_classes"
  about := "List per-class metrics of JAR files sorted by a criterion"
  arguments := [pathArgument,
    { name := "sort", kind := .choice (SortKey.all.map (·.text))
      about := "Sort criterion (default: complexity)" },
    { name := "top", kind := .number,
      about := "Maximum classes per archive, 0 = all (default: 20)" }]

/-- All tools, in the order of their names. -/
def all : List Tool := [analyzeJar, listClasses]

end JarMetrics.Tools
