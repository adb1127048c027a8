import JarMetrics.Archive.Selection
import JarMetrics.Failure
import JarMetrics.Glob
import JarMetrics.Report.Format
import JarMetrics.Report.Selection

/-!
# Settings

What a run can be told by a settings file, with the defaults for what it is not told.
`Settings.check` finds the first setting that is out of bounds.
-/

namespace JarMetrics

/-- The name of the variable from which the password for the graph store is taken. -/
def passwordVariable : String := "JARSCN_NEO4J_PASSWORD"

/-- The name of settings files that are found by themselves. -/
def settingsFileName : String := ".jarscn.toml"

/-- The settings of a run. -/
structure Settings where
  includes : List String := [Selection.classFiles]
  excludes : List String := []
  workers : Int := 0
  recursive : Bool := true
  format : String := Format.text.name
  details : Bool := false
  sort : String := SortKey.name.text
  top : Int := 0
  directory : String := ""
  uri : String := "neo4j://localhost:7687"
  username : String := "neo4j"
  password : String := ""
  database : String := "neo4j"
  batchSize : Int := 500
  deriving Repr, DecidableEq

/-- Why settings are refused. -/
inductive SettingsError
  | format (given : String)
  | sort (given : String)
  | top (given : Int)
  | workers (given : Int)
  | noPattern
  | includePattern (pattern : String)
  | excludePattern (pattern : String)
  | batchSize (given : Int)
  deriving Repr, DecidableEq

/-- The wording of an error. -/
def SettingsError.message : SettingsError → String
  | .format given =>
      "invalid output.format '" ++ given ++ "', must be one of: " ++
        ", ".intercalate (Format.all.map (·.name))
  | .sort given =>
      "invalid output.sort_by '" ++ given ++ "', must be one of: " ++
        ", ".intercalate (SortKey.all.map (·.text))
  | .top given => "output.top must be >= 0, got " ++ toString given
  | .workers given => "analysis.workers must be >= 0, got " ++ toString given
  | .noPattern => "analysis.include_patterns cannot be empty"
  | .includePattern pattern => "invalid analysis.include_patterns entry '" ++ pattern ++ "'"
  | .excludePattern pattern => "invalid analysis.exclude_patterns entry '" ++ pattern ++ "'"
  | .batchSize given => "graph.batch_size must be >= 1, got " ++ toString given

namespace Settings

/-- The first pattern that is none. -/
def badPattern? (patterns : List String) : Option String := patterns.find? fun p => !Glob.isValid p

/-- The first thing that is wrong with settings. -/
def error? (s : Settings) : Option SettingsError :=
  if !Format.isValid s.format then some (.format s.format)
  else if !SortKey.isValid s.sort then some (.sort s.sort)
  else if s.top < 0 then some (.top s.top)
  else if s.workers < 0 then some (.workers s.workers)
  else if s.includes.isEmpty then some .noPattern
  else
    match badPattern? s.includes, badPattern? s.excludes with
    | some pattern, _ => some (.includePattern pattern)
    | none, some pattern => some (.excludePattern pattern)
    | none, none => if s.batchSize < 1 then some (.batchSize s.batchSize) else none

/-- The settings themselves, if nothing is wrong with them. -/
def check (s : Settings) : Outcome Settings :=
  match s.error? with
  | some error => .error (.plain error.message)
  | none => .ok s

/-- The settings file that says what holds by default. -/
def template : String :=
  let s : Settings := {}
  "\n".intercalate [
    "# jarscn configuration",
    "# Place this file at the root of a project; jarscn looks for " ++ settingsFileName,
    "# in the analyzed path and every parent directory.",
    "",
    "[analysis]",
    "# Archive entries to decode (doublestar globs matched against entry names)",
    "include_patterns = [\"" ++ Selection.classFiles ++ "\"]",
    "# Entries to skip, e.g. [\"module-info.class\", \"**/package-info.class\"]",
    "exclude_patterns = []",
    "# Concurrent entry decoders, 0 = one per CPU",
    "workers = " ++ toString s.workers,
    "# Search directories for *.jar recursively",
    "recursive = true",
    "",
    "[output]",
    "# text, json, yaml, csv or html",
    "format = \"" ++ s.format ++ "\"",
    "# Include per-class metrics",
    "show_details = false",
    "# name, depth, complexity, overrides or fields",
    "sort_by = \"" ++ s.sort ++ "\"",
    "# Limit class details per archive, 0 = all",
    "top = " ++ toString s.top,
    "# Directory for generated report files",
    "directory = \"\"",
    "",
    "[graph]",
    "# Neo4j connection for `jarscn graph`",
    "uri = \"" ++ s.uri ++ "\"",
    "username = \"" ++ s.username ++ "\"",
    "# password is read from " ++ passwordVariable ++ " when empty",
    "password = \"\"",
    "database = \"" ++ s.database ++ "\"",
    "batch_size = " ++ toString s.batchSize,
    ""]

end Settings

end JarMetrics
