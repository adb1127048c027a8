import JarMetrics.Bytes.Utf8
import JarMetrics.Dotenv.Lines
import JarMetrics.Host
import JarMetrics.Json.Parser
import JarMetrics.Settings.Lenient
import JarMetrics.Settings.Strict
import JarMetrics.Toml.Reader
import JarMetrics.Yaml.Document

/-!
# Loading settings

Settings come from a file that is named, of any kind that its ending tells, or from the nearest
settings file at or above a path.
-/

namespace JarMetrics

/-- The password from the environment. -/
def Host.password? (host : Host) : Option String := host.lookup passwordVariable

namespace Settings

/-- How it is said that a settings file cannot be understood. -/
def malformed : Failure := .plain "malformed settings"

/-- The endings of settings files. -/
def endings : List String :=
  ["json", "toml", "yaml", "yml", "properties", "props", "prop", "hcl", "tfvars",
    "dotenv", "env", "ini"]

mutual

/-- A JSON value as a value of settings; all numbers are doubles. -/
def ofJson : Json → Value
  | .null => .null
  | .bool b => .bool b
  | .int n => .float (Float.ofInt n)
  | .float x => .float x
  | .string t => .text t
  | .array items => .list (ofItems items)
  | .object members => .table (ofMembers members)

/-- Items as values of settings. -/
def ofItems : List Json → List Value
  | [] => []
  | item :: rest => ofJson item :: ofItems rest

/-- Members as values of settings. -/
def ofMembers : List (String × Json) → List (String × Value)
  | [] => []
  | (key, value) :: rest => (key, ofJson value) :: ofMembers rest

end

/-- The table at the top of a file; a file without a value counts as empty. -/
def topTable? : Value → Option (List (String × Value))
  | .table members => some members
  | .null => some []
  | _ => none

/-- The text of a file, if it is one. -/
def textOf? (content : List UInt8) : Option String :=
  if Utf8.isValid content then some (Utf8.decode content) else none

/-- Read a TOML file in which every value is well formed. -/
def tomlTables? (content : List UInt8) : Option (List (String × Value)) := do
  let tables ← Toml.parse? (← textOf? content)
  if Value.membersWellFormed tables then some tables else none

/-- Read a file of variables, which are settings with a text each. -/
def ofVariables? (host : Host) (content : List UInt8) : Option (List (String × Value)) :=
  (Dotenv.parse? host.lookup (Dotenv.fileText content)).map fun found =>
    found.map fun (name, value) => (name, .text value)

/-- Read a settings file of a kind. -/
def tables? (host : Host) (kind : String) (content : List UInt8) : Option (List (String × Value)) :=
  if kind == "toml" then tomlTables? content
  else if kind == "yaml" || kind == "yml" then Yaml.members? content
  else if kind == "json" then do topTable? (ofJson (← Json.parse? (Utf8.decode content)))
  else if kind == "env" || kind == "dotenv" then ofVariables? host content
  else none

/-- The tables of a named settings file. -/
def readTables (host : Host) (path : String) : Outcome (List (String × Value)) := do
  let kind := String.ofList ((Path.ending path).toList.drop 1)
  if !endings.contains kind then .error (.plain ("Unsupported Config Type \"" ++ kind ++ "\""))
  else
    match tables? host kind (← host.tree.read path) with
    | some tables => .ok tables
    | none => .error malformed

/-- The settings of a named file; without a name those that hold by default. -/
def loadNamed (host : Host) (path : String) : Outcome Settings := do
  let tables ←
    if path.isEmpty then .ok []
    else (readTables host path).mapError (.noted ("failed to read config file " ++ path))
  match ({} : Settings).readLoosely host.password? tables with
  | none => .error (.noted "failed to unmarshal config" malformed)
  | some s => s.check.mapError (.noted "invalid configuration")

/-- The settings of a file with exact types. -/
def loadStrictly (host : Host) (path : String) : Outcome Settings := do
  let content ← host.tree.read path
  let parts := (textOf? content).bind Toml.expressions?
  match parts.bind FileSettings.ofExpressions with
  | none => .error (.noted ("failed to parse " ++ path) malformed)
  | some f =>
      ((f.overlay {}).withPassword host.password?).check.mapError
        (.noted ("invalid configuration in " ++ path))

/-- The directories from one up to the root, each a list of names. -/
def upwards : List String → List (List String)
  | [] => [[]]
  | name :: rest => (name :: rest) :: upwards rest

/-- The directory in which a search begins: what holds a path if a file is there, and the path
itself otherwise. -/
def firstSearched (tree : FileTree) (start : String) : String :=
  let path := Path.absolute tree.here start
  match tree.status true path with
  | .ok node => if node.isDirectory then path else Path.directory path
  | .error _ => path

/-- The directories in which a settings file is looked for: the first and all above. -/
def searched (tree : FileTree) (start : String) : List String :=
  let names := ((Path.parts (firstSearched tree start)).filter (· != "")).reverse
  (upwards names).map fun names => Path.ofParts true names.reverse

/-- The settings file of a directory. -/
def fileIn (directory : String) : String := Path.join directory settingsFileName

/-- The nearest settings file at or above a path. -/
def findFile (tree : FileTree) (start : String) : Outcome String :=
  match ((searched tree start).map fileIn).find? tree.present with
  | some path => .ok path
  | none => .error (.missing "file does not exist")

/-- The settings of the nearest file, or those that hold by default if there is none. -/
def loadNearest (host : Host) (start : String) : Outcome Settings :=
  match findFile host.tree start with
  | .ok path => loadStrictly host path
  | .error _ => .ok (({} : Settings).withPassword host.password?)

/-- The settings for a target; where nothing is named, for where the run stands. -/
def loadFor (host : Host) (target : String) : Outcome Settings :=
  let target := if target.isEmpty then "." else target
  (loadNearest host target).mapError (.noted ("failed to load config near " ++ target))

end Settings

end JarMetrics
