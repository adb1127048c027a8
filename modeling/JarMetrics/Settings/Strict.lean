import JarMetrics.Settings.Basic
import JarMetrics.Settings.Value
import JarMetrics.Text.Case
import JarMetrics.Toml.Document

/-!
# Settings by exact types

A settings file that is found by itself is read strictly: every known key must hold a value of its
own type. Empty texts and an empty list of patterns leave the default in place, and so does a batch
size that is not positive. Keys are known in any case, and unknown keys are passed over. What stands
in an unknown section is not looked at, so that its keys may even clash.
-/

namespace JarMetrics

/-- What a settings file says. -/
structure FileSettings where
  includes : List String := []
  excludes : Option (List String) := none
  workers : Option Int := none
  recursive : Option Bool := none
  format : String := ""
  details : Option Bool := none
  sort : String := ""
  top : Option Int := none
  directory : String := ""
  uri : String := ""
  username : String := ""
  password : String := ""
  database : String := ""
  batchSize : Int := 0
  deriving Repr, DecidableEq

namespace Value

/-- The text of a text. -/
def text? : Value → Option String
  | .text t => some t
  | _ => none

/-- The number of an integer. -/
def int? : Value → Option Int
  | .int n => some n
  | _ => none

/-- The truth value of a boolean. -/
def bool? : Value → Option Bool
  | .bool b => some b
  | _ => none

/-- The texts of a list of texts. -/
def texts? : Value → Option (List String)
  | .list items => items.mapM text?
  | _ => none

end Value

namespace FileSettings

/-- Take up the value of a key in a table, both in lower case. -/
def assign (table key : String) (value : Value) (f : FileSettings) : Option FileSettings :=
  match table, key with
  | "analysis", "include_patterns" => value.texts?.map fun v => { f with includes := v }
  | "analysis", "exclude_patterns" => value.texts?.map fun v => { f with excludes := some v }
  | "analysis", "workers" => value.int?.map fun v => { f with workers := some v }
  | "analysis", "recursive" => value.bool?.map fun v => { f with recursive := some v }
  | "output", "format" => value.text?.map fun v => { f with format := v }
  | "output", "show_details" => value.bool?.map fun v => { f with details := some v }
  | "output", "sort_by" => value.text?.map fun v => { f with sort := v }
  | "output", "top" => value.int?.map fun v => { f with top := some v }
  | "output", "directory" => value.text?.map fun v => { f with directory := v }
  | "graph", "uri" => value.text?.map fun v => { f with uri := v }
  | "graph", "username" => value.text?.map fun v => { f with username := v }
  | "graph", "password" => value.text?.map fun v => { f with password := v }
  | "graph", "database" => value.text?.map fun v => { f with database := v }
  | "graph", "batch_size" => value.int?.map fun v => { f with batchSize := v }
  | _, _ => some f

/-- The tables of settings, and the keys that each of them has. -/
def known : List (String × List String) :=
  [("analysis", ["include_patterns", "exclude_patterns", "workers", "recursive"]),
    ("output", ["format", "show_details", "sort_by", "top", "directory"]),
    ("graph", ["uri", "username", "password", "database", "batch_size"])]

/-- The keys of a table, if it is one of settings. -/
def keysOf? (table : String) : Option (List String) := (known.find? (·.1 == table)).map Prod.snd

/-! ## Parts of a file -/

/-- What the open section of a file is about. -/
inductive Scope
  | top
  | table (name : String)
  /-- A key that has a section of its own, in which nothing may stand. -/
  | key
  /-- Something unknown. -/
  | foreign
  deriving Repr, DecidableEq

/-- What has been read of a file. -/
structure Reading where
  settings : FileSettings := {}
  scope : Scope := .top
  /-- The path of the open section, and what stands in the file so far. -/
  path : List String := []
  seen : Toml.Members := []

/-- What a path leads to from the top. -/
inductive Target
  | table (name : String)
  | key (table name : String)
  /-- Beyond a key. -/
  | beyond
  | foreign
  deriving Repr, DecidableEq

/-- What a path leads to from the top, its parts in any case. -/
def target (path : List String) : Target :=
  match path.map Text.lower with
  | [] => .foreign
  | table :: rest =>
      match keysOf? table, rest with
      | none, _ => .foreign
      | some _, [] => .table table
      | some keys, key :: rest =>
          if !keys.contains key then .foreign
          else if rest.isEmpty then .key table key
          else .beyond

/-- Take up the members of a table. -/
def assignMembers (table : String) (members : List (String × Value)) (f : FileSettings) :
    Option FileSettings :=
  members.foldlM (fun f (key, value) => f.assign table (Text.lower key) value) f

/-- Take up a value at a path from the top. -/
def assignAt (path : List String) (value : Value) (f : FileSettings) : Option FileSettings :=
  match target path, value with
  | .table name, .table members => f.assignMembers name members
  | .table _, _ => none
  | .key table key, value => f.assign table key value
  | .beyond, _ => none
  | .foreign, _ => some f

/-- Whether a key holds a list. -/
def isListKey (key : String) : Bool := key == "include_patterns" || key == "exclude_patterns"

/-- Add an empty text to a list; the first one begins it anew. -/
def addEmpty (key : String) (first : Bool) (f : FileSettings) : FileSettings :=
  let longer := fun (texts : List String) => (if first then [] else texts) ++ [""]
  if key == "include_patterns" then { f with includes := longer f.includes }
  else { f with excludes := some (longer (f.excludes.getD [])) }

namespace Reading

/-- Open a section. A key that holds a list cannot have one. -/
def openSection (path : List String) (r : Reading) : Option Reading :=
  match target path with
  | .table name => some { r with scope := .table name, path }
  | .key _ key => if isListKey key then none else some { r with scope := .key, path }
  | .beyond => none
  | .foreign => some { r with scope := .foreign, path }

/-- Open a further section of a list. Only a key that holds a list can have such sections, each of
which is an empty text of the list. -/
def openItem (path : List String) (first : Bool) (r : Reading) : Option Reading :=
  match target path with
  | .table _ | .beyond => none
  | .key _ key =>
      if isListKey key then
        some { r with settings := r.settings.addEmpty key first, scope := .key, path }
      else none
  | .foreign => some { r with scope := .foreign, path }

/-- Read one more part of a file. -/
def step (r : Reading) (part : Toml.Expression) : Option Reading :=
  match part with
  | .assignment path value =>
      if r.scope == .foreign then some r
      else do
        let r := { r with seen := ← r.seen.extend r.path part }
        let settings ← match r.scope with
          | .top => r.settings.assignAt path value
          | .table name => r.settings.assignAt (name :: path) value
          | .key | .foreign => none
        return { r with settings }
  | .header path => do openSection path { r with seen := ← r.seen.extend r.path part }
  | .item path => do
      openItem path (!r.seen.holds path) { r with seen := ← r.seen.extend r.path part }

end Reading

/-- What a file says, if every known key holds a value of its type. -/
def ofExpressions (parts : List Toml.Expression) : Option FileSettings :=
  (parts.foldlM Reading.step {}).map Reading.settings

/-- A text, or another one if it is empty. -/
def orElse (given other : String) : String := if given.isEmpty then other else given

/-- Settings with what a file says in place of what it speaks of. -/
def overlay (f : FileSettings) (s : Settings) : Settings where
  includes := if f.includes.isEmpty then s.includes else f.includes
  excludes := f.excludes.getD s.excludes
  workers := f.workers.getD s.workers
  recursive := f.recursive.getD s.recursive
  format := orElse f.format s.format
  details := f.details.getD s.details
  sort := orElse f.sort s.sort
  top := f.top.getD s.top
  directory := orElse f.directory s.directory
  uri := orElse f.uri s.uri
  username := orElse f.username s.username
  password := orElse f.password s.password
  database := orElse f.database s.database
  batchSize := if 0 < f.batchSize then f.batchSize else s.batchSize

end FileSettings

/-- Settings with a password from outside, if there is one. -/
def Settings.withPassword (password : Option String) (s : Settings) : Settings :=
  match password with
  | some p => if p.isEmpty then s else { s with password := p }
  | none => s

end JarMetrics
