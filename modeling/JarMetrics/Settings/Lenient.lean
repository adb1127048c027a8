import JarMetrics.Decimal.Numeral
import JarMetrics.Decimal.Printer
import JarMetrics.Settings.Basic
import JarMetrics.Settings.Value
import JarMetrics.Text.Case

/-!
# Settings by loose types

A settings file that is named is read loosely: a value is turned into the type that its key asks for
wherever that can be done. Keys are known in any case; a key with dots stands for nested keys and
goes before them. What has no value keeps its default, and no setting but the password takes notice
of an empty table.
-/

namespace JarMetrics

namespace Value

mutual

/-- The value with all keys in lower case. Of keys that differ in case only, those that were not in
lower case come last, so that they count. -/
def lowerKeys : Value → Value
  | .list items => .list (lowerItems items)
  | .table members => .table (lowerMembers true members ++ lowerMembers false members)
  | value => value

/-- The items with such keys. -/
def lowerItems : List Value → List Value
  | [] => []
  | item :: rest => item.lowerKeys :: lowerItems rest

/-- The members whose keys are in lower case already, or those whose keys are not, with such
keys. -/
def lowerMembers (already : Bool) : List (String × Value) → List (String × Value)
  | [] => []
  | (key, value) :: rest =>
      if (Text.lower key == key) == already then (Text.lower key, value.lowerKeys) ::
        lowerMembers already rest
      else lowerMembers already rest

end

/-- The members of a table with such keys. -/
def lowered (members : List (String × Value)) : List (String × Value) :=
  lowerMembers true members ++ lowerMembers false members

mutual

/-- The full keys of what a value holds, its parts joined by dots: that of the value itself, or
those of the members if it is a table. -/
def fullKeys (key : String) : Value → List String
  | .table members => memberKeys (key ++ ".") members
  | _ => [key]

/-- The full keys of the members of a table, behind the part that its own key gives. -/
def memberKeys (front : String) : List (String × Value) → List String
  | [] => []
  | (key, value) :: rest => value.fullKeys (front ++ key) ++ memberKeys front rest

end

/-- What stands at a path of keys and is not null. One key may join several parts of the path by
dots, and the longest such key goes first; `front` is what has been joined so far. -/
def search : List (String × Value) → String → List String → Option Value
  | _, _, [] => none
  | members, front, part :: rest =>
      (search members (front ++ part ++ ".") rest).or
        (match get? (front ++ part) members, rest with
          | some .null, [] => none
          | some value, [] => some value
          | some (.table inner), _ => search inner "" rest
          | _, _ => none)

/-- Numbers in texts are written positionally. -/
def numberStyle : Decimal.Style := { least := -400, limit := 400, exponentWidth := 1 }

/-- A value as a text. -/
def looseText? : Value → Option String
  | .text t => some t
  | .bool b => some (if b then "1" else "0")
  | .int n => some (toString n)
  | .float x => some (Decimal.render numberStyle x)
  | _ => none

/-- A double without its fraction. One that is out of range gives the least number. -/
def wholePart (x : Float) : Int :=
  if x < 9223372036854775808.0 && -9223372036854775808.0 ≤ x then
    if x < 0.0 then -((-x).toUInt64.toNat : Int) else x.toUInt64.toNat
  else -9223372036854775808

/-- A value as a number of 64 bits. -/
def looseInt? : Value → Option Int
  | .int n => some (Int64.ofInt n).toInt
  | .float x => some (wholePart x)
  | .bool b => some (if b then 1 else 0)
  | .text t => if t.isEmpty then some 0 else (Decimal.readInteger t.toList).toOption
  | _ => none

/-- The truth value that a text names. -/
def boolWord? (text : String) : Option Bool :=
  if ["1", "t", "T", "true", "TRUE", "True"].contains text then some true
  else if ["0", "f", "F", "false", "FALSE", "False"].contains text then some false
  else none

/-- A value as a truth value. -/
def looseBool? : Value → Option Bool
  | .bool b => some b
  | .int n => some (n != 0)
  | .float x => some (x != 0.0)
  | .text t => if t.isEmpty then some false else boolWord? t
  | _ => none

/-- Items as texts; one without a value keeps the text that was at its place. -/
def looseItems? : List String → List Value → Option (List String)
  | _, [] => some []
  | old, item :: rest => do
      let text ← match item with
        | .null => some (old.headD "")
        | item => item.looseText?
      return text :: (← looseItems? (old.drop 1) rest)

/-- A value as a list of texts: a text is cut at its commas, an empty table is an empty list, and
any other single value is a list of one. -/
def looseTexts? (old : List String) : Value → Option (List String)
  | .list items => looseItems? old items
  | .text t => some (if t.isEmpty then [] else t.splitOn ",")
  | .table [] => some []
  | value => looseItems? old [value]

end Value

namespace Settings

/-- Whether anything stands below a setting. -/
def hasBelow (tables : List (String × Value)) (table key : String) : Bool :=
  (Value.memberKeys "" tables).any fun full =>
    (table ++ "." ++ key ++ ".").toList.isPrefixOf full.toList &&
      (Value.search tables "" (full.splitOn ".")).isSome

/-- A setting: the old value when nothing is there, and nothing when what is there cannot be turned
into its type or when more stands below it. -/
def setting {α : Type} (tables : List (String × Value)) (table key : String) (old : α)
    (read : Value → Option α) : Option α :=
  if hasBelow tables table key then none
  else if (Value.memberKeys "" tables).contains (table ++ "." ++ key) then
    match Value.search tables "" [table, key] with
    | some value => read value
    | none => some old
  else some old

/-- The password in a file. Whatever stands at its key is taken for it. -/
def passwordIn (tables : List (String × Value)) (old : String) : Option String :=
  match Value.search tables "" ["graph", "password"] with
  | some value => value.looseText?
  | none => some old

/-- Whether a value can stand for a table of settings. -/
def isTable : Value → Bool
  | .table _ | .null | .moment => true
  | _ => false

/-- Settings with what a file says, if all of it can be turned into the types of the settings. A
password from outside goes before the one in the file. -/
def readLoosely (password : Option String) (tables : List (String × Value)) (s : Settings) :
    Option Settings := do
  let tables := Value.lowered tables
  if ["analysis", "output", "graph"].any fun name => !(Value.get? name tables).all isTable then none
  let fromOutside := password.bind fun p => if p.isEmpty then none else some p
  return {
    includes :=
      ← setting tables "analysis" "include_patterns" s.includes (Value.looseTexts? s.includes)
    excludes :=
      ← setting tables "analysis" "exclude_patterns" s.excludes (Value.looseTexts? s.excludes)
    workers := ← setting tables "analysis" "workers" s.workers Value.looseInt?
    recursive := ← setting tables "analysis" "recursive" s.recursive Value.looseBool?
    format := ← setting tables "output" "format" s.format Value.looseText?
    details := ← setting tables "output" "show_details" s.details Value.looseBool?
    sort := ← setting tables "output" "sort_by" s.sort Value.looseText?
    top := ← setting tables "output" "top" s.top Value.looseInt?
    directory := ← setting tables "output" "directory" s.directory Value.looseText?
    uri := ← setting tables "graph" "uri" s.uri Value.looseText?
    username := ← setting tables "graph" "username" s.username Value.looseText?
    password := ← match fromOutside with
      | some p => some p
      | none => passwordIn tables s.password
    database := ← setting tables "graph" "database" s.database Value.looseText?
    batchSize := ← setting tables "graph" "batch_size" s.batchSize Value.looseInt? }

end Settings

end JarMetrics
