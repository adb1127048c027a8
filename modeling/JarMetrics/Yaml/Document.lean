import JarMetrics.Bytes.Base64
import JarMetrics.Decimal.Printer
import JarMetrics.Settings.Value
import JarMetrics.Yaml.Node
import JarMetrics.Yaml.Scalar
import JarMetrics.Yaml.Scanner

/-!
# Documents of YAML as values

A scalar stands for what its tag says, or for what it looks like where it has none. No key may stand
twice in a table, and the key `<<` merges other tables into it, of which the first that has a key
counts. A document that consists almost only of aliases is refused.
-/

namespace JarMetrics.Yaml

/-! ## Scalars -/

/-- A tag in its short form. -/
def shortTag (tag : String) : String :=
  let long := "tag:yaml.org,2002:"
  if tag.startsWith long then "!!" ++ String.ofList (tag.toList.drop long.length) else tag

/-- What a scalar is taken for by a tag, if it can be. Tags that mean nothing here leave the
text. -/
def resolveAs (tag : String) (text : String) : Option Scalar :=
  if tag == "!!str" then some (.text text)
  else if tag == "!!binary" then
    (Base64.decode text).toOption.map fun bytes => .text (Utf8.decode bytes)
  else if ["!!bool", "!!int", "!!float", "!!null", "!!timestamp"].contains tag then
    match tag, resolve text with
    | "!!bool", .bool b => some (.bool b)
    | "!!int", .int n => some (.int n)
    | "!!float", .int n => if n < 0x8000000000000000 then some (.float (Float.ofInt n)) else none
    | "!!float", .float x => some (.float x)
    | "!!null", .null => some .null
    | "!!timestamp", .timestamp => some .timestamp
    | _, _ => none
  else some (.text text)

/-- What a scalar stands for. -/
def scalarOf (tag : Option String) (style : Style) (text : String) : Option Scalar :=
  match tag.map shortTag with
  | some tag => if tag == "!" then some (untagged style text) else resolveAs tag text
  | none => some (untagged style text)
where
  /-- A scalar without a tag. -/
  untagged (style : Style) (text : String) : Scalar :=
    match style with
    | .plain => resolve text
    | .quoted => .text text

/-- A scalar as a value of settings. -/
def Scalar.toValue : Scalar → Value
  | .null => .null
  | .bool b => .bool b
  | .int n => .int n
  | .float x => .float x
  | .timestamp => .moment
  | .text t => .text t

/-- Numbers in keys are written positionally. -/
def keyNumberStyle : Decimal.Style := { least := -400, limit := 400, exponentWidth := 1 }

/-- A scalar as a key, given the text it was written as. -/
def Scalar.keyText (written : String) : Scalar → String
  | .null => ""
  | .bool b => if b then "true" else "false"
  | .int n => toString n
  | .float x => Decimal.render keyNumberStyle x
  | .timestamp => written
  | .text t => t

/-! ## Counting -/

/-- How many nodes were turned into values, and how many of them because of aliases. -/
structure Effort where
  nodes : Nat := 0
  aliased : Nat := 0
  deriving Repr, DecidableEq

/-- The share of aliased nodes that is allowed, in hundredths of the 3,600,000 steps from the lower
to the upper limit. -/
def Effort.allowed (e : Effort) : Nat :=
  if e.nodes ≤ 400000 then 99 * 3600000
  else if e.nodes ≥ 4000000 then 10 * 3600000
  else 99 * 3600000 - 89 * (e.nodes - 400000)

/-- Whether too much of a document comes from aliases. -/
def Effort.isExcessive (e : Effort) : Bool :=
  e.aliased > 100 && e.nodes > 1000 && e.aliased * (100 * 3600000) > e.allowed * e.nodes

/-- Turning nodes into values, which may fail. -/
abbrev Conversion := StateT Effort Option

/-- Count a node. -/
def count (aliased : Bool) : Conversion Unit := do
  let e ← get
  let e : Effort := ⟨e.nodes + 1, if aliased then e.aliased + 1 else e.aliased⟩
  set e
  if e.isExcessive then failure

/-! ## Nodes -/

namespace Node

/-- Whether a node is the key that merges. -/
def isMerge : Node → Bool
  | .scalar none .plain text => text == "<<"
  | .scalar (some tag) style text =>
      text == "<<" && (shortTag tag == "!!merge" || (tag == "!" && style == .plain))
  | _ => false

/-- Whether two keys count as the same: they are of one kind, and written alike. -/
def sameKey : Node → Node → Bool
  | .scalar _ _ a, .scalar _ _ b => a == b
  | .list _, .list _ => true
  | .table _, .table _ => true
  | .alias a _, .alias b _ => a == b
  | _, _ => false

/-- Whether no key stands twice. -/
def distinctKeys : List (Node × Node) → Bool
  | [] => true
  | (key, _) :: rest => !rest.any (fun (other, _) => key.sameKey other) && distinctKeys rest

/-- Whether a node is a text, as far as that can be told without turning it into a value. -/
def isText : Node → Bool
  | .scalar none .plain text => text == "<<" || (resolve text).isText
  | .scalar (some tag) style text =>
      let tag := shortTag tag
      tag == "!!str" || tag == "!!merge" ||
        (tag == "!" && (style == .quoted || (resolve text).isText))
  | .scalar none .quoted _ => true
  | .alias _ (some target) => isText target
  | _ => false

/-- The table that a merge brings in, if there is one. -/
def members? : Node → Option (Bool × List (Node × Node))
  | .table members => some (false, members)
  | .alias _ (some (.table members)) => some (true, members)
  | _ => none

/-- The tables that the value of a merge names. -/
def sources : Node → List Node
  | .list items => items
  | node => [node]

end Node

mutual

/-- Turn a node into a value; `aliased` tells whether an alias led to it. -/
def convert (aliased : Bool) : Nat → Node → Conversion Value
  | 0, _ => failure
  | fuel + 1, node => do
      count aliased
      match node with
      | .scalar tag style text =>
          match scalarOf tag style text with
          | some s => return s.toValue
          | none => failure
      | .list items => return .list (← convertItems aliased fuel items)
      | .table members =>
          return .table (← convertTable aliased (members.all (·.1.isText)) fuel members)
      | .alias _ (some target) => convert true fuel target
      | .alias _ none => failure

/-- Turn items into values. -/
def convertItems (aliased : Bool) : Nat → List Node → Conversion (List Value)
  | 0, _ => failure
  | _ + 1, [] => return []
  | fuel + 1, item :: rest => do
      return (← convert aliased fuel item) :: (← convertItems aliased fuel rest)

/-- Turn a key into a text; none where it does not count, as an empty key among texts does not. -/
def convertKey (aliased texts : Bool) : Nat → Node → Conversion (Option String)
  | 0, _ => failure
  | fuel + 1, node => do
      count aliased
      match node with
      | .scalar tag style text =>
          match scalarOf tag style text with
          | some .null => return if texts then none else some ""
          | some (.text t) => return some t
          | some s => return some (if texts then text else s.keyText text)
          | none => failure
      | .alias _ (some target) => convertKey true texts fuel target
      | _ => failure

/-- Turn a table into values by their keys. -/
def convertTable (aliased texts : Bool) :
    Nat → List (Node × Node) → Conversion (List (String × Value))
  | 0, _ => failure
  | fuel + 1, members => do
      if !Node.distinctKeys members then failure
      let own ← convertMembers aliased texts false [] fuel (members.filter (!·.1.isMerge))
      match members.find? (·.1.isMerge) with
      | none => return own
      | some (_, source) => convertMerge aliased texts own fuel (source.sources)

/-- Add members; where tables are merged, only those that are not there yet. -/
def convertMembers (aliased texts merging : Bool) (there : List (String × Value)) :
    Nat → List (Node × Node) → Conversion (List (String × Value))
  | 0, _ => failure
  | _ + 1, [] => return there
  | fuel + 1, (key, value) :: rest => do
      match ← convertKey aliased texts fuel key with
      | none => convertMembers aliased texts merging there fuel rest
      | some key =>
          if merging && there.any (·.1 == key) then
            convertMembers aliased texts merging there fuel rest
          else
            let value ← convert aliased fuel value
            convertMembers aliased texts merging (there ++ [(key, value)]) fuel rest

/-- Add the members of tables that are merged. -/
def convertMerge (aliased texts : Bool) (there : List (String × Value)) :
    Nat → List Node → Conversion (List (String × Value))
  | 0, _ => failure
  | _ + 1, [] => return there
  | fuel + 1, source :: rest => do
      count aliased
      match source.members? with
      | none => failure
      | some (led, members) =>
          if led then count true
          if !Node.distinctKeys members then failure
          let there ← convertMembers (aliased || led) texts true there fuel
            (members.filter (!·.1.isMerge))
          let there ← match members.find? (·.1.isMerge) with
            | none => pure there
            | some (_, source) => convertMerge (aliased || led) texts there fuel (source.sources)
          convertMerge aliased texts there fuel rest

end

/-! ## Files -/

/-- Whether a character may stand in a document. -/
def isDocumentChar (c : Char) : Bool :=
  let n := c.toNat
  n == 9 || n == 10 || n == 13 || (0x20 ≤ n && n ≤ 0x7E) || n == 0x85 || (0xA0 ≤ n && n ≤ 0xFFFD) ||
    0x10000 ≤ n

/-- Pairs of bytes as 16-bit units. -/
def units? (bigEndian : Bool) : List UInt8 → Option (List Nat)
  | a :: b :: rest => do
      return (if bigEndian then a.toNat * 256 + b.toNat else b.toNat * 256 + a.toNat) ::
        (← units? bigEndian rest)
  | [_] => none
  | [] => some []

/-- The text of 16-bit units in which every surrogate is one of a pair. -/
def ofUnits? (units : List Nat) : Option (List Char) :=
  let cs := Utf16.decode units
  if cs.flatMap Utf16.unitsOf == units then some cs else none

/-- The characters of a file, whose first bytes may tell how it is encoded. -/
def charsOf? (content : List UInt8) : Option (List Char) := do
  let cs ← match content with
    | 0xff :: 0xfe :: rest => (units? false rest).bind ofUnits?
    | 0xfe :: 0xff :: rest => (units? true rest).bind ofUnits?
    | 0xef :: 0xbb :: 0xbf :: rest => utf8 rest
    | content => utf8 content
  if cs.all isDocumentChar then some cs else none
where
  /-- Characters that are well formed in UTF-8. -/
  utf8 (bytes : List UInt8) : Option (List Char) :=
    if Utf8.isValid bytes then some (Utf8.decode bytes).toList else none

/-- The table at the top of a file. A file without a value counts as empty. -/
def members? (content : List UInt8) : Option (List (String × Value)) := do
  let tokens := tokensOf (← charsOf? content)
  let fuel := (tokens.length + 2) * (tokens.length + 2)
  match ← rootOf tokens with
  | none => some []
  | some (.table members) => (convertTable false true fuel members).run' {}
  | some (.scalar tag style text) =>
      match ← scalarOf tag style text with
      | .null => some []
      | _ => none
  | some _ => none

end JarMetrics.Yaml
