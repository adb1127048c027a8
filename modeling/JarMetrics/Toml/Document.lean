import JarMetrics.Settings.Value

/-!
# TOML documents

A document is a sequence of headers and assignments. Which of them may follow each other is a matter
of how tables came into being: a table with a header of its own is not given a second one, and a
table made by dotted keys is closed as soon as the next header follows.
-/

namespace JarMetrics.Toml

/-- A part of a document. -/
inductive Expression
  | assignment (path : List String) (value : Value)
  | header (path : List String)
  /-- The header of a further table in a list of tables. -/
  | item (path : List String)

/-- A place in a document. -/
inductive Node
  | value (value : Value)
  /-- A table; a `fixed` one takes neither a header nor dotted keys, and a `dotted` one was made by
  dotted keys in the section that is still open. -/
  | table (fixed dotted : Bool) (members : List (String × Node))
  /-- A list of tables, of which the last is open. -/
  | tables (closed : List (List (String × Node))) (last : List (String × Node))

/-- The keys of a table with what they hold. -/
abbrev Members := Entries Node

namespace Members

/-- A way into what a key holds: the members there, and how they are held when they have changed. -/
abbrev Way := Option Node → Option (Members × (Members → Node))

/-- The way that dotted keys take: into tables that are not fixed, which are made as needed. -/
def byDots : Way
  | none => some ([], .table false true)
  | some (.table false dotted inner) => some (inner, .table false dotted)
  | some _ => none

/-- The way that headers take: into all tables, which are made as needed; a list of tables stands
for its last one. -/
def byHeaders : Way
  | none => some ([], .table false false)
  | some (.table fixed dotted inner) => some (inner, .table fixed dotted)
  | some (.tables closed last) => some (last, .tables closed)
  | some (.value _) => none

/-- Change what the last key of a path holds. -/
def change (way : Way) (last : Option Node → Option Node) : List String → Members → Option Members
  | [], _ => none
  | [key], members => (last (members.at? key)).map (members.put key)
  | key :: next :: rest, members => do
      let (inner, held) ← way (members.at? key)
      return members.put key (held (← change way last (next :: rest) inner))

/-- Change the members at a path. -/
def within (way : Way) (inside : Members → Option Members) : List String → Members → Option Members
  | [], members => inside members
  | key :: rest, members => do
      let (inner, held) ← way (members.at? key)
      return members.put key (held (← within way inside rest inner))

/-- A value, where nothing was. -/
def newValue (value : Value) : Option Node → Option Node
  | none => some (.value value)
  | some _ => none

/-- A table with a header of its own, which it did not have before. -/
def newTable : Option Node → Option Node
  | none => some (.table true false [])
  | some (.table false dotted inner) => some (.table true dotted inner)
  | some _ => none

/-- A list of tables with one more. -/
def newItem : Option Node → Option Node
  | none => some (.tables [] [])
  | some (.tables closed last) => some (.tables (closed ++ [last]) [])
  | some _ => none

/-- Assign a value at a path of dotted keys. -/
def assign (value : Value) : List String → Members → Option Members :=
  change byDots (newValue value)

/-- Open a table. -/
def openTable : List String → Members → Option Members := change byHeaders newTable

/-- Open a further table of a list. -/
def openItem : List String → Members → Option Members := change byHeaders newItem

/-- Assign a value in the open section. -/
def assignIn (current path : List String) (value : Value) : Members → Option Members :=
  within byHeaders (assign value path) current

/-- Whether something stands at a path, where a list of tables stands for its last one. -/
def holds : List String → Members → Bool
  | [], _ => false
  | [key], members => (members.at? key).isSome
  | key :: rest, members =>
      match members.at? key with
      | some (.table _ _ inner) => holds rest inner
      | some (.tables _ last) => holds rest last
      | _ => false

end Members

mutual

/-- Close all tables that were made by dotted keys. -/
def Node.close : Node → Node
  | .value value => .value value
  | .table fixed dotted members => .table (fixed || dotted) false (closeAll members)
  | .tables closed last => .tables closed (closeAll last)

/-- Close all such tables in a table. -/
def closeAll : List (String × Node) → List (String × Node)
  | [] => []
  | (key, node) :: rest => (key, node.close) :: closeAll rest

end

mutual

/-- The value of a node. -/
def Node.toValue : Node → Value
  | .value value => value
  | .table _ _ members => .table (membersToValue members)
  | .tables closed last => .list (tablesToValue closed ++ [.table (membersToValue last)])

/-- The values of the members of a table. -/
def membersToValue : List (String × Node) → List (String × Value)
  | [] => []
  | (key, node) :: rest => (key, node.toValue) :: membersToValue rest

/-- The values of a list of tables. -/
def tablesToValue : List (List (String × Node)) → List Value
  | [] => []
  | members :: rest => .table (membersToValue members) :: tablesToValue rest

end

/-- The members after one more part of a document, if it fits. -/
def Members.extend (current : List String) (members : Members) : Expression → Option Members
  | .assignment path value => if value.clashes then none else members.assignIn current path value
  | .header path => Members.openTable path (closeAll members)
  | .item path => Members.openItem path (closeAll members)

/-- The section that is open behind a part of a document. -/
def Expression.opens (current : List String) : Expression → List String
  | .assignment _ _ => current
  | .header path => path
  | .item path => path

/-- Follow the parts of a document, with the path of the open section. -/
def build (current : List String) (members : Members) : List Expression → Option Members
  | [] => some members
  | part :: rest => do build (part.opens current) (← members.extend current part) rest

/-- The table that a document describes, if its parts fit together. -/
def document (parts : List Expression) : Option (List (String × Value)) :=
  (build [] [] parts).map membersToValue

/-- The table of assignments between braces. -/
def inlineTable (assignments : List (List String × Value)) : Value :=
  match document (assignments.map fun (path, value) => .assignment path value) with
  | some members => .table members
  | none => .clash

end JarMetrics.Toml
