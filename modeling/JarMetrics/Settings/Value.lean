/-!
# Values of settings files

The one data model into which the file formats for settings are read. Tables keep the order of their
keys.
-/

namespace JarMetrics

/-- Keys in their order, each with what it holds. -/
abbrev Entries (α : Type) := List (String × α)

namespace Entries

variable {α : Type}

/-- What a key holds. -/
def at? (key : String) (entries : Entries α) : Option α := (entries.find? (·.1 == key)).map Prod.snd

/-- Let a key hold something, in the place of what it held or behind all other keys. -/
def put (key : String) (held : α) : Entries α → Entries α
  | [] => [(key, held)]
  | (k, old) :: rest => if k == key then (k, held) :: rest else (k, old) :: put key held rest

end Entries

/-- A value in a settings file. -/
inductive Value
  | null
  | bool (value : Bool)
  | int (value : Int)
  | float (value : Float)
  | text (value : String)
  /-- A date, a time or both. -/
  | moment
  /-- Something that has the look of a number or a date and is none. -/
  | malformed
  /-- A table whose keys clash. -/
  | clash
  | list (items : List Value)
  | table (members : List (String × Value))
  deriving Inhabited

namespace Value

/-- The value at a key; of several the last counts. -/
def get? (key : String) (members : List (String × Value)) : Option Value :=
  (members.reverse.find? (·.1 == key)).map Prod.snd

mutual

/-- Whether nothing in the value is malformed and no keys clash. -/
def wellFormed : Value → Bool
  | .malformed | .clash => false
  | .list items => itemsWellFormed items
  | .table members => membersWellFormed members
  | _ => true

/-- Whether nothing in the items is malformed. -/
def itemsWellFormed : List Value → Bool
  | [] => true
  | item :: rest => item.wellFormed && itemsWellFormed rest

/-- Whether nothing in the members is malformed. -/
def membersWellFormed : List (String × Value) → Bool
  | [] => true
  | (_, value) :: rest => value.wellFormed && membersWellFormed rest

end

mutual

/-- Whether keys clash in the value or in one of its items. -/
def clashes : Value → Bool
  | .clash => true
  | .list items => itemsClash items
  | _ => false

/-- Whether keys clash in one of the items. -/
def itemsClash : List Value → Bool
  | [] => false
  | item :: rest => item.clashes || itemsClash rest

end

end Value

end JarMetrics
