/-!
# Options that were given

Which options of a command somebody gave, and what is in force between what a settings file says and
what was given: an option counts only if it was given.
-/

namespace JarMetrics

/-- The names of the options that were given, each once. -/
structure Given where
  names : List String := []
  deriving Repr, DecidableEq

namespace Given

/-- Whether an option was given. -/
def has (given : Given) (name : String) : Bool := given.names.contains name

/-- Count an option as given. -/
def add (given : Given) (name : String) : Given :=
  if given.has name then given else ⟨given.names ++ [name]⟩

/-- The options of a list. -/
def ofList (names : List String) : Given := names.foldl add {}

/-- How many options were given. -/
def size (given : Given) : Nat := given.names.length

/-- The new value if the option was given, else the old one. -/
def pick {α : Type} (given : Given) (name : String) (old new : α) : α :=
  if given.has name then new else old

/-- The new value if the option was given and there is one. -/
def pickSome {α : Type} (given : Given) (name : String) (old new : Option α) : Option α :=
  if given.has name && new.isSome then new else old

/-- The new list if the option was given and something is in it. -/
def pickFilled {α : Type} (given : Given) (name : String) (old new : List α) : List α :=
  if given.has name && !new.isEmpty then new else old

end Given

end JarMetrics
