/-!
# References to variables

A value may refer to variables by a dollar sign, as in `$NAME` and `${NAME}`. Names are capitals,
digits and underscores; a brace on either side belongs to the reference, also without its partner. A
backslash before the dollar sign takes its meaning away, and a dollar sign without a name stands for
itself.
-/

namespace JarMetrics.Dotenv

/-- Whether a character may stand in the name that a reference gives. -/
def isReferenceChar (c : Char) : Bool := ('A' ≤ c && c ≤ 'Z') || c.isDigit || c == '_'

/-- What stands behind the dollar sign of a reference. -/
structure Reference where
  /-- What comes before the name. -/
  before : List Char
  name : List Char
  /-- What comes behind the name. -/
  after : List Char
  deriving Repr, DecidableEq

namespace Reference

/-- The characters of a reference behind its dollar sign. -/
def written (r : Reference) : List Char := r.before ++ r.name ++ r.after

/-- A character at the front, if it is there. -/
def optional (c : Char) (cs : List Char) : List Char := if cs.head? = some c then [c] else []

/-- The reference behind a dollar sign. Where `parenthesis` holds, an opening parenthesis belongs to
it. -/
def read (parenthesis : Bool) (cs : List Char) : Reference :=
  let outer := if parenthesis then optional '(' cs else []
  let before := outer ++ optional '\x7b' (cs.drop outer.length)
  let rest := cs.drop before.length
  let name := rest.takeWhile isReferenceChar
  ⟨before, name, optional '\x7d' (rest.drop name.length)⟩

end Reference

/-- Replace the references in a value by what `lookup` gives; an unknown variable is empty. -/
def expand (parenthesis : Bool) (lookup : String → Option String) : List Char → List Char
  | [] => []
  | '\\' :: '$' :: rest =>
      let r := Reference.read parenthesis rest
      '$' :: (r.written ++ expand parenthesis lookup (rest.drop r.written.length))
  | '$' :: rest =>
      let r := Reference.read parenthesis rest
      let value := if r.name.isEmpty then '$' :: r.written
        else ((lookup (String.ofList r.name)).getD "").toList
      value ++ expand parenthesis lookup (rest.drop r.written.length)
  | c :: rest => c :: expand parenthesis lookup rest
  termination_by cs => cs.length

/-! ## Escapes -/

/-- Replace a backslash and a letter by a character, wherever they follow each other. -/
def replaceEscape (letter character : Char) : List Char → List Char
  | '\\' :: c :: rest =>
      if c = letter then character :: replaceEscape letter character rest
      else '\\' :: replaceEscape letter character (c :: rest)
  | c :: rest => c :: replaceEscape letter character rest
  | [] => []

/-- Drop every backslash that does not stand before a dollar sign, and keep what it stands
before. -/
def dropBackslashes : List Char → List Char
  | '\\' :: c :: rest =>
      if c = '$' then '\\' :: dropBackslashes (c :: rest) else c :: dropBackslashes rest
  | c :: rest => c :: dropBackslashes rest
  | [] => []

/-- The value of a variable among variables; of several the last counts. -/
def valueOf (found : List (String × String)) (name : String) : Option String :=
  (found.reverse.find? (·.1 == name)).map Prod.snd

end JarMetrics.Dotenv
