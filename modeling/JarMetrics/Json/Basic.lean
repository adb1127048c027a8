import JarMetrics.Decimal.Printer
import JarMetrics.Text.Case

/-!
# JSON values and their text

Values keep the order of object members. Two layouts are written: everything on one line without
blanks, and one item per line with two blanks per level. `<`, `>` and `&` can be written as escapes,
so that the text may stand inside a page.
-/

namespace JarMetrics

/-- A JSON value. -/
inductive Json
  | null
  | bool (value : Bool)
  | int (value : Int)
  | float (value : Float)
  | string (text : String)
  | array (items : List Json)
  | object (members : List (String × Json))
  deriving Inhabited, BEq

namespace Json

/-! ## Access -/

/-- The value of a member; of several with one name the last counts. -/
def get? (key : String) : Json → Option Json
  | .object members => (members.reverse.find? (·.1 == key)).map Prod.snd
  | _ => none

/-- The value of a member, its name in any case, and `null` when there is none. -/
def getAnyCase (key : String) : Json → Json
  | .object members =>
      ((members.reverse.find? fun (name, _) => Text.lower name == Text.lower key).map Prod.snd).getD
        .null
  | _ => .null

/-- The value of a member, `null` when there is none. -/
def get (key : String) (value : Json) : Json := (value.get? key).getD .null

/-- The text of a string. -/
def string? : Json → Option String
  | .string text => some text
  | _ => none

/-- The truth value of a boolean. -/
def bool? : Json → Option Bool
  | .bool value => some value
  | _ => none

/-- The items of an array. -/
def array? : Json → Option (List Json)
  | .array items => some items
  | _ => none

/-- A number as a double. -/
def float? : Json → Option Float
  | .int value => some (Float.ofInt value)
  | .float value => some value
  | _ => none

/-- Whether the value is `null`. -/
def isNull : Json → Bool
  | .null => true
  | _ => false

/-- An array of strings. -/
def strings (items : List String) : Json := .array (items.map .string)

/-! ## Text -/

/-- Numbers are written positionally from 1e-6 up to 1e21, elsewhere with a signed exponent. -/
def numberStyle : Decimal.Style :=
  { least := -6, limit := 21, exponentWidth := 1 }

/-- The four-digit escape of a code unit. -/
def unicodeEscape (unit : Nat) : String :=
  "\\u" ++ Decimal.zeroPad 4 (String.ofList (Nat.toDigits 16 unit))

/-- Write one character inside quotes. -/
def escapeChar (markup : Bool) (c : Char) : String :=
  if c = '"' then "\\\""
  else if c = '\\' then "\\\\"
  else if c = '\n' then "\\n"
  else if c = '\r' then "\\r"
  else if c = '\t' then "\\t"
  else if c.toNat = 8 then "\\b"
  else if c.toNat = 12 then "\\f"
  else if c.toNat < 0x20 ∨ c.toNat = 0x2028 ∨ c.toNat = 0x2029 then unicodeEscape c.toNat
  else if markup ∧ (c = '<' ∨ c = '>' ∨ c = '&') then unicodeEscape c.toNat
  else c.toString

/-- Write a string in quotes; `markup` asks for escapes of `<`, `>` and `&`. -/
def quote (markup : Bool) (text : String) : String :=
  text.foldl (fun acc c => acc ++ escapeChar markup c) "\"" ++ "\""

/-- Write a value that is no array and no object. -/
def scalar (markup : Bool) : Json → String
  | .null => "null"
  | .bool value => if value then "true" else "false"
  | .int value => toString value
  | .float value => Decimal.render numberStyle value
  | .string text => quote markup text
  | .array _ => "[]"
  | .object _ => "\x7b\x7d"

mutual

/-- Write a value on one line. -/
def compact (markup : Bool) : Json → String
  | .array items => "[" ++ compactItems markup items ++ "]"
  | .object members => "\x7b" ++ compactMembers markup members ++ "\x7d"
  | value => scalar markup value

/-- Items between commas. -/
def compactItems (markup : Bool) : List Json → String
  | [] => ""
  | [item] => compact markup item
  | item :: rest => compact markup item ++ "," ++ compactItems markup rest

/-- Members between commas. -/
def compactMembers (markup : Bool) : List (String × Json) → String
  | [] => ""
  | [(key, value)] => quote markup key ++ ":" ++ compact markup value
  | (key, value) :: rest =>
      quote markup key ++ ":" ++ compact markup value ++ "," ++ compactMembers markup rest

end

/-- The start of a line at a level. -/
def newline (level : Nat) : String := "\n" ++ String.ofList (List.replicate (2 * level) ' ')

mutual

/-- Write a value over several lines, two blanks per level. -/
def pretty (markup : Bool) (level : Nat) : Json → String
  | .array (item :: rest) =>
      "[" ++ prettyItems markup (level + 1) (item :: rest) ++ newline level ++ "]"
  | .object (member :: rest) =>
      "\x7b" ++ prettyMembers markup (level + 1) (member :: rest) ++ newline level ++ "\x7d"
  | value => scalar markup value

/-- Items, each on a line of its own. -/
def prettyItems (markup : Bool) (level : Nat) : List Json → String
  | [] => ""
  | [item] => newline level ++ pretty markup level item
  | item :: rest =>
      newline level ++ pretty markup level item ++ "," ++ prettyItems markup level rest

/-- Members, each on a line of its own. -/
def prettyMembers (markup : Bool) (level : Nat) : List (String × Json) → String
  | [] => ""
  | [(key, value)] => newline level ++ quote markup key ++ ": " ++ pretty markup level value
  | (key, value) :: rest =>
      newline level ++ quote markup key ++ ": " ++ pretty markup level value ++ "," ++
        prettyMembers markup level rest

end

mutual

/-- Whether a number in the value is infinite or no number at all; such a value has no JSON text. -/
def unprintable : Json → Option Float
  | .float value => if value.isFinite then none else some value
  | .array items => unprintableItems items
  | .object members => unprintableMembers members
  | _ => none

/-- The first unprintable number among the items. -/
def unprintableItems : List Json → Option Float
  | [] => none
  | item :: rest => (unprintable item).or (unprintableItems rest)

/-- The first unprintable number among the members. -/
def unprintableMembers : List (String × Json) → Option Float
  | [] => none
  | (_, value) :: rest => (unprintable value).or (unprintableMembers rest)

end

end Json

end JarMetrics
