import JarMetrics.Decimal.Numeral
import JarMetrics.Moment

/-!
# Plain scalars

What a scalar without quotes stands for. The first character decides which readings are tried: words
such as `true`, numbers, and dates. Everything else is text.
-/

namespace JarMetrics.Yaml

/-- What a plain scalar stands for. -/
inductive Scalar
  | null
  | bool (value : Bool)
  | int (value : Int)
  | float (value : Float)
  /-- A date or a date with a time. -/
  | timestamp
  | text (value : String)

/-- Words with a meaning of their own. -/
def word? (text : String) : Option Scalar :=
  if ["true", "True", "TRUE"].contains text then some (.bool true)
  else if ["false", "False", "FALSE"].contains text then some (.bool false)
  else if ["", "~", "null", "Null", "NULL"].contains text then some .null
  else if [".nan", ".NaN", ".NAN"].contains text then some (.float (0.0 / 0.0))
  else if [".inf", ".Inf", ".INF", "+.inf", "+.Inf", "+.INF"].contains text then
    some (.float (1.0 / 0.0))
  else if ["-.inf", "-.Inf", "-.INF"].contains text then some (.float (-1.0 / 0.0))
  else none

/-- Whether only four digits and a dash stand at the start, as in all dates. -/
def startsLikeDate (text : List Char) : Bool :=
  (text.takeWhile Char.isDigit).length == 4 && (text.dropWhile Char.isDigit).head? == some '-'

/-- An integer after `0b` or `0o`, which may have a sign of its own; a minus sign in front goes with
the digits. -/
def markedInteger? (text : List Char) : Option Int :=
  let (minus, rest) := match text with
    | '-' :: rest => (true, rest)
    | rest => (false, rest)
  let digits := fun (rest : List Char) => if minus then '-' :: rest else rest
  match rest with
  | '0' :: 'b' :: rest => (Decimal.readIntegerIn 2 (digits rest)).toOption
  | '0' :: 'o' :: rest => (Decimal.readIntegerIn 8 (digits rest)).toOption
  | _ => none

/-- Read a number that starts with a digit or a sign; underscores do not count. -/
def number? (text : List Char) : Option Scalar :=
  let digits := text.filter (· != '_')
  match Decimal.readInteger digits with
  | .ok n => some (.int n)
  | .error _ =>
      match Decimal.readWord digits with
      | .ok n => some (.int n)
      | .error _ =>
          match Decimal.readFraction digits with
          | .ok x => some (.float x)
          | .error _ => (markedInteger? digits).map .int

/-- What a plain scalar stands for. -/
def resolve (text : String) : Scalar :=
  match text.toList with
  | [] => .null
  | c :: rest =>
      if c == '.' then
        ((word? text).or ((Decimal.readFraction (c :: rest)).toOption.map .float)).getD (.text text)
      else if c.isDigit || c == '+' || c == '-' then
        match word? text with
        | some scalar => scalar
        | none =>
            if startsLikeDate (c :: rest) && Moment.isTimestamp (c :: rest) then .timestamp
            else (number? (c :: rest)).getD (.text text)
      else if "yYnNtTfFoO~".toList.contains c then (word? text).getD (.text text)
      else .text text

/-- Whether a plain scalar stands for its own text. -/
def Scalar.isText : Scalar → Bool
  | .text _ => true
  | _ => false

end JarMetrics.Yaml
