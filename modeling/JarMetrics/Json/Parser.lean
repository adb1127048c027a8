import JarMetrics.Json.Basic
import JarMetrics.Bytes.Utf16
import JarMetrics.Decimal.Reader

/-!
# Reading JSON

A strict reader: no comments, no trailing commas, no leading zeros. A `\u` escape of half a
surrogate pair reads as the replacement character. Numbers outside the range of doubles are refused.
-/

namespace JarMetrics.Json

/-- Blanks between tokens. -/
def isBlank (c : Char) : Bool := c == ' ' || c == '\t' || c == '\n' || c == '\r'

/-- The text after leading blanks. -/
def skipBlanks (cs : List Char) : List Char := cs.dropWhile isBlank

/-- The value of a hexadecimal digit. -/
def hexValue? (c : Char) : Option Nat :=
  if c.isDigit then some (c.toNat - '0'.toNat)
  else if 'a' ≤ c ∧ c ≤ 'f' then some (c.toNat - 'a'.toNat + 10)
  else if 'A' ≤ c ∧ c ≤ 'F' then some (c.toNat - 'A'.toNat + 10)
  else none

/-- Four hexadecimal digits at the front. -/
def hex4? : List Char → Option (Nat × List Char)
  | a :: b :: c :: d :: rest => do
      let a ← hexValue? a
      let b ← hexValue? b
      let c ← hexValue? c
      let d ← hexValue? d
      return (((a * 16 + b) * 16 + c) * 16 + d, rest)
  | _ => none

/-- The character of a one-letter escape. -/
def simpleEscape? (c : Char) : Option Char :=
  match c with
  | '"' => some '"'
  | '\\' => some '\\'
  | '/' => some '/'
  | 'b' => some (Char.ofNat 8)
  | 'f' => some (Char.ofNat 12)
  | 'n' => some '\n'
  | 'r' => some '\r'
  | 't' => some '\t'
  | _ => none

/-- Characters of a string as code units up to the closing quote, and what follows it. Each step
takes at least one character of the text, so `fuel` may be the length of the text. -/
def stringUnits : Nat → List Char → List Nat → Option (List Nat × List Char)
  | 0, _, _ => none
  | fuel + 1, cs, acc =>
      match cs with
      | [] => none
      | '"' :: rest => some (acc.reverse, rest)
      | '\\' :: 'u' :: rest =>
          match hex4? rest with
          | some (unit, rest) => stringUnits fuel rest (unit :: acc)
          | none => none
      | '\\' :: c :: rest =>
          match simpleEscape? c with
          | some c => stringUnits fuel rest (c.toNat :: acc)
          | none => none
      | c :: rest =>
          if c.toNat < 0x20 ∨ c = '\\' then none
          else stringUnits fuel rest ((Utf16.unitsOf c).reverse ++ acc)

/-- The text of a string after its opening quote. -/
def stringBody (cs : List Char) : Option (String × List Char) :=
  (stringUnits (cs.length + 1) cs []).map fun (units, rest) =>
    (String.ofList (Utf16.decode units), rest)

/-- A run of digits at the front. -/
def digitRun (cs : List Char) : List Char × List Char :=
  (cs.takeWhile Char.isDigit, cs.dropWhile Char.isDigit)

/-- The exponent of a number, if there is one. -/
def exponentPart : List Char → Option (Option Int × List Char)
  | e :: rest =>
      if e = 'e' ∨ e = 'E' then
        let (negative, rest) := match rest with
          | '-' :: rest => (true, rest)
          | '+' :: rest => (false, rest)
          | rest => (false, rest)
        let (digits, rest) := digitRun rest
        if digits.isEmpty then none
        else
          let value : Int := Decimal.ofDigits digits
          some (some (if negative then -value else value), rest)
      else some (none, e :: rest)
  | [] => some (none, [])

/-- A number at the front. -/
def numberLiteral (cs : List Char) : Option (Decimal.Literal × List Char) := do
  let (negative, cs) := match cs with
    | '-' :: rest => (true, rest)
    | cs => (false, cs)
  let (whole, cs) := digitRun cs
  if whole.isEmpty || (whole.length > 1 && whole.head? == some '0') then none
  let (fraction, cs) ← match cs with
    | '.' :: rest =>
        let (digits, rest) := digitRun rest
        if digits.isEmpty then none else some (some digits, rest)
    | cs => some (none, cs)
  let (exponent, cs) ← exponentPart cs
  return ({ negative, whole, fraction, exponent }, cs)

/-- The value of a number: an integer unless it has a point, an exponent or is minus zero. -/
def ofLiteral (l : Decimal.Literal) : Option Json :=
  if l.toFloat.isInf then none
  else if l.isInteger && !(l.negative && l.toInt == 0) then some (.int l.toInt)
  else some (.float l.toFloat)

/-- The rest after a word at the front. -/
def word? (word : String) (cs : List Char) : Option (List Char) :=
  if word.toList.isPrefixOf cs then some (cs.drop word.length) else none

mutual

/-- A value at the front. Every step takes at least one character, so `fuel` may be the length of
the text. -/
def value : Nat → List Char → Option (Json × List Char)
  | 0, _ => none
  | fuel + 1, cs =>
      match skipBlanks cs with
      | '\x7b' :: rest =>
          match skipBlanks rest with
          | '\x7d' :: rest => some (.object [], rest)
          | rest => members fuel rest []
      | '[' :: rest =>
          match skipBlanks rest with
          | ']' :: rest => some (.array [], rest)
          | rest => items fuel rest []
      | '"' :: rest => (stringBody rest).map fun (text, rest) => (.string text, rest)
      | 't' :: rest => (word? "rue" rest).map fun rest => (.bool true, rest)
      | 'f' :: rest => (word? "alse" rest).map fun rest => (.bool false, rest)
      | 'n' :: rest => (word? "ull" rest).map fun rest => (.null, rest)
      | cs => do
          let (literal, rest) ← numberLiteral cs
          return (← ofLiteral literal, rest)

/-- Items of an array up to the closing bracket. -/
def items : Nat → List Char → List Json → Option (Json × List Char)
  | 0, _, _ => none
  | fuel + 1, cs, acc => do
      let (item, rest) ← value fuel cs
      match skipBlanks rest with
      | ',' :: rest => items fuel rest (item :: acc)
      | ']' :: rest => some (.array (item :: acc).reverse, rest)
      | _ => none

/-- Members of an object up to the closing brace. -/
def members : Nat → List Char → List (String × Json) → Option (Json × List Char)
  | 0, _, _ => none
  | fuel + 1, cs, acc =>
      match skipBlanks cs with
      | '"' :: rest => do
          let (key, rest) ← stringBody rest
          match skipBlanks rest with
          | ':' :: rest =>
              let (item, rest) ← value fuel rest
              match skipBlanks rest with
              | ',' :: rest => members fuel rest ((key, item) :: acc)
              | '\x7d' :: rest => some (.object ((key, item) :: acc).reverse, rest)
              | _ => none
          | _ => none
      | _ => none

end

/-- Read a text that holds one value and nothing else but blanks. -/
def parse? (text : String) : Option Json :=
  let cs := text.toList
  match value (cs.length + 1) cs with
  | some (result, rest) => if (skipBlanks rest).isEmpty then some result else none
  | none => none

end JarMetrics.Json
