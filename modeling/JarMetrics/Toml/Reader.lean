import JarMetrics.Decimal.Numeral
import JarMetrics.Moment
import JarMetrics.Toml.Document

/-!
# Reading TOML

Numbers and dates are cut out of the text by their characters and looked at afterwards: one that
turns out to be none is a `malformed` value, so that a reader of the document can pass over keys it
does not know.
-/

namespace JarMetrics.Toml

/-! ## Characters -/

/-- Whether a character may stand in comments and texts. -/
def isAllowed (c : Char) : Bool := (0x20 ≤ c.toNat && c.toNat != 0x7F) || c == '\t'

/-- Whether a character may stand in a key without quotes. -/
def isKeyChar (c : Char) : Bool := c.isAlphanum || c == '_' || c == '-'

/-- The text after blanks and tabs. -/
def skipBlanks (cs : List Char) : List Char := cs.dropWhile fun c => c == ' ' || c == '\t'

/-- The text after a line break, if it starts with one. -/
def lineBreak? : List Char → Option (List Char)
  | '\n' :: rest => some rest
  | '\r' :: '\n' :: rest => some rest
  | _ => none

/-- The text after a comment up to the line break. -/
def skipComment : List Char → Option (List Char)
  | [] => some []
  | '\n' :: rest => some ('\n' :: rest)
  | '\r' :: '\n' :: rest => some ('\r' :: '\n' :: rest)
  | c :: rest => if isAllowed c then skipComment rest else none

/-- The text after blanks, comments and line breaks. -/
def skipLines : Nat → List Char → Option (List Char)
  | 0, _ => none
  | fuel + 1, cs =>
      match skipBlanks cs with
      | '#' :: rest => do skipLines fuel (← skipComment rest)
      | '\n' :: rest => skipLines fuel rest
      | '\r' :: rest => do skipLines fuel (← lineBreak? ('\r' :: rest))
      | rest => some rest

/-! ## Texts -/

/-- The character of hexadecimal digits. -/
def hexChar? (digits : List Char) : Option Char := do
  let code ← (Decimal.readDigits 16 0xFFFFFFFF false 0 digits).toOption
  if code < 0xD800 || (0xDFFF < code && code ≤ 0x10FFFF) then some (Char.ofNat code) else none

/-- The character of a one-letter escape. -/
def escape? (c : Char) : Option Char :=
  match c with
  | '"' => some '"'
  | '\\' => some '\\'
  | 'b' => some (Char.ofNat 8)
  | 'f' => some (Char.ofNat 12)
  | 'n' => some '\n'
  | 'r' => some '\r'
  | 't' => some '\t'
  | 'e' => some (Char.ofNat 0x1B)
  | _ => none

/-- A text on one line up to its closing quote, with escapes. -/
def basicText : List Char → List Char → Option (String × List Char)
  | acc, '"' :: rest => some (String.ofList acc.reverse, rest)
  | acc, '\\' :: 'u' :: a :: b :: c :: d :: rest => do
      basicText ((← hexChar? [a, b, c, d]) :: acc) rest
  | acc, '\\' :: 'U' :: a :: b :: c :: d :: e :: f :: g :: h :: rest => do
      basicText ((← hexChar? [a, b, c, d, e, f, g, h]) :: acc) rest
  | acc, '\\' :: c :: rest => do basicText ((← escape? c) :: acc) rest
  | acc, c :: rest => if isAllowed c then basicText (c :: acc) rest else none
  | _, [] => none

/-- A text on one line up to its closing quote, as it stands. -/
def literalText : List Char → List Char → Option (String × List Char)
  | acc, '\'' :: rest => some (String.ofList acc.reverse, rest)
  | acc, c :: rest => if isAllowed c then literalText (c :: acc) rest else none
  | _, [] => none

/-- The end of a text over several lines: after three quotes, two more belong to the text. -/
def closing (quote : Char) (acc : List Char) (rest : List Char) : String × List Char :=
  let more := (rest.take 2).takeWhile (· == quote)
  (String.ofList (more ++ acc).reverse, rest.drop more.length)

/-- A text over several lines without escapes. -/
def longLiteral : List Char → List Char → Option (String × List Char)
  | acc, '\'' :: '\'' :: '\'' :: rest => some (closing '\'' acc rest)
  | acc, '\r' :: '\n' :: rest => longLiteral ('\n' :: '\r' :: acc) rest
  | acc, c :: rest => if isAllowed c || c == '\n' then longLiteral (c :: acc) rest else none
  | _, [] => none

/-- What follows a backslash at the end of a line: the text from the next character on that is
neither blank nor line break. -/
def joinLines : List Char → List Char
  | c :: rest =>
      if c == ' ' || c == '\t' || c == '\n' || c == '\r' then joinLines rest else c :: rest
  | [] => []

/-- Whether only blanks stand before the next line break. -/
def endsLine (cs : List Char) : Bool := (lineBreak? (skipBlanks cs)).isSome

/-- A text over several lines with escapes. Each step takes a character, so `fuel` may be the length
of the text. -/
def longBasic : Nat → List Char → List Char → Option (String × List Char)
  | 0, _, _ => none
  | fuel + 1, acc, cs =>
      match cs with
      | '"' :: '"' :: '"' :: rest => some (closing '"' acc rest)
      | '\\' :: 'u' :: a :: b :: c :: d :: rest => do
          longBasic fuel ((← hexChar? [a, b, c, d]) :: acc) rest
      | '\\' :: 'U' :: a :: b :: c :: d :: e :: f :: g :: h :: rest => do
          longBasic fuel ((← hexChar? [a, b, c, d, e, f, g, h]) :: acc) rest
      | '\\' :: c :: rest =>
          if endsLine (c :: rest) then longBasic fuel acc (joinLines (c :: rest))
          else do longBasic fuel ((← escape? c) :: acc) rest
      | '\r' :: '\n' :: rest => longBasic fuel ('\n' :: '\r' :: acc) rest
      | c :: rest =>
          if (isAllowed c && c != '\\') || c == '\n' then longBasic fuel (c :: acc) rest else none
      | [] => none

/-- The text without one line break at its start. -/
def dropBreak (cs : List Char) : List Char := (lineBreak? cs).getD cs

/-- A text after its first double quote. -/
def doubleQuoted (cs : List Char) : Option (String × List Char) :=
  match cs with
  | '"' :: '"' :: rest => longBasic (rest.length + 1) [] (dropBreak rest)
  | cs => basicText [] cs

/-- A text after its first single quote. -/
def singleQuoted (cs : List Char) : Option (String × List Char) :=
  match cs with
  | '\'' :: '\'' :: rest => longLiteral [] (dropBreak rest)
  | cs => literalText [] cs

/-! ## Numbers and dates -/

/-- Whether every underscore has a character on both sides that is none. -/
def singleUnderscores (digits : List Char) : Bool :=
  digits.head? != some '_' && digits.getLast? != some '_' &&
    !(digits.zip (digits.drop 1)).any fun (a, b) => a == '_' && b == '_'

/-- The digits without underscores, if these are well placed. -/
def ungrouped? (digits : List Char) : Option (List Char) :=
  if singleUnderscores digits then some (digits.filter (· != '_')) else none

/-- A decimal integer without leading zeros. -/
def decimalInteger? (text : List Char) : Option Int := do
  let (negative, digits) := Decimal.splitSign text
  let digits ← ungrouped? digits
  if 1 < digits.length && digits.head? == some '0' then none
  else (Decimal.readIntegerIn 10 (if negative then '-' :: digits else digits)).toOption

/-- An integer. -/
def integer (text : List Char) : Value :=
  let based := fun (base : Nat) (digits : List Char) => do
    (Decimal.readIntegerIn base (← ungrouped? digits)).toOption
  let found := match text with
    | '0' :: 'x' :: d :: rest => based 16 (d :: rest)
    | '0' :: 'o' :: d :: rest => based 8 (d :: rest)
    | '0' :: 'b' :: d :: rest => based 2 (d :: rest)
    | _ => decimalInteger? text
  (found.map Value.int).getD .malformed

/-- Whether a character on each side of every underscore is a digit. -/
def underscoresAmongDigits (text : List Char) : Bool :=
  singleUnderscores text &&
    !(text.zip (text.drop 1)).any fun (a, b) =>
      (a == '_' && !b.isDigit) || (b == '_' && !a.isDigit)

/-- Whether every point has a digit on each side. -/
def pointsAmongDigits : List Char → Bool
  | a :: '.' :: b :: rest => a.isDigit && b.isDigit && pointsAmongDigits (b :: rest)
  | ['.', _] | ['.'] | [_, '.'] => false
  | '.' :: _ => false
  | _ :: rest => pointsAmongDigits rest
  | [] => true

/-- A number with a point or an exponent, or an infinity. -/
def float (text : List Char) : Value :=
  let (negative, size) := Decimal.splitSign text
  if size == "inf".toList then .float (if negative then -1.0 / 0.0 else 1.0 / 0.0)
  else if size == "nan".toList then .float (0.0 / 0.0)
  else if !underscoresAmongDigits text then .malformed
  else
    let digits := size.filter (· != '_')
    let zeros := digits.head? == some '0' && (digits.drop 1).head?.any Char.isDigit
    if zeros || !pointsAmongDigits digits then .malformed
    else
      match Decimal.readFraction (if negative then '-' :: digits else digits) with
      | .ok x => .float x
      | .error _ => .malformed

/-- The longest part in front that has the characters of a number. An infinity ends it. -/
def numberPart : List Char → List Char → Option (List Char × List Char)
  | acc, 'i' :: 'n' :: 'f' :: rest => some (('f' :: 'n' :: 'i' :: acc).reverse, rest)
  | acc, 'n' :: 'a' :: 'n' :: rest => some (('n' :: 'a' :: 'n' :: acc).reverse, rest)
  | acc, c :: rest =>
      if c.isDigit || "+-_.eE".toList.contains c then numberPart (c :: acc) rest
      else if c == 'i' || c == 'n' then none
      else some (acc.reverse, c :: rest)
  | acc, [] => some (acc.reverse, [])

/-- Digits of a base with underscores. -/
def isBaseDigit (base : Nat) (c : Char) : Bool := c == '_' || (Decimal.digitOf? c).any (· < base)

/-- A number in front. -/
def number (cs : List Char) : Option (Value × List Char) :=
  let based := fun (base : Nat) (letter : Char) (rest : List Char) =>
    let digits := rest.takeWhile (isBaseDigit base)
    some (integer ('0' :: letter :: digits), rest.drop digits.length)
  let plain := do
    let (text, rest) ← numberPart [] cs
    if text.isEmpty then none
    else if text.any fun c => ".eEin".toList.contains c then some (float text, rest)
    else some (integer text, rest)
  match cs with
  | '0' :: 'x' :: d :: rest => based 16 'x' (d :: rest)
  | '0' :: 'o' :: d :: rest => based 8 'o' (d :: rest)
  | '0' :: 'b' :: d :: rest => based 2 'b' (d :: rest)
  | '0' :: c :: _ :: _ =>
      if c == '.' || c == 'e' || c == 'E' then plain else some (.int 0, cs.drop 1)
  | _ => plain

/-- The longest part in front that has the characters of a date or a time. One blank before a digit
belongs to it, with that digit and whatever character comes next. -/
def datePart : Bool → List Char → List Char × List Char
  | blank, ' ' :: d :: rest =>
      if blank && d.isDigit then
        match rest with
        | [] => ([' ', d], [])
        | e :: rest =>
            let (part, rest) := datePart false rest
            (' ' :: d :: e :: part, rest)
      else ([], ' ' :: d :: rest)
  | blank, c :: rest =>
      if c.isDigit || "-Tt:.+Zz".toList.contains c then
        let (part, rest) := datePart blank rest
        (c :: part, rest)
      else ([], c :: rest)
  | _, [] => ([], [])

/-- A time of day with an optional fraction, and what follows. -/
def clock? (cs : List Char) : Option (List Char) := do
  let (hour, rest) ← Moment.number? false cs
  let (minute, rest) ← Moment.number? false (← Moment.after? ':' rest)
  let (second, rest) ← Moment.number? false (← Moment.after? ':' rest)
  if 23 < hour || 59 < minute || 60 < second then none
  else
    match rest with
    | '.' :: rest =>
        if rest.head?.any Char.isDigit then some (rest.dropWhile Char.isDigit) else none
    | rest => some rest

/-- Whether a text is a zone. -/
def isZone : List Char → Bool
  | ['Z'] | ['z'] => true
  | [sign, a, b, ':', c, d] =>
      (sign == '+' || sign == '-') &&
        ((Moment.number? false [a, b]).any fun (hours, _) => hours ≤ 23) &&
        ((Moment.number? false [c, d]).any fun (minutes, _) => minutes ≤ 59)
  | _ => false

/-- Whether a text is a date, a time, or both with or without a zone. -/
def isMoment (text : List Char) : Bool :=
  match Moment.date? false text with
  | some (m, rest) =>
      m.isValid &&
        match rest with
        | [] => true
        | t :: rest =>
            (t == 'T' || t == 't' || t == ' ') &&
              (clock? rest).any fun rest => rest.isEmpty || isZone rest
  | none => (clock? text) == some []

/-- Whether what stands in front is a date or a time rather than a number. -/
def looksLikeMoment (cs : List Char) : Bool :=
  3 ≤ cs.length &&
    match (cs.takeWhile Char.isDigit).length with
    | 2 => (cs.drop 2).head? == some ':'
    | 4 => (cs.drop 4).head? == some '-'
    | _ => false

/-- A number or a date in front. -/
def numberOrMoment (cs : List Char) : Option (Value × List Char) :=
  if looksLikeMoment cs then
    let (part, rest) := datePart true cs
    some (if isMoment part then .moment else .malformed, rest)
  else number cs

/-! ## Keys and values -/

/-- One part of a key. -/
def keyPart (cs : List Char) : Option (String × List Char) :=
  match cs with
  | '"' :: rest => basicText [] rest
  | '\'' :: rest => literalText [] rest
  | cs =>
      let key := cs.takeWhile isKeyChar
      if key.isEmpty then none else some (String.ofList key, cs.drop key.length)

/-- A key with dots. Each part takes a character, so `fuel` may be the length of the text. -/
def keyPath : Nat → List Char → Option (List String × List Char)
  | 0, _ => none
  | fuel + 1, cs => do
      let (part, rest) ← keyPart cs
      match skipBlanks rest with
      | '.' :: more => do
          let (parts, rest) ← keyPath fuel (skipBlanks more)
          return (part :: parts, rest)
      | _ => return ([part], rest)

/-- The text after a word. -/
def word? (word : String) (cs : List Char) : Option (List Char) :=
  if word.toList.isPrefixOf cs then some (cs.drop word.length) else none

mutual

/-- A value in front. Every step takes a character, so `fuel` may be the length of the text. -/
def value : Nat → List Char → Option (Value × List Char)
  | 0, _ => none
  | fuel + 1, cs =>
      match cs with
      | [] => none
      | '"' :: rest => (doubleQuoted rest).map fun (text, rest) => (.text text, rest)
      | '\'' :: rest => (singleQuoted rest).map fun (text, rest) => (.text text, rest)
      | 't' :: rest => (word? "rue" rest).map fun rest => (.bool true, rest)
      | 'f' :: rest => (word? "alse" rest).map fun rest => (.bool false, rest)
      | '[' :: rest => items fuel true [] rest
      | '\x7b' :: rest => members fuel true [] rest
      | cs => numberOrMoment cs

/-- Items of a list up to its closing bracket; a comma may follow the last one. -/
def items : Nat → Bool → List Value → List Char → Option (Value × List Char)
  | 0, _, _, _ => none
  | fuel + 1, first, acc, cs => do
      match ← skipLines (cs.length + 1) cs with
      | ']' :: rest => return (.list acc.reverse, rest)
      | ',' :: rest =>
          if first then none
          else
            match ← skipLines (rest.length + 1) rest with
            | ']' :: rest => return (.list acc.reverse, rest)
            | rest => do
                let (item, rest) ← value fuel rest
                items fuel false (item :: acc) rest
      | rest =>
          if first then do
            let (item, rest) ← value fuel rest
            items fuel false (item :: acc) rest
          else none

/-- Assignments of a table on one line up to its closing brace. -/
def members : Nat → Bool → List (List String × Value) → List Char → Option (Value × List Char)
  | 0, _, _, _ => none
  | fuel + 1, first, acc, cs =>
      match skipBlanks cs with
      | '\x7d' :: rest => some (inlineTable acc.reverse, rest)
      | ',' :: rest =>
          if first then none
          else do
            let (assignment, rest) ← assignment fuel (skipBlanks rest)
            members fuel false (assignment :: acc) rest
      | rest =>
          if first then do
            let (assignment, rest) ← assignment fuel rest
            members fuel false (assignment :: acc) rest
          else none

/-- A key and its value. -/
def assignment : Nat → List Char → Option ((List String × Value) × List Char)
  | 0, _ => none
  | fuel + 1, cs => do
      let (path, rest) ← keyPath (cs.length + 1) cs
      match skipBlanks rest with
      | '=' :: rest =>
          let (value, rest) ← value fuel (skipBlanks rest)
          return ((path, value), rest)
      | _ => none

end

/-- The text after a closing bracket. -/
def bracket? (cs : List Char) : Option (List Char) :=
  match cs with
  | ']' :: rest => some rest
  | _ => none

/-- The header of a section or an assignment. -/
def expression (cs : List Char) : Option (Expression × List Char) :=
  match cs with
  | '[' :: '[' :: rest => do
      let (path, rest) ← keyPath (rest.length + 1) (skipBlanks rest)
      return (.item path, ← bracket? (← bracket? (skipBlanks rest)))
  | '[' :: rest => do
      let (path, rest) ← keyPath (rest.length + 1) (skipBlanks rest)
      return (.header path, ← bracket? (skipBlanks rest))
  | cs => do
      let ((path, value), rest) ← assignment (cs.length + 1) cs
      return (.assignment path value, rest)

/-- The rest of a line: blanks and possibly a comment. -/
def lineEnd (cs : List Char) : Option (List Char) :=
  match skipBlanks cs with
  | '#' :: rest => skipComment rest
  | rest => some rest

/-- The parts of a document, one line after the other. Each line takes a character, so `fuel` may be
the length of the text. -/
def lines : Nat → List Expression → List Char → Option (List Expression)
  | 0, _, _ => none
  | fuel + 1, acc, cs => do
      let cs := skipBlanks cs
      let (acc, rest) ←
        match cs with
        | [] => some (acc, cs)
        | c :: _ =>
            if c == '#' || c == '\n' || c == '\r' then some (acc, cs)
            else (expression cs).map fun (e, rest) => (e :: acc, rest)
      match ← lineEnd rest with
      | [] => some acc.reverse
      | rest => lines fuel acc (← lineBreak? rest)

/-- The parts of a text, whether they fit together or not. -/
def expressions? (text : String) : Option (List Expression) :=
  lines (text.toList.length + 1) [] text.toList

/-- Read a document. -/
def parse? (text : String) : Option (List (String × Value)) := (expressions? text).bind document

end JarMetrics.Toml
