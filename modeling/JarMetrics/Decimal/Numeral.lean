import JarMetrics.Decimal.Reader

/-!
# Reading numerals

Integers with an optional sign, a base that a leading zero announces, and underscores between
digits; decimal fractions with an exponent. A numeral that is out of range is told from a text that
is no numeral.
-/

namespace JarMetrics.Decimal

/-- Why a text is not read as a number. -/
inductive NumeralError
  | malformed
  | outOfRange
  deriving Repr, DecidableEq

/-- The value of a digit in any base up to 36. -/
def digitOf? (c : Char) : Option Nat :=
  if c.isDigit then some (c.toNat - '0'.toNat)
  else if 'a' ≤ c ∧ c ≤ 'z' then some (c.toNat - 'a'.toNat + 10)
  else if 'A' ≤ c ∧ c ≤ 'Z' then some (c.toNat - 'A'.toNat + 10)
  else none

/-- Read digits of a base, skipping underscores where `grouped` allows them. Reading ends at the
first character that is no digit and at the first digit that takes the value above `limit`. -/
def readDigits (base limit : Nat) (grouped : Bool) : Nat → List Char → Except NumeralError Nat
  | value, [] => .ok value
  | value, c :: rest =>
      if grouped && c == '_' then readDigits base limit grouped value rest
      else
        match digitOf? c with
        | none => .error .malformed
        | some d =>
            if base ≤ d then .error .malformed
            else if limit < value * base + d then .error .outOfRange
            else readDigits base limit grouped (value * base + d) rest

/-- What the base of a numeral is and where its digits begin. -/
def splitBase : List Char → Nat × List Char
  | '0' :: letter :: c :: rest =>
      if letter == 'b' || letter == 'B' then (2, c :: rest)
      else if letter == 'o' || letter == 'O' then (8, c :: rest)
      else if letter == 'x' || letter == 'X' then (16, c :: rest)
      else (8, letter :: c :: rest)
  | '0' :: rest => (8, rest)
  | digits => (10, digits)

/-- The largest value of a word of 64 bits. -/
def maxWord : Nat := 0xffffffffffffffff

/-- What stands before a character, for the rule on underscores. -/
inductive Before
  | start
  | digit
  | underscore
  | other
  deriving DecidableEq

/-- Whether every underscore stands between digits. -/
def underscoresBetween (hexadecimal : Bool) : Before → List Char → Bool
  | before, [] => before != .underscore
  | before, c :: rest =>
      if c.isDigit || (hexadecimal && (digitOf? c).any (· < 16)) then
        underscoresBetween hexadecimal .digit rest
      else if c == '_' then before == .digit && underscoresBetween hexadecimal .underscore rest
      else before != .underscore && underscoresBetween hexadecimal .other rest

/-- Whether the underscores of a numeral without its sign are well placed; a base counts as a
digit. -/
def underscoresOk : List Char → Bool
  | '0' :: letter :: rest =>
      if letter == 'x' || letter == 'X' then underscoresBetween true .digit rest
      else if ['b', 'B', 'o', 'O'].contains letter then underscoresBetween false .digit rest
      else underscoresBetween false .start ('0' :: letter :: rest)
  | digits => underscoresBetween false .start digits

/-- A sign and what follows it. -/
def splitSign : List Char → Bool × List Char
  | '-' :: rest => (true, rest)
  | '+' :: rest => (false, rest)
  | text => (false, text)

/-- Read a natural number of at most 64 bits in the base that its start announces. -/
def readWord (text : List Char) : Except NumeralError Nat :=
  if text.isEmpty then .error .malformed
  else do
    let (base, digits) := splitBase text
    let value ← readDigits base maxWord true 0 digits
    if text.contains '_' && !underscoresOk text then .error .malformed else .ok value

/-- Put a sign on a magnitude, within 64 bits. -/
def signedWord (negative : Bool) (magnitude : Nat) : Except NumeralError Int :=
  if negative then
    if 0x8000000000000000 < magnitude then .error .outOfRange else .ok (-(magnitude : Int))
  else
    if 0x8000000000000000 ≤ magnitude then .error .outOfRange else .ok magnitude

/-- Read a signed number of 64 bits in the base that its start announces. -/
def readInteger (text : List Char) : Except NumeralError Int := do
  let (negative, digits) := splitSign text
  signedWord negative (← readWord digits)

/-- Read a signed number of 64 bits in a given base, without underscores. -/
def readIntegerIn (base : Nat) (text : List Char) : Except NumeralError Int := do
  let (negative, digits) := splitSign text
  if digits.isEmpty then .error .malformed
  else signedWord negative (← readDigits base maxWord false 0 digits)

/-- The parts of a decimal fraction: digits with an optional point, then an optional exponent. There
is a digit before or after the point. -/
def literal? (text : List Char) : Option Literal := do
  let (negative, text) := splitSign text
  let whole := text.takeWhile Char.isDigit
  let rest := text.dropWhile Char.isDigit
  let (fraction, rest) := match rest with
    | '.' :: rest => (some (rest.takeWhile Char.isDigit), rest.dropWhile Char.isDigit)
    | rest => (none, rest)
  if whole.isEmpty && (fraction.getD []).isEmpty then none
  else
    match rest with
    | [] => some ⟨negative, whole, fraction, none⟩
    | e :: rest =>
        let (down, digits) := splitSign rest
        if (e == 'e' || e == 'E') && !digits.isEmpty && digits.all Char.isDigit then
          let size : Int := ofDigits digits
          some ⟨negative, whole, fraction, some (if down then -size else size)⟩
        else none

/-- Read a decimal fraction with well placed underscores. -/
def readFraction (text : List Char) : Except NumeralError Float :=
  if text.contains '_' && !underscoresOk (splitSign text).2 then .error .malformed
  else
    match literal? (text.filter (· != '_')) with
    | none => .error .malformed
    | some l => if l.toFloat.isFinite then .ok l.toFloat else .error .outOfRange

end JarMetrics.Decimal
