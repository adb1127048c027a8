import JarMetrics.Decimal.Printer

/-!
# Points in time

A `Moment` is a date and a time of day, to the second, as some clock shows them. It is written in
three ways: for machines with a `T` and a zone, for people with a blank, and as a stamp inside file
names.

`Moment.ofRfc3339?` and `Moment.isTimestamp` read moments. Both check that the day exists in its
month.
-/

namespace JarMetrics

/-- A date and a time of day. -/
structure Moment where
  year : Nat
  month : Nat
  day : Nat
  hour : Nat
  minute : Nat
  second : Nat
  deriving Repr, DecidableEq

namespace Moment

/-! ## Writing -/

/-- Two digits. -/
def two (n : Nat) : String := Decimal.zeroPad 2 (toString n)

/-- Four digits. -/
def four (n : Nat) : String := Decimal.zeroPad 4 (toString n)

/-- The date with dashes. -/
def date (m : Moment) : String := four m.year ++ "-" ++ two m.month ++ "-" ++ two m.day

/-- The time of day with colons. -/
def time (m : Moment) : String := two m.hour ++ ":" ++ two m.minute ++ ":" ++ two m.second

/-- The moment for people. -/
def display (m : Moment) : String := m.date ++ " " ++ m.time

/-- The moment for machines, on the clock of Greenwich. -/
def rfc3339 (m : Moment) : String := m.date ++ "T" ++ m.time ++ "Z"

/-- The moment in a file name. -/
def stamp (m : Moment) : String :=
  four m.year ++ two m.month ++ two m.day ++ "_" ++ two m.hour ++ two m.minute ++ two m.second

/-! ## Counting days -/

/-- Whether a year has a 29th of February. -/
def isLeap (year : Nat) : Bool := year % 4 == 0 && (year % 100 != 0 || year % 400 == 0)

/-- The number of days of a month. -/
def daysIn (year month : Nat) : Nat :=
  if month = 2 then if isLeap year then 29 else 28
  else if [4, 6, 9, 11].contains month then 30
  else 31

/-- The moment `seconds` after the start of 1970 on the clock of Greenwich. The count of days runs
in eras of 400 years that begin on the first of March. -/
def ofUnix (seconds : Nat) : Moment :=
  let days := seconds / 86400 + 719468
  let era := days / 146097
  let dayOfEra := days % 146097
  let yearOfEra := (dayOfEra - dayOfEra / 1460 + dayOfEra / 36524 - dayOfEra / 146096) / 365
  let dayOfYear := dayOfEra - (365 * yearOfEra + yearOfEra / 4 - yearOfEra / 100)
  let shifted := (5 * dayOfYear + 2) / 153
  let month := if shifted < 10 then shifted + 3 else shifted - 9
  let rest := seconds % 86400
  { year := yearOfEra + era * 400 + (if month ≤ 2 then 1 else 0)
    month
    day := dayOfYear - (153 * shifted + 2) / 5 + 1
    hour := rest / 3600
    minute := rest / 60 % 60
    second := rest % 60 }

/-- Whether all parts are within their limits. -/
def isValid (m : Moment) : Bool :=
  1 ≤ m.month && m.month ≤ 12 && 1 ≤ m.day && m.day ≤ daysIn m.year m.month &&
    m.hour < 24 && m.minute < 60 && m.second < 60

/-! ## Reading -/

/-- The value of a digit. -/
def digit? (c : Char) : Option Nat := if c.isDigit then some (c.toNat - '0'.toNat) else none

/-- A number of two digits, or of one where `short` allows it. -/
def number? (short : Bool) : List Char → Option (Nat × List Char)
  | [] => none
  | a :: rest => do
      let high ← digit? a
      match rest.head?.bind digit? with
      | some low => some (10 * high + low, rest.drop 1)
      | none => if short then some (high, rest) else none

/-- A number of four digits. -/
def year? (text : List Char) : Option (Nat × List Char) := do
  let (century, rest) ← number? false text
  let (year, rest) ← number? false rest
  return (100 * century + year, rest)

/-- The text after a given character. -/
def after? (c : Char) : List Char → Option (List Char)
  | [] => none
  | d :: rest => if c = d then some rest else none

/-- The text without a fraction of a second in front. -/
def skipFraction : List Char → List Char
  | point :: rest =>
      if (point == '.' || point == ',') && (rest.head?.any Char.isDigit) then
        rest.dropWhile Char.isDigit
      else point :: rest
  | [] => []

/-- A date in front of a text, with its rest. -/
def date? (short : Bool) (text : List Char) : Option (Moment × List Char) := do
  let (year, rest) ← year? text
  let (month, rest) ← number? short (← after? '-' rest)
  let (day, rest) ← number? short (← after? '-' rest)
  return (⟨year, month, day, 0, 0, 0⟩, rest)

/-- A time of day in front of a text, put into a moment. Hours may have one digit in any case. -/
def time? (short : Bool) (m : Moment) (text : List Char) : Option (Moment × List Char) := do
  let (hour, rest) ← number? true text
  let (minute, rest) ← number? short (← after? ':' rest)
  let (second, rest) ← number? short (← after? ':' rest)
  return ({ m with hour, minute, second }, skipFraction rest)

/-- Whether a text is a zone: `Z`, or a signed offset of at most 24 hours and 60 minutes. -/
def isZone : List Char → Bool
  | ['Z'] => true
  | [sign, a, b, ':', c, d] =>
      (sign == '+' || sign == '-') &&
        ((number? false [a, b]).any fun (hours, _) => hours ≤ 24) &&
        ((number? false [c, d]).any fun (minutes, _) => minutes ≤ 60)
  | _ => false

/-- Read a date, a letter between, a time and a zone. -/
def dateTimeZone? (short : Bool) (letter : Char) (text : List Char) : Option Moment := do
  let (m, rest) ← date? short text
  let (m, rest) ← time? short m (← after? letter rest)
  if m.isValid && isZone rest then some m else none

/-- Read a moment as machines write it, as its own clock shows it. -/
def ofRfc3339? (text : String) : Option Moment := dateTimeZone? false 'T' text.toList

/-- Read a date, blanks and a time without a zone. -/
def dateTime? (text : List Char) : Option Moment := do
  let (m, rest) ← date? true text
  let (m, rest) ← time? true m ((← after? ' ' rest).dropWhile (· == ' '))
  if m.isValid && rest.isEmpty then some m else none

/-- Read a date alone. -/
def dateOnly? (text : List Char) : Option Moment := do
  let (m, rest) ← date? true text
  if m.isValid && rest.isEmpty then some m else none

/-- Whether a text is a date, or a date with a time, in the short forms with one digit too. -/
def isTimestamp (text : List Char) : Bool :=
  (dateTimeZone? true 'T' text).isSome || (dateTimeZone? true 't' text).isSome ||
    (dateTime? text).isSome || (dateOnly? text).isSome

end Moment

end JarMetrics
