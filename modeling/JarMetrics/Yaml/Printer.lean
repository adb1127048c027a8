import JarMetrics.Json.Basic
import JarMetrics.Yaml.Character
import JarMetrics.Yaml.Scalar

/-!
# YAML text

Values in block layout: members and items each on a line of their own. Texts are written plainly
where they read back as themselves, over several lines where they hold line breaks, and in quotes
otherwise.
-/

namespace JarMetrics.Yaml

/-! ## What a text contains -/

/-- Whether a character may stand in a text without quotes. -/
def isPrintable (c : Char) : Bool :=
  let n := c.toNat
  n == 0x0A || (0x20 ≤ n && n ≤ 0x7E) || (0xA0 ≤ n && n < 0xFFFE && n != 0xFEFF)

/-- Whether a text starts with a character that has a meaning at the start of a scalar. -/
def startsWithIndicator : List Char → Bool
  | [] => false
  | c :: rest =>
      let last := rest.head?.all isBlank
      "#,[]\x7b\x7d&*!|>'\"%@`".toList.contains c || ((c == '?' || c == ':' || c == '-') && last) ||
        (c :: rest).take 3 == "---".toList || (c :: rest).take 3 == "...".toList

/-- Whether a colon before a blank, or a sharp after one, stands after the first character. -/
def holdsIndicator : List Char → Bool
  | a :: b :: rest =>
      (b == ':' && rest.head?.all isBlank) ||
        (b == '#' && (isBlank a || isBreak a)) || holdsIndicator (b :: rest)
  | _ => false

/-- Whether the characters `a` and `b` with given properties stand next to each other. -/
def adjacent (first second : Char → Bool) : List Char → Bool
  | a :: b :: rest => (first a && second b) || adjacent first second (b :: rest)
  | _ => false

/-- How a text is written. -/
inductive Quoting
  | plain
  | single
  | double
  /-- Over several lines, as it is. -/
  | literal
  deriving Repr, DecidableEq

/-- Words that older readers take for truth values. -/
def oldBooleans : List String :=
  ["y", "Y", "yes", "Yes", "YES", "on", "On", "ON", "n", "N", "no", "No", "NO", "off", "Off", "OFF"]

/-- Whether a text has the form of groups of digits between colons, as in `12:30`: at least two
groups, all but the first of at most two digits below sixty, and possibly a fraction. -/
def isSexagesimal (text : List Char) : Bool :=
  let (_, text) := Decimal.splitSign text
  let (groups, fraction) := text.span (· != '.')
  match (String.ofList groups).splitOn ":" with
  | first :: second :: rest =>
      (match first.toList with
        | [] => false
        | c :: more => c.isDigit && more.all fun d => d.isDigit || d == '_') &&
      (second :: rest).all (fun group =>
        match group.toList with
        | [a] => a.isDigit
        | [a, b] => '0' ≤ a && a ≤ '5' && b.isDigit
        | _ => false) &&
      (fraction.drop 1).all fun c => c.isDigit || c == '_'
  | _ => false

/-- Whether a text without quotes is read back as itself. -/
def readsBack (text : String) : Bool :=
  (resolve text).isText && !isSexagesimal text.toList && !oldBooleans.contains text

/-- How a text is written. -/
def quoting (text : String) : Quoting :=
  let cs := text.toList
  let space := fun c : Char => c == ' '
  let breakThenSpace := adjacent isBreak space cs
  let spaceThenBreak := adjacent space isBreak cs
  let tabs := cs.contains '\t'
  let special := cs.any fun c => c != '\t' && !isPrintable c
  let trailing := cs.getLast?.any space
  if cs.contains '\n' then
    if trailing || spaceThenBreak || special then .double else .literal
  else if !readsBack text then .double
  else
    let edges := cs.head?.any (fun c => space c || isBreak c) || trailing || cs.getLast?.any isBreak
    let single := breakThenSpace || spaceThenBreak || tabs || special
    if single then .double
    else if edges || cs.any isBreak || startsWithIndicator cs || holdsIndicator cs then .single
    else .plain

/-! ## Quoted and literal texts -/

/-- A number in upper-case hexadecimal digits. -/
def hexadecimal (width value : Nat) : String :=
  Decimal.zeroPad width (String.ofList ((Nat.toDigits 16 value).map Char.toUpper))

/-- The escape of a character in double quotes. -/
def escape (c : Char) : String :=
  let n := c.toNat
  "\\" ++
    (if n = 0 then "0" else if n = 7 then "a" else if n = 8 then "b" else if n = 9 then "t"
    else if n = 10 then "n" else if n = 11 then "v" else if n = 12 then "f" else if n = 13 then "r"
    else if n = 0x1B then "e" else if n = 0x22 then "\"" else if n = 0x5C then "\\"
    else if n = 0x85 then "N" else if n = 0xA0 then "_" else if n = 0x2028 then "L"
    else if n = 0x2029 then "P" else if n ≤ 0xFF then "x" ++ hexadecimal 2 n
    else if n ≤ 0xFFFF then "u" ++ hexadecimal 4 n else "U" ++ hexadecimal 8 n)

/-- A text in double quotes. A text that starts with a byte order mark is escaped throughout. -/
def doubleQuoted (text : String) : String :=
  let all := text.toList.head?.any (·.toNat == 0xFEFF)
  "\"" ++ String.join (text.toList.map fun c =>
    if all || !isPrintable c || isBreak c || c == '"' || c == '\\' then escape c
    else c.toString) ++ "\""

/-- Blanks. -/
def blanks (n : Nat) : String := String.ofList (List.replicate n ' ')

/-- Characters between single quotes; what follows a line break is indented. -/
def singleQuotedTail (indent : Nat) (afterBreak : Bool) : List Char → String
  | [] => "'"
  | c :: rest =>
      if isBreak c then c.toString ++ singleQuotedTail indent true rest
      else
        (if afterBreak then blanks indent else "") ++ (if c == '\'' then "''" else c.toString) ++
          singleQuotedTail indent false rest

/-- A text in single quotes. -/
def singleQuoted (indent : Nat) (text : String) : String :=
  "'" ++ singleQuotedTail indent false text.toList

/-- Lines of a literal text; each but an empty one is indented. -/
def literalLines (indent : Nat) (afterBreak : Bool) : List Char → String
  | [] => ""
  | c :: rest =>
      if isBreak c then c.toString ++ literalLines indent true rest
      else (if afterBreak then blanks indent else "") ++ c.toString ++
        literalLines indent false rest

/-- How a literal text ends: `-` for no line break, `+` for several. -/
def chomping (text : List Char) : String :=
  match text.reverse with
  | last :: before =>
      if !isBreak last then "-"
      else if before.head?.all isBreak then "+"
      else ""
  | [] => "-"

/-- A text over several lines below a head. A line break at its start is the end of the head's line,
and a digit tells the indentation where the text itself starts with a blank or a break. The line
break at the end is left to what follows. -/
def literalText (step indent : Nat) (text : String) : String :=
  let cs := text.toList
  let hint := if cs.head?.any (fun c => c == ' ' || isBreak c) then toString step else ""
  let body := if cs.head?.any isBreak then literalLines indent false cs
    else "\n" ++ literalLines indent true cs
  "|" ++ hint ++ chomping cs ++ body

/-- Numbers are written positionally from 1e-4 up to 1e6, elsewhere with an exponent of two
digits. -/
def numberStyle : Decimal.Style :=
  { least := -4, limit := 6, exponentWidth := 2, notANumber := ".nan", infinity := ".inf",
    negativeInfinity := "-.inf" }

/-- A value that is no filled array or object. `indent` is the indentation of lines that belong to
it. -/
def scalarText (step indent : Nat) : Json → String
  | .null => "null"
  | .bool value => if value then "true" else "false"
  | .int value => toString value
  | .float value => Decimal.render numberStyle value
  | .string text =>
      match quoting text with
      | .plain => text
      | .single => singleQuoted indent text
      | .double => doubleQuoted text
      | .literal => literalText step indent text
  | .array _ => "[]"
  | .object _ => "\x7b\x7d"

/-! ## Layout -/

/-- The next indentation that is a multiple of the step. -/
def deeper (step indent : Nat) : Nat := step * ((indent + step) / step)

/-- The text with a line break at its end. -/
def closed (text : String) : String :=
  if text.toList.getLast?.any isBreak then text else text ++ "\n"

mutual

/-- Members of an object, each from the start of a line at `indent`; the first one follows
`lead`. -/
def membersText (step indent : Nat) (lead : String) : List (String × Json) → String
  | [] => ""
  | (key, value) :: rest =>
      lead ++ key ++ ":" ++ valueText step indent value ++
        membersText step indent (blanks indent) rest

/-- The value of a member at `indent`, up to the end of its last line. -/
def valueText (step indent : Nat) : Json → String
  | .array (item :: rest) => "\n" ++ itemsText step (deeper step indent) (item :: rest)
  | .object (member :: rest) =>
      "\n" ++ membersText step (deeper step indent) (blanks (deeper step indent)) (member :: rest)
  | value => " " ++ closed (scalarText step (deeper step indent) value)

/-- Items of an array, each from the start of a line at `indent`. -/
def itemsText (step indent : Nat) : List Json → String
  | [] => ""
  | item :: rest => blanks indent ++ itemText step indent item ++ itemsText step indent rest

/-- An item of an array at `indent`, up to the end of its last line. -/
def itemText (step indent : Nat) : Json → String
  | .object (member :: rest) => membersText step (indent + 2) "- " (member :: rest)
  | .array (item :: rest) => "-\n" ++ itemsText step (indent + 2) (item :: rest)
  | value => "- " ++ closed (scalarText step (indent + 2) value)

end

/-- The document of an object, with `step` blanks per level. -/
def render (step : Nat) : Json → String
  | .object (member :: rest) => membersText step 0 "" (member :: rest)
  | .array (item :: rest) => itemsText step 0 (item :: rest)
  | value => closed (scalarText step step value)

end JarMetrics.Yaml
