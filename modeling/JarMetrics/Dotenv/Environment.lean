import JarMetrics.Bytes.Utf8
import JarMetrics.Dotenv.Reference
import JarMetrics.Text.Blank

/-!
# Variables for the environment

A file of variables that a run adds to its environment: statements `NAME=value` or `NAME: value`,
one behind the other. A value in quotes ends with its quote, any other with its line or with a
comment behind a blank. References are looked up among the variables above only. A file that cannot
be read through has no variables.
-/

namespace JarMetrics.Dotenv

/-- White space within a line. -/
def isInlineBlank (c : Char) : Bool :=
  c == '\t' || c == '\x0b' || c == '\x0c' || c == '\r' || c == ' ' || c == '\x85' || c == '\xa0'

/-- Drop white space within a line at both ends. -/
def trimInline (cs : List Char) : List Char :=
  ((cs.dropWhile isInlineBlank).reverse.dropWhile isInlineBlank).reverse

/-- Where the next statement begins; each comment takes a character, so `fuel` may be their
number. -/
def statementStart : Nat → List Char → List Char
  | 0, cs => cs
  | fuel + 1, cs =>
      match cs.dropWhile Text.isBlank with
      | '#' :: rest => statementStart fuel (rest.dropWhile (· != '\n'))
      | cs => cs

/-- Whether a byte may stand in a name. Bytes count as the first 256 characters do, so that of a
character outside ASCII every byte has to be a letter, a digit or a blank there. -/
def isNameByte (b : UInt8) : Bool :=
  let n := b.toNat
  (Char.ofNat n).isAlphanum || n == 0x5f || n == 0x2e || isInlineBlank (Char.ofNat n) ||
    [0xaa, 0xb2, 0xb3, 0xb5, 0xb9, 0xba, 0xbc, 0xbd, 0xbe].contains n ||
    (0xc0 ≤ n && n != 0xd7 && n != 0xf7)

/-- The name at the front and what follows the sign behind it. Without a sign there is no name, and
all of the text is left. -/
def name? (cs : List Char) : Option (List Char × List Char) :=
  let name := cs.takeWhile fun c => c != '=' && c != ':'
  if !name.all fun c => (Utf8.encode c.toString).all isNameByte then none
  else
    match cs.drop name.length with
    | [] => some ([], cs)
    | _ :: rest => some ((Text.trimEnd (String.ofList name)).toList, rest)

/-- A statement without `export` in front. -/
def withoutExport (cs : List Char) : List Char :=
  if "export".toList.isPrefixOf cs && (cs.drop 6).head?.any isInlineBlank then
    (cs.drop 6).dropWhile isInlineBlank
  else cs

/-- A line up to the last sign of a comment that stands behind a blank. -/
def withoutComment (line : List Char) : List Char :=
  match (List.range line.length).reverse.find? fun n =>
      (line.drop n).head? == some '#' && 0 < n && (line.drop (n - 1)).head?.any isInlineBlank with
  | some n => line.take n
  | none => line

/-- What stands before the first quote that no backslash escapes, and what follows that quote. -/
def untilQuote? (quote : Char) (before : List Char) : List Char → Option (List Char × List Char)
  | [] => none
  | c :: rest =>
      if c = quote && before.head? != some '\\' then some (before.reverse, rest)
      else untilQuote? quote (c :: before) rest

/-- A value in double quotes with its escapes resolved: first those of line breaks, then all
others. -/
def resolved (cs : List Char) : List Char :=
  dropBackslashes (breaks cs)
where
  breaks : List Char → List Char
    | '\\' :: c :: rest =>
        if c = 'n' then '\n' :: breaks rest
        else if c = 'r' then '\r' :: breaks rest
        else if c = '\n' then '\\' :: breaks (c :: rest)
        else '\\' :: c :: breaks rest
    | c :: rest => c :: breaks rest
    | [] => []

/-- The value at the front and what follows it. -/
def value? (lookup : String → Option String) (cs : List Char) : Option (List Char × List Char) :=
  match cs with
  | '"' :: rest => (untilQuote? '"' [] rest).map fun (inside, left) =>
      (expand true lookup (resolved (stripped '"' inside)), left)
  | '\'' :: rest =>
      (untilQuote? '\'' [] rest).map fun (inside, left) => (stripped '\'' inside, left)
  | _ =>
      let line := cs.takeWhile fun c => c != '\n' && c != '\r'
      some (expand true lookup (trimInline (withoutComment line)), cs.drop line.length)
where
  /-- Quotes at the ends of a value in quotes do not belong to it. -/
  stripped (quote : Char) (inside : List Char) : List Char :=
    ((inside.dropWhile (· == quote)).reverse.dropWhile (· == quote)).reverse

/-- Read statements; each takes a character, so `fuel` may be their number. -/
def readStatements : Nat → List (String × String) → List Char → Option (List (String × String))
  | 0, found, _ => some found
  | fuel + 1, found, cs =>
      match statementStart cs.length cs with
      | [] => some found
      | start => do
          let (name, rest) ← name? (withoutExport start)
          let (value, rest) ← value? (valueOf found) (rest.dropWhile isInlineBlank)
          readStatements fuel (found ++ [(String.ofList name, String.ofList value)]) rest

/-- A text in which a carriage return and a line feed together are one line feed. -/
def joinedBreaks : List Char → List Char
  | '\r' :: '\n' :: rest => '\n' :: joinedBreaks rest
  | c :: rest => c :: joinedBreaks rest
  | [] => []

/-- The variables that a file adds to the environment. -/
def environment (content : List UInt8) : List (String × String) :=
  let cs := joinedBreaks (Utf8.decode content).toList
  ((readStatements (cs.length + 1) [] cs).getD []).filter fun (name, _) => !name.isEmpty

end JarMetrics.Dotenv
