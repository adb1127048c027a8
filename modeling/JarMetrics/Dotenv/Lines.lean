import JarMetrics.Bytes.Utf8
import JarMetrics.Dotenv.Reference
import JarMetrics.Text.Blank

/-!
# Settings as variables

One variable per line, `NAME=value` or `NAME: value`, with an optional `export` in front and an
optional comment behind. A value in quotes may run over several lines, and in double quotes `\n` and
`\r` are line breaks and a backslash takes its meaning from the character behind it. Outside single
quotes a value may refer to variables of the environment and to those above it. A line that is
neither a variable nor a comment spoils the whole file.
-/

namespace JarMetrics.Dotenv

/-! ## Lines -/

/-- The lines of a text; a line ends with a line feed, a carriage return or both. -/
def lines (cs : List Char) : List (List Char) :=
  go [] cs
where
  go (line : List Char) : List Char → List (List Char)
    | [] => [line.reverse]
    | '\r' :: '\n' :: rest => line.reverse :: go [] rest
    | '\r' :: rest => line.reverse :: go [] rest
    | '\n' :: rest => line.reverse :: go [] rest
    | c :: rest => go (c :: line) rest

/-- What stands before the last place of a character, if it has one. -/
def beforeLast? (c : Char) (cs : List Char) : Option (List Char) :=
  if cs.contains c then some ((cs.reverse.dropWhile (· != c)).drop 1).reverse else none

/-- What follows the first equals sign, or the first colon where there is none. Nothing may come
before it in vain. -/
def afterSign? (line : List Char) : Option (List Char) :=
  let sign := if line.contains '=' then '=' else ':'
  let name := line.takeWhile (· != sign)
  if name.isEmpty then none else some ((line.drop name.length).drop 1)

/-- Whether a quote that opens `value` is closed in it. The byte that decides whether the closing
quote is escaped is counted from the first character behind the opening quote that is no blank. -/
def isClosed (quote : Char) (value : List Char) : Bool :=
  match beforeLast? quote (Text.trim (String.ofList (value.drop 1))).toList with
  | none => false
  | some inside =>
      (Utf8.encode (String.ofList value))[(String.ofList inside).utf8ByteSize]? != some 0x5c

/-- The quote that a line leaves open. -/
def openQuote? (line : List Char) : Option Char := do
  let value := (Text.trim (String.ofList (← afterSign? line))).toList
  let quote ← value.head?
  if (quote == '"' || quote == '\'') && !isClosed quote value then some quote else none

/-- Whether a line closes a quote that was left open. -/
def closes (quote : Char) (line : List Char) : Bool :=
  (beforeLast? quote line).any fun inside => inside.getLast? != some '\\'

/-- The lines that say something, each with those in which its value goes on. -/
def statements? : Option (Char × List Char) → List (List Char) → Option (List (List Char))
  | none, [] => some []
  | some _, [] => none
  | none, line :: rest =>
      let line := (Text.trim (String.ofList line)).toList
      if line.isEmpty || line.head? == some '#' then statements? none rest
      else
        match openQuote? line with
        | some quote => statements? (some (quote, line)) rest
        | none => (statements? none rest).map (line :: ·)
  | some (quote, begun), line :: rest =>
      let begun := begun ++ '\n' :: line
      if closes quote line then (statements? none rest).map (begun :: ·)
      else statements? (some (quote, begun)) rest

/-! ## Variables -/

/-- Whether a character may stand in a name. -/
def isNameChar (c : Char) : Bool := c.isAlphanum || c == '_' || c == '.'

/-- White space between the parts of a line. -/
def isGap (c : Char) : Bool := c == ' ' || c == '\t' || c == '\n' || c == '\x0c' || c == '\r'

/-- Whether only white space and a comment are left. -/
def isTail (cs : List Char) : Bool :=
  match cs.dropWhile isGap with
  | [] => true
  | c :: rest => c == '#' && !rest.contains '\n'

/-- The value in quotes at the front that reaches as far as it can, with its quotes. -/
def quoted? (quote : Char) : List Char → Option (List Char)
  | c :: rest =>
      if c = quote then
        ((List.range rest.length).reverse.find? fun n =>
          (rest.drop n).head? == some quote && isTail (rest.drop (n + 1))).map fun n =>
            c :: rest.take (n + 1)
      else none
  | [] => none

/-- The value without quotes at the front, up to a comment. -/
def plain? (cs : List Char) : Option (List Char) :=
  let value := cs.takeWhile fun c => c != '#' && c != '\n'
  if isTail (cs.drop value.length) then some value else none

/-- The value at the front of a text that only a comment may follow. -/
def written? (cs : List Char) : Option (List Char) :=
  ((quoted? '\'' cs).or (quoted? '"' cs)).or (plain? cs)

/-- The value behind a name and the sign that follows it. Behind a colon as few blanks as possible
are passed over, but one at least. -/
def assigned? (cs : List Char) : Option (List Char) :=
  match cs.dropWhile isGap, cs with
  | '=' :: rest, _ => written? (rest.dropWhile isGap)
  | _, ':' :: rest =>
      (List.range (rest.takeWhile isGap).length).findSome? fun n => written? (rest.drop (n + 1))
  | _, _ => none

/-- The variable that a text without `export` in front sets, with its value as it is written. -/
def named? (cs : List Char) : Option (String × List Char) :=
  let name := cs.takeWhile isNameChar
  if name.isEmpty then none else (assigned? (cs.drop name.length)).map (String.ofList name, ·)

/-- The variable that a statement sets, with its value as it is written. -/
def assignment? (cs : List Char) : Option (String × List Char) :=
  let exported := if "export".toList.isPrefixOf cs && (cs.drop 6).head?.any isGap then
      named? ((cs.drop 6).dropWhile isGap)
    else none
  exported.or (named? cs)

/-- What stands between quotes, if the value does. -/
def between? (quote : Char) (value : List Char) : Option (List Char) :=
  if 2 ≤ value.length && value.head? == some quote && value.getLast? == some quote then
    some ((value.drop 1).dropLast)
  else none

/-- The value that is meant by one that is written. -/
def meant (lookup : String → Option String) (value : List Char) : String :=
  let value := (Text.trim (String.ofList value)).toList
  String.ofList <|
    match between? '\'' value, between? '"' value with
    | some inside, _ => inside
    | none, some inside =>
        let inside := replaceEscape 'r' '\r' (replaceEscape 'n' '\n' inside)
        expand false lookup (dropBackslashes inside)
    | none, none => expand false lookup value

/-- The variables of a text. References are looked up in the environment first, then among the
variables above. -/
def parse? (environment : String → Option String) (text : String) :
    Option (List (String × String)) := do
  (← statements? none (lines text.toList)).foldlM (fun found statement => do
    let (name, value) ← assignment? statement
    return found ++ [(name, meant (fun n => (environment n).or (valueOf found n)) value)]) []

/-! ## Files -/

/-- Pairs of bytes as 16-bit units; a byte that is left over counts as a unit that means nothing. -/
def units (bigEndian : Bool) : List UInt8 → List Nat
  | a :: b :: rest =>
      (if bigEndian then a.toNat * 256 + b.toNat else b.toNat * 256 + a.toNat) ::
        units bigEndian rest
  | [_] => [Utf16.replacement.toNat]
  | [] => []

/-- The text of a file, whose first bytes may tell how it is encoded. -/
def fileText : List UInt8 → String
  | 0xef :: 0xbb :: 0xbf :: rest => Utf8.decode rest
  | 0xff :: 0xfe :: rest => String.ofList (Utf16.decode (units false rest))
  | 0xfe :: 0xff :: rest => String.ofList (Utf16.decode (units true rest))
  | content => Utf8.decode content

end JarMetrics.Dotenv
