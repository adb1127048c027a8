import JarMetrics.Decimal.Numeral
import JarMetrics.Yaml.Place

/-!
# Texts of YAML

The ways to write a text: plain, in quotes of either kind, and as a block of lines below a mark.
-/

namespace JarMetrics.Yaml

/-! ## Plain texts -/

/-- Whether a character ends a plain text: a colon before white space, and in brackets the marks
that have a meaning there. -/
def endsPlain (flow : Bool) (c : Char) (next : Option Char) : Bool :=
  (c == ':' && isGap next) || (flow && [',', '?', '[', ']', '\x7b', '\x7d'].contains c)

/-- The characters up to white space or a mark that ends a plain text. -/
def plainWord (flow : Bool) : List Char → List Char
  | [] => []
  | c :: rest =>
      if isGap (some c) || endsPlain flow c rest.head? then [] else c :: plainWord flow rest

/-- A text with the place behind it, and whether a line has ended before that place. -/
structure TextRead where
  text : List Char
  place : Place
  broken : Bool := false

/-- Read a plain text that goes on behind `text` and a gap. Outside brackets it has to stay right of
the column `least`. Every step takes a character, so `fuel` may be their number. -/
def readPlain (flow : Bool) (least : Nat) : Nat → List Char → Gap → Place → Option TextRead
  | 0, text, g, p => some ⟨text, p, g.broken⟩
  | fuel + 1, text, g, p =>
      if p.atDocumentMark || p.head == some '#' then some ⟨text, p, g.broken⟩
      else do
        let word := plainWord flow p.rest
        let (text, g) := if word.isEmpty then (text, g) else (text ++ g.joined ++ word, {})
        let p := p.advance word.length
        if p.head.isNone || !isGap p.head then return ⟨text, p, g.broken⟩
        let (g, p) ← Gap.read least p.rest.length {} p
        if !flow && p.column < least then return ⟨text, p, g.broken⟩
        readPlain flow least fuel text g p

/-! ## Quoted texts -/

/-- The character of an escape by letter. -/
def escape? (c : Char) : Option Char :=
  match c with
  | '0' => some (Char.ofNat 0)
  | 'a' => some (Char.ofNat 7)
  | 'b' => some (Char.ofNat 8)
  | 't' | '\t' => some '\t'
  | 'n' => some '\n'
  | 'v' => some (Char.ofNat 11)
  | 'f' => some (Char.ofNat 12)
  | 'r' => some '\r'
  | 'e' => some (Char.ofNat 0x1B)
  | ' ' => some ' '
  | '"' => some '"'
  | '\'' => some '\''
  | '\\' => some '\\'
  | 'N' => some (Char.ofNat 0x85)
  | '_' => some (Char.ofNat 0xA0)
  | 'L' => some (Char.ofNat 0x2028)
  | 'P' => some (Char.ofNat 0x2029)
  | _ => none

/-- How many digits follow the letter of an escape by number. -/
def escapeWidth? (c : Char) : Option Nat :=
  if c == 'x' then some 2 else if c == 'u' then some 4 else if c == 'U' then some 8 else none

/-- The character of an escape by number. -/
def numbered? (digits : List Char) : Option Char := do
  let code ← (Decimal.readDigits 16 0xFFFFFFFF false 0 digits).toOption
  if code < 0xD800 || (0xDFFF < code && code ≤ 0x10FFFF) then some (Char.ofNat code) else none

/-- Where the characters of a quoted text stop for a moment. -/
inductive QuotedStop
  | quote
  | gap
  /-- Behind a line break that a backslash escapes. -/
  | escapedBreak

/-- The characters of a quoted text, in reverse, up to white space or the closing quote. -/
def readQuotedPart (quote : Char) :
    Nat → List Char → Place → Option (List Char × QuotedStop × Place)
  | 0, _, _ => none
  | fuel + 1, acc, p =>
      match p.rest with
      | [] => some (acc, .gap, p)
      | c :: rest =>
          if isGap (some c) then some (acc, .gap, p)
          else if c == quote then
            if quote == '\'' && rest.head? == some '\'' then
              readQuotedPart quote fuel ('\'' :: acc) (p.advance 2)
            else some (acc, .quote, p)
          else if quote == '"' && c == '\\' then
            match rest with
            | [] => none
            | d :: digits =>
                if isBreak d then some (acc, .escapedBreak, (p.advance 1).nextLine)
                else
                  match escapeWidth? d with
                  | some width => do
                      if digits.length < width then none
                      let e ← numbered? (digits.take width)
                      readQuotedPart quote fuel (e :: acc) (p.advance (2 + width))
                  | none => do readQuotedPart quote fuel ((← escape? d) :: acc) (p.advance 2)
          else readQuotedPart quote fuel (c :: acc) (p.advance 1)

/-- Read a text up to its closing quote, which goes on behind `text`. -/
def readQuoted (quote : Char) : Nat → List Char → Place → Option TextRead
  | 0, _, _ => none
  | fuel + 1, text, p => do
      if p.atDocumentMark || p.head.isNone then none
      let (reversed, stop, p) ← readQuotedPart quote (p.rest.length + 1) [] p
      let text := text ++ reversed.reverse
      let go := fun (broken : Bool) => do
        let (g, p) ← Gap.read 0 p.rest.length { broken } p
        readQuoted quote fuel (text ++ g.joined) p
      match stop with
      | .quote => return ⟨text, p.advance 1, false⟩
      | .gap => go false
      | .escapedBreak => if p.head == some quote then return ⟨text, p.advance 1, false⟩ else go true

/-! ## Blocks -/

/-- What becomes of the line breaks at the end of a block. -/
inductive Chomping
  | strip
  | clip
  | keep
  deriving Repr, DecidableEq

/-- The marks behind the mark of a block: how much it is indented, if that is said, and what becomes
of the line breaks at its end. -/
def readBlockHead (p : Place) : Option (Nat × Chomping × Place) :=
  let chomping := fun (c : Option Char) => if c == some '+' then some Chomping.keep
    else if c == some '-' then some Chomping.strip else none
  let digit := fun (c : Option Char) => c.bind fun c =>
    if c.isDigit then some (c.toNat - '0'.toNat) else none
  match chomping p.head, digit p.head with
  | some how, _ =>
      match digit (p.ahead 1) with
      | some 0 => none
      | some n => some (n, how, p.advance 2)
      | none => some (0, how, p.advance 1)
  | none, some 0 => none
  | none, some n =>
      match chomping (p.ahead 1) with
      | some how => some (n, how, p.advance 2)
      | none => some (n, .clip, p.advance 1)
  | none, none => some (0, .clip, p)

/-- Read indentation and empty lines: up to the column `indent`, or as far as spaces go where it is
0. The greatest column of any line is counted in `deepest`. -/
def readBlockBreaks (indent : Nat) :
    Nat → Nat → List Char → Place → Option (Nat × List Char × Place)
  | 0, deepest, breaks, p => some (deepest, breaks, p)
  | fuel + 1, deepest, breaks, p =>
      let spaces := (p.rest.takeWhile (· == ' ')).length
      let p := p.advance (if indent == 0 then spaces else min spaces (indent - p.column))
      let deepest := max deepest p.column
      match p.head with
      | none => some (deepest, breaks, p)
      | some c =>
          if (indent == 0 || p.column < indent) && c == '\t' then none
          else if isBreak c then readBlockBreaks indent fuel deepest
            (breaks ++ [breakText c]) p.nextLine
          else some (deepest, breaks, p)

/-- A block that is being read. -/
structure Block where
  text : List Char := []
  /-- The line break behind the last line. -/
  pending : List Char := []
  /-- The empty lines behind it. -/
  empty : List Char := []
  /-- Whether the last line began with a blank. -/
  blankLine : Bool := false

/-- Add a line. Where lines are folded, one that follows another without a blank at its start is
joined to it by a space, or by the empty lines between them. -/
def Block.add (folded : Bool) (b : Block) (line broken : List Char) : Block :=
  let blank := line.head?.any isBlank
  let joint :=
    if folded && !b.blankLine && !blank && b.pending.head? == some '\n' then
      (if b.empty.isEmpty then [' '] else [])
    else b.pending
  ⟨b.text ++ joint ++ b.empty ++ line, broken, [], blank⟩

/-- Read the lines of a block that stand at the column `indent`. -/
def readBlockLines (folded : Bool) (indent : Nat) : Nat → Block → Place → Option (Block × Place)
  | 0, b, p => some (b, p)
  | fuel + 1, b, p =>
      if p.column != indent || p.head.isNone then some (b, p)
      else do
        let line := p.rest.takeWhile fun c => !isBreak c
        let p := p.advance line.length
        let b := b.add folded line (p.head.toList.map breakText)
        let p := if p.head.isSome then p.nextLine else p
        let (_, empty, p) ← readBlockBreaks indent (p.rest.length + 1) 0 [] p
        readBlockLines folded indent fuel { b with empty } p

/-- Read a block behind its mark, within lines that are indented by `outer`. -/
def readBlock (folded : Bool) (outer : Int) (p : Place) : Option TextRead := do
  let (increment, chomping, p) ← readBlockHead p
  let p := p.skipWhile isBlank
  let p := if p.head == some '#' then p.lineEnd else p
  if !isLineEnd p.head then none
  let p := if p.head.isSome then p.nextLine else p
  let announced := if increment = 0 then 0 else (max outer 0).toNat + increment
  let (deepest, empty, p) ← readBlockBreaks announced (p.rest.length + 1) 0 [] p
  let indent := if announced = 0 then max (max deepest (outer + 1).toNat) 1 else announced
  let (b, p) ← readBlockLines folded indent (p.rest.length + 1) { empty } p
  let tail := match chomping with
    | .strip => []
    | .clip => b.pending
    | .keep => b.pending ++ b.empty
  return ⟨b.text ++ tail, p, true⟩

end JarMetrics.Yaml
