import JarMetrics.Yaml.Character

/-!
# Places in a YAML text

A text is read from one place to the next. A place knows its line and column, since indentation
tells what belongs together.
-/

namespace JarMetrics.Yaml

/-! ## Places -/

/-- A place in a text, and what follows it. -/
structure Place where
  rest : List Char
  index : Nat := 0
  line : Nat := 0
  column : Nat := 0
  deriving Repr, DecidableEq

namespace Place

/-- The character at a place. -/
def head (p : Place) : Option Char := p.rest.head?

/-- A character further on. -/
def ahead (p : Place) (n : Nat) : Option Char := p.rest[n]?

/-- The place so many characters further on the same line. -/
def advance (n : Nat) (p : Place) : Place :=
  { p with rest := p.rest.drop n, index := p.index + n, column := p.column + n }

/-- The start of the next line, at a line break. -/
def nextLine (p : Place) : Place :=
  match p.rest with
  | '\r' :: '\n' :: rest => ⟨rest, p.index + 2, p.line + 1, 0⟩
  | _ :: rest => ⟨rest, p.index + 1, p.line + 1, 0⟩
  | [] => p

/-- Pass over the characters of a kind. -/
def skipWhile (is : Char → Bool) (p : Place) : Place := p.advance (p.rest.takeWhile is).length

/-- The end of the line. -/
def lineEnd (p : Place) : Place := p.skipWhile fun c => !isBreak c

/-- Whether a mark of three characters stands at the start of a line, as between documents. -/
def atMark (mark : Char) (p : Place) : Bool :=
  p.column == 0 && p.rest.take 3 == [mark, mark, mark] && isGap (p.ahead 3)

/-- Whether a document ends or begins here. -/
def atDocumentMark (p : Place) : Bool := p.atMark '-' || p.atMark '.'

end Place

/-! ## White space within a text -/

/-- White space between two parts of a text. -/
structure Gap where
  /-- The blanks before any line break. -/
  blanks : List Char := []
  /-- Whether the line has ended. -/
  broken : Bool := false
  /-- The first line break. -/
  first : List Char := []
  /-- The line breaks behind the first. -/
  more : List Char := []
  deriving Repr, DecidableEq

namespace Gap

/-- What a gap is read as: a line break alone is a space, and of several the first does not
count. -/
def joined (g : Gap) : List Char :=
  if !g.broken then g.blanks
  else if g.first.head? == some '\n' then (if g.more.isEmpty then [' '] else g.more)
  else g.first ++ g.more

/-- Read the white space at a place. On a line of its own a tab left of the column `least` is
refused. Every step takes a character, so `fuel` may be their number. -/
def read (least : Nat) : Nat → Gap → Place → Option (Gap × Place)
  | 0, g, p => some (g, p)
  | fuel + 1, g, p =>
      match p.head with
      | none => some (g, p)
      | some c =>
          if isBlank c then
            if g.broken && p.column < least && c == '\t' then none
            else read least fuel (if g.broken then g else { g with blanks := g.blanks ++ [c] })
              (p.advance 1)
          else if isBreak c then
            let g := if g.broken then { g with more := g.more ++ [breakText c] }
              else { g with blanks := [], broken := true, first := [breakText c] }
            read least fuel g p.nextLine
          else some (g, p)

end Gap

end JarMetrics.Yaml
