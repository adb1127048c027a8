/-!
# Lists in one argument

Several texts in one argument with commas between them. A text may stand in quotes; in quotes, a
quote is written twice, and commas and line breaks stand for themselves. Only the first line that is
not empty counts.
-/

namespace JarMetrics.CommandLine

/-- A place in a text: the line and the byte in it, both counted from 1. -/
structure Position where
  line : Nat
  column : Nat
  deriving Repr, DecidableEq

/-- Why a list cannot be read. `start` is the line on which it starts. -/
inductive ListError
  /-- A quote in a text that is not in quotes. -/
  | bareQuote (start : Nat) (place : Position)
  /-- A quote too many or too few. -/
  | strayQuote (start : Nat) (place : Position)
  | nothing
  deriving Repr, DecidableEq

namespace ListError

/-- The wording of a place. -/
def placeText (start : Nat) (place : Position) : String :=
  (if start != place.line then "record on line " ++ toString start ++ "; " else "") ++
    "parse error on line " ++ toString place.line ++ ", column " ++ toString place.column ++ ": "

/-- The wording of an error. -/
def message : ListError → String
  | .bareQuote start place => placeText start place ++ "bare \" in non-quoted field"
  | .strayQuote start place => placeText start place ++ "extraneous or missing \" in quoted-field"
  | .nothing => "EOF"

end ListError

namespace ListValue

/-- The place behind a character; a line break at the very end does not open a line. -/
def next (place : Position) (c : Char) (rest : List Char) : Position :=
  if c == '\n' && !rest.isEmpty then ⟨place.line + 1, 1⟩
  else ⟨place.line, place.column + c.utf8Size⟩

/-- How a reader stands. -/
inductive Mode
  /-- At the start of an item. -/
  | fresh
  /-- In an item without quotes. -/
  | bare
  /-- In quotes. -/
  | quoted
  /-- Behind a quote that ends the quotes or is the first of two, and the place of that quote. -/
  | behind (place : Position)

/-- Read the items of a line that starts at line `start`. The characters of the item so far and the
items before it are in reverse. -/
def items (start : Nat) (mode : Mode) (place : Position) (item : List Char) (done : List String) :
    List Char → Except ListError (List String)
  | [] =>
      match mode with
      | .quoted => .error (.strayQuote start place)
      | _ => .ok (String.ofList item.reverse :: done).reverse
  | c :: rest =>
      let finished := String.ofList item.reverse :: done
      let after := next place c rest
      match mode with
      | .quoted =>
          if c == '"' then items start (.behind place) after item done rest
          else items start .quoted after (c :: item) done rest
      | .behind quote =>
          if c == '"' then items start .quoted after ('"' :: item) done rest
          else if c == ',' then items start .fresh after [] finished rest
          else if c == '\n' then .ok finished.reverse
          else .error (.strayQuote start quote)
      | .fresh =>
          if c == '"' then items start .quoted after [] done rest
          else if c == ',' then items start .fresh after [] finished rest
          else if c == '\n' then .ok finished.reverse
          else items start .bare after [c] done rest
      | .bare =>
          if c == '"' then .error (.bareQuote start place)
          else if c == ',' then items start .fresh after [] finished rest
          else if c == '\n' then .ok finished.reverse
          else items start .bare after (c :: item) done rest

/-- The text with single characters for line breaks, and without a carriage return at its end. -/
def breaks : List Char → List Char
  | '\r' :: '\n' :: rest => '\n' :: breaks rest
  | ['\r'] => []
  | c :: rest => c :: breaks rest
  | [] => []

/-- Read the first line that is not empty. -/
def firstLine (line : Nat) : List Char → Except ListError (List String)
  | [] => .error .nothing
  | '\n' :: rest => firstLine (line + 1) rest
  | cs => items line .fresh ⟨line, 1⟩ [] [] cs

/-- The texts of an argument; an empty argument has none. -/
def read (text : String) : Except ListError (List String) :=
  if text.isEmpty then .ok [] else firstLine 1 (breaks text.toList)

end ListValue

end JarMetrics.CommandLine
