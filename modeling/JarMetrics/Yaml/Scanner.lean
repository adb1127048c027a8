import JarMetrics.Yaml.Token

/-!
# From text to tokens

A text is read token by token. Whether a scalar is a key is known only when a colon follows it, so
the place where a key may have begun is kept, and the signs for it are put there later. Where a text
cannot be read any further, the tokens before are kept: a document counts when all that it needs was
read.
-/

namespace JarMetrics.Yaml

/-- A place where a key may have begun. -/
structure PossibleKey where
  /-- Whether nothing but a key may stand there. -/
  required : Bool
  /-- How many tokens come before it. -/
  tokens : Nat
  place : Place

/-- How far a text has been read. -/
structure Scanner where
  place : Place
  /-- The column of the innermost block, and those of the blocks around it. -/
  indent : Int := -1
  outer : List Int := []
  /-- How many brackets are open. -/
  depth : Nat := 0
  /-- Where a key may have begun: within the innermost brackets, and within those around them. -/
  possible : Option PossibleKey := none
  around : List (Option PossibleKey) := []
  /-- Whether a key may begin here. -/
  keyAllowed : Bool := true
  tokens : Array Token := #[]

namespace Scanner

/-- Add a token. -/
def push (s : Scanner) (t : Token) : Scanner := { s with tokens := s.tokens.push t }

/-- Put tokens behind the first `n`. -/
def insert (s : Scanner) (n : Nat) (ts : List Token) : Scanner :=
  { s with tokens := s.tokens.take n ++ ts.toArray ++ s.tokens.drop n }

/-! ## Possible keys -/

/-- Whether a key that may have begun can still be one: it has to end on its line, and soon. None if
it can not and has to. -/
def stillPossible (s : Scanner) (k : PossibleKey) : Option Bool :=
  if k.place.line < s.place.line || k.place.index + 1024 < s.place.index then
    (if k.required then none else some false)
  else some true

/-- No key has begun here; none if one has to. -/
def dropKey (s : Scanner) : Option Scanner :=
  if s.possible.any (·.required) then none else some { s with possible := none }

/-- A key may begin here, if keys are allowed. -/
def saveKey (s : Scanner) : Option Scanner :=
  if !s.keyAllowed then some s
  else s.dropKey.map fun s =>
    { s with possible := some ⟨s.depth == 0 && s.indent == s.place.column, s.tokens.size, s.place⟩ }

/-! ## Blocks -/

/-- End the blocks that are indented further than a column. -/
def unroll (s : Scanner) (column : Int) : Scanner :=
  if s.depth > 0 then s
  else
    let ended := (s.indent :: s.outer).takeWhile (· > column)
    let left := (s.indent :: s.outer).drop ended.length
    { s with
      indent := left.headD (-1)
      outer := left.drop 1
      tokens := s.tokens ++ (ended.map fun _ => Token.blockEnd).toArray }

/-- Begin a block at a column that is indented further, with its sign behind the first `n`
tokens. -/
def roll (s : Scanner) (column : Nat) (n : Nat) (t : Token) : Scanner :=
  if s.depth > 0 || column ≤ s.indent then s
  else { s.insert n [t] with indent := column, outer := s.indent :: s.outer }

/-! ## White space -/

/-- The place behind a comment and the comments on the lines below. -/
def afterComments : Nat → Place → Place
  | 0, p => p
  | fuel + 1, p =>
      let p := p.lineEnd
      match Gap.read 0 p.rest.length {} p with
      | some (_, q) => if q.head == some '#' then afterComments fuel q else p
      | none => p

/-- Go on to the next token. A tab counts as white space where no key may begin. -/
def toToken : Nat → Scanner → Scanner
  | 0, s => s
  | fuel + 1, s =>
      let p :=
        if s.place.column == 0 && s.place.head == some '\ufeff' then s.place.advance 1 else s.place
      let p := p.skipWhile fun c => c == ' ' || ((s.depth > 0 || !s.keyAllowed) && c == '\t')
      let p := if p.head == some '#' then afterComments p.rest.length p else p
      if p.head.any isBreak then
        toToken fuel { s with place := p.nextLine, keyAllowed := s.keyAllowed || s.depth == 0 }
      else { s with place := p }

/-- Pass over a comment that follows a token on its line. -/
def pastComment (s : Scanner) : Scanner :=
  let p := s.place.skipWhile isBlank
  if p.head == some '#' then { s with place := p.lineEnd } else s

/-! ## Tokens -/

/-- The end of the text. -/
def fetchEnd (s : Scanner) : Option Scanner := do
  let s ← (s.unroll (-1)).dropKey
  return { s with keyAllowed := false }.push .streamEnd

/-- A token at the start of a line that ends all blocks. -/
def fetchMark (s : Scanner) (t : Token) (p : Place) : Option Scanner := do
  let s ← (s.unroll (-1)).dropKey
  return { s with keyAllowed := false, place := p }.push t

/-- An opening bracket. -/
def fetchOpen (s : Scanner) (t : Token) : Option Scanner := do
  let s ← s.saveKey
  return { s with
    depth := s.depth + 1
    around := s.possible :: s.around
    possible := none
    keyAllowed := true
    place := s.place.advance 1 }.push t

/-- A closing bracket. -/
def fetchClose (s : Scanner) (t : Token) : Option Scanner := do
  let s ← s.dropKey
  let s := if s.depth > 0 then
      { s with depth := s.depth - 1, possible := s.around.head?.join, around := s.around.drop 1 }
    else s
  return { s with keyAllowed := false, place := s.place.advance 1 }.push t

/-- A comma. -/
def fetchComma (s : Scanner) : Option Scanner := do
  let s ← s.dropKey
  return { s with keyAllowed := true, place := s.place.advance 1 }.push .comma

/-- The dash before an item. -/
def fetchItem (s : Scanner) : Option Scanner := do
  if s.depth == 0 && !s.keyAllowed then none
  let s ← (s.roll s.place.column s.tokens.size .blockSequence).dropKey
  return { s with keyAllowed := true, place := s.place.advance 1 }.push .item

/-- The question mark before a key. -/
def fetchKey (s : Scanner) : Option Scanner := do
  if s.depth == 0 && !s.keyAllowed then none
  let s ← (s.roll s.place.column s.tokens.size .blockTable).dropKey
  return { s with keyAllowed := s.depth == 0, place := s.place.advance 1 }.push .key

/-- The colon before a value. If a key may have begun, this is its end. -/
def fetchValue (s : Scanner) : Option Scanner := do
  let valid ← match s.possible with
    | some k => s.stillPossible k
    | none => some false
  let s ← match s.possible, valid with
    | some k, true =>
        let s := (s.insert k.tokens [.key]).roll k.place.column k.tokens .blockTable
        some { s with possible := none, keyAllowed := false }
    | _, _ =>
        if s.depth == 0 && !s.keyAllowed then none
        else
          let s := s.roll s.place.column s.tokens.size .blockTable
          some { s with possible := none, keyAllowed := s.depth == 0 }
  return { s with place := s.place.advance 1 }.push .value

/-- A token before or in place of a node, with which a key may begin. -/
def fetchLeaf (s : Scanner) (read : Place → Option (Token × Place)) : Option Scanner := do
  let s ← s.saveKey
  let (t, p) ← read s.place
  return { s with keyAllowed := false, place := p }.push t

/-- A block of lines. -/
def fetchBlock (s : Scanner) (folded : Bool) : Option Scanner := do
  let s ← s.dropKey
  let r ← readBlock folded s.indent (s.place.advance 1)
  return { s with keyAllowed := true, place := r.place }.push
    (.scalar .quoted (String.ofList r.text))

/-- A text in quotes. -/
def readQuotedToken (quote : Char) (p : Place) : Option (Token × Place) := do
  let r ← readQuoted quote (p.rest.length + 1) [] (p.advance 1)
  return (.scalar .quoted (String.ofList r.text), r.place)

/-- A plain text. If lines have ended behind it, a key may follow. -/
def fetchPlain (s : Scanner) : Option Scanner := do
  let s ← s.saveKey
  let r ← readPlain (s.depth > 0) (s.indent + 1).toNat (s.place.rest.length + 1) [] {} s.place
  let s := { s with keyAllowed := r.broken, place := r.place }.push
    (.scalar .plain (String.ofList r.text))
  return if r.broken then s else s.pastComment

/-- Whether a plain text may begin with a character. -/
def startsPlain (depth : Nat) (c : Char) (next : Option Char) : Bool :=
  !("-?:,[]\x7b\x7d#&*!|>'\"%@`".toList.contains c || isBlank c) ||
    (c == '-' && !next.any isBlank) || (depth == 0 && (c == '?' || c == ':') && !isGap next)

/-- The token that begins with a character. -/
def fetchAt (s : Scanner) (c : Char) : Option Scanner :=
  let p := s.place
  let next := p.ahead 1
  let named := fun (token : String → Token) (p : Place) =>
    (readName? (p.advance 1)).map fun (name, p) => (token name, p)
  if p.column == 0 && c == '%' then (readDirective? p).bind fun (t, p) => s.fetchMark t p
  else if p.atMark '-' then s.fetchMark .documentStart (p.advance 3)
  else if p.atMark '.' then s.fetchMark .documentEnd (p.advance 3)
  else if c == '[' then (s.fetchOpen .openList).map pastComment
  else if c == '\x7b' then (s.fetchOpen .openTable).map pastComment
  else if c == ']' then (s.fetchClose .closeList).map pastComment
  else if c == '\x7d' then (s.fetchClose .closeTable).map pastComment
  else if c == ',' then s.fetchComma.map pastComment
  else if c == '-' && isGap next then s.fetchItem
  else if c == '?' && (s.depth > 0 || isGap next) then s.fetchKey.map pastComment
  else if c == ':' && (s.depth > 0 || isGap next) then s.fetchValue.map pastComment
  else if c == '*' then (s.fetchLeaf (named .alias)).map pastComment
  else if c == '&' then (s.fetchLeaf (named .anchor)).map pastComment
  else if c == '!' then (s.fetchLeaf readTag?).map pastComment
  else if c == '|' && s.depth == 0 then s.fetchBlock false
  else if c == '>' && s.depth == 0 then s.fetchBlock true
  else if c == '\'' || c == '"' then (s.fetchLeaf (readQuotedToken c)).map pastComment
  else if startsPlain s.depth c next then s.fetchPlain
  else none

/-- Read the next token, and the signs of blocks that end before it. -/
def fetch (s : Scanner) : Option Scanner :=
  let s := s.toToken (s.place.rest.length + 1)
  let s := s.unroll s.place.column
  match s.place.head with
  | none => s.fetchEnd
  | some c => s.fetchAt c

/-- Read on to the end of the text, or as far as it can be read, and tell which. Every token but the
last takes a character, so `fuel` may be their number. -/
def run : Nat → Scanner → Scanner × Bool
  | 0, s => (s, false)
  | fuel + 1, s =>
      match s.fetch with
      | none => (s, false)
      | some s => if s.tokens.back? == some .streamEnd then (s, true) else run fuel s

/-- The tokens that can be told: of a text that cannot be read to its end the last two are not
known, nor what follows a place where a key may have begun. -/
def known (s : Scanner) (complete : Bool) : List Token :=
  if complete then s.tokens.toList
  else
    let begun := (s.possible :: s.around).filterMap fun k =>
      k.bind fun k => if s.stillPossible k == some false then none else some k.tokens
    s.tokens.toList.take (begun.foldl min (s.tokens.size - 2))

end Scanner

/-- The tokens of a text. -/
def tokensOf (text : List Char) : List Token :=
  let (s, complete) := Scanner.run (text.length + 2) { place := { rest := text } }
  s.known complete

end JarMetrics.Yaml
