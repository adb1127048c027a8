import JarMetrics.Bytes.Utf8
import JarMetrics.Yaml.Text

/-!
# Tokens of YAML

The signs that a text is made of. Indentation is turned into signs as well: a sequence or a table of
lines has a start and an end. Tags, anchors and directives are read here.
-/

namespace JarMetrics.Yaml

/-- How a scalar is written. -/
inductive Style
  | plain
  | quoted
  deriving Repr, DecidableEq

/-- A sign of a text. -/
inductive Token
  | streamEnd
  | version (major minor : Nat)
  | tagHandle (handle start : String)
  | documentStart
  | documentEnd
  | blockSequence
  | blockTable
  | blockEnd
  | openList
  | closeList
  | openTable
  | closeTable
  /-- The dash before an item. -/
  | item
  /-- The comma between items in brackets. -/
  | comma
  | key
  | value
  | alias (name : String)
  | anchor (name : String)
  | tag (handle suffix : String)
  | scalar (style : Style) (text : String)
  deriving Repr, DecidableEq

/-! ## Names -/

/-- The name of an anchor, which ends at white space or at a mark. -/
def readName? (p : Place) : Option (String × Place) :=
  let name := p.rest.takeWhile isNameChar
  let p := p.advance name.length
  if !name.isEmpty && (isGap p.head || p.head.any "?:,]\x7d%@`".toList.contains) then
    some (String.ofList name, p)
  else none

/-! ## Tags -/

/-- Whether a character may stand in a tag as it is. -/
def isTagChar (c : Char) : Bool := isNameChar c || ";/?:@&=+$.!~*'()".toList.contains c

/-- How many bytes a character takes, as its first byte tells. -/
def byteCount? (first : UInt8) : Option Nat :=
  if first < 0x80 then some 1
  else if 0xC0 ≤ first && first < 0xE0 then some 2
  else if 0xE0 ≤ first && first < 0xF0 then some 3
  else if 0xF0 ≤ first && first < 0xF8 then some 4
  else none

/-- Bytes that are written by number, so many of them and each with a percent sign. -/
def escapedBytes? : Nat → List Char → Option (List UInt8)
  | 0, _ => some []
  | n + 1, '%' :: a :: b :: rest => do
      let high ← Decimal.digitOf? a
      let low ← Decimal.digitOf? b
      if high ≥ 16 || low ≥ 16 then none
      return UInt8.ofNat (high * 16 + low) :: (← escapedBytes? n rest)
  | _ + 1, _ => none

/-- A character whose bytes are written by number, and how many there are. -/
def escapedChar? (cs : List Char) : Option (List Char × Nat) := do
  let first ← (← escapedBytes? 1 cs).head?
  let count ← byteCount? first
  let bytes ← escapedBytes? count cs
  if (bytes.drop 1).all Utf8.isContinuation then some ((Utf8.decode bytes).toList, count) else none

/-- The characters of a tag, in reverse. Every step takes one, so `fuel` may be their number. -/
def readTagChars : Nat → List Char → Place → Option (List Char × Place)
  | 0, acc, p => some (acc, p)
  | fuel + 1, acc, p =>
      match p.head with
      | some '%' => do
          let (cs, count) ← escapedChar? p.rest
          readTagChars fuel (cs.reverse ++ acc) (p.advance (3 * count))
      | some c => if isTagChar c then readTagChars fuel (c :: acc) (p.advance 1) else some (acc, p)
      | none => some (acc, p)

/-- The rest of a tag behind what is known of it. -/
def readTagRest (known : List Char) (p : Place) : Option (String × Place) := do
  let (reversed, p) ← readTagChars p.rest.length [] p
  if known.isEmpty && reversed.isEmpty then none
  return (String.ofList (known.drop 1 ++ reversed.reverse), p)

/-- The start of a tag: an exclamation mark, perhaps a name, and perhaps another mark. -/
def readTagHandle? (p : Place) : Option (List Char × Place) :=
  if p.head != some '!' then none
  else
    let name := (p.rest.drop 1).takeWhile isNameChar
    let q := p.advance (1 + name.length)
    if q.head == some '!' then some ('!' :: name ++ ['!'], q.advance 1) else some ('!' :: name, q)

/-- Read a tag: in angle brackets as a whole, behind a handle, or behind an exclamation mark
alone. -/
def readTag? (p : Place) : Option (Token × Place) := do
  let (token, p) ←
    if p.ahead 1 == some '<' then do
      let (suffix, p) ← readTagRest [] (p.advance 2)
      if p.head != some '>' then none
      pure (Token.tag "" suffix, p.advance 1)
    else do
      let (handle, p) ← readTagHandle? p
      if 1 < handle.length && handle.getLast? == some '!' then
        let (suffix, p) ← readTagRest [] p
        pure (Token.tag (String.ofList handle) suffix, p)
      else
        let (suffix, p) ← readTagRest handle p
        pure (if suffix.isEmpty then Token.tag "" (String.ofList handle)
          else Token.tag "!" suffix, p)
  if isGap p.head then some (token, p) else none

/-! ## Directives -/

/-- A number of at most two digits in the version of a document. -/
def readVersionPart? (p : Place) : Option (Nat × Place) :=
  let digits := p.rest.takeWhile Char.isDigit
  if digits.isEmpty || 2 < digits.length then none
  else some (Decimal.ofDigits digits, p.advance digits.length)

/-- What a directive says, behind its name. -/
def readDirectiveBody? (name : List Char) (p : Place) : Option (Token × Place) := do
  let p := p.skipWhile isBlank
  if name == "YAML".toList then
    let (major, p) ← readVersionPart? p
    if p.head != some '.' then none
    let (minor, p) ← readVersionPart? (p.advance 1)
    return (.version major minor, p)
  else if name == "TAG".toList then
    let (handle, p) ← readTagHandle? p
    if handle != ['!'] && (handle.length < 2 || handle.getLast? != some '!') then none
    if !p.head.any isBlank then none
    let (start, p) ← readTagRest [] (p.skipWhile isBlank)
    if !isGap p.head then none
    return (.tagHandle (String.ofList handle) start, p)
  else none

/-- Read a directive, which takes a line. -/
def readDirective? (p : Place) : Option (Token × Place) := do
  let p := p.advance 1
  let name := p.rest.takeWhile isNameChar
  let p := p.advance name.length
  if name.isEmpty || !isGap p.head then none
  let (token, p) ← readDirectiveBody? name p
  let p := p.skipWhile isBlank
  let p := if p.head == some '#' then p.lineEnd else p
  if !isLineEnd p.head then none
  return (token, if p.head.isSome then p.nextLine else p)

end JarMetrics.Yaml
