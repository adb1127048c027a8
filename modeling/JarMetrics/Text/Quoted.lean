import JarMetrics.Text.Printable

/-!
# Quoted text

Text between double quotes with escapes for quotes, backslashes and everything that cannot be
printed.
-/

namespace JarMetrics.Text

/-- `value` in base 16 with at least `width` digits. -/
def hexPadded (width value : Nat) : String :=
  let digits := Nat.toDigits 16 value
  String.ofList (List.replicate (width - digits.length) '0' ++ digits)

/-- The escape of a control character that has a letter of its own. -/
def letterEscape? (c : Char) : Option String :=
  match c.toNat with
  | 7 => some "\\a"
  | 8 => some "\\b"
  | 9 => some "\\t"
  | 10 => some "\\n"
  | 11 => some "\\v"
  | 12 => some "\\f"
  | 13 => some "\\r"
  | _ => none

/-- The escape of a character by its number. -/
def numberEscape (c : Char) : String :=
  if c.toNat < 0x20 then "\\x" ++ hexPadded 2 c.toNat
  else if c.toNat < 0x10000 then "\\u" ++ hexPadded 4 c.toNat
  else "\\U" ++ hexPadded 8 c.toNat

/-- One character inside quotes. -/
def quotedChar (c : Char) : String :=
  if c = '"' then "\\\""
  else if c = '\\' then "\\\\"
  else if isPrintable c then c.toString
  else if c.toNat = 0x7F then "\\x7f"
  else (letterEscape? c).getD (numberEscape c)

/-- Text in double quotes. -/
def quoted (text : String) : String :=
  text.foldl (fun acc c => acc ++ quotedChar c) "\"" ++ "\""

end JarMetrics.Text
