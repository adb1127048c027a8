import JarMetrics.Text.Blank
import JarMetrics.Text.Quoted

/-!
# Log lines

A line has a level, the program's name, a message and pairs of keys and values. Values that could be
misread are quoted; a value of several lines is set below its key.
-/

namespace JarMetrics.Log

/-- How important a line is. -/
inductive Level
  | debug
  | info
  | warn
  | error
  deriving Repr, DecidableEq

/-- The four letters of a level. -/
def Level.text : Level → String
  | .debug => "DEBU"
  | .info => "INFO"
  | .warn => "WARN"
  | .error => "ERRO"

/-- One line of the log. -/
structure Line where
  level : Level
  message : String
  values : List (String × String)
  deriving Repr, DecidableEq

/-- Whether a character keeps a value from standing without quotes. -/
def forcesQuotes (c : Char) : Bool :=
  if c.toNat < 0x80 then c.toNat ≤ 0x20 || c == '=' || c == '"'
  else c.toNat == 0xFFFD || Text.isBlank c || !Text.isPrintable c

/-- A character of a value. -/
def escapeChar (quotes : Bool) (c : Char) : String :=
  if quotes ∧ c = '"' then "\\\""
  else if Text.isPrintable c then c.toString
  else (Text.letterEscape? c).getD (Text.numberEscape c)

/-- A value with everything escaped that cannot be printed, and quotes if asked. -/
def escape (quotes : Bool) (value : String) : String :=
  value.foldl (fun acc c => acc ++ escapeChar quotes c) ""

/-- The lines of a value of several lines; a last line without text is left out. -/
def indented (more : Bool) : List String → String
  | [] => ""
  | [last] =>
      if last.isEmpty then "" else "  │ " ++ escape false last ++ (if more then "\n" else "")
  | line :: rest => "  │ " ++ escape false line ++ "\n" ++ indented more rest

/-- A key and its value, with `more` to follow or not. -/
def pair (more : Bool) (key value : String) : String :=
  if value.isEmpty then s!" {key}=\"\""
  else if value.any (· == '\n') then
    "\n  " ++ key ++ "=\n" ++ indented more (value.splitOn "\n")
  else if value.any forcesQuotes then s!" {key}=\"" ++ escape true value ++ "\""
  else s!" {key}={value}"

/-- The pairs of a line. -/
def pairs : List (String × String) → String
  | [] => ""
  | (key, value) :: rest => pair (!rest.isEmpty) key value ++ pairs rest

/-- A line as it is written. -/
def Line.text (line : Line) : String :=
  s!"{line.level.text} jarscn: {line.message}" ++ pairs line.values ++ "\n"

/-- What is written of a log; `verbose` also shows the lines for debugging. -/
def render (verbose : Bool) (lines : List Line) : String :=
  String.join ((lines.filter fun line => verbose || line.level != .debug).map Line.text)

end JarMetrics.Log
