/-!
# Characters of YAML

White space and names in YAML texts.
-/

namespace JarMetrics.Yaml

/-- Whether a character ends a line. -/
def isBreak (c : Char) : Bool :=
  c == '\n' || c == '\r' || c == '\x85' || c == '\u2028' || c == '\u2029'

/-- A space or a tab. -/
def isBlank (c : Char) : Bool := c == ' ' || c == '\t'

/-- Whether a character that may be absent is white space. -/
def isGap (c : Option Char) : Bool := c.all fun c => isBlank c || isBreak c

/-- Whether a character that may be absent ends the line. -/
def isLineEnd (c : Option Char) : Bool := c.all isBreak

/-- Whether a character may stand in a name. -/
def isNameChar (c : Char) : Bool := c.isAlphanum || c == '_' || c == '-'

/-- What a line break is read as: only the separators of lines and of paragraphs are kept. -/
def breakText (c : Char) : Char := if c == '\u2028' || c == '\u2029' then c else '\n'

end JarMetrics.Yaml
