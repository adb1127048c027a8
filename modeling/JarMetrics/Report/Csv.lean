import JarMetrics.Bytes.Utf8
import JarMetrics.Report.Basic
import JarMetrics.Text.Blank

/-!
# Reports as tables

Comma-separated values: a head, then one row per archive followed by one row per listed class. A
cell that does not apply to its row is empty. Tables are made of bytes, since names of files need
not be texts.
-/

namespace JarMetrics.Csv

/-! ## Cells and rows -/

/-- What a cell holds. -/
abbrev Cell := List UInt8

/-- The byte of a quote. -/
def quote : UInt8 := 0x22

/-- The byte of a comma. -/
def comma : UInt8 := 0x2C

/-- The byte that ends a line. -/
def lineFeed : UInt8 := 0x0A

/-- The byte that may stand before the end of a line. -/
def carriageReturn : UInt8 := 0x0D

/-- Whether a byte has a meaning of its own in a table. -/
def isSpecial (b : UInt8) : Bool := b == lineFeed || b == carriageReturn || b == quote || b == comma

/-- Whether a cell starts with white space. -/
def startsBlank : Cell → Bool
  | [] => false
  | first :: rest => Text.isBlank (Utf8.front first rest).1

/-- Whether a cell is written in quotes: it holds a comma, a quote or a line break, starts with
white space, or could be taken for the end of data. -/
def needsQuotes (cell : Cell) : Bool :=
  cell == [0x5C, 0x2E] || cell.any isSpecial || startsBlank cell

/-- A byte inside quotes. -/
def doubled (b : UInt8) : List UInt8 := if b = quote then [quote, quote] else [b]

/-- A cell; quotes inside a quoted one are doubled. -/
def cell (text : Cell) : List UInt8 :=
  if needsQuotes text then quote :: text.flatMap doubled ++ [quote] else text

/-- Cells between commas. -/
def joined : List Cell → List UInt8
  | [] => []
  | [last] => cell last
  | first :: rest => cell first ++ comma :: joined rest

/-- A row with its line break. -/
def row (cells : List Cell) : List UInt8 := joined cells ++ [lineFeed]

/-- A table. -/
def render (rows : List (List Cell)) : List UInt8 := rows.flatMap row

/-! ## The report -/

/-- A cell with a text. -/
def text (content : String) : Cell := Utf8.encode content

/-- A cell with a whole number. -/
def number (n : Int) : Cell := text (toString n)

/-- A cell with a number with four places. -/
def decimal (x : Float) : Cell := text (Decimal.fixed 4 x)

/-- The names of the columns. -/
def header : List Cell :=
  ["record", "jar_file", "class", "is_interface", "inheritance_depth", "average_depth",
    "overridden_methods", "fields", "methods", "assignments", "branches",
    "conditions", "abc_magnitude", "total_classes", "total_interfaces"].map text

/-- The row of an archive with a name. -/
def archiveRow (fileName : Cell) (a : ArchiveReport) : List Cell :=
  [text "archive", fileName, [], [], number a.maxDepth, decimal a.averageDepth,
    decimal a.averageOverridden, decimal a.averageFields, [],
    number a.assignments, number a.branches, number a.conditions, decimal a.magnitude,
    number a.totalClasses, number a.totalInterfaces]

/-- The row of a class with a name in an archive. -/
def classRow (fileName name : Cell) (c : ClassReport) : List Cell :=
  [text "class", fileName, name, text (if c.isInterface then "true" else "false"),
    number c.depth, [], number c.overridden, number c.fieldCount,
    number c.methodCount, number c.assignments, number c.branches, number c.conditions,
    decimal c.magnitude, [], []]

/-- The rows of an archive; `spell` says with which bytes a name is written. -/
def archiveRows (spell : String → Cell) (a : ArchiveReport) : List (List Cell) :=
  archiveRow (spell a.fileName) a :: a.classes.map fun c =>
    classRow (spell a.fileName) (spell c.name) c

/-- All rows of a report. -/
def rows (spell : String → Cell) (r : Report) : List (List Cell) :=
  header :: r.archives.flatMap (archiveRows spell)

/-- The whole report, in which names are texts. -/
def ofReport (r : Report) : String := Utf8.decode (render (rows text r))

end JarMetrics.Csv
