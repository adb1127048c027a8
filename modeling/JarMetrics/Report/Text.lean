import JarMetrics.Report.Basic
import JarMetrics.Text.Case

/-!
# Reports as text

Boxed sections with labelled figures, one box per archive, then a summary when there are several
archives, and the warnings and errors.
-/

namespace JarMetrics.TextReport

/-! ## Elements -/

/-- Blanks. -/
def blanks (n : Nat) : String := String.ofList (List.replicate n ' ')

/-- A character `n` times. -/
def repeated (n : Nat) (c : Char) : String := String.ofList (List.replicate n c)

/-- The width of rules. -/
def width : Nat := 60

/-- The indentation within sections. -/
def padding : Nat := 2

/-- A title between double rules. -/
def boxHeader (title : String) : String :=
  let rule := repeated width '═'
  rule ++ "\n" ++ blanks padding ++ title ++ "\n" ++ rule ++ "\n"

/-- A title in upper case between single rules. -/
def boxSection (title : String) : String :=
  let rule := repeated width '─'
  rule ++ "\n" ++ blanks padding ++ Text.upper title ++ "\n" ++ rule ++ "\n"

/-- The end of a box. -/
def boxFooter : String := repeated width '═' ++ "\n"

/-- A title in upper case, underlined by one dash per byte. -/
def sectionHeader (title : String) : String :=
  Text.upper title ++ "\n" ++ repeated title.utf8ByteSize '-' ++ "\n"

/-- The line between sections. -/
def separator : String := "\n"

/-- A labelled value. -/
def label (indent : Nat) (name value : String) : String :=
  blanks indent ++ name ++ ": " ++ value ++ "\n"

/-- A number with two places. -/
def decimal (x : Float) : String := Decimal.fixed 2 x

/-- Column heads and a rule below them. -/
def tableHeader (columns : List String) : String :=
  let header := "  ".intercalate columns
  header ++ "\n" ++ repeated header.utf8ByteSize '-' ++ "\n"

/-- One marked line per item under a title; nothing when there are no items. -/
def listSection (title marker : String) (items : List String) : String :=
  if items.isEmpty then ""
  else
    sectionHeader title ++
      String.join (items.map fun item => blanks padding ++ marker ++ " " ++ item ++ "\n") ++
      separator

/-- The warnings. -/
def warnings (items : List String) : String := listSection "WARNINGS" "!" items

/-- The errors. -/
def errors (items : List String) : String := listSection "ERRORS" "x" items

/-! ## The report -/

/-- A text with blanks behind it up to a width. -/
def padRight (n : Nat) (text : String) : String := text ++ blanks (n - text.length)

/-- A text with blanks before it up to a width. -/
def padLeft (n : Nat) (text : String) : String := blanks (n - text.length) ++ text

/-- A labelled figure. -/
def figure (name : String) (value : Int) : String := label padding name (toString value)

/-- A labelled average. -/
def average (name : String) (value : Float) : String := label padding name (decimal value)

/-- The line of a class. -/
def classLine (c : ClassReport) : String :=
  let name := if c.isInterface then c.name ++ " (interface)" else c.name
  let cells := [(5, c.depth), (9, c.overridden), (6, c.fieldCount), (7, c.methodCount),
    (5, c.assignments), (5, c.branches), (5, c.conditions)].map fun (n, value) =>
      padLeft n (toString value)
  blanks padding ++ "  ".intercalate
    (padRight 40 name :: cells ++ [padLeft 7 (decimal c.magnitude)]) ++ "\n"

/-- The table of classes; nothing when there are none. -/
def classTable (classes : List ClassReport) : String :=
  if classes.isEmpty then ""
  else
    boxSection "Class Details" ++ blanks padding ++
      tableHeader [padRight 40 "Class", "Depth", "Overrides", "Fields", "Methods",
        "    A", "    B", "    C", "  |ABC|"] ++
      String.join (classes.map classLine) ++ "\n"

/-- The box of an archive. -/
def archive (a : ArchiveReport) : String :=
  String.join [
    "\n", boxHeader "JAR BYTECODE ANALYSIS REPORT", "\n",
    label padding "File" a.fileName,
    figure "Total classes" a.totalClasses,
    figure "Total interfaces" a.totalInterfaces, "\n",
    boxSection "Inheritance Metrics",
    figure "Maximum inheritance depth" a.maxDepth,
    average "Average inheritance depth" a.averageDepth, "\n",
    boxSection "ABC Metrics",
    figure "Assignments (A)" a.assignments,
    figure "Branches (B)" a.branches,
    figure "Conditions/Calls (C)" a.conditions,
    average "ABC Magnitude" a.magnitude, "\n",
    boxSection "Class Structure Metrics",
    average "Average overridden methods per class" a.averageOverridden,
    average "Average fields per class" a.averageFields, "\n",
    classTable a.classes, boxFooter, "\n"]

/-- The sums over several archives. -/
def summary (s : Summary) : String :=
  String.join [
    sectionHeader "SUMMARY",
    figure "Archives analyzed" s.archives,
    figure "Total classes" s.totalClasses,
    figure "Total interfaces" s.totalInterfaces,
    figure "Maximum inheritance depth" s.maxDepth,
    figure "Skipped entries" s.skippedEntries, separator]

/-- The whole report. -/
def render (r : Report) : String :=
  String.join (r.archives.map archive) ++
    (if 1 < r.archives.length then summary r.summary else "") ++
    warnings r.warnings ++ errors r.errors

end JarMetrics.TextReport
