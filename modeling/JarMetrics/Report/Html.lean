import JarMetrics.Moment
import JarMetrics.Report.Basic
import JarMetrics.Text.Case

/-!
# Reports as pages

A page is a list of pieces: markup, which is written as it stands, and text, in which every
character that could be taken for markup is escaped.
-/

namespace JarMetrics.Html

/-- A part of a page. -/
inductive Piece
  | markup (code : String)
  | text (content : String)
  deriving Repr, DecidableEq

/-- How a character of a text is written. -/
def escapeChar (c : Char) : String :=
  if c = '&' then "&amp;"
  else if c = '\'' then "&#39;"
  else if c = '<' then "&lt;"
  else if c = '>' then "&gt;"
  else if c = '"' then "&#34;"
  else c.toString

/-- A text without any character that could be taken for markup. -/
def escape (text : String) : String := String.join (text.toList.map escapeChar)

/-- A piece as it is written. -/
def Piece.render : Piece → String
  | .markup code => code
  | .text content => escape content

/-- Pieces as they are written. -/
def render (pieces : List Piece) : String := String.join (pieces.map Piece.render)

/-! ## Elements -/

/-- The document up to its title. -/
def documentStart : String := "\n".intercalate [
  "<!DOCTYPE html>",
  "<html lang=\"en\">",
  "<head>",
  "    <meta charset=\"UTF-8\">",
  "    <meta name=\"viewport\" content=\"width=device-width, initial-scale=1.0\">",
  "    <title>"]

/-- The document from the end of its title to the heading of the page. -/
def documentStyle : String := "\n".intercalate [
  "</title>",
  "    <style>",
  "        * \x7b margin: 0; padding: 0; box-sizing: border-box; \x7d",
  "        body \x7b",
  "            font-family: 'JetBrains Mono', Menlo, Consolas, monospace;",
  "            font-size: 14px;",
  "            line-height: 1.5;",
  "            color: #1f2933;",
  "            background: #eef1f4;",
  "        \x7d",
  "        .container \x7b max-width: 1280px; margin: 0 auto; padding: 24px; \x7d",
  "        .header \x7b",
  "            background: #1f2933;",
  "            color: #f5f7fa;",
  "            border-radius: 6px;",
  "            padding: 24px 28px;",
  "            margin-bottom: 16px;",
  "        \x7d",
  "        .header h1 \x7b font-size: 22px; letter-spacing: 0.04em; margin-bottom: 6px; \x7d",
  "        .header p \x7b color: #9aa5b1; font-size: 12px; \x7d",
  "        .content \x7b",
  "            background: #ffffff;",
  "            border: 1px solid #d9e2ec;",
  "            border-radius: 6px;",
  "            padding: 24px 28px;",
  "        \x7d",
  "        .section-header \x7b",
  "            font-size: 17px;",
  "            color: #243b53;",
  "            margin: 28px 0 12px;",
  "            padding-bottom: 6px;",
  "            border-bottom: 1px solid #d9e2ec;",
  "        \x7d",
  "        .section-header:first-child \x7b margin-top: 0; \x7d",
  "        .metric-grid \x7b",
  "            display: grid;",
  "            grid-template-columns: repeat(auto-fill, minmax(170px, 1fr));",
  "            gap: 12px;",
  "            margin: 12px 0 20px;",
  "        \x7d",
  "        .metric-card \x7b",
  "            padding: 14px 16px;",
  "            border: 1px solid #d9e2ec;",
  "            border-top: 3px solid #d97706;",
  "            border-radius: 4px;",
  "        \x7d",
  "        .metric-value \x7b font-size: 24px; font-weight: 700; color: #b45309; \x7d",
  "        .metric-label \x7b font-size: 11px; text-transform: uppercase; color: #627d98; \x7d",
  "        .table \x7b width: 100%; border-collapse: collapse; margin: 8px 0 20px; font-size: 12px; \x7d",
  "        .table th \x7b",
  "            text-align: left;",
  "            padding: 8px 10px;",
  "            background: #f0f4f8;",
  "            color: #334e68;",
  "            border-bottom: 2px solid #bcccdc;",
  "        \x7d",
  "        .table td \x7b padding: 6px 10px; border-bottom: 1px solid #f0f4f8; white-space: nowrap; \x7d",
  "        .table tbody tr:nth-child(even) \x7b background: #fafbfc; \x7d",
  "        .status-badge \x7b",
  "            display: inline-block;",
  "            padding: 2px 8px;",
  "            border-radius: 3px;",
  "            font-size: 11px;",
  "            font-weight: 600;",
  "        \x7d",
  "        .status-success \x7b background: #e3f9e5; color: #1f7a33; \x7d",
  "        .status-warning \x7b background: #fff3c4; color: #8d5b00; \x7d",
  "        .status-danger \x7b background: #ffe3e3; color: #a61b1b; \x7d",
  "        .status-info \x7b background: #e0f2fe; color: #075985; \x7d",
  "        .footer \x7b margin-top: 20px; text-align: center; color: #829ab1; font-size: 11px; \x7d",
  "        @media (max-width: 768px) \x7b",
  "            .container \x7b padding: 8px; \x7d",
  "            .table td \x7b white-space: normal; \x7d",
  "        \x7d",
  "    </style>",
  "</head>",
  "<body>",
  "    <div class=\"container\">",
  "        <div class=\"header\">",
  "            <h1>"]

/-- The head of the document and the banner of the page. The time is written as it stands. -/
def header (title subtitle generated version : String) : List Piece :=
  [.markup documentStart, .text title, .markup documentStyle, .text title,
    .markup "</h1>\n            <p>",
    .text subtitle,
    .markup "</p>\n            <p>Generated: ",
    .markup generated, .markup " | Version: ", .text version,
    .markup "</p>\n        </div>"]

/-- The content of the page. -/
def page (content : List Piece) : List Piece :=
  [.markup "\n        <div class=\"content\">\n            "] ++ content ++
    [.markup "\n        </div>"]

/-- The end of the document. -/
def footer : List Piece :=
  [.markup ("\n        <div class=\"footer\">\n" ++
    "            Generated by jarscn - JAR Bytecode Metrics Analyzer\n" ++
    "        </div>\n    </div>\n    </body>\n</html>")]

/-- A figure with its label. -/
def card (value label : String) : List Piece :=
  [.markup "\n        <div class=\"metric-card\">\n            <div class=\"metric-value\">",
    .text value, .markup "</div>\n            <div class=\"metric-label\">", .text label,
    .markup "</div>\n        </div>"]

/-- The heading of a section. -/
def sectionHeader (title : String) : List Piece :=
  [.markup "\n        <h2 class=\"section-header\">", .text title, .markup "</h2>"]

/-- The class of a badge for a severity in any case. -/
def badgeClass (severity : String) : String :=
  let severity := Text.lower severity
  if ["success", "good", "low"].contains severity then "status-success"
  else if ["warning", "medium"].contains severity then "status-warning"
  else if ["danger", "high", "critical"].contains severity then "status-danger"
  else "status-info"

/-- A badge. -/
def badge (text severity : String) : List Piece :=
  [.markup ("<span class=\"status-badge " ++ badgeClass severity ++ "\">"),
    .text text, .markup "</span>"]

/-- A cell between an opening and a closing tag of one name. -/
def tableCell (tag text : String) : List Piece :=
  [.markup ("<" ++ tag ++ ">"), .text text, .markup ("</" ++ tag ++ ">")]

/-- A row of a table. -/
def tableRow (cells : List String) : List Piece :=
  [.markup "\n                <tr>"] ++ cells.flatMap (tableCell "td") ++ [.markup "</tr>"]

/-- A table. -/
def table (headers : List String) (rows : List (List String)) : List Piece :=
  [.markup "\n        <table class=\"table\">\n            <thead><tr>"] ++
    headers.flatMap (tableCell "th") ++ [.markup "</tr></thead>\n            <tbody>"] ++
    rows.flatMap tableRow ++ [.markup "\n            </tbody>\n        </table>"]

/-! ## The report -/

/-- A number with two places. -/
def decimal (x : Float) : String := Decimal.fixed 2 x

/-- The figures of an archive. -/
def cards (a : ArchiveReport) : List Piece :=
  [.markup "\n        <div class=\"metric-grid\">"] ++
    card (toString a.totalClasses) "Classes" ++
    card (toString a.totalInterfaces) "Interfaces" ++
    card (toString a.maxDepth) "Max Inheritance Depth" ++
    card (decimal a.averageDepth) "Average Inheritance Depth" ++
    card (decimal a.magnitude) "ABC Magnitude" ++
    card (decimal a.averageOverridden) "Avg Overridden Methods" ++
    card (decimal a.averageFields) "Avg Fields per Class" ++
    [.markup "\n        </div>"]

/-- The cells of a class. -/
def classCells (c : ClassReport) : List String :=
  [c.name, if c.isInterface then "interface" else "class", toString c.depth, toString c.overridden,
    toString c.fieldCount, toString c.methodCount,
    "<" ++ toString c.assignments ++ "," ++ toString c.branches ++ "," ++
      toString c.conditions ++ ">",
    decimal c.magnitude]

/-- The table of classes; nothing when there are none. -/
def classTable (classes : List ClassReport) : List Piece :=
  if classes.isEmpty then []
  else
    table ["Class", "Kind", "Depth", "Overrides", "Fields", "Methods", "ABC", "|ABC|"]
      (classes.map classCells)

/-- A badge that counts skipped entries; nothing when there are none. -/
def skippedBadge (skipped : List SkippedReport) : List Piece :=
  if skipped.isEmpty then []
  else .markup " " :: badge (toString skipped.length ++ " entries skipped") "warning"

/-- The section of an archive. -/
def archive (a : ArchiveReport) : List Piece :=
  sectionHeader a.fileName ++ cards a ++
    table ["Assignments (A)", "Branches (B)", "Conditions/Calls (C)"]
      [[toString a.assignments, toString a.branches, toString a.conditions]] ++
    classTable a.classes ++ skippedBadge a.skipped

/-- A section with one row per message; nothing when there are none. -/
def messages (title column : String) (items : List String) : List Piece :=
  if items.isEmpty then [] else sectionHeader title ++ table [column] (items.map fun item => [item])

/-- When a report was made: as it says itself, or now if it does not. -/
def generated (now : Moment) (r : Report) : Moment := (Moment.ofRfc3339? r.generatedAt).getD now

/-- The pieces of the page of a report. -/
def pieces (now : Moment) (r : Report) : List Piece :=
  header "JAR Bytecode Analysis Report"
      (toString r.summary.archives ++ " archive(s), " ++
          toString r.summary.totalClasses ++ " classes, " ++
        toString r.summary.totalInterfaces ++ " interfaces")
      (generated now r).display r.version ++
    page (r.archives.flatMap archive ++ messages "Warnings" "Warning" r.warnings ++
      messages "Errors" "Error" r.errors) ++
    footer

/-- The page of a report. -/
def ofReport (now : Moment) (r : Report) : String := render (pieces now r)

end JarMetrics.Html
