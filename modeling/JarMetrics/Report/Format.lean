import JarMetrics.Failure
import JarMetrics.Report.Csv
import JarMetrics.Report.Html
import JarMetrics.Report.Text
import JarMetrics.Yaml.Printer

/-!
# Formats of reports

The five formats in which a report can be had. `Report.format` gives the text; `Report.write` hands
the text to a place that may refuse it, and differs in small ways: JSON ends with a line break and
YAML is indented by two blanks instead of four.
-/

namespace JarMetrics

/-- The formats of reports. -/
inductive Format
  | text
  | json
  | yaml
  | csv
  | html
  deriving Repr, DecidableEq

namespace Format

/-- The name of a format. -/
def name : Format → String
  | .text => "text"
  | .json => "json"
  | .yaml => "yaml"
  | .csv => "csv"
  | .html => "html"

/-- All formats. -/
def all : List Format := [.text, .json, .yaml, .csv, .html]

/-- The format with a name. -/
def ofName? (name : String) : Option Format := all.find? (·.name == name)

/-- Whether a name is that of a format. -/
def isValid (name : String) : Bool := (ofName? name).isSome

/-- The ending of file names for a format; plain text has none. -/
def fileEnding : Format → String
  | .text => ""
  | format => format.name

/-- The format that switches ask for, at most one of which may be given. -/
def choose (html json csv yaml : Bool) : Outcome Format :=
  let chosen :=
    ([(html, Format.html), (json, .json), (csv, .csv), (yaml, .yaml)].filter (·.1)).map (·.2)
  match chosen with
  | [] => .ok .text
  | [format] => .ok format
  | _ => .error (.coded .invalidInput "only one output format flag can be specified")

end Format

/-! ## Structured formats -/

/-- A key in words joined by underscores: `totalClasses` becomes `total_classes`. -/
def snakeCase (key : String) : String :=
  String.join (key.toList.map fun c => if c.isUpper then "_" ++ c.toLower.toString else c.toString)

mutual

/-- The value with all keys in words joined by underscores. -/
def Json.snakeKeys : Json → Json
  | .array items => .array (snakeItems items)
  | .object members => .object (snakeMembers members)
  | value => value

/-- The items with such keys. -/
def Json.snakeItems : List Json → List Json
  | [] => []
  | item :: rest => item.snakeKeys :: snakeItems rest

/-- The members with such keys. -/
def Json.snakeMembers : List (String × Json) → List (String × Json)
  | [] => []
  | (key, value) :: rest => (snakeCase key, value.snakeKeys) :: snakeMembers rest

end

/-- The JSON text of a value; a number that is not finite has none. -/
def Json.text? (value : Json) : Except Failure String :=
  match value.unprintable with
  | some x => .error (.plain ("json: unsupported value: " ++ Decimal.render Json.numberStyle x))
  | none => .ok (value.pretty true 0)

namespace Report

/-- The YAML text of a report, in which the list of archives is never missing. -/
def yaml (step : Nat) (r : Report) : String :=
  Yaml.render step { r with listed := true }.toJson.snakeKeys

/-- The text of a report in a format. -/
def format (now : Moment) (r : Report) (format : String) : Outcome String :=
  match Format.ofName? format with
  | some .text => .ok (TextReport.render r)
  | some .json => r.toJson.text?.mapError (.codedBy .output "failed to marshal JSON")
  | some .yaml => .ok (r.yaml 4)
  | some .csv => .ok (Csv.ofReport r)
  | some .html => .ok (Html.ofReport now r)
  | none => .error (.unsupportedFormat format)

/-- Hand a text to a place; it is kept unless the place refuses it. -/
def hand (refuse : String → Option Failure) (text : String) : Outcome String :=
  match refuse text with
  | some failure => .error failure
  | none => .ok text

/-- Write a report to a place that may refuse what it is given. -/
def write (refuse : String → Option Failure) (now : Moment) (r : Report) (format : String) :
    Outcome String :=
  match Format.ofName? format with
  | some .json =>
      (r.toJson.text?.bind fun text => hand refuse (text ++ "\n")).mapError
        (.codedBy .output "failed to encode JSON")
  | some .yaml =>
      (hand refuse (r.yaml 2)).mapError fun failure =>
        .codedBy .output "failed to encode YAML" (.flattened "yaml: write error" failure)
  | _ => do hand refuse (← r.format now format)

end Report

end JarMetrics
