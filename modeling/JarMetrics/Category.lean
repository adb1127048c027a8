import JarMetrics.Failure
import JarMetrics.Text.Case

/-!
# Categories of failures

Users are told what kind of failure they face and what they can do about it. An interrupt decides
first, then the outermost code if it is a known one, and then words in the message.
-/

namespace JarMetrics

/-- The kinds of failures that users are told apart. -/
inductive Category
  | input
  | config
  | processing
  | output
  | timeout
  | unknown
  deriving Repr, DecidableEq

namespace Category

/-- How a category is named. -/
def name : Category → String
  | .input => "Input Error"
  | .config => "Configuration Error"
  | .processing => "Processing Error"
  | .output => "Output Error"
  | .timeout => "Timeout Error"
  | .unknown => "Unknown Error"

/-- All categories. -/
def all : List Category := [.input, .config, .processing, .output, .timeout, .unknown]

/-- The category of a name. -/
def ofName? (name : String) : Option Category := all.find? (·.name == name)

/-- What users are told about a category. -/
def explanation : Category → String
  | .input => "Failed to process input files or directories"
  | .config => "Configuration file or settings error"
  | .timeout => "Analysis cancelled or timed out"
  | .output => "Failed to generate or write output"
  | .processing => "Error while reading or analyzing archives"
  | .unknown => "An unexpected error occurred"

/-- What users can do about a category. -/
def suggestions : Category → List String
  | .input =>
      ["Check that the paths exist and are .jar files or directories containing them",
        "Try: jarscn analyze --recursive <dir> to search subdirectories",
        "Ensure you have read permissions for the target files"]
  | .config =>
      ["Verify configuration file format and values",
        "Try: jarscn init to generate a valid config file",
        "Check for syntax errors in .jarscn.toml"]
  | .timeout =>
      ["Analyze fewer archives at a time",
        "Narrow the entries decoded with --include or --exclude"]
  | .output =>
      ["Check write permissions and output format validity",
        "Ensure the output directory exists and is writable",
        "Try writing to a different location"]
  | .processing =>
      ["The archive may be truncated or not a zip file",
        "Run with --verbose to see which entries were skipped",
        "For graph export, check the Neo4j URI and credentials"]
  | .unknown =>
      ["Run with --verbose for detailed error information", "Report the issue if it persists"]

/-- Suggestions for a category by name; an unknown name has a general one. -/
def suggestionsFor (name : String) : List String :=
  match ofName? name with
  | some category => category.suggestions
  | none => ["Check the error message for more details"]

/-- The category of a code. -/
def ofCode? : FailureCode → Option Category
  | .invalidInput | .fileNotFound => some .input
  | .config => some .config
  | .output | .unsupportedFormat => some .output
  | .archive | .analysis | .graphExport => some .processing
  | .other _ _ => none

/-- Words that point to a category, in the order in which categories are tried. -/
def words : List (Category × List String) :=
  [(.timeout, ["timeout", "deadline", "context canceled", "operation timed out"]),
    (.config, ["config", "configuration", "invalid settings", "toml"]),
    (.input,
      ["invalid input", "no jar files found", "not a jar", "file not found", "cannot access",
        "permission denied", "path", "directory"]),
    (.output, ["output", "write", "cannot create", "failed to generate", "unsupported format"]),
    (.processing,
      ["archive", "zip", "class file", "constant pool", "bytecode", "analysis", "neo4j", "export"])]

/-- Whether `word` stands somewhere in a list of characters. -/
def occursIn (word : List Char) : List Char → Bool
  | [] => word.isEmpty
  | c :: rest => word.isPrefixOf (c :: rest) || occursIn word rest

/-- The first category one of whose words stands in the text. -/
def ofText? (text : String) : Option Category :=
  let text := (Text.lower text).toList
  (words.find? fun p => p.2.any fun word => occursIn word.toList text).map Prod.fst

/-- The category of a failure. -/
def of (f : Failure) : Category :=
  if f.interrupt?.isSome then .timeout
  else
    match f.code?.bind ofCode? with
    | some category => category
    | none => (ofText? f.message).getD .unknown

/-- What users are told about a failure of this category: its own message if nothing is known. -/
def tell (category : Category) (f : Failure) : String :=
  if category = .unknown then f.message else category.explanation

end Category

namespace Failure

/-- The failure with its category. -/
def categorize (f : Failure) : Failure :=
  let category := Category.of f
  .categorizedBy category.name (category.tell f) f

/-- What is written when a run ends with this failure. -/
def report (f : Failure) : String :=
  let category := Category.of f
  "Error: " ++ f.message ++ "\n\n" ++ category.name ++ ": " ++ category.tell f ++ "\n" ++
    String.join (category.suggestions.map fun s => "  • " ++ s ++ "\n")

end Failure

end JarMetrics
