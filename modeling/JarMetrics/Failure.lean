import JarMetrics.Metrics.ClassRecord
import JarMetrics.Zip.Fault

/-!
# Failures

Why an operation did not succeed, as a chain of causes. Each link adds a note to the cause below it,
except for `flattened`, which keeps only the text of its cause: what lies below it can no longer be
asked for.

`Failure.message` words the whole chain. `Failure.code?` is the code of the outermost coded link.
-/

namespace JarMetrics

/-- How the codes are written that have a meaning of their own. -/
def FailureCode.knownNames : List String :=
  ["INVALID_INPUT", "FILE_NOT_FOUND", "ARCHIVE_ERROR", "ANALYSIS_ERROR", "CONFIG_ERROR",
    "OUTPUT_ERROR", "EXPORT_ERROR", "UNSUPPORTED_FORMAT"]

/-- The code of a failure that is reported to users. -/
inductive FailureCode
  | invalidInput
  | fileNotFound
  | archive
  | analysis
  | config
  | output
  | graphExport
  | unsupportedFormat
  /-- A code that is none of the above. -/
  | other (name : String) (unknown : name ∉ FailureCode.knownNames)
  deriving Repr, DecidableEq

namespace FailureCode

/-- How the code is written. -/
def name : FailureCode → String
  | .invalidInput => "INVALID_INPUT"
  | .fileNotFound => "FILE_NOT_FOUND"
  | .archive => "ARCHIVE_ERROR"
  | .analysis => "ANALYSIS_ERROR"
  | .config => "CONFIG_ERROR"
  | .output => "OUTPUT_ERROR"
  | .graphExport => "EXPORT_ERROR"
  | .unsupportedFormat => "UNSUPPORTED_FORMAT"
  | .other name _ => name

/-- The codes that have a meaning of their own. -/
def known : List FailureCode :=
  [.invalidInput, .fileNotFound, .archive, .analysis, .config, .output, .graphExport,
    .unsupportedFormat]

theorem not_mem_knownNames {name : String} (absent : known.find? (·.name == name) = none) :
    name ∉ knownNames := by
  have names : knownNames = known.map FailureCode.name := rfl
  rw [names, List.mem_map]
  rintro ⟨code, member, rfl⟩
  simpa using List.find?_eq_none.mp absent code member

/-- The code that is written `name`. -/
def ofName (name : String) : FailureCode :=
  match absent : known.find? (·.name == name) with
  | some code => code
  | none => .other name (not_mem_knownNames absent)

end FailureCode

/-- Why a run was broken off from outside. -/
inductive Interrupt
  | canceled
  | deadline
  deriving Repr, DecidableEq

/-- The wording of an interrupt. -/
def Interrupt.message : Interrupt → String
  | .canceled => "context canceled"
  | .deadline => "context deadline exceeded"

/-- A failure and its causes. -/
inductive Failure
  | plain (text : String)
  | interrupted (reason : Interrupt)
  | record (error : RecordError)
  | zip (fault : ZipFault)
  /-- A file or directory that does not exist. -/
  | missing (text : String)
  /-- A note in front of its cause. -/
  | noted (note : String) (cause : Failure)
  /-- A note in front of the text of a cause that is otherwise forgotten. -/
  | flattened (note : String) (cause : Failure)
  | coded (code : FailureCode) (text : String)
  | codedBy (code : FailureCode) (text : String) (cause : Failure)
  /-- A failure that was given a category. -/
  | categorized (category text : String)
  | categorizedBy (category text : String) (cause : Failure)
  /-- A failure at an entry of an archive. -/
  | atEntry (entry : String) (cause : Failure)
  deriving Repr, DecidableEq

/-- The wording of a record error. -/
def RecordError.message : RecordError → String
  | .classFile error => error.message
  | .undeclared => "class record: no class declaration visited"

namespace Failure

/-- The wording of a failure. -/
def message : Failure → String
  | .plain text => text
  | .interrupted i => i.message
  | .record error => error.message
  | .zip fault => fault.message
  | .missing text => text
  | .noted note cause => note ++ ": " ++ cause.message
  | .flattened note cause => note ++ ": " ++ cause.message
  | .coded code text => "[" ++ code.name ++ "] " ++ text
  | .codedBy code text cause => "[" ++ code.name ++ "] " ++ text ++ ": " ++ cause.message
  | .categorized _ text => text
  | .categorizedBy _ _ cause => cause.message
  | .atEntry entry cause => entry ++ ": " ++ cause.message

/-- The failure and the causes below it that can still be asked for, outermost first. -/
def chain : Failure → List Failure
  | .noted note cause => .noted note cause :: cause.chain
  | .codedBy code text cause => .codedBy code text cause :: cause.chain
  | .categorizedBy category text cause => .categorizedBy category text cause :: cause.chain
  | .atEntry entry cause => .atEntry entry cause :: cause.chain
  | last => [last]

/-- The code of a link, if it has one. -/
def linkCode? : Failure → Option FailureCode
  | .coded code _ => some code
  | .codedBy code _ _ => some code
  | _ => none

/-- The code of the outermost coded link. -/
def code? (f : Failure) : Option FailureCode := f.chain.findSome? linkCode?

/-- The interrupt at a link, if it is one. -/
def linkInterrupt? : Failure → Option Interrupt
  | .interrupted i => some i
  | _ => none

/-- The interrupt at the bottom of the chain, if that is what it is. -/
def interrupt? (f : Failure) : Option Interrupt := f.chain.findSome? linkInterrupt?

@[simp] theorem interrupt?_noted (note : String) (cause : Failure) :
    (noted note cause).interrupt? = cause.interrupt? :=
  rfl

@[simp] theorem interrupt?_codedBy (code : FailureCode) (text : String) (cause : Failure) :
    (codedBy code text cause).interrupt? = cause.interrupt? :=
  rfl

/-- A coded failure with or without a cause. -/
def withCode (code : FailureCode) (text : String) : Option Failure → Failure
  | some cause => .codedBy code text cause
  | none => .coded code text

/-- A file that is not there. -/
def fileNotFound (path : String) (cause : Option Failure) : Failure :=
  withCode .fileNotFound ("file not found: " ++ path) cause

/-- An archive that cannot be read. -/
def unreadableArchive (path : String) (cause : Option Failure) : Failure :=
  withCode .archive ("failed to read archive: " ++ path) cause

/-- A format that is not supported. -/
def unsupportedFormat (format : String) : Failure :=
  .coded .unsupportedFormat ("unsupported format: " ++ format)

end Failure

/-- An operation that may fail. -/
abbrev Outcome := Except Failure

end JarMetrics
