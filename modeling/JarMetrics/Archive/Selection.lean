import JarMetrics.Failure
import JarMetrics.Glob
import JarMetrics.Text.Quoted
import JarMetrics.Zip.Archive

/-!
# Choosing entries of an archive

Entries are chosen by name: at least one including pattern has to match and no excluding one may.
Without including patterns all class files are chosen. The chosen entries are put in the order of
their names, and entries of one name keep the order of the directory.
-/

namespace JarMetrics

/-- Which entries of an archive to read. -/
structure Selection where
  includes : List String := []
  excludes : List String := []
  deriving Repr, DecidableEq

namespace Selection

/-- The pattern that stands for no including patterns. -/
def classFiles : String := "**/*.class"

/-- The patterns that a name has to match. -/
def effectiveInclude (s : Selection) : List String :=
  if s.includes.isEmpty then [classFiles] else s.includes

/-- Whether a name is chosen. -/
def selects (s : Selection) (name : String) : Bool :=
  s.effectiveInclude.any (Glob.isMatch · name) && !s.excludes.any (Glob.isMatch · name)

/-- The first pattern that is not well formed. -/
def invalidPattern? (s : Selection) : Option String :=
  (s.includes ++ s.excludes).find? fun p => !Glob.isValid p

/-- The chosen entries in the order of their names. -/
def chosen (s : Selection) (entries : List ZipEntry) : List ZipEntry :=
  (entries.filter fun e => !e.isDirectory && s.selects e.name).mergeSort
    fun e f => decide (e.rawName ≤ f.rawName)

/-- The chosen entries, unless a pattern is not well formed. -/
def apply (s : Selection) (entries : List ZipEntry) : Outcome (List ZipEntry) :=
  match s.invalidPattern? with
  | some p => .error (.plain ("invalid entry pattern " ++ Text.quoted p))
  | none => .ok (s.chosen entries)

end Selection

end JarMetrics
