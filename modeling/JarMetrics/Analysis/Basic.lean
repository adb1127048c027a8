import JarMetrics.Archive.Reading
import JarMetrics.Host
import JarMetrics.Report.Selection
import JarMetrics.Request

/-!
# Analyzing archives

`analyzeArchive` reads one archive and works out its figures. `analyze` does so for every path of a
request, in order; an archive that cannot be read is told in the report and does not stop the
others. Only an interrupt ends an analysis without a report.

An interrupt may come at any moment. A `Course` says what happens around one path: what comes before
the path is looked at, and the actions while its entries are read. `analyzeBy` takes a course for
each path, and `analyze` is the plain case.
-/

namespace JarMetrics

/-- The entries that a request asks for. -/
def Request.selection (request : Request) : Selection := ⟨request.includes, request.excludes⟩

/-- The report of an archive from its figures, with no classes listed. -/
def ArchiveReport.ofFigures (path : String) (a : ArchiveFigures) (contents : ArchiveContents) :
    ArchiveReport where
  fileName := a.name
  path := path
  totalClasses := a.totalClasses
  totalInterfaces := a.totalInterfaces
  maxDepth := a.maxDepth
  averageDepth := a.averageDepth
  assignments := a.abc.assignments.toInt
  branches := a.abc.branches.toInt
  conditions := a.abc.conditions.toInt
  magnitude := a.magnitude
  averageOverridden := a.averageOverridden
  averageFields := a.averageFields
  entriesScanned := contents.entries
  skipped := contents.skipped.map fun s => ⟨s.entry, s.cause.message⟩
  classes := []
  allClasses := a.classes.map ClassReport.ofFigures

/-- The report of what was read from an archive. -/
def ArchiveReport.ofContents (path : String) (request : Request) (contents : ArchiveContents) :
    ArchiveReport :=
  let report := ofFigures path (ArchiveFigures.of (Path.base path) contents.records) contents
  if request.details then
    { report with classes := selectClasses report.allClasses request.sort request.top }
  else report

/-- How the log tells of an archive. -/
def ArchiveReport.logLine (a : ArchiveReport) : Log.Line :=
  ⟨.info, "analyzed archive",
    [("jar", a.fileName), ("classes", toString a.totalClasses),
      ("interfaces", toString a.totalInterfaces),
      ("skipped", toString a.skipped.length), ("elapsed", "0s")]⟩

/-- Everything that analyzing one archive shows. -/
structure ArchiveAnalysis where
  outcome : Outcome ArchiveReport
  log : List Log.Line

/-- The failure of an archive that cannot be read; an interrupt stays what it is. -/
def archiveFailure (path : String) (cause : Failure) : Failure :=
  if cause.interrupt?.isSome then cause else .unreadableArchive path (some cause)

/-- Analyze one archive, whose entries are read with at most `limit` tasks at a time as `schedule`
interleaves them. -/
def analyzeArchiveBy (tree : FileTree) (request : Request) (limit : Nat)
    (schedule : Nat → List Action) (path : String) : ArchiveAnalysis :=
  let note := "open archive " ++ path
  match tree.read path with
  | .error cause => ⟨.error (archiveFailure path (.noted note cause)), []⟩
  | .ok content =>
      let run := readArchiveBy limit schedule note ⟨content.toArray⟩ request.selection
      match run.outcome with
      | .error cause => ⟨.error (archiveFailure path cause), run.log⟩
      | .ok contents =>
          let report := ArchiveReport.ofContents path request contents
          ⟨.ok report, run.log ++ [report.logLine]⟩

/-- Analyze one archive, entry by entry. -/
def analyzeArchive (tree : FileTree) (request : Request) (interrupt : Option Interrupt)
    (path : String) :
    ArchiveAnalysis :=
  analyzeArchiveBy tree request 1 (Reading.inOrder interrupt) path

/-- The warnings about an archive. -/
def ArchiveReport.warnings (a : ArchiveReport) : List String :=
  (a.skipped.map fun s => "[" ++ a.fileName ++ "] skipped " ++ s.entry ++ ": " ++ s.reason) ++
    if a.entriesScanned == 0 then ["[" ++ a.fileName ++ "] no class entries matched"] else []

/-- What came of one path: a report, or why there is none. -/
abbrev PathResult := Except String ArchiveReport

/-- What came of all paths, unless an interrupt ended the analysis. -/
structure PathsAnalysis where
  outcome : Outcome (List PathResult)
  log : List Log.Line

/-- The failure of an analysis that an interrupt ended. -/
def cancelled (cause : Failure) : Failure := .noted "jar analysis cancelled" cause

/-- Put the result of a path in front of those of the other paths. -/
def PathsAnalysis.behind (log : List Log.Line) (result : PathResult) (others : PathsAnalysis) :
    PathsAnalysis :=
  ⟨others.outcome.map (result :: ·), log ++ others.log⟩

/-- How one path is dealt with. -/
structure Course where
  /-- What interrupts the analysis before it looks at the path. -/
  before : Option Interrupt := none
  /-- What happens while so many entries are read. -/
  schedule : Nat → List Action := Reading.inOrder none

/-- Analyze the archives at paths, each in its own course. `context` is what has interrupted the
analysis so far; it is asked for before each path. -/
def analyzePathsBy (tree : FileTree) (request : Request) (limit : Nat) (courses : Nat → Course) :
    Option Interrupt → Nat → List String → PathsAnalysis
  | _, _, [] => ⟨.ok [], []⟩
  | context, position, path :: rest =>
      match context.or (courses position).before with
      | some reason => ⟨.error (cancelled (.interrupted reason)), []⟩
      | none =>
          let first := analyzeArchiveBy tree request limit (courses position).schedule path
          match first.outcome with
          | .ok report =>
              let context :=
                Action.firstInterrupt? ((courses position).schedule report.entriesScanned.toNat)
              (analyzePathsBy tree request limit courses context (position + 1) rest).behind
                first.log (.ok report)
          | .error cause =>
              if cause.interrupt?.isSome then ⟨.error (cancelled cause), first.log⟩
              else
                (analyzePathsBy tree request limit courses none (position + 1) rest).behind
                  first.log
                  (.error ("[" ++ path ++ "] " ++ cause.message))

/-- The archives of which there is a report. -/
def PathResult.reports (results : List PathResult) : List ArchiveReport :=
  results.filterMap Except.toOption

/-- What is told of the archives of which there is none. -/
def PathResult.errors (results : List PathResult) : List String :=
  results.filterMap fun
    | .error text => some text
    | .ok _ => none

/-- Everything that an analysis shows. -/
structure Analysis where
  outcome : Outcome Report
  log : List Log.Line

/-- The report of what came of all paths. -/
def Report.ofResults (host : Host) (results : List PathResult) : Report :=
  let archives := PathResult.reports results
  { archives
    summary := .of archives
    warnings := archives.flatMap (·.warnings)
    errors := PathResult.errors results
    generatedAt := host.now.rfc3339
    version := host.build.version }

/-- Analyze the archives of a request, each in its own course. -/
def analyzeBy (host : Host) (request : Request) (limit : Nat) (courses : Nat → Course)
    (context : Option Interrupt) : Analysis :=
  let paths := analyzePathsBy host.tree request limit courses context 0 request.paths
  ⟨paths.outcome.map (Report.ofResults host), paths.log⟩

/-- Analyze the archives of a request, entry by entry, interrupted before the first if at all. -/
def analyze (host : Host) (request : Request) (interrupt : Option Interrupt) : Analysis :=
  analyzeBy host request 1 (fun _ => {}) interrupt

end JarMetrics
