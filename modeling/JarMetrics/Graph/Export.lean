import JarMetrics.Failure
import JarMetrics.Graph.Batch
import JarMetrics.Graph.Statement
import JarMetrics.Log

/-!
# Exporting to a graph store

An export is a sequence of statements, made of parts: the indexes first, then one part per archive.
The statements are issued in order until one fails. Rows that cannot be cut into batches are found
out only when it is their turn: by then the statements before them have been issued, and the export
breaks down.
-/

namespace JarMetrics.Graph

/-- What an export wrote. -/
structure ExportSummary where
  archives : Nat := 0
  classes : Nat := 0
  extensions : Nat := 0
  implementations : Nat := 0
  deriving Repr, DecidableEq

/-- A part of an export. -/
structure Stage where
  /-- What is said when one of its statements fails. -/
  complaint : String
  statements : List Statement
  /-- What the log tells when all of them are done. -/
  log : List Log.Line := []
  /-- Whether the export breaks down behind them. -/
  breaks : Bool := false

/-- The batch size where none is given. -/
def defaultBatchSize : Int64 := 500

/-- The batch size that is used for one that is given. -/
def effectiveBatchSize (size : Int64) : Int64 := if size ≤ 0 then defaultBatchSize else size

/-- The part that makes the indexes. -/
def indexStage : Stage :=
  { complaint := "failed to create indexes", statements := [.jarIndex, .classIndex] }

/-- How the log tells of an exported archive. -/
def exportLine (a : ArchiveReport) : Log.Line :=
  ⟨.info, "exported archive to neo4j",
    [("jar", a.fileName), ("classes", toString (classRows a).length),
      ("extends", toString (extendsRows a).length),
      ("implements", toString (implementsRows a).length)]⟩

/-- The statements for the rows of an archive, kind by kind; none where the rows cannot be cut into
batches of the size. -/
def rowSteps (size : Int64) (a : ArchiveReport) : List (Option (List Statement)) :=
  [(chunkRows (classRows a) size).map (·.map .classes),
    (chunkRows (extendsRows a) size).map (·.map .extensions),
    (chunkRows (implementsRows a) size).map (·.map .implementations)]

/-- The part that puts in an archive, up to the first rows that cannot be cut. -/
def archiveStage (size : Int64) (clear : Bool) (a : ArchiveReport) : Stage where
  complaint := "failed to export " ++ a.fileName
  statements := (if clear then [Statement.clear a.fileName] else []) ++ [.jar a] ++
    ((rowSteps size a).takeWhile Option.isSome).flatMap (·.getD [])
  log := [exportLine a]
  breaks := (rowSteps size a).any Option.isNone

/-- All parts of an export. -/
def stages (size : Int64) (clear : Bool) (report : Report) : List Stage :=
  indexStage :: report.archives.map (archiveStage (effectiveBatchSize size) clear)

/-- What the store answers to the statement with a number, counted from 1: nothing, or a failure. -/
abbrev Store := Nat → Statement → Option Failure

/-- What issuing statements shows. -/
structure Issued where
  statements : List Statement
  failure : Option Failure

/-- Issue statements until one fails; `done` have been issued before. -/
def issue (store : Store) (done : Nat) : List Statement → Issued
  | [] => ⟨[], none⟩
  | statement :: rest =>
      match store (done + 1) statement with
      | some failure => ⟨[statement], some failure⟩
      | none =>
          let others := issue store (done + 1) rest
          ⟨statement :: others.statements, others.failure⟩

/-- Everything that an export shows. -/
structure Export where
  statements : List Statement
  /-- None if the export breaks down. -/
  outcome : Option (Outcome ExportSummary)
  log : List Log.Line

/-- Issue the statements of parts; a summary is given if all of them are done. -/
def issueStages (store : Store) (summary : ExportSummary) (done : Nat) : List Stage → Export
  | [] => ⟨[], some (.ok summary), []⟩
  | stage :: rest =>
      let issued := issue store done stage.statements
      match issued.failure with
      | some cause =>
          ⟨issued.statements, some (.error (.codedBy .graphExport stage.complaint cause)), []⟩
      | none =>
          if stage.breaks then ⟨issued.statements, none, []⟩
          else
            let others := issueStages store summary (done + issued.statements.length) rest
            ⟨issued.statements ++ others.statements, others.outcome, stage.log ++ others.log⟩

/-- What is written when all statements are done. -/
def ExportSummary.of (report : Report) : ExportSummary where
  archives := report.archives.length
  classes := report.archives.foldl (fun sum a => sum + (classRows a).length) 0
  extensions := report.archives.foldl (fun sum a => sum + (extendsRows a).length) 0
  implementations := report.archives.foldl (fun sum a => sum + (implementsRows a).length) 0

/-- Export a report, if there is one. -/
def exportReport (store : Store) (size : Int64) (clear : Bool) : Option Report → Export
  | none => ⟨[], some (.ok {}), []⟩
  | some report => issueStages store (.of report) 0 (stages size clear report)

end JarMetrics.Graph
