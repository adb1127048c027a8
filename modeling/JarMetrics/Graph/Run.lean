import JarMetrics.Analysis.Basic
import JarMetrics.Analysis.Prepare
import JarMetrics.Graph.Export

/-!
# Carrying out an export

The archives of a request are analyzed and put into the graph store. A store is opened only when
there is something to put into it.
-/

namespace JarMetrics

/-- The first thing that is wrong with a request. -/
def GraphRequest.error? (g : GraphRequest) : Option RequestError :=
  if g.jar.paths.isEmpty then some .noPaths
  else if g.uri.isEmpty then some .noAddress
  else if g.batchSize < 0 then some .negativeBatch
  else if g.jar.workers < 0 then some .negativeWorkers
  else none

/-- Everything that carrying out an export shows. -/
structure GraphRun where
  /-- None if the export breaks down. -/
  outcome : Option (Outcome Graph.ExportSummary)
  /-- What was analyzed, if the analysis came to an end. -/
  report : Option Report := none
  statements : List Graph.Statement := []
  log : List Log.Line := []

/-- The archives that an export is about. -/
def GraphRequest.prepare (tree : FileTree) (g : GraphRequest) : Outcome Request := do
  Request.refuse "invalid graph export request" g.error?
  let files ← tree.resolveJars g.jar.paths (g.jar.recursive.getD true)
  return { g.jar with paths := files }

/-- Carry out an export to the store that `connect` opens. -/
def GraphRequest.run (host : Host) (connect : GraphRequest → Outcome Graph.Store)
    (interrupt : Option Interrupt) (g : GraphRequest) : GraphRun :=
  match g.prepare host.tree with
  | .error f => { outcome := some (.error f) }
  | .ok request =>
      let analysis := analyze host request interrupt
      match analysis.outcome with
      | .error cause =>
          { outcome := some (.error (.codedBy .analysis "jar analysis failed" cause))
            log := analysis.log }
      | .ok report =>
          match connect g with
          | .error f => { outcome := some (.error f), report := some report, log := analysis.log }
          | .ok store =>
              let done := Graph.exportReport store (Int64.ofInt g.batchSize) g.clear (some report)
              { outcome := done.outcome
                report := some report
                statements := done.statements
                log := analysis.log ++ done.log }

end JarMetrics
