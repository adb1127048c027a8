import JarMetrics.Analysis.Basic
import JarMetrics.Analysis.Prepare
import JarMetrics.Files.Delivery

/-!
# Carrying out a request

A request is prepared, its archives are analyzed, and the report is delivered. A JSON report that is
asked for besides goes first.
-/

namespace JarMetrics

/-- What an analysis cannot do without. -/
inductive Part
  | service
  | fileReader
  | formatter
  deriving Repr, DecidableEq

/-- All parts, in the order in which they are asked for. -/
def Part.all : List Part := [.service, .fileReader, .formatter]

/-- How it is said that a part is not there. -/
def Part.missing : Part → String
  | .service => "jar service is required"
  | .fileReader => "file reader is required"
  | .formatter => "output formatter is required"

/-- Check that all parts are there. -/
def Part.check (there : List Part) : Outcome Unit :=
  match all.find? fun part => !there.contains part with
  | some part => .error (.plain part.missing)
  | none => .ok ()

/-- A request that was carried out up to its report. -/
structure Prepared where
  report : Report
  request : Request

/-- Everything that a request shows before its report is delivered. -/
structure PreparedAnalysis where
  outcome : Outcome Prepared
  log : List Log.Line

/-- Prepare a request and analyze its archives. -/
def Request.analyzed (host : Host) (layering : Layering) (interrupt : Option Interrupt)
    (r : Request) :
    PreparedAnalysis :=
  match r.prepare host layering with
  | .error f => ⟨.error f, []⟩
  | .ok final =>
      let analysis := analyze host final interrupt
      ⟨(analysis.outcome.map (⟨·, final⟩)).mapError (.codedBy .analysis "jar analysis failed"),
        analysis.log⟩

/-- A report as it is written in a format. -/
def Written.ofReport (now : Moment) (report : Report) (format : String) : Written :=
  match report.write (fun _ => none) now format with
  | .ok text => { text }
  | .error f => { text := "", failure := some f }

/-- Everything that carrying out a request shows. -/
structure Run where
  delivery : Delivery
  log : List Log.Line

/-- Deliver the reports of a request. -/
def Prepared.deliver (host : Host) (browser : String → Except String Unit) (p : Prepared) :
    Delivery :=
  let besides : Delivery :=
    if p.request.jsonPath.isEmpty then { tree := host.tree }
    else
      Delivery.run host.tree browser p.request.jsonPath Format.json.name true
        (.ofReport host.now p.report Format.json.name)
  match besides.failure with
  | some cause =>
      { besides with failure := some (.codedBy .output "failed to write JSON report" cause) }
  | none =>
      let main :=
        Delivery.run besides.tree browser p.request.outputPath p.request.format p.request.noOpen
        (.ofReport host.now p.report p.request.format)
      { main with
        output := besides.output ++ main.output
        status := besides.status ++ main.status
        opened := besides.opened ++ main.opened
        failure := main.failure.map (.codedBy .output "failed to write output") }

/-- Carry out a request. -/
def Request.run (host : Host) (layering : Layering) (browser : String → Except String Unit)
    (interrupt : Option Interrupt) (r : Request) : Run :=
  let prepared := r.analyzed host layering interrupt
  match prepared.outcome with
  | .error f => ⟨{ tree := host.tree, failure := some f }, prepared.log⟩
  | .ok p => ⟨p.deliver host browser, prepared.log⟩

end JarMetrics
