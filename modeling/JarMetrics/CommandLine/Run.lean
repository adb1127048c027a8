import JarMetrics.Analysis.Run
import JarMetrics.Browser
import JarMetrics.Category
import JarMetrics.CommandLine.Commands
import JarMetrics.CommandLine.Completion
import JarMetrics.Dotenv.Environment
import JarMetrics.Graph.Address
import JarMetrics.Graph.Run

/-!
# Running a command line

`run` finds the command that a command line names, reads its options and carries it out. What comes
of it is a value: what is written where, which files there are afterwards, and whether it failed.
-/

namespace JarMetrics.CommandLine

/-- Everything that carrying out a command shows. -/
structure Effect where
  tree : FileTree
  output : String := ""
  /-- What is written beside the output, apart from the log. -/
  messages : String := ""
  /-- What goes to the output only if that has been given a place, and else to the messages. -/
  notice : String := ""
  log : List Log.Line := []
  /-- What is written where the log is, not being part of it. -/
  trace : String := ""
  failure : Option Failure := none
  /-- What the program breaks down with. -/
  breakdown : Option String := none

/-- Everything that running a command line shows. -/
structure CommandRun where
  tree : FileTree
  code : Nat
  output : String
  notice : String
  messages : String
  /-- The log as it is written. -/
  log : String

/-- What a run writes to the standard output and to the standard error stream, alone in a process or
inside another program that has given the output a place and keeps the log apart. -/
def CommandRun.streams (alone : Bool) (r : CommandRun) : String × String :=
  if alone then (r.output, r.log ++ r.notice ++ r.messages) else (r.output ++ r.notice, r.messages)

/-- Where the graph store of a request is reached. -/
abbrev Connect := GraphRequest → Outcome Graph.Store

namespace Arguments

/-- Whether a switch is on. -/
def isOn (a : Arguments) (flag : Flag) : Bool :=
  match a.value flag with
  | .switch on => on
  | _ => false

/-- The number of an option. -/
def number (a : Arguments) (flag : Flag) : Int :=
  match a.value flag with
  | .number n => n
  | _ => 0

/-- The text of an option. -/
def text (a : Arguments) (flag : Flag) : String :=
  match a.value flag with
  | .text t => t
  | _ => ""

/-- The list of an option. -/
def list (a : Arguments) (flag : Flag) : List String :=
  match a.value flag with
  | .list items => items
  | _ => []

end Arguments

/-! ## Analyzing -/

/-- The paths to analyze, and where a JSON report goes besides: a last argument that ends in
`.json`, if it is not the only one. -/
def splitJsonPath (arguments : List String) : List String × String :=
  match arguments.getLast? with
  | some last =>
      if 2 ≤ arguments.length && Text.equalFold ".json" (Path.ending last) then
        (arguments.dropLast, last)
      else (arguments, "")
  | none => (arguments, "")

/-- The name of a report file for which none is given. -/
def reportName (now : Moment) (ending : String) : String :=
  programName ++ "_" ++ now.stamp ++ "." ++ ending

/-- The request that a command line makes. -/
def analyzeRequest (host : Host) (a : Arguments) : Outcome Request := do
  let (paths, jsonPath) := splitJsonPath a.rest
  let format ← Format.choose (a.isOn Flags.html) (a.isOn Flags.json)
    (a.isOn Flags.csv) (a.isOn Flags.yaml)
  let given := a.text Flags.output
  let outputPath :=
    if given.isEmpty && !format.fileEnding.isEmpty then reportName host.now format.fileEnding
    else given
  return {
    paths
    format := format.name
    writer := true
    outputPath
    noOpen := a.isOn Flags.noOpen || !host.isInteractive
    details := a.isOn Flags.details
    jsonPath
    sort := a.text Flags.sort
    top := a.number Flags.top
    settingsPath := a.text Flags.config
    recursive := some (a.isOn Flags.recursive)
    includes := a.list Flags.includes
    excludes := a.list Flags.excludes
    workers := a.number Flags.workers }

/-- Open a page in a browser of the machine. -/
def openPage (host : Host) (address : String) : Except String Unit :=
  (Browser.start host.tree "linux" ((host.lookup "PATH").getD "") address).mapError (·.message)

/-- Analyze archives. -/
def runAnalyze (host : Host) (a : Arguments) : Effect :=
  match analyzeRequest host a with
  | .error f => { tree := host.tree, failure := some f }
  | .ok request =>
      let run := request.run host (.given a.given) (openPage host) none
      { tree := run.delivery.tree
        output := run.delivery.output
        messages := run.delivery.status
        log := run.log
        failure := run.delivery.failure.map (.noted "jar analysis failed") }

/-! ## Exporting -/

/-- The machine with the variables of a file of variables, where they are not set. -/
def withVariableFile (host : Host) : Host :=
  match host.tree.read ".env" with
  | .ok content => host.addMissing (Dotenv.environment content)
  | .error _ => host

/-- The request that a command line makes. -/
def graphOverride (a : Arguments) : GraphRequest where
  jar := {
    paths := a.rest
    writer := true
    settingsPath := a.text Flags.config
    recursive := some (a.isOn Flags.recursive)
    includes := a.list Flags.includes
    excludes := a.list Flags.excludes
    workers := a.number Flags.workers }
  uri := a.text Flags.uri
  username := a.text Flags.username
  password := a.text Flags.password
  database := a.text Flags.database
  batchSize := a.number Flags.batchSize
  clear := a.isOn Flags.clear

/-- What is told of an export. -/
def exportText (uri : String) (s : Graph.ExportSummary) : String :=
  "Exported " ++ toString s.archives ++ " archive(s) to " ++ uri ++ ": " ++ toString s.classes ++
    " classes, " ++ toString s.extensions ++ " EXTENDS, " ++
      toString s.implementations ++ " IMPLEMENTS\n"

/-- Export archives to the graph store that `connect` reaches, if its address is one. -/
def runGraph (host : Host) (connect : Connect) (a : Arguments) : Effect :=
  let host := withVariableFile host
  match GraphRequest.load host (a.text Flags.config) (a.rest.headD "") with
  | .error cause =>
      { tree := host.tree, failure := some (.codedBy .config "failed to load configuration" cause) }
  | .ok base =>
      let request := GraphRequest.overlay (some a.given) base (graphOverride a)
      let run := request.run host (fun g => do let _ ← Graph.Address.check g.uri; connect g) none
      let messages :=
        String.join (((run.report.map (·.errors)).getD []).map fun e => "x " ++ e ++ "\n")
      match run.outcome with
      | some (.ok summary) =>
          { tree := host.tree, output := exportText request.uri summary, messages, log := run.log }
      | some (.error cause) =>
          { tree := host.tree, messages, log := run.log,
            failure := some (.noted "graph export failed" cause) }
      | none =>
          { tree := host.tree, log := run.log
            breakdown := some "runtime error: makeslice: cap out of range" }

/-! ## The other commands -/

/-- Show the version. -/
def runVersion (host : Host) (a : Arguments) : Effect :=
  let text :=
    if a.isOn Flags.short then host.build.version else host.build.info host.toolchain host.platform
  { tree := host.tree, output := text ++ "\n" }

/-- What is told of a settings file. -/
def settingsText (path : String) : String :=
  "✅ Configuration file created: " ++ path ++
    "\n\nTo customize jarscn for your project:\n  1. Edit " ++ path ++
    "\n  2. Run 'jarscn analyze <app.jar>' to use your configuration\n"

/-- Write a settings file with the defaults. -/
def writeSettings (tree : FileTree) (path : String) (force : Bool) : Outcome FileTree := do
  if tree.present path && !force then
    .error (.plain ("configuration file already exists: " ++ path ++ "\nUse --force to overwrite"))
  else do
    let directory := Path.directory path
    let tree ← (tree.makeDirectories directory).mapError
      (.noted ("failed to create directory " ++ directory))
    (tree.write path Settings.template.toUTF8.toList).mapError
      (.noted "failed to write configuration file")

/-- Write a settings file. -/
def runSettings (host : Host) (a : Arguments) : Effect :=
  let path := Path.absolute host.tree.here (a.text Flags.settingsFile)
  match writeSettings host.tree path (a.isOn Flags.force) with
  | .ok tree => { tree, output := settingsText path }
  | .error f => { tree := host.tree, failure := some f }

/-- Words in the form of a list, each in back quotes if it can be. -/
def quotedWords (words : List String) : String :=
  let quote := fun (word : String) =>
    if word.toList.all fun c => Text.isPrintable c && c != '\x60' || c == '\t' then
      "\x60" ++ word ++ "\x60"
    else Text.quoted word
  "[" ++ " ".intercalate (words.map quote) ++ "]"

/-- Show help about the command that words lead to. -/
def runHelp (host : Host) (p : Program) (words : List String) : Effect :=
  match p.find rootCommand words with
  | .ok (c, _) => { tree := host.tree, output := p.help c }
  | .error _ =>
      { tree := host.tree
        notice :=
          "Unknown help topic " ++ quotedWords words ++ "\n" ++ p.usage rootCommand p.shared }

/-- Whether a shell is to be told descriptions. -/
def isDescribed (host : Host) : Bool :=
  ((host.lookup "JARSCN_COMPLETION_DESCRIPTIONS").bind Value.boolWord?).getD true

/-- Tell a shell how a command line may go on. -/
def runComplete (host : Host) (p : Program) (described : Bool) (words : List String) : Effect :=
  let found := p.complete rootCommand words
  let described := described && isDescribed host
  let line :=
    fun (c : Candidate) => (if described then c.word ++ "\t" ++ c.about else c.word) ++ "\n"
  { tree := host.tree
    output :=
      String.join (found.candidates.map line) ++ ":" ++ toString found.directive.number ++ "\n"
    messages := "Completion ended with directive: " ++ found.directive.name ++ "\n"
    trace := (found.problem.map fun problem => "[Debug] [Error] " ++ problem ++ "\n").getD "" }

/-! ## Command lines -/

/-- Check the number of arguments. -/
def Arity.check (arity : Arity) (path : String) (arguments : List String) : Outcome Unit :=
  match arity, arguments with
  | .atLeast count, arguments =>
      if arguments.length < count then
        .error (.plain ("requires at least " ++ toString count ++ " arg(s), only received " ++
          toString arguments.length))
      else .ok ()
  | .noArguments, word :: _ =>
      .error (.plain ("unknown command " ++ Text.quoted word ++ " for " ++ Text.quoted path))
  | _, _ => .ok ()

/-- Carry out an action. -/
def act (host : Host) (connect : Connect) (p : Program) (a : Arguments) : Action → Effect
  | .analyze => runAnalyze host a
  | .exportGraph => runGraph host connect a
  | .showVersion => runVersion host a
  | .writeSettings => runSettings host a
  | .showHelp => runHelp host p a.rest
  | .script _ => { tree := host.tree }
  | .complete described => runComplete host p described a.rest

/-- Carry out a command on its arguments, and tell whether the log is to be verbose. -/
def runCommand (host : Host) (connect : Connect) (p : Program) (c : Command)
    (arguments : List String) : Effect × Bool :=
  match if c.hidden then .ok { rest := arguments }
    else readArguments (p.allFlags c) {} arguments with
  | .error error => ({ tree := host.tree, failure := some (.plain error.message) }, false)
  | .ok a =>
      let effect : Effect :=
        if a.isOn (p.helpFlag c) then { tree := host.tree, output := p.help c }
        else if c.path.isEmpty && a.isOn p.versionFlag then
          { tree := host.tree, output := p.name ++ " version " ++ p.version ++ "\n" }
        else
          match c.action with
          | none => { tree := host.tree, output := p.help c }
          | some action =>
              match c.arity.check (p.wordsOf c.path) a.rest with
              | .error f => { tree := host.tree, failure := some f }
              | .ok () => act host connect p a action
      (effect, a.isOn Flags.verbose)

/-- The program for a command line. It has the commands with which shells ask only if one of them is
named. -/
def programFor (version : String) (arguments : List String) : Program :=
  let p := program version
  let asked := { p with commands := p.commands ++ requestCommands }
  match asked.find rootCommand arguments with
  | .ok (c, _) => if c.hidden then asked else p
  | .error _ => p

/-- Run a command line. -/
def run (host : Host) (connect : Connect) (arguments : List String) : CommandRun :=
  let p := programFor host.build.version arguments
  let (effect, verbose) : Effect × Bool := match p.find rootCommand arguments with
    | .error f => ({ tree := host.tree, failure := some f }, false)
    | .ok (c, rest) => runCommand host connect p c rest
  { tree := effect.tree
    code := if effect.breakdown.isSome then 2 else if effect.failure.isSome then 1 else 0
    output := effect.output
    notice := effect.notice
    messages := effect.messages ++ ((effect.failure.map (·.report)).getD "") ++
      ((effect.breakdown.map fun text => "panic: " ++ text ++ "\n").getD "")
    log := effect.trace ++ Log.render verbose effect.log }

end JarMetrics.CommandLine
