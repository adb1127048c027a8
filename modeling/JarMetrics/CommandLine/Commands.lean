import JarMetrics.CommandLine.Command
import JarMetrics.Settings.Basic

/-!
# The commands of the program

The commands with their options and their help.
-/

namespace JarMetrics.CommandLine

/-- Lines of a text. -/
def paragraph (lines : List String) : String := "\n".intercalate lines

namespace Flags

/-- The settings that options start from. -/
def standard : Settings := {}

/-- A switch. -/
def switch (name : String) (on : Bool) (usage : String) : Flag :=
  { name, standard := .switch on, usage }

/-- An option with a text. -/
def text (name standard usage : String) : Flag := { name, standard := .text standard, usage }

/-- An option with a number. -/
def number (name : String) (standard : Int) (usage : String) : Flag :=
  { name, standard := .number standard, usage }

/-- An option with a list. -/
def list (name : String) (standard : List String) (usage : String) : Flag :=
  { name, standard := .list standard, usage }

def html : Flag := switch "html" false "Generate HTML report file"
def json : Flag := switch "json" false "Generate JSON report file"
def csv : Flag := switch "csv" false "Generate CSV report file"
def yaml : Flag := switch "yaml" false "Generate YAML report file"
def noOpen : Flag := switch "no-open" false "Don't auto-open HTML in browser"
def output : Flag := { text "output" "" "Output file path" with letter := some 'o' }
def config : Flag := { text "config" "" "Configuration file path" with letter := some 'c' }
def details : Flag := switch "details" standard.details "Include per-class metrics"
def sort : Flag :=
  text "sort" standard.sort "Sort criteria (name|depth|complexity|overrides|fields)"
def top : Flag := number "top" standard.top "Maximum classes listed per archive (0 = all)"
def recursive : Flag :=
  switch "recursive" standard.recursive "Recursively search directories for jars"
def includes : Flag := list "include" standard.includes "Archive entry patterns to analyze"
def excludes : Flag := list "exclude" standard.excludes "Archive entry patterns to skip"
def workers : Flag :=
  number "workers" standard.workers "Concurrent entry decoders (0 = one per CPU)"
def uri : Flag := text "uri" standard.uri "Neo4j connection URI"
def username : Flag := text "username" standard.username "Neo4j username"
def password : Flag := text "password" standard.password "Neo4j password"
def database : Flag := text "database" standard.database "Neo4j database"
def batchSize : Flag := number "batch-size" standard.batchSize "Rows per UNWIND statement"
def clear : Flag := switch "clear" false "Delete the classes of each archive before writing"
def short : Flag := { switch "short" false "Show only version number" with letter := some 's' }
def force : Flag :=
  { switch "force" false "Overwrite existing configuration file" with letter := some 'f' }
def settingsFile : Flag :=
  { text "config" settingsFileName "Configuration file path" with letter := some 'c' }
def noDescriptions : Flag := switch "no-descriptions" false "disable completion descriptions"
def verbose : Flag := { switch "verbose" false "Enable verbose output" with letter := some 'v' }

end Flags

/-- The name of the program. -/
def programName : String := "jarscn"

/-- The program itself. -/
def rootCommand : Command where
  path := []
  use := programName
  short := "A JAR Bytecode Metrics Analyzer"
  long := paragraph [
    "jarscn reads compiled JAR files and reports object-oriented metrics",
    "straight from the class-file bytecode, without source code.",
    "",
    "Metrics:",
    "  • Inheritance depth (maximum and average)",
    "  • ABC metrics (assignments, branches, conditions and magnitude)",
    "  • Overridden methods per class",
    "  • Fields per class"]

/-- Analyze archives. -/
def analyzeCommand : Command where
  path := ["analyze"]
  use := "analyze [jars...] [output.json]"
  short := "Compute bytecode metrics for JAR files"
  long := paragraph [
    "Compute object-oriented metrics from the bytecode of JAR files.",
    "",
    "For every archive jarscn reports:",
    "• Total classes and interfaces",
    "• Maximum and average inheritance depth",
    "• ABC metrics: assignments, branches, conditions and magnitude",
    "• Average overridden methods and fields per class",
    "",
    "Entries that fail to decode are skipped and listed as warnings.",
    "",
    "Examples:",
    "  # Print the text report",
    "  jarscn analyze app.jar",
    "",
    "  # Print the report and also write JSON to a file",
    "  jarscn analyze app.jar metrics.json",
    "",
    "  # Every jar under lib/, with per-class details sorted by ABC magnitude",
    "  jarscn analyze --details --sort complexity --top 20 lib/",
    "",
    "  # Only classes of one package",
    "  jarscn analyze --include 'com/example/**' app.jar",
    "",
    "  # HTML report",
    "  jarscn analyze --html app.jar",
    "",
    "Sort options:",
    "  name        - Sort alphabetically by class name (default)",
    "  depth       - Sort by inheritance depth",
    "  complexity  - Sort by ABC magnitude",
    "  overrides   - Sort by overridden methods",
    "  fields      - Sort by field count"]
  flags := [Flags.html, Flags.json, Flags.csv, Flags.yaml, Flags.noOpen, Flags.output, Flags.config,
    Flags.details, Flags.sort, Flags.top, Flags.recursive, Flags.includes,
    Flags.excludes, Flags.workers]
  arity := .atLeast 1
  action := some .analyze

/-- Export archives to a graph store. -/
def graphCommand : Command where
  path := ["graph"]
  use := "graph [jars...]"
  short := "Export class hierarchies to Neo4j"
  long := paragraph [
    "Analyze JAR files and load their classes into Neo4j.",
    "",
    "Every class becomes a :JvmClass node carrying its metrics, linked to its",
    ":Jar node by IN_JAR. EXTENDS and IMPLEMENTS relationships connect types",
    "declared in the same archive.",
    "",
    "The password is read from --password, the [graph] config section, or the",
    passwordVariable ++ " environment variable, which takes precedence over",
    "the config file. A .env file in the working directory is read first; it",
    "never overrides variables already set.",
    "",
    "Examples:",
    "  jarscn graph app.jar",
    "  jarscn graph --uri neo4j://db:7687 --username neo4j lib/",
    "  jarscn graph --clear --batch-size 1000 app.jar"]
  flags := [Flags.uri, Flags.username, Flags.password, Flags.database, Flags.batchSize, Flags.clear,
    Flags.config, Flags.recursive, Flags.includes, Flags.excludes, Flags.workers]
  arity := .atLeast 1
  action := some .exportGraph

/-- Show the version. -/
def versionCommand : Command where
  path := ["version"]
  use := "version"
  short := "Show version information"
  long := paragraph [
    "Display detailed version information for jarscn.",
    "",
    "Use --short to display only the version number.",
    "",
    "Examples:",
    "  jarscn version",
    "  jarscn version --short"]
  flags := [Flags.short]
  action := some .showVersion

/-- Write a settings file. -/
def settingsCommand : Command where
  path := ["init"]
  use := "init"
  short := "Initialize jarscn configuration file"
  long := paragraph [
    "Initialize a jarscn configuration file in the current directory.",
    "",
    "Creates a .jarscn.toml file with every option and its default value.",
    "jarscn finds the file by walking up from the analyzed path.",
    "",
    "Examples:",
    "  # Create .jarscn.toml in current directory",
    "  jarscn init",
    "",
    "  # Create config file with custom name",
    "  jarscn init --config build/jarscn.toml",
    "",
    "  # Overwrite existing configuration file",
    "  jarscn init --force"]
  flags := [Flags.force, Flags.settingsFile]
  action := some .writeSettings

/-- Show help about a command. -/
def helpCommand : Command where
  path := ["help"]
  use := "help [command]"
  short := "Help about any command"
  long := paragraph [
    "Help provides help for any command in the application.",
    "Simply type jarscn help [path to command] for full details."]
  action := some .showHelp
  hints := .topics

/-- Write completion scripts. -/
def completionCommand : Command where
  path := ["completion"]
  use := "completion"
  short := "Generate the autocompletion script for the specified shell"
  long := paragraph [
    "Generate the autocompletion script for jarscn for the specified shell.",
    "See each sub-command's help for details on how to use the generated script."]
  arity := .noArguments
  hints := .nothing

/-- Write the completion script of a shell. -/
def scriptCommand (shell : String) (long : List String) : Command where
  path := ["completion", shell]
  use := shell
  short := "Generate the autocompletion script for " ++ shell
  long := paragraph long
  flags := [Flags.noDescriptions]
  arity := .noArguments
  tellsFlags := shell != "bash"
  action := some (.script shell)
  hints := .nothing

/-- How scripts are loaded for good. -/
def everySession : String := "To load completions for every new session, execute once:"

/-- How scripts are loaded for once. -/
def thisSession : String := "To load completions in your current shell session:"

/-- What is to be done after a script was put into its place. -/
def newShell : String := "You will need to start a new shell for this setup to take effect."

/-- The commands that write completion scripts. -/
def scriptCommands : List Command := [
  scriptCommand "bash" [
    "Generate the autocompletion script for the bash shell.", "",
    "This script depends on the 'bash-completion' package.",
    "If it is not installed already, you can install it via your OS's package manager.", "",
    thisSession, "", "\tsource <(jarscn completion bash)", "", everySession, "",
    "#### Linux:", "", "\tjarscn completion bash > /etc/bash_completion.d/jarscn", "",
    "#### macOS:", "", "\tjarscn completion bash > $(brew --prefix)/etc/bash_completion.d/jarscn",
    "", newShell],
  scriptCommand "zsh" [
    "Generate the autocompletion script for the zsh shell.", "",
    "If shell completion is not already enabled in your environment you will need",
    "to enable it.  You can execute the following once:", "",
    "\techo \"autoload -U compinit; compinit\" >> ~/.zshrc", "",
    thisSession, "", "\tsource <(jarscn completion zsh)", "", everySession, "",
    "#### Linux:", "", "\tjarscn completion zsh > \"$\x7bfpath[1]\x7d/_jarscn\"", "",
    "#### macOS:", "",
    "\tjarscn completion zsh > $(brew --prefix)/share/zsh/site-functions/_jarscn", "", newShell],
  scriptCommand "fish" [
    "Generate the autocompletion script for the fish shell.", "",
    thisSession, "", "\tjarscn completion fish | source", "", everySession, "",
    "\tjarscn completion fish > ~/.config/fish/completions/jarscn.fish", "", newShell],
  scriptCommand "powershell" [
    "Generate the autocompletion script for powershell.", "",
    thisSession, "", "\tjarscn completion powershell | Out-String | Invoke-Expression", "",
    "To load completions for every new session, add the output of the above command",
    "to your powershell profile."]]

/-- Tell a shell how a command line may go on. -/
def requestCommand (name : String) (described : Bool) : Command where
  path := [name]
  use := name ++ " [command-line]"
  short := "Request shell completion choices for the specified command-line"
  long := ""
  arity := .atLeast 1
  action := some (.complete described)
  hidden := true

/-- The commands with which shells ask. -/
def requestCommands : List Command :=
  [requestCommand "__complete" true, requestCommand "__completeNoDesc" false]

/-- The program with all its commands, in a version. -/
def program (version : String) : Program where
  name := programName
  version := version
  commands := [analyzeCommand, graphCommand, versionCommand, settingsCommand, helpCommand,
    completionCommand] ++ scriptCommands
  shared := [Flags.verbose]

end JarMetrics.CommandLine
