import JarMetrics.CommandLine.Run
import JarMetrics.Tools.Server
import Std.Time.DateTime.Timestamp

/-!
# The program

The outermost layer: it takes down what a run can see of the machine, lets the command line or the
tool server do its work on that, and carries out what comes of it. Called by a name that ends in
`-mcp`, the program is the tool server.
-/

namespace JarMetrics.Outside

/-- The content of a file; a file that cannot be read counts as empty. -/
def readContent (path : String) : IO (List UInt8) := do
  try return (← IO.FS.readBinFile path).toList
  catch _ => return []

/-- Whether there is something at a path. -/
def isThere (path : String) : IO Bool := do return ← ((← IO.currentDir) / path).pathExists

/-- Whether there is a directory at a path. -/
def isDirectory (path : String) : IO Bool := do return ← ((← IO.currentDir) / path).isDir

/-- A directory with everything below it that a run can look for in one: archives and settings
files. Directories that are only linked are left out. -/
partial def readDirectory (path : String) : IO FileNode := do
  let mut entries : List (String × FileNode) := []
  for entry in ← ((← IO.currentDir) / path).readDir do
    let name := entry.fileName
    let inner := Path.join path name
    let linked := (← entry.path.symlinkMetadata).type matches .symlink
    if ← isDirectory inner then
      if !linked then entries := (name, ← readDirectory inner) :: entries
    else if isJarName name || name == settingsFileName then
      entries := (name, .file (← readContent inner) false) :: entries
  return .directory (entries.mergeSort fun a b => a.1 ≤ b.1)

/-- The names that lead to an absolute path. -/
def namesOf (path : String) : List String := (Path.parts path).filter (· != "")

/-- Put down a node unless something is known of its place. -/
def note (tree : FileTree) (path : String) (node : FileNode) : FileTree :=
  if (tree.root.get? (namesOf path)).isSome then tree
  else { tree with root := FileNode.put node (namesOf path) tree.root }

/-- Put down what is at a path or, if nothing is, the last thing on the way to it, and the settings
files on the way. -/
def noteWay (tree : FileTree) (path : String) : IO FileTree := do
  let mut tree := tree
  for way in Settings.upwards (namesOf (Path.absolute tree.here path)).reverse do
    let place := Path.ofParts true way.reverse
    for path in [place, Path.join place settingsFileName] do
      if ← isDirectory path then tree := note tree path (.directory [])
      else if ← isThere path then tree := note tree path (.file (← readContent path) false)
  return tree

/-- Put down the directories among paths with what is below them. -/
def noteDirectories (tree : FileTree) (paths : List String) : IO FileTree := do
  let mut tree := tree
  for path in (paths.map (Path.absolute tree.here)).mergeSort fun a b => a.length ≤ b.length do
    if ← isDirectory path then
      tree := { tree with root := FileNode.put (← readDirectory path) (namesOf path) tree.root }
  return tree

/-- The paths that an argument may name: itself, and the value of an option in it. -/
def mentioned (argument : String) : List String :=
  let cs := argument.toList
  [argument, String.ofList ((cs.dropWhile (· != '=')).drop 1),
    String.ofList (cs.drop 2)].filter (· != "")

/-- Take down what a run with arguments can see of the machine. -/
def survey (arguments : List String) : IO Host := do
  let here := (← IO.currentDir).toString
  let paths := arguments.flatMap mentioned
  let mut tree ← noteDirectories { root := .directory [], here } paths
  for path in paths ++ [".env", settingsFileName] do
    tree ← noteWay tree path
  let mut environment : List (String × String) := []
  for name in ["CI", passwordVariable] do
    if let some value ← IO.getEnv name then environment := (name, value) :: environment
  let seconds := (← Std.Time.Timestamp.now).toSecondsSinceUnixEpoch.val
  return { tree, environment, now := .ofUnix seconds.toNat, toolchain := "4.33.0"
           platform := "linux/amd64" }

/-- Write the files that a run made or changed. -/
def carryOut (before after : FileTree) : IO Unit := do
  for (path, content) in FileTree.changes { before with here := "/" } { after with here := "/" } do
    let path := "/" ++ path
    IO.FS.createDirAll (Path.directory path)
    IO.FS.writeBinFile path ⟨content.toArray⟩

/-- No graph store can be reached from here. -/
def connect : CommandLine.Connect := fun g =>
  .error (.codedBy .graphExport ("cannot reach neo4j at " ++ g.uri) (.plain "no connection"))

/-- Run a command line. -/
def runCommandLine (arguments : List String) : IO UInt32 := do
  let host ← survey arguments
  let run := CommandLine.run host connect arguments
  let (output, messages) := run.streams true
  IO.print output
  carryOut host.tree run.tree
  IO.eprint messages
  return run.code.toUInt32

/-- Take messages, one per line, until there are no more. Every message sees the files as they are
then. -/
partial def serve (server : Tools.Server) (verbose : Bool) (input output : IO.FS.Stream) :
IO Unit := do
  let line ← input.getLine
  if line.isEmpty then return
  let path := match (Json.parse? line).bind fun m =>
    (((m.get "params").get "arguments").get "path").string? with
    | some path => [path]
    | none => []
  let host ← survey (path ++ [server.settingsPath])
  let received := { server with host }.receive line
  IO.eprint (Log.render verbose received.log)
  if let some reply := received.reply then
    output.putStrLn (reply.compact true)
    output.flush
  serve received.server verbose input output

/-- Run the tool server. -/
def runServer (arguments : List String) : IO UInt32 := do
  let host ← survey arguments
  match Tools.start host arguments with
  | .ended messages code =>
      IO.eprint messages
      return code.toUInt32
  | .ready server verbose =>
      IO.eprint (Log.render verbose (Tools.startLog host))
      serve server verbose (← IO.getStdin) (← IO.getStdout)
      return 0

end JarMetrics.Outside

/-- Run the program. -/
def main (arguments : List String) : IO UInt32 := do
  if (JarMetrics.Path.base (← IO.appPath).toString).endsWith "-mcp" then
    JarMetrics.Outside.runServer arguments
  else JarMetrics.Outside.runCommandLine arguments
