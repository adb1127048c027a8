import JarMetrics.Files.Discovery
import JarMetrics.Request

/-!
# Preparing a request

Before anything is read a request is checked, laid over the settings, checked again, and its
directories are replaced by the archives in them. What `prepare` lets through is within limits.
-/

namespace JarMetrics

/-- What a request is laid over. -/
inductive Layering
  /-- Nothing: settings files are not looked at. -/
  | off
  /-- Settings, where the request leaves a choice open. -/
  | filled
  /-- Settings, where an option was not given. -/
  | given (options : Given)

/-- Why a request is refused. -/
inductive RequestError
  | noPaths
  | noOutput
  | negativeTop
  | negativeWorkers
  | format (name : String)
  | sort (name : String)
  | noAddress
  | negativeBatch
  deriving Repr, DecidableEq

/-- The wording of an error. -/
def RequestError.message : RequestError → String
  | .noPaths => "no input paths specified"
  | .noOutput => "output writer or output path is required"
  | .negativeTop => "top cannot be negative"
  | .negativeWorkers => "workers cannot be negative"
  | .format name => "unsupported output format: " ++ name
  | .sort name => "unsupported sort criteria: " ++ name
  | .noAddress => "neo4j uri is required"
  | .negativeBatch => "batch size cannot be negative"

namespace Request

/-- What is wrong with the names in a request. Empty names leave a choice open. -/
def nameError? (r : Request) : Option RequestError :=
  if !r.format.isEmpty && !Format.isValid r.format then some (.format r.format)
  else if !r.sort.isEmpty && !SortKey.isValid r.sort then some (.sort r.sort)
  else none

/-- The first thing that is wrong with a request. -/
def error? (r : Request) : Option RequestError :=
  if r.paths.isEmpty then some .noPaths
  else if !r.writer && r.outputPath.isEmpty then some .noOutput
  else if r.top < 0 then some .negativeTop
  else if r.workers < 0 then some .negativeWorkers
  else r.nameError?

/-- Refuse a request for an error. -/
def refuse (text : String) : Option RequestError → Outcome Unit
  | some error => .error (.codedBy .invalidInput text (.plain error.message))
  | none => .ok ()

/-- The request that the settings for another one make. -/
def settingsFor (host : Host) (r : Request) : Outcome Request :=
  if r.settingsPath.isEmpty then loadFor host (r.paths.headD "")
  else (load host r.settingsPath).mapError
    (.noted ("failed to load config from " ++ r.settingsPath))

/-- Lay a request over the settings. -/
def layer (host : Host) (layering : Layering) (r : Request) : Outcome Request :=
  match layering with
  | .off => .ok r
  | .filled => (settingsFor host r).map fun base => overlay none base r
  | .given options => (settingsFor host r).map fun base => overlay (some options) base r

end Request

/-- Check that there is a file with the ending of an archive at a path. -/
def FileTree.checkJar (tree : FileTree) (path : String) : Outcome Unit :=
  match tree.fileExists path with
  | .error cause => .error (.fileNotFound path (some cause))
  | .ok false => .error (.coded .invalidInput ("input path is not a file: " ++ path))
  | .ok true =>
      if hasJarEnding path then .ok ()
      else .error (.coded .invalidInput ("input file must be a jar file: " ++ path))

/-- The archives at paths, those in directories included. -/
def FileTree.resolveJars (tree : FileTree) (paths : List String) (recursive : Bool) :
    Outcome (List String) := do
  let files ← tree.collectJars paths recursive
  if files.isEmpty then .error (.coded .invalidInput "no jar files found in the specified paths")
  else do
    files.forM tree.checkJar
    return files

/-- The request that is carried out for a request. -/
def Request.prepare (host : Host) (layering : Layering) (r : Request) : Outcome Request := do
  refuse "invalid request" r.error?
  let final ← (r.layer host layering).mapError (.codedBy .config "failed to load configuration")
  refuse "invalid configuration values" final.nameError?
  let files ← host.tree.resolveJars final.paths (final.recursive.getD true)
  return { final with paths := files }

end JarMetrics
