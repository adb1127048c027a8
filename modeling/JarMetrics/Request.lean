import JarMetrics.Files.Path
import JarMetrics.Given
import JarMetrics.Settings.Load

/-!
# Requests

What a run is asked for. A request that comes from settings is the base; what was asked for directly
is laid over it by `Request.overlay`. Where it is known which options were given, only those count;
otherwise everything that is not empty does.
-/

namespace JarMetrics

/-- A request to analyze archives. Empty texts and lists, and a limit or a count of 0, leave a
choice open. -/
structure Request where
  paths : List String := []
  format : String := ""
  /-- Whether there is an output to which a report without a path goes. -/
  writer : Bool := false
  outputPath : String := ""
  outputDirectory : String := ""
  noOpen : Bool := false
  details : Bool := false
  /-- Where a JSON report goes besides the report itself. -/
  jsonPath : String := ""
  sort : String := ""
  top : Int := 0
  settingsPath : String := ""
  recursive : Option Bool := none
  includes : List String := []
  excludes : List String := []
  workers : Int := 0
  deriving Repr, DecidableEq

namespace Request

/-- The request that settings make. -/
def ofSettings (s : Settings) : Request where
  format := s.format
  details := s.details
  sort := s.sort
  top := s.top
  outputDirectory := s.directory
  recursive := some s.recursive
  includes := s.includes
  excludes := s.excludes
  workers := s.workers

/-- The request that asks for nothing in particular. -/
def standard : Request := ofSettings {}

/-- Lay over a request what was given by options. -/
def withGiven (given : Given) (base request : Request) : Request :=
  { base with
    format := if ["json", "yaml", "csv", "html"].any given.has then request.format else base.format
    details := given.pick "details" base.details request.details
    sort := given.pick "sort" base.sort request.sort
    top := given.pick "top" base.top request.top
    includes := given.pickFilled "include" base.includes request.includes
    excludes := given.pickFilled "exclude" base.excludes request.excludes
    workers := given.pick "workers" base.workers request.workers
    recursive := given.pickSome "recursive" base.recursive request.recursive }

/-- Lay over a request what another one does not leave open. -/
def withFilled (base request : Request) : Request :=
  { base with
    format := FileSettings.orElse request.format base.format
    details := request.details || base.details
    sort := FileSettings.orElse request.sort base.sort
    top := if 0 < request.top then request.top else base.top
    includes := if request.includes.isEmpty then base.includes else request.includes
    excludes := if request.excludes.isEmpty then base.excludes else request.excludes
    workers := if 0 < request.workers then request.workers else base.workers
    recursive := request.recursive.or base.recursive }

/-- Where a report goes: into the directory for reports, unless its path was given or starts at the
root. -/
def placed (given : Option Given) (directory path : String) : String :=
  if !path.isEmpty && !directory.isEmpty && !given.any (·.has "output") &&
    !Path.isAbsolute path then
    Path.join directory path
  else path

/-- Lay a request over the one that settings make. Paths and outputs are always those of the
request. -/
def overlay (given : Option Given) (base request : Request) : Request :=
  let merged := match given with
    | some given => withGiven given base request
    | none => withFilled base request
  { merged with
    paths := request.paths
    writer := request.writer
    noOpen := request.noOpen
    jsonPath := request.jsonPath
    settingsPath := request.settingsPath
    outputPath := placed given base.outputDirectory request.outputPath }

/-- Lay one request over another where either may be absent. -/
def overlay? (given : Option Given) : Option Request → Option Request → Option Request
  | some base, some request => some (overlay given base request)
  | base, request => base.or request

/-- The request that a named settings file makes. -/
def load (host : Host) (path : String) : Outcome Request :=
  ((Settings.loadNamed host path).map ofSettings).mapError
    (.noted ("failed to load config from " ++ path))

/-- The request that the settings nearest to a target make. -/
def loadFor (host : Host) (target : String) : Outcome Request :=
  (Settings.loadFor host target).map ofSettings

/-- The request that the settings around the run make, or the standard one if they are not in
order. -/
def loadStandard (host : Host) : Request :=
  match loadFor host "." with
  | .ok request => request
  | .error _ => standard

end Request

/-- A request to export archives to a graph store. -/
structure GraphRequest where
  jar : Request := {}
  uri : String := ""
  username : String := ""
  password : String := ""
  database : String := ""
  batchSize : Int := 0
  /-- Whether what the store holds of an archive is removed first. -/
  clear : Bool := false
  deriving Repr, DecidableEq

namespace GraphRequest

/-- The request that settings make. -/
def ofSettings (s : Settings) : GraphRequest where
  jar := .ofSettings s
  uri := s.uri
  username := s.username
  password := s.password
  database := s.database
  batchSize := s.batchSize

/-- The request that asks for nothing in particular. -/
def standard : GraphRequest := ofSettings {}

/-- Lay a request over the one that settings make. -/
def overlay (given : Option Given) (base request : GraphRequest) : GraphRequest :=
  let choose := fun name (old new : String) => match given with
    | some given => given.pick name old new
    | none => FileSettings.orElse new old
  { jar := .overlay given base.jar request.jar
    uri := choose "uri" base.uri request.uri
    username := choose "username" base.username request.username
    password := choose "password" base.password request.password
    database := choose "database" base.database request.database
    batchSize := match given with
      | some given => given.pick "batch-size" base.batchSize request.batchSize
      | none => if 0 < request.batchSize then request.batchSize else base.batchSize
    clear := request.clear }

/-- Lay one request over another where either may be absent. -/
def overlay? (given : Option Given) :
    Option GraphRequest → Option GraphRequest → Option GraphRequest
  | some base, some request => some (overlay given base request)
  | base, request => base.or request

/-- The request that a named settings file makes, or without a name the settings nearest to a
target. -/
def load (host : Host) (path target : String) : Outcome GraphRequest :=
  if path.isEmpty then (Settings.loadFor host target).map ofSettings
  else
    ((Settings.loadNamed host path).map ofSettings).mapError
      (.noted ("failed to load config from " ++ path))

end GraphRequest

end JarMetrics
