import JarMetrics.Build
import JarMetrics.Files.Tree
import JarMetrics.Moment

/-!
# The machine around a run

What a run sees of the machine it runs on: the files, the variables of the environment and the time.
-/

namespace JarMetrics

/-- What a run sees of the machine it runs on. -/
structure Host where
  tree : FileTree
  environment : List (String × String) := []
  now : Moment := .ofUnix 0
  /-- Whether messages go to a terminal. -/
  terminal : Bool := false
  /-- The build of the program that runs. -/
  build : Build := {}
  /-- What the program was built with, and what for. -/
  toolchain : String := ""
  platform : String := ""

namespace Host

/-- The value of a variable of the environment; of several the last counts. -/
def lookup (host : Host) (name : String) : Option String :=
  (host.environment.reverse.find? (·.1 == name)).map Prod.snd

/-- Whether somebody is watching. -/
def isInteractive (host : Host) : Bool := host.terminal && !(host.lookup "CI").any (· != "")

/-- Add variables that are not set yet. -/
def addMissing (host : Host) (more : List (String × String)) : Host :=
  { host with
    environment := (more.filter fun (name, _) => (host.lookup name).isNone) ++ host.environment }

end Host

end JarMetrics
