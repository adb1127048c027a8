/-!
# The build of the program

What the program says about itself.
-/

namespace JarMetrics

/-- How the program was built. -/
structure Build where
  version : String := "dev"
  commit : String := "unknown"
  date : String := "unknown"
  builtBy : String := "unknown"
  deriving Repr, DecidableEq

namespace Build

/-- All that is known of a build, with the toolchain and the platform it is for. -/
def info (b : Build) (toolchain platform : String) : String :=
  "jarscn " ++ b.version ++ "\nCommit: " ++ b.commit ++ "\nBuilt: " ++ b.date ++
    " by " ++ b.builtBy ++
    "\nGo: " ++ toolchain ++ "\nOS/Arch: " ++ platform

/-- How the program introduces itself to other programs. -/
def userAgent (b : Build) : String := "jarscn/" ++ b.version

end Build

end JarMetrics
