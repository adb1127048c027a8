import JarMetrics.Files.Tree
import JarMetrics.Glob
import JarMetrics.Text.Case

/-!
# Finding archives

A directory stands for the archives in it, or at any depth below it. Hidden directories below it are
passed over. Files that are named directly are taken as they are.
-/

namespace JarMetrics

/-- Whether the name of a file is that of an archive, in any case. -/
def isJarName (name : String) : Bool := (Text.lower name).endsWith ".jar"

/-- Whether a path has the ending of archives, in any case. -/
def hasJarEnding (path : String) : Bool := Text.equalFold ".jar" (Path.ending path)

/-- The pattern for archives in a directory, or at any depth below it. -/
def jarPattern (recursive : Bool) : String := if recursive then "**/*.jar" else "*.jar"

/-- Whether a file is an archive by its path from the searched directory on, in any case. -/
def isJarPath (recursive : Bool) (path : String) : Bool :=
  Glob.isMatch (jarPattern recursive) (Text.lower path)

mutual

/-- The archives that a node stands for, below a directory. The path of the node from that directory
on is `inner`. -/
def jarsAt (recursive : Bool) (path inner name : String) : FileNode → List String
  | .directory entries =>
      if recursive && !name.startsWith "." then
        jarsAmong recursive path (inner ++ "/") entries
      else []
  | _ => if isJarPath recursive inner then [path] else []

/-- The archives among the entries of a directory. Inner paths of entries start with `front`. -/
def jarsAmong (recursive : Bool) (path front : String) : List (String × FileNode) → List String
  | [] => []
  | (name, node) :: rest =>
      jarsAt recursive (Path.join path name) (front ++ name) name node ++
        jarsAmong recursive path front rest

end

namespace FileTree

/-- The archives in a directory, in the order of their paths. A directory that is reached through a
link is not entered. -/
def jarsIn (tree : FileTree) (recursive : Bool) (path : String) : List String :=
  match tree.status false path with
  | .ok (.directory entries) => (jarsAmong recursive path "" entries).mergeSort
  | _ => []

/-- The archives that one path stands for. -/
def jarsFor (tree : FileTree) (recursive : Bool) (path : String) : Outcome (List String) :=
  match tree.status true path with
  | .error error => .error (.fileNotFound path (some (error.failure "stat" path)))
  | .ok node => .ok (if node.isDirectory then tree.jarsIn recursive path else [path])

/-- The archives that paths stand for, each once, in the order of first mention. -/
def collectJars (tree : FileTree) (paths : List String) (recursive : Bool) :
    Outcome (List String) := do
  return (← paths.mapM (tree.jarsFor recursive)).flatten.eraseDups

/-- Whether a plain file exists at a path. -/
def fileExists (tree : FileTree) (path : String) : Outcome Bool :=
  match tree.status true path with
  | .ok node => .ok node.isFile
  | .error .notFound => .ok false
  | .error error => .error (error.failure "stat" path)

/-- Check that something exists at every path. -/
def checkPaths (tree : FileTree) (paths : List String) : Outcome Unit :=
  paths.forM fun path =>
    match tree.status true path with
    | .ok _ => .ok ()
    | .error .notFound =>
        .error (.fileNotFound path (some (FileError.failure "stat" path .notFound)))
    | .error error =>
        .error (.codedBy .invalidInput ("cannot access path: " ++ path) (error.failure "stat" path))

end FileTree

end JarMetrics
