/-!
# Paths

Paths as texts with slashes. `Path.clean` is the shortest path with the same meaning that can be had
without looking at the files: `a/./b//../c` becomes `a/c`.
-/

namespace JarMetrics.Path

/-- The parts between slashes. -/
def parts (path : String) : List String := (path.toList.splitOn '/').map String.ofList

/-- Whether a path starts at the root. -/
def isAbsolute (path : String) : Bool := path.toList.head? == some '/'

/-- Parts without empty ones, single dots and steps back where there is something to step back from.
The parts so far are in reverse. -/
def reduce (rooted : Bool) : List String → List String → List String
  | done, [] => done.reverse
  | done, part :: rest =>
      if part == "" || part == "." then reduce rooted done rest
      else if part == ".." then
        match done with
        | [] => if rooted then reduce rooted [] rest else reduce rooted [".."] rest
        | last :: before =>
            if last == ".." then reduce rooted (".." :: last :: before) rest
            else reduce rooted before rest
      else reduce rooted (part :: done) rest

/-- Parts with slashes between. -/
def ofParts (rooted : Bool) (parts : List String) : String :=
  if rooted then "/" ++ "/".intercalate parts
  else if parts.isEmpty then "." else "/".intercalate parts

/-- The shortest path with the same meaning. -/
def clean (path : String) : String :=
  ofParts (isAbsolute path) (reduce (isAbsolute path) [] (parts path))

/-- One path after the other. -/
def join (first second : String) : String :=
  if first.isEmpty then (if second.isEmpty then "" else clean second)
  else if second.isEmpty then clean first
  else clean (first ++ "/" ++ second)

/-- The path of what holds a path. -/
def directory (path : String) : String :=
  let upTo := (path.toList.reverse.dropWhile (· != '/')).reverse
  clean (String.ofList upTo)

/-- The last part of a path. -/
def base (path : String) : String :=
  if path.isEmpty then "."
  else
    let trimmed := path.toList.reverse.dropWhile (· == '/')
    if trimmed.isEmpty then "/" else String.ofList (trimmed.takeWhile (· != '/')).reverse

/-- The ending of the last part from its last dot on. -/
def ending (path : String) : String :=
  let last := path.toList.reverse.takeWhile (· != '/')
  if last.contains '.' then "." ++ String.ofList (last.takeWhile (· != '.')).reverse else ""

/-- The path from the root, for someone who stands at `here`. -/
def absolute (here path : String) : String := if isAbsolute path then clean path else join here path

end JarMetrics.Path
