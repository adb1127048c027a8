import JarMetrics.Files.Tree

/-!
# Opening pages in a browser

Every platform has commands that open an address; the first one that can be found is taken.
-/

namespace JarMetrics.Browser

/-- The commands of a platform with their first arguments, in the order in which they are tried. -/
def openers? (platform : String) : Option (List (String × List String)) :=
  match platform with
  | "darwin" => some [("open", [])]
  | "linux" => some [("xdg-open", []), ("gnome-open", []), ("kde-open", []), ("wslview", [])]
  | "windows" => some [("rundll32", ["url.dll,FileProtocolHandler"])]
  | _ => none

/-- A command that opens an address. -/
structure Command where
  name : String
  arguments : List String
  deriving Repr, DecidableEq

/-- The command for an address, and the names that were tried. -/
def command (platform address : String) (available : String → Bool) :
    Outcome Command × List String :=
  match openers? platform with
  | none => (.error (.plain ("unsupported platform: " ++ platform)), [])
  | some openers =>
      let missed := (openers.takeWhile fun opener => !available opener.1).map (·.1)
      match openers.find? fun opener => available opener.1 with
      | some (name, arguments) => (.ok ⟨name, arguments ++ [address]⟩, missed ++ [name])
      | none => (.error (.plain ("no suitable browser opener found for " ++ platform)), missed)

/-- Where a program is found among the directories of a search path. -/
def find? (tree : FileTree) (searchPath name : String) : Option (String × List UInt8) :=
  (searchPath.splitOn ":").findSome? fun directory =>
    let path := Path.join (if directory.isEmpty then "." else directory) name
    match tree.status true path with
    | .ok (.file content true) => if Path.isAbsolute path then some (path, content) else none
    | _ => none

/-- Open an address on a machine with a search path. A program that is found must be one that can be
run: here, a script with a first line that names its interpreter. -/
def start (tree : FileTree) (platform searchPath address : String) : Outcome Unit := do
  let found := fun name => find? tree searchPath name
  let chosen ← (command platform address fun name => (found name).isSome).1
  match found chosen.name with
  | some (path, content) =>
      if content.take 2 == "#!".toUTF8.toList then .ok ()
      else
        .error (.noted "failed to open browser" (FileError.failure "fork/exec" path .notExecutable))
  | none => .ok ()

end JarMetrics.Browser
