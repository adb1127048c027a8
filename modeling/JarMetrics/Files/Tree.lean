import JarMetrics.Failure
import JarMetrics.Files.Path

/-!
# File trees

All files that a run can see and change, as one value. Paths are followed part by part, through
symbolic links, at most forty of them.
-/

namespace JarMetrics

/-- A file, a directory or a symbolic link. -/
inductive FileNode
  | file (content : List UInt8) (executable : Bool)
  | directory (entries : List (String × FileNode))
  | link (target : String)
  deriving Inhabited

/-- Why a file operation fails. -/
inductive FileError
  | notFound
  | notDirectory
  | isDirectory
  | alreadyThere
  | tooManyLinks
  | notExecutable
  deriving Repr, DecidableEq

namespace FileError

/-- The wording of an error. -/
def message : FileError → String
  | .notFound => "no such file or directory"
  | .notDirectory => "not a directory"
  | .isDirectory => "is a directory"
  | .alreadyThere => "file exists"
  | .tooManyLinks => "too many levels of symbolic links"
  | .notExecutable => "exec format error"

/-- The failure of an operation on a path. -/
def failure (operation path : String) (error : FileError) : Failure :=
  let text := operation ++ " " ++ path ++ ": " ++ error.message
  if error = .notFound then .missing text else .plain text

end FileError

namespace FileNode

/-- Whether the node is a directory. -/
def isDirectory : FileNode → Bool
  | .directory _ => true
  | _ => false

/-- Whether the node is a plain file. -/
def isFile : FileNode → Bool
  | .file _ _ => true
  | _ => false

/-- The entry of a directory with a name. -/
def child? (name : String) : FileNode → Option FileNode
  | .directory entries => (entries.find? (·.1 == name)).map Prod.snd
  | _ => none

/-- The node at a path of names. -/
def get? : FileNode → List String → Option FileNode
  | node, [] => some node
  | node, name :: rest => (node.child? name).bind fun child => child.get? rest

/-- Put a node at a path of names; directories on the way are made as needed. -/
def put (new : FileNode) : List String → FileNode → FileNode
  | [], _ => new
  | name :: rest, node =>
      let entries := match node with
        | .directory entries => entries
        | _ => []
      match entries.find? (·.1 == name) with
      | some (_, child) =>
          .directory (entries.map fun (n, old) =>
            if n == name then (n, put new rest child) else (n, old))
      | none => .directory (entries ++ [(name, put new rest (.directory []))])

mutual

/-- The plain files below a node with their paths, each path a list of names. -/
def files (path : List String) : FileNode → List (List String × List UInt8)
  | .file content _ => [(path, content)]
  | .directory entries => entryFiles path entries
  | .link _ => []

/-- The plain files below the entries of a directory. -/
def entryFiles (path : List String) : List (String × FileNode) → List (List String × List UInt8)
  | [] => []
  | (name, node) :: rest => node.files (path ++ [name]) ++ entryFiles path rest

end

end FileNode

/-- A tree of files and the directory in which a run stands. -/
structure FileTree where
  root : FileNode
  here : String

/-- Where a path leads: the names from the root on, and what is there. -/
structure Place where
  path : List String
  node : Option FileNode

namespace FileTree

/-- Follow the parts of a path from a directory on. The last part need not exist; if it is a link,
`follow` says whether it is followed. -/
def walk (root : FileNode) (follow : Bool) (links : Nat) (here todo : List String) :
    Except FileError Place :=
  match todo with
  | [] => .ok ⟨here, root.get? here⟩
  | name :: rest =>
      match root.get? here with
      | some (.directory entries) =>
          if name = "" ∨ name = "." then walk root follow links here rest
          else if name = ".." then walk root follow links here.dropLast rest
          else
            match (FileNode.directory entries).child? name with
            | none => if rest.isEmpty then .ok ⟨here ++ [name], none⟩ else .error .notFound
            | some (.link target) =>
                if rest.isEmpty && !follow then .ok ⟨here ++ [name], some (.link target)⟩
                else if target.isEmpty then .error .notFound
                else
                  match links with
                  | 0 => .error .tooManyLinks
                  | links + 1 =>
                      walk root follow links (if Path.isAbsolute target then [] else here)
                        (Path.parts target ++ rest)
            | some _ => walk root follow links (here ++ [name]) rest
      | some _ => .error .notDirectory
      | none => .error .notFound
  termination_by (links, todo.length)

/-- The names from the root to where a run stands. -/
def hereNames (tree : FileTree) : List String := (Path.parts tree.here).filter (· != "")

/-- Where a path leads. -/
def locate (tree : FileTree) (follow : Bool) (path : String) : Except FileError Place :=
  if path.isEmpty then .error .notFound
  else walk tree.root follow 40 (if Path.isAbsolute path then [] else tree.hereNames)
    (Path.parts path)

/-- What is at a path. -/
def status (tree : FileTree) (follow : Bool) (path : String) : Except FileError FileNode := do
  match (← tree.locate follow path).node with
  | some node => .ok node
  | none => .error .notFound

/-- Whether there is something at a path. -/
def present (tree : FileTree) (path : String) : Bool := (tree.status true path).isOk

/-- The content of the file at a path. -/
def read (tree : FileTree) (path : String) : Outcome (List UInt8) :=
  match tree.status true path with
  | .ok (.file content _) => .ok content
  | .ok _ => .error (FileError.failure "read" path .isDirectory)
  | .error error => .error (error.failure "open" path)

/-- Put a file at a path, in place of what it held before. A path that ends in a slash names no
file. -/
def store (tree : FileTree) (path : String) (content : List UInt8) : Except FileError FileTree := do
  let place ← tree.locate true path
  match place.node with
  | some (.directory _) => .error .isDirectory
  | some (.file _ executable) =>
      .ok { tree with root := FileNode.put (.file content executable) place.path tree.root }
  | _ => .ok { tree with root := FileNode.put (.file content false) place.path tree.root }

/-- Put a file at a path that may not end in a slash. -/
def write (tree : FileTree) (path : String) (content : List UInt8) : Outcome FileTree :=
  let stored :=
    if (Path.parts path).getLast? == some "" && !path.isEmpty then do
      let _ ← tree.locate true (String.ofList (path.toList.reverse.dropWhile (· == '/')).reverse)
      .error .isDirectory
    else tree.store path content
  stored.mapError (FileError.failure "open" path)

/-- Make one directory. -/
def makeDirectory (tree : FileTree) (path : String) : Except FileError FileTree := do
  let place ← tree.locate false (String.ofList (path.toList.reverse.dropWhile (· == '/')).reverse)
  match place.node with
  | some _ => .error .alreadyThere
  | none => .ok { tree with root := FileNode.put (.directory []) place.path tree.root }

/-- The part of a path up to the slash before its last name, with that slash. -/
def parent (path : List Char) : List Char :=
  ((path.reverse.dropWhile (· == '/')).dropWhile (· != '/')).reverse

theorem not_of_dropWhile_eq_cons {p : Char → Bool} {l rest : List Char} {c : Char}
    (h : l.dropWhile p = c :: rest) : p c = false := by
  induction l with
  | nil => simp at h
  | cons a l ih =>
      by_cases ha : p a
      · exact ih (by simpa [List.dropWhile, ha] using h)
      · simp only [List.dropWhile, ha] at h
        injection h with hac
        simpa [hac] using ha

theorem length_dropWhile_le (p : Char → Bool) (l : List Char) : (l.dropWhile p).length ≤ l.length :=
  (List.dropWhile_sublist p).length_le

theorem parent_length_lt {path : List Char} (h : parent path ≠ []) :
    (parent path).length < path.length := by
  unfold parent at h ⊢
  cases hr : path.reverse.dropWhile (· == '/') with
  | nil => simp [hr] at h
  | cons c rest =>
      have hc : (c == '/') = false := not_of_dropWhile_eq_cons (p := (· == '/')) hr
      have h1 : ((c :: rest).dropWhile (· != '/')).length ≤ rest.length := by
        simpa [List.dropWhile, bne, hc] using length_dropWhile_le (· != '/') rest
      have h2 : (c :: rest).length ≤ path.length := by
        have := length_dropWhile_le (· == '/') path.reverse
        rw [hr] at this
        simpa using this
      simp only [List.length_reverse, List.length_cons] at h1 h2 ⊢
      omega

/-- Make a directory and those above it that do not exist. -/
def makeDirectoriesAt (tree : FileTree) (path : List Char) : Outcome FileTree :=
  let text := String.ofList path
  match tree.status true text with
  | .ok node =>
      if node.isDirectory then .ok tree else .error (FileError.failure "mkdir" text .notDirectory)
  | .error _ =>
      if _top : parent path = [] then finish tree text
      else do finish (← makeDirectoriesAt tree (parent path)) text
  termination_by path.length
  decreasing_by exact parent_length_lt _top
where
  /-- Make the last directory; it is no failure if it has come into being already. -/
  finish (tree : FileTree) (text : String) : Outcome FileTree :=
    match tree.makeDirectory text with
    | .ok tree => .ok tree
    | .error error =>
        match tree.status false text with
        | .ok (.directory _) => .ok tree
        | _ => .error (error.failure "mkdir" text)

/-- Make a directory and those above it that do not exist. -/
def makeDirectories (tree : FileTree) (path : String) : Outcome FileTree :=
  makeDirectoriesAt tree path.toList

/-- The files below where a run stands that are new or have another content than before. -/
def changes (before after : FileTree) : List (String × List UInt8) :=
  let files := fun (tree : FileTree) => ((tree.root.get? tree.hereNames).map (·.files [])).getD []
  let old := files before
  ((files after).filter fun file => !old.contains file).map fun (path, content) =>
    ("/".intercalate path, content)

end FileTree

end JarMetrics
