import JarMetrics.Proofs.FileWalk
import JarMetrics.Proofs.JarNames
import JarMetrics.Proofs.Utf8

/-!
# The archives that paths stand for

`IsArchive` says which files below a directory a search is for, and `mem_jarsAmong_iff` that it
finds exactly these, in a tree without links. `collectJars_exact` is the statement about a list of
paths: what they stand for is found, in the order of first mention, unless one of them leads
nowhere.
-/

namespace JarMetrics

/-- An archive below a directory, by the names that lead to it: a file with a name as archives have
it, and no hidden directory on the way. A search that is not recursive is for those in the directory
itself. -/
structure IsArchive (recursive : Bool) (directory : FileNode) (names : List String)
    (node : FileNode) : Prop where
  there : directory.get? names = some node
  file : node.isDirectory = false
  named : ∃ name, names.getLast? = some name ∧ EndsInJar name
  shown : ∀ folder ∈ names.dropLast, folder.startsWith "." = false
  near : recursive = false → names.length = 1

namespace IsArchive

variable {recursive : Bool} {entries : List (String × FileNode)} {name : String}
  {names : List String} {node below : FileNode}

theorem singleton_iff (entry : (FileNode.directory entries).child? name = some node) :
    IsArchive recursive (.directory entries) [name] below ↔
      node = below ∧ node.isDirectory = false ∧ EndsInJar name := by
  constructor
  · intro archive
    obtain ⟨child, found, same⟩ := FileNode.get?_cons_eq_some_iff.mp archive.there
    obtain rfl : node = child := by simpa [entry] using found
    obtain rfl : node = below := by simpa [FileNode.get?] using same
    exact ⟨rfl, archive.file, by simpa using archive.named⟩
  · rintro ⟨rfl, file, ending⟩
    exact ⟨FileNode.get?_cons_eq_some_iff.mpr ⟨node, entry, rfl⟩, file,
      ⟨name, rfl, ending⟩, by simp, by simp⟩

/-- Below an entry, it is an archive of that entry, which a search has to enter. -/
theorem cons_iff (entry : (FileNode.directory entries).child? name = some node)
    (deep : names ≠ []) :
    IsArchive recursive (.directory entries) (name :: names) below ↔
      recursive = true ∧ name.startsWith "." = false ∧ IsArchive recursive node names below := by
  obtain ⟨next, rest, rfl⟩ := List.exists_cons_of_ne_nil deep
  constructor
  · intro archive
    obtain ⟨child, found, inside⟩ := FileNode.get?_cons_eq_some_iff.mp archive.there
    obtain rfl : node = child := by simpa [entry] using found
    have shown := archive.shown
    rw [List.dropLast_cons_cons] at shown
    have entered : recursive = true := by
      cases recursive with
      | true => rfl
      | false => simpa using archive.near rfl
    exact ⟨entered, shown name List.mem_cons_self, inside, archive.file,
      by simpa using archive.named,
      fun folder member => shown folder (List.mem_cons_of_mem name member), by simp [entered]⟩
  · rintro ⟨entered, openName, archive⟩
    refine ⟨FileNode.get?_cons_eq_some_iff.mpr ⟨node, entry, archive.there⟩, archive.file,
      by simpa using archive.named,
      ?_, by simp [entered]⟩
    rw [List.dropLast_cons_cons]
    intro folder member
    rcases List.mem_cons.mp member with rfl | later
    · exact openName
    · exact archive.shown folder later

end IsArchive

/-! ## Searching a directory -/

/-- How the inner paths of entries start: with nothing in the searched directory, and behind a slash
below it. -/
def InnerFront (recursive : Bool) (front : String) : Prop :=
  front = "" ∨ recursive = true ∧ ∃ above, front = above ++ "/"

theorem isJarPath_inner_iff {recursive : Bool} {front name : String}
    (start : InnerFront recursive front) (plain : '/' ∉ name.toList) :
    isJarPath recursive (front ++ name) = true ↔ EndsInJar name := by
  rcases start with rfl | ⟨rfl, above, rfl⟩
  · rw [String.empty_append]
    exact isJarPath_iff fun _ => plain
  · rw [isJarPath_iff (by simp), endsInJar_append]

theorem mem_jarsAmong {recursive : Bool} {path front p : String}
    {entries : List (String × FileNode)} :
    p ∈ jarsAmong recursive path front entries ↔
      ∃ e ∈ entries, p ∈ jarsAt recursive (Path.join path e.1) (front ++ e.1) e.1 e.2 := by
  induction entries with
  | nil => simp [jarsAmong]
  | cons e entries ih =>
    obtain ⟨name, node⟩ := e
    simp [jarsAmong, ih]

section Entries

variable {recursive : Bool} {entries : List (String × FileNode)} {name path front p : String}

theorem mem_jarsAt_file {content : List UInt8} {executable : Bool}
    (entry : (FileNode.directory entries).child? name = some (.file content executable))
    (start : InnerFront recursive front) (plain : '/' ∉ name.toList) :
    p ∈ jarsAt recursive path (front ++ name) name (.file content executable) ↔
      ∃ names node, IsArchive recursive (.directory entries) (name :: names) node ∧
        p = names.foldl Path.join path := by
  have atFile : p ∈ jarsAt recursive path (front ++ name) name (.file content executable) ↔
      EndsInJar name ∧ p = path := by
    rw [← isJarPath_inner_iff start plain]
    unfold jarsAt
    split
    next ending => simp [ending]
    next other => simp [other]
  rw [atFile]
  constructor
  · rintro ⟨ending, rfl⟩
    exact ⟨[], _, (IsArchive.singleton_iff entry).mpr ⟨rfl, rfl, ending⟩, rfl⟩
  · rintro ⟨names, node, archive, rfl⟩
    cases names with
    | nil => exact ⟨((IsArchive.singleton_iff entry).mp archive).2.2, rfl⟩
    | cons next rest =>
      -- There is nothing below a file.
      have inside := ((IsArchive.cons_iff entry (List.cons_ne_nil next rest)).mp archive).2.2.there
      simp [FileNode.get?, FileNode.child?] at inside

theorem mem_jarsAt_directory {inner : List (String × FileNode)}
    (entry : (FileNode.directory entries).child? name = some (.directory inner))
    (inside : recursive = true →
      (p ∈ jarsAmong recursive path (front ++ name ++ "/") inner ↔ ∃ names node,
        IsArchive recursive (.directory inner) names node ∧ p = names.foldl Path.join path)) :
    p ∈ jarsAt recursive path (front ++ name) name (.directory inner) ↔
      ∃ names node, IsArchive recursive (.directory entries) (name :: names) node ∧
        p = names.foldl Path.join path := by
  have atDirectory : p ∈ jarsAt recursive path (front ++ name) name (.directory inner) ↔
      (recursive = true ∧ name.startsWith "." = false) ∧
      p ∈ jarsAmong recursive path (front ++ name ++ "/") inner := by
    rw [jarsAt]
    split <;> simp_all
  rw [atDirectory]
  constructor
  · rintro ⟨⟨entered, shown⟩, found⟩
    obtain ⟨names, node, archive, rfl⟩ := (inside entered).mp found
    have deep : names ≠ [] := by
      rintro rfl
      simpa using archive.named
    exact ⟨names, node, (IsArchive.cons_iff entry deep).mpr ⟨entered, shown, archive⟩, rfl⟩
  · rintro ⟨names, node, archive, rfl⟩
    cases names with
    | nil =>
      exact absurd ((IsArchive.singleton_iff entry).mp archive).2.1 (by simp [FileNode.isDirectory])
    | cons next rest =>
      obtain ⟨entered, shown, archive⟩ :=
        (IsArchive.cons_iff entry (List.cons_ne_nil next rest)).mp archive
      exact ⟨⟨entered, shown⟩, (inside entered).mpr ⟨_, node, archive, rfl⟩⟩

end Entries

/-- A search finds the archives below a directory, each under the path of the directory with the
names behind it. -/
theorem mem_jarsAmong_iff {recursive : Bool} {directory : FileNode} (plain : directory.Plain)
    {entries : List (String × FileNode)} (opens : directory = .directory entries)
    {path front p : String} (start : InnerFront recursive front) :
    p ∈ jarsAmong recursive path front entries ↔
      ∃ names node, IsArchive recursive directory names node ∧ p = names.foldl Path.join path := by
  -- By induction on the tree. The hypothesis is for the path and the front with which an inner
  -- directory is searched.
  induction plain generalizing entries path front with
  | file => cases opens
  | @directory all named distinct below ih =>
    obtain rfl : all = entries := by simpa using opens
    have atEntry {name : String} {node : FileNode} (member : (name, node) ∈ all) :
        p ∈ jarsAt recursive (Path.join path name) (front ++ name) name node ↔
          ∃ names node, IsArchive recursive (.directory all) (name :: names) node ∧
            p = names.foldl Path.join (Path.join path name) := by
      have entry := FileNode.child?_of_mem distinct member
      cases nodeEq : node with
      | file => exact mem_jarsAt_file (nodeEq ▸ entry) start (named _ member).2.2.2
      | directory inner =>
        refine mem_jarsAt_directory (nodeEq ▸ entry) fun entered => ?_
        rw [← nodeEq]
        exact ih _ member nodeEq (.inr ⟨entered, front ++ name, rfl⟩)
      | link =>
        have linkless := below _ member
        rw [nodeEq] at linkless
        cases linkless
    rw [mem_jarsAmong]
    constructor
    · rintro ⟨⟨name, node⟩, member, found⟩
      obtain ⟨names, node, archive, rfl⟩ := (atEntry member).mp found
      exact ⟨name :: names, node, archive, rfl⟩
    · rintro ⟨names, node, archive, rfl⟩
      cases names with
      | nil => simpa using archive.named
      | cons name names =>
        obtain ⟨child, entry, -⟩ := FileNode.get?_cons_eq_some_iff.mp archive.there
        have member := FileNode.mem_of_child? entry
        exact ⟨(name, child), member, (atEntry member).mpr ⟨names, node, archive, rfl⟩⟩

/-- A file that was found below a directory passes the check of single files. -/
theorem hasJarEnding_of_isArchive {tree : FileTree} (plain : tree.root.Plain) {recursive : Bool}
    {path : String} {directory node : FileNode} (there : tree.status true path = .ok directory)
    {names : List String} (archive : IsArchive recursive directory names node) :
    hasJarEnding (names.foldl Path.join path) = true := by
  obtain ⟨name, last, ending⟩ := archive.named
  obtain ⟨front, rfl⟩ := List.getLast?_eq_some_iff.mp last
  obtain ⟨entries, atFront, -⟩ := FileNode.get?_concat_eq_some_iff.mp archive.there
  have proper := ((FileTree.plain_of_status plain there).get? archive.there).1 name (by simp)
  obtain ⟨_, located⟩ :=
    FileTree.status_eq_ok_iff.mp (FileTree.status_foldl_join plain there atFront)
  rw [hasJarEnding_iff, List.foldl_append, List.foldl_cons, List.foldl_nil]
  rcases Path.join_eq_append (FileTree.ne_empty_of_locate located) proper with same | ⟨above, same⟩
  · rw [same]
    exact ending
  · rw [same, endsInJar_append]
    exact ending

/-! ## Paths -/

namespace FileTree

/-- What a directory stands for: the archives below it in the order of their bytes. Their paths lead
to them and pass the check of single files. -/
structure Lists (tree : FileTree) (recursive : Bool) (path : String)
    (entries : List (String × FileNode)) (found : List String) : Prop where
  complete (p : String) : p ∈ found ↔
    ∃ names node, IsArchive recursive (.directory entries) names node ∧
      p = names.foldl Path.join path
  ordered : found.Pairwise fun p q => Utf8.encode p ≤ Utf8.encode q
  leads (names : List String) (node : FileNode) :
  IsArchive recursive (.directory entries) names node →
    tree.status true (names.foldl Path.join path) = .ok node
  valid : ∀ p ∈ found, hasJarEnding p = true

/-- What a path stands for: itself, or what is in a directory. -/
inductive StandsFor (tree : FileTree) (recursive : Bool) (path : String) : List String → Prop
  | file {node : FileNode} (there : tree.status true path = .ok node)
      (single : node.isDirectory = false) :
      StandsFor tree recursive path [path]
  | directory {entries : List (String × FileNode)} {found : List String}
      (there : tree.status true path = .ok (.directory entries))
        (listed : tree.Lists recursive path entries found) :
      StandsFor tree recursive path found

theorem lists_mergeSort {tree : FileTree} (plain : tree.root.Plain) (recursive : Bool)
    {path : String} {entries : List (String × FileNode)}
    (there : tree.status true path = .ok (.directory entries)) :
    tree.Lists recursive path entries (jarsAmong recursive path "" entries).mergeSort := by
  have complete (p : String) : p ∈ (jarsAmong recursive path "" entries).mergeSort ↔
      ∃ names node, IsArchive recursive (.directory entries) names node ∧
        p = names.foldl Path.join path := by
    rw [List.mem_mergeSort]
    exact mem_jarsAmong_iff (plain_of_status plain there) rfl (.inl rfl)
  refine ⟨complete, ?_, ?_, ?_⟩
  · have sorted : (jarsAmong recursive path "" entries).mergeSort.Pairwise fun p q =>
        decide (p ≤ q) = true :=
      List.pairwise_mergeSort
        (fun a b c first second => by
          simpa using String.le_trans (of_decide_eq_true first) (of_decide_eq_true second))
        (fun a b => by simpa using String.le_total a b) _
    exact sorted.imp fun le => Utf8.encode_le_encode (of_decide_eq_true le)
  · intro names node archive
    exact status_foldl_join plain there archive.there
  · intro p member
    obtain ⟨names, node, archive, rfl⟩ := (complete p).mp member
    exact hasJarEnding_of_isArchive plain there archive

theorem jarsFor_of_status {tree : FileTree} (plain : tree.root.Plain) (recursive : Bool)
    {path : String} {node : FileNode} (there : tree.status true path = .ok node) :
    ∃ found, tree.jarsFor recursive path = .ok found ∧ tree.StandsFor recursive path found := by
  unfold jarsFor
  rw [there]
  cases node with
  | directory entries =>
    refine ⟨_, rfl, .directory there ?_⟩
    have unlinked : tree.status false path = .ok (.directory entries) :=
      (status_follow plain false true path).trans there
    simp only [FileNode.isDirectory, if_true, jarsIn, unlinked]
    exact lists_mergeSort plain recursive there
  | file content executable => exact ⟨_, rfl, .file there rfl⟩
  | link target => exact ⟨_, rfl, .file there rfl⟩

theorem jarsFor_of_missing {tree : FileTree} (recursive : Bool) {path : String}
    (missing : tree.present path = false) :
    ∃ cause, tree.jarsFor recursive path = .error (.fileNotFound path cause) := by
  unfold jarsFor
  unfold present at missing
  cases status : tree.status true path with
  | ok node => simp [status, Except.isOk, Except.toBool] at missing
  | error error => exact ⟨_, rfl⟩

end FileTree

/-! ## The order of first mention -/

/-- The same paths, each once, in the order of their first mention. -/
structure FirstMentions (found all : List String) : Prop where
  same (p : String) : p ∈ found ↔ p ∈ all
  inOrder : found.Pairwise fun p q => all.idxOf p < all.idxOf q

/-- One more mention adds a path that was not there yet. -/
theorem FirstMentions.concat {found all : List String} (mentions : FirstMentions found all)
    (p : String) :
    FirstMentions (if p ∈ all then found else found ++ [p]) (all ++ [p]) := by
  have kept : found.Pairwise fun a b => (all ++ [p]).idxOf a < (all ++ [p]).idxOf b := by
    refine mentions.inOrder.imp_of_mem fun {a b} first second less => ?_
    rwa [List.idxOf_append, if_pos ((mentions.same a).mp first), List.idxOf_append,
      if_pos ((mentions.same b).mp second)]
  split
  next known =>
    refine ⟨fun q => ?_, kept⟩
    rw [mentions.same, List.mem_append, List.mem_singleton]
    exact ⟨.inl, fun member => member.elim id fun same => same ▸ known⟩
  next fresh =>
    refine ⟨fun q => by simp [mentions.same], List.pairwise_append.mpr ⟨kept, by simp, ?_⟩⟩
    intro a first b last
    have member := (mentions.same a).mp first
    rw [List.mem_singleton.mp last, List.idxOf_append, if_pos member,
      List.idxOf_append, if_neg fresh]
    exact Nat.lt_add_left _ (List.idxOf_lt_length_of_mem member)

theorem firstMentions_eraseDups (all : List String) : FirstMentions all.eraseDups all := by
  -- By induction on the paths from the last one on.
  have backwards (reversed : List String) :
      FirstMentions reversed.reverse.eraseDups reversed.reverse := by
    induction reversed with
    | nil => exact ⟨fun p => by simp, by simp⟩
    | cons p reversed ih =>
      have step := ih.concat p
      rw [List.reverse_cons, List.eraseDups_append]
      split at step
      next known =>
        have rest : [p].removeAll reversed.reverse = [] := by simpa [List.removeAll] using known
        rwa [rest, List.eraseDups_nil, List.append_nil]
      next fresh =>
        have rest : [p].removeAll reversed.reverse = [p] := by simpa [List.removeAll] using fresh
        rwa [rest]
  simpa using backwards all.reverse

/-! ## All paths -/

namespace Outcome

variable {α β : Type} {f : α → Outcome β}

theorem mapM_eq_ok {g : α → β} {list : List α} (each : ∀ a ∈ list, f a = .ok (g a)) :
    list.mapM f = .ok (list.map g) := by
  induction list with
  | nil => rfl
  | cons a list ih =>
    rw [List.mapM_cons, each a List.mem_cons_self,
      ih fun b member => each b (List.mem_cons_of_mem a member)]
    rfl

theorem exists_error_of_mapM {list : List α} {a : α} (member : a ∈ list) {cause : Failure}
    (fails : f a = .error cause) :
    ∃ b ∈ list, ∃ first, f b = .error first ∧ list.mapM f = .error first := by
  induction list with
  | nil => simp at member
  | cons b list ih =>
    rw [List.mapM_cons]
    cases outcome : f b with
    | error first => exact ⟨b, List.mem_cons_self, first, outcome, rfl⟩
    | ok value =>
      have later : a ∈ list := by
        rcases List.mem_cons.mp member with rfl | later
        · simp [outcome] at fails
        · exact later
      obtain ⟨c, inside, first, failed, stopped⟩ := ih later
      refine ⟨c, List.mem_cons_of_mem b inside, first, failed, ?_⟩
      rw [stopped]
      rfl

end Outcome

/-- Paths stand for what they should. If all of them lead somewhere, then what they stand for is
found: each path once, in the order of first mention. Otherwise nothing is found, and the failure
names a path that leads nowhere. -/
theorem FileTree.collectJars_exact (tree : FileTree) (plain : tree.root.Plain) (paths : List String)
    (recursive : Bool) :
    ((∀ path ∈ paths, tree.present path = true) →
      ∃ expand : String → List String,
        (∀ path ∈ paths, tree.StandsFor recursive path (expand path)) ∧
        ∃ found, tree.collectJars paths recursive = .ok found ∧
          FirstMentions found (paths.flatMap expand)) ∧
    ((∃ path ∈ paths, tree.present path = false) →
      ∃ path ∈ paths, tree.present path = false ∧ ∃ cause,
        tree.collectJars paths recursive = .error (.fileNotFound path cause) ∧
          (Failure.fileNotFound path cause).code? = some .fileNotFound) := by
  have foundOfPresent {path : String} (present : tree.present path = true) :
      ∃ found, tree.jarsFor recursive path = .ok found ∧ tree.StandsFor recursive path found := by
    cases status : tree.status true path with
    | ok node => exact jarsFor_of_status plain recursive status
    | error error => simp [FileTree.present, status, Except.isOk, Except.toBool] at present
  constructor
  · intro there
    refine ⟨fun path => (tree.jarsFor recursive path).toOption.getD [], ?_, ?_⟩
    · intro path member
      obtain ⟨found, same, stands⟩ := foundOfPresent (there path member)
      simpa [same, Except.toOption] using stands
    · have each : ∀ path ∈ paths,
          tree.jarsFor recursive path = .ok ((tree.jarsFor recursive path).toOption.getD []) := by
        intro path member
        obtain ⟨found, same, -⟩ := foundOfPresent (there path member)
        simp [same, Except.toOption]
      refine ⟨_, ?_, firstMentions_eraseDups _⟩
      unfold collectJars
      rw [Outcome.mapM_eq_ok each, List.flatMap]
      rfl
  · rintro ⟨path, member, missing⟩
    obtain ⟨_, fails⟩ := jarsFor_of_missing recursive missing
    -- The search stops at the first path that fails, which may be another one than the given.
    obtain ⟨absent, inside, first, failed, stopped⟩ := Outcome.exists_error_of_mapM member fails
    have nowhere : tree.present absent = false := by
      by_cases present : tree.present absent = true
      · obtain ⟨found, same, -⟩ := foundOfPresent present
        simp [same] at failed
      · simpa using present
    obtain ⟨cause, worded⟩ := jarsFor_of_missing recursive nowhere
    obtain rfl : first = .fileNotFound absent cause := by simpa [worded] using failed.symm
    refine ⟨absent, inside, nowhere, cause, ?_, ?_⟩
    · unfold collectJars
      rw [stopped]
      rfl
    · cases cause <;> rfl

/-- Archives at two depths, one of them in a hidden directory, and a file of another kind. -/
def depot : FileTree where
  root := .directory [
    ("d", .directory [
      ("s", .directory [("a.jar", .file [] false)]),
      ("B.JAR", .file [] false),
      (".h", .directory [("x.jar", .file [] false)])]),
    ("t.txt", .file [] false)]
  here := "/"

theorem plain_depot : depot.root.Plain := by
  have file : (FileNode.file [] false).Plain := .file [] false
  have single (name : String) (proper : Path.IsName name) :
      (FileNode.directory [(name, .file [] false)]).Plain :=
    .directory (by simpa using proper) (by simp) (by simpa using file)
  have inner :
      (FileNode.directory [("s", .directory [("a.jar", .file [] false)]), ("B.JAR", .file [] false),
      (".h", .directory [("x.jar", .file [] false)])]).Plain :=
    .directory (by decide) (by decide)
      (by simp [file, single "a.jar" (by decide), single "x.jar" (by decide)])
  exact .directory (by decide) (by decide) (by simp [file, inner])

theorem present_depot :
    depot.present "d" = true ∧ depot.present "t.txt" = true ∧ depot.present "d/s" = true ∧
    depot.present "e" = false := by
  have here : depot.hereNames = [] := by decide +kernel
  have first : Path.parts "d" = ["d"] := by decide +kernel
  have second : Path.parts "t.txt" = ["t.txt"] := by decide +kernel
  have third : Path.parts "d/s" = ["d", "s"] := by decide +kernel
  have fourth : Path.parts "e" = ["e"] := by decide +kernel
  simp only [FileTree.present, FileTree.status, FileTree.locate, first, second, third,
    fourth, here, FileTree.walk]
  exact ⟨rfl, rfl, rfl, rfl⟩

/-- Three paths that lead somewhere, and two of which one does not. -/
theorem FileTree.collectJars_exact_depot :
    depot.root.Plain ∧ (∀ path ∈ ["d", "t.txt", "d/s"], depot.present path = true) ∧
    depot.present "e" = false ∧
      (∃ expand : String → List String,
        (∀ path ∈ ["d", "t.txt", "d/s"], depot.StandsFor true path (expand path)) ∧
        ∃ found, depot.collectJars ["d", "t.txt", "d/s"] true = .ok found ∧
          FirstMentions found (["d", "t.txt", "d/s"].flatMap expand)) ∧
      ∃ path ∈ ["d", "e"], ∃ cause, depot.collectJars ["d", "e"] true =
        .error (.fileNotFound path cause) := by
  obtain ⟨first, second, third, missing⟩ := present_depot
  have there : ∀ path ∈ ["d", "t.txt", "d/s"], depot.present path = true := by
    simp [first, second, third]
  refine ⟨plain_depot, there, missing, (depot.collectJars_exact plain_depot _ true).1 there, ?_⟩
  obtain ⟨path, member, -, cause, failed, -⟩ :=
    (depot.collectJars_exact plain_depot ["d", "e"] true).2 ⟨"e", by simp, missing⟩
  exact ⟨path, member, cause, failed⟩

end JarMetrics
