import JarMetrics.Proofs.Balance
import JarMetrics.Proofs.Finding
import Mathlib.Data.List.Nodup

/-!
# Files that are named in two ways

A file can be named in many ways, and `Path.clean` gives one of them for all that differ by dots and
slashes only. Where paths lead somewhere, those with one clean form lead to the same place
(`status_clean`). What a search finds is clean already (`clean_of_finds`), but a path of a file is
taken as it was given, and what was found is compared as text.

So a file is analyzed twice exactly if it is named in two ways: by two of the paths given, or by one
of them that is not clean and by a search (`FileTree.SpelledOnce`). `collectJars_spellings` says so,
and that each of the ways brings the same figures into the summary; `one_file_counted_twice` is a
file that is named as `x.jar` and as `./x.jar`.
-/

namespace JarMetrics

/-! ## Clean paths -/

namespace Path

theorem foldl_settle_back (count : Nat) :
    (List.replicate count "..").foldl (settle false) [] = List.replicate count ".." := by
  induction count with
  | zero => rfl
  | succ count ih =>
    rw [List.replicate_succ', List.foldl_append, ih, ← List.replicate_succ', List.replicate_succ]
    cases count <;> simp [settle, List.replicate_succ]

/-- Parts that cannot be reduced are what is left of them. -/
theorem Trail.foldl_settle {rooted : Bool} {done : List String} (trail : Trail rooted done) :
    done.reverse.foldl (settle rooted) [] = done := by
  induction trail with
  | back count possible =>
    rw [List.reverse_replicate]
    cases rooted with
    | true => rw [possible rfl, List.replicate_zero, List.foldl_nil]
    | false => exact foldl_settle_back count
  | name proper _ ih =>
    rw [List.reverse_cons, List.foldl_append, ih]
    simp [settle, proper.1, proper.2.1, proper.2.2.1]

/-- A path that is written out of parts that cannot be reduced is clean. -/
theorem clean_ofParts {rooted : Bool} {done : List String} (trail : Trail rooted done) :
    clean (ofParts rooted done.reverse) = ofParts rooted done.reverse := by
  obtain ⟨count, names, spelling, proper⟩ := trail.reverse_eq
  have spelled := spelled_of_names count proper
  rw [← spelling] at spelled
  cases partsEq : done.reverse with
  | nil => cases rooted <;> decide +kernel
  | cons first others =>
    rw [partsEq] at spelled
    have someFirst := spelled first List.mem_cons_self
    have read := parts_ofParts (fun part member => (spelled part member).2)
      (List.cons_ne_nil first others) rooted
    have reduced : reduce rooted [] (if rooted then "" :: first :: others else first :: others) =
        first :: others := by
      rw [reduce_eq_foldl, ← partsEq]
      cases rooted with
      | true =>
        rw [if_pos rfl, List.foldl_cons]
        show (List.foldl (settle true) [] done.reverse).reverse = done.reverse
        rw [trail.foldl_settle]
      | false => rw [if_neg (by simp), trail.foldl_settle]
    unfold clean
    rw [isAbsolute_ofParts someFirst.1 someFirst.2, read, reduced]

theorem trail_parts (path : String) :
    Trail (isAbsolute path) ((parts path).foldl (settle (isAbsolute path)) []) :=
  (foldl_settle_spec (Trail.nil _) (not_slash_mem_parts path)).1

theorem clean_eq_ofParts (path : String) :
    clean path = ofParts (isAbsolute path)
      ((parts path).foldl (settle (isAbsolute path)) []).reverse := by
  unfold clean
  rw [reduce_eq_foldl]

theorem clean_clean (path : String) : clean (clean path) = clean path := by
  rw [clean_eq_ofParts path]
  exact clean_ofParts (trail_parts path)

theorem clean_join {first second : String} (behind : second ≠ "") :
    clean (join first second) = join first second := by
  have filled : second.isEmpty = false := by simpa using behind
  unfold join
  simp only [filled, Bool.false_eq_true, if_false]
  split
  · exact clean_clean second
  · exact clean_clean _

end Path

namespace FileTree

variable {tree : FileTree}

/-- Where nothing is left of a path, it leads to where paths start. -/
theorem locate_start (plain : tree.root.Plain) (follow : Bool) {rooted : Bool}
    {entries : List (String × FileNode)}
    (atStart : tree.root.get? (tree.start rooted) = some (.directory entries)) :
    tree.locate follow (Path.ofParts rooted []) =
      .ok ⟨tree.start rooted, some (.directory entries)⟩ := by
  have stay (part : String) (idle : part = "" ∨ part = ".") (rest : List String) :
      walk tree.root follow 40 (tree.start rooted) (part :: rest) =
        walk tree.root follow 40 (tree.start rooted) rest := by
    have stays : Path.advance (tree.start rooted) part = tree.start rooted := by
      simp [Path.advance, idle]
    rw [walk_step follow 40 plain atStart (stays.symm ▸ atStart), stays]
  cases rooted with
  | true =>
    have written : Path.ofParts true [] = "/" ∧ Path.isAbsolute "/" = true ∧
        Path.parts "/" = ["", ""] := by
      decide +kernel
    rw [written.1, locate_eq_walk tree follow (by decide), written.2.1,
      written.2.2, stay "" (.inl rfl), stay "" (.inl rfl), walk_nil, atStart]
  | false =>
    have written : Path.ofParts false [] = "." ∧ Path.isAbsolute "." = false ∧
        Path.parts "." = ["."] := by
      decide +kernel
    rw [written.1, locate_eq_walk tree follow (by decide), written.2.1, written.2.2,
      stay "." (.inr rfl), walk_nil, atStart]

/-- A path that leads somewhere leads there in its clean form too. -/
theorem locate_clean (plain : tree.root.Plain) {follow : Bool} {path : String} {here : List String}
    {node : FileNode} (located : tree.locate follow path = .ok ⟨here, some node⟩) :
    tree.locate follow (Path.clean path) = .ok ⟨here, some node⟩ := by
  have somePath := ne_empty_of_locate located
  rw [locate_eq_walk tree follow somePath] at located
  obtain ⟨arrived, atHere⟩ := eq_of_walk follow 40 plain located
  obtain ⟨entries, atStart⟩ := exists_directory_of_walk follow 40 (by simp [Path.parts]) located
  -- The clean path spells out other parts, but from the same start they lead to the same place.
  obtain ⟨trail, leads⟩ :=
    Path.foldl_settle_spec (Path.Trail.nil (Path.isAbsolute path)) (Path.not_slash_mem_parts path)
  have arrives := leads (tree.start (Path.isAbsolute path)) (fun rooted => by simp [start, rooted])
  rw [List.reverse_nil, List.foldl_nil, ← arrived] at arrives
  rw [Path.clean_eq_ofParts]
  by_cases noneLeft : (Path.parts path).foldl (Path.settle (Path.isAbsolute path)) [] = []
  · rw [noneLeft, List.reverse_nil, List.foldl_nil] at arrives
    rw [← arrives, atStart, Option.some.injEq] at atHere
    rw [noneLeft, List.reverse_nil, locate_start plain follow atStart, arrives, atHere]
  · rw [locate_trail plain follow trail noneLeft atStart (arrives ▸ atHere), arrives]

/-- Where paths lead somewhere, one clean form means one place. -/
theorem status_clean (plain : tree.root.Plain) {follow : Bool} {path : String} {node : FileNode}
    (there : tree.status follow path = .ok node) :
    tree.status follow (Path.clean path) = .ok node := by
  obtain ⟨here, located⟩ := status_eq_ok_iff.mp there
  exact status_eq_ok_iff.mpr ⟨here, locate_clean plain located⟩

/-! ## What is found -/

/-- A path leads to a file. -/
def NamesFile (tree : FileTree) (path : String) : Prop :=
  ∃ node, tree.status true path = .ok node ∧ node.isDirectory = false

/-- A path leads to a directory, and a search of that finds a file under another path. -/
def Finds (tree : FileTree) (recursive : Bool) (directory path : String) : Prop :=
  ∃ entries, tree.status true directory = .ok (.directory entries) ∧
    ∃ names node, IsArchive recursive (.directory entries) names node ∧
      path = names.foldl Path.join directory

variable {recursive : Bool} {directory path p : String} {paths found : List String}

theorem clean_of_finds (plain : tree.root.Plain) (finds : tree.Finds recursive directory path) :
    Path.clean path = path := by
  obtain ⟨entries, there, names, node, archive, rfl⟩ := finds
  obtain ⟨name, last, _⟩ := archive.named
  obtain ⟨front, rfl⟩ := List.getLast?_eq_some_iff.mp last
  have proper : Path.IsName name :=
    ((plain_of_status plain there).get? archive.there).1 name (by simp)
  rw [List.foldl_append, List.foldl_cons, List.foldl_nil]
  exact Path.clean_join proper.1

theorem namesFile_of_finds (plain : tree.root.Plain) (finds : tree.Finds recursive directory path) :
    tree.NamesFile path := by
  obtain ⟨entries, there, names, node, archive, rfl⟩ := finds
  exact ⟨node, status_foldl_join plain there archive.there, archive.file⟩

theorem StandsFor.mem_iff (stands : tree.StandsFor recursive path found) :
    p ∈ found ↔ tree.NamesFile path ∧ p = path ∨ tree.Finds recursive path p := by
  cases stands with
  | file there single =>
    have nothing : ¬ tree.Finds recursive path p := by
      intro finds
      obtain ⟨entries, opened, _⟩ := finds
      rw [there, Except.ok.injEq] at opened
      rw [opened] at single
      cases single
    rw [List.mem_singleton, or_iff_left nothing, and_iff_right ⟨_, there, single⟩]
  | @directory entries _ there listed =>
    have noFile : ¬ (tree.NamesFile path ∧ p = path) := by
      intro named
      obtain ⟨⟨node, found, single⟩, _⟩ := named
      rw [there, Except.ok.injEq] at found
      rw [← found] at single
      cases single
    rw [or_iff_right noFile, listed.complete]
    constructor
    · intro below
      exact ⟨entries, there, below⟩
    · intro finds
      obtain ⟨others, opened, below⟩ := finds
      rw [there, Except.ok.injEq, FileNode.directory.injEq] at opened
      rw [opened]
      exact below

/-- What paths stand for: the files that they lead to, and what is found in directories, each path
once. -/
structure Collects (tree : FileTree) (recursive : Bool) (paths found : List String) : Prop where
  nodup : found.Nodup
  mem_iff (p : String) : p ∈ found ↔
    p ∈ paths ∧ tree.NamesFile p ∨ ∃ directory ∈ paths, tree.Finds recursive directory p

theorem exists_collects (plain : tree.root.Plain) (there : ∀ path ∈ paths, tree.present path = true)
    (recursive : Bool) :
    ∃ found, tree.collectJars paths recursive = .ok found ∧
      tree.Collects recursive paths found := by
  have expands : ∀ path ∈ paths, ∃ found, tree.jarsFor recursive path = .ok found ∧
      tree.StandsFor recursive path found := by
    intro path given
    have leads := there path given
    unfold present at leads
    cases status : tree.status true path with
    | ok node => exact jarsFor_of_status plain recursive status
    | error error =>
      rw [status] at leads
      cases leads
  choose! expand each stands using expands
  refine ⟨(paths.map expand).flatten.eraseDups, ?_, ?_, ?_⟩
  · unfold collectJars
    rw [Outcome.mapM_eq_ok each]
    rfl
  · refine (firstMentions_eraseDups _).inOrder.imp ?_
    intro p q earlier same
    rw [same] at earlier
    exact Nat.lt_irrefl _ earlier
  · intro p
    rw [(firstMentions_eraseDups _).same, ← List.flatMap_def, List.mem_flatMap]
    constructor
    · intro listed
      obtain ⟨path, given, listed⟩ := listed
      rcases (stands path given).mem_iff.mp listed with ⟨file, same⟩ | finds
      · rw [same]
        exact .inl ⟨given, file⟩
      · exact .inr ⟨path, given, finds⟩
    · intro stood
      rcases stood with ⟨given, file⟩ | ⟨path, given, finds⟩
      · exact ⟨p, given, (stands p given).mem_iff.mpr (.inl ⟨file, rfl⟩)⟩
      · exact ⟨path, given, (stands path given).mem_iff.mpr (.inr finds)⟩

/-- No file is named in two ways: no two paths of files have one clean form, and no search finds the
clean form of one that is not clean. -/
structure SpelledOnce (tree : FileTree) (recursive : Bool) (paths : List String) : Prop where
  named : ∀ p ∈ paths, tree.NamesFile p → ∀ q ∈ paths, tree.NamesFile q →
    Path.clean p = Path.clean q → p = q
  searched : ∀ p ∈ paths, tree.NamesFile p → ∀ directory ∈ paths,
    tree.Finds recursive directory (Path.clean p) → Path.clean p = p

theorem spelledOnce_of_clean (recursive : Bool)
    (spelled : ∀ p ∈ paths, tree.NamesFile p → Path.clean p = p) :
    tree.SpelledOnce recursive paths := by
  constructor
  · intro p given file q given' file' same
    rw [spelled p given file, spelled q given' file'] at same
    exact same
  · intro p given file _ _ _
    exact spelled p given file

namespace Collects

theorem namesFile (plain : tree.root.Plain) (collects : tree.Collects recursive paths found)
    (member : p ∈ found) :
    tree.NamesFile p := by
  rcases (collects.mem_iff p).mp member with ⟨_, file⟩ | ⟨_, _, finds⟩
  · exact file
  · exact namesFile_of_finds plain finds

/-- Clean forms are distinct exactly if no file is named in two ways. -/
theorem nodup_clean_iff (plain : tree.root.Plain) (collects : tree.Collects recursive paths found) :
    (found.map Path.clean).Nodup ↔ tree.SpelledOnce recursive paths := by
  rw [List.nodup_map_iff_inj_on collects.nodup]
  constructor
  · intro injective
    constructor
    · intro p given file q given' file' same
      exact injective p ((collects.mem_iff p).mpr (.inl ⟨given, file⟩)) q
        ((collects.mem_iff q).mpr (.inl ⟨given', file'⟩)) same
    · intro p given file directory given' finds
      exact injective (Path.clean p) ((collects.mem_iff _).mpr (.inr ⟨directory, given', finds⟩)) p
        ((collects.mem_iff p).mpr (.inl ⟨given, file⟩)) (Path.clean_clean p)
  · intro once p first q second same
    -- What a search finds is its own clean form, so only the paths of files can differ from theirs.
    rcases (collects.mem_iff p).mp first with ⟨given, file⟩ | ⟨directory, given, finds⟩ <;>
      rcases (collects.mem_iff q).mp second with ⟨given', file'⟩ | ⟨directory', given', finds'⟩
    · exact once.named p given file q given' file' same
    · rw [clean_of_finds plain finds'] at same
      rw [← same] at finds' ⊢
      exact (once.searched p given file directory' given' finds').symm
    · rw [clean_of_finds plain finds] at same
      rw [same] at finds ⊢
      exact once.searched q given' file' directory given finds
    · rw [clean_of_finds plain finds, clean_of_finds plain finds'] at same
      exact same

end Collects

/-- Paths of files with one clean form have one content. -/
theorem exists_read_of_clean_eq (plain : tree.root.Plain) {q : String} (file : tree.NamesFile p)
    (file' : tree.NamesFile q) (same : Path.clean p = Path.clean q) :
    ∃ content, tree.read p = .ok content ∧ tree.read q = .ok content := by
  obtain ⟨node, there, single⟩ := file
  obtain ⟨node', there', _⟩ := file'
  have agree := status_clean plain there
  rw [same, status_clean plain there', Except.ok.injEq] at agree
  rw [agree] at there'
  cases plain_of_status plain there with
  | directory => cases single
  | file content executable =>
    refine ⟨content, ?_, ?_⟩
    · unfold read
      rw [there]
    · unfold read
      rw [there']

end FileTree

/-! ## What is counted -/

theorem ArchiveReport.ofContents_respelled (p q : String) (request : Request)
    (contents : ArchiveContents) :
    ofContents q request contents =
      { ofContents p request contents with fileName := Path.base q, path := q } := by
  rw [ofContents_eq, ofContents_eq]
  rfl

/-- The report of an archive depends on its path by name only. -/
theorem archiveAt?_respelled {tree : FileTree} (request : Request) {p q : String}
    {content : List UInt8} (left : tree.read p = .ok content) (right : tree.read q = .ok content) :
    archiveAt? tree request q =
      (archiveAt? tree request p).map fun a => { a with fileName := Path.base q, path := q } := by
  have agree : openedArchive? tree request q = openedArchive? tree request p := by
    unfold openedArchive?
    rw [left, right]
  cases opened : openedArchive? tree request p with
  | some pair =>
    rw [archiveAt?_of_opened opened, archiveAt?_of_opened (agree.trans opened), Option.map_some,
      ArchiveReport.ofContents_respelled p q]
  | none =>
    have unread : ∀ path, openedArchive? tree request path = none →
        archiveAt? tree request path = none := by
      intro path closed
      cases reported : archiveAt? tree request path with
      | none => rfl
      | some a =>
        obtain ⟨_, _, opened, _⟩ := exists_opened_of_archiveAt? reported
        rw [closed] at opened
        cases opened
    rw [unread p opened, unread q (agree.trans opened), Option.map_none]

/-- Paths that lead somewhere stand for files without repetition of a text. Their clean forms are
distinct exactly if no file is named in two ways, which is so if all files are named by clean paths.
An analysis of the files found has the figures of each of them in its summary; it has no two of one
clean form if no file is named in two ways, and otherwise each of the ways brings in the same
figures. -/
theorem FileTree.collectJars_spellings (tree : FileTree) (plain : tree.root.Plain)
    (paths : List String) (there : ∀ path ∈ paths, tree.present path = true) (recursive : Bool) :
    ∃ found, tree.collectJars paths recursive = .ok found ∧ found.Nodup ∧
      ((found.map Path.clean).Nodup ↔ tree.SpelledOnce recursive paths) ∧
      ((∀ p ∈ paths, tree.NamesFile p → Path.clean p = p) → tree.SpelledOnce recursive paths) ∧
      ∀ host request limit courses, host.tree = tree → request.paths = found →
        Undisturbed tree request limit courses →
        ∃ report, (analyzeBy host request limit courses none).outcome = .ok report ∧
          Balanced tree request report ∧
          (tree.SpelledOnce recursive paths →
            (report.archives.map fun a => Path.clean a.path).Nodup) ∧
          ∀ p ∈ found, ∀ q ∈ found, Path.clean p = Path.clean q → archiveAt? tree request q =
            (archiveAt? tree request p).map fun a =>
              { a with fileName := Path.base q, path := q } := by
  obtain ⟨found, collected, collects⟩ := exists_collects plain there recursive
  refine ⟨found, collected, collects.nodup, collects.nodup_clean_iff plain,
    spelledOnce_of_clean recursive, ?_⟩
  intro host request limit courses sameTree asked undisturbed
  subst sameTree
  refine ⟨undisturbedReport host request, analyzeBy_undisturbed undisturbed,
    balanced_undisturbedReport host request, ?_, ?_⟩
  · intro once
    have sublist := ((balanced_undisturbedReport host request).inOrder).map Path.clean
    rw [asked, List.map_map] at sublist
    exact sublist.nodup ((collects.nodup_clean_iff plain).mpr once)
  · intro p first q second same
    obtain ⟨content, left, right⟩ := exists_read_of_clean_eq plain (collects.namesFile plain first)
      (collects.namesFile plain second) same
    exact archiveAt?_respelled request left right

theorem status_depot : (∃ entries, depot.status true "./d" = .ok (.directory entries)) ∧
    depot.status true "d/s/a.jar" = .ok (.file [] false) := by
  have here : depot.hereNames = [] := by decide +kernel
  have first : Path.parts "./d" = [".", "d"] := by decide +kernel
  have second : Path.parts "d/s/a.jar" = ["d", "s", "a.jar"] := by decide +kernel
  simp only [FileTree.status, FileTree.locate, first, second, here, FileTree.walk]
  exact ⟨⟨_, rfl⟩, rfl⟩

/-- A directory, and a clean path of a file that is in it. -/
theorem FileTree.collectJars_spellings_overlapping :
    depot.root.Plain ∧ (∀ path ∈ ["./d", "d/s/a.jar"], depot.present path = true) ∧
      (∀ p ∈ ["./d", "d/s/a.jar"], depot.NamesFile p → Path.clean p = p) ∧
      ∃ found report, depot.collectJars ["./d", "d/s/a.jar"] true = .ok found ∧
        (found.map Path.clean).Nodup ∧
        (analyze { tree := depot } { paths := found } none).outcome = .ok report ∧
        (report.archives.map fun a => Path.clean a.path).Nodup := by
  obtain ⟨⟨entries, opened⟩, single⟩ := status_depot
  have there : ∀ path ∈ ["./d", "d/s/a.jar"], depot.present path = true := by
    simp [FileTree.present, opened, single, Except.isOk, Except.toBool]
  have spelled : ∀ p ∈ ["./d", "d/s/a.jar"], depot.NamesFile p → Path.clean p = p := by
    intro p given file
    simp only [List.mem_cons, List.not_mem_nil, or_false] at given
    rcases given with rfl | rfl
    · obtain ⟨node, found, noDirectory⟩ := file
      rw [opened, Except.ok.injEq] at found
      rw [← found] at noDirectory
      cases noDirectory
    · decide +kernel
  obtain ⟨found, collected, _, distinct, clean, analyzed⟩ :=
    depot.collectJars_spellings plain_depot _ there true
  obtain ⟨report, complete, _, counted, _⟩ :=
    analyzed { tree := depot } { paths := found } 1 (fun _ => {}) rfl rfl
    (undisturbed_inOrder depot _ (Nat.le_refl 1))
  exact ⟨plain_depot, there, spelled, found, report, collected,
    distinct.mpr (clean spelled), complete, counted (clean spelled)⟩

/-- An archive with the class `A`. -/
def drawer : Host := { tree := ⟨.directory [("x.jar", .file oneClass false)], "/"⟩ }

theorem status_drawer : drawer.tree.status true "x.jar" = .ok (.file oneClass false) ∧
    drawer.tree.status true "./x.jar" = .ok (.file oneClass false) := by
  have here : drawer.tree.hereNames = [] := by decide +kernel
  have first : Path.parts "x.jar" = ["x.jar"] := by decide +kernel
  have second : Path.parts "./x.jar" = [".", "x.jar"] := by decide +kernel
  simp only [FileTree.status, FileTree.locate, first, second, here, FileTree.walk]
  exact ⟨rfl, rfl⟩

/-- That archive is named in two ways, so it is analyzed twice, and its one class counts as two. -/
theorem one_file_counted_twice :
    drawer.tree.collectJars ["x.jar", "./x.jar"] true = .ok ["x.jar", "./x.jar"] ∧
      Path.clean "./x.jar" = Path.clean "x.jar" ∧
      ∃ report a b, (analyze drawer { paths := ["x.jar", "./x.jar"] } none).outcome = .ok report ∧
        report.archives = [a, b] ∧ a.allClasses.map (·.name) = ["A"] ∧
        b.allClasses.map (·.name) = ["A"] ∧
        report.summary.totalClasses + report.summary.totalInterfaces = 2 := by
  obtain ⟨first, second⟩ := status_drawer
  have read : drawer.tree.read "x.jar" = .ok oneClass ∧
      drawer.tree.read "./x.jar" = .ok oneClass := by
    unfold FileTree.read
    rw [first, second]
    exact ⟨rfl, rfl⟩
  refine ⟨?_, by decide +kernel, ?_⟩
  · have each : ∀ path ∈ ["x.jar", "./x.jar"], drawer.tree.jarsFor true path = .ok [path] := by
      intro path given
      simp only [List.mem_cons, List.not_mem_nil, or_false] at given
      unfold FileTree.jarsFor
      rcases given with rfl | rfl
      · rw [first]
        rfl
      · rw [second]
        rfl
    unfold FileTree.collectJars
    rw [Outcome.mapM_eq_ok each]
    rfl
  · obtain ⟨a, c, analyzed, _, own, named, _⟩ := analyzed_oneClass read.1 ["x.jar", "./x.jar"]
    obtain ⟨b, d, analyzed', _, own', named', _⟩ := analyzed_oneClass read.2 ["x.jar", "./x.jar"]
    let request : Request := { paths := ["x.jar", "./x.jar"] }
    have balanced := balanced_undisturbedReport drawer request
    have archives : (undisturbedReport drawer request).archives = [a, b] := by
      rw [balanced.archives]
      show ["x.jar", "./x.jar"].filterMap (archiveAt? drawer.tree request) = [a, b]
      simp [archiveAt?, request, analyzed, analyzed', Except.toOption]
    have classes := balanced.totalClasses
    have interfaces := balanced.totalInterfaces
    have left := balanced.entries a (by simp [archives])
    have right := balanced.entries b (by simp [archives])
    rw [archives] at classes interfaces
    rw [own, List.length_singleton] at left
    rw [own', List.length_singleton] at right
    refine ⟨undisturbedReport drawer request, a, b,
      analyze_undisturbed drawer request, archives, ?_, ?_, ?_⟩
    · rw [own, List.map_singleton, named]
    · rw [own', List.map_singleton, named']
    · rw [classes, interfaces]
      simp only [List.map_cons, List.map_nil, List.sum_cons, List.sum_nil]
      omega

end JarMetrics
