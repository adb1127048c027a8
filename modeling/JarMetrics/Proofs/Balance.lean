import JarMetrics.Proofs.SeparateArchives
import Mathlib.Algebra.Ring.Int.Defs

/-!
# No entry is lost or counted twice

The numbers of a report come from four places: the reading of the entries, the figures of an
archive, its report, and the summary. `analyze_balanced`: for any paths and any files an analysis
that is not interrupted has a report, and all its numbers agree. Each path has a report or a line in
the errors, in the order of the paths; each entry that was chosen is a class, an interface or
skipped; the summary has the sums; and each skipped entry and each archive without entries has one
warning.

What comes of a path is `archiveAt?` or `faultAt?`, one of them and never both. The report of an
archive is that of `Reading.contents` (`exists_opened_of_archiveAt?`), however the tasks
interleaved.
-/

namespace JarMetrics

/-! ## What comes of a path -/

/-- The report of the archive at a path, where it can be read. -/
def archiveAt? (tree : FileTree) (request : Request) (path : String) : Option ArchiveReport :=
  (analyzeArchive tree request none path).outcome.toOption

/-- What is told of a path whose archive cannot be read. -/
def faultAt? (tree : FileTree) (request : Request) (path : String) : Option String :=
  match (analyzeArchive tree request none path).outcome with
  | .ok _ => none
  | .error cause => some ("[" ++ path ++ "] " ++ cause.message)

/-- The readings of all paths come to their end, and no interrupt comes before or while they are
read. -/
def Undisturbed (tree : FileTree) (request : Request) (limit : Nat) (courses : Nat → Course) :
    Prop :=
  (∀ k path, request.paths[k]? = some path → (courses k).Settles tree request limit path) ∧
    courseInterrupts tree request courses 0 request.paths = []

section

variable {tree : FileTree} {request : Request}

theorem results_of_accounted {paths : List String} {results : List PathResult}
    (accounted : List.Forall₂ (Accounts tree request) paths results) :
    PathResult.reports results = paths.filterMap (archiveAt? tree request) ∧
      PathResult.errors results = paths.filterMap (faultAt? tree request) := by
  induction accounted with
  | nil => exact ⟨rfl, rfl⟩
  | @cons path result paths results accounts _ ih =>
    rw [List.filterMap_cons, List.filterMap_cons, ← ih.1, ← ih.2, archiveAt?, faultAt?]
    cases accounts with
    | report analyzed =>
      rw [analyzed]
      exact ⟨rfl, rfl⟩
    | fault failed =>
      rw [failed]
      exact ⟨rfl, rfl⟩

/-- The report of an analysis that is not interrupted. -/
def undisturbedReport (host : Host) (request : Request) : Report :=
  let archives := request.paths.filterMap (archiveAt? host.tree request)
  { archives
    summary := .of archives
    warnings := archives.flatMap (·.warnings)
    errors := request.paths.filterMap (faultAt? host.tree request)
    generatedAt := host.now.rfc3339
    version := host.build.version }

theorem analyzeBy_undisturbed {host : Host} {limit : Nat} {courses : Nat → Course}
    (undisturbed : Undisturbed host.tree request limit courses) :
    (analyzeBy host request limit courses none).outcome = .ok (undisturbedReport host request) := by
  obtain ⟨settles, quiet⟩ := undisturbed
  have later : ∀ k path, request.paths[k]? = some path →
      (courses (0 + k)).Settles host.tree request limit path := by
    intro k path stands
    rw [Nat.zero_add]
    exact settles k path stands
  show (analyzePathsBy host.tree request limit courses none 0 request.paths).outcome.map
    (Report.ofResults host) = _
  rcases analyzePathsBy_settled none later with ⟨f, i, -, -, first⟩ | ⟨results, complete, accounted⟩
  · rw [quiet] at first
    cases first
  · rw [complete]
    show Except.ok (Report.ofResults host results) = _
    unfold Report.ofResults undisturbedReport
    rw [(results_of_accounted accounted).1, (results_of_accounted accounted).2]

/-- Entry by entry nothing disturbs an analysis. -/
theorem undisturbed_inOrder (tree : FileTree) (request : Request) {limit : Nat}
    (workers : 1 ≤ limit) :
    Undisturbed tree request limit (fun _ => {}) := by
  have silent : ∀ count, (Reading.inOrder none count).filterMap Action.interrupt? = [] := by
    intro count
    refine List.filterMap_eq_nil_iff.mpr fun action taken => ?_
    cases action with
    | interrupt i => exact absurd taken (Reading.inOrder_own count i)
    | _ => rfl
  have during : ∀ path, ({} : Course).during tree request path = [] := by
    intro path
    unfold Course.during
    split
    · exact silent _
    · rfl
  refine ⟨fun _ _ _ archive chosen _ =>
    Reading.finished_inOrder (decodeEntry archive) workers chosen, ?_⟩
  generalize 0 = position
  induction request.paths generalizing position with
  | nil => rfl
  | cons path rest ih =>
    rw [courseInterrupts, during, ih]
    rfl

theorem analyze_undisturbed (host : Host) (request : Request) :
    (analyze host request none).outcome = .ok (undisturbedReport host request) :=
  analyzeBy_undisturbed (undisturbed_inOrder host.tree request (Nat.le_refl 1))

/-! ## One archive -/

theorem ArchiveReport.ofContents_eq (path : String) (request : Request)
    (contents : ArchiveContents) :
    ofContents path request contents =
      { ofFigures path (.of (Path.base path) contents.records) contents with
        classes := if request.details then
          selectClasses (ofFigures path (.of (Path.base path) contents.records) contents).allClasses
            request.sort
            request.top
        else [] } := by
  unfold ofContents
  dsimp only
  split <;> rfl

/-- An archive that can be opened has a report of all its chosen entries. -/
theorem archiveAt?_of_opened {path : String} {archive : ZipArchive} {chosen : List ZipEntry}
    (opened : openedArchive? tree request path = some (archive, chosen)) :
    archiveAt? tree request path =
      some (.ofContents path request (Reading.contents (decodeEntry archive) chosen)) := by
  obtain ⟨complete, -⟩ := Reading.run_of_finished (Reading.inOrder_own chosen.length)
    (Reading.finished_inOrder (decodeEntry archive) (Nat.le_refl 1) chosen)
  unfold archiveAt? analyzeArchive
  rw [analyzeArchiveBy_opened opened, complete]
  rfl

/-- An archive of which there is a report could be opened, and all its chosen entries were read. -/
theorem exists_opened_of_archiveAt? {path : String} {a : ArchiveReport}
    (reported : archiveAt? tree request path = some a) :
    ∃ archive chosen, openedArchive? tree request path = some (archive, chosen) ∧
      a = .ofContents path request (Reading.contents (decodeEntry archive) chosen) := by
  cases opened : openedArchive? tree request path with
  | none =>
    obtain ⟨f, -, failed⟩ := analyzeArchiveBy_unopened opened
    unfold archiveAt? analyzeArchive at reported
    rw [failed] at reported
    cases reported
  | some pair =>
    rw [archiveAt?_of_opened opened] at reported
    cases reported
    exact ⟨pair.1, pair.2, rfl, rfl⟩

/-- Each chosen entry is told of once: by its class where it could be decoded, as skipped where
not. -/
structure ArchiveReport.Covers (a : ArchiveReport) (archive : ZipArchive) (chosen : List ZipEntry) :
    Prop where
  scanned : a.entriesScanned = chosen.length
  decoded : (a.allClasses.map (·.name)).Perm
    (chosen.filterMap fun e => (Reading.recordOf (decodeEntry archive e)).map ClassRecord.name)
  skipped : a.skipped.map (·.entry) =
    (chosen.filter fun e => (Reading.skippedOf (decodeEntry archive e)).isSome).map ZipEntry.name
  classes : a.totalClasses = a.allClasses.countP fun c => !c.isInterface
  interfaces : a.totalInterfaces = a.allClasses.countP fun c => c.isInterface

/-- A skipped entry is told by its name. -/
theorem entry_of_decodeEntry {archive : ZipArchive} {e : ZipEntry} {skipped : SkippedEntry}
    (failed : decodeEntry archive e = .error skipped) : skipped.entry = e.name := by
  unfold decodeEntry at failed
  split at failed
  · cases failed
    rfl
  · split at failed
    · cases failed
      rfl
    · cases failed

theorem entries_of_skipped (archive : ZipArchive) (chosen : List ZipEntry) :
    (Reading.contents (decodeEntry archive) chosen).skipped.map SkippedEntry.entry =
      (chosen.filter fun e => (Reading.skippedOf (decodeEntry archive e)).isSome).map
        ZipEntry.name := by
  unfold Reading.contents
  induction chosen with
  | nil => rfl
  | cons e rest ih =>
    cases decoded : decodeEntry archive e with
    | ok found => simpa [decoded, Reading.skippedOf] using ih
    | error skipped => simpa [decoded, Reading.skippedOf, entry_of_decodeEntry decoded] using ih

/-- The classes of an archive are those of its records, sorted. -/
theorem classes_perm (name : String) (records : List ClassRecord) :
    (ArchiveFigures.of name records).classes.Perm (records.map (.of (.ofList records))) :=
  List.mergeSort_perm _ _

theorem totals_eq_countP (name : String) (records : List ClassRecord) :
    (ArchiveFigures.of name records).totalClasses =
        ((ArchiveFigures.of name records).classes.map ClassReport.ofFigures).countP
          (fun c => !c.isInterface) ∧
      (ArchiveFigures.of name records).totalInterfaces =
        ((ArchiveFigures.of name records).classes.map ClassReport.ofFigures).countP
          (fun c => c.isInterface) := by
  have perm := (classes_perm name records).map ClassReport.ofFigures
  constructor
  · rw [perm.countP_eq, List.countP_map, List.countP_eq_length_filter]
    rfl
  · rw [perm.countP_eq, List.countP_map, List.countP_eq_length_filter]
    rfl

theorem covers_ofContents (path : String) (request : Request) (archive : ZipArchive)
    (chosen : List ZipEntry) :
    (ArchiveReport.ofContents path request (Reading.contents (decodeEntry archive) chosen)).Covers
      archive chosen := by
  obtain ⟨classes, interfaces⟩ :=
    totals_eq_countP (Path.base path) (Reading.contents (decodeEntry archive) chosen).records
  have names :=
    (classes_perm (Path.base path) (Reading.contents (decodeEntry archive) chosen).records).map
      (·.name)
  have records : (Reading.contents (decodeEntry archive) chosen).records.map ClassRecord.name =
    chosen.filterMap fun e => (Reading.recordOf (decodeEntry archive e)).map ClassRecord.name :=
      List.map_filterMap
  rw [ArchiveReport.ofContents_eq]
  refine ⟨rfl, ?_, ?_, congrArg Nat.cast classes, congrArg Nat.cast interfaces⟩
  · rw [← records]
    rw [List.map_map] at names
    show (List.map (·.name) (List.map ClassReport.ofFigures _)).Perm _
    rw [List.map_map]
    exact names
  · rw [← entries_of_skipped]
    exact List.map_map

/-- The numbers of an archive agree. -/
theorem ArchiveReport.Covers.entriesScanned_eq {a : ArchiveReport} {archive : ZipArchive}
    {chosen : List ZipEntry} (covers : a.Covers archive chosen) :
    a.entriesScanned = a.totalClasses + a.totalInterfaces + a.skipped.length ∧
      a.entriesScanned = a.allClasses.length + a.skipped.length := by
  have classes : a.allClasses.length =
      (Reading.contents (decodeEntry archive) chosen).records.length := by
    have same := covers.decoded.length_eq
    rwa [← List.map_filterMap, List.length_map, List.length_map] at same
  have skipped : a.skipped.length =
      (Reading.contents (decodeEntry archive) chosen).skipped.length := by
    have same := congrArg List.length covers.skipped
    rwa [← entries_of_skipped, List.length_map, List.length_map] at same
  have read : chosen.length = _ := Reading.length_contents (decodeEntry archive) chosen
  have kinds := List.length_eq_length_filter_add (l := a.allClasses) fun c => c.isInterface
  rw [covers.classes, covers.interfaces, covers.scanned, List.countP_eq_length_filter,
    List.countP_eq_length_filter]
  omega

/-! ## The summary -/

theorem foldl_add_eq_sum {α : Type} (f : α → Int) (items : List α) :
    items.foldl (fun sum a => sum + f a) 0 = (items.map f).sum := by
  rw [List.sum_eq_foldl, List.foldl_map]

theorem foldl_max_eq_max? {α : Type} {f : α → Int} {items : List α}
    (nonneg : ∀ a ∈ items, 0 ≤ f a) :
    items.foldl (fun most a => max most (f a)) 0 = (items.map f).max?.getD 0 := by
  have folded : items.foldl (fun most a => max most (f a)) 0 = (items.map f).foldl max 0 := by
    rw [List.foldl_map]
  rw [folded]
  cases items with
  | nil => rfl
  | cons a rest =>
    rw [List.map_cons, List.foldl_cons, Int.max_eq_right (nonneg a List.mem_cons_self)]
    rfl

theorem length_warnings (archives : List ArchiveReport) :
    ((archives.flatMap (·.warnings)).length : Int) =
      (archives.map fun a => (a.skipped.length : Int)).sum + archives.countP fun a =>
        a.entriesScanned == 0 := by
  induction archives with
  | nil => rfl
  | cons a rest ih =>
    have here : a.warnings.length = a.skipped.length + if a.entriesScanned == 0 then 1 else 0 := by
      unfold ArchiveReport.warnings
      split <;> simp
    rw [List.flatMap_cons, List.length_append, List.map_cons, List.sum_cons, List.countP_cons, here]
    omega

/-! ## The report -/

/-- All numbers of a report agree with each other and with the files. -/
structure Balanced (tree : FileTree) (request : Request) (report : Report) : Prop where
  archives : report.archives = request.paths.filterMap (archiveAt? tree request)
  errors : report.errors = request.paths.filterMap (faultAt? tree request)
  inOrder : (report.archives.map (·.path)).Sublist request.paths
  paths : report.archives.length + report.errors.length = request.paths.length
  covers : ∀ a ∈ report.archives, ∃ archive chosen,
    openedArchive? tree request a.path = some (archive, chosen) ∧ a.Covers archive chosen
  entries : ∀ a ∈ report.archives, a.entriesScanned =
    a.totalClasses + a.totalInterfaces + a.skipped.length ∧
    a.entriesScanned = a.allClasses.length + a.skipped.length
  analyzed : report.summary.archives = report.archives.length
  totalClasses : report.summary.totalClasses = (report.archives.map (·.totalClasses)).sum
  totalInterfaces : report.summary.totalInterfaces = (report.archives.map (·.totalInterfaces)).sum
  skippedEntries : report.summary.skippedEntries =
    (report.archives.map fun a => (a.skipped.length : Int)).sum
  maxDepth : report.summary.maxDepth = (report.archives.map (·.maxDepth)).max?.getD 0
  warnings : (report.warnings.length : Int) =
    report.summary.skippedEntries + report.archives.countP fun a => a.entriesScanned == 0

/-- A path has a report or a line, and not both. -/
theorem length_archives_add_faults (tree : FileTree) (request : Request) (paths : List String) :
    (paths.filterMap (archiveAt? tree request)).length +
      (paths.filterMap (faultAt? tree request)).length =
      paths.length := by
  induction paths with
  | nil => rfl
  | cons path rest ih =>
    rw [List.filterMap_cons, List.filterMap_cons, archiveAt?, faultAt?, List.length_cons, ← ih]
    cases (analyzeArchive tree request none path).outcome with
    | ok report => exact Nat.add_right_comm _ 1 _
    | error cause => rfl

theorem path_of_archiveAt? {path : String} {a : ArchiveReport}
    (reported : archiveAt? tree request path = some a) :
    a.path = path := by
  obtain ⟨archive, chosen, -, rfl⟩ := exists_opened_of_archiveAt? reported
  exact ArchiveReport.path_ofContents _ _ _

theorem paths_sublist (tree : FileTree) (request : Request) (paths : List String) :
    ((paths.filterMap (archiveAt? tree request)).map (·.path)).Sublist paths := by
  induction paths with
  | nil => exact List.Sublist.refl _
  | cons path rest ih =>
    rw [List.filterMap_cons]
    cases reported : archiveAt? tree request path with
    | none => exact ih.cons path
    | some a =>
      show (a.path :: _).Sublist _
      rw [path_of_archiveAt? reported]
      exact ih.cons_cons path

theorem balanced_undisturbedReport (host : Host) (request : Request) :
    Balanced host.tree request (undisturbedReport host request) := by
  have reported : ∀ a ∈ (undisturbedReport host request).archives,
      archiveAt? host.tree request a.path = some a := by
    intro a member
    obtain ⟨path, -, reported⟩ := List.mem_filterMap.mp member
    rwa [path_of_archiveAt? reported]
  have covers : ∀ a ∈ (undisturbedReport host request).archives, ∃ archive chosen,
      openedArchive? host.tree request a.path = some (archive, chosen) ∧
      a.Covers archive chosen := by
    intro a member
    obtain ⟨archive, chosen, opened, made⟩ := exists_opened_of_archiveAt? (reported a member)
    exact ⟨archive, chosen, opened, made ▸ covers_ofContents _ _ _ _⟩
  have deep : ∀ a ∈ (undisturbedReport host request).archives, 0 ≤ a.maxDepth := by
    intro a member
    obtain ⟨archive, chosen, -, made⟩ := exists_opened_of_archiveAt? (reported a member)
    rw [made, ArchiveReport.ofContents_eq]
    exact Int.natCast_nonneg _
  have skipped := foldl_add_eq_sum (fun a : ArchiveReport => (a.skipped.length : Int))
    (undisturbedReport host request).archives
  refine ⟨rfl, rfl, paths_sublist _ _ _, length_archives_add_faults _ _ _, covers,
    fun a member => ?_, rfl,
    foldl_add_eq_sum _ _, foldl_add_eq_sum _ _, skipped, foldl_max_eq_max? deep, ?_⟩
  · obtain ⟨archive, chosen, -, covered⟩ := covers a member
    exact covered.entriesScanned_eq
  · exact (length_warnings _).trans (congrArg (· + _) skipped.symm)

end

/-- An analysis that is not interrupted has a report, whatever the paths, the files and the
interleaving of the tasks; and the numbers of this report are balanced. -/
theorem analyze_balanced (host : Host) (request : Request) :
    ∃ report, (analyze host request none).outcome = .ok report ∧
      (∀ limit courses, Undisturbed host.tree request limit courses →
        (analyzeBy host request limit courses none).outcome = .ok report) ∧
      Balanced host.tree request report :=
  ⟨undisturbedReport host request, analyze_undisturbed host request,
    fun _ _ => analyzeBy_undisturbed,
    balanced_undisturbedReport host request⟩

/-- An archive with one class and a path at which there is nothing, with four tasks at a time. -/
theorem analyze_balanced_shelf :
    let request : Request := { paths := ["d/z.jar", "a/x.jar"] }
    Undisturbed shelf.tree request 4 (fun _ => {}) ∧
    ∃ report, (analyzeBy shelf request 4 (fun _ => {}) none).outcome = .ok report ∧
      report.archives.length = 1 ∧
      report.errors.length = 1 ∧ Balanced shelf.tree request report := by
  intro request
  obtain ⟨report, -, any, balanced⟩ := analyze_balanced shelf request
  have undisturbed := undisturbed_inOrder shelf.tree request (show 1 ≤ 4 by decide)
  obtain ⟨a, -, analyzed, -⟩ := analyzed_oneClass shelf_read.1 request.paths
  have found : archiveAt? shelf.tree request "a/x.jar" = some a := by
    unfold archiveAt?
    rw [analyzed]
    rfl
  have missing : archiveAt? shelf.tree request "d/z.jar" = none := by
    have here : shelf.tree.hereNames = [] := by decide +kernel
    have parts : Path.parts "d/z.jar" = ["d", "z.jar"] := by decide +kernel
    have unread : openedArchive? shelf.tree request "d/z.jar" = none := by
      simp only [openedArchive?, FileTree.read, FileTree.status, FileTree.locate,
        parts, here, FileTree.walk]
      rfl
    obtain ⟨f, -, failed⟩ := analyzeArchiveBy_unopened unread
    unfold archiveAt? analyzeArchive
    rw [failed]
    rfl
  have archives : report.archives = [a] := by
    rw [balanced.archives]
    simp [request, found, missing]
  have both := balanced.paths
  rw [archives] at both
  exact ⟨undisturbed, report, any 4 _ undisturbed, by rw [archives]; rfl,
    Nat.add_left_cancel both, balanced⟩

end JarMetrics
