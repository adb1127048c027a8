import JarMetrics.Analysis.Basic
import JarMetrics.Proofs.Scheduling
import Mathlib.Data.List.Forall2

/-!
# Interrupts never leave a partial result

An interrupt may come between any two steps of any task, and between any two archives.
`interrupted_or_complete`: a reading that is over gives the interrupt and nothing else, or all that
an undisturbed reading gives; so does an analysis of any number of archives, and no interrupt is
ever told as the fault of an archive.

For a reading this rests on `Reading.Answered`: a task is refused only once the run is interrupted,
and then the run fails. For an analysis it rests on `analyzeArchiveBy_settled`: what comes of one
path is what comes of it without interrupts, or it is the interrupt. `analyzePathsBy_settled` goes
through the paths.
-/

namespace JarMetrics

namespace Reading

variable {decode : ZipEntry → Except SkippedEntry ClassRecord} {limit : Nat}
  {chosen : List ZipEntry} {r : Reading}

/-! ## Readings -/

/-- A run that is over has failed for the first interrupt, or it has read everything. -/
theorem outcome_of_finished {archive : ZipArchive} {actions : List Action}
    (finished : (run limit archive chosen actions).finished = true) :
    (run limit archive chosen actions).outcome = .ok (contents (decodeEntry archive) chosen) ∨
      ∃ i, Action.firstInterrupt? actions = some i ∧
        (run limit archive chosen actions).outcome = .error (.interrupted i) := by
  have consistent := consistent_run (decodeEntry archive) limit chosen actions
  obtain ⟨answered, heard⟩ := answered_run (decodeEntry archive) limit chosen actions
  cases failed : (run limit archive chosen actions).failure with
  | none => exact .inl (consistent.outcome_eq failed (answered.accepted failed) finished)
  | some i =>
    refine .inr ⟨i, heard.symm.trans (answered.failure i failed), ?_⟩
    unfold outcome
    rw [failed]

/-- Every entry is among the records or was skipped. -/
theorem mem_contents (decode : ZipEntry → Except SkippedEntry ClassRecord) {e : ZipEntry}
    (among : e ∈ chosen) :
    (∃ found ∈ (contents decode chosen).records, decode e = .ok found) ∨
      ∃ skipped ∈ (contents decode chosen).skipped, decode e = .error skipped := by
  cases result : decode e with
  | ok found => exact .inl ⟨found, List.mem_filterMap.mpr ⟨e, among, by rw [result]; rfl⟩, rfl⟩
  | error skipped =>
    exact .inr ⟨skipped, List.mem_filterMap.mpr ⟨e, among, by rw [result]; rfl⟩, rfl⟩

/-- How often a run was interrupted with an effect: never or once. -/
def heard (r : Reading) : Nat := if r.interrupted.isSome then 1 else 0

theorem heard_le (r : Reading) : r.heard ≤ 1 := by
  unfold heard
  split <;> omega

/-- Actions that all have an effect are counted by the work that they do and by the one
interrupt. -/
theorem work_add_heard_of_effective {actions : List Action}
    (effective : Effective decode limit r actions) :
    (actions.foldl (step decode limit) r).work + (actions.foldl (step decode limit) r).heard =
      r.work + r.heard + actions.length := by
  induction actions generalizing r with
  | nil => rfl
  | cons a rest ih =>
    obtain ⟨changes, later⟩ := effective
    have first : (r.step decode limit a).work + (r.step decode limit a).heard =
        r.work + r.heard + 1 := by
      by_cases own : ∀ i, a ≠ .interrupt i
      · rcases step_eq_or_move decode limit r own with same | move
        · exact absurd same changes
        · have kept : (r.step decode limit a).heard = r.heard := by
            unfold heard
            rw [move.interrupted_eq]
          rw [move.work_eq, kept]
          omega
      · obtain ⟨i, rfl⟩ : ∃ i, a = .interrupt i := by simpa using own
        -- a second interrupt would change nothing
        have going : r.interrupted = none := by
          refine Option.eq_none_iff_forall_ne_some.mpr fun j interrupted => changes ?_
          show { r with interrupted := r.interrupted.or (some i) } = r
          rw [interrupted, Option.some_or, ← interrupted]
        have before : r.heard = 0 := by
          unfold heard
          rw [going]
          rfl
        have after : (r.step decode limit (.interrupt i)).heard = 1 := by
          show (if (r.interrupted.or (some i)).isSome then 1 else 0) = 1
          rw [going]
          rfl
        rw [before, after]
        rfl
    rw [List.foldl_cons, ih later, first, List.length_cons]
    omega

end Reading

/-! ## One archive -/

/-- The archive at a path with its chosen entries, if it can be opened and the patterns are well
formed. -/
def openedArchive? (tree : FileTree) (request : Request) (path : String) :
    Option (ZipArchive × List ZipEntry) :=
  match tree.read path with
  | .error _ => none
  | .ok content =>
      match ZipArchive.read ⟨content.toArray⟩ with
      | .error _ => none
      | .ok archive => (request.selection.apply archive.entries).toOption.map (archive, ·)

/-- The reading of the archive at a path, if there is one, comes to its end. -/
def Course.Settles (course : Course) (tree : FileTree) (request : Request) (limit : Nat)
    (path : String) : Prop :=
  ∀ archive chosen, openedArchive? tree request path = some (archive, chosen) →
    (Reading.run limit archive chosen (course.schedule chosen.length)).finished = true

/-- The interrupts while the archive at a path is read, in the order in which they come. -/
def Course.during (course : Course) (tree : FileTree) (request : Request) (path : String) :
    List Interrupt :=
  match openedArchive? tree request path with
  | some (_, chosen) => (course.schedule chosen.length).filterMap Action.interrupt?
  | none => []

/-- What comes of a path without interrupts: a report of it, or a line that says what is wrong with
it. -/
inductive Accounts (tree : FileTree) (request : Request) (path : String) : PathResult → Prop
  | report {report : ArchiveReport} : (analyzeArchive tree request none path).outcome = .ok report →
      report.path = path → Accounts tree request path (.ok report)
  | fault {cause : Failure} : (analyzeArchive tree request none path).outcome = .error cause →
      cause.interrupt? = none →
      Accounts tree request path (.error ("[" ++ path ++ "] " ++ cause.message))

/-- A file that cannot be read is no interrupt. -/
theorem FileTree.interrupt?_of_read {tree : FileTree} {path : String} {cause : Failure}
    (failed : tree.read path = .error cause) : cause.interrupt? = none := by
  have plain : ∀ (operation : String) (error : FileError),
      (error.failure operation path).interrupt? = none := by
    intro operation error
    cases error <;> rfl
  unfold FileTree.read at failed
  split at failed
  · cases failed
  · cases failed
    exact plain _ _
  · cases failed
    exact plain _ _

/-- The failure of an archive is an interrupt exactly when its cause is one. -/
theorem interrupt?_archiveFailure (path : String) (cause : Failure) :
    (archiveFailure path cause).interrupt? = cause.interrupt? := by
  unfold archiveFailure
  split
  · rfl
  · exact Failure.interrupt?_codedBy _ _ _

/-- What an analysis makes of the outcome of a reading. -/
def archiveOutcome (path : String) (request : Request) :
    Outcome ArchiveContents → Outcome ArchiveReport
  | .error cause => .error (archiveFailure path cause)
  | .ok contents => .ok (ArchiveReport.ofContents path request contents)

section

variable {tree : FileTree} {request : Request} {path : String}

/-- An archive that cannot be opened is a failure of its own, whatever the schedule. -/
theorem analyzeArchiveBy_unopened (unopened : openedArchive? tree request path = none) :
    ∃ f, f.interrupt? = none ∧
      ∀ limit schedule, (analyzeArchiveBy tree request limit schedule path).outcome = .error f := by
  unfold openedArchive? at unopened
  unfold analyzeArchiveBy readArchiveBy
  cases file : tree.read path with
  | error cause =>
    refine ⟨_, ?_, fun limit schedule => rfl⟩
    rw [interrupt?_archiveFailure, Failure.interrupt?_noted, FileTree.interrupt?_of_read file]
  | ok content =>
    simp only [file] at unopened ⊢
    cases parsed : ZipArchive.read ⟨content.toArray⟩ with
    | error fault =>
      refine ⟨_, ?_, fun limit schedule => rfl⟩
      rw [interrupt?_archiveFailure]
      rfl
    | ok archive =>
      simp only [parsed] at unopened ⊢
      cases selected : request.selection.apply archive.entries with
      | ok chosen =>
        rw [selected] at unopened
        cases unopened
      | error cause =>
        unfold readEntriesBy
        simp only [selected]
        refine ⟨_, ?_, fun limit schedule => rfl⟩
        rw [interrupt?_archiveFailure]
        unfold Selection.apply at selected
        split at selected
        · cases selected
          rfl
        · cases selected

/-- An archive that can be opened gives what its reading gives. -/
theorem analyzeArchiveBy_opened {archive : ZipArchive} {chosen : List ZipEntry}
    (opened : openedArchive? tree request path = some (archive, chosen)) (limit : Nat)
    (schedule : Nat → List Action) :
    (analyzeArchiveBy tree request limit schedule path).outcome =
      archiveOutcome path request
        (Reading.run limit archive chosen (schedule chosen.length)).outcome := by
  unfold openedArchive? at opened
  unfold analyzeArchiveBy readArchiveBy
  cases file : tree.read path with
  | error cause =>
    rw [file] at opened
    cases opened
  | ok content =>
    simp only [file] at opened ⊢
    cases parsed : ZipArchive.read ⟨content.toArray⟩ with
    | error fault =>
      rw [parsed] at opened
      cases opened
    | ok found =>
      simp only [parsed] at opened ⊢
      cases selected : request.selection.apply found.entries with
      | error cause =>
        rw [selected] at opened
        cases opened
      | ok entries =>
        rw [selected] at opened
        cases opened
        unfold readEntriesBy
        simp only [selected]
        cases (Reading.run limit archive chosen (schedule chosen.length)).outcome <;> rfl

theorem during_opened {archive : ZipArchive} {chosen : List ZipEntry} (course : Course)
    (opened : openedArchive? tree request path = some (archive, chosen)) :
    (course.during tree request path).head? =
      Action.firstInterrupt? (course.schedule chosen.length) := by
  unfold Course.during
  rw [opened]
  exact List.head?_filterMap

theorem ArchiveReport.path_ofContents (path : String) (request : Request)
    (contents : ArchiveContents) :
    (ofContents path request contents).path = path := by
  unfold ofContents
  dsimp only
  split <;> rfl

theorem ArchiveReport.entriesScanned_ofContents (path : String) (request : Request)
    (contents : ArchiveContents) :
    (ofContents path request contents).entriesScanned = contents.entries := by
  unfold ofContents
  dsimp only
  split <;> rfl

/-- What comes of one path: the interrupt that came while its archive was read, or what comes of it
without interrupts. -/
theorem analyzeArchiveBy_settled {course : Course} {limit : Nat}
    (settles : course.Settles tree request limit path) :
    (∃ i, (analyzeArchiveBy tree request limit course.schedule path).outcome =
        .error (.interrupted i) ∧
      (course.during tree request path).head? = some i) ∨
    (∃ report, (analyzeArchiveBy tree request limit course.schedule path).outcome = .ok report ∧
      Accounts tree request path (.ok report) ∧
      (course.during tree request path).head? =
        Action.firstInterrupt? (course.schedule report.entriesScanned.toNat)) ∨
    ∃ cause, (analyzeArchiveBy tree request limit course.schedule path).outcome = .error cause ∧
      cause.interrupt? = none ∧
      Accounts tree request path (.error ("[" ++ path ++ "] " ++ cause.message)) ∧
      course.during tree request path = [] := by
  cases opened : openedArchive? tree request path with
  | none =>
    obtain ⟨cause, uninterrupted, failed⟩ := analyzeArchiveBy_unopened opened
    have quiet : course.during tree request path = [] := by
      unfold Course.during
      rw [opened]
    exact .inr (.inr ⟨cause, failed _ _, uninterrupted, .fault (failed _ _) uninterrupted, quiet⟩)
  | some pair =>
    obtain ⟨archive, chosen⟩ := pair
    have heard := during_opened course opened
    rw [analyzeArchiveBy_opened opened]
    rcases Reading.outcome_of_finished (settles archive chosen opened) with complete |
      ⟨i, first, interrupted⟩
    · refine .inr (.inl ⟨_, by rw [complete]; rfl,
        .report ?_ (ArchiveReport.path_ofContents _ _ _), ?_⟩)
      · -- the entries one after the other give the same contents
        obtain ⟨plain, -⟩ := Reading.run_of_finished (Reading.inOrder_own chosen.length)
          (Reading.finished_inOrder (decodeEntry archive) (Nat.le_refl 1) chosen)
        unfold analyzeArchive
        rw [analyzeArchiveBy_opened opened, plain]
        rfl
      · rw [ArchiveReport.entriesScanned_ofContents]
        exact heard
    · refine .inl ⟨i, ?_, heard.trans first⟩
      rw [interrupted]
      rfl

/-! ## All archives -/

/-- The interrupts in the courses of paths, in the order in which they come. -/
def courseInterrupts (tree : FileTree) (request : Request) (courses : Nat → Course) :
    Nat → List String → List Interrupt
  | _, [] => []
  | position, path :: rest =>
      (courses position).before.toList ++ (courses position).during tree request path ++
        courseInterrupts tree request courses (position + 1) rest

/-- An analysis was ended by the first of some interrupts, or it has a result for each path. -/
def AllOrNothing (tree : FileTree) (request : Request) (interrupts : List Interrupt)
    (paths : List String) (outcome : Outcome (List PathResult)) : Prop :=
  (∃ f i, outcome = .error f ∧ f.interrupt? = some i ∧ interrupts.head? = some i) ∨
    ∃ results, outcome = .ok results ∧ List.Forall₂ (Accounts tree request) paths results

/-- One more path with a result, during which `front` has come, goes in front of the others. -/
theorem AllOrNothing.behind {front back : List Interrupt} {rest : List String}
    {others : PathsAnalysis}
    (settled : AllOrNothing tree request (front.head?.toList ++ back) rest others.outcome)
    (log : List Log.Line) {result : PathResult} (accounts : Accounts tree request path result) :
    AllOrNothing tree request (front ++ back) (path :: rest)
      (others.behind log result).outcome := by
  show AllOrNothing _ _ _ _ (others.outcome.map (result :: ·))
  rcases settled with ⟨f, i, failed, interrupted, first⟩ | ⟨results, complete, accounted⟩
  · have same : (front.head?.toList ++ back).head? = (front ++ back).head? := by cases front <;> rfl
    rw [failed]
    exact .inl ⟨f, i, rfl, interrupted, same ▸ first⟩
  · rw [complete]
    exact .inr ⟨result :: results, rfl, .cons accounts accounted⟩

/-- What comes of all paths: the first interrupt, or a result for each of them. -/
theorem analyzePathsBy_settled {limit : Nat} {courses : Nat → Course} {position : Nat}
    {paths : List String} (context : Option Interrupt)
    (settles : ∀ k path, paths[k]? = some path →
      (courses (position + k)).Settles tree request limit path) :
    AllOrNothing tree request
      (context.toList ++ courseInterrupts tree request courses position paths) paths
      (analyzePathsBy tree request limit courses context position paths).outcome := by
  induction paths generalizing position context with
  | nil => exact .inr ⟨[], rfl, .nil⟩
  | cons path rest ih =>
    have here : (courses position).Settles tree request limit path := settles 0 path rfl
    have later : ∀ k path, rest[k]? = some path →
        (courses (position + 1 + k)).Settles tree request limit path := by
      intro k path stands
      rw [Nat.add_assoc, Nat.add_comm 1 k]
      exact settles (k + 1) path stands
    unfold analyzePathsBy courseInterrupts
    cases asked : context.or (courses position).before with
    | some reason =>
      refine .inl ⟨_, reason, rfl, rfl, ?_⟩
      cases context with
      | some earlier => exact asked
      | none =>
        rw [Option.none_or] at asked
        rw [asked]
        rfl
    | none =>
      obtain ⟨rfl, before⟩ := Option.or_eq_none_iff.mp asked
      rw [before]
      rcases analyzeArchiveBy_settled here with ⟨i, failed, first⟩ |
        ⟨report, complete, accounts, heard⟩ |
        ⟨cause, failed, uninterrupted, accounts, quiet⟩
      · simp only [failed]
        refine .inl ⟨_, i, rfl, rfl, ?_⟩
        show ((courses position).during tree request path ++ _).head? = some i
        rw [List.head?_append, first, Option.some_or]
      · -- an interrupt that came too late for this archive is there before the next one
        simp only [complete, ← heard]
        exact (ih _ later).behind _ accounts
      · simp only [failed, uninterrupted, Option.isSome_none, Bool.false_eq_true, if_false, quiet]
        exact AllOrNothing.behind (ih none later) _ accounts

end

/-! ## Reports -/

/-- Each result is a report or a line. -/
theorem length_reports_add_errors (results : List PathResult) :
    (PathResult.reports results).length + (PathResult.errors results).length = results.length := by
  induction results with
  | nil => rfl
  | cons result results ih =>
    cases result with
    | ok report =>
      show (PathResult.reports results).length + 1 +
        (PathResult.errors results).length = results.length + 1
      omega
    | error line =>
      show (PathResult.reports results).length + ((PathResult.errors results).length + 1) =
        results.length + 1
      omega

/-- Each line tells what is wrong with one of the paths. -/
theorem exists_fault_of_mem_errors {tree : FileTree} {request : Request} {paths : List String}
    {results : List PathResult} (accounted : List.Forall₂ (Accounts tree request) paths results)
    {line : String} (told : line ∈ PathResult.errors results) :
    ∃ path ∈ paths, ∃ cause, (analyzeArchive tree request none path).outcome = .error cause ∧
      cause.interrupt? = none ∧ line = "[" ++ path ++ "] " ++ cause.message := by
  induction accounted with
  | nil => cases told
  | @cons path result paths results accounts rest ih =>
    cases accounts with
    | report =>
      obtain ⟨path, member, fault⟩ := ih told
      exact ⟨path, List.mem_cons_of_mem _ member, fault⟩
    | @fault cause failed uninterrupted =>
      rcases List.mem_cons.mp told with rfl | later
      · exact ⟨path, List.mem_cons_self, cause, failed, uninterrupted, rfl⟩
      · obtain ⟨path, member, fault⟩ := ih later
        exact ⟨path, List.mem_cons_of_mem _ member, fault⟩

theorem readEntriesBy_outcome {archive : ZipArchive} {selection : Selection}
    {chosen : List ZipEntry} (selected : selection.apply archive.entries = .ok chosen) (limit : Nat)
    (schedule : Nat → List Action) :
    (readEntriesBy limit schedule archive selection).outcome =
      (Reading.run limit archive chosen (schedule chosen.length)).outcome := by
  unfold readEntriesBy
  rw [selected]

open Reading in
/-- An interrupt at any moment leaves no partial result. A reading that is over, however its tasks
interleaved and however many were allowed at a time, has failed for the first interrupt, or it has
read what an undisturbed reading reads, with every chosen entry among the records or the skipped
ones. Until then some task can go on, and there are no more than eight moves for each entry and one
interrupt. An analysis whose readings come to their end has failed for the first interrupt that
came, before, during or between the archives, or each path has one report or one line in the errors,
and no line tells of an interrupt. -/
theorem interrupted_or_complete (limit : Nat) :
    (∀ (archive : ZipArchive) (selection : Selection) (chosen : List ZipEntry)
        (schedule : Nat → List Action),
      selection.apply archive.entries = .ok chosen →
      ((run limit archive chosen (schedule chosen.length)).finished = true →
        (∃ i, Action.firstInterrupt? (schedule chosen.length) = some i ∧
          (readEntriesBy limit schedule archive selection).outcome = .error (.interrupted i)) ∨
        ∃ contents, (readEntriesBy limit schedule archive selection).outcome = .ok contents ∧
          (readEntries archive selection none).outcome = .ok contents ∧
          contents.records.length + contents.skipped.length = chosen.length ∧
          ∀ e ∈ chosen, (∃ found ∈ contents.records, decodeEntry archive e = .ok found) ∨
            ∃ skipped ∈ contents.skipped, decodeEntry archive e = .error skipped) ∧
      (1 ≤ limit → (run limit archive chosen (schedule chosen.length)).finished = false →
        ∃ a, (∀ i, a ≠ .interrupt i) ∧
          (run limit archive chosen (schedule chosen.length)).step (decodeEntry archive) limit a ≠
            run limit archive chosen (schedule chosen.length)) ∧
      (Effective (decodeEntry archive) limit (fresh chosen) (schedule chosen.length) →
        (schedule chosen.length).length ≤ 8 * chosen.length + 1)) ∧
    ∀ (host : Host) (request : Request) (courses : Nat → Course) (context : Option Interrupt),
      (∀ k path, request.paths[k]? = some path → (courses k).Settles host.tree request limit path) →
      (∃ f i, (analyzeBy host request limit courses context).outcome = .error f ∧
        f.interrupt? = some i ∧
        (context.toList ++ courseInterrupts host.tree request courses 0 request.paths).head? =
          some i) ∨
      ∃ results, (analyzeBy host request limit courses context).outcome =
        .ok (Report.ofResults host results) ∧
        List.Forall₂ (Accounts host.tree request) request.paths results ∧
        (Report.ofResults host results).archives.length +
          (Report.ofResults host results).errors.length =
          request.paths.length ∧
        ∀ line ∈ (Report.ofResults host results).errors, ∃ path ∈ request.paths, ∃ cause,
          (analyzeArchive host.tree request none path).outcome = .error cause ∧
          cause.interrupt? = none ∧
          line = "[" ++ path ++ "] " ++ cause.message := by
  refine ⟨fun archive selection chosen schedule selected => ?_,
    fun host request courses context settles => ?_⟩
  · have consistent := consistent_run (decodeEntry archive) limit chosen (schedule chosen.length)
    refine ⟨fun finished => ?_, fun workers unfinished => ?_, fun effective => ?_⟩
    · rw [readEntriesBy_outcome selected]
      rcases outcome_of_finished finished with complete | failed
      · have plain : (readEntries archive selection none).outcome =
            .ok (contents (decodeEntry archive) chosen) := by
          unfold readEntries
          rw [readEntriesBy_outcome selected]
          exact (run_of_finished (inOrder_own chosen.length)
            (finished_inOrder (decodeEntry archive) (Nat.le_refl 1) chosen)).1
        exact .inr ⟨_, complete, plain, (length_contents _ _).symm,
          fun e among => mem_contents _ among⟩
      · exact .inl failed
    · obtain ⟨a, own, move⟩ := consistent.exists_move workers unfinished
      -- a move that changed nothing would not add to the work
      refine ⟨a, own, fun same => ?_⟩
      have more := move.work_eq
      unfold run at same
      rw [same] at more
      omega
    · have worked := work_add_heard_of_effective effective
      have once :=
        heard_le ((schedule chosen.length).foldl (step (decodeEntry archive) limit) (fresh chosen))
      have bound := consistent.work_le
      omega
  · have later : ∀ k path, request.paths[k]? = some path →
        (courses (0 + k)).Settles host.tree request limit path := by
      intro k path stands
      rw [Nat.zero_add]
      exact settles k path stands
    have reported : (analyzeBy host request limit courses context).outcome =
        (analyzePathsBy host.tree request limit courses context 0 request.paths).outcome.map
          (Report.ofResults host) := rfl
    rw [reported]
    rcases analyzePathsBy_settled context later with ⟨f, i, failed, interrupted, first⟩ |
      ⟨results, complete, accounted⟩
    · rw [failed]
      exact .inl ⟨f, i, rfl, interrupted, first⟩
    · rw [complete]
      refine .inr ⟨results, rfl, accounted, ?_, fun line told => ?_⟩
      · exact (length_reports_add_errors results).trans accounted.length_eq.symm
      · exact exists_fault_of_mem_errors accounted told

/-- One task that is interrupted after it has asked, and goes on. -/
def lateInterrupt : List Action :=
  [.launch, .advance 0, .interrupt .canceled] ++ List.replicate 6 (.advance 0)

/-- Two paths of which neither can be opened; the deadline passes between them. -/
def passedDeadline (position : Nat) : Course :=
  if position = 1 then { before := some .deadline } else {}

open Reading in
theorem interrupted_or_complete_late :
    let archive : ZipArchive := ⟨⟨#[]⟩, [misplacedEntry 0x61]⟩
    let host : Host := { tree := ⟨.directory [], "/"⟩ }
    (∃ contents, (readEntriesBy 1 (fun _ => lateInterrupt) archive {}).outcome = .ok contents ∧
      contents.records.length + contents.skipped.length = 1) ∧
    ∃ f, (analyzeBy host { paths := ["", ""] } 1 passedDeadline none).outcome = .error f ∧
      f.interrupt? = some .deadline := by
  intro archive host
  obtain ⟨reading, analysis⟩ := interrupted_or_complete 1
  have selected : ({} : Selection).apply archive.entries = .ok [misplacedEntry 0x61] := by
    have kept :
        (archive.entries.filter fun e => !e.isDirectory && ({} : Selection).selects e.name) =
        archive.entries := by decide +kernel
    show Except.ok (List.mergeSort _ _) = _
    rw [kept, List.mergeSort_singleton]
  refine ⟨?_, ?_⟩
  · have finished : (run 1 archive [misplacedEntry 0x61] lateInterrupt).finished = true := by decide
    have unfailed : (run 1 archive [misplacedEntry 0x61] lateInterrupt).failure = none := by decide
    rcases (reading archive {} _ (fun _ => lateInterrupt) selected).1 finished with ⟨i, -, failed⟩ |
      complete
    · rw [readEntriesBy_outcome selected, outcome, unfailed] at failed
      cases failed
    · obtain ⟨contents, outcome, -, length, -⟩ := complete
      exact ⟨contents, outcome, length⟩
  · have unopened : openedArchive? host.tree { paths := ["", ""] } "" = none := rfl
    have settles : ∀ (k : Nat) (path : String), ["", ""][k]? = some path →
        (passedDeadline k).Settles host.tree { paths := ["", ""] } 1 path := by
      intro k path stands archive chosen opened
      obtain rfl : path = "" := by
        have member := List.mem_of_getElem? stands
        simpa using member
      rw [unopened] at opened
      cases opened
    rcases analysis host { paths := ["", ""] } passedDeadline none settles
      with ⟨f, i, failed, named, first⟩ | complete
    · exact ⟨f, failed, named.trans (first.symm.trans rfl)⟩
    · obtain ⟨results, complete, -⟩ := complete
      have ended : (analyzeBy host { paths := ["", ""] } 1 passedDeadline none).outcome =
          .error (cancelled (.interrupted .deadline)) := rfl
      rw [ended] at complete
      cases complete

end JarMetrics
