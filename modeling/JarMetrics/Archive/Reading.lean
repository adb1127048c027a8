import JarMetrics.Archive.Selection
import JarMetrics.Log

/-!
# Reading the classes of an archive

Every chosen entry is a task of its own. Tasks are launched in the order of the entries, and no more
than a given number of them is under way at a time. A task asks first whether the run was
interrupted; a refused task does nothing more. Otherwise it decodes its entry, stores the record or
what went wrong in its own slot, and then, while it holds a lock, counts itself as done and reports
how many are.

Tasks interleave in any way: a run is a sequence of actions, each of which lets one task go one step
further. An action that cannot happen changes nothing. The outcome is read off the slots in the
order of the entries. `Reading.inOrder` runs one task after the other.

An entry that cannot be decoded is skipped and does not spoil the others.
-/

namespace JarMetrics

/-- An entry that was skipped. -/
structure SkippedEntry where
  entry : String
  cause : Failure
  deriving Repr, DecidableEq

/-- The wording of a skipped entry. -/
def SkippedEntry.failure (s : SkippedEntry) : Failure := .atEntry s.entry s.cause

/-- What was read from an archive. -/
structure ArchiveContents where
  /-- How many entries were chosen. -/
  entries : Nat
  records : List ClassRecord
  skipped : List SkippedEntry
  deriving Repr, DecidableEq

/-- Decode one entry. -/
def decodeEntry (archive : ZipArchive) (e : ZipEntry) : Except SkippedEntry ClassRecord :=
  match archive.content e with
  | .error fault => .error ⟨e.name, .zip fault⟩
  | .ok bytes =>
      match ClassRecord.decode bytes with
      | .error error => .error ⟨e.name, .record error⟩
      | .ok found => .ok found

/-! ## Tasks -/

/-- How far a task has come. -/
inductive Stage
  | launched (e : ZipEntry)
  /-- The run was not interrupted when the task asked. -/
  | checked (e : ZipEntry)
  | decoded (result : Except SkippedEntry ClassRecord)
  | stored
  /-- The task holds the lock. -/
  | locked
  /-- The task holds the lock and has counted itself. -/
  | counted
  /-- The task holds the lock and has reported. -/
  | called
  | ended
  | refused

/-- The task does nothing more. -/
def Stage.isOver : Stage → Bool
  | .ended | .refused => true
  | _ => false

/-- Something that happens during a run. -/
inductive Action
  /-- The next task is launched. -/
  | launch
  /-- A task takes its next step. -/
  | advance (task : Nat)
  /-- The run is interrupted from outside. -/
  | interrupt (reason : Interrupt)
  deriving Repr, DecidableEq

/-- The interrupt that an action is, if it is one. -/
def Action.interrupt? : Action → Option Interrupt
  | .interrupt i => some i
  | _ => none

/-- The first interrupt among actions. -/
def Action.firstInterrupt? (actions : List Action) : Option Interrupt :=
  actions.findSome? interrupt?

/-- The state of a run. -/
structure Reading where
  /-- The entries whose tasks are still to be launched. -/
  pending : List ZipEntry
  /-- The tasks that were launched. -/
  tasks : List Stage := []
  /-- One slot for each entry. -/
  records : List (Option ClassRecord)
  failures : List (Option SkippedEntry)
  /-- The task that holds the lock. -/
  lock : Option Nat := none
  processed : Nat := 0
  /-- How many entries were done, and how many there are, at each report, latest first. -/
  calls : List (Nat × Nat) := []
  interrupted : Option Interrupt := none
  /-- What the first refused task was refused for. -/
  failure : Option Interrupt := none

namespace Reading

/-- Nothing launched. -/
def fresh (chosen : List ZipEntry) : Reading :=
  { pending := chosen
    records := List.replicate chosen.length none
    failures := List.replicate chosen.length none }

/-- The number of tasks under way. -/
def active (r : Reading) : Nat := r.tasks.countP fun stage => !stage.isOver

/-- Every task was launched and is over. -/
def finished (r : Reading) : Bool := r.pending.isEmpty && r.tasks.all Stage.isOver

/-- Put a task in a new stage. -/
def setTask (r : Reading) (task : Nat) (stage : Stage) : Reading :=
  { r with tasks := r.tasks.set task stage }

/-- The next step of a task from its stage. -/
def advance (decode : ZipEntry → Except SkippedEntry ClassRecord) (r : Reading) (task : Nat) :
    Stage → Reading
  | .launched e =>
      match r.interrupted with
      | none => r.setTask task (.checked e)
      | some i => { r.setTask task .refused with failure := r.failure.or (some i) }
  | .checked e => r.setTask task (.decoded (decode e))
  | .decoded (.ok found) =>
      { r.setTask task .stored with records := r.records.set task (some found) }
  | .decoded (.error skipped) =>
      { r.setTask task .stored with failures := r.failures.set task (some skipped) }
  | .stored =>
      match r.lock with
      | none => { r.setTask task .locked with lock := some task }
      | some _ => r
  | .locked => { r.setTask task .counted with processed := r.processed + 1 }
  | .counted => { r.setTask task .called with calls := (r.processed, r.records.length) :: r.calls }
  | .called => { r.setTask task .ended with lock := none }
  | .ended | .refused => r

/-- One action of a run with at most `limit` tasks under way. -/
def step (decode : ZipEntry → Except SkippedEntry ClassRecord) (limit : Nat) (r : Reading) :
    Action → Reading
  | .launch =>
      match r.pending with
      | [] => r
      | e :: rest =>
          if r.active < limit then { r with pending := rest, tasks := r.tasks ++ [.launched e] }
          else r
  | .advance task =>
      match r.tasks[task]? with
      | some stage => r.advance decode task stage
      | none => r
  | .interrupt i => { r with interrupted := r.interrupted.or (some i) }

/-- The launch of a task and its seven steps. -/
def taskActions (task : Nat) : List Action := .launch :: List.replicate 7 (.advance task)

/-- One task after the other, interrupted before the first if at all. -/
def inOrder (interrupt : Option Interrupt) (count : Nat) : List Action :=
  (interrupt.map Action.interrupt).toList ++ (List.range count).flatMap taskActions

/-- The record that the slots of an entry hold, unless it was skipped. -/
def slotRecord : Option SkippedEntry × Option ClassRecord → Option ClassRecord
  | (none, found) => found
  | (some _, _) => none

/-- The outcome of a finished run: everything that was decoded, or nothing at all if a task was
refused. -/
def outcome (r : Reading) : Outcome ArchiveContents :=
  match r.failure with
  | some i => .error (.interrupted i)
  | none =>
      .ok
        { entries := r.records.length
          records := (r.failures.zip r.records).filterMap slotRecord
          skipped := r.failures.filterMap id }

/-- Run a sequence of actions over the chosen entries. -/
def run (limit : Nat) (archive : ZipArchive) (chosen : List ZipEntry) (actions : List Action) :
    Reading :=
  actions.foldl (step (decodeEntry archive) limit) (fresh chosen)

end Reading

/-! ## Archives -/

/-- Everything that reading an archive shows. -/
structure ArchiveRun where
  outcome : Outcome ArchiveContents
  /-- How many entries were done, and how many there are, at each report. -/
  progress : List (Nat × Nat)
  log : List Log.Line

/-- Read the chosen entries of an archive with at most `limit` tasks at a time, as `schedule`
interleaves them. -/
def readEntriesBy (limit : Nat) (schedule : Nat → List Action) (archive : ZipArchive)
    (selection : Selection) :
    ArchiveRun :=
  match selection.apply archive.entries with
  | .error f => ⟨.error f, [], []⟩
  | .ok chosen =>
      let reading := Reading.run limit archive chosen (schedule chosen.length)
      let outcome := reading.outcome
      let skipped := match outcome with
        | .ok contents => contents.skipped
        | .error _ => []
      { outcome
        progress := reading.calls.reverse
        log :=
          ⟨.debug, "selected archive entries",
            [("entries", toString chosen.length), ("total", toString archive.entries.length)]⟩ ::
          skipped.map fun s =>
            ⟨.warn, "skipping class entry", [("entry", s.entry), ("err", s.cause.message)]⟩ }

/-- Read the chosen entries of an archive, one after the other. -/
def readEntries (archive : ZipArchive) (selection : Selection) (interrupt : Option Interrupt) :
    ArchiveRun :=
  readEntriesBy 1 (Reading.inOrder interrupt) archive selection

/-- Read the classes of an archive held in memory, as `schedule` interleaves the tasks; `note` is
put in front of what is wrong with the archive as a whole. -/
def readArchiveBy (limit : Nat) (schedule : Nat → List Action) (note : String) (data : ByteArray)
    (selection : Selection) : ArchiveRun :=
  match ZipArchive.read data with
  | .error fault => ⟨.error (.noted note (.zip fault)), [], []⟩
  | .ok archive => readEntriesBy limit schedule archive selection

/-- Read the classes of an archive held in memory, one after the other. -/
def readArchive (note : String) (data : ByteArray) (selection : Selection)
    (interrupt : Option Interrupt) : ArchiveRun :=
  readArchiveBy 1 (Reading.inOrder interrupt) note data selection

end JarMetrics
