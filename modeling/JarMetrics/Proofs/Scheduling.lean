import JarMetrics.Proofs.Interleaving

/-!
# Reading does not depend on the schedule

`readEntriesBy_exact`: however the tasks of a run interleave, as long as there is a worker and
nothing interrupts them, a run that is over has read what decoding the entries one after the other
gives, and its reports are 1, 2, … up to the number of entries. There is always a task that can go
on until the run is over, and no run goes on for ever, so every run that is left to its tasks comes
to that end.

The outcome follows from `Consistent`. For the rest, each move of a task adds one to `work`, which
is bounded.
-/

namespace JarMetrics

/-- How many moves a task has made. -/
def Stage.rank : Stage → Nat
  | .launched _ => 1
  | .checked _ | .refused => 2
  | .decoded _ => 3
  | .stored => 4
  | .locked => 5
  | .counted => 6
  | .called => 7
  | .ended => 8

theorem Stage.rank_le (stage : Stage) : stage.rank ≤ 8 := by
  cases stage <;> simp [rank]

namespace Reading

variable {decode : ZipEntry → Except SkippedEntry ClassRecord} {limit : Nat}
  {chosen : List ZipEntry} {r r' : Reading}

/-! ## Every run comes to an end -/

/-- How many moves some tasks have made. -/
def totalRank (tasks : List Stage) : Nat := tasks.foldr (fun stage total => stage.rank + total) 0

/-- How many moves the tasks of a run have made. -/
def work (r : Reading) : Nat := totalRank r.tasks

theorem totalRank_append (tasks : List Stage) (stage : Stage) :
    totalRank (tasks ++ [stage]) = totalRank tasks + stage.rank := by
  induction tasks with
  | nil => exact Nat.add_comm _ _
  | cons first tasks ih =>
    show first.rank + totalRank (tasks ++ [stage]) = first.rank + totalRank tasks + stage.rank
    rw [ih, Nat.add_assoc]

/-- One task that moves on adds one. -/
theorem totalRank_set {tasks : List Stage} {t : Nat} {old new : Stage}
    (stands : tasks[t]? = some old) (next : new.rank = old.rank + 1) :
    totalRank (tasks.set t new) = totalRank tasks + 1 := by
  induction tasks generalizing t with
  | nil => cases stands
  | cons first tasks ih =>
    cases t with
    | zero =>
      cases stands
      show new.rank + totalRank tasks = old.rank + totalRank tasks + 1
      omega
    | succ t =>
      show first.rank + totalRank (tasks.set t new) = first.rank + totalRank tasks + 1
      rw [ih stands, Nat.add_assoc]

theorem totalRank_le (tasks : List Stage) : totalRank tasks ≤ 8 * tasks.length := by
  induction tasks with
  | nil => exact Nat.le_refl 0
  | cons first tasks ih =>
    have rank := first.rank_le
    show first.rank + totalRank tasks ≤ 8 * (tasks.length + 1)
    omega

/-- Each move adds one. -/
theorem Move.work_eq (move : Move decode limit r r') : r'.work = r.work + 1 := by
  cases move with
  | launch waiting room => exact totalRank_append r.tasks _
  | check stands _ | refuse stands _ | decode stands | record stands | skip stands
  | lock stands _ | count stands | call stands | unlock stands => exact totalRank_set stands rfl

theorem Consistent.work_le (consistent : Consistent decode chosen r) :
    r.work ≤ 8 * chosen.length := by
  obtain ⟨front, whole, length⟩ := consistent.launched
  have bound := totalRank_le r.tasks
  have fewer : r.tasks.length ≤ chosen.length := by
    rw [whole, List.length_append, length]
    exact Nat.le_add_right _ _
  unfold work
  omega

/-- Every action of a sequence changes the state. -/
def Effective (decode : ZipEntry → Except SkippedEntry ClassRecord) (limit : Nat) :
    Reading → List Action → Prop
  | _, [] => True
  | r, a :: rest => r.step decode limit a ≠ r ∧ Effective decode limit (r.step decode limit a) rest

/-- Actions of the tasks that all have an effect are counted by the work that they do. -/
theorem work_foldl_of_effective {actions : List Action} (own : ∀ i, Action.interrupt i ∉ actions)
    (effective : Effective decode limit r actions) :
    (actions.foldl (step decode limit) r).work = r.work + actions.length := by
  induction actions generalizing r with
  | nil => rfl
  | cons a rest ih =>
    obtain ⟨changes, later⟩ := effective
    have ownFirst : ∀ i, a ≠ .interrupt i := fun i same => own i (same ▸ List.mem_cons_self)
    have ownRest : ∀ i, Action.interrupt i ∉ rest := fun i member =>
      own i (List.mem_cons_of_mem _ member)
    obtain same | move := step_eq_or_move decode limit r ownFirst
    · exact absurd same changes
    · rw [List.foldl_cons, ih ownRest later, move.work_eq, List.length_cons]
      omega

/-! ## No run gets stuck -/

theorem active_eq_zero (allOver : r.tasks.all Stage.isOver = true) : r.active = 0 := by
  refine List.countP_eq_zero.mpr fun stage member => ?_
  rw [List.all_eq_true.mp allOver stage member]
  exact Bool.false_ne_true

/-- Until the run is over, some task can be launched or can move. -/
theorem Consistent.exists_move (consistent : Consistent decode chosen r) (workers : 1 ≤ limit)
    (unfinished : r.finished = false) :
    ∃ a, (∀ i, a ≠ Action.interrupt i) ∧ Move decode limit r (r.step decode limit a) := by
  have advances : ∀ (t : Nat) (stage : Stage), r.tasks[t]? = some stage → stage.isOver = false →
      (stage = .stored → r.lock = none) →
      ∃ a, (∀ i, a ≠ Action.interrupt i) ∧ Move decode limit r (r.step decode limit a) := by
    intro t stage stands underWay free
    refine ⟨.advance t, fun _ same => Action.noConfusion same, ?_⟩
    rw [step_advance stands]
    exact move_advance stands underWay free
  by_cases allOver : r.tasks.all Stage.isOver = true
  · -- nobody is under way, so there is room for the next task
    have waiting : r.pending ≠ [] := by
      intro noneLeft
      unfold finished at unfinished
      rw [noneLeft, allOver] at unfinished
      cases unfinished
    obtain ⟨e, rest, waiting⟩ := List.exists_cons_of_ne_nil waiting
    have room : r.active < limit := active_eq_zero allOver ▸ workers
    refine ⟨.launch, fun _ same => Action.noConfusion same, ?_⟩
    rw [step_launch waiting, if_pos room]
    exact .launch waiting room
  · obtain ⟨stage, member, underWay⟩ : ∃ stage ∈ r.tasks, stage.isOver = false := by
      simpa using allOver
    obtain ⟨t, stands⟩ := List.mem_iff_getElem?.mp member
    cases held : r.lock with
    | none => exact advances t stage stands underWay fun _ => held
    | some holder =>
      -- the holder of the lock waits for nobody
      obtain ⟨inside, stands, holds⟩ := exists_of_atStage ((consistent.lock holder).mp held)
      refine advances holder inside stands ?_ ?_
      · cases inside with
        | ended | refused => cases holds
        | _ => rfl
      · rintro rfl
        cases holds

/-! ## The outcome of a run -/

/-- A refused task has failed the run, and the run fails for nothing but what has interrupted it. -/
structure Answered (r : Reading) : Prop where
  failure : ∀ i, r.failure = some i → r.interrupted = some i
  accepted : r.failure = none → ∀ stage ∈ r.tasks, stage ≠ .refused

theorem Answered.setTask (answered : Answered r) (t : Nat) {new : Stage}
    (accepted : new ≠ .refused) :
    Answered (r.setTask t new) where
  failure := answered.failure
  accepted unfailed stage member := by
    rcases List.mem_or_eq_of_mem_set member with before | rfl
    · exact answered.accepted unfailed stage before
    · exact accepted

theorem Answered.move (answered : Answered r) (move : Move decode limit r r') : Answered r' := by
  have moved : ∀ (t : Nat) (new : Stage), new ≠ .refused → Answered (r.setTask t new) :=
    fun t new accepted => answered.setTask t accepted
  cases move with
  | launch waiting room =>
    refine ⟨answered.failure, fun unfailed stage member => ?_⟩
    rcases List.mem_append.mp member with before | last
    · exact answered.accepted unfailed stage before
    · rw [List.mem_singleton.mp last]
      exact Stage.noConfusion
  | @refuse t e i stands interrupted =>
    refine ⟨fun j failed => ?_, fun unfailed => ?_⟩
    · -- an earlier refusal was for the same interrupt
      show r.interrupted = some j
      cases earlier : r.failure with
      | none =>
        simp only [earlier, Option.none_or] at failed
        rw [interrupted, failed]
      | some k =>
        simp only [earlier, Option.some_or] at failed
        rw [answered.failure k earlier, failed]
    · simp at unfailed
  | check | decode => exact moved _ _ Stage.noConfusion
  | record | skip | lock | count | call | unlock => exact { moved _ _ Stage.noConfusion with }

theorem Move.interrupted_eq (move : Move decode limit r r') : r'.interrupted = r.interrupted := by
  cases move <;> rfl

/-- What one action does to the answer and to the interrupt. -/
theorem Answered.step (answered : Answered r) (decode : ZipEntry → Except SkippedEntry ClassRecord)
    (limit : Nat) (a : Action) :
    Answered (r.step decode limit a) ∧ (r.step decode limit a).interrupted =
      r.interrupted.or a.interrupt? := by
  have ofOwn : (∀ i, a ≠ .interrupt i) →
      Answered (r.step decode limit a) ∧ (r.step decode limit a).interrupted = r.interrupted := by
    intro own
    rcases step_eq_or_move decode limit r own with same | move
    · rw [same]
      exact ⟨answered, rfl⟩
    · exact ⟨answered.move move, move.interrupted_eq⟩
  cases a with
  | interrupt i =>
    refine ⟨⟨fun j failed => ?_, answered.accepted⟩, rfl⟩
    show r.interrupted.or (some i) = some j
    rw [answered.failure j failed, Option.some_or]
  | launch =>
    obtain ⟨kept, same⟩ := ofOwn fun _ => Action.noConfusion
    exact ⟨kept, same.trans (Option.or_none).symm⟩
  | advance t =>
    obtain ⟨kept, same⟩ := ofOwn fun _ => Action.noConfusion
    exact ⟨kept, same.trans (Option.or_none).symm⟩

theorem Answered.foldl (answered : Answered r) (decode : ZipEntry → Except SkippedEntry ClassRecord)
    (limit : Nat) (actions : List Action) :
    Answered (actions.foldl (Reading.step decode limit) r) ∧
      (actions.foldl (Reading.step decode limit) r).interrupted =
        r.interrupted.or (Action.firstInterrupt? actions) := by
  induction actions generalizing r with
  | nil => exact ⟨answered, (Option.or_none).symm⟩
  | cons a rest ih =>
    obtain ⟨kept, heard⟩ := answered.step decode limit a
    obtain ⟨kept', heard'⟩ := ih kept
    refine ⟨kept', ?_⟩
    rw [List.foldl_cons, heard', heard, Option.or_assoc]
    unfold Action.firstInterrupt?
    cases first : a.interrupt? with
    | none => rw [List.findSome?_cons_of_isNone (by rw [first]; rfl), Option.none_or]
    | some i => rw [List.findSome?_cons_of_isSome (by rw [first]; rfl), first, Option.some_or]

/-- Every run answers its interrupts, and the first of them is the one that counts. -/
theorem answered_run (decode : ZipEntry → Except SkippedEntry ClassRecord) (limit : Nat)
    (chosen : List ZipEntry) (actions : List Action) :
    Answered (actions.foldl (step decode limit) (fresh chosen)) ∧
      (actions.foldl (step decode limit) (fresh chosen)).interrupted =
        Action.firstInterrupt? actions := by
  have start : Answered (fresh chosen) :=
    ⟨(fun _ failed => nomatch failed), fun _ _ member => nomatch member⟩
  exact start.foldl decode limit actions

/-- When a run that refused no task is over, every task has gone all the way. -/
theorem Consistent.ended_of_finished (consistent : Consistent decode chosen r)
    (accepted : ∀ stage ∈ r.tasks, stage ≠ .refused) (finished : r.finished = true) :
    r.tasks.length = chosen.length ∧ ∀ stage ∈ r.tasks, stage = .ended := by
  obtain ⟨noneLeft, allOver⟩ := Bool.and_eq_true_iff.mp finished
  obtain ⟨front, whole, length⟩ := consistent.launched
  refine ⟨?_, fun stage member => ?_⟩
  · rw [whole, List.isEmpty_iff.mp noneLeft, List.append_nil, length]
  · have stopped := List.all_eq_true.mp allOver stage member
    cases stage with
    | ended => rfl
    | refused => exact absurd rfl (accepted _ member)
    | _ => cases stopped

/-- Once all values are stored, the slots are the values of the entries in order. -/
theorem SlotsFilled.eq_map {α : Type} {value : ZipEntry → Option α} {slots : List (Option α)}
    (filled : SlotsFilled chosen value slots r)
    (stored : ∀ t, t < chosen.length → r.atStage Stage.hasStored t = true) :
    slots = chosen.map value := by
  rw [filled]
  refine List.ext_getElem? fun t => ?_
  rw [List.getElem?_mapIdx, List.getElem?_map]
  cases entry : chosen[t]? with
  | none => rfl
  | some e =>
    rw [Option.map_some, stored t (List.getElem?_eq_some_iff.mp entry).1]
    rfl

/-- The records and the skipped entries that decoding the entries one after the other gives. -/
def contents (decode : ZipEntry → Except SkippedEntry ClassRecord) (chosen : List ZipEntry) :
    ArchiveContents :=
  { entries := chosen.length
    records := chosen.filterMap fun e => recordOf (decode e)
    skipped := chosen.filterMap fun e => skippedOf (decode e) }

/-- Reading the slots entry by entry. -/
theorem filterMap_slots (decode : ZipEntry → Except SkippedEntry ClassRecord)
    (chosen : List ZipEntry) :
    ((chosen.map fun e => skippedOf (decode e)).zip
        (chosen.map fun e => recordOf (decode e))).filterMap slotRecord =
      chosen.filterMap fun e => recordOf (decode e) := by
  have one : (slotRecord ∘ fun e => (skippedOf (decode e), recordOf (decode e))) = fun e =>
      recordOf (decode e) := by
    funext e
    show slotRecord (skippedOf (decode e), recordOf (decode e)) = recordOf (decode e)
    cases decode e with
    | ok found => rfl
    | error skipped => rfl
  rw [List.zip_map', List.filterMap_map, one]

theorem Consistent.outcome_eq (consistent : Consistent decode chosen r) (failure : r.failure = none)
    (accepted : ∀ stage ∈ r.tasks, stage ≠ .refused) (finished : r.finished = true) :
    r.outcome = .ok (contents decode chosen) := by
  obtain ⟨length, ended⟩ := consistent.ended_of_finished accepted finished
  have stored : ∀ t, t < chosen.length → r.atStage Stage.hasStored t = true := by
    intro t bound
    have stands : r.tasks[t]? = some r.tasks[t] := List.getElem?_eq_getElem (length ▸ bound)
    rw [atStage_of_getElem? stands, ended _ (List.getElem_mem _)]
    rfl
  unfold outcome contents
  rw [failure, consistent.records.eq_map stored, consistent.failures.eq_map stored,
    filterMap_slots, List.filterMap_map, List.length_map]
  rfl

theorem Consistent.calls_eq (consistent : Consistent decode chosen r)
    (accepted : ∀ stage ∈ r.tasks, stage ≠ .refused) (finished : r.finished = true) :
    r.calls.reverse = (List.range chosen.length).map fun k => (k + 1, chosen.length) := by
  obtain ⟨length, ended⟩ := consistent.ended_of_finished accepted finished
  have allCalled : r.tasks.countP Stage.hasCalled = chosen.length := by
    rw [← length, List.countP_eq_length]
    intro stage member
    rw [ended stage member]
    rfl
  rw [consistent.calls, allCalled, reports, ← List.map_reverse, List.reverse_reverse]

/-- Each entry is either a record or skipped. -/
theorem length_contents (decode : ZipEntry → Except SkippedEntry ClassRecord)
    (chosen : List ZipEntry) :
    (contents decode chosen).entries =
      (contents decode chosen).records.length + (contents decode chosen).skipped.length := by
  unfold contents
  induction chosen with
  | nil => rfl
  | cons e rest ih =>
    cases result : decode e with
    | ok found => simp_all [recordOf, skippedOf]; omega
    | error skipped => simp_all [recordOf, skippedOf]; omega

/-! ## One task after the other -/

/-- The last task is at `stage`, and the tasks before it are those of `front`. -/
structure Alone (front : List Stage) (rest : List ZipEntry) (stage : Stage) (lock : Option Nat)
    (r : Reading) :
    Prop where
  tasks : r.tasks = front ++ [stage]
  pending : r.pending = rest
  lock : r.lock = lock
  interrupted : r.interrupted = none

section

variable {front : List Stage} {rest : List ZipEntry} {stage : Stage} {lock : Option Nat}

theorem Alone.stands (alone : Alone front rest stage lock r) :
    r.tasks[front.length]? = some stage := by
  rw [alone.tasks]
  exact List.getElem?_concat_length

theorem Alone.setTask (alone : Alone front rest stage lock r) (new : Stage) :
    Alone front rest new lock (r.setTask front.length new) where
  tasks := by
    show r.tasks.set front.length new = front ++ [new]
    rw [alone.tasks, List.set_append_right _ _ (Nat.le_refl _), Nat.sub_self]
    rfl
  pending := alone.pending
  lock := alone.lock
  interrupted := alone.interrupted

theorem Alone.check {e : ZipEntry} (alone : Alone front rest (.launched e) none r) :
    Alone front rest (.checked e) none (r.step decode limit (.advance front.length)) := by
  rw [step_advance alone.stands]
  unfold advance
  rw [alone.interrupted]
  exact alone.setTask _

theorem Alone.decode_entry {e : ZipEntry} (alone : Alone front rest (.checked e) none r) :
    Alone front rest (.decoded (decode e)) none (r.step decode limit (.advance front.length)) := by
  rw [step_advance alone.stands]
  exact alone.setTask _

theorem Alone.store {result : Except SkippedEntry ClassRecord}
    (alone : Alone front rest (.decoded result) none r) :
    Alone front rest .stored none (r.step decode limit (.advance front.length)) := by
  rw [step_advance alone.stands]
  cases result with
  | ok found => exact { alone.setTask .stored with }
  | error skipped => exact { alone.setTask .stored with }

theorem Alone.take_lock (alone : Alone front rest .stored none r) :
    Alone front rest .locked (some front.length) (r.step decode limit (.advance front.length)) := by
  rw [step_advance alone.stands]
  unfold advance
  rw [alone.lock]
  exact { alone.setTask .locked with lock := rfl }

theorem Alone.count (alone : Alone front rest .locked lock r) :
    Alone front rest .counted lock (r.step decode limit (.advance front.length)) := by
  rw [step_advance alone.stands]
  exact { alone.setTask .counted with }

theorem Alone.call (alone : Alone front rest .counted lock r) :
    Alone front rest .called lock (r.step decode limit (.advance front.length)) := by
  rw [step_advance alone.stands]
  exact { alone.setTask .called with }

theorem Alone.unlock (alone : Alone front rest .called lock r) :
    Alone front rest .ended none (r.step decode limit (.advance front.length)) := by
  rw [step_advance alone.stands]
  exact { alone.setTask .ended with lock := rfl }

/-- Seven steps bring a task that was launched to its end. -/
theorem Alone.ended {e : ZipEntry} (alone : Alone front rest (.launched e) none r) :
    Alone front rest .ended none
      ((List.replicate 7 (.advance front.length)).foldl (step decode limit) r) := by
  simp only [List.replicate, List.foldl]
  exact alone.check.decode_entry.store.take_lock.count.call.unlock

end

/-- One task after the other, from tasks that are over to the end of the run. -/
theorem finished_foldl_taskActions (workers : 1 ≤ limit) (rest : List ZipEntry)
    (pending : r.pending = rest) (allOver : r.tasks.all Stage.isOver = true) (free : r.lock = none)
    (going : r.interrupted = none) :
    (((List.range' r.tasks.length rest.length).flatMap taskActions).foldl
      (step decode limit) r).finished = true := by
  induction rest generalizing r with
  | nil =>
    show (r.pending.isEmpty && r.tasks.all Stage.isOver) = true
    rw [pending, allOver]
    rfl
  | cons e rest ih =>
    have room : r.active < limit := active_eq_zero allOver ▸ workers
    have launched : Alone r.tasks rest (.launched e) none (r.step decode limit .launch) := by
      rw [step_launch pending, if_pos room]
      exact ⟨rfl, rfl, free, going⟩
    have ended :
        Alone r.tasks rest .ended none ((taskActions r.tasks.length).foldl (step decode limit) r) :=
      launched.ended
    rw [List.length_cons, List.range'_succ, List.flatMap_cons, List.foldl_append]
    have later := ih ended.pending ?_ ended.lock ended.interrupted
    · rw [ended.tasks, List.length_append] at later
      exact later
    · rw [ended.tasks, List.all_append, allOver]
      rfl

theorem inOrder_own (count : Nat) (i : Interrupt) : Action.interrupt i ∉ inOrder none count := by
  intro member
  obtain ⟨task, -, listed⟩ := List.mem_flatMap.mp member
  obtain launch | step := List.mem_cons.mp listed
  · cases launch
  · cases (List.mem_replicate.mp step).2

/-- One task after the other finishes the run. -/
theorem finished_inOrder (decode : ZipEntry → Except SkippedEntry ClassRecord) (workers : 1 ≤ limit)
    (chosen : List ZipEntry) :
    ((inOrder none chosen.length).foldl (step decode limit) (fresh chosen)).finished = true := by
  show (((List.range chosen.length).flatMap taskActions).foldl (step decode limit)
    (fresh chosen)).finished = true
  rw [List.range_eq_range']
  exact finished_foldl_taskActions workers chosen rfl rfl rfl rfl

/-- What a finished run without interrupts has read and reported. -/
theorem run_of_finished {archive : ZipArchive} {actions : List Action}
    (own : ∀ i, Action.interrupt i ∉ actions)
    (finished : (run limit archive chosen actions).finished = true) :
    (run limit archive chosen actions).outcome = .ok (contents (decodeEntry archive) chosen) ∧
      (run limit archive chosen actions).calls.reverse =
        (List.range chosen.length).map fun k => (k + 1, chosen.length) := by
  have consistent := consistent_run (decodeEntry archive) limit chosen actions
  obtain ⟨answered, heard⟩ := answered_run (decodeEntry archive) limit chosen actions
  have noneHeard : Action.firstInterrupt? actions = none := by
    refine List.findSome?_eq_none_iff.mpr fun a member => ?_
    cases a with
    | interrupt i => exact absurd member (own i)
    | launch | advance => rfl
  have failure : (run limit archive chosen actions).failure = none := by
    refine Option.eq_none_iff_forall_ne_some.mpr fun i failed => ?_
    have interrupted := heard.symm.trans (answered.failure i failed)
    rw [noneHeard] at interrupted
    cases interrupted
  exact ⟨consistent.outcome_eq failure (answered.accepted failure) finished,
    consistent.calls_eq (answered.accepted failure) finished⟩

end Reading

/-- The chosen entries stand in the order of their names. -/
theorem Selection.chosen_ordered (selection : Selection) (entries : List ZipEntry) :
    (selection.chosen entries).Pairwise fun e f => e.rawName ≤ f.rawName := by
  unfold chosen
  refine (List.pairwise_mergeSort ?_ ?_ _).imp of_decide_eq_true
  · intro e f g ef fg
    exact decide_eq_true (List.le_trans (of_decide_eq_true ef) (of_decide_eq_true fg))
  · intro e f
    rw [Bool.or_eq_true, decide_eq_true_iff, decide_eq_true_iff]
    exact List.le_total e.rawName f.rawName

theorem Selection.pairwise_of_apply {selection : Selection} {entries chosen : List ZipEntry}
    (selected : selection.apply entries = .ok chosen) :
    chosen.Pairwise fun e f => e.rawName ≤ f.rawName := by
  unfold apply at selected
  cases invalid : selection.invalidPattern? with
  | some p =>
    rw [invalid] at selected
    cases selected
  | none =>
    rw [invalid] at selected
    cases selected
    exact selection.chosen_ordered entries

open Reading

/-- Reading an archive does not depend on how its tasks interleave, nor on how many may be under way
at a time. A run without interrupts that is over has read the entries in the order of their names,
as reading them one after the other does, and has reported 1, 2, … up to their number. Until then
some task can go on, and there are no more than eight moves for each entry. -/
theorem readEntriesBy_exact (archive : ZipArchive) (selection : Selection) (chosen : List ZipEntry)
    (selected : selection.apply archive.entries = .ok chosen) (limit : Nat) (workers : 1 ≤ limit)
    (schedule : Nat → List Action) (own : ∀ i, Action.interrupt i ∉ schedule chosen.length) :
    (chosen.Pairwise fun e f => e.rawName ≤ f.rawName) ∧
    ((run limit archive chosen (schedule chosen.length)).finished = true →
      readEntriesBy limit schedule archive selection = readEntries archive selection none ∧
      (∃ contents, (readEntriesBy limit schedule archive selection).outcome = .ok contents ∧
        contents.records = (chosen.filterMap fun e => recordOf (decodeEntry archive e)) ∧
        contents.skipped = (chosen.filterMap fun e => skippedOf (decodeEntry archive e)) ∧
        contents.entries = contents.records.length + contents.skipped.length) ∧
      (readEntriesBy limit schedule archive selection).progress =
        (List.range chosen.length).map fun k => (k + 1, chosen.length)) ∧
    ((run limit archive chosen (schedule chosen.length)).finished = false →
      ∃ a, (∀ i, a ≠ .interrupt i) ∧
        (run limit archive chosen (schedule chosen.length)).step (decodeEntry archive) limit a ≠
          run limit archive chosen (schedule chosen.length)) ∧
    (Effective (decodeEntry archive) limit (fresh chosen) (schedule chosen.length) →
      (schedule chosen.length).length ≤ 8 * chosen.length) := by
  have consistent := consistent_run (decodeEntry archive) limit chosen (schedule chosen.length)
  refine ⟨Selection.pairwise_of_apply selected, fun finished => ?_,
    fun unfinished => ?_, fun effective => ?_⟩
  · -- both runs are over, so both have read the same and reported the same
    obtain ⟨outcome, calls⟩ := run_of_finished own finished
    obtain ⟨outcome', calls'⟩ := run_of_finished (inOrder_own chosen.length)
      (finished_inOrder (decodeEntry archive) (Nat.le_refl 1) chosen)
    unfold readEntries readEntriesBy
    rw [selected]
    dsimp only
    rw [outcome, outcome', calls, calls']
    exact ⟨rfl, ⟨_, rfl, rfl, rfl, length_contents (decodeEntry archive) chosen⟩, rfl⟩
  · obtain ⟨a, ownAction, move⟩ := consistent.exists_move workers unfinished
    -- a move that changed nothing would not add to the work
    refine ⟨a, ownAction, fun same => ?_⟩
    have more := move.work_eq
    unfold run at same
    rw [same] at more
    exact Nat.succ_ne_self _ more.symm
  · have worked := work_foldl_of_effective own effective
    have bound := consistent.work_le
    rw [worked] at bound
    exact Nat.le_trans (Nat.le_add_left _ _) bound

/-- A class entry of a one-letter name whose header lies in front of the archive, so that it is
skipped. -/
def misplacedEntry (letter : UInt8) : ZipEntry :=
  { rawName := [letter, 0x2e, 0x63, 0x6c, 0x61, 0x73, 0x73], method := 0, flags := 0, checksum := 0,
    compressedSize := 0, size := 0, headerOffset := -1, isDirectory := false }

/-- Two tasks cross: the second overtakes the first, which once finds the lock taken. -/
def crossedTasks : List Action :=
  [.launch, .launch] ++ [1, 0, 1, 1, 0, 0, 1, 0, 1, 1, 1, 0, 0, 0, 0].map .advance

theorem readEntriesBy_exact_crossed :
    let archive : ZipArchive := ⟨⟨#[]⟩, [misplacedEntry 0x62, misplacedEntry 0x61]⟩
    (readEntriesBy 2 (fun _ => crossedTasks) archive {}).progress = [(1, 2), (2, 2)] ∧
      ∃ contents, (readEntriesBy 2 (fun _ => crossedTasks) archive {}).outcome = .ok contents ∧
        contents.entries = 2 ∧ contents.skipped.map (·.entry) = ["a.class", "b.class"] := by
  intro archive
  have selected : ({} : Selection).apply archive.entries =
      .ok [misplacedEntry 0x61, misplacedEntry 0x62] := by
    have kept :
        (archive.entries.filter fun e => !e.isDirectory && ({} : Selection).selects e.name) =
        archive.entries := by decide +kernel
    show Except.ok (List.mergeSort _ _) = _
    rw [kept, List.mergeSort]
    -- Sorting splits the two entries and merges them again, the other way round.
    show Except.ok (List.merge (List.mergeSort [misplacedEntry 0x62] _)
      (List.mergeSort [misplacedEntry 0x61] _) _) = _
    rw [List.mergeSort_singleton, List.mergeSort_singleton,
      List.cons_merge_cons, if_neg (by decide), List.merge_right]
  have finished :
      (run 2 archive [misplacedEntry 0x61, misplacedEntry 0x62] crossedTasks).finished = true := by
    decide
  obtain ⟨-, result, -⟩ :=
    readEntriesBy_exact archive {} _ selected 2 (by decide) (fun _ => crossedTasks)
    (fun i => by simp [crossedTasks])
  obtain ⟨-, ⟨contents, outcome, records, skipped, entries⟩, progress⟩ := result finished
  refine ⟨progress, contents, outcome, ?_, ?_⟩
  · rw [entries, records, skipped]
    rfl
  · rw [skipped]
    decide +kernel

end JarMetrics
