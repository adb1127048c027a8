import JarMetrics.Archive.Reading

/-!
# What every interleaving keeps

`Move` lists all that the tasks of a run can do, and `step_eq_or_move` says that an action does one
of these things or nothing. `Consistent` is what every run keeps, in whatever order its tasks move
and whether or not it is interrupted:

* tasks are launched in the order of the entries, and each works on its own entry;
* a slot holds the result of its entry once the task has stored it, and nothing before;
* the lock is held by the one task that is between taking and releasing it;
* the counter is ahead of the reports by one while the holder has counted and not reported, and the
  reports so far are 1, 2, 3 and so on.

`consistent_run` puts the steps together.
-/

namespace JarMetrics

namespace Stage

/-- The task has filled its slot. -/
def hasStored : Stage → Bool
  | .stored | .locked | .counted | .called | .ended => true
  | _ => false

/-- The task holds the lock. -/
def holdsLock : Stage → Bool
  | .locked | .counted | .called => true
  | _ => false

/-- The task has counted itself and not reported. -/
def isCounted : Stage → Bool
  | .counted => true
  | _ => false

/-- The task has reported. -/
def hasCalled : Stage → Bool
  | .called | .ended => true
  | _ => false

/-- The stage fits the entry that the task was launched for. -/
def Follows (decode : ZipEntry → Except SkippedEntry ClassRecord) (entry : Option ZipEntry) :
    Stage → Prop
  | .launched e | .checked e => entry = some e
  | .decoded result => ∃ e, entry = some e ∧ result = decode e
  | _ => True

end Stage

namespace Reading

variable {decode : ZipEntry → Except SkippedEntry ClassRecord} {limit : Nat}
  {chosen : List ZipEntry} {r r' : Reading}

/-! ## Moves -/

/-- What the tasks of a run can do. -/
inductive Move (decode : ZipEntry → Except SkippedEntry ClassRecord) (limit : Nat) (r : Reading) :
    Reading → Prop
  | launch {e : ZipEntry} {rest : List ZipEntry} : r.pending = e :: rest → r.active < limit →
      Move decode limit r { r with pending := rest, tasks := r.tasks ++ [.launched e] }
  | check {t : Nat} {e : ZipEntry} : r.tasks[t]? = some (.launched e) → r.interrupted = none →
      Move decode limit r (r.setTask t (.checked e))
  | refuse {t : Nat} {e : ZipEntry} {i : Interrupt} : r.tasks[t]? = some (.launched e) →
      r.interrupted = some i →
      Move decode limit r { r.setTask t .refused with failure := r.failure.or (some i) }
  | decode {t : Nat} {e : ZipEntry} : r.tasks[t]? = some (.checked e) →
      Move decode limit r (r.setTask t (.decoded (decode e)))
  | record {t : Nat} {found : ClassRecord} : r.tasks[t]? = some (.decoded (.ok found)) →
      Move decode limit r { r.setTask t .stored with records := r.records.set t (some found) }
  | skip {t : Nat} {skipped : SkippedEntry} : r.tasks[t]? = some (.decoded (.error skipped)) →
      Move decode limit r { r.setTask t .stored with failures := r.failures.set t (some skipped) }
  | lock {t : Nat} : r.tasks[t]? = some .stored → r.lock = none →
      Move decode limit r { r.setTask t .locked with lock := some t }
  | count {t : Nat} : r.tasks[t]? = some .locked →
      Move decode limit r { r.setTask t .counted with processed := r.processed + 1 }
  | call {t : Nat} : r.tasks[t]? = some .counted →
      Move decode limit r
        { r.setTask t .called with calls := (r.processed, r.records.length) :: r.calls }
  | unlock {t : Nat} : r.tasks[t]? = some .called →
      Move decode limit r { r.setTask t .ended with lock := none }

theorem step_advance {t : Nat} {stage : Stage} (stands : r.tasks[t]? = some stage) :
    r.step decode limit (.advance t) = r.advance decode t stage := by
  simp only [step, stands]

theorem step_advance_none {t : Nat} (missing : r.tasks[t]? = none) :
    r.step decode limit (.advance t) = r := by
  simp only [step, missing]

theorem step_launch {e : ZipEntry} {rest : List ZipEntry} (waiting : r.pending = e :: rest) :
    r.step decode limit .launch =
      if r.active < limit then { r with pending := rest, tasks := r.tasks ++ [.launched e] }
      else r := by
  simp only [step, waiting]

theorem step_launch_none (waiting : r.pending = []) : r.step decode limit .launch = r := by
  simp only [step, waiting]

/-- A task that is not over moves, unless it waits for the lock. -/
theorem move_advance {t : Nat} {stage : Stage} (stands : r.tasks[t]? = some stage)
    (underWay : stage.isOver = false) (free : stage = .stored → r.lock = none) :
    Move decode limit r (r.advance decode t stage) := by
  cases stage with
  | launched e =>
    unfold advance
    cases asked : r.interrupted with
    | none => exact .check stands asked
    | some i => exact .refuse stands asked
  | checked e => exact .decode stands
  | decoded result =>
    cases result with
    | ok found => exact .record stands
    | error skipped => exact .skip stands
  | stored =>
    unfold advance
    rw [free rfl]
    exact .lock stands (free rfl)
  | locked => exact .count stands
  | counted => exact .call stands
  | called => exact .unlock stands
  | ended | refused => cases underWay

/-- An action of the tasks is a move or changes nothing. -/
theorem step_eq_or_move (decode : ZipEntry → Except SkippedEntry ClassRecord) (limit : Nat)
    (r : Reading) {a : Action} (own : ∀ i, a ≠ .interrupt i) :
    r.step decode limit a = r ∨ Move decode limit r (r.step decode limit a) := by
  cases a with
  | interrupt i => exact absurd rfl (own i)
  | launch =>
    cases waiting : r.pending with
    | nil => exact .inl (step_launch_none waiting)
    | cons e rest =>
      rw [step_launch waiting]
      by_cases room : r.active < limit
      · rw [if_pos room]
        exact .inr (.launch waiting room)
      · rw [if_neg room]
        exact .inl rfl
  | advance t =>
    cases stands : r.tasks[t]? with
    | none => exact .inl (step_advance_none stands)
    | some stage =>
      rw [step_advance stands]
      cases status : stage.isOver with
      | true =>
        cases stage with
        | ended | refused => exact .inl rfl
        | _ => cases status
      | false =>
        by_cases waits : stage = .stored ∧ r.lock ≠ none
        · obtain ⟨rfl, held⟩ := waits
          obtain ⟨holder, taken⟩ := Option.ne_none_iff_exists'.mp held
          unfold advance
          rw [taken]
          exact .inl rfl
        · refine .inr (move_advance stands status fun stored => ?_)
          exact Decidable.of_not_not fun held => waits ⟨stored, held⟩

/-! ## Tasks and their stages -/

/-- The stage of a task has a property; a task that was not launched has none. -/
def atStage (r : Reading) (p : Stage → Bool) (t : Nat) : Bool := r.tasks[t]?.any p

theorem atStage_of_getElem? {t : Nat} {stage : Stage} (stands : r.tasks[t]? = some stage)
    (p : Stage → Bool) :
    r.atStage p t = p stage := by
  unfold atStage
  rw [stands]
  rfl

theorem exists_of_atStage {t : Nat} {p : Stage → Bool} (has : r.atStage p t = true) :
    ∃ stage, r.tasks[t]? = some stage ∧ p stage = true := by
  unfold atStage at has
  cases stands : r.tasks[t]? with
  | none =>
    rw [stands] at has
    cases has
  | some stage =>
    rw [stands] at has
    exact ⟨stage, rfl, has⟩

theorem getElem?_setTask_self {t : Nat} {old : Stage} (stands : r.tasks[t]? = some old)
    (new : Stage) :
    (r.setTask t new).tasks[t]? = some new :=
  List.getElem?_set_self (List.getElem?_eq_some_iff.mp stands).1

theorem getElem?_setTask_ne {t u : Nat} (other : t ≠ u) (new : Stage) :
    (r.setTask t new).tasks[u]? = r.tasks[u]? :=
  List.getElem?_set_ne other

theorem atStage_setTask_self {t : Nat} {old : Stage} (stands : r.tasks[t]? = some old) (new : Stage)
    (p : Stage → Bool) : (r.setTask t new).atStage p t = p new :=
  atStage_of_getElem? (getElem?_setTask_self stands new) p

theorem atStage_setTask_ne {t u : Nat} (other : t ≠ u) (new : Stage) (p : Stage → Bool) :
    (r.setTask t new).atStage p u = r.atStage p u := by
  unfold atStage
  rw [getElem?_setTask_ne other]

/-- A property that both stages of a moving task have or lack stays as it was for all tasks. -/
theorem atStage_setTask {t : Nat} {old new : Stage} (stands : r.tasks[t]? = some old)
    {p : Stage → Bool} (same : p new = p old) (u : Nat) :
    (r.setTask t new).atStage p u = r.atStage p u := by
  by_cases own : t = u
  · subst own
    rw [atStage_setTask_self stands, atStage_of_getElem? stands, same]
  · exact atStage_setTask_ne own new p

/-- Launching a task gives no task a property that fresh tasks lack. -/
theorem atStage_launch {e : ZipEntry} {p : Stage → Bool} (fresh : p (.launched e) = false)
    (rest : List ZipEntry) (u : Nat) :
    atStage { r with pending := rest, tasks := r.tasks ++ [.launched e] } p u = r.atStage p u := by
  unfold atStage
  show ((r.tasks ++ [.launched e])[u]?).any p = _
  rw [List.getElem?_append]
  split
  · rfl
  · next beyond =>
    rw [List.getElem?_eq_none (Nat.le_of_not_lt beyond)]
    cases u - r.tasks.length with
    | zero => exact fresh
    | succ n => rfl

/-- The number of tasks with a property, when one task moves. -/
theorem countP_setTask {t : Nat} {old : Stage} (stands : r.tasks[t]? = some old) (new : Stage)
    (p : Stage → Bool) :
    (r.setTask t new).tasks.countP p + (if p old then 1 else 0) =
      r.tasks.countP p + if p new then 1 else 0 := by
  obtain ⟨bound, rfl⟩ := List.getElem?_eq_some_iff.mp stands
  unfold setTask
  rw [List.countP_set bound]
  by_cases had : p r.tasks[t] = true
  · have present : 0 < r.tasks.countP p := List.countP_pos_iff.mpr ⟨_, List.getElem_mem bound, had⟩
    rw [if_pos had]
    omega
  · rw [if_neg had]
    omega

theorem countP_setTask_of_eq {t : Nat} {old new : Stage} (stands : r.tasks[t]? = some old)
    {p : Stage → Bool} (same : p new = p old) :
    (r.setTask t new).tasks.countP p = r.tasks.countP p := by
  have counted := countP_setTask stands new p
  rw [same] at counted
  omega

/-! ## Slots -/

/-- Each slot holds the value of its entry if the task has stored it, and nothing otherwise. -/
def SlotsFilled {α : Type} (chosen : List ZipEntry) (value : ZipEntry → Option α)
    (slots : List (Option α)) (r : Reading) : Prop :=
  slots = chosen.mapIdx fun t e => if r.atStage Stage.hasStored t then value e else none

section

variable {α : Type} {value : ZipEntry → Option α} {slots : List (Option α)}

theorem SlotsFilled.congr (filled : SlotsFilled chosen value slots r)
    (same : ∀ t, r'.atStage Stage.hasStored t = r.atStage Stage.hasStored t) :
    SlotsFilled chosen value slots r' := by
  unfold SlotsFilled
  simp only [same]
  exact filled

theorem SlotsFilled.length_eq (filled : SlotsFilled chosen value slots r) :
    slots.length = chosen.length := by
  rw [filled, List.length_mapIdx]

/-- Storing the value of an entry fills its slot and no other. -/
theorem SlotsFilled.store {t : Nat} {e : ZipEntry} {stage : Stage}
    (filled : SlotsFilled chosen value slots r) (stands : r.tasks[t]? = some stage)
    (entry : chosen[t]? = some e) :
    SlotsFilled chosen value (slots.set t (value e)) (r.setTask t .stored) := by
  refine List.ext_getElem? fun u => ?_
  rw [List.getElem?_mapIdx]
  by_cases own : t = u
  · subst own
    have bound : t < slots.length := filled.length_eq ▸ (List.getElem?_eq_some_iff.mp entry).1
    rw [List.getElem?_set_self bound, atStage_setTask_self stands, entry]
    rfl
  · rw [List.getElem?_set_ne own, atStage_setTask_ne own]
    have before := congrArg (·[u]?) filled
    exact before.trans List.getElem?_mapIdx

/-- Where there is nothing to store, the slot stays empty. -/
theorem SlotsFilled.pass {t : Nat} {e : ZipEntry} {stage : Stage}
    (filled : SlotsFilled chosen value slots r) (stands : r.tasks[t]? = some stage)
    (unstored : stage.hasStored = false) (entry : chosen[t]? = some e) (nothing : value e = none) :
    SlotsFilled chosen value slots (r.setTask t .stored) := by
  -- the slot is empty as yet, so storing nothing in it changes nothing
  have stored := filled.store stands entry
  have slot : slots[t]? = some none := by
    rw [filled, List.getElem?_mapIdx, entry, atStage_of_getElem? stands, unstored]
    rfl
  obtain ⟨bound, empty⟩ := List.getElem?_eq_some_iff.mp slot
  have unchanged : slots.set t (value e) = slots := by
    rw [nothing, ← empty, List.set_getElem_self]
  rwa [unchanged] at stored

end

/-- The record among the results of decoding. -/
def recordOf : Except SkippedEntry ClassRecord → Option ClassRecord
  | .ok found => some found
  | .error _ => none

/-- The failure among the results of decoding. -/
def skippedOf : Except SkippedEntry ClassRecord → Option SkippedEntry
  | .ok _ => none
  | .error skipped => some skipped

/-! ## Reports -/

/-- The reports of the first `count` tasks out of `total`, latest first. -/
def reports (total count : Nat) : List (Nat × Nat) :=
  (List.range count).reverse.map fun k => (k + 1, total)

theorem reports_succ (total count : Nat) :
    reports total (count + 1) = (count + 1, total) :: reports total count := by
  unfold reports
  rw [List.range_succ, List.reverse_append]
  rfl

/-! ## Consistent runs -/

/-- What every run keeps. -/
structure Consistent (decode : ZipEntry → Except SkippedEntry ClassRecord) (chosen : List ZipEntry)
    (r : Reading) :
    Prop where
  /-- The tasks are those of the first entries, and the others are pending. -/
  launched : ∃ front, chosen = front ++ r.pending ∧ front.length = r.tasks.length
  stages : ∀ (t : Nat) (stage : Stage), r.tasks[t]? = some stage → stage.Follows decode chosen[t]?
  records : SlotsFilled chosen (fun e => recordOf (decode e)) r.records r
  failures : SlotsFilled chosen (fun e => skippedOf (decode e)) r.failures r
  lock : ∀ t, r.lock = some t ↔ r.atStage Stage.holdsLock t = true
  processed : r.processed =
    r.tasks.countP Stage.hasCalled + if r.lock.any (r.atStage Stage.isCounted) then 1 else 0
  calls : r.calls = reports chosen.length (r.tasks.countP Stage.hasCalled)

theorem consistent_fresh (decode : ZipEntry → Except SkippedEntry ClassRecord)
    (chosen : List ZipEntry) :
    Consistent decode chosen (fresh chosen) := by
  have empty : ∀ (α : Type) (value : ZipEntry → Option α),
      SlotsFilled chosen value (List.replicate chosen.length none) (fresh chosen) := by
    intro α value
    refine List.ext_getElem? fun t => ?_
    rw [List.getElem?_mapIdx, List.getElem?_replicate]
    split
    · next bound =>
      rw [List.getElem?_eq_getElem bound]
      rfl
    · next beyond =>
      rw [List.getElem?_eq_none (Nat.le_of_not_lt beyond)]
      rfl
  exact
    { launched := ⟨[], rfl, rfl⟩
      stages := fun t stage stands => (nomatch stands)
      records := empty _ _
      failures := empty _ _
      lock := fun t => ⟨fun held => (nomatch held), fun held => (nomatch held)⟩
      processed := rfl
      calls := rfl }

/-- Moving one task keeps the others in step with their entries. -/
theorem Consistent.stages_setTask {t : Nat} {old new : Stage}
    (consistent : Consistent decode chosen r) (stands : r.tasks[t]? = some old)
    (follows : new.Follows decode chosen[t]?) (u : Nat) (stage : Stage)
    (here : (r.setTask t new).tasks[u]? = some stage) : stage.Follows decode chosen[u]? := by
  by_cases own : t = u
  · subst own
    rw [getElem?_setTask_self stands] at here
    cases here
    exact follows
  · rw [getElem?_setTask_ne own] at here
    exact consistent.stages u stage here

theorem Consistent.launched_setTask (consistent : Consistent decode chosen r) (t : Nat)
    (new : Stage) :
    ∃ front, chosen = front ++ (r.setTask t new).pending ∧
      front.length = (r.setTask t new).tasks.length := by
  obtain ⟨front, whole, length⟩ := consistent.launched
  refine ⟨front, whole, ?_⟩
  unfold setTask
  rw [length, List.length_set]

theorem Consistent.lock_setTask {t : Nat} {old new : Stage}
    (consistent : Consistent decode chosen r) (stands : r.tasks[t]? = some old)
    (holds : new.holdsLock = old.holdsLock) (u : Nat) :
    r.lock = some u ↔ (r.setTask t new).atStage Stage.holdsLock u = true := by
  rw [atStage_setTask stands holds]
  exact consistent.lock u

theorem Consistent.processed_setTask {t : Nat} {old new : Stage}
    (consistent : Consistent decode chosen r) (stands : r.tasks[t]? = some old)
    (counted : new.isCounted = old.isCounted) (called : new.hasCalled = old.hasCalled) :
    r.processed = (r.setTask t new).tasks.countP Stage.hasCalled +
      if r.lock.any ((r.setTask t new).atStage Stage.isCounted) then 1 else 0 := by
  rw [countP_setTask_of_eq stands called, funext (atStage_setTask stands counted)]
  exact consistent.processed

theorem Consistent.calls_setTask {t : Nat} {old new : Stage}
    (consistent : Consistent decode chosen r) (stands : r.tasks[t]? = some old)
    (called : new.hasCalled = old.hasCalled) :
    r.calls = reports chosen.length ((r.setTask t new).tasks.countP Stage.hasCalled) := by
  rw [countP_setTask_of_eq stands called]
  exact consistent.calls

/-- A move of one task that touches neither slots nor lock nor counter. -/
theorem Consistent.quiet {t : Nat} {old new : Stage} (consistent : Consistent decode chosen r)
    (stands : r.tasks[t]? = some old) (follows : new.Follows decode chosen[t]?)
    (stored : new.hasStored = old.hasStored) (holds : new.holdsLock = old.holdsLock)
    (counted : new.isCounted = old.isCounted) (called : new.hasCalled = old.hasCalled) :
    Consistent decode chosen (r.setTask t new) where
  launched := consistent.launched_setTask t new
  stages := consistent.stages_setTask stands follows
  records := consistent.records.congr (atStage_setTask stands stored)
  failures := consistent.failures.congr (atStage_setTask stands stored)
  lock := consistent.lock_setTask stands holds
  processed := consistent.processed_setTask stands counted called
  calls := consistent.calls_setTask stands called

theorem Consistent.record {t : Nat} {found : ClassRecord} (consistent : Consistent decode chosen r)
    (stands : r.tasks[t]? = some (.decoded (.ok found))) :
    Consistent decode chosen
      { r.setTask t .stored with records := r.records.set t (some found) } := by
  obtain ⟨e, entry, result⟩ := consistent.stages t _ stands
  have value : recordOf (decode e) = some found := by rw [← result]; rfl
  have nothing : skippedOf (decode e) = none := by rw [← result]; rfl
  exact
    { launched := consistent.launched_setTask t .stored
      stages := consistent.stages_setTask stands trivial
      records := value ▸ consistent.records.store stands entry
      failures := consistent.failures.pass stands rfl entry nothing
      lock := consistent.lock_setTask stands rfl
      processed := consistent.processed_setTask stands rfl rfl
      calls := consistent.calls_setTask stands rfl }

theorem Consistent.skip {t : Nat} {skipped : SkippedEntry} (consistent : Consistent decode chosen r)
    (stands : r.tasks[t]? = some (.decoded (.error skipped))) :
    Consistent decode chosen
      { r.setTask t .stored with failures := r.failures.set t (some skipped) } := by
  obtain ⟨e, entry, result⟩ := consistent.stages t _ stands
  have value : skippedOf (decode e) = some skipped := by rw [← result]; rfl
  have nothing : recordOf (decode e) = none := by rw [← result]; rfl
  exact
    { launched := consistent.launched_setTask t .stored
      stages := consistent.stages_setTask stands trivial
      records := consistent.records.pass stands rfl entry nothing
      failures := value ▸ consistent.failures.store stands entry
      lock := consistent.lock_setTask stands rfl
      processed := consistent.processed_setTask stands rfl rfl
      calls := consistent.calls_setTask stands rfl }

/-- The lock goes to a task only when no other holds it. -/
theorem Consistent.take_lock {t : Nat} (consistent : Consistent decode chosen r)
    (stands : r.tasks[t]? = some .stored) (free : r.lock = none) :
    Consistent decode chosen { r.setTask t .locked with lock := some t } where
  launched := consistent.launched_setTask t .locked
  stages := consistent.stages_setTask stands trivial
  records := consistent.records.congr (atStage_setTask stands rfl)
  failures := consistent.failures.congr (atStage_setTask stands rfl)
  lock u := by
    show some t = some u ↔ (r.setTask t .locked).atStage Stage.holdsLock u = true
    by_cases own : t = u
    · subst own
      rw [atStage_setTask_self stands]
      exact ⟨fun _ => rfl, fun _ => rfl⟩
    · rw [atStage_setTask_ne own, ← consistent.lock u, free]
      exact ⟨fun same => absurd (Option.some.inj same) own, fun held => nomatch held⟩
  processed := by
    show r.processed = (r.setTask t .locked).tasks.countP Stage.hasCalled +
      if (r.setTask t .locked).atStage Stage.isCounted t then 1 else 0
    have called : (r.setTask t .locked).tasks.countP Stage.hasCalled =
        r.tasks.countP Stage.hasCalled :=
      countP_setTask_of_eq stands rfl
    have before := consistent.processed
    rw [free] at before
    rw [called, atStage_setTask_self stands]
    exact before
  calls := consistent.calls_setTask stands rfl

/-- The task at a stage behind the lock holds it. -/
theorem Consistent.lock_eq {t : Nat} {stage : Stage} (consistent : Consistent decode chosen r)
    (stands : r.tasks[t]? = some stage) (holds : stage.holdsLock = true) : r.lock = some t := by
  rw [consistent.lock t, atStage_of_getElem? stands, holds]

/-- The counter is ahead of the reports exactly while the holder of the lock has counted and not
reported. -/
theorem Consistent.processed_eq {t : Nat} {stage : Stage} (consistent : Consistent decode chosen r)
    (stands : r.tasks[t]? = some stage) (holds : stage.holdsLock = true) :
    r.processed = r.tasks.countP Stage.hasCalled + if stage.isCounted then 1 else 0 := by
  have before := consistent.processed
  rw [consistent.lock_eq stands holds] at before
  show r.processed = _
  rw [before]
  show _ + (if r.atStage Stage.isCounted t then 1 else 0) = _
  rw [atStage_of_getElem? stands]

theorem Consistent.count {t : Nat} (consistent : Consistent decode chosen r)
    (stands : r.tasks[t]? = some .locked) :
    Consistent decode chosen { r.setTask t .counted with processed := r.processed + 1 } where
  launched := consistent.launched_setTask t .counted
  stages := consistent.stages_setTask stands trivial
  records := consistent.records.congr (atStage_setTask stands rfl)
  failures := consistent.failures.congr (atStage_setTask stands rfl)
  lock := consistent.lock_setTask stands rfl
  processed := by
    show r.processed + 1 = (r.setTask t .counted).tasks.countP Stage.hasCalled +
      if r.lock.any ((r.setTask t .counted).atStage Stage.isCounted) then 1 else 0
    have called : (r.setTask t .counted).tasks.countP Stage.hasCalled =
        r.tasks.countP Stage.hasCalled :=
      countP_setTask_of_eq stands rfl
    rw [consistent.lock_eq stands rfl, consistent.processed_eq stands rfl, called]
    show _ = _ + if (r.setTask t .counted).atStage Stage.isCounted t then 1 else 0
    rw [atStage_setTask_self stands]
    rfl
  calls := consistent.calls_setTask stands rfl

/-- The report says how many have reported, the task itself included. -/
theorem Consistent.call {t : Nat} (consistent : Consistent decode chosen r)
    (stands : r.tasks[t]? = some .counted) :
    Consistent decode chosen
      { r.setTask t .called with calls := (r.processed, r.records.length) :: r.calls } := by
  have counted : (r.setTask t .called).tasks.countP Stage.hasCalled =
      r.tasks.countP Stage.hasCalled + 1 :=
    countP_setTask stands .called Stage.hasCalled
  have processed : r.processed = r.tasks.countP Stage.hasCalled + 1 :=
    consistent.processed_eq stands rfl
  exact
    { launched := consistent.launched_setTask t .called
      stages := consistent.stages_setTask stands trivial
      records := consistent.records.congr (atStage_setTask stands rfl)
      failures := consistent.failures.congr (atStage_setTask stands rfl)
      lock := consistent.lock_setTask stands rfl
      processed := by
        show r.processed = (r.setTask t .called).tasks.countP Stage.hasCalled +
          if r.lock.any ((r.setTask t .called).atStage Stage.isCounted) then 1 else 0
        rw [consistent.lock_eq stands rfl, counted, processed]
        show _ = _ + if (r.setTask t .called).atStage Stage.isCounted t then 1 else 0
        rw [atStage_setTask_self stands]
        rfl
      calls := by
        show (r.processed, r.records.length) :: r.calls =
          reports _ ((r.setTask t .called).tasks.countP _)
        rw [counted, reports_succ, processed, consistent.records.length_eq, consistent.calls] }

theorem Consistent.unlock {t : Nat} (consistent : Consistent decode chosen r)
    (stands : r.tasks[t]? = some .called) :
    Consistent decode chosen { r.setTask t .ended with lock := none } where
  launched := consistent.launched_setTask t .ended
  stages := consistent.stages_setTask stands trivial
  records := consistent.records.congr (atStage_setTask stands rfl)
  failures := consistent.failures.congr (atStage_setTask stands rfl)
  lock u := by
    show none = some u ↔ (r.setTask t .ended).atStage Stage.holdsLock u = true
    by_cases own : t = u
    · subst own
      rw [atStage_setTask_self stands]
      exact ⟨fun held => (nomatch held), fun held => (nomatch held)⟩
    · -- another task did not hold the lock before, since `t` did
      rw [atStage_setTask_ne own, ← consistent.lock u, consistent.lock_eq stands rfl]
      exact ⟨fun held => (nomatch held), fun same => absurd (Option.some.inj same) own⟩
  processed := by
    have called : (r.setTask t .ended).tasks.countP Stage.hasCalled =
        r.tasks.countP Stage.hasCalled :=
      countP_setTask_of_eq stands rfl
    show r.processed = (r.setTask t .ended).tasks.countP Stage.hasCalled
    rw [called]
    exact consistent.processed_eq stands rfl
  calls := consistent.calls_setTask stands rfl

theorem Consistent.launch {e : ZipEntry} {rest : List ZipEntry}
    (consistent : Consistent decode chosen r) (waiting : r.pending = e :: rest) :
    Consistent decode chosen { r with pending := rest, tasks := r.tasks ++ [.launched e] } := by
  have called : (r.tasks ++ [Stage.launched e]).countP Stage.hasCalled =
      r.tasks.countP Stage.hasCalled := by
    rw [List.countP_append]
    rfl
  obtain ⟨front, whole, length⟩ := consistent.launched
  rw [waiting] at whole
  exact
    { launched := ⟨front ++ [e], by rw [whole, List.append_assoc]; rfl, by
        rw [List.length_append, List.length_append, length]; rfl⟩
      stages := fun t stage here => by
        rw [List.getElem?_append] at here
        split at here
        · exact consistent.stages t stage here
        · next beyond =>
          obtain ⟨last, rfl⟩ : t - r.tasks.length = 0 ∧ Stage.launched e = stage := by
            simpa [List.getElem?_singleton] using here
          -- the task launched last works on the entry that was pending first
          have position : t = front.length := by omega
          show chosen[t]? = some e
          rw [whole, position, List.getElem?_append_right (Nat.le_refl _), Nat.sub_self]
          rfl
      records := consistent.records.congr (atStage_launch rfl rest)
      failures := consistent.failures.congr (atStage_launch rfl rest)
      lock := fun t => by
        rw [atStage_launch rfl]
        exact consistent.lock t
      processed := by
        show r.processed = (r.tasks ++ [Stage.launched e]).countP _ + _
        rw [called, funext (atStage_launch rfl rest)]
        exact consistent.processed
      calls := by
        show r.calls = reports _ ((r.tasks ++ [Stage.launched e]).countP _)
        rw [called]
        exact consistent.calls }

/-- Whatever the tasks do, the run stays consistent. -/
theorem Consistent.move (consistent : Consistent decode chosen r) (move : Move decode limit r r') :
    Consistent decode chosen r' := by
  cases move with
  | launch waiting room => exact consistent.launch waiting
  | @check t e stands asked =>
    have entry : chosen[t]? = some e := consistent.stages t (.launched e) stands
    exact consistent.quiet stands entry rfl rfl rfl rfl
  | @refuse t e i stands asked =>
    -- no part of `Consistent` is about the failure that is set
    have refused : Consistent decode chosen (r.setTask t .refused) :=
      consistent.quiet stands trivial rfl rfl rfl rfl
    exact { refused with }
  | @decode t e stands =>
    have entry : (Stage.decoded (decode e)).Follows decode chosen[t]? :=
      ⟨e, consistent.stages t _ stands, rfl⟩
    exact consistent.quiet stands entry rfl rfl rfl rfl
  | record stands => exact consistent.record stands
  | skip stands => exact consistent.skip stands
  | lock stands free => exact consistent.take_lock stands free
  | count stands => exact consistent.count stands
  | call stands => exact consistent.call stands
  | unlock stands => exact consistent.unlock stands

/-- No action spoils a consistent run, an interrupt neither. -/
theorem Consistent.step (consistent : Consistent decode chosen r) (a : Action) :
    Consistent decode chosen (r.step decode limit a) := by
  by_cases outside : ∃ i, a = .interrupt i
  · obtain ⟨i, rfl⟩ := outside
    exact { consistent with }
  · obtain same | move := step_eq_or_move decode limit r fun i equal => outside ⟨i, equal⟩
    · rw [same]
      exact consistent
    · exact consistent.move move

theorem consistent_run (decode : ZipEntry → Except SkippedEntry ClassRecord) (limit : Nat)
    (chosen : List ZipEntry) (actions : List Action) :
    Consistent decode chosen (actions.foldl (Reading.step decode limit) (fresh chosen)) := by
  have keep : ∀ r, Consistent decode chosen r →
      Consistent decode chosen (actions.foldl (Reading.step decode limit) r) := by
    induction actions with
    | nil => exact fun r consistent => consistent
    | cons a actions ih => exact fun r consistent => ih _ (consistent.step a)
  exact keep _ (consistent_fresh decode chosen)

end Reading

end JarMetrics
