import JarMetrics.Metrics.ClassRecord
import Mathlib.Algebra.BigOperators.Group.Finset.Piecewise
import Mathlib.Data.List.ReduceOption

/-!
# Bodies that are open at the same time

While a record is made the bodies of several methods can be open, and the record can be asked for at
any time. `answers_exact` says what is answered, whatever the order of calls: the class as declared
last, the fields and the signatures so far, and for each end of a body so far what that body had
counted by then. A body may go on past its end, and end again. Runs with the same bodies give the
same record, however the bodies are interleaved.

`Follows` says of a builder that it has seen some steps. One more step keeps this true
(`Follows.step`), so it holds after every run (`follows_after`). For the second part the ends are
gathered body by body (`sum_ended_eq`): what the ends of a body add up to depends on nothing but
what was sent to it.
-/

namespace JarMetrics

instance : Zero Abc := ⟨Abc.zero⟩

instance : AddCommMonoid Abc where
  add_assoc := Abc.add_assoc
  zero_add := Abc.zero_add
  add_zero := Abc.add_zero
  add_comm := Abc.add_comm
  nsmul := nsmulRec

/-! ## What steps say -/

namespace RecordStep

/-- The head that a step declares. -/
def head? : RecordStep → Option ClassHead
  | .declare head => some head
  | _ => none

/-- The signature of the method that a step begins. -/
def signature? : RecordStep → Option Signature
  | .method signature => some signature
  | _ => none

/-- The body that a step is sent to. -/
def body? : RecordStep → Option Nat
  | .instruction body _ => some body
  | .methodEnd body => some body
  | _ => none

/-- The body that a step ends. -/
def ended? : RecordStep → Option Nat
  | .methodEnd body => some body
  | _ => none

/-- What a step sends to a body: an instruction, or nothing but the end. -/
def sends? (body : Nat) : RecordStep → Option (Option Instruction)
  | .instruction other i => if other = body then some (some i) else none
  | .methodEnd other => if other = body then some none else none
  | _ => none

end RecordStep

namespace RecordBuilder

open RecordStep

/-- The class as it was declared last. -/
def declared? (steps : List RecordStep) : Option ClassHead := (steps.filterMap head?).getLast?

/-- The methods that were begun, in order. A body is named by the position of its method. -/
def begun (steps : List RecordStep) : List Signature := steps.filterMap signature?

/-- What was sent to a body, in order. -/
def sentTo (body : Nat) (steps : List RecordStep) : List (Option Instruction) :=
  steps.filterMap (sends? body)

/-- The instructions that were sent to a body. -/
def received (body : Nat) (steps : List RecordStep) : List Instruction :=
  (sentTo body steps).reduceOption

/-- What bodies had counted when they ended, for each end. -/
def ended (steps : List RecordStep) : List Abc :=
  (List.range steps.length).filterMap fun k =>
    (steps[k]?.bind ended?).map fun body => Abc.ofInstructions (received body (steps.take k))

/-- Whether instructions and ends are sent only to bodies of methods that have begun, where `count`
of them had begun before the steps. -/
def addressed : Nat → List RecordStep → Bool
  | _, [] => true
  | count, .method _ :: rest => addressed (count + 1) rest
  | count, s :: rest => s.body?.all (· < count) && addressed count rest

/-! ## One more step -/

theorem declared?_concat (steps : List RecordStep) (s : RecordStep) :
    declared? (steps ++ [s]) = s.head?.or (declared? steps) := by
  unfold declared?
  cases named : s.head? with
  | none => simp [named]
  | some head => simp [named]

theorem begun_concat (steps : List RecordStep) (s : RecordStep) :
    begun (steps ++ [s]) = begun steps ++ s.signature?.toList := by
  unfold begun
  cases named : s.signature? with
  | none => simp [named]
  | some signature => simp [named]

theorem sentTo_concat (body : Nat) (steps : List RecordStep) (s : RecordStep) :
    sentTo body (steps ++ [s]) = sentTo body steps ++ (s.sends? body).toList := by
  unfold sentTo
  cases sent : s.sends? body with
  | none => simp [sent]
  | some event => simp [sent]

theorem received_concat (body : Nat) (steps : List RecordStep) (s : RecordStep) :
    received body (steps ++ [s]) = received body steps ++ (s.sends? body).toList.reduceOption := by
  rw [received, sentTo_concat, List.reduceOption_append]
  rfl

/-- What one step adds to the ends. -/
def ending (before : List RecordStep) (s : RecordStep) : List Abc :=
  (s.ended?.map fun body => Abc.ofInstructions (received body before)).toList

theorem ended_concat (steps : List RecordStep) (s : RecordStep) :
    ended (steps ++ [s]) = ended steps ++ ending steps s := by
  have earlier : (List.range steps.length).filterMap (fun k =>
      ((steps ++ [s])[k]?.bind ended?).map fun body =>
        Abc.ofInstructions (received body ((steps ++ [s]).take k))) =
      ended steps := by
    refine List.filterMap_congr ?_
    intro k inside
    have bound : k < steps.length := List.mem_range.mp inside
    rw [List.getElem?_append_left bound, List.take_append_of_le_length (Nat.le_of_lt bound)]
  unfold ended at earlier ⊢
  rw [List.length_append, List.length_singleton, List.range_succ, List.filterMap_append, earlier]
  congr 1
  unfold ending
  cases last : s.ended? with
  | none => simp [last]
  | some body => simp [last]

theorem addressed_concat (count : Nat) (steps : List RecordStep) (s : RecordStep) :
    addressed count (steps ++ [s]) =
      (addressed count steps && s.body?.all (· < count + (begun steps).length)) := by
  induction steps generalizing count with
  | nil => cases s <;> simp [addressed, begun, body?]
  | cons first rest ih =>
    cases first with
    | method signature =>
      have more : count + 1 + (begun rest).length =
          count + (begun (.method signature :: rest)).length := by
        show _ = count + ((begun rest).length + 1)
        omega
      rw [List.cons_append, addressed, addressed, ih, more]
    | _ =>
      rw [List.cons_append, addressed.eq_def, addressed.eq_def count (_ :: rest)]
      simp only [ih, Bool.and_assoc]
      rfl

/-! ## What a step does to a builder -/

theorem head_step (b : RecordBuilder) (s : RecordStep) : (b.step s).head = s.head?.or b.head := by
  cases s <;> rfl

theorem fieldCount_step (b : RecordBuilder) (s : RecordStep) :
    (b.step s).fieldCount = b.fieldCount + [s].count .field := by
  cases s <;> rfl

theorem signatures_step (b : RecordBuilder) (s : RecordStep) :
    (b.step s).signatures = s.signature?.toList ++ b.signatures := by
  cases s <;> rfl

theorem size_step (b : RecordBuilder) (s : RecordStep) :
    (b.step s).bodies.size = b.bodies.size + s.signature?.toList.length := by
  cases s with
  | method signature => exact Array.size_push Abc.zero
  | instruction body i => exact Array.size_modify
  | _ => rfl

theorem total_step (b : RecordBuilder) (s : RecordStep) :
    (b.step s).total = b.total + (s.ended?.map (b.bodies.getD · Abc.zero)).toList.sum := by
  cases s with
  | methodEnd body =>
    show _ = b.total + [b.bodies.getD body Abc.zero].sum
    rw [List.sum_singleton]
    rfl
  | _ => exact (add_zero b.total).symm

/-- A body counts the instructions that are sent to it, if it is there. -/
theorem counted_step {b : RecordBuilder} {s : RecordStep}
    (there : ∀ body, s.body? = some body → body < b.bodies.size) (body : Nat) :
    (b.step s).bodies.getD body Abc.zero =
      (s.sends? body).toList.reduceOption.foldl (fun v i => v + Abc.ofInstruction i)
        (b.bodies.getD body Abc.zero) := by
  cases s with
  | method signature =>
    show (b.bodies.push Abc.zero).getD body Abc.zero = b.bodies.getD body Abc.zero
    simp only [Array.getD_eq_getD_getElem?, Array.getElem?_push]
    split
    next last => simp [last]
    next => rfl
  | instruction sent i =>
    show (b.bodies.modify sent (· + Abc.ofInstruction i)).getD body Abc.zero = _
    have bound := there sent rfl
    simp only [Array.getD_eq_getD_getElem?, Array.getElem?_modify, sends?]
    by_cases same : sent = body
    · subst same
      simp [bound]
    · simp [same]
  | methodEnd other =>
    show b.bodies.getD body Abc.zero = _
    by_cases same : other = body
    · simp [sends?, same]
    · simp [sends?, same]
  | _ => rfl

/-! ## What a builder holds -/

/-- A builder that has seen some steps. -/
structure Follows (steps : List RecordStep) (b : RecordBuilder) : Prop where
  head : b.head = declared? steps
  fieldCount : b.fieldCount = steps.count .field
  signatures : b.signatures = (begun steps).reverse
  size : b.bodies.size = (begun steps).length
  counted : ∀ body, b.bodies.getD body Abc.zero = Abc.ofInstructions (received body steps)
  total : b.total = (ended steps).sum

theorem follows_nil : Follows [] {} := ⟨rfl, rfl, rfl, rfl, fun _ => rfl, rfl⟩

/-- One more step. If it is sent to a body, then that body is there. -/
theorem Follows.step {steps : List RecordStep} {b : RecordBuilder} (follows : Follows steps b)
    {s : RecordStep} (there : ∀ body, s.body? = some body → body < (begun steps).length) :
    Follows (steps ++ [s]) (b.step s) where
  head := by rw [head_step, declared?_concat, follows.head]
  fieldCount := by rw [fieldCount_step, List.count_append, follows.fieldCount]
  signatures := by
    rw [signatures_step, begun_concat, follows.signatures]
    cases s.signature? <;> simp
  size := by rw [size_step, begun_concat, List.length_append, follows.size]
  counted := by
    intro body
    rw [counted_step (by rwa [follows.size]), received_concat, follows.counted,
      Abc.ofInstructions, Abc.ofInstructions, List.foldl_append]
  total := by
    rw [total_step, ended_concat, List.sum_append, follows.total]
    simp only [follows.counted]
    rfl

/-- A builder after some steps. -/
def after (steps : List RecordStep) : RecordBuilder := steps.foldl step {}

theorem follows_after {steps : List RecordStep} (sent : addressed 0 steps = true) :
    Follows steps (after steps) := by
  induction steps using List.reverseRecOn with
  | nil => exact follows_nil
  | append_singleton steps s ih =>
    rw [addressed_concat, Bool.and_eq_true, Nat.zero_add] at sent
    have there : ∀ body, s.body? = some body → body < (begun steps).length := by
      intro body named
      have bound := sent.2
      rw [named] at bound
      exact of_decide_eq_true bound
    unfold after
    rw [List.foldl_append]
    exact (ih sent.1).step there

/-! ## The ends, body by body -/

/-- What a body has counted, and what its ends have added up to, after one more thing is sent to
it. -/
def tallyOne (tally : Abc × Abc) : Option Instruction → Abc × Abc
  | some i => (tally.1 + Abc.ofInstruction i, tally.2)
  | none => (tally.1, tally.2 + tally.1)

/-- What a body counts and what its ends add up to. -/
def tally (events : List (Option Instruction)) : Abc × Abc := events.foldl tallyOne (0, 0)

theorem tally_concat (events : List (Option Instruction)) (event : Option Instruction) :
    tally (events ++ [event]) = tallyOne (tally events) event := by
  simp [tally]

theorem tally_fst (events : List (Option Instruction)) :
    (tally events).1 = Abc.ofInstructions events.reduceOption := by
  induction events using List.reverseRecOn with
  | nil => rfl
  | append_singleton events event ih =>
    rw [tally_concat, List.reduceOption_append, Abc.ofInstructions, List.foldl_append]
    cases event with
    | some i => exact congrArg (· + Abc.ofInstruction i) ih
    | none => exact ih

/-- A step adds to the ends of the body that it is sent to what it adds to all ends. -/
theorem tally_sentTo_concat (body : Nat) (steps : List RecordStep) (s : RecordStep) :
    (tally (sentTo body (steps ++ [s]))).2 =
      (tally (sentTo body steps)).2 + if s.body? = some body then (ending steps s).sum else 0 := by
  rw [sentTo_concat]
  cases s with
  | instruction other i =>
    have noneEnded : (ending steps (.instruction other i)).sum = 0 := rfl
    rw [noneEnded, ite_self, add_zero]
    by_cases same : other = body
    · simp [sends?, same, tally_concat, tallyOne]
    · simp [sends?, same]
  | methodEnd other =>
    by_cases same : other = body
    · subst same
      have counted : (ending steps (.methodEnd other)).sum = (tally (sentTo other steps)).1 := by
        rw [tally_fst]
        exact List.sum_singleton
      simp [sends?, body?, counted, tally_concat, tallyOne]
    · simp [sends?, body?, same]
  | _ => simp [sends?, body?]

theorem sum_ended_eq {steps : List RecordStep} {count : Nat}
    (bounded : ∀ s ∈ steps, ∀ body, s.body? = some body → body < count) :
    (ended steps).sum = ∑ body ∈ Finset.range count, (tally (sentTo body steps)).2 := by
  induction steps using List.reverseRecOn with
  | nil => simp [ended, sentTo, tally]
  | append_singleton steps s ih =>
    have here := bounded s (by simp)
    have earlier : ∀ t ∈ steps, ∀ body, t.body? = some body → body < count := by
      intro t member
      exact bounded t (List.mem_append_left [s] member)
    have added :
        (∑ body ∈ Finset.range count, if s.body? = some body then (ending steps s).sum else 0) =
        (ending steps s).sum := by
      cases named : s.body? with
      | some body => simp [here body named]
      | none =>
        -- a step that is sent to no body ends none
        have noneEnded : ending steps s = [] := by
          cases s with
          | methodEnd body => simp [body?] at named
          | _ => rfl
        simp [noneEnded]
    simp only [ended_concat, List.sum_append, tally_sentTo_concat,
      Finset.sum_add_distrib, added, ih earlier]

theorem lt_of_addressed {count : Nat} {steps : List RecordStep}
    (sent : addressed count steps = true) {s : RecordStep} (member : s ∈ steps) {body : Nat}
    (named : s.body? = some body) : body < count + (begun steps).length := by
  induction steps using List.reverseRecOn with
  | nil => simp at member
  | append_singleton steps last ih =>
    rw [addressed_concat, Bool.and_eq_true] at sent
    rw [begun_concat, List.length_append]
    rcases List.mem_append.mp member with earlier | here
    · have bound := ih sent.1 earlier
      omega
    · obtain rfl : s = last := by simpa using here
      have bound := sent.2
      rw [named] at bound
      have bound : body < count + (begun steps).length := of_decide_eq_true bound
      omega

/-! ## Records -/

/-- The record of a builder, or why there is none. -/
def build (b : RecordBuilder) : Except RecordError ClassRecord :=
  match b.build? with
  | some r => .ok r
  | none => .error .undeclared

/-- A record that says what some steps say. -/
structure Tells (steps : List RecordStep) (r : ClassRecord) : Prop where
  declared : ∃ head, declared? steps = some head ∧ r.name = head.name ∧
    r.superName = head.superName ∧
    r.interfaces = head.interfaces ∧ (r.isInterface = true ↔ head.access &&& 0x200 ≠ 0)
  fieldCount : r.fieldCount = steps.count .field
  methods : ∀ signature, signature ∈ r.methods ↔ .method signature ∈ steps
  abc : r.abc = (ended steps).sum

theorem mem_begun {steps : List RecordStep} {signature : Signature} :
    signature ∈ begun steps ↔ .method signature ∈ steps := by
  unfold begun
  rw [List.mem_filterMap]
  constructor
  · rintro ⟨s, member, named⟩
    cases s with
    | method other =>
      obtain rfl : other = signature := by simpa [signature?] using named
      exact member
    | _ => cases named
  · intro member
    exact ⟨_, member, rfl⟩

theorem declared?_eq_none_iff {steps : List RecordStep} :
    declared? steps = none ↔ ∀ head, .declare head ∉ steps := by
  unfold declared?
  rw [List.getLast?_eq_none_iff, List.filterMap_eq_nil_iff]
  constructor
  · intro undeclared head member
    cases undeclared _ member
  · intro undeclared s member
    cases s with
    | declare head => exact absurd member (undeclared head)
    | _ => rfl

theorem Follows.build {steps : List RecordStep} {b : RecordBuilder} (follows : Follows steps b) :
    (declared? steps = none → b.build = .error .undeclared) ∧
      ∀ head, declared? steps = some head → ∃ r, b.build = .ok r ∧ Tells steps r := by
  have head := follows.head
  constructor
  · intro undeclared
    rw [undeclared] at head
    simp [RecordBuilder.build, build?, head]
  · intro last declared
    rw [declared] at head
    refine ⟨_, by rw [RecordBuilder.build, build?, head]; rfl, ?_⟩
    refine ⟨⟨last, declared, rfl, rfl, rfl, ?_⟩, follows.fieldCount, ?_, follows.total⟩
    · simp [ClassFile.isInterfaceAccess, ClassFile.interfaceFlag]
    · intro signature
      rw [Signature.mem_sortedSet, follows.signatures, List.mem_reverse, mem_begun]

/-- Steps leave nothing open about their record. -/
theorem Tells.unique {s t : List RecordStep} {r q : ClassRecord} (left : Tells s r)
    (right : Tells t q) (declared : declared? s = declared? t)
    (fields : s.count .field = t.count .field)
    (methods : ∀ signature, .method signature ∈ s ↔ .method signature ∈ t)
    (total : (ended s).sum = (ended t).sum) :
    r = q := by
  obtain ⟨head, here, name, superName, interfaces, access⟩ := left.declared
  obtain ⟨_, there, name', superName', interfaces', access'⟩ := right.declared
  rw [declared, there, Option.some.injEq] at here
  subst here
  have same : r.methods = q.methods := by
    refine Signature.eq_of_pairwise_before r.ordered q.ordered ?_
    intro signature
    rw [left.methods, right.methods, methods]
  have fieldCount : r.fieldCount = q.fieldCount := by rw [left.fieldCount, right.fieldCount, fields]
  have abc : r.abc = q.abc := by rw [left.abc, right.abc, total]
  have flag : r.isInterface = q.isInterface := Bool.eq_iff_iff.mpr (access.trans access'.symm)
  cases r
  cases q
  simp_all

/-! ## Calls -/

end RecordBuilder

/-- A call on a builder: a step, or a request for the record so far. -/
inductive RecordCall
  | step (s : RecordStep)
  | build

namespace RecordBuilder

/-- The steps among calls. -/
def stepsOf (calls : List RecordCall) : List RecordStep :=
  calls.filterMap fun
    | .step s => some s
    | .build => none

/-- What calls answer, one after the other. A step answers nothing, and a request leaves the builder
as it is. -/
def answers : RecordBuilder → List RecordCall → List (Option (Except RecordError ClassRecord))
  | _, [] => []
  | b, .step s :: rest => none :: answers (b.step s) rest
  | b, .build :: rest => some b.build :: answers b rest

theorem answers_of_build (b : RecordBuilder) {calls : List RecordCall} {k : Nat}
    (asked : calls[k]? = some .build) :
    (b.answers calls)[k]? = some (some ((stepsOf (calls.take k)).foldl step b).build) := by
  induction calls generalizing b k with
  | nil => simp at asked
  | cons call rest ih =>
    cases k with
    | zero =>
      obtain rfl : call = .build := by simpa using asked
      rfl
    | succ k =>
      rw [List.getElem?_cons_succ] at asked
      cases call with
      | step s => exact ih (b.step s) asked
      | build => exact ih b asked

theorem addressed_take {count : Nat} {steps front : List RecordStep}
    (sent : addressed count steps = true) (start : front <+: steps) :
    addressed count front = true := by
  obtain ⟨back, rfl⟩ := start
  induction back using List.reverseRecOn with
  | nil => simpa using sent
  | append_singleton back s ih =>
    rw [← List.append_assoc, addressed_concat, Bool.and_eq_true] at sent
    exact ih sent.1

theorem stepsOf_take (calls : List RecordCall) (k : Nat) :
    stepsOf (calls.take k) <+: stepsOf calls := by
  refine ⟨stepsOf (calls.drop k), ?_⟩
  unfold stepsOf
  rw [← List.filterMap_append, List.take_append_drop]

/-- What was sent to the bodies, one after the other. -/
def bodiesOf (steps : List RecordStep) : List (List (Option Instruction)) :=
  (List.range (begun steps).length).map (sentTo · steps)

/-- Runs that declare the same class last and have as many fields, the same methods and the same
bodies. It does not matter how the bodies are interleaved, nor in which order their methods
begin. -/
structure Rearranges (s t : List RecordStep) : Prop where
  declared : declared? s = declared? t
  fields : s.count .field = t.count .field
  methods : ∀ signature, .method signature ∈ s ↔ .method signature ∈ t
  bodies : (bodiesOf s).Perm (bodiesOf t)

theorem sum_ended_bodiesOf {steps : List RecordStep} (sent : addressed 0 steps = true) :
    (ended steps).sum = ((bodiesOf steps).map fun events => (tally events).2).sum := by
  have bounded : ∀ s ∈ steps, ∀ body, s.body? = some body → body < (begun steps).length := by
    intro s member body named
    simpa using lt_of_addressed sent member named
  rw [sum_ended_eq bounded, bodiesOf, List.map_map]
  rfl

/-- Whatever the order of calls, a request for the record fails exactly if no class has been
declared. Otherwise the record says what the steps so far say: each end of a body adds what that
body had counted by then. So the record does not depend on how bodies are interleaved. -/
theorem answers_exact :
    (∀ calls : List RecordCall, addressed 0 (stepsOf calls) = true → ∀ k, calls[k]? = some .build →
      ∃ outcome, (answers {} calls)[k]? = some (some outcome) ∧
        (outcome = .error .undeclared ↔ ∀ head, .declare head ∉ stepsOf (calls.take k)) ∧
        ((∃ head, .declare head ∈ stepsOf (calls.take k)) →
          ∃ r, outcome = .ok r ∧ Tells (stepsOf (calls.take k)) r)) ∧
    ∀ s t : List RecordStep, addressed 0 s = true → addressed 0 t = true → Rearranges s t →
      (after s).build = (after t).build := by
  constructor
  · intro calls sent k asked
    refine ⟨_, answers_of_build {} asked, ?_⟩
    have follows := follows_after (addressed_take sent (stepsOf_take calls k))
    obtain ⟨undeclared, built⟩ := follows.build
    cases declared : declared? (stepsOf (calls.take k)) with
    | none =>
      have silent := declared?_eq_none_iff.mp declared
      refine ⟨iff_of_true (undeclared declared) silent, ?_⟩
      rintro ⟨head, member⟩
      exact absurd member (silent head)
    | some head =>
      obtain ⟨r, same, tells⟩ := built head declared
      refine ⟨iff_of_false ?_ ?_, fun _ => ⟨r, same, tells⟩⟩
      · intro failed
        rw [← after, same] at failed
        cases failed
      · intro silent
        rw [declared?_eq_none_iff.mpr silent] at declared
        cases declared
  · intro s t left right rearranged
    obtain ⟨undeclared, built⟩ := (follows_after left).build
    obtain ⟨undeclared', built'⟩ := (follows_after right).build
    cases declared : declared? s with
    | none => rw [undeclared declared, undeclared' (rearranged.declared ▸ declared)]
    | some head =>
      obtain ⟨r, same, tells⟩ := built head declared
      obtain ⟨q, same', tells'⟩ := built' head (rearranged.declared ▸ declared)
      have total : (ended s).sum = (ended t).sum := by
        rw [sum_ended_bodiesOf left, sum_ended_bodiesOf right]
        exact (rearranged.bodies.map _).sum_eq
      rw [same, same', tells.unique tells' rearranged.declared rearranged.fields
        rearranged.methods total]

/-- Two methods whose bodies are open at the same time. The record is asked for before the class is
declared, and again after the second body has gone on past its end and has ended once more. -/
def overlapping : List RecordCall :=
  [.step (.method ⟨"a", "()V"⟩), .build, .step (.method ⟨"b", "()V"⟩),
    .step (.instruction 1 (.increment 0 1)), .step (.declare ⟨0x200, "A", "B", []⟩),
    .step (.methodEnd 1), .step .field, .step (.instruction 0 (.increment 0 1)),
    .step (.instruction 1 (.jump 0x99 0)), .step (.methodEnd 0), .step (.methodEnd 1),
    .step .classEnd, .build]

/-- The same bodies one after the other, the second method first. -/
def consecutive : List RecordStep :=
  [.declare ⟨0x200, "A", "B", []⟩, .field, .method ⟨"b", "()V"⟩,
    .instruction 0 (.increment 0 1), .methodEnd 0, .instruction 0 (.jump 0x99 0), .methodEnd 0,
    .method ⟨"a", "()V"⟩, .instruction 1 (.increment 0 1), .methodEnd 1, .classEnd]

theorem answers_exact_overlapping :
    addressed 0 (stepsOf overlapping) = true ∧ addressed 0 consecutive = true ∧
      Rearranges (stepsOf overlapping) consecutive ∧
      (answers {} overlapping)[1]? = some (some (.error .undeclared)) ∧
      (∃ r, (answers {} overlapping)[12]? = some (some (.ok r)) ∧
        r.isInterface = true ∧ r.fieldCount = 1 ∧
        r.abc = ⟨3, 0, 1⟩) ∧
      (after (stepsOf overlapping)).build = (after consecutive).build := by
  obtain ⟨answered, rearranged⟩ := answers_exact
  have first : addressed 0 (stepsOf overlapping) = true := by decide
  have second : addressed 0 consecutive = true := by decide
  have same : Rearranges (stepsOf overlapping) consecutive := by
    refine ⟨by decide, by decide, ?_, ?_⟩
    · intro signature
      simp [stepsOf, overlapping, consecutive, or_comm]
    · exact List.Perm.swap _ _ []
  refine ⟨first, second, same, ?_, ?_, rearranged _ _ first second same⟩
  · obtain ⟨outcome, answer, failed, -⟩ := answered overlapping first 1 rfl
    rw [answer, failed.mpr (by simp [stepsOf, overlapping])]
  · obtain ⟨outcome, answer, -, built⟩ := answered overlapping first 12 rfl
    obtain ⟨r, rfl, tells⟩ := built ⟨⟨0x200, "A", "B", []⟩, by decide⟩
    obtain ⟨head, declared, -, -, -, flag⟩ := tells.declared
    have last : declared? (stepsOf (overlapping.take 12)) = some ⟨0x200, "A", "B", []⟩ := by decide
    rw [last, Option.some.injEq] at declared
    subst declared
    exact ⟨r, answer, flag.mpr (by decide), tells.fieldCount, tells.abc⟩

end RecordBuilder

end JarMetrics
