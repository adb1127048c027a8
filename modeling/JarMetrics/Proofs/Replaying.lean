import JarMetrics.Proofs.Records

/-!
# The order of the events of a class

What a visitor is told of a class follows a fixed order, said here without the code that tells it.
`Completed` gives the events of methods that come to their end: a method that is declined is
declared and nothing more, and any other is declared, followed by the instructions that its body
encodes and by one end mark. `BreaksOff` gives the instructions of a malformed body.

`replay_protocol`: a class is told to its end exactly with the opening, the completed methods and
the end of the class, and otherwise the events stop inside the first malformed body that is wanted.
A visitor may ask for bodies by anything that it was told before (`Visitor`); `accept_eq` says that
its calls are those of a replay for the answers that it gave.
-/

namespace JarMetrics

open ClassFile

namespace ClassFile

/-! ## The order -/

/-- The event that declares a method. -/
def MethodDecl.event (m : MethodDecl) : ClassEvent := .method m.access m.name m.descriptor

/-- What is told first: the declaration of the class and then its fields in order. -/
def opening (file : ClassFile) : List ClassEvent :=
  .declaration file.major file.access file.name file.superName file.interfaces ::
    file.fields.map fun f => .field f.access f.name f.descriptor

/-- The instructions that the body of a method encodes. A method without a body has none. -/
def MethodDecl.Encodes (pool : ConstantPool) (m : MethodDecl) (is : List Instruction) : Prop :=
  match m.code with
  | none => is = []
  | some code => Instruction.Sequence pool 0 code is

/-- The events of methods that all come to their end, from a position on. -/
inductive Completed (pool : ConstantPool) (wanted : Nat → MethodDecl → Bool) :
    Nat → List MethodDecl → List ClassEvent → Prop
  | nil (position : Nat) : Completed pool wanted position [] []
  | declined {position : Nat} {m : MethodDecl} {rest : List MethodDecl} {later : List ClassEvent} :
      wanted position m = false → Completed pool wanted (position + 1) rest later →
      Completed pool wanted position (m :: rest) (m.event :: later)
  | taken {position : Nat} {m : MethodDecl} {is : List Instruction} {rest : List MethodDecl}
      {later : List ClassEvent} :
      wanted position m = true → m.Encodes pool is →
      Completed pool wanted (position + 1) rest later →
      Completed pool wanted position (m :: rest)
        (m.event :: is.map .instruction ++ .methodEnd :: later)

/-- The body of a method stops being a sequence of encodings. The instructions are those up to there
and the one that is cut off there, if any. -/
inductive BreaksOff (pool : ConstantPool) (m : MethodDecl) : List Instruction → Prop
  | intro {front rest : List UInt8} {is : List Instruction} {cut : Option Instruction} :
      m.code = some (front ++ rest) → Instruction.Sequence pool 0 front is →
      Instruction.Stuck pool front.length rest →
      (∀ i, cut = some i ↔ Instruction.CutOff front.length rest i) →
        BreaksOff pool m (is ++ cut.toList)

/-- The events of methods of which one does not come to its end. -/
inductive Stopped (pool : ConstantPool) (wanted : Nat → MethodDecl → Bool) (position : Nat)
    (methods : List MethodDecl) : List ClassEvent → Prop
  | intro {before after : List MethodDecl} {m : MethodDecl} {told : List ClassEvent}
      {is : List Instruction} :
      methods = before ++ m :: after → Completed pool wanted position before told →
      wanted (position + before.length) m = true → BreaksOff pool m is →
      Stopped pool wanted position methods (told ++ m.event :: is.map .instruction)

/-- Methods that differ in nothing but the bodies that are not wanted. -/
inductive Alike (wanted : Nat → MethodDecl → Bool) : Nat → List MethodDecl → List MethodDecl → Prop
  | nil (position : Nat) : Alike wanted position [] []
  | same {position : Nat} {m : MethodDecl} {rest rest' : List MethodDecl} :
      Alike wanted (position + 1) rest rest' → Alike wanted position (m :: rest) (m :: rest')
  | unwanted {position : Nat} {m : MethodDecl} {code : Option (List UInt8)}
      {rest rest' : List MethodDecl} :
      wanted position m = false → wanted position { m with code } = false →
      Alike wanted (position + 1) rest rest' →
      Alike wanted position (m :: rest) ({ m with code } :: rest')

/-! ## One method -/

section

variable {file : ClassFile} {wanted : Nat → MethodDecl → Bool}

/-- A body is a sequence of encodings or it breaks off. -/
theorem encodes_or_breaksOff (pool : ConstantPool) (m : MethodDecl) :
    (∃ is, m.Encodes pool is) ∨ ∃ is, BreaksOff pool m is := by
  unfold MethodDecl.Encodes
  cases body : m.code with
  | none => exact .inl ⟨[], rfl⟩
  | some code =>
    obtain ⟨front, rest, is, rfl, sequence, ended | stuck⟩ := Instruction.exists_front pool 0 code
    · subst ended
      rw [List.append_nil]
      exact .inl ⟨is, sequence⟩
    · rw [Nat.zero_add] at stuck
      obtain ⟨cut, described, -⟩ := Instruction.decodeAll_stuck sequence stuck
      exact .inr ⟨_, .intro body sequence stuck described⟩

theorem methodEvents_of_encodes {m : MethodDecl} {is : List Instruction}
    (encodes : m.Encodes file.pool is) :
    file.methodEvents m = ⟨m.event :: is.map .instruction ++ [.methodEnd], none⟩ := by
  unfold MethodDecl.Encodes at encodes
  unfold methodEvents
  cases body : m.code with
  | none =>
    simp only [body] at encodes
    subst encodes
    rfl
  | some code =>
    simp only [body] at encodes
    simp only [Instruction.decodeAll_sequence encodes]
    rfl

theorem methodEvents_of_breaksOff {m : MethodDecl} {is : List Instruction}
    (breaks : BreaksOff file.pool m is) :
    ∃ error, file.methodEvents m = ⟨m.event :: is.map .instruction, some error⟩ := by
  obtain ⟨body, sequence, stuck, described⟩ := breaks
  obtain ⟨cut, described', error, walk⟩ := Instruction.decodeAll_stuck sequence stuck
  -- both descriptions of the cut-off instruction are the same
  obtain rfl := Option.ext fun i => (described i).trans (described' i).symm
  unfold methodEvents
  simp only [body, walk]
  exact ⟨_, rfl⟩

/-! ## All methods -/

/-- Behind methods that come to their end the others follow. -/
theorem methodsEvents_append {position : Nat} {before : List MethodDecl} {told : List ClassEvent}
    (completed : Completed file.pool wanted position before told) (rest : List MethodDecl) :
    file.methodsEvents wanted position (before ++ rest) =
      ⟨told ++ (file.methodsEvents wanted (position + before.length) rest).events,
        (file.methodsEvents wanted (position + before.length) rest).failure⟩ := by
  induction completed with
  | nil => rfl
  | @declined position m methods later unwanted _ ih =>
    have onward : position + (m :: methods).length = position + 1 + methods.length := by
      rw [List.length_cons]
      omega
    rw [List.cons_append, methodsEvents, unwanted, onward, ih]
    rfl
  | @taken position m is methods later chosen encodes _ ih =>
    have onward : position + (m :: methods).length = position + 1 + methods.length := by
      rw [List.length_cons]
      omega
    rw [List.cons_append, methodsEvents, chosen, onward, if_pos rfl]
    simp only [methodEvents_of_encodes encodes, ih]
    simp only [List.cons_append, List.append_assoc, List.nil_append]

theorem methodsEvents_of_completed {position : Nat} {methods : List MethodDecl}
    {told : List ClassEvent} (completed : Completed file.pool wanted position methods told) :
    file.methodsEvents wanted position methods = ⟨told ++ [.classEnd], none⟩ := by
  have all := methodsEvents_append completed []
  rw [List.append_nil] at all
  exact all

theorem methodsEvents_of_stopped {position : Nat} {methods : List MethodDecl}
    {told : List ClassEvent} (stopped : Stopped file.pool wanted position methods told) :
    ∃ error, file.methodsEvents wanted position methods = ⟨told, some error⟩ := by
  obtain ⟨rfl, completed, chosen, breaks⟩ := stopped
  obtain ⟨error, events⟩ := methodEvents_of_breaksOff breaks
  refine ⟨error, ?_⟩
  rw [methodsEvents_append completed, methodsEvents, chosen, if_pos rfl]
  simp only [events]

/-- All methods come to their end, or the first malformed body that is wanted stops them. -/
theorem completed_or_stopped (pool : ConstantPool) (wanted : Nat → MethodDecl → Bool)
    (position : Nat) (methods : List MethodDecl) :
    (∃ told, Completed pool wanted position methods told) ∨
      ∃ told, Stopped pool wanted position methods told := by
  induction methods generalizing position with
  | nil => exact .inl ⟨[], .nil position⟩
  | cons m rest ih =>
    -- a method that comes to its end goes in front of what is told of the others
    have behind : ∀ told, (∀ {rest later}, Completed pool wanted (position + 1) rest later →
        Completed pool wanted position (m :: rest) (told ++ later)) →
        (∃ told, Completed pool wanted position (m :: rest) told) ∨
          ∃ told, Stopped pool wanted position (m :: rest) told := by
      intro told front
      rcases ih (position + 1) with ⟨later, completed⟩ | ⟨later, stopped⟩
      · exact .inl ⟨_, front completed⟩
      · obtain ⟨split, completed, chosen, breaks⟩ := stopped
        rw [Nat.add_right_comm, Nat.add_assoc, ← List.length_cons (a := m)] at chosen
        exact .inr ⟨_, .intro (congrArg (m :: ·) split) (front completed) chosen breaks⟩
    cases asked : wanted position m with
    | false => exact behind [m.event] fun completed => .declined asked completed
    | true =>
      rcases encodes_or_breaksOff pool m with ⟨is, encodes⟩ | ⟨is, breaks⟩
      · refine behind (m.event :: is.map .instruction ++ [.methodEnd]) fun completed => ?_
        rw [List.append_assoc]
        exact .taken asked encodes completed
      · exact .inr ⟨_, .intro (rfl : m :: rest = [] ++ m :: rest) (.nil position) asked breaks⟩

/-- A body that is not wanted has no influence. -/
theorem methodsEvents_of_alike {position : Nat} {methods methods' : List MethodDecl}
    (alike : Alike wanted position methods methods') (others : List MethodDecl) :
    methodsEvents { file with methods := others } wanted position methods' =
      file.methodsEvents wanted position methods := by
  induction alike with
  | nil => rfl
  | @same position m _ _ _ ih =>
    have here : methodEvents { file with methods := others } m = file.methodEvents m := rfl
    rw [methodsEvents, methodsEvents, ih, here]
  | unwanted asked asked' _ ih =>
    rw [methodsEvents, methodsEvents, ih, asked, asked']
    rfl

end

/-! ## Visitors -/

/-- Somebody who is told of a class. What a visitor knows changes with every event, and whenever a
method is declared the visitor says whether the body is wanted. -/
structure Visitor (σ : Type) where
  hear : σ → ClassEvent → σ
  takes : σ → Bool

/-- What comes of telling a visitor of a class. -/
structure Acceptance (σ : Type) where
  /-- What the visitor knows at the end. -/
  state : σ
  /-- What it answered, method by method. -/
  answers : List Bool
  failure : Option Error

section

variable {σ : Type}

/-- Put the answer for a method in front of those for the others. -/
def Acceptance.behind (answer : Bool) (later : Acceptance σ) : Acceptance σ :=
  { later with answers := answer :: later.answers }

/-- Tell a visitor of methods and of the end of the class, asking for each method. -/
def acceptMethods (file : ClassFile) (v : Visitor σ) : σ → List MethodDecl → Acceptance σ
  | s, [] => ⟨v.hear s .classEnd, [], none⟩
  | s, m :: rest =>
      let declared := v.hear s m.event
      if v.takes declared then
        match m.code with
        | none => (file.acceptMethods v (v.hear declared .methodEnd) rest).behind true
        | some code =>
            let listing := Instruction.decodeAll file.pool code
            let decoded := (listing.instructions.map .instruction).foldl v.hear declared
            match listing.failure with
            | none => (file.acceptMethods v (v.hear decoded .methodEnd) rest).behind true
            | some error =>
                ⟨decoded, [true], some (.within (.body file.name m.name m.descriptor) error)⟩
      else (file.acceptMethods v declared rest).behind false

/-- Tell a visitor of a class. -/
def accept (file : ClassFile) (v : Visitor σ) (s : σ) : Acceptance σ :=
  file.acceptMethods v (file.opening.foldl v.hear s) file.methods

/-- The calls are those of a replay for the answers given; `front` are the answers for the methods
before. -/
theorem acceptMethods_eq (file : ClassFile) (v : Visitor σ) (s : σ) (front : List Bool)
    (methods : List MethodDecl) :
    let run := file.acceptMethods v s methods
    let told :=
      file.methodsEvents (fun k _ => (front ++ run.answers).getD k false) front.length methods
    run.state = told.events.foldl v.hear s ∧ run.failure = told.failure := by
  induction methods generalizing s front with
  | nil => exact ⟨rfl, rfl⟩
  | cons m rest ih =>
    -- the answer for this method stands right behind `front`
    have shift : ∀ answer answers, front ++ answer :: answers = (front ++ [answer]) ++ answers := by
      simp
    have here : ∀ answer answers,
        (front ++ answer :: answers).getD front.length false = answer := by simp
    have next : ∀ answer : Bool, front.length + 1 = (front ++ [answer]).length := by simp
    unfold acceptMethods methodsEvents
    dsimp only
    cases asked : v.takes (v.hear s m.event) with
    | false =>
      simp only [Bool.false_eq_true, if_false, Acceptance.behind, here]
      rw [next false, shift false]
      exact ih (v.hear s m.event) (front ++ [false])
    | true =>
      unfold methodEvents
      cases body : m.code with
      | none =>
        simp only [if_true, Acceptance.behind, here]
        rw [next true, shift true]
        exact ih (v.hear (v.hear s m.event) .methodEnd) (front ++ [true])
      | some code =>
        cases failed : (Instruction.decodeAll file.pool code).failure with
        | none =>
          simp only [failed, if_true, Acceptance.behind, here, List.foldl_append,
            List.foldl_cons, List.foldl_nil]
          rw [next true, shift true]
          exact ih _ (front ++ [true])
        | some error =>
          simp only [failed, if_true, here, List.foldl_cons, MethodDecl.event, and_self]

theorem accept_eq (file : ClassFile) (v : Visitor σ) (s : σ) :
    let run := file.accept v s
    let told := file.replay fun k _ => run.answers.getD k false
    run.state = told.events.foldl v.hear s ∧ run.failure = told.failure := by
  obtain ⟨state, failure⟩ := acceptMethods_eq file v (file.opening.foldl v.hear s) [] file.methods
  refine ⟨?_, failure⟩
  show (file.acceptMethods v _ _).state = (file.opening ++ _).foldl v.hear s
  rw [state, List.foldl_append]
  rfl

end

/-! ## The protocol -/

theorem replay_eq_iff {file : ClassFile} {wanted : Nat → MethodDecl → Bool}
    {events : List ClassEvent} {failure : Option Error} :
    file.replay wanted = ⟨events, failure⟩ ↔
      ∃ told, file.methodsEvents wanted 0 file.methods = ⟨told, failure⟩ ∧
        events = file.opening ++ told := by
  have parts : file.replay wanted =
      ⟨file.opening ++ (file.methodsEvents wanted 0 file.methods).events,
    (file.methodsEvents wanted 0 file.methods).failure⟩ := rfl
  rw [parts]
  constructor
  · intro same
    cases same
    exact ⟨_, rfl, rfl⟩
  · rintro ⟨told, methods, rfl⟩
    rw [methods]

/-- A class is told to its end exactly with its opening, its completed methods and its end. It is
stopped by an error exactly where the first malformed body that is wanted breaks off, with nothing
behind. Bodies that are not wanted have no influence. A visitor that asks for bodies by what it was
told so far gets the calls of a replay for its answers, and no others. -/
theorem replay_protocol (file : ClassFile) :
    (∀ wanted events, file.replay wanted = ⟨events, none⟩ ↔
      ∃ told, Completed file.pool wanted 0 file.methods told ∧
        events = file.opening ++ told ++ [.classEnd]) ∧
    (∀ wanted events, (∃ error, file.replay wanted = ⟨events, some error⟩) ↔
      ∃ told, Stopped file.pool wanted 0 file.methods told ∧ events = file.opening ++ told) ∧
    (∀ wanted methods, Alike wanted 0 file.methods methods →
      replay { file with methods } wanted = file.replay wanted) ∧
    ∀ (σ : Type) (v : Visitor σ) (s : σ),
      let run := file.accept v s
      let told := file.replay fun k _ => run.answers.getD k false
      run.state = told.events.foldl v.hear s ∧ run.failure = told.failure := by
  refine ⟨fun wanted events => ?_, fun wanted events => ?_, fun wanted methods alike => ?_,
    fun σ v s => accept_eq file v s⟩
  · rw [replay_eq_iff]
    constructor
    · rintro ⟨told, methods, rfl⟩
      rcases completed_or_stopped file.pool wanted 0 file.methods with ⟨front, completed⟩ |
        ⟨front, stopped⟩
      · rw [methodsEvents_of_completed completed] at methods
        cases methods
        exact ⟨front, completed, (List.append_assoc ..).symm⟩
      · obtain ⟨error, failed⟩ := methodsEvents_of_stopped stopped
        rw [failed] at methods
        cases methods
    · rintro ⟨told, completed, rfl⟩
      exact ⟨_, methodsEvents_of_completed completed, List.append_assoc ..⟩
  · constructor
    · rintro ⟨error, replayed⟩
      obtain ⟨told, methods, rfl⟩ := replay_eq_iff.mp replayed
      rcases completed_or_stopped file.pool wanted 0 file.methods with ⟨front, completed⟩ |
        ⟨front, stopped⟩
      · rw [methodsEvents_of_completed completed] at methods
        cases methods
      · obtain ⟨error, failed⟩ := methodsEvents_of_stopped stopped
        rw [failed] at methods
        cases methods
        exact ⟨_, stopped, rfl⟩
    · rintro ⟨told, stopped, rfl⟩
      obtain ⟨error, failed⟩ := methodsEvents_of_stopped stopped
      exact ⟨error, replay_eq_iff.mpr ⟨told, failed, rfl⟩⟩
  · have told : methodsEvents { file with methods } wanted 0 methods =
        file.methodsEvents wanted 0 file.methods :=
      methodsEvents_of_alike alike methods
    unfold replay
    simp only [told]

/-- A class of two methods: the first returns at once, and `code` is the body of the second. -/
def twoMethods (code : List UInt8) : ClassFile :=
  ⟨0, 52, ⟨#[]⟩, 0x21, "A", "", [], [], [⟨1, "m", "()V", some [0xb1]⟩, ⟨1, "n", "()V", some code⟩]⟩

/-- A malformed body stops the events where it is wanted, and could be any other where it is not. -/
theorem replay_protocol_malformed :
    (∃ told, Stopped (twoMethods [0xff]).pool (fun _ _ => true) 0 (twoMethods [0xff]).methods told ∧
      ((twoMethods [0xff]).replay fun _ _ => true).events = (twoMethods [0xff]).opening ++ told) ∧
    Alike (fun k _ => k == 0) 0 (twoMethods [0xff]).methods (twoMethods [0xb1]).methods ∧
      ((twoMethods [0xb1]).replay fun k _ => k == 0) = (twoMethods [0xff]).replay
        fun k _ => k == 0 := by
  obtain ⟨-, stopped, alike, -⟩ := replay_protocol (twoMethods [0xff])
  have same : Alike (fun k _ => k == 0) 0 (twoMethods [0xff]).methods (twoMethods [0xb1]).methods :=
    .same (.unwanted rfl rfl (.nil 2))
  have fails : ((twoMethods [0xff]).replay fun _ _ => true).failure.isSome = true := by
    decide +kernel
  obtain ⟨error, failed⟩ := Option.isSome_iff_exists.mp fails
  exact ⟨(stopped _ _).mp ⟨error, by rw [← failed]⟩, same, alike _ _ same⟩

end ClassFile

end JarMetrics
