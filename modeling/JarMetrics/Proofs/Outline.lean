import JarMetrics.Assembly.Session
import JarMetrics.ClassFile.Replay
import JarMetrics.Proofs.Assembling
import Mathlib.Data.List.Forall2

/-!
# Calls leave what they ask for in the class

An `Outline` is what the calls on a class ask for, in names and instructions. `Describes` compares
it with a session, in which names have become indices and instructions bytes: every index stands for
its name in the table of the pool, and every body is the encoding of its instructions.

Each call keeps the comparison true (`exists_call`), and so do all calls together (`exists_run`), as
long as the pool does not get too large. The table may grow at any call, so everything that is
compared has to be stable.
-/

namespace JarMetrics.Assembly

open ClassFile

/-! ## What is asked for -/

/-- A body: its instructions so far, and the offset behind them. -/
structure BodyOutline where
  size : Nat
  instructions : List Instruction
  deriving Repr, DecidableEq

/-- A method, with its body if it has one. -/
structure MethodOutline where
  access : UInt16
  name : String
  descriptor : String
  body : Option BodyOutline
  deriving Repr, DecidableEq

/-- A class, and the bodies put together for it. -/
structure Outline where
  access : UInt16
  name : String
  superName : String
  interfaces : List String
  fields : List FieldDecl
  methods : List MethodOutline
  bodies : Nat → BodyOutline

/-- The next piece goes behind the instructions so far. -/
def BodyOutline.add (body : BodyOutline) (piece : Piece) : BodyOutline :=
  { size := body.size + piece.size body.size
    instructions := body.instructions ++ [piece.instruction body.size] }

/-- The events of a method and its instructions. -/
def MethodOutline.events (m : MethodOutline) : List ClassEvent :=
  .method m.access m.name m.descriptor ::
    (m.body.elim [] BodyOutline.instructions).map .instruction ++ [.methodEnd]

namespace Outline

/-- The class as it is declared. -/
def start (access : UInt16) (name superName : String) (interfaces : List String) : Outline :=
  { access, name, superName, interfaces, fields := [], methods := [], bodies := fun _ => ⟨0, []⟩ }

/-- What a call adds. -/
def call (o : Outline) : Call → Outline
  | .field access name descriptor => { o with fields := o.fields ++ [⟨access, name, descriptor⟩] }
  | .method access name descriptor body =>
      { o with methods := o.methods ++ [⟨access, name, descriptor, body.map o.bodies⟩] }
  | .refer _ => o
  | .emit body piece =>
      { o with
        bodies := fun other => if other = body then (o.bodies body).add piece else o.bodies other }

/-- What the calls add, one after the other. -/
def run (o : Outline) (calls : List Call) : Outline := calls.foldl call o

/-- The events of the class. -/
def events (o : Outline) : List ClassEvent :=
  .declaration 52 o.access o.name o.superName o.interfaces ::
    (o.fields.map fun f => .field f.access f.name f.descriptor) ++
      o.methods.flatMap MethodOutline.events ++
      [.classEnd]

end Outline

/-- The texts of a call can be written, and its references and pieces are well formed. -/
def Call.WellFormed : Call → Prop
  | .field _ name descriptor | .method _ name descriptor _ => Writable name ∧ Writable descriptor
  | .refer reference => reference.WellFormed
  | .emit _ piece => piece.WellFormed

instance : (call : Call) → Decidable call.WellFormed
  | .field _ name descriptor | .method _ name descriptor _ =>
      inferInstanceAs (Decidable (Writable name ∧ Writable descriptor))
  | .refer reference => inferInstanceAs (Decidable reference.WellFormed)
  | .emit _ piece => inferInstanceAs (Decidable piece.WellFormed)

/-! ## The comparison -/

/-- A member with these flags and names. -/
structure Named (table : ConstantPool) (access : UInt16) (name descriptor : String) (m : Member) :
    Prop where
  accessEq : m.access = access
  nameAt : table.TextAt m.name name
  descriptorAt : table.TextAt m.descriptor descriptor

/-- The bytes of a body, as long as they can be written. -/
structure BodyWritten (table : ConstantPool) (code : List UInt8) (body : BodyOutline) : Prop where
  lengthEq : code.length = body.size
  sequence : code.length < 0x100000000 → Instruction.Sequence table 0 code body.instructions

/-- A method with its body. -/
structure MethodWritten (table : ConstantPool) (m : Member) (o : MethodOutline) : Prop where
  named : Named table o.access o.name o.descriptor m
  body : Option.Rel (BodyWritten table) m.code o.body

/-- The session holds what the outline asks for. -/
structure Describes (table : ConstantPool) (o : Outline) (s : Session) : Prop where
  access : s.built.access = o.access
  name : table.ClassAt s.built.name o.name
  super : (o.superName = "" ∧ s.built.super = 0) ∨ table.ClassAt s.built.super o.superName
  interfaces : List.Forall₂ table.ClassAt s.built.interfaces o.interfaces
  fields : List.Forall₂ (fun m f => Named table f.access f.name f.descriptor m)
    s.built.fields o.fields
  methods : List.Forall₂ (MethodWritten table) s.built.methods o.methods
  bodies : ∀ body, BodyWritten table (s.bodies body) (o.bodies body)

/-- A relation between optional things is weakened as it is between things. -/
theorem rel_imp {α β : Type} {strong weak : α → β → Prop} {x : Option α} {y : Option β}
    (implied : ∀ a ∈ x, ∀ b, strong a b → weak a b) (related : Option.Rel strong x y) :
    Option.Rel weak x y := by
  cases related with
  | none => exact .none
  | some both => exact .some (implied _ rfl _ both)

section Stability

variable {large small : ConstantPool}

theorem Named.mono (grown : large.Extends small) {access : UInt16} {name descriptor : String}
    {m : Member} (named : Named small access name descriptor m) :
    Named large access name descriptor m :=
  ⟨named.accessEq, grown.textAt named.nameAt, grown.textAt named.descriptorAt⟩

theorem BodyWritten.mono (grown : large.Extends small) {code : List UInt8} {body : BodyOutline}
    (written : BodyWritten small code body) : BodyWritten large code body :=
  ⟨written.lengthEq, fun short => (written.sequence short).mono grown⟩

theorem MethodWritten.mono (grown : large.Extends small) {m : Member} {o : MethodOutline}
    (written : MethodWritten small m o) : MethodWritten large m o :=
  ⟨written.named.mono grown, rel_imp (fun _ _ _ body => body.mono grown) written.body⟩

/-- What was described stays described when the pool grows. -/
theorem stable_describes (o : Outline) (s : Session) : Stable fun table => Describes table o s := by
  intro large small grown described
  exact
    { access := described.access
      name := grown.classAt described.name
      super := described.super.imp_right grown.classAt
      interfaces := described.interfaces.imp fun _ _ => grown.classAt
      fields := described.fields.imp fun _ _ => Named.mono grown
      methods := described.methods.imp fun _ _ => MethodWritten.mono grown
      bodies := fun body => (described.bodies body).mono grown }

end Stability

/-! ## Declaring a class -/

theorem stable_classAt (index : UInt16) (name : String) :
    Stable fun table => table.ClassAt index name :=
  stable_stands (.classRef name) index

theorem interns_classes {names : List String} (writable : ∀ name ∈ names, Writable name) :
    Interns (fun _ => True) (internClasses · names)
      (fun indices table => List.Forall₂ table.ClassAt indices names) := by
  induction names with
  | nil => exact .pure fun _ _ => .nil
  | cons name names ih =>
    have first := interns_classRef (writable name List.mem_cons_self)
    have later := ih fun other member => writable other (List.mem_cons_of_mem _ member)
    have parts := first.both (stable_classAt · name) later
    refine parts.map (fun pair => pair.1 :: pair.2) ?_
    intro pair table both
    exact .cons both.1 both.2

/-- The superclass, where an empty name stands for none. -/
def internSuper (superName : String) (pool : Pool) : UInt16 × Pool :=
  if superName = "" then (0, pool) else pool.classRef superName

theorem interns_super {superName : String} (writable : Writable superName) :
    Interns (fun _ => True) (internSuper superName)
      (fun index table => (superName = "" ∧ index = 0) ∨ table.ClassAt index superName) := by
  unfold internSuper
  by_cases absent : superName = ""
  · simp only [if_pos absent]
    exact .pure fun _ _ => .inl ⟨absent, rfl⟩
  · simp only [if_neg absent]
    exact (interns_classRef writable).map id fun _ _ named => .inr named

/-- A class as it is declared is described by its declaration. -/
theorem describes_start {name superName : String} {interfaces : List String}
    (writable : ∀ text ∈ name :: superName :: interfaces, Writable text) (access : UInt16)
    (fits : (Session.start access name superName interfaces).built.pool.Fits) :
    ∃ entries, Sound (Session.start access name superName interfaces).built.pool entries ∧
      Describes (tableOf entries) (Outline.start access name superName interfaces)
        (Session.start access name superName interfaces) := by
  have stable : ∀ index : UInt16, Stable fun table : ConstantPool =>
      (superName = "" ∧ index = 0) ∨ table.ClassAt index superName :=
    fun index large small grown declared => declared.imp_right grown.classAt
  have named := interns_classRef (writable name (by simp))
  have inherited := interns_super (writable superName (by simp))
  have implemented : Interns (fun _ => True) (internClasses · interfaces) _ :=
    interns_classes fun text member => writable text (by simp [member])
  have all := (named.both (stable_classAt · name) inherited).both
    (fun pair => (stable_classAt pair.1 name).and (stable pair.2)) implemented
  obtain ⟨entries, sound, ⟨thisClass, superClass⟩, interfaceClasses⟩ :=
    all.sound sound_empty trivial fits
  exact ⟨entries, sound,
    { access := rfl
      name := thisClass
      super := superClass
      interfaces := interfaceClasses
      fields := .nil
      methods := .nil
      bodies := fun _ => ⟨rfl, fun _ => .nil 0⟩ }⟩

/-! ## Calls -/

/-- The pool has only grown. If it still fits, what described the first session has become a
description of the second. -/
structure Advances (s : Session) (o : Outline) (s' : Session) (o' : Outline) : Prop where
  grows : s.built.pool.interned.length ≤ s'.built.pool.interned.length
  sound : ∀ {entries}, Sound s.built.pool entries →
    Describes (tableOf entries) o s → s'.built.pool.Fits →
    ∃ entries', Sound s'.built.pool entries' ∧ Describes (tableOf entries') o' s'

namespace Advances

variable {s s' s'' : Session} {o o' o'' : Outline}

theorem refl (s : Session) (o : Outline) : Advances s o s o :=
  ⟨Nat.le_refl _, fun sound described _ => ⟨_, sound, described⟩⟩

theorem trans (first : Advances s o s' o') (second : Advances s' o' s'' o'') :
    Advances s o s'' o'' where
  grows := Nat.le_trans first.grows second.grows
  sound sound described fits := by
    have grows := second.grows
    obtain ⟨entries', sound', described'⟩ :=
      first.sound sound described (by unfold Pool.Fits at *; omega)
    exact second.sound sound' described' fits

/-- An operation on the pool leads to a session in which its result is put to use. -/
theorem of_interns {α : Type} {op : Pool → α × Pool} {after : α → ConstantPool → Prop}
    (step : Interns (fun _ => True) op after) (pool : s'.built.pool = (op s.built.pool).2)
    (used : ∀ table, Describes table o s → after (op s.built.pool).1 table →
      Describes table o' s') :
    Advances s o s' o' where
  grows := pool ▸ step.grows s.built.pool
  sound sound described fits := by
    rw [pool] at fits ⊢
    obtain ⟨more, sound', described', reached⟩ :=
      (step.frame (stable_describes o s)).sound sound described fits
    exact ⟨_, sound', used _ described' reached⟩

end Advances

theorem interns_member {name descriptor : String} (writable : Writable name ∧ Writable descriptor)
    (c : Class) (access : UInt16) (code : Option (List UInt8)) :
    Interns (fun _ => True) (fun pool => { c with pool }.member access name descriptor code)
      (fun m table => Named table access name descriptor m ∧ m.code = code) := by
  have parts := (interns_utf8 writable.1).both (stable_textAt · name) (interns_utf8 writable.2)
  refine parts.map (fun pair => Member.mk access pair.1 pair.2 code) ?_
  intro pair table texts
  exact ⟨⟨rfl, texts.1, texts.2⟩, rfl⟩

theorem BodyWritten.add {table : ConstantPool} {code bytes : List UInt8} {body : BodyOutline}
    {piece : Piece} (written : BodyWritten table code body)
    (next : piece.Written code.length bytes table) :
    BodyWritten table (code ++ bytes) (body.add piece) := by
  obtain ⟨size, encoding⟩ := next
  rw [written.lengthEq] at size encoding
  refine ⟨?_, fun short => ?_⟩
  · rw [List.length_append, size, written.lengthEq]
    rfl
  · rw [List.length_append] at short
    have last := encoding (by omega)
    rw [← written.lengthEq, ← Nat.zero_add code.length] at last
    have whole := (written.sequence (by omega)).concat last
    rwa [Nat.zero_add, written.lengthEq] at whole

/-- A call returns and does what it asks for. -/
theorem exists_call {call : Call} (h : call.WellFormed) (s : Session) (o : Outline) :
    ∃ s', s.call call = some s' ∧ Advances s o s' (o.call call) := by
  cases call with
  | field access name descriptor =>
    refine ⟨_, rfl, .of_interns (interns_member h s.built access none) rfl
      fun table described named => ?_⟩
    exact { described with fields := List.rel_append described.fields (.cons named.1 .nil) }
  | method access name descriptor body =>
    refine ⟨_, rfl, .of_interns (interns_member h s.built access (body.map s.bodies)) rfl ?_⟩
    intro table described named
    have written : Option.Rel (BodyWritten table) (body.map s.bodies) (body.map o.bodies) := by
      cases body with
      | none => exact .none
      | some body => exact .some (described.bodies body)
    rw [← named.2] at written
    exact { described with
      methods := List.rel_append described.methods (.cons ⟨named.1, written⟩ .nil) }
  | refer reference =>
    exact ⟨_, rfl, .of_interns (interns_add h) rfl fun table described _ => { described with }⟩
  | emit body piece =>
    obtain ⟨write, written, step⟩ := interns_emit h (s.bodies body).length
    refine ⟨_, congrArg (Option.map _) (written s.built.pool),
      .of_interns step rfl fun table described next => ?_⟩
    refine { described with bodies := fun other => ?_ }
    by_cases same : other = body
    · simp only [Outline.call, Session.append, if_pos same]
      exact (described.bodies body).add next
    · simp only [Outline.call, Session.append, if_neg same]
      exact described.bodies other

/-- A run of calls returns and does what the calls ask for. -/
theorem exists_run {calls : List Call} (h : ∀ call ∈ calls, call.WellFormed) (s : Session)
    (o : Outline) :
    ∃ s', s.run calls = some s' ∧ Advances s o s' (o.run calls) := by
  induction calls generalizing s o with
  | nil => exact ⟨s, rfl, .refl s o⟩
  | cons call calls ih =>
    obtain ⟨mid, called, first⟩ := exists_call (h call List.mem_cons_self) s o
    obtain ⟨last, ran, later⟩ :=
      ih (fun other member => h other (List.mem_cons_of_mem _ member)) mid (o.call call)
    refine ⟨last, ?_, first.trans later⟩
    rw [Session.run, called]
    exact ran

end JarMetrics.Assembly
