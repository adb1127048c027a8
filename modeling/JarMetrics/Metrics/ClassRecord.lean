import JarMetrics.ClassFile.Parser
import JarMetrics.ClassFile.Replay
import JarMetrics.Metrics.Abc
import JarMetrics.Metrics.Signature

/-!
# Class records

What the metrics keep of one class: its place in the hierarchy, its method signatures, the number of
its fields and the sum of the ABC vectors of its methods. `RecordBuilder` collects a record from
events, in whatever order they arrive; `ClassRecord.decode` runs it over a class file, all or
nothing.
-/

namespace JarMetrics

open ClassFile

/-- The summary of one class. -/
structure ClassRecord where
  name : String
  /-- Empty when there is no superclass. -/
  superName : String
  /-- In declaration order. -/
  interfaces : List String
  /-- Distinct, by name and then by descriptor. -/
  methods : List Signature
  ordered : methods.Pairwise Signature.Before
  fieldCount : Nat
  abc : Abc
  isInterface : Bool
  deriving Repr, DecidableEq

/-- The head of a class as its events declare it. -/
structure ClassHead where
  access : UInt16
  name : String
  superName : String
  interfaces : List String
  deriving Repr, DecidableEq

/-- A record in the making. -/
structure RecordBuilder where
  head : Option ClassHead := none
  fieldCount : Nat := 0
  signatures : List Signature := []
  /-- The counts gathered so far for each method, in order of appearance. -/
  bodies : Array Abc := #[]
  /-- The counts of the methods that have ended. -/
  total : Abc := Abc.zero
  deriving Repr, DecidableEq

/-- A step in the making of a record. Instructions and ends name a method by its position. -/
inductive RecordStep
  | declare (head : ClassHead)
  | field
  | method (signature : Signature)
  | instruction (body : Nat) (i : Instruction)
  | methodEnd (body : Nat)
  | classEnd
  deriving Repr, DecidableEq

namespace RecordBuilder

/-- Take one step. -/
def step (b : RecordBuilder) : RecordStep → RecordBuilder
  | .declare head => { b with head := some head }
  | .field => { b with fieldCount := b.fieldCount + 1 }
  | .method signature =>
      { b with signatures := signature :: b.signatures, bodies := b.bodies.push Abc.zero }
  | .instruction body i =>
      { b with bodies := b.bodies.modify body (· + Abc.ofInstruction i) }
  | .methodEnd body => { b with total := b.total + b.bodies.getD body Abc.zero }
  | .classEnd => b

/-- The finished record, once the class has been declared. -/
def build? (b : RecordBuilder) : Option ClassRecord :=
  b.head.map fun head =>
    { name := head.name
      superName := head.superName
      interfaces := head.interfaces
      methods := Signature.sortedSet b.signatures
      ordered := Signature.pairwise_sortedSet b.signatures
      fieldCount := b.fieldCount
      abc := b.total
      isInterface := isInterfaceAccess head.access }

/-- The step that an event of a class file stands for; a body event belongs to the latest method. -/
def event (b : RecordBuilder) : ClassEvent → RecordBuilder
  | .declaration _ access name superName interfaces =>
      b.step (.declare { access, name, superName, interfaces })
  | .field _ _ _ => b.step .field
  | .method _ name descriptor => b.step (.method { name, descriptor })
  | .instruction i => b.step (.instruction (b.bodies.size - 1) i)
  | .methodEnd => b.step (.methodEnd (b.bodies.size - 1))
  | .classEnd => b.step .classEnd

end RecordBuilder

/-- Why a class file has no record. -/
inductive RecordError
  | classFile (error : ClassFile.Error)
  /-- No class was declared. -/
  | undeclared
  deriving Repr, DecidableEq

namespace ClassRecord

/-- A record without method bodies. -/
def ofShape (name superName : String) (isInterface : Bool) (interfaces : List String)
    (fieldCount : Nat) (methods : List Signature) : ClassRecord :=
  { name, superName, interfaces, methods := Signature.sortedSet methods,
    ordered := Signature.pairwise_sortedSet methods, fieldCount, abc := Abc.zero, isInterface }

/-- The record of a class file. One malformed method body spoils the whole class. -/
def decode (bytes : List UInt8) : Except RecordError ClassRecord :=
  match ClassFile.parse bytes with
  | .error error => .error (.classFile error)
  | .ok file =>
      let replay := file.replay fun _ _ => true
      match replay.failure with
      | some error => .error (.classFile error)
      | none =>
          match (replay.events.foldl RecordBuilder.event {}).build? with
          | some found => .ok found
          | none => .error .undeclared

/-- Whether the class declares a method. -/
def hasMethod (r : ClassRecord) (s : Signature) : Bool := r.methods.contains s

end ClassRecord

end JarMetrics
