import JarMetrics.ClassFile.Basic
import JarMetrics.Instruction.Decoder

/-!
# A class file as a sequence of events

The declaration of the class comes first, then its fields, then its methods, each followed by its
instructions and an end mark, and last the end of the class. A reader of the events may decline a
method; its body is then not decoded at all. A malformed body stops the sequence inside its method.
-/

namespace JarMetrics

open ClassFile

/-- One event of a class file. -/
inductive ClassEvent
  | declaration (major access : UInt16) (name superName : String) (interfaces : List String)
  | field (access : UInt16) (name descriptor : String)
  | method (access : UInt16) (name descriptor : String)
  | instruction (i : Instruction)
  | methodEnd
  | classEnd
  deriving Repr, DecidableEq

/-- The events delivered, and the error that stopped them. -/
structure Replay where
  events : List ClassEvent
  failure : Option Error
  deriving Repr, DecidableEq

namespace ClassFile

/-- The events of one method. -/
def methodEvents (file : ClassFile) (method : MethodDecl) : Replay :=
  let head := ClassEvent.method method.access method.name method.descriptor
  match method.code with
  | none => ⟨[head, .methodEnd], none⟩
  | some code =>
      let listing := Instruction.decodeAll file.pool code
      let body := head :: listing.instructions.map .instruction
      match listing.failure with
      | none => ⟨body ++ [.methodEnd], none⟩
      | some error => ⟨body, some (.within (.body file.name method.name method.descriptor) error)⟩

/-- The events of the methods from `position` on, followed by the end of the class. -/
def methodsEvents (file : ClassFile) (wanted : Nat → MethodDecl → Bool) :
    Nat → List MethodDecl → Replay
  | _, [] => ⟨[.classEnd], none⟩
  | position, method :: rest =>
      if wanted position method then
        let here := methodEvents file method
        match here.failure with
        | some error => ⟨here.events, some error⟩
        | none =>
            let after := methodsEvents file wanted (position + 1) rest
            ⟨here.events ++ after.events, after.failure⟩
      else
        let after := methodsEvents file wanted (position + 1) rest
        ⟨.method method.access method.name method.descriptor :: after.events, after.failure⟩

/-- The events of a class file. Bodies are decoded only for the methods that are wanted. -/
def replay (file : ClassFile) (wanted : Nat → MethodDecl → Bool) : Replay :=
  let fields := file.fields.map fun f => ClassEvent.field f.access f.name f.descriptor
  let methods := methodsEvents file wanted 0 file.methods
  ⟨.declaration file.major file.access file.name file.superName file.interfaces ::
      fields ++ methods.events, methods.failure⟩

end ClassFile

end JarMetrics
