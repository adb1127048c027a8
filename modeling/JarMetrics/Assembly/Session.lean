import JarMetrics.Assembly.Class

/-!
# Building a class call by call

A class is built by calls that may come in any order: members are declared, references are interned,
and any number of bodies, told apart by numbers, are assembled side by side. They all share the pool
of the class. A method takes the body as it is when the method is declared; what is appended to the
body later does not reach the method.
-/

namespace JarMetrics.Assembly

/-- A call on a class in the making. -/
inductive Call
  | field (access : UInt16) (name descriptor : String)
  /-- A method with the given body, or without one. -/
  | method (access : UInt16) (name descriptor : String) (body : Option Nat)
  | refer (reference : Reference)
  /-- Append a piece to a body. -/
  | emit (body : Nat) (piece : Piece)
  deriving Repr, DecidableEq

/-- A class in the making and the bodies assembled for it. -/
structure Session where
  built : Class
  bodies : Nat → List UInt8

namespace Session

/-- Begin a class. -/
def start (access : UInt16) (name superName : String) (interfaces : List String) : Session :=
  { built := Class.declare access name superName interfaces, bodies := fun _ => [] }

/-- Append bytes to a body. -/
def append (s : Session) (body : Nat) (bytes : List UInt8) : Session :=
  { s with bodies := fun other => if other = body then s.bodies body ++ bytes else s.bodies other }

/-- One call. It does not return when a piece cannot be assembled. -/
def call (s : Session) : Call → Option Session
  | .field access name descriptor => some { s with built := s.built.field access name descriptor }
  | .method access name descriptor body =>
      some { s with built := s.built.method access name descriptor (body.map s.bodies) }
  | .refer reference => some { s with built := (s.built.refer reference).2 }
  | .emit body piece =>
      (piece.emit s.built.pool (s.bodies body).length).map fun written =>
        { s with built.pool := written.2 }.append body written.1

/-- One call after the other. -/
def run (s : Session) : List Call → Option Session
  | [] => some s
  | call :: rest => (s.call call).bind fun s => s.run rest

end Session

end JarMetrics.Assembly
