import JarMetrics.Assembly.Code
import JarMetrics.ClassFile.Basic

/-!
# Assembling class files

A class is declared, given fields and methods, and written out. Names are interned in the order in
which they come up; the name of the code attribute is interned last, when the class is written.
-/

namespace JarMetrics.Assembly

/-- A member whose names are interned. -/
structure Member where
  access : UInt16
  name : UInt16
  descriptor : UInt16
  /-- Absent for fields and for methods without a body. -/
  code : Option (List UInt8)
  deriving Repr, DecidableEq

/-- A class in the making. -/
structure Class where
  access : UInt16
  name : UInt16
  /-- Zero when there is no superclass. -/
  super : UInt16
  interfaces : List UInt16
  fields : List Member
  methods : List Member
  pool : Pool
  deriving Repr, DecidableEq

/-- Intern class names in order. -/
def internClasses (pool : Pool) : List String → List UInt16 × Pool
  | [] => ([], pool)
  | name :: rest =>
      let (index, pool) := pool.classRef name
      let (indices, pool) := internClasses pool rest
      (index :: indices, pool)

namespace Class

/-- Declare a class; an empty superclass name stands for none. -/
def declare (access : UInt16) (name superName : String) (interfaces : List String) : Class :=
  let (nameIndex, pool) := Pool.classRef {} name
  let (superIndex, pool) := if superName = "" then (0, pool) else pool.classRef superName
  let (interfaceIndices, pool) := internClasses pool interfaces
  { access, name := nameIndex, super := superIndex, interfaces := interfaceIndices
    fields := [], methods := [], pool }

/-- Intern a reference. -/
def refer (c : Class) (reference : Reference) : UInt16 × Class :=
  let (index, pool) := c.pool.add reference
  (index, { c with pool })

/-- A member with its names interned. -/
def member (c : Class) (access : UInt16) (name descriptor : String) (code : Option (List UInt8)) :
    Member × Pool :=
  let (nameIndex, pool) := c.pool.utf8 name
  let (descriptorIndex, pool) := pool.utf8 descriptor
  (⟨access, nameIndex, descriptorIndex, code⟩, pool)

/-- Declare a field. -/
def field (c : Class) (access : UInt16) (name descriptor : String) : Class :=
  let (m, pool) := c.member access name descriptor none
  { c with fields := c.fields ++ [m], pool }

/-- Declare a method with the given bytecode, or without a body. -/
def method (c : Class) (access : UInt16) (name descriptor : String) (code : Option (List UInt8)) :
    Class :=
  let (m, pool) := c.member access name descriptor code
  { c with methods := c.methods ++ [m], pool }

/-- Assemble a body. -/
def code (c : Class) (pieces : List Piece) : Option (List UInt8 × Class) :=
  (assemble c.pool pieces).map fun (bytes, pool) => (bytes, { c with pool })

/-- Declare a method whose body is made of pieces. -/
def methodOf (c : Class) (access : UInt16) (name descriptor : String) (pieces : List Piece) :
    Option Class :=
  (c.code pieces).map fun (bytes, c) => c.method access name descriptor (some bytes)

/-- The number of items, modulo 65536. -/
def count {α : Type} (items : List α) : List UInt8 := u2 (UInt16.ofNat items.length)

/-- A field as it is written. -/
def fieldBytes (m : Member) : List UInt8 := u2 m.access ++ u2 m.name ++ u2 m.descriptor ++ u2 0

/-- A code attribute: stack and local sizes of 8, the code, no handlers and no attributes. -/
def codeAttribute (label : UInt16) (code : List UInt8) : List UInt8 :=
  u2 label ++ u4 (12 + code.length) ++ u2 8 ++ u2 8 ++ u4 code.length ++ code ++ u2 0 ++ u2 0

/-- A method as it is written, with the index of the code attribute's name. -/
def methodBytes (label : UInt16) (m : Member) : List UInt8 :=
  u2 m.access ++ u2 m.name ++ u2 m.descriptor ++
    match m.code with
    | none => u2 0
    | some code => u2 1 ++ codeAttribute label code

/-- The class file of format version 52. -/
def bytes (c : Class) : List UInt8 :=
  let (label, pool) := c.pool.utf8 "Code"
  u4 0xCAFEBABE ++ u2 0 ++ u2 52 ++ u2 pool.count ++ pool.bytes ++
    u2 c.access ++ u2 c.name ++ u2 c.super ++
    count c.interfaces ++ c.interfaces.flatMap u2 ++
    count c.fields ++ c.fields.flatMap fieldBytes ++
    count c.methods ++ c.methods.flatMap (methodBytes label) ++
    u2 0

end Class

end JarMetrics.Assembly
