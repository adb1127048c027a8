import JarMetrics.ClassFile.ConstantPool

/-!
# Class files

The parts of a class file that the metrics need. Method bodies stay raw bytes here; reading them as
instructions is the business of `JarMetrics.Instruction`.
-/

namespace JarMetrics.ClassFile

/-- A field declaration. -/
structure FieldDecl where
  access : UInt16
  name : String
  descriptor : String
  deriving Repr, DecidableEq, Inhabited

/-- A method declaration. Abstract and native methods have no code, which differs from empty
code. -/
structure MethodDecl where
  access : UInt16
  name : String
  descriptor : String
  code : Option (List UInt8)
  deriving Repr, DecidableEq, Inhabited

/-- The flag of interfaces and annotations. -/
def interfaceFlag : UInt16 := 0x0200

/-- The flag of abstract classes. -/
def abstractFlag : UInt16 := 0x0400

/-- Whether access flags are those of an interface. -/
def isInterfaceAccess (access : UInt16) : Bool := access &&& interfaceFlag != 0

end JarMetrics.ClassFile

namespace JarMetrics

open ClassFile

/-- A decoded class file. -/
structure ClassFile where
  minor : UInt16
  major : UInt16
  pool : ConstantPool
  access : UInt16
  name : String
  /-- Empty when the class has no superclass. -/
  superName : String
  interfaces : List String
  fields : List FieldDecl
  methods : List MethodDecl
  deriving Repr, DecidableEq

/-- Whether the class is an interface. -/
def ClassFile.isInterface (file : ClassFile) : Bool := isInterfaceAccess file.access

end JarMetrics
