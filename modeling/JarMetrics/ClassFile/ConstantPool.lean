import JarMetrics.ClassFile.Error

/-!
# The constant pool

Class files refer to names and members by index into a table of constants. Index 0 and the index
after a long or a double stand for no constant. Look-ups check the kind of the constant they find; a
reference to a member is resolved all the way to its three texts.
-/

namespace JarMetrics.ClassFile

/-- One slot of the pool. The payload of numeric constants is not kept. -/
inductive Constant
  | unused
  | utf8 (text : String)
  | integer
  | float
  | long
  | double
  | classRef (name : UInt16)
  | string (text : UInt16)
  | fieldRef (owner nameAndType : UInt16)
  | methodRef (owner nameAndType : UInt16)
  | interfaceMethodRef (owner nameAndType : UInt16)
  | nameAndType (name descriptor : UInt16)
  | methodHandle (reference : UInt16)
  | methodType (descriptor : UInt16)
  | dynamic (bootstrap nameAndType : UInt16)
  | invokeDynamic (bootstrap nameAndType : UInt16)
  | module (name : UInt16)
  | package (name : UInt16)
  deriving Repr, DecidableEq, Inhabited

namespace Constant

/-- The tag byte of a constant; an unused slot has none and counts as 0. -/
def tag : Constant → UInt8
  | .unused => 0
  | .utf8 _ => 1
  | .integer => 3
  | .float => 4
  | .long => 5
  | .double => 6
  | .classRef _ => 7
  | .string _ => 8
  | .fieldRef _ _ => 9
  | .methodRef _ _ => 10
  | .interfaceMethodRef _ _ => 11
  | .nameAndType _ _ => 12
  | .methodHandle _ => 15
  | .methodType _ => 16
  | .dynamic _ _ => 17
  | .invokeDynamic _ _ => 18
  | .module _ => 19
  | .package _ => 20

/-- Longs and doubles take two slots. -/
def isWide : Constant → Bool
  | .long | .double => true
  | _ => false

/-- The text of a Utf8 constant, empty for any other. -/
def text : Constant → String
  | .utf8 text => text
  | _ => ""

/-- The one or two indices that a constant holds, 0 where it holds none. -/
def indices : Constant → UInt16 × UInt16
  | .classRef i | .string i | .methodHandle i | .methodType i | .module i | .package i => (i, 0)
  | .fieldRef i j | .methodRef i j | .interfaceMethodRef i j | .nameAndType i j | .dynamic i j
  | .invokeDynamic i j => (i, j)
  | _ => (0, 0)

end Constant

/-- The table of constants; slot 0 is unused. -/
structure ConstantPool where
  slots : Array Constant
  deriving Repr, DecidableEq

/-- A member reference resolved to its texts. -/
structure MemberRef where
  owner : String
  name : String
  descriptor : String
  /-- The reference is to an interface's method. -/
  ofInterface : Bool
  deriving Repr, DecidableEq, Inhabited

namespace ConstantPool

/-- The constant at `index`, which must not be 0 nor past the end. -/
def get (pool : ConstantPool) (index : UInt16) : Except Error Constant :=
  if index = 0 then .error (.indexOutOfRange index)
  else
    match pool.slots[index.toNat]? with
    | some constant => .ok constant
    | none => .error (.indexOutOfRange index)

/-- The text of a Utf8 constant. -/
def utf8 (pool : ConstantPool) (index : UInt16) : Except Error String := do
  match ← pool.get index with
  | .utf8 text => .ok text
  | other => .error (.tagMismatch index other.tag [1])

/-- The slash-separated name behind a class constant. -/
def className (pool : ConstantPool) (index : UInt16) : Except Error String := do
  match ← pool.get index with
  | .classRef name => pool.utf8 name
  | other => .error (.tagMismatch index other.tag [7])

/-- The name and the descriptor behind a name-and-type constant. -/
def nameAndType (pool : ConstantPool) (index : UInt16) : Except Error (String × String) := do
  match ← pool.get index with
  | .nameAndType name descriptor => return (← pool.utf8 name, ← pool.utf8 descriptor)
  | other => .error (.tagMismatch index other.tag [12])

/-- The member that a reference of any kind names. -/
def memberOf (pool : ConstantPool) (owner nameAndType : UInt16) (ofInterface : Bool) :
    Except Error MemberRef := do
  let owner ← pool.className owner
  let (name, descriptor) ← pool.nameAndType nameAndType
  return { owner, name, descriptor, ofInterface }

/-- A field, method or interface method reference. -/
def memberRef (pool : ConstantPool) (index : UInt16) : Except Error MemberRef := do
  match ← pool.get index with
  | .fieldRef owner nameAndType => pool.memberOf owner nameAndType false
  | .methodRef owner nameAndType => pool.memberOf owner nameAndType false
  | .interfaceMethodRef owner nameAndType => pool.memberOf owner nameAndType true
  | other => .error (.tagMismatch index other.tag [9, 10, 11])

/-- The name and the descriptor of a dynamic call site. -/
def dynamicCall (pool : ConstantPool) (index : UInt16) : Except Error (String × String) := do
  match ← pool.get index with
  | .invokeDynamic _ nameAndType => pool.nameAndType nameAndType
  | other => .error (.tagMismatch index other.tag [18])

end ConstantPool

end JarMetrics.ClassFile
