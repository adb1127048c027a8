import JarMetrics.ClassFile.Basic
import JarMetrics.ClassFile.ModifiedUtf8

/-!
# Reading class files

`ClassFile.parse` reads one class file from the front of a byte list; bytes after it are ignored.
Reading stops at the first thing that is wrong, in the order in which the bytes stand. Attributes
are walked by their lengths, and only those of methods are looked up by name, because `Code` is the
one that matters. When a method has several `Code` attributes, the last one counts.
-/

namespace JarMetrics.ClassFile

/-- A computation that reads bytes from the front and may fail. -/
abbrev Reader := StateT Cursor (Except Error)

namespace Reader

/-- Read exactly `n` bytes. -/
def take (n : Nat) : Reader (List UInt8) := fun c =>
  (c.take n).mapError .truncated

/-- Pass over exactly `n` bytes. -/
def skip (n : Nat) : Reader Unit := do
  let _ ← take n

/-- Read an unsigned number of `n` bytes. -/
def number (n : Nat) : Reader Nat := do
  return bigEndian (← take n)

/-- Read one byte. -/
def u1 : Reader UInt8 := do
  return UInt8.ofNat (← number 1)

/-- Read two bytes. -/
def u2 : Reader UInt16 := do
  return UInt16.ofNat (← number 2)

/-- Run `read` `count` times and collect what it returns. -/
def repeatN {α : Type} (read : Nat → Reader α) (count : Nat) : Reader (List α) :=
  go count 0 []
where
  go : Nat → Nat → List α → Reader (List α)
    | 0, _, acc => return acc.reverse
    | left + 1, position, acc => do
        let item ← read position
        go left (position + 1) (item :: acc)

/-- Read a list that its length in two bytes stands in front of. -/
def counted {α : Type} (read : Nat → Reader α) : Reader (List α) := do
  repeatN read (← number 2)

end Reader

/-! ## The constant pool -/

/-- Read what follows the tag of the constant for slot `index`. -/
def readPayload (index : Nat) (tag : UInt8) : Reader Constant := do
  match tag.toNat with
  | 1 => return .utf8 (ModifiedUtf8.decode (← Reader.take (← Reader.number 2)))
  | 3 => Reader.skip 4; return .integer
  | 4 => Reader.skip 4; return .float
  | 5 => Reader.skip 8; return .long
  | 6 => Reader.skip 8; return .double
  | 7 => return .classRef (← Reader.u2)
  | 8 => return .string (← Reader.u2)
  | 9 => return .fieldRef (← Reader.u2) (← Reader.u2)
  | 10 => return .methodRef (← Reader.u2) (← Reader.u2)
  | 11 => return .interfaceMethodRef (← Reader.u2) (← Reader.u2)
  | 12 => return .nameAndType (← Reader.u2) (← Reader.u2)
  | 15 => Reader.skip 1; return .methodHandle (← Reader.u2)
  | 16 => return .methodType (← Reader.u2)
  | 17 => return .dynamic (← Reader.u2) (← Reader.u2)
  | 18 => return .invokeDynamic (← Reader.u2) (← Reader.u2)
  | 19 => return .module (← Reader.u2)
  | 20 => return .package (← Reader.u2)
  | _ => throw (.unknownTag tag index)

/-- Read the constant for slot `index`. -/
def readConstant (index : Nat) : Reader Constant := do
  readPayload index (← Reader.u1)

/-- Fill the `left` slots that follow those in `slots`. The second slot of a long or a double is
left unused, and may fall past the end. -/
def readSlots : Nat → Array Constant → Reader (Array Constant)
  | 0, slots => return slots
  | left + 1, slots => do
      let constant ← readConstant slots.size
      if constant.isWide then
        match left with
        | 0 => return slots.push constant
        | left + 1 => readSlots left ((slots.push constant).push .unused)
      else
        readSlots left (slots.push constant)

/-- Read a pool of `count` slots, of which slot 0 is not written. -/
def readTable : Nat → Reader ConstantPool
  | 0 => throw .emptyPool
  | left + 1 => return ⟨← readSlots left #[.unused]⟩

/-- Read the slot count and the slots. -/
def readPool : Reader ConstantPool := do
  readTable (← Reader.number 2)

/-! ## Members and attributes -/

/-- Read an attribute as the index of its name and its body. -/
def readAttribute : Reader (UInt16 × List UInt8) := do
  let name ← Reader.u2
  return (name, ← Reader.take (← Reader.number 4))

/-- The bytecode inside the body of a `Code` attribute, behind the stack and local sizes. -/
def codeOfAttribute (body : List UInt8) : Except Error (List UInt8) := do
  let read : Reader (List UInt8) := do
    Reader.skip 4
    Reader.take (← Reader.number 4)
  return (← read.run (.ofList body)).1

/-- What stands in front of a member's attributes: access flags, name, descriptor and the number of
attributes. -/
def readMemberHead (pool : ConstantPool) : Reader (UInt16 × String × String × Nat) := do
  let access ← Reader.u2
  let name ← Reader.u2
  let descriptor ← Reader.u2
  let attributes ← Reader.number 2
  return (access, ← pool.utf8 name, ← pool.utf8 descriptor, attributes)

/-- Read a field and pass over its attributes. -/
def readField (pool : ConstantPool) : Reader FieldDecl := do
  let (access, name, descriptor, attributes) ← readMemberHead pool
  let _ ← Reader.repeatN (fun _ => readAttribute) attributes
  return { access, name, descriptor }

/-- Read an attribute of a method: the bytecode in it, if it is a `Code`. -/
def readMethodAttribute (pool : ConstantPool) (place : Place) : Reader (Option (List UInt8)) := do
  let (label, body) ← readAttribute
  if (← pool.utf8 label) = "Code" then
    return some (← inPlace place (codeOfAttribute body))
  else
    return none

/-- Read a method and the code among its attributes. -/
def readMethod (pool : ConstantPool) : Reader MethodDecl := do
  let (access, name, descriptor, attributes) ← readMemberHead pool
  let codes ← Reader.repeatN
    (fun _ => readMethodAttribute pool (.method name descriptor)) attributes
  return { access, name, descriptor, code := (codes.filterMap id).getLast? }

/-- Pass over one attribute of the class. -/
def skipAttribute : Reader Unit := do
  Reader.skip 2
  Reader.skip (← Reader.number 4)

/-- Name the place in the errors of a reader. -/
def Reader.inPlace {α : Type} (place : Place) (read : Reader α) : Reader α := fun c =>
  ClassFile.inPlace place (read c)

/-! ## The whole file -/

/-- The number that every class file starts with. -/
def magic : Nat := 0xCAFEBABE

/-- Pass over the magic number. -/
def readMagic : Reader Unit := do
  let found ← Reader.number 4
  if found ≠ magic then throw (.badMagic found)

/-- The name of the superclass. Index 0 stands for none. -/
def superclassName (pool : ConstantPool) (index : UInt16) : Except Error String :=
  if index = 0 then return "" else inPlace .superClass (pool.className index)

/-- Read the index of an interface and look its name up. -/
def readInterface (pool : ConstantPool) (position : Nat) : Reader String := do
  let index ← Reader.u2
  inPlace (.interface position) (pool.className index)

/-- Read a class file from the front. -/
def read : Reader ClassFile := do
  readMagic
  let minor ← Reader.u2
  let major ← Reader.u2
  let pool ← readPool
  let access ← Reader.u2
  let this ← Reader.u2
  let super ← Reader.u2
  let name ← inPlace .thisClass (pool.className this)
  let superName ← superclassName pool super
  let interfaces ← Reader.counted (readInterface pool)
  let fields ← Reader.inPlace .fields (Reader.counted fun _ => readField pool)
  let methods ← Reader.inPlace .methods (Reader.counted fun _ => readMethod pool)
  let _ ← Reader.inPlace .attributes (Reader.counted fun _ => skipAttribute)
  return { minor, major, pool, access, name, superName, interfaces, fields, methods }

/-- The class file at the front of `bytes`. -/
def parse (bytes : List UInt8) : Except Error ClassFile :=
  return (← read.run (.ofList bytes)).1

end JarMetrics.ClassFile
