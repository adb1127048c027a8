import JarMetrics.ClassFile.Parser
import JarMetrics.Proofs.Constants
import JarMetrics.Proofs.Numbers

/-!
# Class files as they are written

A `WrittenClass` is what stands in a class file, item by item: versions, the entries of the constant
pool, indices, members and attributes with their bodies as bytes. `WrittenClass.encode` spells it
out, and `WrittenClass.classFile` is what it means once its indices are resolved.
`WrittenClass.WellFormed` are the conditions that make it readable: the entries fill the pool, the
indices stand for constants of the right kind, and each `Code` attribute of a method has room for
its bytecode.

Lists and bodies carry the proof that their length can be written, so every value has an encoding.
-/

namespace JarMetrics.ClassFile

/-- A list whose length can be written in two bytes. -/
structure Counted (α : Type) where
  items : List α
  fits : items.length < 0x10000

/-- The length of a list and its items. -/
def Counted.encode {α : Type} (item : α → List UInt8) (list : Counted α) : List UInt8 :=
  toBigEndian 2 list.items.length ++ list.items.flatMap item

/-! ## The pool -/

/-- An entry of the pool with its payload. There is one constructor for each of the 17 tags. -/
inductive WrittenConstant
  | utf8 (bytes : List UInt8) (fits : bytes.length < 0x10000)
  | integer (bits : UInt32)
  | float (bits : UInt32)
  | long (bits : UInt64)
  | double (bits : UInt64)
  | classRef (name : UInt16)
  | string (text : UInt16)
  | fieldRef (owner nameAndType : UInt16)
  | methodRef (owner nameAndType : UInt16)
  | interfaceMethodRef (owner nameAndType : UInt16)
  | nameAndType (name descriptor : UInt16)
  | methodHandle (kind : UInt8) (reference : UInt16)
  | methodType (descriptor : UInt16)
  | dynamic (bootstrap nameAndType : UInt16)
  | invokeDynamic (bootstrap nameAndType : UInt16)
  | module (name : UInt16)
  | package (name : UInt16)

namespace WrittenConstant

/-- The constant that an entry stands for. -/
def constant : WrittenConstant → Constant
  | .utf8 bytes _ => .utf8 (ModifiedUtf8.decode bytes)
  | .integer _ => .integer
  | .float _ => .float
  | .long _ => .long
  | .double _ => .double
  | .classRef name => .classRef name
  | .string text => .string text
  | .fieldRef owner pair => .fieldRef owner pair
  | .methodRef owner pair => .methodRef owner pair
  | .interfaceMethodRef owner pair => .interfaceMethodRef owner pair
  | .nameAndType name descriptor => .nameAndType name descriptor
  | .methodHandle _ reference => .methodHandle reference
  | .methodType descriptor => .methodType descriptor
  | .dynamic bootstrap pair => .dynamic bootstrap pair
  | .invokeDynamic bootstrap pair => .invokeDynamic bootstrap pair
  | .module name => .module name
  | .package name => .package name

/-- What follows the tag of an entry. -/
def payload : WrittenConstant → List UInt8
  | .utf8 bytes _ => toBigEndian 2 bytes.length ++ bytes
  | .integer bits | .float bits => fourBytes bits
  | .long bits | .double bits => eightBytes bits
  | .classRef i | .string i | .methodType i | .module i | .package i => twoBytes i
  | .fieldRef i j | .methodRef i j | .interfaceMethodRef i j | .nameAndType i j | .dynamic i j
  | .invokeDynamic i j => twoBytes i ++ twoBytes j
  | .methodHandle kind reference => kind :: twoBytes reference

/-- The bytes of an entry. -/
def encode (entry : WrittenConstant) : List UInt8 := entry.constant.tag :: entry.payload

/-- The slots of an entry: its own, and an unused one behind a long or a double. -/
def slots (entry : WrittenConstant) : List Constant :=
  if entry.constant.isWide then [entry.constant, .unused] else [entry.constant]

end WrittenConstant

/-- The last entry is a long or a double. -/
def EndsWide (entries : List WrittenConstant) : Prop :=
  ∃ front last, entries = front ++ [last] ∧ last.constant.isWide = true

/-- The entries take exactly `count` slots, where the second slot of the last entry may fall past
the end. -/
def FillSlots (count : Nat) (entries : List WrittenConstant) : Prop :=
  (entries.flatMap WrittenConstant.slots).length = count ∨
    ((entries.flatMap WrittenConstant.slots).length = count + 1 ∧ EndsWide entries)

/-- The constant pool. -/
structure WrittenPool where
  /-- The number of slots that is declared, slot 0 included. -/
  count : UInt16
  entries : List WrittenConstant

namespace WrittenPool

/-- The bytes of the pool. -/
def encode (p : WrittenPool) : List UInt8 :=
  twoBytes p.count ++ p.entries.flatMap WrittenConstant.encode

/-- The entries fill the slots behind slot 0. -/
def Filled (p : WrittenPool) : Prop := ∃ left, p.count.toNat = left + 1 ∧ FillSlots left p.entries

/-- The table of constants: slot 0 is unused, and so is the second slot of each long or double. -/
def table (p : WrittenPool) : ConstantPool :=
  ⟨((Constant.unused :: p.entries.flatMap WrittenConstant.slots).take p.count.toNat).toArray⟩

end WrittenPool

/-! ## Members and attributes -/

/-- The text behind an index, empty if there is none. -/
def ConstantPool.textOf (pool : ConstantPool) (index : UInt16) : String :=
  match pool.slots[index.toNat]? with
  | some (.utf8 text) => text
  | _ => ""

/-- The class name behind an index, empty if there is none. -/
def ConstantPool.classNameOf (pool : ConstantPool) (index : UInt16) : String :=
  match pool.slots[index.toNat]? with
  | some (.classRef name) => pool.textOf name
  | _ => ""

/-- An attribute whose length can be written in four bytes. -/
structure WrittenAttribute where
  name : UInt16
  body : List UInt8
  fits : body.length < 0x100000000

namespace WrittenAttribute

/-- The bytes of an attribute. -/
def encode (a : WrittenAttribute) : List UInt8 :=
  twoBytes a.name ++ toBigEndian 4 a.body.length ++ a.body

/-- The length of the bytecode, as a `Code` attribute announces it behind the stack and local
sizes. -/
def codeLength (a : WrittenAttribute) : Nat := bigEndian ((a.body.drop 4).take 4)

/-- The body has the eight bytes in front of the bytecode, and room for the bytecode. -/
def HoldsCode (a : WrittenAttribute) : Prop := 8 ≤ a.body.length ∧ 8 + a.codeLength ≤ a.body.length

/-- The bytecode in the body. -/
def code (a : WrittenAttribute) : List UInt8 := (a.body.drop 8).take a.codeLength

/-- The attribute is one that holds bytecode. -/
def isCode (pool : ConstantPool) (a : WrittenAttribute) : Bool := pool.textOf a.name == "Code"

/-- The name stands for a text, and bytecode is held as it should be. -/
def Readable (pool : ConstantPool) (a : WrittenAttribute) : Prop :=
  ∃ label, pool.TextAt a.name label ∧ (label = "Code" → a.HoldsCode)

end WrittenAttribute

/-- A field or a method. -/
structure WrittenMember where
  access : UInt16
  name : UInt16
  descriptor : UInt16
  attributes : Counted WrittenAttribute

namespace WrittenMember

/-- The bytes of a member. -/
def encode (m : WrittenMember) : List UInt8 :=
  twoBytes m.access ++ twoBytes m.name ++ twoBytes m.descriptor ++
    m.attributes.encode WrittenAttribute.encode

/-- Name and descriptor stand for texts. -/
def Named (pool : ConstantPool) (m : WrittenMember) : Prop :=
  (∃ name, pool.TextAt m.name name) ∧ ∃ descriptor, pool.TextAt m.descriptor descriptor

/-- The field that is declared. -/
def field (pool : ConstantPool) (m : WrittenMember) : FieldDecl :=
  { access := m.access, name := pool.textOf m.name, descriptor := pool.textOf m.descriptor }

/-- The method that is declared. Of several `Code` attributes the last one counts. -/
def method (pool : ConstantPool) (m : WrittenMember) : MethodDecl :=
  { access := m.access
    name := pool.textOf m.name
    descriptor := pool.textOf m.descriptor
    code := (m.attributes.items.filter (·.isCode pool)).getLast?.map WrittenAttribute.code }

end WrittenMember

/-! ## The whole file -/

/-- A class file. -/
structure WrittenClass where
  minor : UInt16
  major : UInt16
  pool : WrittenPool
  access : UInt16
  this : UInt16
  /-- Zero when the class has no superclass. -/
  super : UInt16
  interfaces : Counted UInt16
  fields : Counted WrittenMember
  methods : Counted WrittenMember
  attributes : Counted WrittenAttribute

namespace WrittenClass

/-- The bytes of a class file. -/
def encode (w : WrittenClass) : List UInt8 :=
  toBigEndian 4 magic ++ twoBytes w.minor ++ twoBytes w.major ++ w.pool.encode ++
    twoBytes w.access ++ twoBytes w.this ++ twoBytes w.super ++
    w.interfaces.encode twoBytes ++
    w.fields.encode WrittenMember.encode ++
    w.methods.encode WrittenMember.encode ++
    w.attributes.encode WrittenAttribute.encode

/-- What makes a class file readable. -/
structure WellFormed (w : WrittenClass) : Prop where
  pool : w.pool.Filled
  thisClass : ∃ name, w.pool.table.ClassAt w.this name
  superClass : w.super ≠ 0 → ∃ name, w.pool.table.ClassAt w.super name
  interfaces : ∀ index ∈ w.interfaces.items, ∃ name, w.pool.table.ClassAt index name
  fields : ∀ m ∈ w.fields.items, m.Named w.pool.table
  methods : ∀ m ∈ w.methods.items, m.Named w.pool.table ∧
    ∀ a ∈ m.attributes.items, a.Readable w.pool.table

/-- What a class file means. -/
def classFile (w : WrittenClass) : ClassFile :=
  { minor := w.minor
    major := w.major
    pool := w.pool.table
    access := w.access
    name := w.pool.table.classNameOf w.this
    superName := if w.super = 0 then "" else w.pool.table.classNameOf w.super
    interfaces := w.interfaces.items.map w.pool.table.classNameOf
    fields := w.fields.items.map (·.field w.pool.table)
    methods := w.methods.items.map (·.method w.pool.table) }

end WrittenClass

end JarMetrics.ClassFile
