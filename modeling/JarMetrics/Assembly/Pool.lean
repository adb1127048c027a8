import JarMetrics.Bytes.Cursor
import JarMetrics.Bytes.Utf8

/-!
# Building a constant pool

References are interned: asking twice for the same one gives the same index. What counts as the same
is decided by a text, the `key`, in which the parts of a reference are run together; so two
references that spell the same key share an index. A reference brings in the references it is made
of first.
-/

namespace JarMetrics.Assembly

/-- What a pool entry refers to. -/
inductive Reference
  | utf8 (text : String)
  | classRef (name : String)
  | nameAndType (name descriptor : String)
  | method (owner name descriptor : String)
  | interfaceMethod (owner name descriptor : String)
  | dynamicCall (name descriptor : String)
  deriving Repr, DecidableEq

/-- The text under which a reference is interned. -/
def Reference.key : Reference → String
  | .utf8 text => "u:" ++ text
  | .classRef name => "c:" ++ name
  | .nameAndType name descriptor => "nt:" ++ name ++ ":" ++ descriptor
  | .method owner name descriptor => "m:" ++ owner ++ "." ++ name ++ descriptor
  | .interfaceMethod owner name descriptor => "im:" ++ owner ++ "." ++ name ++ descriptor
  | .dynamicCall name descriptor => "indy:" ++ name ++ descriptor

/-- Two bytes of a 16-bit number. -/
def u2 (value : UInt16) : List UInt8 := toBigEndian 2 value.toNat

/-- Four bytes of the low 32 bits of a number. -/
def u4 (value : Nat) : List UInt8 := toBigEndian 4 value

/-- A pool in the making. -/
structure Pool where
  bytes : List UInt8 := []
  /-- The next free index. -/
  count : UInt16 := 1
  /-- The index of each key, latest first. -/
  interned : List (String × UInt16) := []
  deriving Repr, DecidableEq

namespace Pool

/-- The index of a key that is interned already. -/
def find? (pool : Pool) (key : String) : Option UInt16 :=
  (pool.interned.find? (·.1 == key)).map Prod.snd

/-- The index of a key; the entry is written if the key is new. -/
def intern (pool : Pool) (key : String) (entry : List UInt8) : UInt16 × Pool :=
  match pool.find? key with
  | some index => (index, pool)
  | none =>
      (pool.count,
        { bytes := pool.bytes ++ entry
          count := pool.count + 1
          interned := (key, pool.count) :: pool.interned })

/-- The index of a text. Its length is written modulo 65536. -/
def utf8 (pool : Pool) (text : String) : UInt16 × Pool :=
  let bytes := Utf8.encode text
  pool.intern (Reference.utf8 text).key (1 :: u2 (UInt16.ofNat bytes.length) ++ bytes)

/-- The index of a class. -/
def classRef (pool : Pool) (name : String) : UInt16 × Pool :=
  let (nameIndex, pool) := pool.utf8 name
  pool.intern (Reference.classRef name).key (7 :: u2 nameIndex)

/-- The index of a name and a descriptor. -/
def nameAndType (pool : Pool) (name descriptor : String) : UInt16 × Pool :=
  let (nameIndex, pool) := pool.utf8 name
  let (descriptorIndex, pool) := pool.utf8 descriptor
  pool.intern (Reference.nameAndType name descriptor).key (12 :: u2 nameIndex ++ u2 descriptorIndex)

/-- The index of a method of a class or, with `ofInterface`, of an interface. -/
def methodRef (pool : Pool) (ofInterface : Bool) (owner name descriptor : String) : UInt16 × Pool :=
  let (ownerIndex, pool) := pool.classRef owner
  let (memberIndex, pool) := pool.nameAndType name descriptor
  let reference : Reference :=
    if ofInterface then .interfaceMethod owner name descriptor else .method owner name descriptor
  pool.intern reference.key ((if ofInterface then 11 else 10) :: u2 ownerIndex ++ u2 memberIndex)

/-- The index of a dynamic call site of the first bootstrap method. -/
def dynamicCall (pool : Pool) (name descriptor : String) : UInt16 × Pool :=
  let (memberIndex, pool) := pool.nameAndType name descriptor
  pool.intern (Reference.dynamicCall name descriptor).key (18 :: u2 0 ++ u2 memberIndex)

/-- The index of any reference. -/
def add (pool : Pool) : Reference → UInt16 × Pool
  | .utf8 text => pool.utf8 text
  | .classRef name => pool.classRef name
  | .nameAndType name descriptor => pool.nameAndType name descriptor
  | .method owner name descriptor => pool.methodRef false owner name descriptor
  | .interfaceMethod owner name descriptor => pool.methodRef true owner name descriptor
  | .dynamicCall name descriptor => pool.dynamicCall name descriptor

end Pool

end JarMetrics.Assembly
