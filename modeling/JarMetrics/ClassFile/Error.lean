import JarMetrics.Bytes.Cursor

/-!
# What can be wrong with a class file

Errors are kept as causes. `Error.message` is the only place where they are worded, and
`Error.isTruncation` asks for the innermost cause.
-/

namespace JarMetrics.ClassFile

/-- The part of a class file in which an error arose. -/
inductive Place
  | thisClass
  | superClass
  | interface (position : Nat)
  | fields
  | methods
  | attributes
  | method (name descriptor : String)
  | body (className name descriptor : String)
  | fieldAccess (pc : Nat)
  | invocation (pc : Nat)
  | dynamicCall (pc : Nat)
  | typeUse (pc : Nat)
  | arrayCreation (pc : Nat)
  | wide (pc : Nat)
  deriving Repr, DecidableEq

/-- How a place is named in messages. -/
def Place.text : Place → String
  | .thisClass => "classfile: this_class"
  | .superClass => "classfile: super_class"
  | .interface position => s!"classfile: interface {position}"
  | .fields => "classfile: fields"
  | .methods => "classfile: methods"
  | .attributes => "classfile: attributes"
  | .method name descriptor => name ++ descriptor
  | .body className name descriptor => s!"classfile: {className}.{name}{descriptor}"
  | .fieldAccess pc => s!"field insn at {pc}"
  | .invocation pc => s!"method insn at {pc}"
  | .dynamicCall pc => s!"invokedynamic at {pc}"
  | .typeUse pc => s!"type insn at {pc}"
  | .arrayCreation pc => s!"multianewarray at {pc}"
  | .wide pc => s!"wide at {pc}"

/-- Why a class file cannot be read. -/
inductive Error
  | truncated (cut : Truncation)
  | badMagic (found : Nat)
  | emptyPool
  | unknownTag (tag : UInt8) (index : Nat)
  | indexOutOfRange (index : UInt16)
  | tagMismatch (index : UInt16) (found : UInt8) (wanted : List UInt8)
  | tableBounds (pc : Nat) (low high : Int)
  | pairCount (pc : Nat) (count : Int)
  | notWidenable (opcode : Nat)
  | undefinedOpcode (opcode pc : Nat)
  | within (place : Place) (cause : Error)
  deriving Repr, DecidableEq

/-- `value` in base 16, padded with zeros to `width` digits. -/
def hexDigits (width value : Nat) : String :=
  let digits := Nat.toDigits 16 value
  String.ofList (List.replicate (width - digits.length) '0' ++ digits)

/-- The wording of an error. -/
def Error.message : Error → String
  | .truncated cut =>
      s!"classfile: unexpected end of data at offset {cut.offset} " ++
        s!"(need {cut.needed} bytes, have {cut.available})"
  | .badMagic found => s!"classfile: bad magic 0x{(hexDigits 8 found).toUpper}"
  | .emptyPool => "classfile: constant pool count is zero"
  | .unknownTag tag index => s!"classfile: unknown constant pool tag {tag} at index {index}"
  | .indexOutOfRange index => s!"classfile: constant pool index {index} out of range"
  | .tagMismatch index found wanted =>
      s!"classfile: constant pool index {index} has tag {found}, want one of [" ++
        " ".intercalate (wanted.map toString) ++ "]"
  | .tableBounds pc low high => s!"tableswitch at {pc}: high {high} < low {low}"
  | .pairCount pc count => s!"lookupswitch at {pc}: negative pair count {count}"
  | .notWidenable opcode => s!"opcode 0x{hexDigits 2 opcode} cannot be widened"
  | .undefinedOpcode opcode pc => s!"undefined opcode 0x{hexDigits 2 opcode} at {pc}"
  | .within place cause => place.text ++ ": " ++ cause.message

/-- Whether the data ended too early. -/
def Error.isTruncation : Error → Bool
  | .truncated _ => true
  | .within _ cause => cause.isTruncation
  | _ => false

/-- Add the place to an error that arises in `action`. -/
def inPlace {α : Type} (place : Place) (action : Except Error α) : Except Error α :=
  action.mapError (.within place)

end JarMetrics.ClassFile
