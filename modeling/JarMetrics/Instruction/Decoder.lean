import JarMetrics.Instruction.Basic
import JarMetrics.ClassFile.Basic

/-!
# Decoding bytecode

`Instruction.decodeAll` reads a code array as instructions, one after the other, until the bytes end
or something is wrong. It keeps what was decoded before an error. When the operand of a simple
instruction is cut off by the end of the code, that instruction is still reported, with 0 for what
is missing, before the truncation.

The walk ends because every instruction takes at least its opcode: `decode_remaining`.
-/

namespace JarMetrics

open ClassFile (ConstantPool Error Place)

/-! ## Operand layouts -/

/-- What follows an opcode. -/
inductive Layout
  /-- Nothing. -/
  | bare
  /-- Nothing: the opcode is short for `opcode` on variable `index`. -/
  | short (opcode index : Nat)
  /-- A variable index of one byte. -/
  | variableIndex
  /-- A variable index and a signed amount of one byte each. -/
  | increment
  /-- A signed immediate of `width` bytes. -/
  | immediate (width : Nat)
  /-- A pool index of `width` bytes, not resolved. -/
  | constantIndex (width : Nat)
  /-- A signed offset of `width` bytes from the opcode. -/
  | branch (width : Nat)
  | tableSwitch
  | lookupSwitch
  | fieldRef
  /-- A method reference and `padding` further bytes. -/
  | methodRef (padding : Nat)
  | dynamicCall
  | typeRef
  | multiArray
  | wide
  /-- No such opcode. -/
  | undefined
  deriving Repr, DecidableEq

/-- The layout of an opcode. -/
def Layout.ofOpcode (op : Nat) : Layout :=
  if Opcode.hasVariable op then .variableIndex
  else if 0x1a ≤ op ∧ op ≤ 0x2d then .short (0x15 + (op - 0x1a) / 4) ((op - 0x1a) % 4)
  else if 0x3b ≤ op ∧ op ≤ 0x4e then .short (0x36 + (op - 0x3b) / 4) ((op - 0x3b) % 4)
  else if op = Opcode.iinc then .increment
  else if op = 0x10 ∨ op = 0xbc then .immediate 1
  else if op = 0x11 then .immediate 2
  else if op = 0x12 then .constantIndex 1
  else if op = 0x13 ∨ op = 0x14 then .constantIndex 2
  else if (0x99 ≤ op ∧ op ≤ 0xa8) ∨ op = 0xc6 ∨ op = 0xc7 then .branch 2
  else if op = 0xc8 ∨ op = 0xc9 then .branch 4
  else if op = Opcode.tableSwitch then .tableSwitch
  else if op = Opcode.lookupSwitch then .lookupSwitch
  else if 0xb2 ≤ op ∧ op ≤ 0xb5 then .fieldRef
  else if 0xb6 ≤ op ∧ op ≤ 0xb8 then .methodRef 0
  else if op = Opcode.invokeInterface then .methodRef 2
  else if op = Opcode.invokeDynamic then .dynamicCall
  else if op = Opcode.new ∨ op = 0xbd ∨ op = 0xc0 ∨ op = 0xc1 then .typeRef
  else if op = 0xc5 then .multiArray
  else if op = Opcode.wide then .wide
  else if op ≤ 0xc9 then .bare
  else .undefined

/-! ## Reading operands -/

/-- Why decoding stopped, and the instruction that is reported nevertheless. -/
structure Fault where
  reported : Option Instruction
  error : Error
  deriving Repr, DecidableEq

/-- A computation that reads code bytes from the front. -/
abbrev CodeReader := StateT Cursor (Except Fault)

namespace CodeReader

/-- Read an unsigned number of `width` bytes. -/
def number (width : Nat) : CodeReader Nat := fun c =>
  match c.take width with
  | .ok (bytes, rest) => .ok (bigEndian bytes, rest)
  | .error cut => .error ⟨none, .truncated cut⟩

/-- Read a signed number of `width` bytes. -/
def signedNumber (width : Nat) : CodeReader Int :=
  return signed (8 * width) (← number width)

/-- Fail at once. -/
def fail {α : Type} (error : Error) : CodeReader α := throw ⟨none, error⟩

/-- Use the outcome of a pool look-up, naming the instruction in its error. -/
def resolved {α : Type} (place : Place) (found : Except Error α) : CodeReader α := fun c =>
  match found with
  | .ok value => .ok (value, c)
  | .error error => .error ⟨none, .within place error⟩

/-- Read an operand of `width` bytes and build the instruction from it. When the operand is cut off,
the instruction built from 0 is still reported. -/
def lenient (width : Nat) (build : Nat → Instruction) : CodeReader Instruction := fun c =>
  match c.take width with
  | .ok (bytes, rest) => .ok (build (bigEndian bytes), rest)
  | .error cut => .error ⟨some (build 0), .truncated cut⟩

/-- Read `count` words with `read`. -/
def repeatN {α : Type} (read : CodeReader α) : Nat → List α → CodeReader (List α)
  | 0, acc => return acc.reverse
  | count + 1, acc => do
      let word ← read
      repeatN read count (word :: acc)

/-- Check that `count` bytes are left, without reading them. -/
def require (count : Nat) : CodeReader Unit := fun c =>
  match c.take count with
  | .ok _ => .ok ((), c)
  | .error cut => .error ⟨none, .truncated cut⟩

end CodeReader

open CodeReader

/-- The bytes between a switch opcode at `pc` and its first operand, which starts at a multiple of
4. -/
def switchPadding (pc : Nat) : Nat := (4 - (pc + 1) % 4) % 4

/-- The operands of a dense switch at `pc`. -/
def readTableSwitch (pc : Nat) : CodeReader Instruction := do
  let _ ← number (switchPadding pc)
  let otherwise ← signedNumber 4
  let low ← signedNumber 4
  let high ← signedNumber 4
  if high < low then
    fail (.tableBounds pc low high)
  else
    require ((high - low + 1).toNat * 4)
    let targets ← repeatN (signedNumber 4) (high - low + 1).toNat []
    return .tableSwitch low high (pc + otherwise) (targets.map (pc + ·))

/-- The operands of a sorted switch at `pc`. -/
def readLookupSwitch (pc : Nat) : CodeReader Instruction := do
  let _ ← number (switchPadding pc)
  let otherwise ← signedNumber 4
  let count ← signedNumber 4
  if count < 0 then
    fail (.pairCount pc count)
  else
    require (count.toNat * 8)
    let pairs ← repeatN (do return (← signedNumber 4, ← signedNumber 4)) count.toNat []
    return .lookupSwitch (pc + otherwise) (pairs.map Prod.fst) (pairs.map fun pair => pc + pair.2)

/-- The operands behind a `wide` opcode. -/
def readWide : CodeReader Instruction := do
  let op ← number 1
  let index ← number 2
  if op = Opcode.iinc then
    return .increment index (← signedNumber 2)
  else if Opcode.hasVariable op then
    return .variableAt op index
  else
    fail (.notWidenable op)

/-- Name the `wide` instruction in the error of its operands. -/
def inWide (pc : Nat) (read : CodeReader Instruction) : CodeReader Instruction := fun c =>
  (read c).mapError fun fault => { fault with error := .within (.wide pc) fault.error }

/-- Read the operands of opcode `op` at `pc`. -/
def readOperands (pool : ConstantPool) (pc op : Nat) : Layout → CodeReader Instruction
  | .bare => return .plain op
  | .short opcode index => return .variableAt opcode index
  | .variableIndex => lenient 1 (.variableAt op)
  | .increment => fun c =>
      match c.take 1 with
      | .ok (index, rest) =>
          lenient 1 (fun amount => .increment (bigEndian index) (signed 8 amount)) rest
      | .error cut => .error ⟨some (.increment 0 0), .truncated cut⟩
  | .immediate width => lenient width fun value => .push op (signed (8 * width) value)
  | .constantIndex width => lenient width (.constant op)
  | .branch width => lenient width fun offset => .jump op (pc + signed (8 * width) offset)
  | .tableSwitch => readTableSwitch pc
  | .lookupSwitch => readLookupSwitch pc
  | .fieldRef => do
      let index ← number 2
      return .field op (← resolved (.fieldAccess pc) (pool.memberRef (.ofNat index)))
  | .methodRef padding => do
      let index ← number 2
      let _ ← number padding
      return .invoke op (← resolved (.invocation pc) (pool.memberRef (.ofNat index)))
  | .dynamicCall => do
      let index ← number 2
      let _ ← number 2
      let (name, descriptor) ← resolved (.dynamicCall pc) (pool.dynamicCall (.ofNat index))
      return .invokeDynamic name descriptor
  | .typeRef => do
      let index ← number 2
      return .typeUse op (← resolved (.typeUse pc) (pool.className (.ofNat index)))
  | .multiArray => do
      let index ← number 2
      let dimensions ← number 1
      return .multiArray (← resolved (.arrayCreation pc) (pool.className (.ofNat index))) dimensions
  | .wide => inWide pc readWide
  | .undefined => fail (.undefinedOpcode op pc)

namespace Instruction

/-- Read one instruction, opcode first. -/
def decode (pool : ConstantPool) : CodeReader Instruction := fun c => do
  let (op, rest) ← number 1 c
  readOperands pool c.offset op (.ofOpcode op) rest

end Instruction

/-! ## Reading never goes backwards -/

/-- After a successful read no more bytes are left than before. -/
def CodeReader.Shrinks {α : Type} (read : CodeReader α) : Prop :=
  ∀ c value d, read c = .ok (value, d) → d.remaining ≤ c.remaining

namespace CodeReader

theorem shrinks_pure {α : Type} (value : α) : Shrinks (pure value : CodeReader α) := by
  intro c value' d run
  cases run
  exact Nat.le_refl _

theorem shrinks_bind {α β : Type} {first : CodeReader α} {next : α → CodeReader β}
    (hfirst : Shrinks first) (hnext : ∀ value, Shrinks (next value)) :
    Shrinks (first >>= next) := by
  intro c value d run
  change (first c >>= fun p => next p.1 p.2) = _ at run
  cases h : first c with
  | error fault => simp [h, bind, Except.bind] at run
  | ok p =>
      simp only [h, bind, Except.bind] at run
      exact Nat.le_trans (hnext p.1 p.2 value d run) (hfirst c p.1 p.2 h)

theorem shrinks_number (width : Nat) : Shrinks (number width) := by
  intro c value d run
  unfold number at run
  split at run
  · next h =>
    cases run
    have := Cursor.take_remaining h
    omega
  · cases run

theorem shrinks_lenient (width : Nat) (build : Nat → Instruction) :
    Shrinks (lenient width build) := by
  intro c value d run
  unfold lenient at run
  split at run
  · next h =>
    cases run
    have := Cursor.take_remaining h
    omega
  · cases run

theorem shrinks_signedNumber (width : Nat) : Shrinks (signedNumber width) :=
  shrinks_bind (shrinks_number width) fun _ => shrinks_pure _

theorem shrinks_fail {α : Type} (error : Error) : Shrinks (fail error : CodeReader α) := by
  intro c value d run
  cases run

theorem shrinks_resolved {α : Type} (place : Place) (found : Except Error α) :
    Shrinks (resolved place found) := by
  intro c value d run
  unfold resolved at run
  split at run
  · cases run
    exact Nat.le_refl _
  · cases run

theorem shrinks_require (count : Nat) : Shrinks (require count) := by
  intro c value d run
  unfold require at run
  split at run
  · cases run
    exact Nat.le_refl _
  · cases run

theorem shrinks_repeatN {α : Type} {read : CodeReader α} (h : Shrinks read) (count : Nat)
    (acc : List α) : Shrinks (repeatN read count acc) := by
  induction count generalizing acc with
  | zero => exact shrinks_pure _
  | succ count ih => exact shrinks_bind h fun _ => ih _

theorem shrinks_ite {α : Type} {p : Prop} [Decidable p] {yes no : CodeReader α}
    (hyes : Shrinks yes) (hno : Shrinks no) : Shrinks (if p then yes else no) := by
  split
  · exact hyes
  · exact hno

end CodeReader

theorem shrinks_readTableSwitch (pc : Nat) : Shrinks (readTableSwitch pc) := by
  unfold readTableSwitch
  refine shrinks_bind (shrinks_number _) fun _ => ?_
  refine shrinks_bind (shrinks_signedNumber _) fun _ => ?_
  refine shrinks_bind (shrinks_signedNumber _) fun low => ?_
  refine shrinks_bind (shrinks_signedNumber _) fun high => ?_
  refine shrinks_ite (shrinks_fail _) ?_
  exact shrinks_bind (shrinks_require _) fun _ =>
    shrinks_bind (shrinks_repeatN (shrinks_signedNumber _) _ _) fun _ => shrinks_pure _

theorem shrinks_readLookupSwitch (pc : Nat) : Shrinks (readLookupSwitch pc) := by
  unfold readLookupSwitch
  refine shrinks_bind (shrinks_number _) fun _ => ?_
  refine shrinks_bind (shrinks_signedNumber _) fun _ => ?_
  refine shrinks_bind (shrinks_signedNumber _) fun count => ?_
  refine shrinks_ite (shrinks_fail _) ?_
  refine shrinks_bind (shrinks_require _) fun _ => ?_
  refine shrinks_bind (shrinks_repeatN ?_ _ _) fun _ => shrinks_pure _
  exact shrinks_bind (shrinks_signedNumber _) fun _ =>
    shrinks_bind (shrinks_signedNumber _) fun _ => shrinks_pure _

theorem shrinks_readWide : Shrinks readWide := by
  unfold readWide
  refine shrinks_bind (shrinks_number _) fun op => shrinks_bind (shrinks_number _) fun index => ?_
  exact shrinks_ite (shrinks_bind (shrinks_signedNumber _) fun _ => shrinks_pure _)
    (shrinks_ite (shrinks_pure _) (shrinks_fail _))

theorem shrinks_inWide (pc : Nat) {read : CodeReader Instruction} (h : Shrinks read) :
    Shrinks (inWide pc read) := by
  intro c value d run
  unfold inWide at run
  cases hread : read c with
  | error fault =>
      rw [hread] at run
      nomatch run
  | ok p =>
      rw [hread] at run
      exact h c value d (hread.trans run)

theorem shrinks_readOperands (pool : ConstantPool) (pc op : Nat) (layout : Layout) :
    Shrinks (readOperands pool pc op layout) := by
  cases layout with
  | bare => exact shrinks_pure _
  | short opcode index => exact shrinks_pure _
  | variableIndex => exact shrinks_lenient _ _
  | increment =>
      intro c value d run
      simp only [readOperands] at run
      split at run
      · next index rest h =>
        have first := Cursor.take_remaining h
        have second := shrinks_lenient _ _ _ _ _ run
        omega
      · cases run
  | immediate width =>
      unfold readOperands
      exact shrinks_lenient _ _
  | constantIndex width =>
      unfold readOperands
      exact shrinks_lenient _ _
  | branch width =>
      unfold readOperands
      exact shrinks_lenient _ _
  | tableSwitch => exact shrinks_readTableSwitch pc
  | lookupSwitch => exact shrinks_readLookupSwitch pc
  | fieldRef =>
      exact shrinks_bind (shrinks_number _) fun _ =>
        shrinks_bind (shrinks_resolved _ _) fun _ => shrinks_pure _
  | methodRef padding =>
      exact shrinks_bind (shrinks_number _) fun _ => shrinks_bind (shrinks_number _) fun _ =>
        shrinks_bind (shrinks_resolved _ _) fun _ => shrinks_pure _
  | dynamicCall =>
      exact shrinks_bind (shrinks_number _) fun _ => shrinks_bind (shrinks_number _) fun _ =>
        shrinks_bind (shrinks_resolved _ _) fun _ => shrinks_pure _
  | typeRef =>
      exact shrinks_bind (shrinks_number _) fun _ =>
        shrinks_bind (shrinks_resolved _ _) fun _ => shrinks_pure _
  | multiArray =>
      exact shrinks_bind (shrinks_number _) fun _ => shrinks_bind (shrinks_number _) fun _ =>
        shrinks_bind (shrinks_resolved _ _) fun _ => shrinks_pure _
  | wide => exact shrinks_inWide pc shrinks_readWide
  | undefined => exact shrinks_fail _

/-- Every instruction takes at least its opcode. -/
theorem Instruction.decode_remaining {pool : ConstantPool} {c d : Cursor} {i : Instruction}
    (run : Instruction.decode pool c = .ok (i, d)) : d.remaining < c.remaining := by
  unfold Instruction.decode at run
  unfold number at run
  split at run
  · next bytes rest h =>
    have first := Cursor.take_remaining h
    have second := shrinks_readOperands _ _ _ _ _ _ _ run
    omega
  · cases run

/-! ## Whole code arrays -/

/-- What a code array decodes to: the instructions in order, and the error at which decoding
stopped. -/
structure Listing where
  instructions : List Instruction
  failure : Option Error
  deriving Repr, DecidableEq

namespace Instruction

/-- Decode from the cursor on, behind the instructions in `done`. -/
def decodeFrom (pool : ConstantPool) (c : Cursor) (done : Array Instruction) : Listing :=
  if c.rest.isEmpty then
    ⟨done.toList, none⟩
  else
    match _step : decode pool c with
    | .ok (i, d) => decodeFrom pool d (done.push i)
    | .error fault => ⟨done.toList ++ fault.reported.toList, some fault.error⟩
termination_by c.remaining
decreasing_by exact decode_remaining _step

/-- The instructions of a code array. -/
def decodeAll (pool : ConstantPool) (code : List UInt8) : Listing :=
  decodeFrom pool (.ofList code) #[]

end Instruction

end JarMetrics
