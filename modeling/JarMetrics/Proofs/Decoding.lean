import JarMetrics.Proofs.Operands

/-!
# Decoding is exact

`Instruction.decodeAll` accepts exactly the concatenations of complete encodings, and returns the
instructions that they encode. When it fails, the instructions it returns are those of the longest
well-formed front of the code; behind them it reports at most one more, a simple instruction whose
operand is cut off by the end of the code.

Three facts carry this: one instruction is decoded exactly when its encoding stands at the front
(`accepts_decode`), a reader that fails reports exactly what `Instruction.CutOff` describes
(`decode_error`), and the walk does nothing but take one instruction after the other
(`decodeFrom_sequence`).
-/

namespace JarMetrics

open ClassFile (ConstantPool Error Place)
open Grammar CodeReader

/-! ## One instruction -/

/-- One instruction is decoded exactly when its encoding stands at the front. -/
theorem accepts_decode (pool : ConstantPool) {c d : Cursor} {i : Instruction} :
    Instruction.decode pool c = .ok (i, d) ↔
      ∃ bytes, Instruction.Encoding pool c.offset bytes i ∧ c.rest = bytes ++ d.rest ∧
        d.offset = c.offset + bytes.length := by
  constructor
  · intro run
    unfold Instruction.decode at run
    cases first : number 1 c with
    | error fault =>
      rw [first] at run
      cases run
    | ok pair =>
      rw [first] at run
      obtain ⟨-, ⟨op, rfl, value⟩, rest, offset⟩ := (accepts_byte _ _ _).mp first
      change readOperands pool c.offset pair.1 (.ofOpcode pair.1) pair.2 = .ok (i, d) at run
      rw [value] at run
      -- an opcode above 0xc9 has no operands to read, only an error
      have defined : op.toNat ≤ 0xc9 := by
        refine Nat.le_of_not_lt fun above => ?_
        rw [Opcode.ofOpcode_undefined op.toNat_lt above] at run
        cases run
      have layout := Opcode.hasLayout_ofOpcode defined
      obtain ⟨operands, derived, rest', offset'⟩ :=
        (accepts_readOperands pool _ layout _ _ _).mp run
      refine ⟨op :: operands, .intro layout derived, ?_, ?_⟩
      · rw [rest, rest', List.singleton_append, List.cons_append]
      · rw [offset', offset, List.length_singleton, List.length_cons]
        omega
  · rintro ⟨-, ⟨layout, derived⟩, rest, offset⟩
    rename_i op found operands
    unfold Instruction.decode
    have first : number 1 c = .ok (op.toNat, ⟨c.offset + 1, operands ++ d.rest⟩) :=
      (accepts_byte _ _ _).mpr ⟨[op], ⟨op, rfl, rfl⟩, rest, rfl⟩
    rw [first]
    show readOperands pool c.offset op.toNat (.ofOpcode op.toNat) _ = _
    rw [Opcode.ofOpcode_eq op.toNat_lt layout]
    refine (accepts_readOperands pool _ layout _ _ _).mpr ⟨operands, derived, rfl, ?_⟩
    rw [offset, List.length_cons]
    show c.offset + (operands.length + 1) = c.offset + 1 + operands.length
    omega

/-! ## What is reported of an instruction that cannot be read -/

/-- A reader that reports nothing when it fails. -/
def Silent {α : Type} (read : CodeReader α) : Prop :=
  ∀ c fault, read c = .error fault → fault.reported = none

namespace Silent

theorem pure {α : Type} (value : α) : Silent (pure value : CodeReader α) := by
  intro c fault run
  cases run

theorem bind {α β : Type} {first : CodeReader α} {next : α → CodeReader β} (hfirst : Silent first)
    (hnext : ∀ value, Silent (next value)) : Silent (first >>= next) := by
  intro c fault run
  change (first c >>= fun p => next p.1 p.2) = _ at run
  cases h : first c with
  | error fault' =>
    rw [h] at run
    cases run
    exact hfirst c fault h
  | ok p =>
    rw [h] at run
    exact hnext p.1 p.2 fault run

theorem number (width : Nat) : Silent (number width) := by
  intro c fault run
  unfold CodeReader.number at run
  split at run
  · cases run
  · cases run
    rfl

theorem signedNumber (width : Nat) : Silent (signedNumber width) :=
  (number width).bind fun _ => pure _

theorem fail {α : Type} (error : Error) : Silent (fail error : CodeReader α) := by
  intro c fault run
  cases run
  rfl

theorem resolved {α : Type} (place : Place) (found : Except Error α) :
    Silent (resolved place found) := by
  intro c fault run
  unfold CodeReader.resolved at run
  split at run
  · cases run
  · cases run
    rfl

theorem require (count : Nat) : Silent (require count) := by
  intro c fault run
  unfold CodeReader.require at run
  split at run
  · cases run
  · cases run
    rfl

theorem repeatN {α : Type} {read : CodeReader α} (h : Silent read) (count : Nat) (acc : List α) :
    Silent (repeatN read count acc) := by
  induction count generalizing acc with
  | zero => exact pure _
  | succ count ih => exact h.bind fun _ => ih _

theorem ite {α : Type} {p : Prop} [Decidable p] {yes no : CodeReader α} (hyes : Silent yes)
    (hno : Silent no) : Silent (if p then yes else no) := by
  split
  · exact hyes
  · exact hno

theorem tableSwitch (pc : Nat) : Silent (readTableSwitch pc) := by
  unfold readTableSwitch
  refine (number _).bind fun _ => (signedNumber _).bind fun _ => (signedNumber _).bind fun _ =>
    (signedNumber _).bind fun _ => ite (fail _) ?_
  exact (require _).bind fun _ => ((signedNumber _).repeatN _ _).bind fun _ => pure _

theorem lookupSwitch (pc : Nat) : Silent (readLookupSwitch pc) := by
  unfold readLookupSwitch
  refine (number _).bind fun _ => (signedNumber _).bind fun _ => (signedNumber _).bind fun _ =>
    ite (fail _) ((require _).bind fun _ => (repeatN ?_ _ _).bind fun _ => pure _)
  exact (signedNumber _).bind fun _ => (signedNumber _).bind fun _ => pure _

theorem wide (pc : Nat) : Silent (inWide pc readWide) := by
  have operands : Silent readWide := by
    unfold readWide
    exact (number _).bind fun _ => (number _).bind fun _ =>
      ite ((signedNumber _).bind fun _ => pure _) (ite (pure _) (fail _))
  intro c fault run
  unfold inWide at run
  cases h : readWide c with
  | error inner =>
    rw [h] at run
    cases run
    exact operands c inner h
  | ok pair =>
    rw [h] at run
    cases run

end Silent

theorem take_error {width : Nat} {c : Cursor} {cut : Truncation}
    (failed : c.take width = .error cut) :
    c.rest.length < width := by
  refine Nat.lt_of_not_le fun enough => ?_
  rw [Cursor.take, splitExactly_eq, if_pos enough] at failed
  cases failed

theorem lenient_error {width : Nat} {build : Nat → Instruction} {c : Cursor} {fault : Fault}
    (run : lenient width build c = .error fault) :
    c.rest.length < width ∧ fault.reported = some (build 0) := by
  unfold lenient at run
  cases taken : c.take width with
  | error cut =>
    rw [taken] at run
    cases run
    exact ⟨take_error taken, rfl⟩
  | ok pair =>
    rw [taken] at run
    cases run

theorem increment_error {pool : ConstantPool} {pc op : Nat} {c : Cursor} {fault : Fault}
    (run : readOperands pool pc op .increment c = .error fault) :
    (c.rest = [] ∧ fault.reported = some (.increment 0 0)) ∨
      ∃ index : UInt8, c.rest = [index] ∧ fault.reported = some (.increment index.toNat 0) := by
  cases taken : c.take 1 with
  | error cut =>
    simp only [readOperands, taken, Except.error.injEq] at run
    subst run
    have short := take_error taken
    exact .inl ⟨List.eq_nil_of_length_eq_zero (by omega), rfl⟩
  | ok pair =>
    simp only [readOperands, taken] at run
    obtain ⟨short, reported⟩ := lenient_error run
    obtain ⟨rest, length, -⟩ := Cursor.take_eq_ok_iff.mp taken
    obtain ⟨index, single⟩ := length_one_iff.mp length
    -- the index was there and the amount was not, so the index is the last byte
    rw [List.eq_nil_of_length_eq_zero (by omega : pair.2.rest.length = 0), single] at rest
    rw [single, bigEndian_singleton, signed_zero] at reported
    exact .inr ⟨index, rest, reported⟩

/-- Only simple operands that are cut off are reported. -/
theorem readOperands_error {pool : ConstantPool} {pc op : Nat} {layout : Layout} {c : Cursor}
    {fault : Fault} (run : readOperands pool pc op layout c = .error fault) (i : Instruction) :
    fault.reported = some i ↔ Instruction.OperandsCutOff pc op layout c.rest i := by
  -- a layout whose reader is silent has no cut-off form
  have quiet : Silent (readOperands pool pc op layout) →
      (¬ Instruction.OperandsCutOff pc op layout c.rest i) →
      (fault.reported = some i ↔ Instruction.OperandsCutOff pc op layout c.rest i) := by
    intro silent never
    rw [silent c fault run]
    exact ⟨(fun h => nomatch h), (fun h => absurd h never)⟩
  have lenientCase : ∀ width build, lenient width build c = .error fault →
      c.rest.length < width ∧ (fault.reported = some i ↔ build 0 = i) := by
    intro width build failed
    obtain ⟨short, reported⟩ := lenient_error failed
    exact ⟨short, by rw [reported, Option.some.injEq]⟩
  cases layout with
  | bare => exact quiet (.pure _) (fun h => nomatch h)
  | short opcode index => exact quiet (.pure _) (fun h => nomatch h)
  | variableIndex =>
    obtain ⟨short, reported⟩ := lenientCase 1 (.variableAt op) run
    rw [reported, List.eq_nil_of_length_eq_zero (by omega : c.rest.length = 0)]
    constructor
    · rintro rfl
      exact .variableIndex
    · rintro ⟨⟩
      rfl
  | increment =>
    obtain ⟨rest, reported⟩ | ⟨index, rest, reported⟩ := increment_error run
    · rw [rest, reported, Option.some.injEq]
      constructor
      · rintro rfl
        exact .increment
      · rintro ⟨⟩
        rfl
    · rw [rest, reported, Option.some.injEq]
      constructor
      · rintro rfl
        exact .amount index
      · rintro ⟨⟩
        rfl
  | immediate width =>
    obtain ⟨short, reported⟩ :=
      lenientCase width (fun value => .push op (signed (8 * width) value)) run
    rw [reported, signed_zero]
    constructor
    · rintro rfl
      exact .immediate short
    · rintro ⟨⟩
      rfl
  | constantIndex width =>
    obtain ⟨short, reported⟩ := lenientCase width (.constant op) run
    rw [reported]
    constructor
    · rintro rfl
      exact .constantIndex short
    · rintro ⟨⟩
      rfl
  | branch width =>
    obtain ⟨short, reported⟩ :=
      lenientCase width (fun offset => .jump op (pc + signed (8 * width) offset)) run
    rw [reported, signed_zero, Int.add_zero]
    constructor
    · rintro rfl
      exact .branch short
    · rintro ⟨⟩
      rfl
  | tableSwitch => exact quiet (.tableSwitch pc) (fun h => nomatch h)
  | lookupSwitch => exact quiet (.lookupSwitch pc) (fun h => nomatch h)
  | fieldRef =>
    exact quiet ((Silent.number _).bind fun _ => (Silent.resolved _ _).bind fun _ => .pure _)
      (fun h => nomatch h)
  | methodRef padding =>
    exact quiet ((Silent.number _).bind fun _ => (Silent.number _).bind fun _ =>
      (Silent.resolved _ _).bind fun _ => .pure _) (fun h => nomatch h)
  | dynamicCall =>
    exact quiet ((Silent.number _).bind fun _ => (Silent.number _).bind fun _ =>
      (Silent.resolved _ _).bind fun _ => .pure _) (fun h => nomatch h)
  | typeRef =>
    exact quiet ((Silent.number _).bind fun _ => (Silent.resolved _ _).bind fun _ => .pure _)
      (fun h => nomatch h)
  | multiArray =>
    exact quiet ((Silent.number _).bind fun _ => (Silent.number _).bind fun _ =>
      (Silent.resolved _ _).bind fun _ => .pure _) (fun h => nomatch h)
  | wide => exact quiet (.wide pc) (fun h => nomatch h)
  | undefined => exact quiet (.fail _) (fun h => nomatch h)

namespace Instruction

/-- An instruction that cannot be decoded is reported exactly when a simple operand is cut off. -/
theorem decode_error {pool : ConstantPool} {c : Cursor} {fault : Fault}
    (run : decode pool c = .error fault) (i : Instruction) :
    fault.reported = some i ↔ CutOff c.offset c.rest i := by
  unfold decode at run
  cases first : number 1 c with
  | error cut =>
    -- no opcode: nothing is reported, and nothing is left that could be cut off
    have reported := Silent.number 1 c cut first
    have empty : c.rest = [] := by
      unfold number at first
      cases taken : c.take 1 with
      | error truncation =>
        have short := take_error taken
        exact List.eq_nil_of_length_eq_zero (by omega)
      | ok pair =>
        rw [taken] at first
        cases first
    rw [first] at run
    cases run
    rw [reported, empty]
    exact ⟨(fun h => nomatch h), (fun h => nomatch h)⟩
  | ok pair =>
    rw [first] at run
    obtain ⟨-, ⟨op, rfl, value⟩, rest, -⟩ := (accepts_byte _ _ _).mp first
    change readOperands pool c.offset pair.1 (.ofOpcode pair.1) pair.2 = .error fault at run
    rw [value] at run
    rw [readOperands_error run i, rest, List.singleton_append]
    constructor
    · intro cut
      rcases Nat.lt_or_ge 0xc9 op.toNat with above | defined
      · rw [Opcode.ofOpcode_undefined op.toNat_lt above] at cut
        nomatch cut
      · exact .intro (Opcode.hasLayout_ofOpcode defined) cut
    · rintro ⟨layout, cut⟩
      rwa [Opcode.ofOpcode_eq op.toNat_lt layout]

/-! ## Whole code arrays -/

/-- One step of the walk in front of an encoded instruction. -/
theorem decodeFrom_encoding {pool : ConstantPool} {pc : Nat} {front : List UInt8} {i : Instruction}
    (encoded : Encoding pool pc front i) (back : List UInt8) (done : Array Instruction) :
    decodeFrom pool ⟨pc, front ++ back⟩ done =
      decodeFrom pool ⟨pc + front.length, back⟩ (done.push i) := by
  have step : decode pool ⟨pc, front ++ back⟩ = .ok (i, ⟨pc + front.length, back⟩) :=
    (accepts_decode pool).mpr ⟨front, encoded, rfl, rfl⟩
  have someLeft : (front ++ back).isEmpty = false := by
    cases encoded
    rfl
  rw [decodeFrom, if_neg (by rw [someLeft]; exact Bool.false_ne_true)]
  split
  · next j d run =>
    rw [step] at run
    cases run
    rfl
  · next fault run =>
    rw [step] at run
    cases run

/-- A sequence of encodings is walked to its end, whatever follows it. -/
theorem decodeFrom_sequence {pool : ConstantPool} {pc : Nat} {front : List UInt8}
    {is : List Instruction} (encoded : Sequence pool pc front is) (rest : List UInt8)
    (done : Array Instruction) :
    decodeFrom pool ⟨pc, front ++ rest⟩ done =
      decodeFrom pool ⟨pc + front.length, rest⟩ (done ++ is.toArray) := by
  induction encoded generalizing done with
  | nil pc => simp
  | cons head _ ih =>
    rw [List.append_assoc, decodeFrom_encoding head, ih, List.length_append, Nat.add_assoc]
    simp

theorem decodeFrom_end (pool : ConstantPool) (pc : Nat) (done : Array Instruction) :
    decodeFrom pool ⟨pc, []⟩ done = ⟨done.toList, none⟩ := by
  rw [decodeFrom]
  rfl

/-- Where no instruction starts the walk ends, with at most a cut-off instruction more. -/
theorem decodeFrom_stuck {pool : ConstantPool} {pc : Nat} {rest : List UInt8}
    (stuck : Stuck pool pc rest) (done : Array Instruction) :
    ∃ cut : Option Instruction, (∀ i, cut = some i ↔ CutOff pc rest i) ∧
      ∃ error, decodeFrom pool ⟨pc, rest⟩ done = ⟨done.toList ++ cut.toList, some error⟩ := by
  obtain ⟨someLeft, noneStarts⟩ := stuck
  rw [decodeFrom, if_neg (by simpa using someLeft)]
  split
  · next i d run =>
    obtain ⟨front, encoded, whole, -⟩ := (accepts_decode pool).mp run
    exact absurd encoded (noneStarts front d.rest i whole)
  · next fault run => exact ⟨fault.reported, decode_error run, fault.error, rfl⟩

/-- Every code array is a sequence of encodings up to its end or up to where no instruction
starts. -/
theorem exists_front (pool : ConstantPool) (pc : Nat) (code : List UInt8) :
    ∃ front rest is, code = front ++ rest ∧ Sequence pool pc front is ∧
      (rest = [] ∨ Stuck pool (pc + front.length) rest) := by
  -- on the length of the code, of which an instruction may take any number of bytes
  induction size : code.length using Nat.strongRecOn generalizing pc code with
  | _ size ih =>
    by_cases starts : ∃ front back i, code = front ++ back ∧ Encoding pool pc front i
    · obtain ⟨front, back, i, rfl, encoded⟩ := starts
      have shorter : back.length < (front ++ back).length := by
        cases encoded
        simp only [List.cons_append, List.length_cons, List.length_append]
        omega
      obtain ⟨front', rest, is, rfl, later, final⟩ :=
        ih _ (size ▸ shorter) (pc + front.length) back rfl
      refine ⟨front ++ front', rest, i :: is, (List.append_assoc ..).symm, .cons encoded later, ?_⟩
      rwa [List.length_append, ← Nat.add_assoc]
    · refine ⟨[], code, [], rfl, .nil pc, ?_⟩
      by_cases empty : code = []
      · exact .inl empty
      · exact .inr ⟨empty, fun front back i whole encoded =>
          starts ⟨front, back, i, whole, encoded⟩⟩

theorem decodeAll_sequence {pool : ConstantPool} {code : List UInt8} {is : List Instruction}
    (encoded : Sequence pool 0 code is) : decodeAll pool code = ⟨is, none⟩ := by
  unfold decodeAll
  rw [← List.append_nil code, Cursor.ofList, decodeFrom_sequence encoded, decodeFrom_end]
  simp

theorem decodeAll_stuck {pool : ConstantPool} {front rest : List UInt8} {is : List Instruction}
    (encoded : Sequence pool 0 front is) (stuck : Stuck pool front.length rest) :
    ∃ cut : Option Instruction, (∀ i, cut = some i ↔ CutOff front.length rest i) ∧
      ∃ error, decodeAll pool (front ++ rest) = ⟨is ++ cut.toList, some error⟩ := by
  obtain ⟨cut, described, error, walk⟩ := decodeFrom_stuck stuck is.toArray
  refine ⟨cut, described, error, ?_⟩
  unfold decodeAll
  rw [Cursor.ofList, decodeFrom_sequence encoded, Nat.zero_add, Array.empty_append, walk]

/-- A code array that is decoded to its end is a sequence of encodings. -/
theorem sequence_of_decodes {pool : ConstantPool} {code : List UInt8}
    (decoded : (decodeAll pool code).failure = none) :
    Sequence pool 0 code (decodeAll pool code).instructions := by
  obtain ⟨front, rest, is, rfl, sequence, final⟩ := exists_front pool 0 code
  rcases final with ended | stuck
  · subst ended
    rw [List.append_nil, decodeAll_sequence sequence]
    exact sequence
  · rw [Nat.zero_add] at stuck
    obtain ⟨cut, -, error, walk⟩ := decodeAll_stuck sequence stuck
    rw [walk] at decoded
    cases decoded

/-- **Decoding is exact.** A code array is decoded without an error exactly when it is a
concatenation of complete encodings, and then to the instructions encoded. Otherwise the
instructions returned are those of the front up to where no instruction starts, and behind them the
instruction that is cut off there, if any. -/
theorem decodeAll_exact (pool : ConstantPool) (code : List UInt8) :
    ((decodeAll pool code).failure = none ↔ ∃ is, Sequence pool 0 code is) ∧
    (∀ is, Sequence pool 0 code is → decodeAll pool code = ⟨is, none⟩) ∧
    (∀ error, (decodeAll pool code).failure = some error →
      ∃ front rest is, code = front ++ rest ∧ Sequence pool 0 front is ∧
        Stuck pool front.length rest ∧
        ∃ cut : Option Instruction, (∀ i, cut = some i ↔ CutOff front.length rest i) ∧
          (decodeAll pool code).instructions = is ++ cut.toList) := by
  obtain ⟨front, rest, is, rfl, encoded, ended | stuck⟩ := exists_front pool 0 code
  · rw [ended, List.append_nil]
    have walk := decodeAll_sequence encoded
    refine ⟨⟨fun _ => ⟨is, encoded⟩, fun _ => by rw [walk]⟩, fun other => decodeAll_sequence, ?_⟩
    intro error failed
    rw [walk] at failed
    cases failed
  · rw [Nat.zero_add] at stuck
    obtain ⟨cut, described, error, walk⟩ := decodeAll_stuck encoded stuck
    refine ⟨⟨fun succeeded => ?_, ?_⟩, fun other => decodeAll_sequence, ?_⟩
    · rw [walk] at succeeded
      cases succeeded
    · rintro ⟨other, whole⟩
      rw [decodeAll_sequence whole]
    · intro _ _
      exact ⟨front, rest, is, rfl, encoded, stuck, cut, described, by rw [walk]⟩

/-- A short load, a padded switch with a negative key and a widened increment, decoded from their
bytes. -/
theorem decodeAll_exact_switch :
    decodeAll ⟨#[]⟩ [0x1b, 0xaa, 9, 9, 0, 0, 0, 20, 255, 255, 255, 255, 0, 0, 0, 0, 0, 0, 0, 1,
        255, 255, 255, 255, 0xc4, 0x84, 1, 0, 255, 254] =
      ⟨[.variableAt 0x15 1, .tableSwitch (-1) 0 21 [2, 0], .increment 256 (-2)], none⟩ := by
  have load : Encoding ⟨#[]⟩ 0 [0x1b] (.variableAt 0x15 1) :=
    .intro (show Opcode.HasLayout 0x1b (.short 0x15 1) by decide) (.short 0x15 1)
  have table : Encoding ⟨#[]⟩ 1
      (0xaa :: ([9, 9] ++ fourBytes (20 : Int32).toUInt32 ++ fourBytes (-1 : Int32).toUInt32 ++
        fourBytes (0 : Int32).toUInt32 ++ [1, -1].flatMap fun offset : Int32 =>
          fourBytes offset.toUInt32))
      (.tableSwitch (-1) 0 21 [2, 0]) :=
    .intro (show Opcode.HasLayout 0xaa .tableSwitch by decide)
      (.tableSwitch 20 (-1) 0 [1, -1] ⟨by decide, by decide⟩ (by decide) (by decide))
  have widened : Encoding ⟨#[]⟩ 24
      (0xc4 :: (0x84 :: twoBytes 256 ++ twoBytes (-2 : Int16).toUInt16)) (.increment 256 (-2)) :=
    .intro (show Opcode.HasLayout 0xc4 .wide by decide) (.wideIncrement 256 (-2))
  exact (decodeAll_exact _ _).2.1 _ (.cons load (.cons table (.cons widened (.nil 30))))

end Instruction

end JarMetrics
