import JarMetrics.Proofs.Decoding

/-!
# Room for the entries of a switch

A switch announces how many entries follow its header, in numbers of 32 bits that may be anything.
Before the decoder makes room for the targets it asks whether the code has that many bytes left.
`SwitchHeader.Admitted` is that question. Where the answer is yes, the entries are read, one target
for each (`decode_admitted`); where it is no, decoding ends at the header, with an error that says
what was asked for and what was there (`AtSwitch.refused`). So no switch has more targets than a
quarter of the bytes behind its header (`exists_header_of_mem`).

The number of bytes is a difference of two numbers of 32 bits times the size of an entry, and fits
in 64 bits with room to spare (`toInt_room`). `SwitchHeader.fits` is the question as 64-bit
arithmetic answers it.
-/

namespace JarMetrics

open ClassFile (ConstantPool Error)
open CodeReader

/-! ## Headers -/

/-- What stands in front of the entries of a switch: where to go otherwise, and how many entries
there are. -/
inductive SwitchHeader
  /-- One entry for each number from `low` to `high`. -/
  | table (otherwise low high : Int32)
  /-- So many pairs of a key and an offset. -/
  | lookup (otherwise count : Int32)

namespace SwitchHeader

/-- The bytes of a header, from the opcode on. -/
def encode (padding : List UInt8) : SwitchHeader → List UInt8
  | .table otherwise low high =>
      0xaa :: (padding ++ (fourBytes otherwise.toUInt32 ++
        (fourBytes low.toUInt32 ++ fourBytes high.toUInt32)))
  | .lookup otherwise count =>
      0xab :: (padding ++ (fourBytes otherwise.toUInt32 ++ fourBytes count.toUInt32))

/-- The number of entries that a header announces. -/
def entries : SwitchHeader → Int
  | .table _ low high => high.toInt - low.toInt + 1
  | .lookup _ count => count.toInt

/-- The number of entries that a switch has at least. -/
def least : SwitchHeader → Int
  | .table _ _ _ => 1
  | .lookup _ _ => 0

/-- The number of bytes of an entry. -/
def width : SwitchHeader → Nat
  | .table _ _ _ => 4
  | .lookup _ _ => 8

/-- The announced entries are neither too few nor more than there are bytes for. -/
def Admitted (h : SwitchHeader) (available : Nat) : Prop :=
  h.least ≤ h.entries ∧ h.entries.toNat * h.width ≤ available

/-- The error for entries that are not admitted, for a switch at `pc` whose header ends at
`offset`. -/
def refusal (h : SwitchHeader) (pc offset available : Nat) : Error :=
  if h.least ≤ h.entries then .truncated ⟨offset, h.entries.toNat * h.width, available⟩
  else
    match h with
    | .table _ low high => .tableBounds pc low.toInt high.toInt
    | .lookup _ count => .pairCount pc count.toInt

/-! ## 64 bits -/

/-- The number of bytes of all entries, computed in 64 bits. -/
def room : SwitchHeader → Int64
  | .table _ low high => (high.toInt64 - low.toInt64 + 1) * 4
  | .lookup _ count => count.toInt64 * 8

/-- Whether the entries end before the code does, computed in 64 bits. -/
def fits (h : SwitchHeader) (offset size : Int64) : Bool := 0 ≤ h.room && offset + h.room ≤ size

/-- No header makes the multiplication overflow. -/
theorem toInt_room (h : SwitchHeader) : h.room.toInt = h.entries * h.width := by
  cases h with
  | table otherwise low high =>
    have lowLt := low.toInt_lt
    have leLow := low.le_toInt
    have highLt := high.toInt_lt
    have leHigh := high.le_toInt
    have difference : (high.toInt64 - low.toInt64).toInt = high.toInt - low.toInt := by
      rw [Int64.toInt_sub, Int32.toInt_toInt64, Int32.toInt_toInt64]
      exact Int.bmod_eq_of_le (by omega) (by omega)
    have count : (high.toInt64 - low.toInt64 + 1).toInt = high.toInt - low.toInt + 1 := by
      rw [Int64.toInt_add, difference, show (1 : Int64).toInt = 1 from rfl]
      exact Int.bmod_eq_of_le (by omega) (by omega)
    show ((high.toInt64 - low.toInt64 + 1) * 4).toInt = (high.toInt - low.toInt + 1) * 4
    rw [Int64.toInt_mul, count, show (4 : Int64).toInt = 4 from rfl]
    exact Int.bmod_eq_of_le (by omega) (by omega)
  | lookup otherwise count =>
    have countLt := count.toInt_lt
    have leCount := count.le_toInt
    show (count.toInt64 * 8).toInt = count.toInt * 8
    rw [Int64.toInt_mul, Int32.toInt_toInt64, show (8 : Int64).toInt = 8 from rfl]
    exact Int.bmod_eq_of_le (by omega) (by omega)

/-- The entries are at most 2³² of eight bytes. -/
theorem entries_lt (h : SwitchHeader) : -0x100000000 < h.entries ∧ h.entries ≤ 0x100000000 := by
  cases h with
  | table otherwise low high =>
    have lowLt := low.toInt_lt
    have leLow := low.le_toInt
    have highLt := high.toInt_lt
    have leHigh := high.le_toInt
    simp only [entries]
    omega
  | lookup otherwise count =>
    have countLt := count.toInt_lt
    have leCount := count.le_toInt
    simp only [entries]
    omega

theorem least_nonneg (h : SwitchHeader) : 0 ≤ h.least := by
  cases h <;> simp [least]

/-- In code of less than 2⁶² bytes the 64-bit answer is the true one. -/
theorem admitted_iff_fits (h : SwitchHeader) {offset available : Nat}
    (small : offset + available < 0x4000000000000000) :
    h.Admitted available ↔
      h.least ≤ h.entries ∧ h.fits (.ofNat offset) (.ofNat (offset + available)) = true := by
  have exactOffset : (Int64.ofNat offset).toInt = offset := Int64.toInt_ofNat_of_lt (by omega)
  have exactSize : (Int64.ofNat (offset + available)).toInt = (offset + available : Nat) :=
    Int64.toInt_ofNat_of_lt (by omega)
  obtain ⟨above, below⟩ := h.entries_lt
  have notNegative := h.least_nonneg
  have room := h.toInt_room
  have fourOrEight : h.width = 4 ∨ h.width = 8 := by cases h <;> simp [width]
  have exactEnd : (Int64.ofNat offset + h.room).toInt = offset + h.entries * h.width := by
    rw [Int64.toInt_add, exactOffset, room]
    rcases fourOrEight with four | eight
    · rw [four]
      exact Int.bmod_eq_of_le (by omega) (by omega)
    · rw [eight]
      exact Int.bmod_eq_of_le (by omega) (by omega)
  simp only [Admitted, fits, Bool.and_eq_true, decide_eq_true_eq, Int64.le_iff_toInt_le,
    exactEnd, exactSize, room,
    show (0 : Int64).toInt = 0 from rfl]
  rcases fourOrEight with four | eight
  · rw [four]
    omega
  · rw [eight]
    omega

end SwitchHeader

/-! ## Reading behind a header -/

/-- A reader that takes `width` bytes, whatever they are. -/
def CodeReader.TakesAny {α : Type} (read : CodeReader α) (width : Nat) : Prop :=
  ∀ offset bytes rest, bytes.length = width →
    ∃ value, read ⟨offset, bytes ++ rest⟩ = .ok (value, ⟨offset + width, rest⟩)

/-- Go on behind a reader that succeeds. -/
theorem bind_of_ok {α β : Type} {first : CodeReader α} {next : α → CodeReader β} {c d : Cursor}
    {value : α} (run : first c = .ok (value, d)) : (first >>= next) c = next value d := by
  show (first c >>= fun p => next p.1 p.2) = _
  rw [run]
  rfl

theorem bind_of_error {α β : Type} {first : CodeReader α} {next : α → CodeReader β} {c : Cursor}
    {fault : Fault} (run : first c = .error fault) : (first >>= next) c = .error fault := by
  show (first c >>= fun p => next p.1 p.2) = _
  rw [run]
  rfl

namespace CodeReader

theorem number_append (offset : Nat) (bytes rest : List UInt8) :
    number bytes.length ⟨offset, bytes ++ rest⟩ =
      .ok (bigEndian bytes, ⟨offset + bytes.length, rest⟩) :=
  (accepts_number _ _ _ _).mpr ⟨bytes, ⟨rfl, rfl⟩, rfl, rfl⟩

theorem signedNumber_append (n : Int32) (offset : Nat) (rest : List UInt8) :
    signedNumber 4 ⟨offset, fourBytes n.toUInt32 ++ rest⟩ = .ok (n.toInt, ⟨offset + 4, rest⟩) :=
  (accepts_signedWord _ _ _).mpr ⟨_, ⟨n, trivial, rfl, rfl⟩, rfl, rfl⟩

theorem takes_signedNumber (width : Nat) : TakesAny (signedNumber width) width := by
  intro offset bytes rest length
  exact ⟨_, (accepts_signedNumber width _ _ _).mpr ⟨bytes, ⟨length, rfl⟩, rfl, by rw [length]⟩⟩

/-- One reader behind the other. -/
theorem TakesAny.pair {α β : Type} {first : CodeReader α} {second : CodeReader β} {m n : Nat}
    (takesFirst : TakesAny first m) (takesSecond : TakesAny second n) :
    TakesAny (do return (← first, ← second) : CodeReader (α × β)) (m + n) := by
  intro offset bytes rest length
  obtain ⟨x, runFirst⟩ := takesFirst offset (bytes.take m) (bytes.drop m ++ rest) (by simp; omega)
  obtain ⟨y, runSecond⟩ := takesSecond (offset + m) (bytes.drop m) rest (by simp; omega)
  rw [← List.append_assoc, List.take_append_drop] at runFirst
  refine ⟨(x, y), ?_⟩
  rw [bind_of_ok runFirst, bind_of_ok runSecond, ← Nat.add_assoc]
  rfl

/-- So many entries of the same width are read, when the bytes are there. -/
theorem TakesAny.repeatN {α : Type} {read : CodeReader α} {width : Nat}
    (takes : TakesAny read width) (count : Nat) (acc : List α) (offset : Nat)
    (bytes rest : List UInt8) (length : bytes.length = count * width) :
    ∃ values, CodeReader.repeatN read count acc ⟨offset, bytes ++ rest⟩ =
      .ok (values, ⟨offset + count * width, rest⟩) ∧ values.length = acc.length + count := by
  induction count generalizing acc offset bytes with
  | zero =>
    rw [Nat.zero_mul] at length
    rw [List.eq_nil_of_length_eq_zero length, Nat.zero_mul]
    exact ⟨acc.reverse, rfl, by simp⟩
  | succ count ih =>
    rw [Nat.succ_mul] at length
    obtain ⟨value, run⟩ :=
      takes offset (bytes.take width) (bytes.drop width ++ rest) (by simp; omega)
    rw [← List.append_assoc, List.take_append_drop] at run
    obtain ⟨values, later, total⟩ :=
      ih (value :: acc) (offset + width) (bytes.drop width) (by simp; omega)
    refine ⟨values, ?_, by rw [total, List.length_cons]; omega⟩
    rw [CodeReader.repeatN, bind_of_ok run, later, Nat.succ_mul, Nat.add_assoc, Nat.add_comm width]

theorem require_of_le {count : Nat} {c : Cursor} (enough : count ≤ c.rest.length) :
    require count c = .ok ((), c) := by
  simp [require, Cursor.take, splitExactly_eq, enough]

theorem require_of_lt {count : Nat} {c : Cursor} (short : c.rest.length < count) :
    require count c = .error ⟨none, .truncated ⟨c.offset, count, c.rest.length⟩⟩ := by
  simp [require, Cursor.take, splitExactly_eq, Nat.not_le.mpr short, Cursor.remaining]

end CodeReader

namespace Instruction

/-- The targets of a switch. -/
def targets : Instruction → List Int
  | .tableSwitch _ _ _ targets => targets
  | .lookupSwitch _ _ targets => targets
  | _ => []

/-- The instruction is a switch, dense or sorted. -/
def isSwitch : Instruction → Bool
  | .tableSwitch _ _ _ _ => true
  | .lookupSwitch _ _ _ => true
  | _ => false

end Instruction

namespace SwitchHeader

/-- Every entry has a target of four bytes. -/
theorem Admitted.four_mul_le {h : SwitchHeader} {available count : Nat}
    (admitted : h.Admitted available) (announced : (count : Int) = h.entries) :
    count * 4 ≤ available := by
  obtain ⟨-, room⟩ := admitted
  have same : h.entries.toNat = count := by omega
  rw [same] at room
  cases h <;> simp only [width] at room <;> omega

/-- What the decoder does once it has found room for the entries of a switch at `pc`. -/
def readEntries (pc : Nat) : SwitchHeader → CodeReader Instruction
  | .table otherwise low high => do
      let targets ← repeatN (signedNumber 4) (high.toInt - low.toInt + 1).toNat []
      return .tableSwitch low.toInt high.toInt (pc + otherwise.toInt) (targets.map (pc + ·))
  | .lookup otherwise count => do
      let pairs ← repeatN (do return (← signedNumber 4, ← signedNumber 4)) count.toInt.toNat []
      return .lookupSwitch (pc + otherwise.toInt) (pairs.map Prod.fst)
        (pairs.map fun pair => pc + pair.2)

/-- One target is read for each entry. -/
theorem readEntries_append (h : SwitchHeader) (pc offset : Nat) (bytes rest : List UInt8)
    (length : bytes.length = h.entries.toNat * h.width) :
    ∃ i, h.readEntries pc ⟨offset, bytes ++ rest⟩ = .ok (i, ⟨offset + bytes.length, rest⟩) ∧
      i.isSwitch = true ∧ i.targets.length = h.entries.toNat := by
  cases h with
  | table otherwise low high =>
    obtain ⟨values, run, count⟩ := (takes_signedNumber 4).repeatN _ [] offset bytes rest length
    refine ⟨.tableSwitch low.toInt high.toInt (pc + otherwise.toInt) (values.map (pc + ·)),
      (bind_of_ok run).trans ?_, rfl, ?_⟩
    · rw [length]
      rfl
    · simpa [Instruction.targets] using count
  | lookup otherwise count =>
    have pairs := (takes_signedNumber 4).pair (takes_signedNumber 4)
    obtain ⟨values, run, counted⟩ := pairs.repeatN _ [] offset bytes rest length
    refine ⟨.lookupSwitch (pc + otherwise.toInt) (values.map Prod.fst)
      (values.map fun pair => pc + pair.2),
      (bind_of_ok run).trans ?_, rfl, ?_⟩
    · rw [length]
      rfl
    · simpa [Instruction.targets] using counted

/-- What is left to do at a switch at `pc` once its header is read: refuse too few entries, and look
for room before any entry is read. -/
def proceed (pc : Nat) (h : SwitchHeader) : CodeReader Instruction := fun c =>
  if h.least ≤ h.entries then (require (h.entries.toNat * h.width) >>= fun _ => h.readEntries pc) c
  else .error ⟨none, h.refusal pc c.offset c.rest.length⟩

theorem readTableSwitch_append {pc : Nat} {padding : List UInt8}
    (padded : IsSwitchPadding pc padding) (otherwise low high : Int32) (offset : Nat)
    (after : List UInt8) :
    readTableSwitch pc ⟨offset, padding ++
        (fourBytes otherwise.toUInt32 ++
          (fourBytes low.toUInt32 ++ (fourBytes high.toUInt32 ++ after)))⟩ =
      proceed pc (.table otherwise low high) ⟨offset + padding.length + 4 + 4 + 4, after⟩ := by
  rw [readTableSwitch, ← isSwitchPadding_iff.mp padded, bind_of_ok (number_append ..),
    bind_of_ok (signedNumber_append ..), bind_of_ok (signedNumber_append ..),
    bind_of_ok (signedNumber_append ..), proceed]
  by_cases ordered : low.toInt ≤ high.toInt
  · have enough : least (.table otherwise low high) ≤ entries (.table otherwise low high) := by
      simp only [least, entries]
      omega
    rw [if_neg (by omega), if_pos enough]
    rfl
  · have few : ¬ least (.table otherwise low high) ≤ entries (.table otherwise low high) := by
      simp only [least, entries]
      omega
    rw [if_pos (by omega), if_neg few, refusal, if_neg few]
    rfl

theorem readLookupSwitch_append {pc : Nat} {padding : List UInt8}
    (padded : IsSwitchPadding pc padding) (otherwise count : Int32) (offset : Nat)
    (after : List UInt8) :
    readLookupSwitch pc ⟨offset, padding ++
        (fourBytes otherwise.toUInt32 ++ (fourBytes count.toUInt32 ++ after))⟩ =
      proceed pc (.lookup otherwise count) ⟨offset + padding.length + 4 + 4, after⟩ := by
  rw [readLookupSwitch, ← isSwitchPadding_iff.mp padded, bind_of_ok (number_append ..),
    bind_of_ok (signedNumber_append ..), bind_of_ok (signedNumber_append ..), proceed]
  by_cases counted : 0 ≤ count.toInt
  · have enough : least (.lookup otherwise count) ≤ entries (.lookup otherwise count) := counted
    rw [if_neg (by omega), if_pos enough]
    rfl
  · have few : ¬ least (.lookup otherwise count) ≤ entries (.lookup otherwise count) := counted
    rw [if_pos (by omega), if_neg few, refusal, if_neg few]
    rfl

/-- The decoder reads a header of either kind and goes on behind it. -/
theorem decode_header (pool : ConstantPool) (h : SwitchHeader) {pc : Nat} {padding : List UInt8}
    (padded : IsSwitchPadding pc padding) (after : List UInt8) :
    Instruction.decode pool ⟨pc, h.encode padding ++ after⟩ =
      h.proceed pc ⟨pc + (h.encode padding).length, after⟩ := by
  cases h with
  | table otherwise low high =>
    have size : pc + (encode padding (.table otherwise low high)).length =
        pc + 1 + padding.length + 4 + 4 + 4 := by
      simp only [encode, List.length_cons, List.length_append, length_fourBytes]
      omega
    rw [size, ← readTableSwitch_append padded]
    simp only [encode, List.cons_append, List.append_assoc]
    rfl
  | lookup otherwise count =>
    have size : pc + (encode padding (.lookup otherwise count)).length =
        pc + 1 + padding.length + 4 + 4 := by
      simp only [encode, List.length_cons, List.length_append, length_fourBytes]
      omega
    rw [size, ← readLookupSwitch_append padded]
    simp only [encode, List.cons_append, List.append_assoc]
    rfl

/-- Where there is room, there is a target for each entry. -/
theorem decode_admitted (pool : ConstantPool) {h : SwitchHeader} {pc : Nat}
    {padding after : List UInt8} (padded : IsSwitchPadding pc padding)
    (admitted : h.Admitted after.length) :
    ∃ i bytes rest, after = bytes ++ rest ∧
      Instruction.Encoding pool pc (h.encode padding ++ bytes) i ∧
      i.isSwitch = true ∧ (i.targets.length : Int) = h.entries := by
  obtain ⟨enough, room⟩ := admitted
  obtain ⟨bytes, rest, rfl, length⟩ : ∃ bytes rest, after = bytes ++ rest ∧
      bytes.length = h.entries.toNat * h.width :=
    ⟨_, _, (List.take_append_drop (h.entries.toNat * h.width) after).symm,
      List.length_take_of_le room⟩
  obtain ⟨i, run, switch, count⟩ :=
    h.readEntries_append pc (pc + (h.encode padding).length) bytes rest length
  have decoded := h.decode_header pool padded (bytes ++ rest)
  rw [proceed, if_pos enough, bind_of_ok (require_of_le room), run] at decoded
  obtain ⟨taken, encoded, whole, -⟩ := (accepts_decode pool).mp decoded
  -- what the decoder took is what stands before the rest
  have same : h.encode padding ++ bytes = taken :=
    List.append_cancel_right ((List.append_assoc ..).trans whole)
  have notNegative := h.least_nonneg
  exact ⟨i, bytes, rest, rfl, same ▸ encoded, switch, by omega⟩

/-- Where there is none, the header is all that is read. -/
theorem decode_refused (pool : ConstantPool) {h : SwitchHeader} {pc : Nat}
    {padding after : List UInt8} (padded : IsSwitchPadding pc padding)
    (refused : ¬ h.Admitted after.length) :
    Instruction.decode pool ⟨pc, h.encode padding ++ after⟩ =
      .error ⟨none, h.refusal pc (pc + (h.encode padding).length) after.length⟩ := by
  rw [h.decode_header pool padded, proceed]
  by_cases enough : h.least ≤ h.entries
  · have short : after.length < h.entries.toNat * h.width :=
      Nat.lt_of_not_le fun room => refused ⟨enough, room⟩
    unfold refusal
    rw [if_pos enough, if_pos enough, bind_of_error (require_of_lt short)]
  · rw [if_neg enough]

end SwitchHeader

/-! ## Switches along the walk -/

namespace Instruction

/-- The walk keeps what it has. -/
theorem exists_later (pool : ConstantPool) (c : Cursor) (done : Array Instruction) :
    ∃ later, (decodeFrom pool c done).instructions = done.toList ++ later := by
  induction c, done using decodeFrom.induct pool with
  | case1 c done ended =>
    rw [decodeFrom, if_pos ended]
    exact ⟨[], (List.append_nil _).symm⟩
  | case2 c done someLeft i d step ih =>
    obtain ⟨later, kept⟩ := ih
    obtain ⟨bytes, encoded, whole, moved⟩ := (accepts_decode pool).mp step
    obtain ⟨offset, rest⟩ := c
    obtain ⟨offset', rest'⟩ := d
    obtain rfl : rest = bytes ++ rest' := whole
    obtain rfl : offset' = offset + bytes.length := moved
    rw [decodeFrom_encoding encoded, kept]
    exact ⟨i :: later, by simp⟩
  | case3 c done someLeft fault step =>
    -- `decodeFrom` matches with an equation in hand, so the match is split and the impossible case
    -- refuted
    rw [decodeFrom, if_neg someLeft]
    split
    · next i d run =>
      rw [step] at run
      cases run
    · exact ⟨_, rfl⟩

/-- An instruction of a sequence stands behind a shorter sequence. -/
theorem Sequence.exists_front_of_mem {pool : ConstantPool} {pc : Nat} {code : List UInt8}
    {is : List Instruction} (encoded : Sequence pool pc code is) {i : Instruction}
    (member : i ∈ is) :
    ∃ front bytes back before, code = front ++ (bytes ++ back) ∧ Sequence pool pc front before ∧
      Encoding pool (pc + front.length) bytes i := by
  induction encoded with
  | nil pc => cases member
  | @cons pc head tail first rest here _ ih =>
    rcases List.mem_cons.mp member with rfl | later
    · exact ⟨[], head, tail, [], rfl, .nil pc, here⟩
    · obtain ⟨front, bytes, back, before, rfl, sequence, found⟩ := ih later
      refine ⟨head ++ front, bytes, back, first :: before, (List.append_assoc ..).symm,
        .cons here sequence, ?_⟩
      rwa [List.length_append, ← Nat.add_assoc]

theorem CutOff.isSwitch_eq {pc : Nat} {left : List UInt8} {i : Instruction}
    (cut : CutOff pc left i) :
    i.isSwitch = false := by
  obtain ⟨-, operands⟩ := cut
  cases operands <;> rfl

/-- A switch is encoded as a header and its entries. -/
theorem Encoding.exists_header {pool : ConstantPool} {pc : Nat} {bytes : List UInt8}
    {i : Instruction} (encoded : Encoding pool pc bytes i) (switch : i.isSwitch = true) :
    ∃ (h : SwitchHeader) (padding entries : List UInt8), bytes = h.encode padding ++ entries ∧
      IsSwitchPadding pc padding ∧ (i.targets.length : Int) = h.entries ∧
      h.Admitted entries.length := by
  obtain ⟨layout, operands⟩ := encoded
  cases operands with
  | @tableSwitch padding otherwise low high offsets padded ordered dense =>
    obtain rfl : _ = (0xaa : UInt8) := UInt8.toNat_inj.mp layout
    refine ⟨.table otherwise low high, padding,
      offsets.flatMap fun offset => fourBytes offset.toUInt32,
      by simp [SwitchHeader.encode], padded, by
        simpa [targets, SwitchHeader.entries] using dense, ?_, ?_⟩
    · simp only [SwitchHeader.least, SwitchHeader.entries]
      omega
    · simp only [SwitchHeader.entries, SwitchHeader.width, length_switchOffsets]
      omega
  | @lookupSwitch padding otherwise count pairs padded counted =>
    obtain rfl : _ = (0xab : UInt8) := UInt8.toNat_inj.mp layout
    refine ⟨.lookup otherwise count, padding,
      pairs.flatMap fun pair => fourBytes pair.1.toUInt32 ++ fourBytes pair.2.toUInt32,
      by simp [SwitchHeader.encode], padded, by
        simpa [targets, SwitchHeader.entries] using counted.symm, ?_, ?_⟩
    · simp only [SwitchHeader.least, SwitchHeader.entries]
      omega
    · simp only [SwitchHeader.entries, SwitchHeader.width, length_switchPairs]
      omega
  | _ => cases switch

/-- The walk has reached the header of a switch: `front` holds the instructions before it, `after`
is what follows. -/
structure AtSwitch (pool : ConstantPool) (code : List UInt8) (before : List Instruction)
    (h : SwitchHeader) (front padding after : List UInt8) : Prop where
  whole : code = front ++ (h.encode padding ++ after)
  before : Sequence pool 0 front before
  padded : IsSwitchPadding front.length padding

section

variable {pool : ConstantPool} {code front padding after : List UInt8} {before : List Instruction}
  {h : SwitchHeader}

/-- Where there is room the switch is reported, with a target for each entry. -/
theorem AtSwitch.admitted (reached : AtSwitch pool code before h front padding after)
    (room : h.Admitted after.length) :
    ∃ i later, (decodeAll pool code).instructions = before ++ i :: later ∧ i.isSwitch = true ∧
      (i.targets.length : Int) = h.entries := by
  obtain ⟨rfl, sequence, padded⟩ := reached
  obtain ⟨i, bytes, rest, rfl, encoded, switch, count⟩ := h.decode_admitted pool padded room
  obtain ⟨later, kept⟩ :=
    exists_later pool ⟨front.length + (h.encode padding ++ bytes).length, rest⟩
    (before.toArray.push i)
  refine ⟨i, later, ?_, switch, count⟩
  unfold decodeAll
  rw [Cursor.ofList, decodeFrom_sequence sequence, Nat.zero_add,
    Array.empty_append, ← List.append_assoc, decodeFrom_encoding encoded, kept]
  simp

/-- Where there is none the walk ends at the header. -/
theorem AtSwitch.refused (reached : AtSwitch pool code before h front padding after)
    (noRoom : ¬ h.Admitted after.length) :
    decodeAll pool code = ⟨before, some (h.refusal front.length
      (front.length + (h.encode padding).length) after.length)⟩ := by
  obtain ⟨rfl, sequence, padded⟩ := reached
  have failed := h.decode_refused pool padded noRoom
  have someLeft : ¬ (h.encode padding ++ after).isEmpty = true := by
    cases h <;> simp [SwitchHeader.encode]
  unfold decodeAll
  rw [Cursor.ofList, decodeFrom_sequence sequence, Nat.zero_add, Array.empty_append,
    decodeFrom, if_neg someLeft]
  split
  · next i d run =>
    rw [failed] at run
    cases run
  · next fault run =>
    rw [failed] at run
    cases run
    simp

end

/-- Every switch that is reported stands behind a header that was admitted, also in code that cannot
be decoded to its end. -/
theorem exists_header_of_mem {pool : ConstantPool} {code : List UInt8} {i : Instruction}
    (member : i ∈ (decodeAll pool code).instructions) (switch : i.isSwitch = true) :
    ∃ before h front padding after, AtSwitch pool code before h front padding after ∧
      h.Admitted after.length ∧
      (i.targets.length : Int) = h.entries := by
  obtain ⟨walked, rest, is, rfl, sequence, final⟩ := exists_front pool 0 code
  -- an instruction that is cut off is not a switch, so the switch is one of the sequence
  have among : i ∈ is := by
    rcases final with rfl | stuck
    · rwa [List.append_nil, decodeAll_sequence sequence] at member
    · rw [Nat.zero_add] at stuck
      obtain ⟨cut, described, error, walk⟩ := decodeAll_stuck sequence stuck
      rw [walk] at member
      rcases List.mem_append.mp member with among | last
      · exact among
      · have cutOff := (described i).mp (Option.mem_toList.mp last)
        rw [cutOff.isSwitch_eq] at switch
        cases switch
  obtain ⟨front, bytes, back, before, rfl, earlier, encoded⟩ := sequence.exists_front_of_mem among
  rw [Nat.zero_add] at encoded
  obtain ⟨h, padding, entries, rfl, padded, count, enough, room⟩ := encoded.exists_header switch
  refine ⟨before, h, front, padding, entries ++ (back ++ rest),
    ⟨by simp, earlier, padded⟩, ⟨enough, ?_⟩, count⟩
  rw [List.length_append]
  omega

end Instruction

end JarMetrics
