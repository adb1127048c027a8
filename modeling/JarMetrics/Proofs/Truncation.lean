import JarMetrics.ClassFile.Parser
import JarMetrics.Proofs.Grammar

/-!
# Truncated class files

A class file says itself where it ends. `parse_truncation`: when parsing succeeds, there is a number
of bytes that it takes; every shorter front of the data fails because the data ended too early, and
for no other reason, while whatever stands behind those bytes makes no difference.

`Takes` says this of one run of a reader and `SelfDelimiting` of all its runs. A cut falls into one
of two readers that follow each other: into the first, which then fails, or into the second, after
the first has done what it did on the whole data (`Takes.bind`). So the property goes through every
reader that is put together from `Reader.take` and from look-ups, which take no bytes and cannot be
cut.
-/

namespace JarMetrics.ClassFile

/-- Run at `offset`, the reader takes exactly `bytes` and returns `value`, whatever follows them;
when some of the bytes are missing it fails with a truncation. -/
structure Takes {α : Type} (read : Reader α) (offset : Nat) (bytes : List UInt8) (value : α) :
    Prop where
  whole : ∀ tail, read ⟨offset, bytes ++ tail⟩ = .ok (value, ⟨offset + bytes.length, tail⟩)
  cut : ∀ left missing, bytes = left ++ missing → missing ≠ [] →
    ∃ error, read ⟨offset, left⟩ = .error error ∧ error.isTruncation = true

/-- Wherever the reader succeeds, it takes some bytes. -/
def SelfDelimiting {α : Type} (read : Reader α) : Prop :=
  ∀ c value d, read c = .ok (value, d) → ∃ bytes, c.rest = bytes ++ d.rest ∧
    Takes read c.offset bytes value

/-! ## One run -/

section

variable {α β : Type} {offset : Nat}

/-- What takes no bytes cannot be cut. -/
theorem Takes.of_nothing {read : Reader α} {value : α}
    (run : ∀ tail, read ⟨offset, tail⟩ = .ok (value, ⟨offset, tail⟩)) :
    Takes read offset [] value where
  whole := run
  cut left missing split someMissing := by
    have noneMissing := (List.append_eq_nil_iff.mp split.symm).2
    exact absurd noneMissing someMissing

theorem Takes.bind {first : Reader α} {next : α → Reader β} {front back : List UInt8} {middle : α}
    {value : β} (hfirst : Takes first offset front middle)
    (hnext : Takes (next middle) (offset + front.length) back value) :
    Takes (first >>= next) offset (front ++ back) value where
  whole tail := by
    show (first ⟨offset, front ++ back ++ tail⟩ >>= fun p => next p.1 p.2) = _
    rw [List.append_assoc, hfirst.whole]
    show next middle ⟨offset + front.length, back ++ tail⟩ = _
    rw [hnext.whole, List.length_append, Nat.add_assoc]
  cut left missing split someMissing := by
    show ∃ error, (first ⟨offset, left⟩ >>= fun p => next p.1 p.2) = .error error ∧ _
    rcases List.append_eq_append_iff.mp split with ⟨taken, rfl, behind⟩ | ⟨lost, inside, rfl⟩
    · -- the first reader finds all its bytes, and the cut is in what the second one takes
      rw [hfirst.whole]
      exact hnext.cut taken missing behind someMissing
    · by_cases noneLost : lost = []
      · -- the cut is right between the two readers
        subst noneLost
        simp only [List.append_nil, List.nil_append] at inside someMissing
        subst inside
        have start := hfirst.whole []
        rw [List.append_nil] at start
        rw [start]
        exact hnext.cut [] back rfl someMissing
      · obtain ⟨error, failed, truncated⟩ := hfirst.cut left lost inside noneLost
        rw [failed]
        exact ⟨error, rfl, truncated⟩

/-- Naming the place of an error does not change its cause. -/
theorem Takes.inPlace {read : Reader α} {bytes : List UInt8} {value : α}
    (takes : Takes read offset bytes value) (place : Place) :
    Takes (Reader.inPlace place read) offset bytes value where
  whole tail := by
    show ClassFile.inPlace place (read _) = _
    rw [takes.whole]
    rfl
  cut left missing split someMissing := by
    obtain ⟨error, failed, truncated⟩ := takes.cut left missing split someMissing
    refine ⟨.within place error, ?_, truncated⟩
    show ClassFile.inPlace place (read _) = _
    rw [failed]
    rfl

theorem takes_take {count : Nat} {bytes : List UInt8} (length : bytes.length = count) :
    Takes (Reader.take count) offset bytes bytes where
  whole tail := by
    have taken : Cursor.take count ⟨offset, bytes ++ tail⟩ = .ok (bytes, ⟨offset + count, tail⟩) :=
      Cursor.take_eq_ok_iff.mpr ⟨rfl, length, rfl⟩
    unfold Reader.take
    rw [taken, length]
    rfl
  cut left missing split someMissing := by
    have short : ¬ count ≤ left.length := by
      have someLength := List.length_pos_iff.mpr someMissing
      rw [← length, split, List.length_append]
      omega
    have failed : Cursor.take count ⟨offset, left⟩ = .error ⟨offset, count, left.length⟩ := by
      simp [Cursor.take, splitExactly_eq, short, Cursor.remaining]
    unfold Reader.take
    rw [failed]
    exact ⟨_, rfl, rfl⟩

end

/-! ## All runs -/

namespace SelfDelimiting

variable {α β : Type}

theorem pure (value : α) : SelfDelimiting (pure value : Reader α) := by
  intro c found d run
  cases run
  exact ⟨[], rfl, .of_nothing fun tail => rfl⟩

theorem throw (error : Error) : SelfDelimiting (throw error : Reader α) := by
  intro c value d run
  cases run

/-- An outcome that was decided elsewhere takes no bytes. -/
theorem lift (found : Except Error α) : SelfDelimiting (liftM found : Reader α) := by
  cases found with
  | error error =>
    intro c value d run
    cases run
  | ok value => exact pure value

theorem bind {first : Reader α} {next : α → Reader β} (hfirst : SelfDelimiting first)
    (hnext : ∀ value, SelfDelimiting (next value)) : SelfDelimiting (first >>= next) := by
  intro c value d run
  obtain ⟨middle, m, before, after⟩ := bind_eq_ok_iff.mp run
  obtain ⟨front, rest, takes⟩ := hfirst c middle m before
  obtain ⟨back, rest', takes'⟩ := hnext middle m value d after
  -- the second reader starts where the first one stopped
  have start : m = ⟨c.offset + front.length, m.rest⟩ := by
    have again := takes.whole m.rest
    rw [← rest] at again
    exact congrArg Prod.snd (Except.ok.inj (before.symm.trans again))
  refine ⟨front ++ back, by rw [rest, rest', List.append_assoc], takes.bind ?_⟩
  rw [start] at takes'
  exact takes'

theorem ite {p : Prop} [Decidable p] {yes no : Reader α} (hyes : SelfDelimiting yes)
    (hno : SelfDelimiting no) :
    SelfDelimiting (if p then yes else no) := by
  split
  · exact hyes
  · exact hno

theorem inPlace {read : Reader α} (h : SelfDelimiting read) (place : Place) :
    SelfDelimiting (Reader.inPlace place read) := by
  intro c value d run
  have inner : read c = .ok (value, d) := by
    change ClassFile.inPlace place (read c) = _ at run
    cases h : read c with
    | error error =>
      rw [h] at run
      cases run
    | ok pair =>
      rw [h] at run
      cases run
      rfl
  obtain ⟨bytes, rest, takes⟩ := h c value d inner
  exact ⟨bytes, rest, takes.inPlace place⟩

theorem take (count : Nat) : SelfDelimiting (Reader.take count) := by
  intro c value d run
  cases taken : c.take count with
  | error error =>
    simp only [Reader.take, taken] at run
    cases run
  | ok pair =>
    simp only [Reader.take, taken] at run
    cases run
    obtain ⟨rest, length, -⟩ := Cursor.take_eq_ok_iff.mp taken
    exact ⟨value, rest, takes_take length⟩

theorem skip (count : Nat) : SelfDelimiting (Reader.skip count) :=
  (take count).bind fun _ => pure _

theorem number (count : Nat) : SelfDelimiting (Reader.number count) :=
  (take count).bind fun _ => pure _

theorem u1 : SelfDelimiting Reader.u1 :=
  (number 1).bind fun _ => pure _

theorem u2 : SelfDelimiting Reader.u2 :=
  (number 2).bind fun _ => pure _

theorem repeatN {read : Nat → Reader α} (h : ∀ position, SelfDelimiting (read position))
    (count : Nat) :
    SelfDelimiting (Reader.repeatN read count) := by
  have walk : ∀ left position done, SelfDelimiting (Reader.repeatN.go read left position done) := by
    intro left
    induction left with
    | zero => exact fun position done => pure _
    | succ left ih => exact fun position done => (h position).bind fun item => ih _ _
  exact walk count 0 []

theorem counted {read : Nat → Reader α} (h : ∀ position, SelfDelimiting (read position)) :
    SelfDelimiting (Reader.counted read) :=
  (number 2).bind fun count => repeatN h count

end SelfDelimiting

/-! ## The readers of a class file -/

open SelfDelimiting

theorem selfDelimiting_readPayload (index : Nat) (tag : UInt8) :
    SelfDelimiting (readPayload index tag) := by
  unfold readPayload
  split
  case h_1 => exact (number 2).bind fun count => (take count).bind fun _ => .pure _
  case h_2 | h_3 => exact (skip 4).bind fun _ => .pure _
  case h_4 | h_5 => exact (skip 8).bind fun _ => .pure _
  case h_6 | h_7 | h_13 | h_16 | h_17 => exact u2.bind fun _ => .pure _
  case h_8 | h_9 | h_10 | h_11 | h_14 | h_15 => exact u2.bind fun _ => u2.bind fun _ => .pure _
  case h_12 => exact (skip 1).bind fun _ => u2.bind fun _ => .pure _
  case h_18 => exact .throw _

theorem selfDelimiting_readConstant (index : Nat) : SelfDelimiting (readConstant index) :=
  u1.bind fun tag => selfDelimiting_readPayload index tag

theorem selfDelimiting_readSlots (left : Nat) (slots : Array Constant) :
    SelfDelimiting (readSlots left slots) := by
  -- strong induction, since a wide entry takes two slots at once
  induction left using Nat.strongRecOn generalizing slots with
  | _ left ih =>
    match left with
    | 0 => exact .pure slots
    | 1 =>
      exact (selfDelimiting_readConstant _).bind fun constant =>
        .ite (.pure _) (ih 0 (by omega) _)
    | left + 2 =>
      exact (selfDelimiting_readConstant _).bind fun constant =>
        .ite (ih left (by omega) _) (ih (left + 1) (by omega) _)

theorem selfDelimiting_readPool : SelfDelimiting readPool := by
  refine (number 2).bind fun count => ?_
  cases count with
  | zero => exact .throw _
  | succ left => exact (selfDelimiting_readSlots left _).bind fun _ => .pure _

theorem selfDelimiting_readAttribute : SelfDelimiting readAttribute :=
  u2.bind fun _ => (number 4).bind fun length => (take length).bind fun _ => .pure _

theorem selfDelimiting_skipAttribute : SelfDelimiting skipAttribute :=
  (skip 2).bind fun _ => (number 4).bind skip

theorem selfDelimiting_readMemberHead (pool : ConstantPool) :
    SelfDelimiting (readMemberHead pool) :=
  u2.bind fun _ => u2.bind fun _ => u2.bind fun _ => (number 2).bind fun _ =>
    (lift _).bind fun _ => (lift _).bind fun _ => .pure _

theorem selfDelimiting_readField (pool : ConstantPool) : SelfDelimiting (readField pool) :=
  (selfDelimiting_readMemberHead pool).bind fun head =>
    (repeatN (fun _ => selfDelimiting_readAttribute) head.2.2.2).bind fun _ => .pure _

/-- The body of a `Code` is looked into only after all its bytes are there. -/
theorem selfDelimiting_readMethodAttribute (pool : ConstantPool) (place : Place) :
    SelfDelimiting (readMethodAttribute pool place) :=
  selfDelimiting_readAttribute.bind fun _ => (lift _).bind fun _ =>
    .ite ((lift _).bind fun _ => .pure _) (.pure _)

theorem selfDelimiting_readMethod (pool : ConstantPool) : SelfDelimiting (readMethod pool) :=
  (selfDelimiting_readMemberHead pool).bind fun head =>
    (repeatN (fun _ => selfDelimiting_readMethodAttribute pool _) head.2.2.2).bind fun _ => .pure _

theorem selfDelimiting_readInterface (pool : ConstantPool) (position : Nat) :
    SelfDelimiting (readInterface pool position) :=
  u2.bind fun _ => lift _

theorem selfDelimiting_readMagic : SelfDelimiting readMagic :=
  (number 4).bind fun _ => .ite (.throw _) (.pure _)

theorem selfDelimiting_read : SelfDelimiting read := by
  refine selfDelimiting_readMagic.bind fun _ => u2.bind fun minor => u2.bind fun major =>
    selfDelimiting_readPool.bind fun pool => u2.bind fun access => u2.bind
      fun this => u2.bind fun super =>
    (lift _).bind fun name => (lift _).bind fun superName => ?_
  exact (counted (selfDelimiting_readInterface pool)).bind fun interfaces =>
    ((counted fun _ => selfDelimiting_readField pool).inPlace .fields).bind fun fields =>
    ((counted fun _ => selfDelimiting_readMethod pool).inPlace .methods).bind fun methods =>
    ((counted fun _ => selfDelimiting_skipAttribute).inPlace .attributes).bind fun _ => .pure _

/-! ## Parsing -/

theorem parse_eq_ok_of_read {bytes : List UInt8} {file : ClassFile} {d : Cursor}
    (run : read (.ofList bytes) = .ok (file, d)) : parse bytes = .ok file := by
  show (read (.ofList bytes) >>= fun p => pure p.1) = _
  rw [run]
  rfl

theorem parse_eq_error_of_read {bytes : List UInt8} {error : Error}
    (run : read (.ofList bytes) = .error error) : parse bytes = .error error := by
  show (read (.ofList bytes) >>= fun p => pure p.1) = _
  rw [run]
  rfl

theorem exists_read_of_parse {bytes : List UInt8} {file : ClassFile}
    (parsed : parse bytes = .ok file) :
    ∃ d, read (.ofList bytes) = .ok (file, d) := by
  cases run : read (.ofList bytes) with
  | error error =>
    rw [parse_eq_error_of_read run] at parsed
    cases parsed
  | ok pair =>
    rw [parse_eq_ok_of_read run] at parsed
    cases parsed
    exact ⟨pair.2, rfl⟩

/-- When parsing succeeds, it has taken some number `k` of bytes. Of these every one is needed: the
first `j` of them alone, for any `j < k`, fail to parse, and the error is that the data ended.
Behind them anything may stand. -/
theorem parse_truncation (data : List UInt8) (file : ClassFile) (parsed : parse data = .ok file) :
    ∃ k ≤ data.length, read (.ofList data) = .ok (file, ⟨k, data.drop k⟩) ∧
      (∀ j < k, ∃ error, parse (data.take j) = .error error ∧ error.isTruncation = true) ∧
      ∀ tail, parse (data.take k ++ tail) = .ok file := by
  obtain ⟨d, run⟩ := exists_read_of_parse parsed
  obtain ⟨bytes, rest, takes⟩ := selfDelimiting_read _ _ _ run
  have split : data = bytes ++ d.rest := rest
  have behind : data.drop bytes.length = d.rest := by rw [split, List.drop_left]
  have front : data.take bytes.length = bytes := by rw [split, List.take_left]
  refine ⟨bytes.length, by simp [split], ?_, fun j short => ?_, fun tail => ?_⟩
  · have again := takes.whole d.rest
    rw [← rest] at again
    rw [behind]
    simpa [Cursor.ofList] using again
  · have left : data.take j = bytes.take j := by
      rw [split, List.take_append_of_le_length (Nat.le_of_lt short)]
    have someMissing : bytes.drop j ≠ [] := by simpa using short
    obtain ⟨error, failed, truncated⟩ :=
      takes.cut (bytes.take j) (bytes.drop j) (by simp) someMissing
    exact ⟨error, by rw [left, parse_eq_error_of_read failed], truncated⟩
  · rw [front]
    exact parse_eq_ok_of_read (takes.whole tail)

/-- A class named `A` with a long among its constants, and one byte behind the class. -/
def bareData : List UInt8 :=
  [0xca, 0xfe, 0xba, 0xbe, 0, 0, 0, 52, 0, 4, 1, 0, 1, 0x41, 7, 0, 1, 5, 0, 0, 0, 0, 0, 0, 0, 7,
    0, 0x21, 0, 2, 0, 0, 0, 0, 0, 0, 0, 0, 0, 0, 0xff]

theorem parse_truncation_bareData :
    ∃ file, parse bareData = .ok file ∧ file.name = "A" ∧
      ∃ k ≤ bareData.length, read (.ofList bareData) = .ok (file, ⟨k, bareData.drop k⟩) ∧
        (∀ j < k, ∃ error, parse (bareData.take j) = .error error ∧ error.isTruncation = true) ∧
        ∀ tail, parse (bareData.take k ++ tail) = .ok file := by
  have parsed : parse bareData =
      .ok { minor := 0, major := 52, pool := ⟨#[.unused, .utf8 "A", .classRef 1, .long]⟩,
            access := 0x21, name := "A", superName := "", interfaces := [], fields := [],
            methods := [] } := by
    rfl
  exact ⟨_, parsed, rfl, parse_truncation bareData _ parsed⟩

end JarMetrics.ClassFile
