import JarMetrics.Bytes.Cursor

/-!
# Numbers and their bytes

`toBigEndian` and `bigEndian` are inverse to each other: a list of `n` bytes is the big-endian form
of the number it spells (`toBigEndian_bigEndian`), and writing a number in `n` bytes keeps its
remainder modulo `256 ^ n` (`bigEndian_toBigEndian`). Reading the unsigned form of a machine integer
as a signed number gives back its value (`signed_toUInt8`, `signed_toUInt16`, `signed_toUInt32`).
`Spells` says both at once for each kind of number that is read.
-/

namespace JarMetrics

/-! ## Digits -/

theorem bigEndian_nil : bigEndian [] = 0 := rfl

theorem bigEndian_concat (bytes : List UInt8) (last : UInt8) :
    bigEndian (bytes ++ [last]) = bigEndian bytes * 256 + last.toNat := by
  unfold bigEndian
  rw [List.foldl_append]
  rfl

@[simp] theorem bigEndian_singleton (byte : UInt8) : bigEndian [byte] = byte.toNat := by
  rw [← List.nil_append [byte], bigEndian_concat, bigEndian_nil]
  omega

@[simp] theorem toBigEndian_zero (value : Nat) : toBigEndian 0 value = [] := rfl

/-- The last byte is the low digit, and the bytes in front spell the quotient. -/
theorem toBigEndian_succ (count value : Nat) :
    toBigEndian (count + 1) value = toBigEndian count (value / 256) ++ [UInt8.ofNat value] := by
  unfold toBigEndian
  rw [List.range_succ_eq_map, List.reverse_cons, List.map_append, ← List.map_reverse, List.map_map]
  congr 1
  · -- place k + 1 of a number is place k of its quotient
    refine List.map_congr_left fun place _ => ?_
    show UInt8.ofNat (value / Nat.pow 256 (place + 1)) =
      UInt8.ofNat (value / 256 / Nat.pow 256 place)
    rw [show Nat.pow 256 (place + 1) = 256 * Nat.pow 256 place from Nat.pow_succ',
      Nat.div_div_eq_div_mul]
  · show [UInt8.ofNat (value / 1)] = [UInt8.ofNat value]
    rw [Nat.div_one]

@[simp] theorem length_toBigEndian (count value : Nat) :
    (toBigEndian count value).length = count := by
  unfold toBigEndian
  rw [List.length_map, List.length_reverse, List.length_range]

/-- Bytes are the big-endian form of the number they spell. -/
theorem toBigEndian_bigEndian {count : Nat} {bytes : List UInt8} (length : bytes.length = count) :
    toBigEndian count (bigEndian bytes) = bytes := by
  induction count generalizing bytes with
  | zero => rw [List.eq_nil_of_length_eq_zero length, toBigEndian_zero]
  | succ count ih =>
    -- from the right, where the low digit stands
    rcases List.eq_nil_or_concat bytes with rfl | ⟨front, last, rfl⟩
    · exact absurd length (by simp)
    · rw [List.concat_eq_append] at length ⊢
      have frontLength : front.length = count := by simpa using length
      have low := last.toNat_lt
      have quotient : (bigEndian front * 256 + last.toNat) / 256 = bigEndian front := by omega
      have digit : UInt8.ofNat (bigEndian front * 256 + last.toNat) = last := by
        apply UInt8.toNat_inj.mp
        rw [UInt8.toNat_ofNat']
        omega
      rw [bigEndian_concat, toBigEndian_succ, quotient, digit, ih frontLength]

/-- Writing a number in `count` bytes keeps it modulo `256 ^ count`. -/
theorem bigEndian_toBigEndian (count value : Nat) :
    bigEndian (toBigEndian count value) = value % Nat.pow 256 count := by
  induction count generalizing value with
  | zero => exact (Nat.mod_one value).symm
  | succ count ih =>
    rw [toBigEndian_succ, bigEndian_concat, ih,
      show Nat.pow 256 (count + 1) = 256 * Nat.pow 256 count from Nat.pow_succ', Nat.mod_mul,
      UInt8.toNat_ofNat']
    omega

/-- A number that fits is read back from its bytes. -/
theorem bigEndian_toBigEndian_of_lt {count value : Nat} (fits : value < Nat.pow 256 count) :
    bigEndian (toBigEndian count value) = value := by
  rw [bigEndian_toBigEndian, Nat.mod_eq_of_lt fits]

theorem bigEndian_lt {count : Nat} {bytes : List UInt8} (length : bytes.length = count) :
    bigEndian bytes < Nat.pow 256 count := by
  rw [← toBigEndian_bigEndian length, bigEndian_toBigEndian]
  exact Nat.mod_lt _ (Nat.pow_pos (by omega))

/-! ## Machine integers -/

/-- The bytes of a 16-bit number. -/
def twoBytes (value : UInt16) : List UInt8 := toBigEndian 2 value.toNat

/-- The bytes of a 32-bit number. -/
def fourBytes (value : UInt32) : List UInt8 := toBigEndian 4 value.toNat

/-- The bytes of a 64-bit number. -/
def eightBytes (value : UInt64) : List UInt8 := toBigEndian 8 value.toNat

@[simp] theorem length_twoBytes (value : UInt16) : (twoBytes value).length = 2 :=
  length_toBigEndian 2 _

@[simp] theorem length_fourBytes (value : UInt32) : (fourBytes value).length = 4 :=
  length_toBigEndian 4 _

@[simp] theorem bigEndian_twoBytes (value : UInt16) : bigEndian (twoBytes value) = value.toNat :=
  bigEndian_toBigEndian_of_lt value.toNat_lt

@[simp] theorem bigEndian_fourBytes (value : UInt32) : bigEndian (fourBytes value) = value.toNat :=
  bigEndian_toBigEndian_of_lt value.toNat_lt

/-- One byte spells an 8-bit number. -/
theorem length_one_iff {bytes : List UInt8} : bytes.length = 1 ↔ ∃ value : UInt8, bytes = [value] :=
  List.length_eq_one_iff

/-- Bytes spell a number of a type that has one for each value of as many bytes. -/
theorem length_eq_iff_exists {α : Type} (count : Nat) (toNat : α → Nat)
    (onto : ∀ n, n < Nat.pow 256 count → ∃ value, toNat value = n) {bytes : List UInt8} :
    bytes.length = count ↔ ∃ value, bytes = toBigEndian count (toNat value) := by
  constructor
  · intro length
    obtain ⟨value, spelled⟩ := onto _ (bigEndian_lt length)
    exact ⟨value, by rw [spelled, toBigEndian_bigEndian length]⟩
  · rintro ⟨value, rfl⟩
    exact length_toBigEndian count _

/-- Two bytes spell a 16-bit number. -/
theorem length_two_iff {bytes : List UInt8} :
    bytes.length = 2 ↔ ∃ value : UInt16, bytes = twoBytes value :=
  length_eq_iff_exists 2 UInt16.toNat fun n small =>
    ⟨UInt16.ofNat n, UInt16.toNat_ofNat_of_lt small⟩

/-- Four bytes spell a 32-bit number. -/
theorem length_four_iff {bytes : List UInt8} :
    bytes.length = 4 ↔ ∃ value : UInt32, bytes = fourBytes value :=
  length_eq_iff_exists 4 UInt32.toNat fun n small =>
    ⟨UInt32.ofNat n, UInt32.toNat_ofNat_of_lt small⟩

/-- Eight bytes spell a 64-bit number. -/
theorem length_eight_iff {bytes : List UInt8} :
    bytes.length = 8 ↔ ∃ value : UInt64, bytes = eightBytes value :=
  length_eq_iff_exists 8 UInt64.toNat fun n small =>
    ⟨UInt64.ofNat n, UInt64.toNat_ofNat_of_lt small⟩

@[simp] theorem signed_toUInt8 (value : Int8) : signed 8 value.toUInt8.toNat = value.toInt :=
  (BitVec.toInt_eq_toNat_bmod value.toBitVec).symm

@[simp] theorem signed_toUInt16 (value : Int16) : signed 16 value.toUInt16.toNat = value.toInt :=
  (BitVec.toInt_eq_toNat_bmod value.toBitVec).symm

@[simp] theorem signed_toUInt32 (value : Int32) : signed 32 value.toUInt32.toNat = value.toInt :=
  (BitVec.toInt_eq_toNat_bmod value.toBitVec).symm

@[simp] theorem signed_zero (width : Nat) : signed width 0 = 0 := by
  unfold signed
  simp

/-! ## Spelled numbers -/

/-- The strings of `width` bytes are the encodings, and `read` makes of the number that an encoding
spells what the encoded thing means. -/
structure Spells {α β : Type} (width : Nat) (encode : α → List UInt8) (read : Nat → β)
    (meaning : α → β) :
    Prop where
  onto : ∀ bytes : List UInt8, bytes.length = width ↔ ∃ x, bytes = encode x
  value : ∀ x, read (bigEndian (encode x)) = meaning x

/-- To have `width` bytes and use the number they spell is to have an encoding and use what it
means. -/
theorem Spells.exists_iff {α β γ : Type} {width : Nat} {encode : α → List UInt8} {read : Nat → β}
    {meaning : α → β} (spells : Spells width encode read meaning) (build : β → γ)
    {bytes : List UInt8} {found : γ} :
    bytes.length = width ∧ found = build (read (bigEndian bytes)) ↔
      ∃ x, bytes = encode x ∧ found = build (meaning x) := by
  rw [spells.onto]
  constructor
  · rintro ⟨⟨x, rfl⟩, rfl⟩
    exact ⟨x, rfl, by rw [spells.value]⟩
  · rintro ⟨x, rfl, rfl⟩
    exact ⟨⟨x, rfl⟩, by rw [spells.value]⟩

/-- Another type whose values are encoded as those of the first. -/
theorem Spells.retype {α β γ δ : Type} {width : Nat} {encode : α → List UInt8} {read : Nat → β}
    {meaning : α → β} (spells : Spells width encode read meaning) {recast : γ → α}
    (reached : ∀ x, ∃ y, recast y = x) {reread : Nat → δ} {remeaning : γ → δ}
    (value : ∀ y, reread (bigEndian (encode (recast y))) = remeaning y) :
    Spells width (fun y => encode (recast y)) reread remeaning where
  onto bytes := by
    rw [spells.onto]
    constructor
    · rintro ⟨x, rfl⟩
      obtain ⟨y, rfl⟩ := reached x
      exact ⟨y, rfl⟩
    · rintro ⟨y, rfl⟩
      exact ⟨recast y, rfl⟩
  value := value

theorem spells_uint8 : Spells 1 (fun n : UInt8 => [n]) (fun value => value) UInt8.toNat where
  onto _ := length_one_iff
  value := bigEndian_singleton

theorem spells_uint16 : Spells 2 twoBytes (fun value => value) UInt16.toNat where
  onto _ := length_two_iff
  value := bigEndian_twoBytes

theorem spells_uint32 : Spells 4 fourBytes (fun value => value) UInt32.toNat where
  onto _ := length_four_iff
  value := bigEndian_fourBytes

theorem spells_int8 : Spells 1 (fun n : Int8 => [n.toUInt8]) (signed 8) Int8.toInt := by
  refine spells_uint8.retype (fun x => ⟨x.toInt8, UInt8.toUInt8_toInt8 x⟩) fun n => ?_
  rw [bigEndian_singleton, signed_toUInt8]

theorem spells_int16 : Spells 2 (fun n : Int16 => twoBytes n.toUInt16) (signed 16) Int16.toInt := by
  refine spells_uint16.retype (fun x => ⟨x.toInt16, UInt16.toUInt16_toInt16 x⟩) fun n => ?_
  rw [bigEndian_twoBytes, signed_toUInt16]

theorem spells_int32 :
    Spells 4 (fun n : Int32 => fourBytes n.toUInt32) (signed 32) Int32.toInt := by
  refine spells_uint32.retype (fun x => ⟨x.toInt32, UInt32.toUInt32_toInt32 x⟩) fun n => ?_
  rw [bigEndian_fourBytes, signed_toUInt32]

end JarMetrics
