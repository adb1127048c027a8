import JarMetrics.Bytes.Utf8
import JarMetrics.ClassFile.ModifiedUtf8

/-!
# Plain UTF-8 read as modified UTF-8

The two encodings agree on texts without supplementary characters: `ModifiedUtf8.decode_encode`
reads such a text back from its plain UTF-8 bytes. Each character takes one to three bytes, which
spell the unit of its code (`spellsUnit_encodeChar`) and are read as it, and the units of characters
are read as the characters (`Utf16.decode_flatMap_unitsOf`). Whether bytes below 0x80 are taken as
they are or read unit by unit makes no difference (`decode_eq_unitText`).
-/

namespace JarMetrics

/-- A walk with an accumulator that takes the front part of each item and leaves the back part of it
behind. -/
theorem walk_flatMap {α β γ : Type} {go : List α → List β → List β} {items : List γ}
    {front : γ → List α} {back : γ → List β} (done : ∀ acc, go [] acc = acc)
    (step : ∀ x ∈ items, ∀ rest acc, go (front x ++ rest) acc = go rest ((back x).reverse ++ acc))
    (acc : List β) :
    go (items.flatMap front) acc = (items.flatMap back).reverse ++ acc := by
  induction items generalizing acc with
  | nil => exact done acc
  | cons x items ih =>
    have later := ih fun y member => step y (List.mem_cons_of_mem _ member)
    rw [List.flatMap_cons, step x List.mem_cons_self, later, List.flatMap_cons, List.reverse_append,
      List.append_assoc]

/-! ## Characters -/

namespace Utf16

/-- The code of a character is no surrogate. -/
theorem no_surrogate (c : Char) : isHigh c.toNat = false ∧ isLow c.toNat = false := by
  have valid : c.toNat < 0xd800 ∨ (0xdfff < c.toNat ∧ c.toNat < 0x110000) := c.valid
  simp [isHigh, isLow]
  omega

theorem single_toNat (c : Char) : single c.toNat = c := by
  simp [single, no_surrogate c, Char.ofNat_toNat]

theorem decode_go_single (c : Char) (rest : List Nat) (acc : List Char) :
    decode.go (c.toNat :: rest) acc = decode.go rest (c :: acc) := by
  cases rest with
  | nil => simp [decode.go, single_toNat]
  | cons unit rest => simp [decode.go, no_surrogate c, single_toNat]

theorem decode_go_pair {c : Char} (supplementary : 0x10000 ≤ c.toNat) (rest : List Nat)
    (acc : List Char) :
    decode.go ((0xD800 + (c.toNat - 0x10000) / 0x400) ::
        (0xDC00 + (c.toNat - 0x10000) % 0x400) :: rest) acc =
      decode.go rest (c :: acc) := by
  have valid : c.toNat < 0xd800 ∨ (0xdfff < c.toNat ∧ c.toNat < 0x110000) := c.valid
  generalize both : c.toNat - 0x10000 = code
  have high : isHigh (0xD800 + code / 0x400) = true := by
    simp [isHigh]
    omega
  have low : isLow (0xDC00 + code % 0x400) = true := by
    simp [isLow]
    omega
  have value : pairValue (0xD800 + code / 0x400) (0xDC00 + code % 0x400) = c.toNat := by
    unfold pairValue
    omega
  simp [decode.go, high, low, value, Char.ofNat_toNat]

/-- The units of characters are read as the characters, supplementary ones from their surrogate
pairs. -/
theorem decode_flatMap_unitsOf (chars : List Char) : decode (chars.flatMap unitsOf) = chars := by
  have step : ∀ c ∈ chars, ∀ rest acc, decode.go (unitsOf c ++ rest) acc =
      decode.go rest ([c].reverse ++ acc) := by
    intro c _ rest acc
    unfold unitsOf
    by_cases basic : c.toNat < 0x10000
    · rw [if_pos basic]
      exact decode_go_single c rest acc
    · rw [if_neg basic]
      exact decode_go_pair (Nat.le_of_not_lt basic) rest acc
  unfold decode
  rw [walk_flatMap (fun acc => rfl) step, List.flatMap_singleton',
    List.append_nil, List.reverse_reverse]

end Utf16

namespace ModifiedUtf8

/-! ## Units -/

theorem isLead2_eq (b : UInt8) : isLead2 b = decide (0xc0 ≤ b.toNat ∧ b.toNat < 0xe0) := by
  rw [Bool.eq_iff_iff]
  simp [isLead2, UInt8.le_iff_toNat_le, UInt8.lt_iff_toNat_lt]

theorem isLead3_eq (b : UInt8) : isLead3 b = decide (0xe0 ≤ b.toNat ∧ b.toNat < 0xf0) := by
  rw [Bool.eq_iff_iff]
  simp [isLead3, UInt8.le_iff_toNat_le, UInt8.lt_iff_toNat_lt]

/-- The bytes that spell a unit: one byte below 0x80, or a lead byte with the continuation bytes
that belong to it. -/
inductive SpellsUnit : Nat → List UInt8 → Prop
  | one {a : UInt8} : a.toNat < 0x80 → SpellsUnit a.toNat [a]
  | two {a b : UInt8} : isLead2 a = true → Utf8.isContinuation b = true →
      SpellsUnit (unit2 a b) [a, b]
  | three {a b c : UInt8} : isLead3 a = true → Utf8.isContinuation b = true →
      Utf8.isContinuation c = true →
      SpellsUnit (unit3 a b c) [a, b, c]

theorem units_go_one {a : UInt8} (noLead2 : isLead2 a = false) (noLead3 : isLead3 a = false)
    (rest : List UInt8) (acc : List Nat) :
    units.go (a :: rest) acc = units.go rest (a.toNat :: acc) := by
  match rest with
  | [] => rfl
  | [b] => simp [units.go, noLead2]
  | b :: c :: rest =>
    rw [units.go]
    simp [noLead2, noLead3]

theorem units_go_two {a b : UInt8} (lead : isLead2 a = true) (rest : List UInt8) (acc : List Nat) :
    units.go (a :: b :: rest) acc = units.go rest (unit2 a b :: acc) := by
  cases rest with
  | nil => simp [units.go, lead]
  | cons c rest =>
    rw [units.go]
    simp [lead]

theorem units_go_three {a b c : UInt8} (lead : isLead3 a = true) (rest : List UInt8)
    (acc : List Nat) :
    units.go (a :: b :: c :: rest) acc = units.go rest (unit3 a b c :: acc) := by
  have noLead2 : isLead2 a = false := by
    simp [isLead2_eq, isLead3_eq] at lead ⊢
    omega
  rw [units.go]
  simp [noLead2, lead]

/-- A unit is read from the bytes that spell it, whatever follows them. -/
theorem SpellsUnit.units_go {unit : Nat} {bytes : List UInt8} (spelled : SpellsUnit unit bytes)
    (rest : List UInt8) (acc : List Nat) :
    units.go (bytes ++ rest) acc = units.go rest (unit :: acc) := by
  cases spelled with
  | @one a small =>
    have noLead2 : isLead2 a = false := by
      simp [isLead2_eq]
      omega
    have noLead3 : isLead3 a = false := by
      simp [isLead3_eq]
      omega
    exact units_go_one noLead2 noLead3 rest acc
  | two lead _ => exact units_go_two lead rest acc
  | three lead _ _ => exact units_go_three lead rest acc

theorem toNat_ofNat_byte {n : Nat} (small : n < 0x100) : (UInt8.ofNat n).toNat = n :=
  UInt8.toNat_ofNat_of_lt' small

theorem isContinuation_ofNat (n : Nat) :
    Utf8.isContinuation (UInt8.ofNat (n % 64 + 128)) = true := by
  simp [Utf8.isContinuation, UInt8.le_iff_toNat_le, UInt8.lt_iff_toNat_lt]
  omega

theorem spellsUnit_one {code : Nat} (small : code < 0x80) : SpellsUnit code [UInt8.ofNat code] := by
  have byte := toNat_ofNat_byte (n := code) (by omega)
  have spelled : SpellsUnit (UInt8.ofNat code).toNat [UInt8.ofNat code] := .one (by omega)
  rwa [byte] at spelled

/-- A code of up to eleven bits is spelled by two bytes. -/
theorem spellsUnit_two {code : Nat} (small : code < 0x800) :
    SpellsUnit code [UInt8.ofNat (code / 64 % 32 + 192), UInt8.ofNat (code % 64 + 128)] := by
  have first := toNat_ofNat_byte (n := code / 64 % 32 + 192) (by omega)
  have second := toNat_ofNat_byte (n := code % 64 + 128) (by omega)
  have lead : isLead2 (UInt8.ofNat (code / 64 % 32 + 192)) = true := by
    rw [isLead2_eq, first]
    exact decide_eq_true (by omega)
  have unit : unit2 (UInt8.ofNat (code / 64 % 32 + 192))
      (UInt8.ofNat (code % 64 + 128)) = code := by
    rw [unit2, first, second]
    omega
  have spelled := SpellsUnit.two lead (isContinuation_ofNat code)
  rwa [unit] at spelled

/-- A code of up to sixteen bits is spelled by three bytes. -/
theorem spellsUnit_three {code : Nat} (small : code < 0x10000) :
    SpellsUnit code [UInt8.ofNat (code / 4096 % 16 + 224), UInt8.ofNat (code / 64 % 64 + 128),
      UInt8.ofNat (code % 64 + 128)] := by
  have first := toNat_ofNat_byte (n := code / 4096 % 16 + 224) (by omega)
  have second := toNat_ofNat_byte (n := code / 64 % 64 + 128) (by omega)
  have third := toNat_ofNat_byte (n := code % 64 + 128) (by omega)
  have lead : isLead3 (UInt8.ofNat (code / 4096 % 16 + 224)) = true := by
    rw [isLead3_eq, first]
    exact decide_eq_true (by omega)
  have unit : unit3 (UInt8.ofNat (code / 4096 % 16 + 224)) (UInt8.ofNat (code / 64 % 64 + 128))
      (UInt8.ofNat (code % 64 + 128)) = code := by
    rw [unit3, first, second, third]
    omega
  have spelled :=
    SpellsUnit.three lead (isContinuation_ofNat (code / 64)) (isContinuation_ofNat code)
  rwa [unit] at spelled

/-- The plain UTF-8 bytes of a character that is not supplementary spell the unit of its code. -/
theorem spellsUnit_encodeChar {c : Char} (basic : c.toNat < 0x10000) :
    SpellsUnit c.toNat (String.utf8EncodeChar c) := by
  have opened : String.utf8EncodeChar c =
      if c.toNat ≤ 127 then [UInt8.ofNat c.toNat]
      else if c.toNat ≤ 2047 then
        [UInt8.ofNat (c.toNat / 64 % 32 + 192), UInt8.ofNat (c.toNat % 64 + 128)]
      else if c.toNat ≤ 65535 then
        [UInt8.ofNat (c.toNat / 4096 % 16 + 224), UInt8.ofNat (c.toNat / 64 % 64 + 128),
          UInt8.ofNat (c.toNat % 64 + 128)]
      else
        [UInt8.ofNat (c.toNat / 262144 % 8 + 240), UInt8.ofNat (c.toNat / 4096 % 64 + 128),
          UInt8.ofNat (c.toNat / 64 % 64 + 128), UInt8.ofNat (c.toNat % 64 + 128)] := rfl
  rw [opened]
  by_cases one : c.toNat ≤ 127
  · rw [if_pos one]
    exact spellsUnit_one (by omega)
  rw [if_neg one]
  by_cases two : c.toNat ≤ 2047
  · rw [if_pos two]
    exact spellsUnit_two (by omega)
  · rw [if_neg two, if_pos (by omega)]
    exact spellsUnit_three basic

/-- The units of a text without supplementary characters are read from its plain UTF-8 bytes. -/
theorem units_flatMap {chars : List Char} (basic : ∀ c ∈ chars, c.toNat < 0x10000) :
    units (chars.flatMap String.utf8EncodeChar) = chars.flatMap Utf16.unitsOf := by
  have step : ∀ c ∈ chars, ∀ rest acc, units.go (String.utf8EncodeChar c ++ rest) acc =
      units.go rest ((Utf16.unitsOf c).reverse ++ acc) := by
    intro c member rest acc
    rw [(spellsUnit_encodeChar (basic c member)).units_go, Utf16.unitsOf, if_pos (basic c member)]
    rfl
  unfold units
  rw [walk_flatMap (fun acc => rfl) step, List.append_nil, List.reverse_reverse]

/-! ## Bytes below 0x80 -/

theorem isAscii_iff {bytes : List UInt8} : isAscii bytes = true ↔ ∀ b ∈ bytes, b.toNat < 0x80 := by
  simp [isAscii, UInt8.lt_iff_toNat_lt]

theorem toNat_asciiChar {b : UInt8} (small : b.toNat < 0x80) :
    (Char.ofNat b.toNat).toNat = b.toNat := by
  have valid : b.toNat.isValidChar := .inl (by omega)
  have made : Char.ofNat b.toNat = Char.ofNatAux b.toNat valid := dif_pos valid
  rw [made]
  rfl

/-- Such bytes are read unit by unit as the characters that they are. -/
theorem asciiText_eq_unitText {bytes : List UInt8} (ascii : isAscii bytes = true) :
    asciiText bytes = unitText bytes := by
  have small := isAscii_iff.mp ascii
  have step : ∀ b ∈ bytes, ∀ rest acc, units.go ([b] ++ rest) acc =
      units.go rest ([b.toNat].reverse ++ acc) :=
    fun b member rest acc => (SpellsUnit.one (small b member)).units_go rest acc
  have codes : ∀ b ∈ bytes, Utf16.unitsOf (Char.ofNat b.toNat) = [b.toNat] := by
    intro b member
    have low := small b member
    rw [Utf16.unitsOf, toNat_asciiChar low, if_pos (by omega)]
  have read : units bytes = (bytes.map fun b => Char.ofNat b.toNat).flatMap Utf16.unitsOf := by
    have walk := walk_flatMap (fun acc => rfl) step []
    rw [List.flatMap_singleton', List.append_nil] at walk
    rw [units, walk, List.reverse_reverse, List.flatMap_map, List.flatMap_def, List.flatMap_def,
      List.map_congr_left codes]
  unfold asciiText unitText
  rw [read, Utf16.decode_flatMap_unitsOf]

/-- Reading unit by unit is what decoding does, on all bytes. -/
theorem decode_eq_unitText (bytes : List UInt8) : decode bytes = unitText bytes := by
  unfold decode
  split
  · next ascii => exact asciiText_eq_unitText ascii
  · rfl

/-! ## Texts -/

/-- A text without supplementary characters is read back from its plain UTF-8 bytes. -/
theorem decode_encode {text : String} (basic : ∀ c ∈ text.toList, c.toNat < 0x10000) :
    decode (Utf8.encode text) = text := by
  rw [decode_eq_unitText, unitText, Utf8.encode, units_flatMap basic, Utf16.decode_flatMap_unitsOf,
    String.ofList_toList]

end ModifiedUtf8

end JarMetrics
