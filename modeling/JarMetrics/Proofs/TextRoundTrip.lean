import JarMetrics.Proofs.Texts

/-!
# Texts are read back from modified UTF-8

The format is said by `Spelling`: which bytes stand for a character, by the range of its code. NUL
takes two bytes, so that no byte of a text is 0, and a supplementary character takes the three bytes
of each half of its surrogate pair. `decode_inverts_encode`: `encode` writes this format, and
decoding reads any text back from it, supplementary characters and NUL included. Bytes below 0x80
are taken as they are, which is what reading them unit by unit gives too.

A spelling is read as the units of its character, whatever follows it (`Spelling.units_go`), so what
is behind the end of one character never changes how that character is read.
-/

namespace JarMetrics.ModifiedUtf8

open Utf16 (isHigh isLow pairValue unitsOf)

/-! ## The format -/

/-- The bytes that stand for a character. -/
inductive Spelling (c : Char) : List UInt8 → Prop
  | nul : c.toNat = 0 → Spelling c [0xC0, 0x80]
  | one {a : UInt8} : 0 < c.toNat → c.toNat ≤ 0x7F → SpellsUnit c.toNat [a] → Spelling c [a]
  | two {a b : UInt8} : 0x80 ≤ c.toNat → c.toNat ≤ 0x7FF →
      SpellsUnit c.toNat [a, b] → Spelling c [a, b]
  | three {a b d : UInt8} : 0x800 ≤ c.toNat → c.toNat ≤ 0xFFFF → SpellsUnit c.toNat [a, b, d] →
      Spelling c [a, b, d]
  /-- The halves of a surrogate pair, of three bytes each. -/
  | pair {high low : Nat} {front back : List UInt8} : 0x10000 ≤ c.toNat →
      isHigh high = true → isLow low = true →
      pairValue high low = c.toNat → front.length = 3 → back.length = 3 → SpellsUnit high front →
      SpellsUnit low back → Spelling c (front ++ back)

/-- The bytes that stand for a text: those of its characters in order. -/
inductive Spelled : List Char → List UInt8 → Prop
  | nil : Spelled [] []
  | cons {c : Char} {chars : List Char} {front back : List UInt8} :
      Spelling c front → Spelled chars back →
      Spelled (c :: chars) (front ++ back)

/-! ## Reading the format -/

theorem unitsOf_basic {c : Char} (basic : c.toNat ≤ 0xFFFF) : unitsOf c = [c.toNat] :=
  if_pos (by omega)

/-- A pair that stands for a character is the pair that the character is written as. -/
theorem unitsOf_pair {c : Char} {high low : Nat} (isHigh : isHigh high = true)
    (isLow : isLow low = true) (value : pairValue high low = c.toNat) :
    unitsOf c = [high, low] := by
  simp [Utf16.isHigh] at isHigh
  simp [Utf16.isLow] at isLow
  unfold pairValue at value
  rw [unitsOf, if_neg (by omega), List.cons.injEq, List.cons.injEq]
  exact ⟨by omega, by omega, rfl⟩

/-- A character is read as its units, whatever follows it. -/
theorem Spelling.units_go {c : Char} {bytes : List UInt8} (spelling : Spelling c bytes)
    (rest : List UInt8) (acc : List Nat) :
    units.go (bytes ++ rest) acc = units.go rest ((unitsOf c).reverse ++ acc) := by
  cases spelling with
  | nul zero =>
    rw [unitsOf_basic (by omega), zero]
    exact (spellsUnit_two (show 0 < 0x800 by decide)).units_go rest acc
  | one _ small spelled =>
    rw [unitsOf_basic (by omega), spelled.units_go]
    rfl
  | two _ small spelled =>
    rw [unitsOf_basic (by omega), spelled.units_go]
    rfl
  | three _ small spelled =>
    rw [unitsOf_basic small, spelled.units_go]
    rfl
  | pair _ isHigh isLow value _ _ first second =>
    rw [unitsOf_pair isHigh isLow value, List.append_assoc, first.units_go, second.units_go]
    rfl

theorem Spelled.units_go {chars : List Char} {bytes : List UInt8} (spelled : Spelled chars bytes)
    (acc : List Nat) :
    units.go bytes acc = (chars.flatMap unitsOf).reverse ++ acc := by
  induction spelled generalizing acc with
  | nil => rfl
  | cons spelling _ ih =>
    rw [spelling.units_go, ih, List.flatMap_cons, List.reverse_append, List.append_assoc]

theorem Spelled.decode_eq {chars : List Char} {bytes : List UInt8} (spelled : Spelled chars bytes) :
    decode bytes = String.ofList chars := by
  rw [decode_eq_unitText, unitText, units, spelled.units_go, List.append_nil, List.reverse_reverse,
    Utf16.decode_flatMap_unitsOf]

/-! ## Writing the format -/

theorem encodeUnit_three {unit : Nat} (large : 0x800 ≤ unit) (small : unit < 0x10000) :
    encodeUnit unit = [UInt8.ofNat (unit / 4096 % 16 + 224), UInt8.ofNat (unit / 64 % 64 + 128),
      UInt8.ofNat (unit % 64 + 128)] := by
  rw [encodeUnit, if_neg (by omega), if_neg (by omega), if_neg (by omega),
    Nat.add_comm 0xE0, Nat.add_comm 0x80, Nat.add_comm 0x80,
    Nat.mod_eq_of_lt (show unit / 4096 < 16 by omega)]

theorem encodeUnit_two {unit : Nat} (large : 0x80 ≤ unit) (small : unit < 0x800) :
    encodeUnit unit = [UInt8.ofNat (unit / 64 % 32 + 192), UInt8.ofNat (unit % 64 + 128)] := by
  rw [encodeUnit, if_neg (by omega), if_neg (by omega), if_pos small,
    Nat.add_comm 0xC0, Nat.add_comm 0x80, Nat.mod_eq_of_lt (show unit / 64 < 32 by omega)]

theorem encodeChar_basic {c : Char} (basic : c.toNat ≤ 0xFFFF) :
    encodeChar c = encodeUnit c.toNat := by
  rw [encodeChar, unitsOf_basic basic, List.flatMap_singleton]

theorem spelling_encodeChar (c : Char) : Spelling c (encodeChar c) := by
  have valid : c.toNat < 0xd800 ∨ (0xdfff < c.toNat ∧ c.toNat < 0x110000) := c.valid
  by_cases zero : c.toNat = 0
  · rw [encodeChar_basic (by omega), zero]
    exact .nul zero
  by_cases one : c.toNat ≤ 0x7F
  · rw [encodeChar_basic (by omega), encodeUnit, if_neg zero, if_pos (by omega)]
    exact .one (by omega) one (spellsUnit_one (by omega))
  by_cases two : c.toNat ≤ 0x7FF
  · rw [encodeChar_basic (by omega), encodeUnit_two (by omega) (by omega)]
    exact .two (by omega) two (spellsUnit_two (by omega))
  by_cases three : c.toNat ≤ 0xFFFF
  · rw [encodeChar_basic three, encodeUnit_three (by omega) (by omega)]
    exact .three (by omega) three (spellsUnit_three (by omega))
  · generalize high : 0xD800 + (c.toNat - 0x10000) / 0x400 = first
    generalize low : 0xDC00 + (c.toNat - 0x10000) % 0x400 = second
    have isHigh : isHigh first = true := by
      simp [Utf16.isHigh]
      omega
    have isLow : isLow second = true := by
      simp [Utf16.isLow]
      omega
    have value : pairValue first second = c.toNat := by
      unfold pairValue
      omega
    rw [encodeChar, unitsOf_pair isHigh isLow value, List.flatMap_cons, List.flatMap_singleton,
      encodeUnit_three (by omega) (by omega), encodeUnit_three (by omega) (by omega)]
    exact .pair (by omega) isHigh isLow value rfl rfl (spellsUnit_three (by omega))
      (spellsUnit_three (by omega))

theorem spelled_encode (chars : List Char) : Spelled chars (chars.flatMap encodeChar) := by
  induction chars with
  | nil => exact .nil
  | cons c chars ih =>
    rw [List.flatMap_cons]
    exact .cons (spelling_encodeChar c) ih

/-! ## Bytes below 0x80 -/

theorem utf8EncodeChar_ascii {b : UInt8} (small : b.toNat < 0x80) :
    String.utf8EncodeChar (Char.ofNat b.toNat) = [b] := by
  have code := toNat_asciiChar small
  have one : String.utf8EncodeChar (Char.ofNat b.toNat) =
      [UInt8.ofNat (Char.ofNat b.toNat).toNat] :=
    if_pos (show (Char.ofNat b.toNat).toNat ≤ 127 by omega)
  rw [one, code, UInt8.ofNat_toNat]

/-- Such bytes are the plain UTF-8 bytes of their text. -/
theorem encode_asciiText {bytes : List UInt8} (ascii : isAscii bytes = true) :
    Utf8.encode (asciiText bytes) = bytes := by
  have single : ∀ b ∈ bytes, String.utf8EncodeChar (Char.ofNat b.toNat) = [b] :=
    fun b member => utf8EncodeChar_ascii (isAscii_iff.mp ascii b member)
  rw [Utf8.encode, asciiText, String.toList_ofList, List.flatMap_map, List.flatMap_def,
    List.map_congr_left single, ← List.flatMap_def, List.flatMap_singleton']

/-- Every text is read back from the bytes that stand for it, and `encode` writes such bytes. Where
all bytes are below 0x80, the text that has them as its bytes is also what reading unit by unit
gives. -/
theorem decode_inverts_encode :
    (∀ text : String, Spelled text.toList (encode text) ∧ decode (encode text) = text ∧
      ∀ bytes, Spelled text.toList bytes → decode bytes = text) ∧
    ∀ bytes : List UInt8, isAscii bytes = true →
      decode bytes = asciiText bytes ∧ Utf8.encode (asciiText bytes) = bytes ∧
      asciiText bytes = unitText bytes := by
  constructor
  · intro text
    have reads : ∀ bytes, Spelled text.toList bytes → decode bytes = text := by
      intro bytes spelled
      rw [spelled.decode_eq, String.ofList_toList]
    have spelled : Spelled text.toList (encode text) := spelled_encode text.toList
    exact ⟨spelled, reads _ spelled, reads⟩
  · intro bytes ascii
    exact ⟨if_pos ascii, encode_asciiText ascii, asciiText_eq_unitText ascii⟩

/-- NUL, a character of each length and a supplementary character, from their bytes and back. -/
theorem decode_inverts_encode_everyLength :
    encode "A\x00é€😀" = [0x41, 0xC0, 0x80, 0xC3, 0xA9, 0xE2, 0x82, 0xAC, 0xED, 0xA0,
      0xBD, 0xED, 0xB8, 0x80] ∧
      decode [0x41, 0xC0, 0x80, 0xC3, 0xA9, 0xE2, 0x82, 0xAC, 0xED, 0xA0, 0xBD, 0xED, 0xB8, 0x80] =
        "A\x00é€😀" ∧
      isAscii [0x41, 0x2F] = true ∧ unitText [0x41, 0x2F] = asciiText [0x41, 0x2F] := by
  have bytes : encode "A\x00é€😀" =
      [0x41, 0xC0, 0x80, 0xC3, 0xA9, 0xE2, 0x82, 0xAC, 0xED, 0xA0, 0xBD, 0xED, 0xB8, 0x80] := by
        decide +kernel
  have ascii : isAscii [0x41, 0x2F] = true := by decide
  refine ⟨bytes, ?_, ascii, (decode_inverts_encode.2 _ ascii).2.2.symm⟩
  rw [← bytes]
  exact (decode_inverts_encode.1 _).2.1

end JarMetrics.ModifiedUtf8
