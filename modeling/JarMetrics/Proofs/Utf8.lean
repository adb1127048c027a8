import JarMetrics.Bytes.Utf8

/-!
# Texts and their bytes

`decode_encode`: a text is read back from its bytes, whatever characters are in it.
`encode_lt_encode`: the order of texts by their characters is their order by bytes.
-/

namespace JarMetrics.Utf8

/-! ## The bytes of a character -/

/-- The bytes of a character, by the size of its code. -/
theorem utf8EncodeChar_eq (c : Char) : String.utf8EncodeChar c =
    if c.toNat ≤ 127 then [UInt8.ofNat c.toNat]
    else if c.toNat ≤ 2047 then
      [UInt8.ofNat (c.toNat / 64 % 32 + 192), UInt8.ofNat (c.toNat % 64 + 128)]
    else if c.toNat ≤ 65535 then
      [UInt8.ofNat (c.toNat / 4096 % 16 + 224), UInt8.ofNat (c.toNat / 64 % 64 + 128),
        UInt8.ofNat (c.toNat % 64 + 128)]
    else
      [UInt8.ofNat (c.toNat / 262144 % 8 + 240), UInt8.ofNat (c.toNat / 4096 % 64 + 128),
        UInt8.ofNat (c.toNat / 64 % 64 + 128), UInt8.ofNat (c.toNat % 64 + 128)] :=
  rfl

theorem toNat_ofNat {n : Nat} (small : n < 256) : (UInt8.ofNat n).toNat = n :=
  UInt8.toNat_ofNat_of_lt' small

theorem isContinuation_ofNat (n : Nat) : isContinuation (UInt8.ofNat (n % 64 + 128)) = true := by
  simp [isContinuation, UInt8.le_iff_toNat_le, UInt8.lt_iff_toNat_lt]
  omega

/-- The bytes of a character outside ASCII are all outside ASCII. -/
theorem le_toNat_of_mem {c : Char} (long : 127 < c.toNat) {b : UInt8}
    (member : b ∈ String.utf8EncodeChar c) :
    128 ≤ b.toNat := by
  rw [utf8EncodeChar_eq, if_neg (by omega)] at member
  split at member
  · simp only [List.mem_cons, List.not_mem_nil, or_false] at member
    rcases member with rfl | rfl <;> rw [toNat_ofNat] <;> omega
  split at member
  · simp only [List.mem_cons, List.not_mem_nil, or_false] at member
    rcases member with rfl | rfl | rfl <;> rw [toNat_ofNat] <;> omega
  · simp only [List.mem_cons, List.not_mem_nil, or_false] at member
    rcases member with rfl | rfl | rfl | rfl <;> rw [toNat_ofNat] <;> omega

/-- A byte in ASCII is the whole of its character. -/
theorem toNat_eq_of_mem {c : Char} {b : UInt8} (member : b ∈ String.utf8EncodeChar c)
    (small : b.toNat < 128) :
    c.toNat = b.toNat := by
  by_cases short : c.toNat ≤ 127
  · rw [utf8EncodeChar_eq, if_pos short, List.mem_singleton] at member
    rw [member, toNat_ofNat (by omega)]
  · have large := le_toNat_of_mem (by omega) member
    omega

/-! ## The character at the front -/

theorem two?_ofNat {code : Nat} (large : 127 < code) (small : code ≤ 2047) :
    two? (UInt8.ofNat (code / 64 % 32 + 192)) (UInt8.ofNat (code % 64 + 128)) = some code := by
  have first := toNat_ofNat (n := code / 64 % 32 + 192) (by omega)
  have second := toNat_ofNat (n := code % 64 + 128) (by omega)
  have value : (code / 64 % 32 + 192 - 0xC0) * 0x40 + (code % 64 + 128 - 0x80) = code := by omega
  simp only [two?, UInt8.le_iff_toNat_le, UInt8.lt_iff_toNat_lt,
    isContinuation_ofNat, first, second, value]
  simp
  omega

theorem three?_ofNat {code : Nat} (large : 2047 < code) (small : code ≤ 65535)
    (valid : code < 0xD800 ∨ 0xDFFF < code) :
    three? (UInt8.ofNat (code / 4096 % 16 + 224)) (UInt8.ofNat (code / 64 % 64 + 128))
      (UInt8.ofNat (code % 64 + 128)) = some code := by
  have first := toNat_ofNat (n := code / 4096 % 16 + 224) (by omega)
  have second := toNat_ofNat (n := code / 64 % 64 + 128) (by omega)
  have third := toNat_ofNat (n := code % 64 + 128) (by omega)
  have value : (code / 4096 % 16 + 224 - 0xE0) * 0x1000 + (code / 64 % 64 + 128 - 0x80) * 0x40 +
      (code % 64 + 128 - 0x80) = code := by omega
  simp only [three?, UInt8.le_iff_toNat_le, UInt8.lt_iff_toNat_lt, isContinuation_ofNat,
    first, second, third, value]
  simp
  omega

theorem four?_ofNat {code : Nat} (large : 65535 < code) (small : code < 0x110000) :
    four? (UInt8.ofNat (code / 262144 % 8 + 240)) (UInt8.ofNat (code / 4096 % 64 + 128))
      (UInt8.ofNat (code / 64 % 64 + 128)) (UInt8.ofNat (code % 64 + 128)) = some code := by
  have first := toNat_ofNat (n := code / 262144 % 8 + 240) (by omega)
  have second := toNat_ofNat (n := code / 4096 % 64 + 128) (by omega)
  have third := toNat_ofNat (n := code / 64 % 64 + 128) (by omega)
  have fourth := toNat_ofNat (n := code % 64 + 128) (by omega)
  have value : (code / 262144 % 8 + 240 - 0xF0) * 0x40000 +
      (code / 4096 % 64 + 128 - 0x80) * 0x1000 +
      (code / 64 % 64 + 128 - 0x80) * 0x40 + (code % 64 + 128 - 0x80) = code := by omega
  simp only [four?, UInt8.le_iff_toNat_le, UInt8.lt_iff_toNat_lt, isContinuation_ofNat, first,
    second, third, fourth, value]
  simp
  omega

theorem two?_eq_none {a : UInt8} (large : 0xE0 ≤ a.toNat) (b : UInt8) : two? a b = none := by
  simp [two?, UInt8.le_iff_toNat_le, UInt8.lt_iff_toNat_lt]
  omega

theorem three?_eq_none {a : UInt8} (large : 0xF0 ≤ a.toNat) (b c : UInt8) :
    three? a b c = none := by
  simp [three?, UInt8.le_iff_toNat_le, UInt8.lt_iff_toNat_lt]
  omega

section

variable {a b c d : UInt8} {value : Nat} (lead : ¬ a < 0x80)

include lead

theorem front_of_two (found : two? a b = some value) (rest : List UInt8) :
    front a (b :: rest) = (Char.ofNat value, 2) := by
  unfold front
  rw [if_neg lead]
  rcases rest with _ | ⟨_, _ | ⟨_, _⟩⟩ <;> simp [found]

theorem front_of_three (short : two? a b = none) (found : three? a b c = some value)
    (rest : List UInt8) :
    front a (b :: c :: rest) = (Char.ofNat value, 3) := by
  unfold front
  rw [if_neg lead]
  rcases rest with _ | ⟨_, _⟩ <;> simp [short, found]

theorem front_of_four (short : two? a b = none) (short' : three? a b c = none)
    (found : four? a b c d = some value) (rest : List UInt8) :
    front a (b :: c :: d :: rest) = (Char.ofNat value, 4) := by
  unfold front
  rw [if_neg lead]
  simp [short, short', found]

end

/-- The character at the front of its bytes is found, whatever follows them. -/
theorem front_utf8EncodeChar (ch : Char) (rest : List UInt8) :
    ∃ a tail, String.utf8EncodeChar ch = a :: tail ∧
      front a (tail ++ rest) = (ch, tail.length + 1) := by
  have valid : ch.toNat < 55296 ∨ 57343 < ch.toNat ∧ ch.toNat < 1114112 := ch.valid
  have leadLarge : ∀ {n : Nat}, 128 ≤ n → n < 256 → ¬ UInt8.ofNat n < 0x80 := by
    intro n large small
    rw [UInt8.lt_iff_toNat_lt, toNat_ofNat small]
    simpa using large
  rw [utf8EncodeChar_eq]
  by_cases one : ch.toNat ≤ 127
  · refine ⟨_, _, if_pos one, ?_⟩
    have small : UInt8.ofNat ch.toNat < 0x80 := by
      rw [UInt8.lt_iff_toNat_lt, toNat_ofNat (by omega)]
      simp
      omega
    unfold front
    rw [if_pos small, toNat_ofNat (by omega), Char.ofNat_toNat]
    rfl
  rw [if_neg one]
  by_cases two : ch.toNat ≤ 2047
  · refine ⟨_, _, if_pos two, ?_⟩
    have found := front_of_two (leadLarge (by omega) (by omega)) (two?_ofNat (by omega) two) rest
    rwa [Char.ofNat_toNat] at found
  rw [if_neg two]
  by_cases three : ch.toNat ≤ 65535
  · refine ⟨_, _, if_pos three, ?_⟩
    have short :=
      two?_eq_none (a := UInt8.ofNat (ch.toNat / 4096 % 16 + 224)) (by rw [toNat_ofNat] <;> omega)
    have found := front_of_three (leadLarge (by omega) (by omega)) (short _)
      (three?_ofNat (by omega) three (by omega)) rest
    rwa [Char.ofNat_toNat] at found
  · refine ⟨_, _, if_neg three, ?_⟩
    have short := two?_eq_none (a := UInt8.ofNat (ch.toNat / 262144 % 8 + 240))
      (by rw [toNat_ofNat] <;> omega)
    have short' := three?_eq_none (a := UInt8.ofNat (ch.toNat / 262144 % 8 + 240))
      (by rw [toNat_ofNat] <;> omega)
    have found := front_of_four (leadLarge (by omega) (by omega)) (short _) (short' _ _)
      (four?_ofNat (by omega) (by omega)) rest
    rwa [Char.ofNat_toNat] at found

/-! ## Texts -/

theorem decodeChars_flatMap (chars : List Char) : ∀ (fuel : Nat) (acc : List Char),
    (chars.flatMap String.utf8EncodeChar).length ≤ fuel →
      decodeChars fuel (chars.flatMap String.utf8EncodeChar) acc = acc.reverse ++ chars := by
  induction chars with
  | nil =>
    intro fuel acc _
    cases fuel <;> simp [decodeChars]
  | cons ch chars ih =>
    intro fuel acc enough
    obtain ⟨a, tail, bytes, found⟩ := front_utf8EncodeChar ch (chars.flatMap String.utf8EncodeChar)
    rw [List.flatMap_cons, bytes] at enough ⊢
    simp only [List.cons_append, List.length_cons, List.length_append] at enough
    cases fuel with
    | zero => omega
    | succ fuel =>
      rw [List.cons_append, decodeChars, found]
      dsimp only
      rw [Nat.add_sub_cancel, List.drop_left, ih fuel (ch :: acc) (by omega)]
      simp

theorem encode_append (first second : String) :
    encode (first ++ second) = encode first ++ encode second := by
  simp [encode]

/-- A text is read back from its bytes. -/
theorem decode_encode (text : String) : decode (encode text) = text := by
  unfold decode encode
  rw [decodeChars_flatMap text.toList _ _ (Nat.le_refl _)]
  simp

/-! ## Order -/

theorem digit_lt {a b : Nat} (less : a < b) :
    a / 64 < b / 64 ∨ a / 64 = b / 64 ∧ a % 64 < b % 64 := by
  omega

/-- The bytes of a smaller character are smaller, whatever follows them. -/
theorem utf8EncodeChar_append_lt {c d : Char} (less : c < d) (x y : List UInt8) :
    String.utf8EncodeChar c ++ x < String.utf8EncodeChar d ++ y := by
  have less : c.toNat < d.toNat := less
  have valid : d.toNat < 1114112 := by
    rcases d.valid with h | ⟨_, h⟩
    · exact Nat.lt_trans h (by decide)
    · exact h
  -- The bytes behind the first hold six bits each. They are compared from the last one on.
  have last := digit_lt less
  have middle (apart : c.toNat / 64 < d.toNat / 64) := digit_lt apart
  have front (apart : c.toNat / 4096 < d.toNat / 4096) := digit_lt apart
  simp only [Nat.div_div_eq_div_mul, Nat.reduceMul] at middle front
  have top : c.toNat / 262144 % 8 = c.toNat / 262144 ∧ d.toNat / 262144 % 8 = d.toNat / 262144 := by
    omega
  rw [utf8EncodeChar_eq, utf8EncodeChar_eq]
  repeat' split
  all_goals
    simp (disch := omega) only [List.cons_append, List.nil_append, List.cons_lt_cons_iff,
      UInt8.lt_iff_toNat_lt, ← UInt8.toNat_inj, toNat_ofNat]
    omega

/-- Texts are in the order of their bytes. -/
theorem encode_lt_encode {first second : String} (less : first < second) :
    encode first < encode second := by
  have ordered {a b : List Char} (less : List.Lex (· < ·) a b) :
      a.flatMap String.utf8EncodeChar < b.flatMap String.utf8EncodeChar := by
    induction less with
    | @nil d b =>
      obtain ⟨lead, tail, bytes, -⟩ := front_utf8EncodeChar d []
      rw [List.flatMap_cons, bytes]
      exact List.nil_lt_cons ..
    | cons _ ih => exact List.append_left_lt ih
    | rel less => exact utf8EncodeChar_append_lt less _ _
  exact ordered less

theorem encode_le_encode {first second : String} (le : first ≤ second) :
    encode first ≤ encode second := by
  by_cases same : second ≤ first
  · rw [String.le_antisymm le same]
    exact List.le_refl _
  · exact List.le_of_lt (encode_lt_encode (String.not_le.mp same))

end JarMetrics.Utf8
