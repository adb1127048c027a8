/-!
# Reading bytes from the front

A `Cursor` is a byte list together with the number of bytes already read, so that a read that asks
for more than is left can say where it stood. Reads never skip a byte silently: `take_eq_ok_iff`
says that a successful read splits the remaining bytes in two and moves the offset by the length of
the first part.
-/

namespace JarMetrics

/-! ## Splitting a list at an exact length -/

/-- Split off exactly `n` elements, or nothing when the list is shorter. -/
def splitExactly {α : Type} (n : Nat) (l : List α) : Option (List α × List α) :=
  go n l []
where
  go : Nat → List α → List α → Option (List α × List α)
    | 0, l, acc => some (acc.reverse, l)
    | _ + 1, [], _ => none
    | n + 1, a :: l, acc => go n l (a :: acc)

theorem splitExactly_go {α : Type} (n : Nat) (l acc : List α) :
    splitExactly.go n l acc =
      if n ≤ l.length then some (acc.reverse ++ l.take n, l.drop n) else none := by
  induction n generalizing l acc with
  | zero => simp [splitExactly.go]
  | succ n ih =>
      cases l with
      | nil => simp [splitExactly.go]
      | cons a l => simp [splitExactly.go, ih]

theorem splitExactly_eq {α : Type} (n : Nat) (l : List α) :
    splitExactly n l = if n ≤ l.length then some (l.take n, l.drop n) else none := by
  simp [splitExactly, splitExactly_go]

/-! ## Cursors -/

/-- The bytes not yet read, and how many were read before them. -/
structure Cursor where
  offset : Nat
  rest : List UInt8
  deriving Repr, DecidableEq

/-- A read that asked for more bytes than were left. -/
structure Truncation where
  offset : Nat
  needed : Nat
  available : Nat
  deriving Repr, DecidableEq

namespace Cursor

/-- Start reading at the first byte. -/
def ofList (bytes : List UInt8) : Cursor := ⟨0, bytes⟩

/-- How many bytes are left. -/
def remaining (c : Cursor) : Nat := c.rest.length

/-- Read exactly `n` bytes. -/
def take (n : Nat) (c : Cursor) : Except Truncation (List UInt8 × Cursor) :=
  match splitExactly n c.rest with
  | some (bytes, rest) => .ok (bytes, ⟨c.offset + n, rest⟩)
  | none => .error ⟨c.offset, n, c.remaining⟩

theorem take_eq_ok_iff {n : Nat} {c d : Cursor} {bytes : List UInt8} :
    c.take n = .ok (bytes, d) ↔
      c.rest = bytes ++ d.rest ∧ bytes.length = n ∧ d.offset = c.offset + n := by
  simp only [take, splitExactly_eq]
  by_cases h : n ≤ c.rest.length
  · simp only [h, if_true, Except.ok.injEq, Prod.mk.injEq]
    constructor
    · rintro ⟨rfl, rfl⟩
      simp [h]
    · rintro ⟨whole, rfl, moved⟩
      cases d
      simp_all
  · simp only [h, if_false, reduceCtorEq, false_iff]
    rintro ⟨whole, rfl, -⟩
    simp [whole] at h

theorem take_remaining {n : Nat} {c d : Cursor} {bytes : List UInt8}
    (read : c.take n = .ok (bytes, d)) : d.remaining + n = c.remaining := by
  obtain ⟨whole, length, -⟩ := take_eq_ok_iff.1 read
  simp [remaining, whole, length, Nat.add_comm]

end Cursor

/-! ## Numbers in bytes -/

/-- The number whose base-256 digits are `bytes`, most significant first. -/
def bigEndian (bytes : List UInt8) : Nat :=
  bytes.foldl (fun value byte => value * 256 + byte.toNat) 0

/-- The number whose base-256 digits are `bytes`, least significant first. -/
def littleEndian : List UInt8 → Nat
  | [] => 0
  | byte :: rest => byte.toNat + 256 * littleEndian rest

/-- The `width`-bit two's complement reading of `value`. -/
def signed (width : Nat) (value : Nat) : Int :=
  (value : Int).bmod (Nat.pow 2 width)

/-- The low `8 * count` bits of `value` as bytes, most significant first. -/
def toBigEndian (count : Nat) (value : Nat) : List UInt8 :=
  (List.range count).reverse.map fun place => UInt8.ofNat (value / Nat.pow 256 place)

end JarMetrics
