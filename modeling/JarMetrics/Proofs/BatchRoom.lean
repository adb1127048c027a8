import JarMetrics.Proofs.Batches

/-!
# Room for batches

Before rows are cut, the number of batches is worked out as the quotient of a sum that may leave the
range of 64 bits. `capacity_neg_iff` says when the quotient is negative, and `chunkRows_range` when
rows cannot be cut into batches of a size: for every number of rows from two on there are such
sizes, all near the end of the range. In all other cases the batches are the rows in their order,
and all but the last are full. `largest_size_fails`: two rows cannot be cut into batches of the
largest size.
-/

namespace JarMetrics.Graph

variable {α : Type}

/-! ## Full batches -/

/-- Rows cut into batches of which all but the last are full. -/
structure FullyBatched (size : Nat) (rows : List α) (parts : List (List α)) : Prop extends
    Batched size rows parts where
  full : ∀ part ∈ parts.dropLast, part.length = size

theorem batches_eq_nil_iff (size : Nat) (rows : List α) : batches size rows = [] ↔ rows = [] := by
  cases rows with
  | nil => simp [batches]
  | cons row rest => simp [batches]

theorem length_of_mem_dropLast_batches {size : Nat} (positive : 0 < size) (rows : List α) :
    ∀ part ∈ (batches size rows).dropLast, part.length = size := by
  fun_induction batches size rows with
  | case1 => simp
  | case2 row rest ih =>
    intro part member
    by_cases last : rest.drop (size - 1) = []
    · -- the first batch is the only one
      rw [last, batches] at member
      simp at member
    · have others : batches size (rest.drop (size - 1)) ≠ [] :=
        fun none => last ((batches_eq_nil_iff _ _).mp none)
      rw [List.dropLast_cons_of_ne_nil others] at member
      rcases List.mem_cons.mp member with rfl | later
      · have longer : size - 1 < rest.length := by
          simpa [List.drop_eq_nil_iff] using last
        rw [List.length_cons, List.length_take]
        omega
      · exact ih part later

theorem fullyBatched_batches {size : Nat} (positive : 0 < size) (rows : List α) :
    FullyBatched size rows (batches size rows) :=
  ⟨batched_batches positive rows, length_of_mem_dropLast_batches positive rows⟩

/-- Rows that fit into one batch are one batch. -/
theorem batches_of_length_le {size : Nat} {rows : List α} (filled : rows ≠ [])
    (fits : rows.length ≤ size) :
    batches size rows = [rows] := by
  cases rows with
  | nil => exact absurd rfl filled
  | cons row rest =>
    rw [List.length_cons] at fits
    rw [batches, List.take_of_length_le (by omega), List.drop_eq_nil_of_le (by omega), batches]

/-! ## The number of batches -/

/-- The sum behind the number of batches. One that leaves the range is taken 2^64 too small. -/
theorem toInt_sum {count size : Int64} (counted : 0 < count.toInt) (positive : 0 < size.toInt) :
    (count + size - 1).toInt =
      if count.toInt + size.toInt ≤ 2 ^ 63 then count.toInt + size.toInt - 1
      else count.toInt + size.toInt - 1 - 2 ^ 64 := by
  have below := Int64.toInt_lt count
  have below' := Int64.toInt_lt size
  rw [Int64.toInt_sub, Int64.toInt_add, Int64.toInt_one, Int.bmod_def, Int.bmod_def]
  split <;> split <;> split <;> omega

/-- The number of batches is negative if the sum leaves the range and is then at least a size below
zero. -/
theorem capacity_neg_iff {count size : Int64} (counted : 0 < count.toInt)
    (positive : 0 < size.toInt) :
    capacity count size < 0 ↔
      2 ^ 63 < count.toInt + size.toInt ∧ count.toInt + 2 * size.toInt ≤ 2 ^ 64 + 1 := by
  have below := Int64.toInt_lt count
  have below' := Int64.toInt_lt size
  rw [Int64.lt_iff_toInt_lt, Int64.toInt_zero]
  unfold capacity
  rw [Int64.toInt_div, toInt_sum counted positive]
  by_cases inRange : count.toInt + size.toInt ≤ 2 ^ 63
  · rw [if_pos inRange]
    have quotient : 0 ≤ (count.toInt + size.toInt - 1).tdiv size.toInt :=
      Int.tdiv_nonneg (by omega) (by omega)
    have bounded : (count.toInt + size.toInt - 1).tdiv size.toInt ≤ count.toInt + size.toInt - 1 :=
      Int.tdiv_le_self _ (by omega)
    rw [Int.bmod_eq_of_le (by omega) (by omega)]
    omega
  · rw [if_neg inRange]
    -- the sum is negative, so the quotient is that of its absolute value with the sign turned
    have turned : count.toInt + size.toInt - 1 - 2 ^ 64 =
        -(2 ^ 64 + 1 - count.toInt - size.toInt) := by omega
    have quotient : 0 ≤ (2 ^ 64 + 1 - count.toInt - size.toInt) / size.toInt :=
      Int.ediv_nonneg (by omega) (by omega)
    have bounded : (2 ^ 64 + 1 - count.toInt - size.toInt) / size.toInt ≤
        2 ^ 64 + 1 - count.toInt - size.toInt :=
      Int.ediv_le_self _ (by omega)
    have positiveIff :=
      Int.le_ediv_iff_mul_le (a := 1) (b := 2 ^ 64 + 1 - count.toInt - size.toInt) positive
    rw [turned, Int.neg_tdiv, Int.tdiv_eq_ediv_of_nonneg (by omega),
      Int.bmod_eq_of_le (by omega) (by omega)]
    omega

/-! ## Which rows can be cut -/

/-- The number of rows in a batch; a size that is not positive stands for all rows. -/
def usedSize (count : Nat) (size : Int64) : Nat := if size ≤ 0 then count else size.toInt.toNat

/-- Rows that cannot be cut into batches of a size: the number of rows and the size together leave
the range of 64 bits, and either the number of batches is negative for it or a batch after the first
ends behind the range. -/
def OutOfRange (count size : Nat) : Prop :=
  2 ^ 63 < count + size ∧ (size < count ∨ count + 2 * size ≤ 2 ^ 64 + 1)

/-- The first batch always ends in range. -/
theorem cutFrom_zero_cons {count size : Int64} (positive : 0 < size.toInt) {row : α} {rest : List α}
    (counted : ((row :: rest).length : Int) = count.toInt) :
    cutFrom count size 0 (row :: rest) =
      (cutFrom count size size (rest.drop (size.toInt.toNat - 1))).map
        ((row :: rest.take (size.toInt.toNat - 1)) :: ·) := by
  have below := Int64.toInt_lt size
  have started : (0 : Int64).toInt = 0 := Int64.toInt_zero
  have fromStart : (0 : Int64).toInt + (row :: rest).length = count.toInt := by omega
  rw [cutFrom_cons (Int.le_of_eq started.symm) positive (by omega) fromStart, Int64.zero_add]

/-- The second batch ends behind the range. -/
theorem cutFrom_of_end_behind {count size : Int64} {rows : List α}
    (counted : (rows.length : Int) = count.toInt) (positive : 0 < size.toInt)
    (shorter : size.toInt < rows.length) (behind : 2 ^ 63 ≤ 2 * size.toInt) :
    cutFrom count size 0 rows = none := by
  have below := Int64.toInt_lt size
  cases rows with
  | nil =>
    simp at shorter
    omega
  | cons row rest =>
    have length : ((row :: rest).length : Int) = rest.length + 1 := by simp
    rw [cutFrom_zero_cons positive counted]
    cases left : rest.drop (size.toInt.toNat - 1) with
    | nil =>
      have fits := List.drop_eq_nil_iff.mp left
      omega
    | cons next others =>
      have wrapped : (size + size).toInt = 2 * size.toInt - 2 ^ 64 := by
        rw [Int64.toInt_add, Int.bmod_def]
        split <;> omega
      have early : batchEnd count size size ≤ size := by
        unfold batchEnd
        split
        · rename_i past
          rw [Int64.lt_iff_toInt_lt, wrapped] at past
          omega
        · rw [Int64.le_iff_toInt_le, wrapped]
          omega
      rw [cutFrom, if_pos early]
      rfl

/-- Rows that fit into one batch are cut by any size. -/
theorem cutFrom_of_fits {count size : Int64} {rows : List α}
    (counted : (rows.length : Int) = count.toInt) (positive : 0 < size.toInt)
    (fits : (rows.length : Int) ≤ size.toInt) :
    cutFrom count size 0 rows = some (batches size.toInt.toNat rows) := by
  have below := Int64.toInt_lt size
  cases rows with
  | nil => rw [cutFrom, batches]
  | cons row rest =>
    have length : ((row :: rest).length : Int) = rest.length + 1 := by simp
    rw [cutFrom_zero_cons positive counted, batches,
      List.drop_eq_nil_of_le (by omega), cutFrom, batches]
    rfl

theorem cutFrom_of_not_outOfRange {count size : Int64} {rows : List α}
    (counted : (rows.length : Int) = count.toInt) (positive : 0 < size.toInt)
    (inRange : ¬ OutOfRange rows.length size.toInt.toNat) :
    cutFrom count size 0 rows = some (batches size.toInt.toNat rows) := by
  unfold OutOfRange at inRange
  by_cases fits : (rows.length : Int) ≤ size.toInt
  · exact cutFrom_of_fits counted positive fits
  · apply cutFrom_eq_batches count size 0 rows (Int.le_refl 0) positive (by omega)
    intro _
    rw [Int64.toInt_zero, counted, Int.zero_add]

section

variable {rows : List α} {size : Int64} (countable : rows.length < 2 ^ 63)

include countable

theorem usedSize_lt : usedSize rows.length size < 2 ^ 63 := by
  have below := Int64.toInt_lt size
  unfold usedSize
  split <;> omega

theorem toInt_usedSize (size : Int64) :
    (Int64.ofNat (usedSize rows.length size)).toInt = usedSize rows.length size :=
  Int64.toInt_ofNat_of_lt (usedSize_lt countable)

omit countable in
theorem usedSize_pos (size : Int64) (filled : rows ≠ []) : 0 < usedSize rows.length size := by
  unfold usedSize
  split
  · exact List.length_pos_iff.mpr filled
  · rename_i given
    rw [Int64.le_iff_toInt_le, Int64.toInt_zero] at given
    omega

/-- What becomes of rows of which there are some, in terms of the size that is used. -/
theorem chunkRows_of_ne_nil (filled : rows ≠ []) :
    chunkRows rows size =
      if capacity (Int64.ofNat rows.length) (Int64.ofNat (usedSize rows.length size)) < 0 then none
      else cutFrom (Int64.ofNat rows.length) (Int64.ofNat (usedSize rows.length size)) 0 rows := by
  have used : (if size ≤ 0 then Int64.ofNat rows.length else size) =
      Int64.ofNat (usedSize rows.length size) := by
    apply Int64.toInt_inj.mp
    rw [toInt_usedSize countable]
    unfold usedSize
    split
    · exact Int64.toInt_ofNat_of_lt countable
    · rename_i given
      rw [Int64.le_iff_toInt_le, Int64.toInt_zero] at given
      omega
  unfold chunkRows
  simp only [List.isEmpty_iff, filled, if_false, used]

theorem capacity_usedSize_neg_iff (size : Int64) (filled : rows ≠ []) :
    capacity (Int64.ofNat rows.length) (Int64.ofNat (usedSize rows.length size)) < 0 ↔
      2 ^ 63 < rows.length + usedSize rows.length size ∧
        rows.length + 2 * usedSize rows.length size ≤ 2 ^ 64 + 1 := by
  have counted : (Int64.ofNat rows.length).toInt = rows.length := Int64.toInt_ofNat_of_lt countable
  have used := toInt_usedSize countable size
  have nonzero := List.length_pos_iff.mpr filled
  have positive := usedSize_pos size filled
  rw [capacity_neg_iff (by omega) (by omega), counted, used]
  omega

theorem chunkRows_of_outOfRange (filled : rows ≠ [])
    (outside : OutOfRange rows.length (usedSize rows.length size)) :
    chunkRows rows size = none := by
  rw [chunkRows_of_ne_nil countable filled]
  split
  · rfl
  · rename_i room
    rw [capacity_usedSize_neg_iff countable size filled] at room
    -- the number of batches is not negative, so it is a batch that ends behind the range
    have used := toInt_usedSize countable size
    have positive := usedSize_pos size filled
    unfold OutOfRange at outside
    apply cutFrom_of_end_behind (Int64.toInt_ofNat_of_lt countable).symm <;> omega

theorem chunkRows_of_not_outOfRange (filled : rows ≠ [])
    (inside : ¬ OutOfRange rows.length (usedSize rows.length size)) :
    chunkRows rows size = some (batches (usedSize rows.length size) rows) := by
  have used := toInt_usedSize countable size
  have positive := usedSize_pos size filled
  have room :
      ¬ capacity (Int64.ofNat rows.length) (Int64.ofNat (usedSize rows.length size)) < 0 := by
    rw [capacity_usedSize_neg_iff countable size filled]
    exact fun negative => inside ⟨negative.1, .inr negative.2⟩
  rw [chunkRows_of_ne_nil countable filled, if_neg room,
    cutFrom_of_not_outOfRange (Int64.toInt_ofNat_of_lt countable).symm (by omega)
      (by rwa [used, Int.toNat_natCast]),
    used, Int.toNat_natCast]

end

/-- Rows and a size of 64 bits. The rows cannot be cut exactly if they are out of range, and the
number of batches is negative only then. Otherwise the batches are the rows in their order, none is
empty and all but the last are full; for a size that is not positive all rows are one batch. -/
theorem chunkRows_range (rows : List α) (size : Int64) (countable : rows.length < 2 ^ 63) :
    (chunkRows rows size = none ↔ OutOfRange rows.length (usedSize rows.length size)) ∧
    (rows ≠ [] → (capacity (Int64.ofNat rows.length) (Int64.ofNat (usedSize rows.length size)) < 0 ↔
      2 ^ 63 < rows.length + usedSize rows.length size ∧
        rows.length + 2 * usedSize rows.length size ≤ 2 ^ 64 + 1)) ∧
    ∀ parts, chunkRows rows size = some parts →
      FullyBatched (usedSize rows.length size) rows parts ∧ (rows = [] → parts = []) ∧
        (rows ≠ [] → size ≤ 0 → parts = [rows]) := by
  by_cases filled : rows = []
  · subst filled
    have small : usedSize ([] : List α).length size < 2 ^ 63 := usedSize_lt countable
    refine ⟨iff_of_false (fun failed => nomatch failed) ?_,
      fun other => absurd rfl other, fun parts cut => ?_⟩
    · unfold OutOfRange
      rw [List.length_nil] at small ⊢
      omega
    · obtain rfl : [] = parts := Option.some.inj cut
      exact ⟨⟨⟨rfl, by simp, by simp⟩, by simp⟩, fun _ => rfl, fun other => absurd rfl other⟩
  · have room := capacity_usedSize_neg_iff countable size filled
    by_cases outside : OutOfRange rows.length (usedSize rows.length size)
    · have failed := chunkRows_of_outOfRange countable filled outside
      refine ⟨iff_of_true failed outside, fun _ => room, fun parts cut => ?_⟩
      rw [failed] at cut
      cases cut
    · have cut := chunkRows_of_not_outOfRange countable filled outside
      rw [cut]
      refine ⟨iff_of_false (fun failed => nomatch failed) outside,
        fun _ => room, fun parts same => ?_⟩
      obtain rfl := Option.some.inj same
      refine ⟨fullyBatched_batches (usedSize_pos size filled) rows, fun none => absurd none filled,
        fun _ unlimited => ?_⟩
      apply batches_of_length_le filled
      exact Nat.le_of_eq (by rw [usedSize, if_pos unlimited])

/-- The largest size takes four rows in one batch, though the sum behind the number of batches
leaves the range. -/
theorem chunkRows_range_largest :
    ∃ parts, chunkRows [1, 2, 3, 4] 9223372036854775807 = some parts ∧
      FullyBatched 9223372036854775807 [1, 2, 3, 4] parts := by
  obtain ⟨fails, -, cut⟩ := chunkRows_range [1, 2, 3, 4] 9223372036854775807 (by decide)
  have inside : ¬ OutOfRange 4 9223372036854775807 := by
    unfold OutOfRange
    omega
  cases parts : chunkRows [1, 2, 3, 4] 9223372036854775807 with
  | none => exact absurd (fails.mp parts) inside
  | some parts' => exact ⟨parts', rfl, (cut parts' parts).1⟩

/-- Two rows should be one batch of the largest size, and they cannot be cut. -/
theorem largest_size_fails : chunkRows [1, 2] 9223372036854775807 = none := by
  decide

end JarMetrics.Graph
