import JarMetrics.Graph.Batch
import Mathlib.Algebra.Ring.Int.Defs
import Mathlib.Algebra.Ring.Nat

/-!
# Batches lose nothing

`batches` cuts rows with whole numbers that do not wrap around. `batched_batches`: these batches are
the rows in their order, cut into pieces that are neither empty nor longer than the size.
`cutFrom_eq_batches`: the batches cut by 64-bit indices are the same while the number of rows and
the size together stay in range. `chunkRows_batched`: as long as neither the size nor the number of
rows reaches a quarter of the range, the number of batches to make room for does not wrap around
either.
-/

namespace JarMetrics.Graph

variable {α : Type}

/-- The rows in batches of a positive size; only the last may be shorter. -/
def batches (size : Nat) : List α → List (List α)
  | [] => []
  | row :: rest => (row :: rest.take (size - 1)) :: batches size (rest.drop (size - 1))
  termination_by rows => rows.length
  decreasing_by simp only [List.length_drop, List.length_cons]; omega

/-- Rows cut into batches, in their order. -/
structure Batched (size : Nat) (rows : List α) (parts : List (List α)) : Prop where
  flatten : parts.flatten = rows
  nonempty : [] ∉ parts
  bounded : ∀ part ∈ parts, part.length ≤ size

theorem flatten_batches (size : Nat) (rows : List α) : (batches size rows).flatten = rows := by
  fun_induction batches size rows with
  | case1 => rfl
  | case2 row rest ih => rw [List.flatten_cons, ih, List.cons_append, List.take_append_drop]

theorem nil_not_mem_batches (size : Nat) (rows : List α) : [] ∉ batches size rows := by
  fun_induction batches size rows with
  | case1 => simp
  | case2 row rest ih => simpa using ih

theorem length_le_of_mem_batches {size : Nat} (positive : 0 < size) (rows : List α) :
    ∀ part ∈ batches size rows, part.length ≤ size := by
  fun_induction batches size rows with
  | case1 => simp
  | case2 row rest ih =>
    intro part member
    rcases List.mem_cons.mp member with rfl | later
    · rw [List.length_cons, List.length_take]
      omega
    · exact ih part later

theorem batched_batches {size : Nat} (positive : 0 < size) (rows : List α) :
    Batched size rows (batches size rows) :=
  ⟨flatten_batches size rows, nil_not_mem_batches size rows, length_le_of_mem_batches positive rows⟩

/-! ## Indices of 64 bits -/

theorem flatten_of_cutFrom (count size start : Int64) (rows : List α) :
    ∀ parts, cutFrom count size start rows = some parts → parts.flatten = rows := by
  fun_induction cutFrom count size start rows with
  | case1 start =>
    intro parts cut
    obtain rfl := Option.some.inj cut
    rfl
  | case2 start row rest early =>
    intro parts cut
    cases cut
  | case3 start row rest late more ih =>
    intro parts cut
    obtain ⟨others, cut', rfl⟩ := Option.map_eq_some_iff.mp cut
    rw [List.flatten_cons, ih others cut', List.cons_append, List.take_append_drop]

/-- Whatever the size, the batches hold the rows in their order. -/
theorem flatten_of_chunkRows {rows : List α} {size : Int64} {parts : List (List α)}
    (cut : chunkRows rows size = some parts) : parts.flatten = rows := by
  unfold chunkRows at cut
  split at cut
  · rename_i empty
    obtain rfl := Option.some.inj cut
    exact (List.isEmpty_iff.mp empty).symm
  · dsimp only at cut
    generalize (if size ≤ 0 then Int64.ofNat rows.length else size) = used at cut
    split at cut
    · cases cut
    · exact flatten_of_cutFrom _ _ _ rows parts cut

theorem toInt_batchEnd (count : Int64) {size start : Int64} (started : 0 ≤ start.toInt)
    (positive : 0 < size.toInt) (inRange : start.toInt + size.toInt < 2 ^ 63) :
    (start + size).toInt = start.toInt + size.toInt ∧
      (batchEnd count size start).toInt = min count.toInt (start.toInt + size.toInt) := by
  have sum : (start + size).toInt = start.toInt + size.toInt := by
    rw [Int64.toInt_add, Int.bmod_eq_of_le (by omega) (by omega)]
  refine ⟨sum, ?_⟩
  unfold batchEnd
  split
  · rename_i past
    rw [Int64.lt_iff_toInt_lt, sum] at past
    omega
  · rename_i within
    rw [Int64.lt_iff_toInt_lt, sum] at within
    omega

/-- A batch that stays in range ends where it should. -/
theorem cutFrom_cons {count size start : Int64} (started : 0 ≤ start.toInt)
    (positive : 0 < size.toInt) (inRange : start.toInt + size.toInt < 2 ^ 63) {row : α}
    {rest : List α} (counted : start.toInt + (row :: rest).length = count.toInt) :
    cutFrom count size start (row :: rest) =
      (cutFrom count size (start + size) (rest.drop (size.toInt.toNat - 1))).map
        ((row :: rest.take (size.toInt.toNat - 1)) :: ·) := by
  obtain ⟨-, stop⟩ := toInt_batchEnd count started positive inRange
  have length : ((row :: rest).length : Int) = rest.length + 1 := by simp
  have later : ¬ batchEnd count size start ≤ start := by
    rw [Int64.le_iff_toInt_le, stop]
    omega
  have width : (batchEnd count size start - start).toInt =
      min ((rest.length : Int) + 1) size.toInt := by
    rw [Int64.toInt_sub, stop, Int.bmod_eq_of_le (by omega) (by omega)]
    omega
  rw [cutFrom, if_neg later]
  dsimp only
  rw [width]
  -- the last batch may be cut short by the end of the rows, which a cut by the size does by itself
  by_cases short : (rest.length : Int) + 1 ≤ size.toInt
  · have taken : rest.take ((min ((rest.length : Int) + 1) size.toInt).toNat - 1) = rest :=
      List.take_of_length_le (by omega)
    have left : rest.drop ((min ((rest.length : Int) + 1) size.toInt).toNat - 1) = [] :=
      List.drop_eq_nil_of_le (by omega)
    rw [taken, left, List.take_of_length_le (by omega), List.drop_eq_nil_of_le (by omega)]
  · rw [Int.min_eq_right (by omega)]

/-- Cutting by 64-bit indices is cutting by whole numbers while the last batch ends in range. -/
theorem cutFrom_eq_batches (count size start : Int64) (rows : List α) (started : 0 ≤ start.toInt)
    (positive : 0 < size.toInt) (inRange : count.toInt + size.toInt ≤ 2 ^ 63)
    (counted : rows ≠ [] → start.toInt + rows.length = count.toInt) :
    cutFrom count size start rows = some (batches size.toInt.toNat rows) := by
  fun_induction batches size.toInt.toNat rows generalizing start with
  | case1 => rw [cutFrom]
  | case2 row rest ih =>
    have here := counted (List.cons_ne_nil row rest)
    have length : ((row :: rest).length : Int) = rest.length + 1 := by simp
    have ends : start.toInt + size.toInt < 2 ^ 63 := by omega
    rw [cutFrom_cons started positive ends here]
    have moved := (toInt_batchEnd count started positive ends).1
    rw [ih (start + size) (by omega) ?_]
    · rfl
    · intro more
      have left := List.length_pos_iff.mpr more
      rw [List.length_drop] at left ⊢
      omega

/-- A quarter of the range of 64 bits. -/
def quarter : Int := 0x4000000000000000

/-- Room for batches can be made as long as the numbers are small. -/
theorem capacity_nonneg {count size : Int64} (counted : 0 ≤ count.toInt)
    (few : count.toInt ≤ quarter) (positive : 0 < size.toInt) (small : size.toInt < quarter) :
    0 ≤ (capacity count size).toInt := by
  unfold quarter at few small
  have sum : (count + size).toInt = count.toInt + size.toInt := by
    rw [Int64.toInt_add, Int.bmod_eq_of_le (by omega) (by omega)]
  have less : (count + size - 1).toInt = count.toInt + size.toInt - 1 := by
    rw [Int64.toInt_sub, sum, Int64.toInt_one, Int.bmod_eq_of_le (by omega) (by omega)]
  have quotient : 0 ≤ (count.toInt + size.toInt - 1).tdiv size.toInt :=
    Int.tdiv_nonneg (by omega) (by omega)
  have bounded : (count.toInt + size.toInt - 1).tdiv size.toInt ≤ count.toInt + size.toInt - 1 :=
    Int.tdiv_le_self _ (by omega)
  unfold capacity
  rw [Int64.toInt_div, less, Int.bmod_eq_of_le (by omega) (by omega)]
  exact quotient

/-- Rows can be cut into batches as long as there are not too many and the size is not too large. -/
theorem chunkRows_batched {rows : List α} {size : Int64} (few : (rows.length : Int) ≤ quarter)
    (positive : 0 < size.toInt) (small : size.toInt < quarter) :
    ∃ parts, chunkRows rows size = some parts ∧ Batched size.toInt.toNat rows parts := by
  unfold chunkRows
  by_cases empty : rows = []
  · subst empty
    exact ⟨[], rfl, rfl, by simp, by simp⟩
  · have count : (Int64.ofNat rows.length).toInt = rows.length := by
      unfold quarter at few
      exact Int64.toInt_ofNat_of_lt (by omega)
    have given : ¬ size ≤ 0 := by
      rw [Int64.le_iff_toInt_le, Int64.toInt_zero]
      omega
    have room : ¬ capacity (Int64.ofNat rows.length) size < 0 := by
      rw [Int64.lt_iff_toInt_lt, Int64.toInt_zero]
      exact Int.not_lt.mpr (capacity_nonneg (by omega) (by omega) positive small)
    have cut : cutFrom (Int64.ofNat rows.length) size 0 rows =
        some (batches size.toInt.toNat rows) := by
      unfold quarter at few small
      apply cutFrom_eq_batches _ _ 0 rows (Int.le_refl 0) positive (by omega)
      intro _
      rw [Int64.toInt_zero, count, Int.zero_add]
    refine ⟨batches size.toInt.toNat rows, ?_, batched_batches (by omega) rows⟩
    simp [empty, given, room, cut]

end JarMetrics.Graph
