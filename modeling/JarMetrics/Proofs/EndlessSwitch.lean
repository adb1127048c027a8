import JarMetrics.Proofs.Assembling

/-!
# Switches that are never finished

The targets of a dense switch are appended while a counter runs from `low` through `high`. The
counter has 32 bits, so no number is past the largest one. A count that stops before that number
ends, and there are as many targets as numbers counted over the integers (`countUp_eq_ite`); a count
up to that number goes round for ever (`countUp_maxValue`), whatever it begins with.
`tableSwitch_appended` says which bytes are appended in the first case, and that the switch is never
finished in the second.
-/

namespace JarMetrics.Assembly

/-! ## The counter -/

theorem le_maxValue (n : Int32) : n ≤ Int32.maxValue := by
  have below := n.toInt_lt
  have largest : Int32.maxValue.toInt = 2147483647 := rfl
  rw [Int32.le_iff_toInt_le]
  omega

/-- Only the largest number is not below another one. -/
theorem toInt_lt_of_ne {high : Int32} (below : high ≠ Int32.maxValue) :
    high.toInt < 0x7fffffff := by
  have largest : Int32.maxValue.toInt = 2147483647 := rfl
  have other : high.toInt ≠ Int32.maxValue.toInt := fun same => below (Int32.toInt_inj.mp same)
  have bound := high.toInt_lt
  omega

/-- No number of rounds is enough to get past the largest number. -/
theorem countUp_maxValue (low : Int32) (done fuel : Nat) :
    countUp low Int32.maxValue done fuel = none := by
  induction fuel generalizing low done with
  | zero => rfl
  | succ fuel ih => rw [countUp, if_pos (le_maxValue low), ih]

/-- A count that begins past its end is over at once. -/
theorem countUp_past {low high : Int32} (past : high.toInt < low.toInt) (done fuel : Nat) :
    countUp low high done (fuel + 1) = some done := by
  rw [countUp, if_neg]
  rw [Int32.le_iff_toInt_le]
  omega

/-- Before the last number there is another round. -/
theorem countUp_short {low high : Int32} {left : Nat} (bounded : high.toInt < 0x7fffffff)
    (distance : low.toInt + left = high.toInt + 1) (done : Nat) {fuel : Nat} (short : fuel ≤ left) :
    countUp low high done fuel = none := by
  induction fuel generalizing low left done with
  | zero => rfl
  | succ fuel ih =>
    have inside : low ≤ high := by
      rw [Int32.le_iff_toInt_le]
      omega
    have next : (low + 1).toInt = low.toInt + 1 := toInt_succ (by omega)
    obtain ⟨left, rfl⟩ : ∃ n, left = n + 1 := ⟨left - 1, by omega⟩
    rw [countUp, if_pos inside]
    exact ih (by rw [next]; omega) (done + 1) (Nat.le_of_succ_le_succ short)

/-- A count to another number than the largest takes one round for each number, and one to find that
it is over. -/
theorem countUp_eq_ite {low high : Int32} (below : high ≠ Int32.maxValue) (rounds : Nat) :
    countUp low high 0 rounds =
      if cases low high < rounds then some (cases low high) else none := by
  by_cases ordered : low.toInt ≤ high.toInt
  · have distance : low.toInt + cases low high = high.toInt + 1 := by
      unfold cases
      omega
    split
    next enough => rw [countUp_eq (toInt_lt_of_ne below) distance 0 enough, Nat.zero_add]
    next short => exact countUp_short (toInt_lt_of_ne below) distance 0 (Nat.le_of_not_lt short)
  · have noneLeft : cases low high = 0 := by
      unfold cases
      omega
    rw [noneLeft]
    cases rounds with
    | zero => rfl
    | succ rounds => exact countUp_past (by omega) 0 rounds

/-! ## The switch -/

theorem cases_eq_max (low high : Int32) :
    (cases low high : Int) = max 0 (high.toInt - low.toInt + 1) := by
  unfold cases
  omega

/-- There are no more numbers than a counter of 32 bits has. -/
theorem cases_lt (low high : Int32) : cases low high < 0x100000001 := by
  have lowLeast := low.le_toInt
  have highMost := high.toInt_lt
  unfold cases
  omega

/-- Zeros up to a multiple of four, and no more than needed. -/
theorem padding_spec (length : Nat) :
    ∃ zeros, padding length = List.replicate zeros 0 ∧ zeros < 4 ∧ (length + zeros) % 4 = 0 :=
  ⟨(4 - length % 4) % 4, rfl, by omega, by omega⟩

theorem assembleFrom_single (pool : Pool) (code : List UInt8) (low high : Int32) :
    assembleFrom pool code [.tableSwitch low high] =
      (tableSwitch code.length low high).map fun bytes => (code ++ bytes, pool) := by
  rw [assembleFrom, Piece.emit]
  cases tableSwitch code.length low high <;> rfl

/-- A dense switch behind any code. If it ends before the largest number, it is finished after as
many rounds as there are numbers from `low` through `high`: what is appended is the opcode, less
than four zeros up to a multiple of four, three words, and one more word for each of the numbers. A
switch that ends at the largest number is never finished. -/
theorem tableSwitch_appended (pool : Pool) (code : List UInt8) (low high : Int32) :
    (high ≠ Int32.maxValue → ∃ zeros targets : Nat,
      assembleFrom pool code [.tableSwitch low high] = some (code ++ 0xaa ::
          (List.replicate zeros 0 ++ u4 0 ++ u4 low.toUInt32.toNat ++ u4 high.toUInt32.toNat ++
            (List.replicate targets (u4 0)).flatten), pool) ∧
      zeros < 4 ∧ (code.length + 1 + zeros) % 4 = 0 ∧
      (targets : Int) = max 0 (high.toInt - low.toInt + 1) ∧
      ∀ rounds, countUp low high 0 rounds = if targets < rounds then some targets else none) ∧
    (high = Int32.maxValue →
      assembleFrom pool code [.tableSwitch low high] = none ∧
      ∀ rounds, countUp low high 0 rounds = none) := by
  rw [assembleFrom_single]
  unfold tableSwitch
  constructor
  · intro below
    obtain ⟨zeros, padded, few, aligned⟩ := padding_spec (code.length + 1)
    have words : (List.replicate (cases low high) (u4 0)).flatten =
        List.replicate (4 * cases low high) 0 := by
      have word : u4 0 = List.replicate 4 0 := by decide
      rw [word, List.flatten_replicate_replicate, Nat.mul_comm]
    refine ⟨zeros, cases low high, ?_, few, aligned, cases_eq_max low high, countUp_eq_ite below⟩
    rw [countUp_eq_ite below, if_pos (cases_lt low high), padded, words]
    rfl
  · rintro rfl
    simp only [countUp_maxValue]
    exact ⟨rfl, fun _ => trivial⟩

/-- The largest number as the only case, for which there should be one target. -/
theorem largest_case_never_finished :
    assembleFrom {} [] [.tableSwitch Int32.maxValue Int32.maxValue] = none ∧
      ∀ rounds, countUp Int32.maxValue Int32.maxValue 0 rounds = none := by
  refine ⟨?_, countUp_maxValue _ 0⟩
  rw [assembleFrom_single, tableSwitch, countUp_maxValue]
  rfl

end JarMetrics.Assembly
