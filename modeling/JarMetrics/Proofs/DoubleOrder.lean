import JarMetrics.Proofs.Doubles

/-!
# The order of doubles

Doubles are compared by their signs, exponents and mantissas. `place` puts these into one linear
order, and doubles that are numbers compare as their places do (`compare_eq_place`). So the order of
doubles is total, up to the sign of zero, and sorting by it makes sense.

Whole numbers of up to 53 bits stand in the order of their doubles (`standing_ofInt_lt_iff`).
-/

namespace JarMetrics.Double

open Float.Model Float.Model.UnpackedFloat

/-! ## Places -/

/-- Where a double stands. Below zero, larger exponents and mantissas come first. -/
def place : UnpackedFloat → ℤ ×ₗ ℤ ×ₗ ℤ
  | .infinity .negative => toLex (-2, toLex (0, 0))
  | .finite .negative m e _ => toLex (-1, toLex (-e, -m))
  | .zero _ => toLex (0, toLex (0, 0))
  | .finite .positive m e _ => toLex (1, toLex (e, m))
  | .infinity .positive => toLex (2, toLex (0, 0))
  | .notANumber => toLex (3, toLex (0, 0))

theorem compare_toLex (kind a b c d : ℤ) :
    compare (toLex (kind, toLex (a, b))) (toLex (kind, toLex (c, d))) =
      (compare a c).then (compare b d) := by
  simp [Prod.Lex.compare_def, compareLex, compareOn]

theorem compare_neg (a b : ℤ) : compare (-a) (-b) = (compare a b).swap := by
  rw [Int.compare_swap]
  rcases Int.lt_trichotomy a b with less | same | more
  · rw [Int.compare_eq_gt.mpr (by omega), Int.compare_eq_gt.mpr less]
  · rw [same]
    simp
  · rw [Int.compare_eq_lt.mpr (by omega), Int.compare_eq_lt.mpr more]

theorem compare_natCast (m n : ℕ) : compare (m : ℤ) (n : ℤ) = compare m n := by
  rcases Nat.lt_trichotomy m n with less | same | more
  · rw [Int.compare_eq_lt.mpr (by omega), Nat.compare_eq_lt.mpr less]
  · rw [same]
    simp
  · rw [Int.compare_eq_gt.mpr (by omega), Nat.compare_eq_gt.mpr more]

/-- Numbers compare as their places do. -/
theorem compare_eq_place {f g : UnpackedFloat} (left : f ≠ .notANumber) (right : g ≠ .notANumber) :
    f.compare g = some (compare (place f) (place g)) := by
  cases f with
  | notANumber => exact absurd rfl left
  | infinity s =>
    cases g with
    | notANumber => exact absurd rfl right
    | infinity t => cases s <;> cases t <;> rfl
    | zero t => cases s <;> rfl
    | finite t m e positive => cases s <;> cases t <;> rfl
  | zero s =>
    cases g with
    | notANumber => exact absurd rfl right
    | infinity t => cases t <;> rfl
    | zero t => rfl
    | finite t m e positive => cases t <;> rfl
  | finite s m e positive =>
    cases g with
    | notANumber => exact absurd rfl right
    | infinity t => cases s <;> cases t <;> rfl
    | zero t => cases s <;> rfl
    | finite t m' e' positive' =>
      -- two finite numbers of one sign are told apart by their exponents and mantissas, turned
      -- around below zero
      cases s with
      | negative =>
        cases t with
        | negative =>
          show some ((compare e e').then (compare m m')).swap =
            some (compare (toLex (-1, toLex (-e, -(m : ℤ)))) (toLex (-1, toLex (-e', -(m' : ℤ)))))
          rw [compare_toLex, compare_neg, compare_neg, compare_natCast, Ordering.swap_then]
        | positive => rfl
      | positive =>
        cases t with
        | negative => rfl
        | positive =>
          show some ((compare e e').then (compare m m')) =
            some (compare (toLex (1, toLex (e, (m : ℤ)))) (toLex (1, toLex (e', (m' : ℤ)))))
          rw [compare_toLex, compare_natCast]

/-! ## Doubles -/

/-- Where a double stands. -/
def standing (x : Float) : ℤ ×ₗ ℤ ×ₗ ℤ := place x.toModel.unpack

theorem unpack_ne_notANumber {x : Float} (number : x.isNaN = false) :
    x.toModel.unpack ≠ .notANumber := by
  intro same
  have missing : x.toModel.unpack.isNaN = false := number
  rw [same] at missing
  cases missing

theorem lt_iff_standing {x y : Float} (left : x.isNaN = false) (right : y.isNaN = false) :
    x < y ↔ standing x < standing y := by
  rw [lt_iff, compare_eq_place (unpack_ne_notANumber left) (unpack_ne_notANumber right),
    Option.some.injEq, compare_lt_iff_lt]
  rfl

theorem beq_iff_standing {x y : Float} (left : x.isNaN = false) (right : y.isNaN = false) :
    (x == y) = true ↔ standing x = standing y := by
  show (x.toModel.unpack.compare y.toModel.unpack == some .eq) = true ↔ _
  rw [beq_iff_eq, compare_eq_place (unpack_ne_notANumber left) (unpack_ne_notANumber right),
    Option.some.injEq, compare_eq_iff_eq]
  rfl

/-! ## Whole numbers -/

/-- A double that stands for a whole number, which may be negative. -/
inductive Signifies (a : ℤ) : UnpackedFloat → Prop
  | zero (sign : Sign) : a = 0 → Signifies a (.zero sign)
  | normal {sign : Sign} {m : Nat} {e : ℤ} (positive : 0 < m) : 2 ^ 52 ≤ m → m < 2 ^ 53 → -52 ≤ e →
      sign.apply (m * 2 ^ (e + 52).toNat : Nat) = a * 2 ^ 52 →
      Signifies a (.finite sign m e positive)

/-- Normal mantissas and exponents are in the order of the numbers that they stand for. -/
theorem scaled_lt {m m' : Nat} {e e' : ℤ} (high : m < 2 ^ 53) (low' : 2 ^ 52 ≤ m') (least : -52 ≤ e)
    (before : e < e' ∨ e = e' ∧ m < m') : m * 2 ^ (e + 52).toNat < m' * 2 ^ (e' + 52).toNat := by
  rcases before with less | ⟨rfl, less⟩
  · calc m * 2 ^ (e + 52).toNat < 2 ^ 53 * 2 ^ (e + 52).toNat :=
      Nat.mul_lt_mul_of_pos_right high (Nat.two_pow_pos _)
      _ = 2 ^ 52 * 2 ^ ((e + 52).toNat + 1) := by rw [Nat.pow_succ]; omega
      _ ≤ 2 ^ 52 * 2 ^ (e' + 52).toNat :=
        Nat.mul_le_mul_left _ (Nat.pow_le_pow_right (by decide) (by omega))
      _ ≤ m' * 2 ^ (e' + 52).toNat := Nat.mul_le_mul_right _ low'
  · exact Nat.mul_lt_mul_of_pos_right less (Nat.two_pow_pos _)

namespace Signifies

variable {a b : ℤ} {f g : UnpackedFloat}

theorem isNaN_eq (signifies : Signifies a f) : f.isNaN = false := by
  cases signifies <;> rfl

theorem eq_of_place_eq (left : Signifies a f) (right : Signifies b g) (same : place f = place g) :
    a = b := by
  cases left with
  | zero sign none =>
    cases right with
    | zero sign' none' => rw [none, none']
    | @normal sign' m' e' =>
      cases sign' <;> simp [place] at same
  | @normal sign m e positive low high least value =>
    cases right with
    | zero sign' none' => cases sign <;> simp [place] at same
    | @normal sign' m' e' positive' low' high' least' value' =>
      have parts : sign = sign' ∧ e = e' ∧ m = m' := by
        cases sign <;> cases sign' <;> simp_all [place]
      obtain ⟨rfl, rfl, rfl⟩ := parts
      omega

theorem lt_of_place_lt (left : Signifies a f) (right : Signifies b g) (less : place f < place g) :
    a < b := by
  cases left with
  | zero sign none =>
    cases right with
    | zero sign' none' => exact absurd less (lt_irrefl _)
    | @normal sign' m' e' positive' low' high' least' value' =>
      have some : 0 < m' * 2 ^ (e' + 52).toNat := Nat.mul_pos positive' (Nat.two_pow_pos _)
      cases sign' with
      | negative => simp [place, Prod.Lex.lt_iff] at less
      | positive =>
        simp only [Sign.apply] at value'
        omega
  | @normal sign m e positive low high least value =>
    have some : 0 < m * 2 ^ (e + 52).toNat := Nat.mul_pos positive (Nat.two_pow_pos _)
    cases right with
    | zero sign' none' =>
      cases sign with
      | negative =>
        simp only [Sign.apply] at value
        omega
      | positive => simp [place, Prod.Lex.lt_iff] at less
    | @normal sign' m' e' positive' low' high' least' value' =>
      have some' : 0 < m' * 2 ^ (e' + 52).toNat := Nat.mul_pos positive' (Nat.two_pow_pos _)
      cases sign with
      | negative =>
        cases sign' with
        | negative =>
          have before : e' < e ∨ e' = e ∧ m' < m := by
            simp [place, Prod.Lex.lt_iff] at less
            omega
          have more := scaled_lt high' low least' before
          simp only [Sign.apply] at value value'
          omega
        | positive =>
          simp only [Sign.apply] at value value'
          omega
      | positive =>
        cases sign' with
        | negative => simp [place, Prod.Lex.lt_iff] at less
        | positive =>
          have before : e < e' ∨ e = e' ∧ m < m' := by
            simp [place, Prod.Lex.lt_iff] at less
            omega
          have more := scaled_lt high low' least before
          simp only [Sign.apply] at value value'
          omega

theorem place_lt_iff (left : Signifies a f) (right : Signifies b g) :
    place f < place g ↔ a < b := by
  constructor
  · intro less
    exact left.lt_of_place_lt right less
  · intro less
    rcases lt_trichotomy (place f) (place g) with before | same | behind
    · exact before
    · exact absurd (left.eq_of_place_eq right same) (by omega)
    · exact absurd (right.lt_of_place_lt left behind) (by omega)

end Signifies

theorem Represents.scaled {n m : Nat} {e : ℤ} (least : -52 ≤ e)
    (value : m * 2 ^ e.toNat = n * 2 ^ (-e).toNat) :
    m * 2 ^ (e + 52).toNat = n * 2 ^ 52 := by
  have powers : (e + 52).toNat + (-e).toNat = e.toNat + 52 := by omega
  refine Nat.eq_of_mul_eq_mul_right (Nat.two_pow_pos (-e).toNat) ?_
  calc m * 2 ^ (e + 52).toNat * 2 ^ (-e).toNat = m * 2 ^ e.toNat * 2 ^ 52 := by
        rw [Nat.mul_assoc, ← Nat.pow_add, powers, Nat.pow_add, Nat.mul_assoc]
    _ = n * 2 ^ 52 * 2 ^ (-e).toNat := by rw [value, Nat.mul_right_comm]

theorem Represents.signifies {n : Nat} {f : UnpackedFloat} (represents : Represents n f) :
    Signifies n f := by
  cases represents with
  | zero none => exact .zero _ (by omega)
  | normal positive low high least most value =>
    refine .normal positive low high least ?_
    have scaled := Represents.scaled least value
    simp only [Sign.apply]
    omega

/-- The double of a whole number of up to 53 bits stands for it. -/
theorem signifies_ofInt {a : ℤ} (small : a.natAbs ≤ 2 ^ 53) :
    Signifies a (Float.ofInt a).toModel.unpack := by
  cases a with
  | ofNat n =>
    have small : n ≤ 2 ^ 53 := small
    have represents := represents_ofNat (n := n) (by omega)
    rw [nearest_eq_of_le (by omega)] at represents
    exact represents.signifies
  | negSucc n =>
    have represents := represents_ofNat (n := n + 1) (by omega)
    rw [nearest_eq_of_le (by omega)] at represents
    show Signifies _ (Float.Model.pack (Float.ofNat (n + 1)).toModel.unpack.neg).unpack
    cases found : (Float.ofNat (n + 1)).toModel.unpack with
    | finite sign m e positive =>
      rw [found] at represents
      cases represents with
      | normal _ low high least most value =>
        rw [UnpackedFloat.neg, unpack_pack_normal _ positive low high least most]
        refine .normal positive low high least ?_
        have scaled := Represents.scaled least value
        show -((m * 2 ^ (e + 52).toNat : Nat) : ℤ) = _
        omega
    | _ =>
      rw [found] at represents
      cases represents <;> omega

theorem isNaN_ofInt {a : ℤ} (small : a.natAbs ≤ 2 ^ 53) : (Float.ofInt a).isNaN = false :=
  (signifies_ofInt small).isNaN_eq

theorem standing_ofInt_lt_iff {a b : ℤ} (left : a.natAbs ≤ 2 ^ 53) (right : b.natAbs ≤ 2 ^ 53) :
    standing (Float.ofInt a) < standing (Float.ofInt b) ↔ a < b :=
  (signifies_ofInt left).place_lt_iff (signifies_ofInt right)

end JarMetrics.Double
