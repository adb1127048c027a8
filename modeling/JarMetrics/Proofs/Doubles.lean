import JarMetrics.Settings.Lenient
import Mathlib

/-!
# Doubles of whole numbers

A whole number that is given as a double is rounded to 53 bits, and the double is cut to a whole
number again. `wholePart_ofNat`: of a number below `2 ^ 63` comes the number nearest to it that has
53 bits, and of one that is rounded up to `2 ^ 63` the least number there is. Up to `2 ^ 53` nothing
is lost (`nearest_eq_of_le`).

`roundedQuotient` is what shifting a mantissa and rounding it comes to
(`roundedMantissa_shiftRight`), and `Represents` says which number a double stands for. Every step
from the number to the double and back keeps it.
-/

namespace JarMetrics.Double

open Float.Model Float.Model.UnpackedFloat

/-! ## Rounding -/

/-- `n / 2 ^ k`, rounded to the nearest number; of two that are equally near, to the even one. -/
def roundedQuotient (n k : Nat) : Nat :=
  if 2 * (n % 2 ^ k) < 2 ^ k ∨ 2 * (n % 2 ^ k) = 2 ^ k ∧ n / 2 ^ k % 2 = 0 then
    n / 2 ^ k
  else n / 2 ^ k + 1

/-- What the double nearest to a number stands for. -/
def nearest (n : Nat) : Nat := roundedQuotient n (n.log2 - 52) * 2 ^ (n.log2 - 52)

theorem shiftRight_succ (n k : Nat) :
    (⟨n, false, false⟩ : ExtendedMantissa) >>> (k + 1) =
      ⟨n / 2 ^ (k + 1), n / 2 ^ k % 2 != 0, n % 2 ^ k != 0⟩ := by
  induction k with
  | zero =>
    show ExtendedMantissa.shiftRightOne ⟨n, false, false⟩ = _
    simp [ExtendedMantissa.shiftRightOne, Nat.mod_one]
  | succ k ih =>
    show ExtendedMantissa.shiftRightOne ((⟨n, false, false⟩ : ExtendedMantissa) >>> (k + 1)) = _
    have bits : n % 2 ^ (k + 1) = n % 2 ^ k + 2 ^ k * (n / 2 ^ k % 2) := Nat.mod_pow_succ
    have halves : n / 2 ^ (k + 1) / 2 = n / 2 ^ (k + 1 + 1) := by
      rw [Nat.div_div_eq_div_mul, ← Nat.pow_succ]
    have positive : 0 < 2 ^ k := Nat.two_pow_pos k
    rw [ih, ExtendedMantissa.shiftRightOne, ExtendedMantissa.mk.injEq]
    refine ⟨halves, rfl, ?_⟩
    rw [Bool.eq_iff_iff]
    rcases Nat.mod_two_eq_zero_or_one (n / 2 ^ k) with even | odd
    · simp [even, bits]
    · simp [odd, bits]

theorem roundedMantissa_shiftRight (n k : Nat) :
    ((⟨n, false, false⟩ : ExtendedMantissa) >>> k).roundedMantissa = roundedQuotient n k := by
  cases k with
  | zero =>
    show n = _
    simp [roundedQuotient, Nat.mod_one]
  | succ k =>
    have bits : n % 2 ^ (k + 1) = n % 2 ^ k + 2 ^ k * (n / 2 ^ k % 2) := Nat.mod_pow_succ
    have rest : n % 2 ^ k < 2 ^ k := Nat.mod_lt _ (Nat.two_pow_pos k)
    rw [shiftRight_succ, roundedQuotient, bits, Nat.pow_succ]
    rcases Nat.mod_two_eq_zero_or_one (n / 2 ^ k) with even | odd
    · -- less than half is cut off
      rw [even, Nat.mul_zero, Nat.add_zero, if_pos (.inl (by omega))]
      cases rest' : n % 2 ^ k != 0 <;> rfl
    · rw [odd, Nat.mul_one]
      rcases Nat.eq_zero_or_pos (n % 2 ^ k) with none | more
      · -- exactly half
        have tie : (n % 2 ^ k != 0) = false := by simp [none]
        rw [tie, none]
        show n / (2 ^ k * 2) + n / (2 ^ k * 2) % 2 = _
        split <;> omega
      · -- more than half
        have above : (n % 2 ^ k != 0) = true := by simpa using Nat.ne_of_gt more
        rw [above, if_neg (by omega)]
        rfl

/-- The exponent at which 53 bits are kept, or the least one. -/
theorem targetExponent_eq (n : Nat) (e : Int) :
    Format.binary64.targetExponent (totalExponent n e) =
      max ((n.log2 : Int) + 1 + e - 53) (-1074) := rfl

theorem shiftToTargetExponent_eq {n k : Nat} {e : Int} (bits : n.log2 = 52 + k)
    (least : -1074 ≤ e + k) :
    shiftToTargetExponent .binary64 n e .exact =
      ((⟨n, false, false⟩ : ExtendedMantissa) >>> k, e + k) := by
  have target : Format.binary64.targetExponent (totalExponent n e) = e + k := by
    rw [targetExponent_eq, bits]
    omega
  have shift : (e + k - e).toNat = k := by omega
  unfold shiftToTargetExponent shiftToExponent
  simp only [target, shift]
  rfl

theorem quotient_bounds {n k : Nat} (bits : n.log2 = 52 + k) :
    2 ^ 52 ≤ n / 2 ^ k ∧ n / 2 ^ k < 2 ^ 53 := by
  have positive : n ≠ 0 := by
    rintro rfl
    rw [Nat.log2_zero] at bits
    omega
  obtain ⟨least, most⟩ := (Nat.log2_eq_iff positive).mp bits
  constructor
  · rwa [Nat.le_div_iff_mul_le (Nat.two_pow_pos k), ← Nat.pow_add]
  · rwa [Nat.div_lt_iff_lt_mul (Nat.two_pow_pos k), ← Nat.pow_add,
      show 53 + k = 52 + k + 1 by omega]

theorem roundedQuotient_bounds {n k : Nat} (bits : n.log2 = 52 + k) :
    2 ^ 52 ≤ roundedQuotient n k ∧ roundedQuotient n k ≤ 2 ^ 53 := by
  obtain ⟨least, most⟩ := quotient_bounds bits
  unfold roundedQuotient
  split <;> omega

/-- A number of at least 53 bits is rounded to 53 bits; where this carries into a 54th bit, to one
bit less. -/
theorem roundWithAccuracy_eq {n k : Nat} {e : Int} (bits : n.log2 = 52 + k)
    (least : -1074 ≤ e + k) :
    ∃ m x positive, roundWithAccuracy .binary64 .positive n e .exact =
      .finite .positive m x positive ∧
      2 ^ 52 ≤ m ∧ m < 2 ^ 53 ∧
      (m = roundedQuotient n k ∧ x = e + k ∨ m = 2 ^ 52 ∧ x = e + k + 1 ∧
        roundedQuotient n k = 2 ^ 53) := by
  obtain ⟨low, high⟩ := roundedQuotient_bounds bits
  unfold roundWithAccuracy
  simp only [shiftToTargetExponent_eq bits least, roundedMantissa_shiftRight]
  rcases Nat.lt_or_eq_of_le high with fits | carries
  · have again : (roundedQuotient n k).log2 = 52 + 0 := (Nat.log2_eq_iff (by omega)).mpr ⟨low, fits⟩
    simp only [shiftToTargetExponent_eq again (show -1074 ≤ e + k + (0 : Nat) by omega)]
    refine ⟨roundedQuotient n k, e + k + (0 : Nat), by omega, dif_neg ?_, low,
      fits, .inl ⟨rfl, by omega⟩⟩
    show ¬ roundedQuotient n k = 0
    omega
  · have again : (roundedQuotient n k).log2 = 52 + 1 := by
      rw [carries]
      exact Nat.log2_two_pow
    simp only [shiftToTargetExponent_eq again (show -1074 ≤ e + k + (1 : Nat) by omega),
      shiftRight_succ]
    refine ⟨2 ^ 52, e + k + 1, by omega, ?_, by omega, by omega, .inr ⟨rfl, rfl, carries⟩⟩
    simp [carries]

/-! ## Doubles of numbers -/

/-- A double stands for a number: it is zero, or it has a mantissa of 53 bits and an exponent within
bounds. -/
inductive Represents (n : Nat) : UnpackedFloat → Prop
  | zero : n = 0 → Represents n (.zero .positive)
  | normal {m : Nat} {e : Int} (positive : 0 < m) : 2 ^ 52 ≤ m → m < 2 ^ 53 → -52 ≤ e → e ≤ 11 →
      m * 2 ^ e.toNat = n * 2 ^ (-e).toNat → Represents n (.finite .positive m e positive)

theorem unpack_pack_zero : (Float.Model.pack (.zero .positive)).unpack = .zero .positive := rfl

/-- The leading bit of a mantissa is not kept, as it is always set. -/
theorem toNat_leading {m : Nat} (low : 2 ^ 52 ≤ m) (high : m < 2 ^ 53) :
    (1#1 ++ BitVec.ofNat 52 m).toNat = m := by
  rw [BitVec.toNat_append, ← Nat.shiftLeft_add_eq_or_of_lt (BitVec.isLt _),
    BitVec.toNat_ofNat, Nat.shiftLeft_eq, BitVec.toNat_ofNat]
  omega

theorem pack_normal (sign : Sign) {m : Nat} {e : Int} (positive : 0 < m) (low : 2 ^ 52 ≤ m)
    (high : m < 2 ^ 53) (most : e ≤ 11) :
    UnpackedFloat.pack .binary64 (.finite sign m e positive) =
      packComponents .binary64 sign (BitVec.ofNat 11 (e + 1075).toNat) (BitVec.ofNat 52 m) := by
  have bits : m.log2 = 52 := (Nat.log2_eq_iff (by omega)).mpr ⟨low, high⟩
  have biased :
      (e + Format.binary64.exponentBias + Format.binary64.mantissaBitsWithoutImplicit).toNat =
      (e + 1075).toNat := by
    show (e + 1023 + 52).toNat = _
    omega
  have finite : ¬ 2 ^ Format.binary64.exponentBits ≤ (e + 1075).toNat + 1 := by
    show ¬ 2048 ≤ _
    omega
  have whole : 52 + 1 = Format.binary64.mantissaBits := rfl
  unfold UnpackedFloat.pack
  simp only [bits, biased]
  rw [if_neg finite, if_pos whole]

theorem unpack_pack_normal (sign : Sign) {m : Nat} {e : Int} (positive : 0 < m) (low : 2 ^ 52 ≤ m)
    (high : m < 2 ^ 53) (least : -52 ≤ e) (most : e ≤ 11) :
    (Float.Model.pack (.finite sign m e positive)).unpack = .finite sign m e positive := by
  have small : (e + 1075).toNat % 2 ^ 11 = (e + 1075).toNat := Nat.mod_eq_of_lt (by omega)
  have notSpecial : BitVec.ofNat 11 (e + 1075).toNat ≠ -1#11 := by
    intro same
    have numbers := congrArg BitVec.toNat same
    rw [BitVec.toNat_ofNat, small] at numbers
    replace numbers : (e + 1075).toNat = 2047 := numbers
    omega
  have notZero : BitVec.ofNat 11 (e + 1075).toNat ≠ 0#11 := by
    intro same
    have numbers := congrArg BitVec.toNat same
    rw [BitVec.toNat_ofNat, small] at numbers
    replace numbers : (e + 1075).toNat = 0 := numbers
    omega
  show UnpackedFloat.unpack .binary64 (UnpackedFloat.pack .binary64 (.finite sign m e positive)) = _
  rw [pack_normal sign positive low high most]
  unfold UnpackedFloat.unpack
  simp only [unpackMantissa_packComponents, unpackExponent_packComponents,
    unpackSign_packComponents, if_neg notSpecial, if_neg notZero, toNat_leading low high,
    BitVec.toNat_ofNat, small, Sign.ofBitVec_toBitVec]
  congr 1
  show ((e + 1075).toNat : Int) - (1023 + 52) = e
  omega

theorem Represents.unpack_pack {n : Nat} {f : UnpackedFloat} (represents : Represents n f) :
    (Float.Model.pack f).unpack = f := by
  cases represents with
  | zero => exact unpack_pack_zero
  | normal positive low high least most =>
    exact unpack_pack_normal .positive positive low high least most

/-- Rounding gives the double of a number whose mantissa and exponent it finds. -/
theorem represents_round {n m k : Nat} {e x : Int} (bits : m.log2 = 52 + k) (exponent : x = e + k)
    (least : -52 ≤ x) (most : x ≤ 10)
    (value : roundedQuotient m k * 2 ^ x.toNat = n * 2 ^ (-x).toNat) :
    Represents n (roundWithAccuracy .binary64 .positive m e .exact) := by
  obtain ⟨m', x', positive, rounded, low, high, same | ⟨rfl, carried, full⟩⟩ :=
    roundWithAccuracy_eq bits (show -1074 ≤ e + k by omega)
  · obtain ⟨rfl, rfl⟩ := same
    rw [rounded]
    subst exponent
    exact .normal positive low high least (by omega) value
  · rw [rounded]
    obtain rfl : x' = x + 1 := by omega
    refine .normal positive low high (by omega) (by omega) ?_
    rw [full] at value
    -- the carry halves the mantissa and doubles the power
    rcases Int.lt_or_le x 0 with negative | whole
    · have up : (-x).toNat = (-(x + 1)).toNat + 1 := by omega
      have none : x.toNat = 0 ∧ (x + 1).toNat = 0 := by omega
      rw [up, none.1, Nat.pow_succ (m := (-(x + 1)).toNat), ← Nat.mul_assoc] at value
      rw [none.2]
      omega
    · have up : (x + 1).toNat = x.toNat + 1 := by omega
      have none : (-x).toNat = 0 ∧ (-(x + 1)).toNat = 0 := by omega
      rw [none.1] at value
      rw [up, none.2, Nat.pow_succ]
      omega

theorem roundedQuotient_zero (n : Nat) : roundedQuotient n 0 = n := by
  simp [roundedQuotient, Nat.mod_one]

/-- Powers of two that both sides have in common do not matter. -/
theorem roundedQuotient_mul (n j k : Nat) :
    roundedQuotient (n * 2 ^ j) (k + j) = roundedQuotient n k := by
  have positive : 0 < 2 ^ j := Nat.two_pow_pos j
  unfold roundedQuotient
  simp only [Nat.pow_add, Nat.mul_mod_mul_right,
    Nat.mul_div_mul_right _ _ positive, ← Nat.mul_assoc, Nat.mul_lt_mul_right positive,
    Nat.mul_right_cancel_iff positive]

theorem log2_mul_two_pow {n : Nat} (positive : 0 < n) (k : Nat) :
    (n * 2 ^ k).log2 = n.log2 + k := by
  induction k with
  | zero => rw [Nat.pow_zero, Nat.mul_one, Nat.add_zero]
  | succ k ih =>
    have nonzero : n * 2 ^ k ≠ 0 := Nat.ne_of_gt (Nat.mul_pos positive (Nat.two_pow_pos k))
    rw [Nat.pow_succ, ← Nat.mul_assoc, Nat.mul_comm _ 2,
      Nat.log2_two_mul nonzero, ih, Nat.add_assoc]

theorem represents_ofNat_small {n : Nat} (small : n < 2 ^ 53) :
    Represents n (UnpackedFloat.ofNat .binary64 n) := by
  rcases Nat.eq_zero_or_pos n with rfl | positive
  · exact .zero rfl
  · have bits : n.log2 < 53 := (Nat.log2_lt (Nat.ne_of_gt positive)).mpr small
    have filled : (n * 2 ^ (52 - n.log2)).log2 = 52 + 0 := by
      rw [log2_mul_two_pow positive]
      omega
    have target : Format.binary64.targetExponent (totalExponent n 0) =
        -((52 - n.log2 : Nat) : Int) := by
      rw [targetExponent_eq]
      omega
    have shift : (0 - -((52 - n.log2 : Nat) : Int)).toNat = 52 - n.log2 := by omega
    have ordered : compare (n : Int) 0 = .gt := Int.compare_eq_gt.mpr (Int.natCast_pos.mpr positive)
    unfold UnpackedFloat.ofNat UnpackedFloat.ofInt UnpackedFloat.normalize
    simp only [ordered, Int.toNat_natCast]
    unfold UnpackedFloat.round decreaseExponent
    simp only [target, shift, Nat.shiftLeft_eq]
    refine represents_round filled rfl (by omega) (by omega) ?_
    have negated : (-(0 - ((52 - n.log2 : Nat) : Int) + (0 : Nat))).toNat = 52 - n.log2 := by omega
    have none : (0 - ((52 - n.log2 : Nat) : Int) + (0 : Nat)).toNat = 0 := by omega
    rw [roundedQuotient_zero, negated, none, Nat.pow_zero, Nat.mul_one]

/-- A double times one is itself. -/
theorem Represents.mul_one {n : Nat} {f : UnpackedFloat} (represents : Represents n f)
    (small : n < 2 ^ 53) :
    Represents n
      (UnpackedFloat.mul .binary64 f (.finite .positive (2 ^ 52) (-52) (Nat.two_pow_pos 52))) := by
  cases represents with
  | zero none => exact .zero none
  | @normal m e positive low high least most value =>
    have bits : m.log2 = 52 := (Nat.log2_eq_iff (by omega)).mpr ⟨low, high⟩
    have filled : (m * 2 ^ 52).log2 = 52 + 52 := by rw [log2_mul_two_pow positive, bits]
    have fraction : e ≤ 0 := by
      by_contra whole
      have none : (-e).toNat = 0 := by omega
      have some : 2 ^ 1 ≤ 2 ^ e.toNat := Nat.pow_le_pow_right (by decide) (by omega)
      have product := Nat.mul_le_mul low some
      rw [value, none] at product
      omega
    have same : roundedQuotient (m * 2 ^ 52) 52 = m := by
      have scaled := roundedQuotient_mul m 52 0
      rwa [Nat.zero_add, roundedQuotient_zero] at scaled
    have exponent : e = e + -52 + (52 : Nat) := by omega
    show Represents n (roundWithAccuracy .binary64 .positive (m * 2 ^ 52) (e + -52) .exact)
    exact represents_round filled exponent least (by omega) (by rwa [same])

theorem nearest_eq_of_lt {n : Nat} (small : n < 2 ^ 53) : nearest n = n := by
  have bits : n.log2 - 52 = 0 := by
    rcases Nat.eq_zero_or_pos n with rfl | positive
    · rw [Nat.log2_zero]
    · have := (Nat.log2_lt (Nat.ne_of_gt positive)).mpr small
      omega
  rw [nearest, bits, roundedQuotient_zero, Nat.pow_zero, Nat.mul_one]

theorem represents_ofScientific_large {n : Nat} (large : 2 ^ 53 ≤ n) (small : n < 2 ^ 63) :
    Represents (nearest n) (UnpackedFloat.ofScientific .binary64 n 0) := by
  have positive : 0 < n := by omega
  have least : 53 ≤ n.log2 := (Nat.le_log2 (Nat.ne_of_gt positive)).mpr large
  have most : n.log2 < 63 := (Nat.log2_lt (Nat.ne_of_gt positive)).mpr small
  have filled : (n * 2 ^ 53).log2 = 52 + (n.log2 - 52 + 53) := by
    rw [log2_mul_two_pow positive]
    omega
  have exponent : ((n.log2 - 52 : Nat) : Int) =
      -(53 : Nat) + 0 + ((n.log2 - 52 + 53 : Nat) : Int) := by omega
  have product : (Sign.positive * Sign.positive : Sign) = .positive := rfl
  have width : Format.binary64.mantissaBits = 53 := rfl
  have inside : ¬ (0 : Int) < -((2 : Int) ^ Format.binary64.exponentBits + n.log2) := by
    show ¬ (0 : Int) < -(2048 + n.log2)
    omega
  unfold UnpackedFloat.ofScientific
  rw [dif_neg (Nat.ne_of_gt positive), if_neg (by decide), if_neg inside, if_pos (Int.le_refl 0)]
  simp only [UnpackedFloat.mul, product, width, Nat.shiftLeft_eq, Int.toNat_zero,
    Nat.pow_zero, Nat.mul_one]
  refine represents_round filled exponent (by omega) (by omega) ?_
  have none : (-((n.log2 - 52 : Nat) : Int)).toNat = 0 := by omega
  rw [roundedQuotient_mul, Int.toNat_natCast, none, Nat.pow_zero, Nat.mul_one, nearest]

/-- The double of a number stands for the nearest number that has one. -/
theorem represents_ofNat {n : Nat} (small : n < 2 ^ 63) :
    Represents (nearest n) (Float.ofNat n).toModel.unpack := by
  rcases Nat.lt_or_ge n (2 ^ 53) with few | large
  · rw [nearest_eq_of_lt few]
    have represents := represents_ofNat_small few
    have product := represents.mul_one few
    have number : n.toUInt64.toNat = n := by
      rw [Nat.toUInt64_eq, UInt64.toNat_ofNat']
      omega
    have one : (Float.ofBits 0x3FF0000000000000).toModel.unpack =
        .finite .positive (2 ^ 52) (-52) (Nat.two_pow_pos 52) :=
      rfl
    have fast : (Float.ofNat n).toModel =
        Float.Model.pack
          (UnpackedFloat.mul .binary64 (Float.Model.pack (UnpackedFloat.ofNat .binary64 n)).unpack
          (Float.ofBits 0x3FF0000000000000).toModel.unpack) := by
      show (Float.ofScientific n false 0).toModel = _
      unfold Float.ofScientific
      rw [dif_pos ⟨few, by decide⟩]
      show Float.Model.pack (UnpackedFloat.mul .binary64
        (Float.Model.pack (UnpackedFloat.ofNat .binary64 n.toUInt64.toNat)).unpack _) = _
      rw [number]
      rfl
    rw [fast, one, represents.unpack_pack, product.unpack_pack]
    exact product
  · have represents := represents_ofScientific_large large small
    have slow : (Float.ofNat n).toModel =
        Float.Model.pack (UnpackedFloat.ofScientific .binary64 n 0) := by
      show (Float.ofScientific n false 0).toModel = _
      unfold Float.ofScientific
      rw [dif_neg (by omega)]
      rfl
    rw [slow, represents.unpack_pack]
    exact represents

/-! ## Numbers of doubles -/

theorem lt_iff (x y : Float) : x < y ↔ x.toModel.unpack.compare y.toModel.unpack = some .lt := by
  show decide ((x.toModel.unpack.compare y.toModel.unpack == some .lt) = true) = true ↔ _
  rw [decide_eq_true_iff, beq_iff_eq]

theorem le_of_compare {x y : Float} (less : x.toModel.unpack.compare y.toModel.unpack = some .lt) :
    x ≤ y := by
  show decide ((x.toModel.unpack.compare y.toModel.unpack).any (·.isLE) = true) = true
  rw [less]
  rfl

theorem mantissa_shiftRight (n k : Nat) :
    ((⟨n, false, false⟩ : ExtendedMantissa) >>> k).mantissa = n / 2 ^ k := by
  cases k with
  | zero => exact (Nat.div_one n).symm
  | succ k => rw [shiftRight_succ]

namespace Represents

variable {n : Nat} {f : UnpackedFloat}

theorem toInt_eq (represents : Represents n f) (least most : Int) : f.toInt least most = n := by
  cases represents with
  | zero none =>
    rw [none]
    rfl
  | @normal m e positive low high _ _ value =>
    have up : (e - 0).toNat = e.toNat := by omega
    have down : (0 - (e - (e.toNat : Int))).toNat = (-e).toNat := by omega
    unfold UnpackedFloat.toInt roundToInt decreaseExponent shiftToExponent
    simp only [up, down, Nat.shiftLeft_eq, ExtendedMantissa.ofMantissaAndAccuracy,
      mantissa_shiftRight, value, Nat.mul_div_cancel _ (Nat.two_pow_pos _)]
    rfl

theorem compare_zero (represents : Represents n f) : f.compare (.zero .positive) ≠ some .lt := by
  cases represents with
  | zero => decide
  | normal => intro less; cases less

theorem compare_least (represents : Represents n f) (m : Nat) (e : Int) (positive : 0 < m) :
    UnpackedFloat.compare (.finite .negative m e positive) f = some .lt := by
  cases represents with
  | zero => rfl
  | normal => rfl

theorem lt_limit_iff {m : Nat} {e : Int} (low : 2 ^ 52 ≤ m) (high : m < 2 ^ 53) (most : e ≤ 11)
    (value : m * 2 ^ e.toNat = n * 2 ^ (-e).toNat) : e < 11 ↔ n < 2 ^ 63 := by
  constructor
  · intro below
    calc n ≤ n * 2 ^ (-e).toNat := Nat.le_mul_of_pos_right n (Nat.two_pow_pos _)
      _ = m * 2 ^ e.toNat := value.symm
      _ < 2 ^ 53 * 2 ^ e.toNat := Nat.mul_lt_mul_of_pos_right high (Nat.two_pow_pos _)
      _ ≤ 2 ^ 53 * 2 ^ 10 := Nat.mul_le_mul_left _ (Nat.pow_le_pow_right (by decide) (by omega))
      _ = 2 ^ 63 := by decide
  · intro small
    by_contra above
    obtain rfl : e = 11 := by omega
    have value' : m * 2048 = n * 1 := value
    omega

theorem compare_limit (represents : Represents n f) :
    f.compare (.finite .positive (2 ^ 52) 11 (Nat.two_pow_pos 52)) = some .lt ↔ n < 2 ^ 63 := by
  cases represents with
  | zero none => simp [none, UnpackedFloat.compare]
  | @normal m e positive low high least most value =>
    rw [← lt_limit_iff low high most value]
    show some ((compare e 11).then (compare m (2 ^ 52))) = some .lt ↔ _
    rw [Option.some_inj, Ordering.then_eq_lt, Int.compare_eq_lt, Nat.compare_eq_lt]
    omega

end Represents

theorem not_lt_zero {n : Nat} {x : Float} (represents : Represents n x.toModel.unpack) :
    ¬ x < 0.0 := by
  have zero : (0.0 : Float).toModel.unpack = .zero .positive := rfl
  rw [lt_iff, zero]
  exact represents.compare_zero

/-- A double that stands for a number of up to 63 bits gives it back; one that stands for more gives
the least number. -/
theorem wholePart_eq {n : Nat} {x : Float} (represents : Represents n x.toModel.unpack) :
    Value.wholePart x = if n < 2 ^ 63 then (n : Int) else -9223372036854775808 := by
  have limit : (9223372036854775808.0 : Float).toModel.unpack =
      .finite .positive (2 ^ 52) 11 (Nat.two_pow_pos 52) := rfl
  have least : (-9223372036854775808.0 : Float).toModel.unpack =
      .finite .negative (2 ^ 52) 11 (Nat.two_pow_pos 52) := rfl
  have below : x < 9223372036854775808.0 ↔ n < 2 ^ 63 := by
    rw [lt_iff, limit]
    exact represents.compare_limit
  have above : -9223372036854775808.0 ≤ x := by
    refine le_of_compare ?_
    rw [least]
    exact represents.compare_least _ _ _
  unfold Value.wholePart
  by_cases small : n < 2 ^ 63
  · have inside :
        (decide (x < 9223372036854775808.0) && decide (-9223372036854775808.0 ≤ x)) = true := by
      rw [decide_eq_true (below.mpr small), decide_eq_true above, Bool.and_true]
    rw [if_pos inside, if_neg (not_lt_zero represents), if_pos small]
    show ((UInt64.ofNatClamp (x.toModel.unpack.toInt 0 (UInt64.size - 1)).toNat).toNat : Int) = n
    rw [represents.toInt_eq, Int.toNat_natCast, UInt64.toNat_ofNatClamp_of_lt]
    show n < 18446744073709551616
    omega
  · have outside :
        ¬ (decide (x < 9223372036854775808.0) && decide (-9223372036854775808.0 ≤ x)) = true := by
      rw [decide_eq_false (mt below.mp small), Bool.false_and]
      exact Bool.false_ne_true
    rw [if_neg outside, if_neg small]

/-! ## The nearest number -/

theorem nearest_eq_of_le {n : Nat} (small : n ≤ 2 ^ 53) : nearest n = n := by
  rcases Nat.lt_or_eq_of_le small with less | rfl
  · exact nearest_eq_of_lt less
  · decide +kernel

theorem le_nearest {n : Nat} (large : 2 ^ 53 ≤ n) : 2 ^ 53 ≤ nearest n := by
  have least := (Nat.le_log2 (n := n) (k := 53) (by omega)).mpr large
  have bits : n.log2 = 52 + (n.log2 - 52) := by omega
  have more : 2 ^ 1 ≤ 2 ^ (n.log2 - 52) := Nat.pow_le_pow_right (by decide) (by omega)
  exact Nat.mul_le_mul (roundedQuotient_bounds bits).1 more

theorem nearest_pos {n : Nat} (positive : 0 < n) : 0 < nearest n := by
  rcases Nat.le_total n (2 ^ 53) with small | large
  · rwa [nearest_eq_of_le small]
  · exact Nat.lt_of_lt_of_le (by decide) (le_nearest large)

/-- The largest numbers of 63 bits are rounded to one of 64 bits. -/
theorem nearest_lt_iff {n : Nat} (small : n < 2 ^ 63) : nearest n < 2 ^ 63 ↔ n < 2 ^ 63 - 512 := by
  rcases Nat.lt_or_ge n (2 ^ 62) with less | large
  · -- two powers of two below the limit
    have below : nearest n < 2 ^ 63 := by
      rcases Nat.lt_or_ge n (2 ^ 53) with few | many
      · rw [nearest_eq_of_lt few]
        exact small
      · have least := (Nat.le_log2 (n := n) (k := 53) (by omega)).mpr many
        have most := (Nat.log2_lt (n := n) (k := 62) (by omega)).mpr less
        have bits : n.log2 = 52 + (n.log2 - 52) := by omega
        have power : 2 ^ (n.log2 - 52) ≤ 2 ^ 9 := Nat.pow_le_pow_right (by decide) (by omega)
        have product : nearest n ≤ 2 ^ 53 * 2 ^ 9 :=
          Nat.mul_le_mul (roundedQuotient_bounds bits).2 power
        omega
    exact iff_of_true below (by omega)
  · -- the last ten bits are cut off
    have bits : n.log2 = 62 := (Nat.log2_eq_iff (by omega)).mpr ⟨large, small⟩
    unfold nearest roundedQuotient
    rw [bits]
    split <;> omega

theorem wholePart_ofNat {n : Nat} (small : n < 2 ^ 63) :
    Value.wholePart (Float.ofNat n) = if n < 2 ^ 63 - 512 then (nearest n : Int)
      else -9223372036854775808 := by
  rw [wholePart_eq (represents_ofNat small)]
  simp only [nearest_lt_iff small]

end JarMetrics.Double
