import Mathlib.Algebra.Group.Nat.Defs
import TensorPlan.Json.Tree
/-! Numbers that are finite as doubles. Rounding keeps a quotient of no more than 64 bits far below infinity. -/
namespace TensorPlan

theorem pow2Eq (n : Nat) : pow2 n = 2 ^ n := rfl

namespace Binary
variable {f : BinaryFormat} {m : Nat}

theorem widthSign (f : BinaryFormat) : 2 ^ f.width = 2 * signBit f := by
  rw [BinaryFormat.width, Nat.pow_succ, Nat.mul_comm]
  rfl

theorem bitsOf (negative : Bool) (small : m < signBit f) :
    (ofMagnitude f negative m).bits.toNat = if negative then signBit f + m else m := by
  have width := widthSign f
  have bits : (if negative then signBit f + m else m) < 2 * signBit f := by split <;> omega
  rw [ofMagnitude, ofBits, BitVec.toNat_ofNat, width, Nat.mod_eq_of_lt bits]

theorem magnitudeOf (negative : Bool) (small : m < signBit f) : (ofMagnitude f negative m).magnitude = m := by
  rw [magnitude, bitsOf negative small]
  split
  · rw [Nat.add_mod_left, Nat.mod_eq_of_lt small]
  · exact Nat.mod_eq_of_lt small

theorem negativeOf (negative : Bool) (small : m < signBit f) : (ofMagnitude f negative m).negative = negative := by
  rw [Binary.negative, bitsOf negative small]
  cases negative with
  | false => exact decide_eq_false (Nat.not_le_of_lt small)
  | true => exact decide_eq_true (Nat.le_add_right _ _)

theorem bitsSplit (x : Binary f) : x.bits.toNat = (if x.negative then signBit f else 0) + x.magnitude := by
  have bound := x.bits.isLt
  rw [widthSign] at bound
  rw [Binary.negative, Binary.magnitude]
  split
  · rename_i above
    rw [decide_eq_true_eq] at above
    rw [Nat.mod_eq_sub_mod above, Nat.mod_eq_of_lt (by omega)]
    omega
  · rename_i below
    rw [decide_eq_true_eq] at below
    rw [Nat.mod_eq_of_lt (by omega), Nat.zero_add]

theorem sameParts {x y : Binary f} (negative : x.negative = y.negative) (magnitude : x.magnitude = y.magnitude) : x = y := by
  have bits : x.bits = y.bits := BitVec.eq_of_toNat_eq (by rw [bitsSplit x, bitsSplit y, negative, magnitude])
  cases x
  cases y
  exact congrArg Binary.mk bits

theorem infinitySmall (f : BinaryFormat) : f.infinity < signBit f := by
  rw [BinaryFormat.infinity, signBit, pow2Eq, pow2Eq, pow2Eq, Nat.pow_add]
  exact Nat.mul_lt_mul_of_pos_right (Nat.sub_lt (Nat.two_pow_pos _) Nat.one_pos) (Nat.two_pow_pos _)

theorem finiteOf (negative : Bool) (below : m < f.infinity) : (ofMagnitude f negative m).value?.isSome = true := by
  have own := magnitudeOf negative (Nat.lt_trans below (infinitySmall f))
  have number : (ofMagnitude f negative m).isNaN = false := by
    rw [isNaN, own]
    exact decide_eq_false (Nat.not_lt_of_lt below)
  rw [value?, read, own, number, if_neg Bool.false_ne_true, if_neg (Nat.ne_of_lt below)]
  rfl

theorem roundNear (num den : Nat) : roundQuotient num den ≤ num / den + 1 := by
  unfold roundQuotient
  dsimp only
  split
  · omega
  · split <;> omega

theorem unitsQuotient {num bits : Nat} {e : Int} (near : (num.log2 : Int) ≤ e + bits) :
    (inUnits num 1 e).1 / (inUnits num 1 e).2 < 2 ^ (bits + 1) := by
  have own : num < 2 ^ (num.log2 + 1) := Nat.lt_log2_self
  unfold inUnits
  split
  · have fits : 2 ^ (num.log2 + 1) ≤ 2 ^ (bits + 1 + e.toNat) := Nat.pow_le_pow_right Nat.two_pos (by omega)
    rw [Nat.one_mul, pow2Eq]
    refine Nat.div_lt_of_lt_mul (Nat.lt_of_lt_of_le own ?_)
    rwa [Nat.mul_comm, ← Nat.pow_add]
  · have fits : 2 ^ (num.log2 + 1 + (-e).toNat) ≤ 2 ^ (bits + 1) := Nat.pow_le_pow_right Nat.two_pos (by omega)
    rw [Nat.div_one, pow2Eq]
    refine Nat.lt_of_lt_of_le (Nat.mul_lt_mul_of_pos_right own (Nat.two_pow_pos _)) ?_
    rwa [← Nat.pow_add]

theorem placeNear (f : BinaryFormat) (num : Nat) : (num.log2 : Int) ≤ place f num 1 + (f.fractionBits + 1 : Nat) ∧
    place f num 1 ≤ max ((num.log2 : Int) - f.fractionBits) f.minPlace := by
  unfold place
  dsimp only
  rw [show Nat.log2 1 = 0 from rfl]
  split <;> omega

theorem finiteInt {v : Int} (word : v.natAbs < 2 ^ 64) : (ofInt .double v).value?.isSome = true := by
  rw [ofInt, nearest, Rat.num_intCast, Rat.den_intCast, ofQuotient]
  split
  · exact finiteOf _ (by decide)
  · rename_i other
    have short : v.natAbs.log2 < 64 := (Nat.log2_lt other).mpr word
    obtain ⟨near, far⟩ := placeNear .double v.natAbs
    have quotient := unitsQuotient near
    dsimp only
    generalize place .double v.natAbs 1 = e at *
    generalize inUnits v.natAbs 1 e = units at *
    obtain ⟨n, d⟩ := units
    have rounded := roundNear n d
    have least : BinaryFormat.double.minPlace = -1074 := by decide
    have fraction : BinaryFormat.double.fractionBits = 52 := rfl
    rw [least, fraction] at far
    rw [fraction] at quotient
    dsimp only at quotient
    rw [least]
    -- the exponent is at most 1085 steps above the least one, and rounding can carry no further than to 2 ^ 54
    have below : (e - -1074).toNat * 2 ^ 52 + roundQuotient n d < 2047 * 2 ^ 52 := by omega
    exact finiteOf _ (Nat.lt_of_le_of_lt (Nat.min_le_left _ _) below)

end Binary
end TensorPlan
