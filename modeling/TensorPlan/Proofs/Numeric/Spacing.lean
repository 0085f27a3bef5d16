import Mathlib.Algebra.Order.Ring.Unbundled.Rat
import Mathlib.Data.Rat.Lemmas
import TensorPlan.Proofs.Numeric.Finite
import TensorPlan.Proofs.RowMajor
/-! Integers as doubles. A double that is an integer is a multiple of the spacing of the doubles of its size, which is one
up to 53 bits. So every integer is rounded to the nearest multiple, and those that are rounded alike have one double. -/
namespace TensorPlan

theorem scaledPower (m e : Int) : scaled m e = m * 2 ^ e := by
  unfold scaled
  split
  · rename_i natural
    obtain ⟨n, rfl⟩ := Int.eq_ofNat_of_zero_le natural
    rw [Int.toNat_natCast, pow2Eq, zpow_natCast]
    push_cast
    rfl
  · rename_i negative
    obtain ⟨n, rfl⟩ : ∃ n : Nat, e = -n := ⟨(-e).toNat, by omega⟩
    rw [Int.neg_neg, Int.toNat_natCast, pow2Eq, zpow_neg, zpow_natCast, Rat.mkRat_eq_div, div_eq_mul_inv]
    push_cast
    rfl

theorem scaledCarry (m e : Int) : scaled m (e + 1) = scaled (m + m) e := by
  rw [scaledPower, scaledPower, zpow_add₀ (by decide), zpow_one, Rat.intCast_add, ← mul_two, mul_assoc, mul_comm (2 ^ e)]

theorem quotientMultiple (q : Nat) {d : Nat} (positive : 0 < d) : roundQuotient (q * d) d = q := by
  rw [roundQuotient, Nat.mul_mod_left, Nat.mul_div_cancel q positive]
  exact if_pos positive

theorem roundAbove (num den : Nat) : num / den ≤ roundQuotient num den := by
  unfold roundQuotient
  dsimp only
  split
  · exact Nat.le_refl _
  · split <;> omega

theorem scaledNeg (m e : Int) : scaled (-m) e = -scaled m e := by
  rw [scaledPower, scaledPower, Rat.intCast_neg, neg_mul]

theorem bitsBelow {n k : Nat} (below : n < 2 ^ k) (some : 0 < k) : n.log2 < k := by
  by_cases zero : n = 0
  · subst zero
    exact some
  · exact (Nat.log2_lt zero).mpr below

theorem BinaryFormat.doubleBottom : double.minPlace = -1074 := by decide

namespace Binary
open BinaryFormat (doubleBottom)
variable {n : Nat} {v w : Int}

def spacing (n : Nat) : Nat := 2 ^ (n.log2 - 52)

def nearestMultiple (n : Nat) : Nat := roundQuotient n (spacing n) * spacing n

def rounded (v : Int) : Int := v.sign * nearestMultiple v.natAbs

theorem roundedNegative (negative : v < 0) : rounded v = -nearestMultiple v.natAbs := by
  rw [rounded, Int.sign_eq_neg_one_of_neg negative, Int.neg_one_mul]

theorem roundedPositive (positive : 0 < v) : rounded v = nearestMultiple v.natAbs := by
  rw [rounded, Int.sign_eq_one_of_pos positive, Int.one_mul]

theorem spacingPositive (n : Nat) : 0 < spacing n := Nat.two_pow_pos _

theorem multipleExact : nearestMultiple n = n ↔ spacing n ∣ n := by
  constructor
  · exact fun same => ⟨_, (same.symm.trans (Nat.mul_comm _ _))⟩
  · rintro ⟨q, same⟩
    have exact := quotientMultiple q (spacingPositive n)
    rw [Nat.mul_comm, ← same] at exact
    rw [nearestMultiple, exact, Nat.mul_comm, ← same]

theorem roundedExact : rounded v = v ↔ (spacing v.natAbs : Int) ∣ v := by
  rw [Int.natCast_dvd, ← multipleExact]
  conv_lhs => rhs; rw [← Int.sign_mul_natAbs v]
  by_cases zero : v = 0
  · subst zero
    decide
  · have sign : v.sign ≠ 0 := by simpa using zero
    rw [rounded, Int.mul_eq_mul_left_iff sign]
    exact Int.ofNat_inj

theorem spacingOne (small : n.log2 ≤ 52) : spacing n = 1 := by rw [spacing, Nat.sub_eq_zero_of_le small, Nat.pow_zero]

def significand (n : Nat) : Nat := roundQuotient (n * 2 ^ (52 - n.log2)) (spacing n)

theorem unitsInt (n : Nat) : inUnits n 1 (n.log2 - 52) = (n * 2 ^ (52 - n.log2), spacing n) := by
  unfold inUnits spacing
  split
  · have whole : 52 - n.log2 = 0 := by omega
    have place : ((n.log2 : Int) - 52).toNat = n.log2 - 52 := by omega
    rw [whole, place, Nat.pow_zero, Nat.mul_one, Nat.one_mul, pow2Eq]
  · have whole : n.log2 - 52 = 0 := by omega
    have place : (-((n.log2 : Int) - 52)).toNat = 52 - n.log2 := by omega
    rw [whole, place, Nat.pow_zero, pow2Eq]

section
variable (some : n ≠ 0)
include some

theorem quotientLeast : 2 ^ 52 ≤ n * 2 ^ (52 - n.log2) / spacing n := by
  rw [Nat.le_div_iff_mul_le (spacingPositive n), spacing, ← Nat.pow_add,
    show 52 + (n.log2 - 52) = n.log2 + (52 - n.log2) by omega, Nat.pow_add]
  exact Nat.mul_le_mul_right _ (Nat.log2_self_le some)

theorem significandBounds : 2 ^ 52 ≤ significand n ∧ significand n ≤ 2 ^ 53 := by
  have greatest := @unitsQuotient n 52 (n.log2 - 52) (by omega)
  rw [unitsInt] at greatest
  have below := roundNear (n * 2 ^ (52 - n.log2)) (spacing n)
  exact ⟨Nat.le_trans (quotientLeast some) (roundAbove _ _), Nat.le_trans below greatest⟩

theorem placeInt : place .double n 1 = n.log2 - 52 := by
  have upper : (n.log2 : Int) - Nat.log2 1 - BinaryFormat.double.fractionBits = n.log2 - 52 := by
    rw [show Nat.log2 1 = 0 from rfl, show BinaryFormat.double.fractionBits = 52 from rfl]
    omega
  rw [place, upper, unitsInt, doubleBottom]
  dsimp only
  rw [show pow2 BinaryFormat.double.fractionBits = 2 ^ 52 from rfl, if_neg (Nat.not_lt.mpr (quotientLeast some))]
  omega

end

theorem significandValue (n : Nat) : scaled (significand n) (n.log2 - 52) = nearestMultiple n := by
  rw [scaledPower, significand, nearestMultiple]
  rcases Nat.le_total 52 n.log2 with large | small
  · have whole : 52 - n.log2 = 0 := by omega
    have place : (n.log2 : Int) - 52 = (n.log2 - 52 : Nat) := by omega
    rw [whole, place, Nat.pow_zero, Nat.mul_one, zpow_natCast]
    push_cast [spacing]
    rfl
  · have place : (n.log2 : Int) - 52 = -(52 - n.log2 : Nat) := by omega
    have exact := quotientMultiple (n * 2 ^ (52 - n.log2)) Nat.one_pos
    have own := quotientMultiple n Nat.one_pos
    rw [Nat.mul_one] at exact own
    rw [spacingOne small, exact, own, Nat.mul_one, place, zpow_neg, zpow_natCast]
    push_cast
    rw [mul_assoc, mul_inv_cancel₀ (pow_ne_zero _ (by decide)), mul_one]

theorem readSignificand {f : BinaryFormat} {e s : Nat} (negative : Bool) (least : 2 ^ f.fractionBits ≤ s)
    (greatest : s ≤ 2 * 2 ^ f.fractionBits) (below : e * 2 ^ f.fractionBits + s < f.infinity) :
    (ofMagnitude f negative (e * 2 ^ f.fractionBits + s)).read =
      .finite negative (scaled (if negative then -(s : Int) else s) (f.minPlace + e)) := by
  have small := Nat.lt_trans below (infinitySmall f)
  have magnitude := magnitudeOf negative small
  have number : (ofMagnitude f negative (e * 2 ^ f.fractionBits + s)).isNaN = false := by
    rw [isNaN, magnitude]
    exact decide_eq_false (Nat.not_lt_of_lt below)
  rw [read, number, magnitude, if_neg Bool.false_ne_true, if_neg (Nat.ne_of_lt below), negativeOf negative small, parts,
    magnitude]
  dsimp only
  rw [pow2Eq]
  obtain ⟨t, rfl⟩ := Nat.exists_eq_add_of_le least
  rcases Nat.lt_or_ge t (2 ^ f.fractionBits) with fits | carry
  · have split : e * 2 ^ f.fractionBits + (2 ^ f.fractionBits + t) = (e + 1) * 2 ^ f.fractionBits + t := by
      rw [Nat.succ_mul, Nat.add_assoc]
    rw [split, quotientDigit fits, Nat.mul_add_mod', Nat.mod_eq_of_lt fits, if_neg (Nat.succ_ne_zero e), Nat.add_sub_cancel]
  · have full : t = 2 ^ f.fractionBits := by omega
    subst full
    have split : e * 2 ^ f.fractionBits + (2 ^ f.fractionBits + 2 ^ f.fractionBits) = (e + 2) * 2 ^ f.fractionBits + 0 := by
      rw [Nat.add_mul, Nat.two_mul, Nat.add_zero]
    have place : f.minPlace + ((e + 2 - 1 : Nat) : Int) = f.minPlace + e + 1 := by omega
    have doubled : (if negative then -((2 ^ f.fractionBits + 2 ^ f.fractionBits : Nat) : Int)
        else (2 ^ f.fractionBits + 2 ^ f.fractionBits : Nat)) = (if negative then -((2 ^ f.fractionBits : Nat) : Int)
          else (2 ^ f.fractionBits : Nat)) + if negative then -((2 ^ f.fractionBits : Nat) : Int)
          else (2 ^ f.fractionBits : Nat) := by split <;> omega
    rw [split, quotientDigit (Nat.two_pow_pos _), Nat.mul_add_mod', Nat.zero_mod, if_neg (Nat.succ_ne_zero (e + 1)),
      Nat.add_zero, place, scaledCarry, doubled]

theorem ofIntSignificand (some : v ≠ 0) (short : v.natAbs.log2 ≤ 64) :
    ofInt .double v = ofMagnitude .double (decide (v < 0)) ((v.natAbs.log2 + 1022) * 2 ^ 52 + significand v.natAbs) ∧
      (v.natAbs.log2 + 1022) * 2 ^ 52 + significand v.natAbs < BinaryFormat.double.infinity := by
  have other : v.natAbs ≠ 0 := by simpa using some
  obtain ⟨_, greatest⟩ := significandBounds other
  have place : ((v.natAbs.log2 : Int) - 52 - -1074).toNat = v.natAbs.log2 + 1022 := by omega
  have below : (v.natAbs.log2 + 1022) * 2 ^ 52 + significand v.natAbs < BinaryFormat.double.infinity := by
    rw [show BinaryFormat.double.infinity = 2047 * 2 ^ 52 from rfl]
    omega
  refine ⟨?_, below⟩
  rw [ofInt, nearest, Rat.num_intCast, Rat.den_intCast, if_neg (by simpa using some), ofQuotient, if_neg other, placeInt other]
  dsimp only
  rw [unitsInt, doubleBottom, place]
  dsimp only
  rw [← significand, show pow2 BinaryFormat.double.fractionBits = 2 ^ 52 from rfl, Nat.min_eq_left (Nat.le_of_lt below)]
  congr 1
  exact decide_eq_decide.mpr Rat.intCast_neg_iff

theorem readInt (short : v.natAbs.log2 ≤ 64) : (ofInt .double v).read = .finite (decide (v < 0)) (rounded v) := by
  by_cases zero : v = 0
  · subst zero
    decide +kernel
  · have other : v.natAbs ≠ 0 := by simpa using zero
    obtain ⟨bits, below⟩ := ofIntSignificand zero short
    obtain ⟨least, greatest⟩ := significandBounds other
    have bottom : BinaryFormat.double.minPlace + ((v.natAbs.log2 + 1022 : Nat) : Int) = v.natAbs.log2 - 52 := by
      rw [doubleBottom]
      omega
    have twice : significand v.natAbs ≤ 2 * 2 ^ 52 := by omega
    rw [bits]
    refine (@readSignificand .double _ _ _ least twice below).trans (congrArg _ ?_)
    have value := significandValue v.natAbs
    rw [bottom]
    rcases Int.lt_or_gt_of_ne zero with negative | positive
    · rw [if_pos (decide_eq_true negative), scaledNeg, value, roundedNegative negative]
      push_cast
      rfl
    · rw [if_neg (by simpa using Int.le_of_lt positive), value, roundedPositive positive]
      push_cast
      rfl

theorem valueNearest (zeroSign : Bool) (short : v.natAbs.log2 ≤ 64) :
    (nearest .double zeroSign v).value? = some (rounded v : Rat) := by
  by_cases zero : v = 0
  · subst zero
    cases zeroSign <;> decide +kernel
  · have other : (v : Rat) ≠ 0 := by simpa using zero
    have own : nearest .double zeroSign v = ofInt .double v := by rw [ofInt, nearest, nearest, if_neg other, if_neg other]
    rw [own, value?, readInt short]

theorem multipleSmall (small : n.log2 ≤ 52) : nearestMultiple n = n := by
  rw [multipleExact, spacingOne small]
  exact Nat.one_dvd n

theorem multipleLarge {k : Nat} (large : n.log2 = 52 + k) : nearestMultiple n = significand n * 2 ^ k := by
  rw [nearestMultiple, significand, spacing, large, Nat.sub_self_add, Nat.pow_zero, Nat.mul_one, Nat.add_sub_cancel_left]

theorem multipleBelow {k : Nat} (below : n ≤ 2 ^ k) : nearestMultiple n ≤ 2 ^ k := by
  by_cases zero : n = 0
  · subst zero
    exact Nat.zero_le _
  · rcases Nat.lt_or_eq_of_le below with less | rfl
    · have short := (Nat.log2_lt zero).mpr less
      rcases Nat.le_total n.log2 52 with small | large
      · rw [multipleSmall small]
        exact below
      · obtain ⟨j, length⟩ := Nat.exists_eq_add_of_le large
        rw [multipleLarge length]
        refine Nat.le_trans (Nat.mul_le_mul_right _ (significandBounds zero).2) ?_
        rw [← Nat.pow_add]
        exact Nat.pow_le_pow_right Nat.two_pos (by omega)
    · refine Nat.le_of_eq (multipleExact.mpr ?_)
      rw [spacing, Nat.log2_two_pow]
      exact Nat.pow_dvd_pow 2 (Nat.sub_le k 52)

theorem multipleAgain (some : n ≠ 0) : nearestMultiple n ≠ 0 ∧ (nearestMultiple n).log2 ≤ n.log2 + 1 ∧
    ((nearestMultiple n).log2 + 1022) * 2 ^ 52 + significand (nearestMultiple n) =
      (n.log2 + 1022) * 2 ^ 52 + significand n := by
  obtain ⟨least, greatest⟩ := significandBounds some
  rcases Nat.le_total n.log2 52 with small | large
  · rw [multipleSmall small]
    exact ⟨some, Nat.le_succ _, rfl⟩
  · obtain ⟨k, length⟩ := Nat.exists_eq_add_of_le large
    have own := multipleLarge length
    have filled : nearestMultiple n ≠ 0 := by
      rw [own]
      exact Nat.mul_ne_zero (by omega) (Nat.ne_of_gt (Nat.two_pow_pos k))
    have again : ∀ q j, (nearestMultiple n).log2 = 52 + j → nearestMultiple n = q * 2 ^ j →
        significand (nearestMultiple n) = q := fun q j bits same => by
      rw [significand, spacing, bits, Nat.sub_self_add, Nat.pow_zero, Nat.mul_one, Nat.add_sub_cancel_left, same]
      exact quotientMultiple q (Nat.two_pow_pos j)
    rcases Nat.lt_or_eq_of_le greatest with fits | carry
    · have bits : (nearestMultiple n).log2 = 52 + k := by
        rw [Nat.log2_eq_iff filled, own, Nat.add_right_comm, Nat.pow_add, Nat.pow_add]
        exact ⟨Nat.mul_le_mul_right _ least, Nat.mul_lt_mul_of_pos_right fits (Nat.two_pow_pos k)⟩
      exact ⟨filled, by omega, by rw [again _ k bits own, bits, length]⟩
    · have power : nearestMultiple n = 2 ^ (52 + (k + 1)) := by
        rw [own, carry, ← Nat.pow_add]
        congr 1
        omega
      have bits : (nearestMultiple n).log2 = 52 + (k + 1) := by rw [power, Nat.log2_two_pow]
      have half := again (2 ^ 52) (k + 1) bits (by rw [power, Nat.pow_add])
      refine ⟨filled, by omega, ?_⟩
      rw [half, bits, length, carry]
      omega

theorem finiteNumber {f : BinaryFormat} {x : Binary f} {negative : Bool} {value : Rat}
    (finite : x.read = .finite negative value) : x.isNaN = false := by
  unfold read at finite
  split at finite
  · cases finite
  · exact Bool.eq_false_of_not_eq_true ‹_›

theorem orderKeyValue {f : BinaryFormat} {x y : Binary f} (same : x.orderKey = y.orderKey) : x.value? = y.value? := by
  have magnitudes : x.magnitude = y.magnitude := by
    unfold orderKey at same
    split at same <;> split at same <;> omega
  have numbers : x.isNaN = y.isNaN := by rw [isNaN, isNaN, magnitudes]
  have both : x.parts = y.parts := by rw [parts, parts, magnitudes]
  rw [value?, value?, read, read, numbers, magnitudes, both]
  by_cases signs : x.negative = y.negative
  · rw [signs]
  · have zero : y.magnitude = 0 := by
      cases first : x.negative <;> cases second : y.negative
      · exact (signs (first.trans second.symm)).elim
      · rw [orderKey, orderKey, first, second, if_neg Bool.false_ne_true, if_pos rfl] at same
        omega
      · rw [orderKey, orderKey, first, second, if_pos rfl, if_neg Bool.false_ne_true] at same
        omega
      · exact (signs (first.trans second.symm)).elim
    have nothing : y.parts.1 = 0 := by rw [parts, zero, Nat.zero_mod, Nat.zero_div, if_pos rfl]
    dsimp only
    rw [nothing, Int.natCast_zero, Int.neg_zero, ite_self, ite_self]
    by_cases number : y.isNaN = true
    · rw [if_pos number, if_pos number]
    · by_cases infinite : y.magnitude = f.infinity
      · rw [if_neg number, if_neg number, if_pos infinite, if_pos infinite]
      · rw [if_neg number, if_neg number, if_neg infinite, if_neg infinite]

theorem roundedSize (v : Int) : (rounded v).natAbs = nearestMultiple v.natAbs := by
  by_cases zero : v = 0
  · subst zero
    rfl
  · rw [rounded, Int.natAbs_mul, Int.natAbs_sign_of_ne_zero zero, Nat.one_mul, Int.natAbs_natCast]

theorem ofIntRounded (word : v.natAbs < 2 ^ 64) :
    (rounded v).natAbs.log2 ≤ 64 ∧ ofInt .double (rounded v) = ofInt .double v := by
  have short := bitsBelow word (by decide)
  by_cases zero : v = 0
  · subst zero
    exact ⟨by decide, rfl⟩
  · obtain ⟨filled, length, same⟩ := multipleAgain (Int.natAbs_ne_zero.mpr zero)
    have size := roundedSize v
    have sign : rounded v < 0 ↔ v < 0 := by
      rcases Int.lt_or_gt_of_ne zero with negative | positive
      · have value := roundedNegative negative
        omega
      · have value := roundedPositive positive
        omega
    have bound : (rounded v).natAbs.log2 ≤ 64 := by rw [size]; omega
    obtain ⟨bits, _⟩ := ofIntSignificand zero (Nat.le_of_lt short)
    obtain ⟨bits', _⟩ := ofIntSignificand (by rw [← Int.natAbs_ne_zero, size]; exact filled) bound
    exact ⟨bound, by rw [bits, bits', size, same, decide_eq_decide.mpr sign]⟩

theorem roundedAgain (word : v.natAbs < 2 ^ 64) : rounded (rounded v) = rounded v := by
  obtain ⟨bound, again⟩ := ofIntRounded word
  have read := readInt bound
  rw [again, readInt (Nat.le_of_lt (bitsBelow word (by decide)))] at read
  exact Rat.intCast_inj.mp (Reading.finite.inj read.symm).2

theorem sameInt (first : v.natAbs < 2 ^ 64) (second : w.natAbs < 2 ^ 64) :
    (ofInt .double v).same (ofInt .double w) = true ↔ rounded v = rounded w := by
  have own := readInt (Nat.le_of_lt (bitsBelow first (by decide)))
  have other := readInt (Nat.le_of_lt (bitsBelow second (by decide)))
  rw [same, finiteNumber own, finiteNumber other, Bool.not_false, Bool.true_and, Bool.true_and, decide_eq_true_eq]
  constructor
  · intro keys
    have values := orderKeyValue keys
    rw [value?, value?, own, other] at values
    exact Rat.intCast_inj.mp (Option.some.inj values)
  · intro equal
    rw [← (ofIntRounded first).2, equal, (ofIntRounded second).2]

end Binary
end TensorPlan
