import TensorPlan.Proofs.Element.Carried
import TensorPlan.Proofs.Numeric.Ties
/-! Fractions made ready for integer types. The bounds are read off as doubles, so that the upper one of 64 bits is a power
of two. A finite double and the integer next to it are both exact, so doubles are made ready as exact fractions are: they
are rounded to an integer, and the integer is clamped. -/
namespace TensorPlan

namespace Binary
variable {x : Double} {v : Rat} {n : Int}

theorem significandShort (x : Double) : x.parts.1 < 2 ^ 53 := by
  have fraction : x.magnitude % pow2 BinaryFormat.double.fractionBits < 2 ^ 52 := Nat.mod_lt _ (Nat.two_pow_pos 52)
  rw [parts, show pow2 BinaryFormat.double.fractionBits = 2 ^ 52 from rfl] at *
  split <;> omega

theorem valueRead (value : x.value? = some v) : ∃ negative, x.read = .finite negative v := by
  unfold value? at value
  split at value
  · cases value
    exact ⟨_, ‹_›⟩
  · cases value

theorem valueParts (value : x.value? = some v) : ∃ (m : Nat) (e : Int), m < 2 ^ 53 ∧ |v| = m * 2 ^ e := by
  refine ⟨x.parts.1, x.parts.2, significandShort x, ?_⟩
  obtain ⟨negative, finite⟩ := valueRead value
  rw [read] at finite
  generalize x.parts = parts at finite ⊢
  split at finite
  · cases finite
  · split at finite
    · cases finite
    · rw [← (Reading.finite.inj finite).2, scaledPower, abs_mul, abs_of_nonneg (zpow_nonneg (show (0 : Rat) ≤ 2 by decide) _)]
      split <;> simp

theorem spacingDivides {m : Nat} (short : m < 2 ^ 53) (k : Nat) : spacing (m * 2 ^ k) ∣ m * 2 ^ k := by
  by_cases zero : m = 0
  · rw [zero, Nat.zero_mul]
    exact Nat.dvd_zero _
  · have below : m * 2 ^ k < 2 ^ (53 + k) := by
      rw [Nat.pow_add]
      exact Nat.mul_lt_mul_of_pos_right short (Nat.two_pow_pos k)
    have length := bitsBelow below (by omega)
    exact Nat.dvd_trans (Nat.pow_dvd_pow 2 (by omega)) (Nat.dvd_mul_left _ m)

theorem integerExact (value : x.value? = some v) (near : |v - n| < 1) (own : ∀ w : Int, v = w → n = w) :
    rounded n = n := by
  obtain ⟨m, e, short, size⟩ := valueParts value
  rw [roundedExact]
  rcases Int.le_total 0 e with natural | negative
  · obtain ⟨k, rfl⟩ := Int.eq_ofNat_of_zero_le natural
    have whole : |v| = ((m * 2 ^ k : Nat) : Int) := by
      rw [size]
      push_cast
      rw [zpow_natCast]
    obtain ⟨w, same, count⟩ : ∃ w : Int, v = w ∧ w.natAbs = m * 2 ^ k := by
      rcases abs_choice v with positive | negative
      · exact ⟨_, positive.symm.trans whole, rfl⟩
      · exact ⟨-(m * 2 ^ k : Nat), by rw [Int.cast_neg, ← whole, negative, neg_neg], Int.natAbs_neg _⟩
    rw [own w same, Int.natCast_dvd, count]
    exact spacingDivides short k
  · have power : (2 : Rat) ^ e ≤ 1 := zpow_le_one_of_nonpos₀ (by norm_num) negative
    have least : |v| ≤ m := by
      rw [size]
      exact mul_le_of_le_one_right (Nat.cast_nonneg m) power
    have greatest : (m : Rat) + 1 ≤ 2 ^ 53 := by exact_mod_cast short
    have bound : |(n : Rat)| < 2 ^ 53 :=
      calc |(n : Rat)|
        _ = |v - (v - n)| := by rw [sub_sub_cancel]
        _ ≤ |v| + |v - n| := abs_sub v (v - n)
        _ < 2 ^ 53 := by linarith
    have small : n.natAbs < 2 ^ 53 := by
      rw [← Int.cast_abs, Int.abs_eq_natAbs] at bound
      exact_mod_cast bound
    rw [spacingOne (Nat.le_of_lt_succ (bitsBelow small (by decide)))]
    exact Int.one_dvd n

end Binary

namespace ElementType
open Binary (rounded)
open Rounding (NearestEven TowardZero)
variable {t : ElementType} {low high : Int}

def prepareExact (t : ElementType) (r : Rounding) (v : Rat) : Option Rat :=
  match t.integerRange? with
  | none => some v
  | some _ => do
    let least ← t.valueRange.1.value?
    let greatest ← t.valueRange.2.value?
    let n : Rat := r.toInteger v
    return if n < least then least else if greatest < n then greatest else n

theorem highRounded (range : t.integerRange? = some (low, high)) :
    rounded high = (if t = i64 then 2 ^ 63 else high) ∧ rounded high ≤ high + 1 := by
  cases t <;> cases range <;> decide +kernel

theorem boundShort (range : t.integerRange? = some (low, high)) {w : Int} (above : low ≤ w) (below : w ≤ high) :
    w.natAbs.log2 ≤ 64 := by
  have bound := rangeWord range above below
  exact Nat.le_of_lt (bitsBelow (show w.natAbs < 2 ^ 64 by omega) (by decide))

theorem rangeValues (range : t.integerRange? = some (low, high)) :
    t.valueRange.1.value? = some (low : Rat) ∧ t.valueRange.2.value? = some (rounded high : Rat) := by
  obtain ⟨least, _⟩ := boundsRounded range
  obtain ⟨negative, positive⟩ := rangeOrdered range
  have first := Binary.valueNearest false (boundShort range le_rfl (negative.trans positive))
  have last := Binary.valueNearest false (boundShort range (negative.trans positive) le_rfl)
  rw [least] at first
  simp only [valueRange, ElementType.integerExact range, range]
  exact ⟨first, last⟩

theorem preparedClamp (range : t.integerRange? = some (low, high)) (r : Rounding) (v : Rat) :
    t.prepareExact r v = some ((max low (min (rounded high) (r.toInteger v)) : Int) : Rat) := by
  obtain ⟨least, greatest⟩ := rangeValues range
  obtain ⟨negative, positive⟩ := rangeOrdered range
  have top := (boundsRounded range).2
  simp only [prepareExact, range, least, greatest, Option.bind_eq_bind, Option.bind_some, Option.pure_def, Int.cast_lt]
  refine congrArg some ?_
  split
  · exact congrArg Int.cast (by omega)
  · split <;> exact congrArg Int.cast (by omega)

theorem preparedExact (range : t.integerRange? = some (low, high)) {x : Double} {v : Rat} (value : x.value? = some v)
    (r : Rounding) : (t.prepare r x).value? = t.prepareExact r v := by
  obtain ⟨least, top⟩ := boundsRounded range
  obtain ⟨negative, positive⟩ := rangeOrdered range
  have next := (highRounded range).2
  obtain ⟨sign, finite⟩ := Binary.valueRead value
  have near := Rounding.toIntegerNear r v
  have own : ∀ w : Int, v = w → r.toInteger v = w := fun w same => by rw [same, Rounding.ofInteger]
  rw [preparedClamp range]
  simp only [prepare, range, finite]
  generalize r.toInteger v = n at near own
  split
  · rw [Binary.ofInt, Binary.valueNearest _ (boundShort range le_rfl (negative.trans positive)), least]
    exact congrArg (fun w : Int => some (w : Rat)) (by omega)
  · split
    · rw [Binary.ofInt, Binary.valueNearest _ (boundShort range (negative.trans positive) le_rfl)]
      exact congrArg (fun w : Int => some (w : Rat)) (by omega)
    · rw [Binary.valueNearest _ (boundShort range (by omega) (by omega)), Binary.integerExact value near own]
      exact congrArg (fun w : Int => some (w : Rat)) (by omega)

/-- Doubles are made ready for an integer type as their exact values are, and these are rounded to the nearest integer, of
two to the even one, or towards zero, and clamped between the bounds, of which the upper one of 64 bits is a power of two. -/
theorem preparedNearest (t : ElementType) (low high : Int) (range : t.integerRange? = some (low, high)) :
    ∃ greatest : Int, t.valueRange.1.value? = some (low : Rat) ∧ t.valueRange.2.value? = some (greatest : Rat) ∧
      greatest = (if t = i64 then 2 ^ 63 else high) ∧
      (∀ r (x : Double) v, x.value? = some v → (t.prepare r x).value? = t.prepareExact r v) ∧
      (∀ v, ∃ n, (∀ m, NearestEven v m ↔ m = n) ∧
        t.prepareExact .halfEven v = some ((max low (min greatest n) : Int) : Rat)) ∧
      (∀ v, ∃ n, (∀ m, TowardZero v m ↔ m = n) ∧
        t.prepareExact .towardZero v = some ((max low (min greatest n) : Int) : Rat)) ∧
      (∀ r v w v' w', v ≤ w → t.prepareExact r v = some v' → t.prepareExact r w = some w' → v' ≤ w') ∧
      ∀ r (n : Int), low ≤ n → n ≤ greatest → t.prepareExact r n = some (n : Rat) := by
  obtain ⟨first, last⟩ := rangeValues range
  refine ⟨rounded high, first, last, (highRounded range).1, fun r x v value => preparedExact range value r,
    fun v => ⟨_, fun m => Rounding.nearestEvenOnly, preparedClamp range .halfEven v⟩,
    fun v => ⟨_, fun m => Rounding.towardZeroOnly, preparedClamp range .towardZero v⟩,
    fun r v w v' w' order made made' => ?_, fun r n above below => ?_⟩
  · rw [preparedClamp range, Option.some.injEq] at made made'
    have ordered := Rounding.toIntegerOrder r order
    rw [← made, ← made', Int.cast_le]
    omega
  · rw [preparedClamp range, Rounding.ofInteger, min_eq_right below, max_eq_right above]

theorem preparedNearestOfHalf :
    let half := Binary.ofRat .double (7 / 2)
    i8.integerRange? = some (-128, 127) ∧ i64.integerRange? = some (-9223372036854775808, 9223372036854775807) ∧
      NearestEven (-5 / 2) (-2) ∧ i8.prepareExact .halfEven (-5 / 2) = some ((-2 : Int) : Rat) ∧
      TowardZero (-1001 / 7) (-143) ∧ i8.prepareExact .towardZero (-1001 / 7) = some ((-128 : Int) : Rat) ∧
      half.value? = some (7 / 2) ∧ (i8.prepare .halfEven half).value? = i8.prepareExact .halfEven (7 / 2) ∧
      i64.prepareExact .towardZero ((9223372036854775808 : Int) : Rat) = some ((9223372036854775808 : Int) : Rat) := by
  intro half
  obtain ⟨greatest, _, _, size, doubles, nearest, toward, _, _⟩ := preparedNearest i8 (-128) 127 rfl
  obtain ⟨greatest', _, _, size', _, _, _, _, kept⟩ := preparedNearest i64 _ _ rfl
  obtain ⟨n, only, made⟩ := nearest (-5 / 2)
  obtain ⟨m, only', made'⟩ := toward (-1001 / 7)
  have even : NearestEven (-5 / 2) (-2) := Rounding.nearestEvenOnly.mpr (by decide +kernel)
  have zero : TowardZero (-1001 / 7) (-143) := Rounding.towardZeroOnly.mpr (by decide +kernel)
  have value : half.value? = some (7 / 2) := by decide +kernel
  rw [← (only _).mp even, size] at made
  rw [← (only' _).mp zero, size] at made'
  exact ⟨rfl, rfl, even, made, zero, made', value, doubles _ _ _ value, kept _ _ (by decide) (by rw [size']; decide)⟩

end ElementType
end TensorPlan
