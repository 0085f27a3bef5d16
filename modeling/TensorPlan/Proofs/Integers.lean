import TensorPlan.Proofs.Encoding
import TensorPlan.Proofs.Numeric.Finite
/-! Integers as elements. Reading and writing are inverse where the type has the value, so that an integer survives the
way through a type whose range contains its own: the conversion neither rounds it nor clamps it. -/
namespace TensorPlan

namespace Bytes
variable {count n : Nat} {v : Int}

theorem oneMore (count : Nat) : pow2 (8 * (count + 1)) = 256 * pow2 (8 * count) := by
  rw [pow2Eq, pow2Eq, Nat.mul_succ, Nat.pow_add, Nat.mul_comm]

theorem toNatLess (bytes : Bytes) : bytes.toNat < pow2 (8 * bytes.length) := by
  induction bytes with
  | nil => decide
  | cons b bytes ih =>
    have byte : b.toNat < 256 := b.toNat_lt
    rw [List.length_cons, oneMore, toNat]
    omega

theorem ofNatToNat (bytes : Bytes) : ofNat bytes.length bytes.toNat = bytes := by
  induction bytes with
  | nil => rfl
  | cons b bytes ih =>
    have byte : b.toNat < 256 := b.toNat_lt
    have low : (b.toNat + 256 * toNat bytes) % 256 = b.toNat := by omega
    have high : (b.toNat + 256 * toNat bytes) / 256 = toNat bytes := by omega
    rw [List.length_cons, toNat, ofNat, low, high, ih, UInt8.ofNat_toNat]

theorem toNatOfNat (small : n < pow2 (8 * count)) : (ofNat count n).toNat = n := by
  induction count generalizing n with
  | zero =>
    have zero : n = 0 := Nat.lt_one_iff.mp small
    rw [zero]
    rfl
  | succ count ih =>
    rw [oneMore] at small
    have rest : n / 256 < pow2 (8 * count) := by omega
    have byte : (UInt8.ofNat (n % 256)).toNat = n % 256 := UInt8.toNat_ofNat_of_lt' (Nat.mod_lt _ (by decide))
    rw [ofNat, toNat, ih rest, byte, Nat.mod_add_div]

theorem ofIntBytes (bytes : Bytes) (same : v % (pow2 (8 * bytes.length) : Nat) = Bytes.toNat bytes) :
    ofInt bytes.length v = bytes := by
  rw [ofInt, same, Int.toNat_natCast, ofNatToNat]

theorem ofIntToNat (bytes : Bytes) : ofInt bytes.length (toNat bytes) = bytes :=
  ofIntBytes bytes (Int.emod_eq_of_lt (Int.natCast_nonneg _) (Int.ofNat_lt.mpr bytes.toNatLess))

theorem ofIntToInt (bytes : Bytes) : ofInt bytes.length bytes.toInt = bytes := by
  refine ofIntBytes bytes ?_
  rw [toInt, Int.bmod_emod]
  exact Int.emod_eq_of_lt (Int.natCast_nonneg _) (Int.ofNat_lt.mpr bytes.toNatLess)

theorem toNatOfInt (count : Nat) (v : Int) : ((ofInt count v).toNat : Int) = v % (pow2 (8 * count) : Nat) := by
  have positive : (0 : Int) < (pow2 (8 * count) : Nat) := Int.ofNat_lt.mpr (Nat.two_pow_pos _)
  have small := Int.emod_lt_of_pos v positive
  have natural := Int.emod_nonneg v (Int.ne_of_gt positive)
  rw [ofInt, toNatOfNat (by omega)]
  exact Int.toNat_of_nonneg natural

theorem toIntBounds (bytes : Bytes) (half : Nat) (double : pow2 (8 * bytes.length) = half + half) :
    -(half : Int) ≤ bytes.toInt ∧ bytes.toInt < half := by
  have positive : 0 < pow2 (8 * bytes.length) := Nat.two_pow_pos _
  have low := Int.le_bmod (x := bytes.toNat) positive
  have high := Int.bmod_lt (x := bytes.toNat) positive
  rw [double] at low high
  rw [toInt, double]
  omega

theorem toIntOfInt {half : Nat} (double : pow2 (8 * count) = half + half) (above : -(half : Int) ≤ v) (below : v < half) :
    (ofInt count v).toInt = v := by
  have length : (ofInt count v).length = count := ofNatLength _ _
  rw [toInt, length, toNatOfInt, double, Int.emod_bmod]
  exact Int.bmod_eq_of_le (by omega) (by omega)

end Bytes

namespace ElementType
variable {t wide narrow : ElementType} {low high v : Int} {bytes : Bytes}

theorem clampInside (above : low ≤ v) (below : v ≤ high) : clamp low high v = v := by
  rw [clamp, if_neg (Int.not_lt.mpr above), if_neg (Int.not_lt.mpr below)]

theorem writeInside [Widths] (range : t.integerRange? = some (low, high)) (above : low ≤ v) (below : v ≤ high) :
    t.writeInteger v = Bytes.ofInt t.size v := by
  have exact : t.floatFormat? = none := by cases t <;> first | rfl | cases range
  simp only [writeInteger, exact, range, clampInside above below]

theorem readRange (range : t.integerRange? = some (low, high)) (size : bytes.length = t.size) :
    ∃ v, t.readInteger? bytes = some v ∧ low ≤ v ∧ v ≤ high ∧ Bytes.ofInt t.size v = bytes := by
  have unsigned := bytes.toNatLess
  have signed := bytes.toIntBounds
  rw [size] at unsigned signed
  rw [← size]
  cases t with
  | f32 | f16 | bf16 => cases range
  | u8 =>
    cases range
    exact ⟨bytes.toNat, rfl, Int.natCast_nonneg _, Int.ofNat_le.mpr (Nat.le_of_lt_succ unsigned), bytes.ofIntToNat⟩
  | i8 | i32 | i64 =>
    cases range
    obtain ⟨above, below⟩ := signed _ rfl
    exact ⟨bytes.toInt, rfl, above, Int.le_of_lt_add_one below, bytes.ofIntToInt⟩

theorem readWritten [Widths] (range : t.integerRange? = some (low, high)) (above : low ≤ v) (below : v ≤ high) :
    t.readInteger? (t.writeInteger v) = some v := by
  rw [writeInside range above below]
  cases t with
  | f32 | f16 | bf16 => cases range
  | u8 =>
    cases range
    exact congrArg some ((Bytes.toNatOfInt 1 v).trans (Int.emod_eq_of_lt above (Int.lt_add_one_of_le below)))
  | i8 | i32 | i64 =>
    cases range
    exact congrArg some (Bytes.toIntOfInt rfl above (Int.lt_add_one_of_le below))

def Holds (wide narrow : ElementType) : Prop := wide = narrow ∨
  ∃ low high low' high', narrow.integerRange? = some (low, high) ∧ wide.integerRange? = some (low', high') ∧
    low' ≤ low ∧ high ≤ high'

theorem convertBack [Widths] (holds : wide.Holds narrow) (size : bytes.length = narrow.size) (r r' : Rounding) :
    wide.convert (narrow.convert bytes wide r) narrow r' = bytes := by
  by_cases same : wide = narrow
  · rw [convert, if_pos same, convert, if_pos same.symm]
  · obtain equal | ⟨low, high, low', high', range, range', lower, upper⟩ := holds
    · exact (same equal).elim
    · obtain ⟨v, read, above, below, written⟩ := readRange range size
      have back := readWritten range' (Int.le_trans lower above) (Int.le_trans below upper)
      have there : narrow.convert bytes wide r = wide.writeInteger v := by
        simp only [convert, if_neg (Ne.symm same), read]
      rw [there, convert, if_neg same, back]
      exact (writeInside range above below).trans written

end ElementType
end TensorPlan
