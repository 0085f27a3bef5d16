import TensorPlan.Proofs.Numeric.Shortest
/-! The total order of numbers. The sign decides first and then the magnitude, so that a negative zero lies below a
positive one and a NaN beyond the infinity of its sign. Numbers with different values are ordered as their values are. -/
namespace TensorPlan
open RoundingInterval (middleHigh lowMiddle highNext)

theorem RoundingInterval.middleOrder (f : BinaryFormat) : StrictMono fun n => (ofMagnitude f n).middle :=
  strictMono_nat_of_lt_succ fun n => (middleHigh f n).trans (highNext f n ▸ lowMiddle f (n + 1))

namespace Binary
variable {f : BinaryFormat} {x y : Binary f} {v w : Rat}

inductive Below : Binary f → Binary f → Prop where
  | signs {x y : Binary f} (negative : x.negative = true) (positive : y.negative = false) : Below x y
  | positive {x y : Binary f} (first : x.negative = false) (second : y.negative = false) (less : x.magnitude < y.magnitude) :
      Below x y
  | negative {x y : Binary f} (first : x.negative = true) (second : y.negative = true) (more : y.magnitude < x.magnitude) :
      Below x y

theorem totalKeyBelow : x.totalKey < y.totalKey ↔ x.Below y := by
  unfold totalKey
  constructor
  · intro less
    cases first : x.negative <;> cases second : y.negative <;> simp only [first, second, if_true, Bool.false_eq_true, if_false] at less
    · exact .positive first second (by omega)
    · omega
    · exact .signs first second
    · exact .negative first second (by omega)
  · rintro (⟨first, second⟩ | ⟨first, second, less⟩ | ⟨first, second, more⟩) <;>
      simp only [first, second, if_true, Bool.false_eq_true, if_false] <;> omega

instance (x y : Binary f) : Decidable (x.Below y) := decidable_of_iff _ totalKeyBelow

theorem totalKeySame : x.totalKey = y.totalKey ↔ x = y := by
  refine ⟨fun same => ?_, fun same => by rw [same]⟩
  unfold totalKey at same
  cases first : x.negative <;> cases second : y.negative <;>
    simp only [first, second, if_true, Bool.false_eq_true, if_false] at same
  · exact sameParts (first.trans second.symm) (by omega)
  · omega
  · omega
  · exact sameParts (first.trans second.symm) (by omega)

theorem zerosBelow (f : BinaryFormat) : (zero f true).Below (zero f false) := by
  have small : 0 < signBit f := Nat.two_pow_pos _
  exact .signs (negativeOf true small) (negativeOf false small)

theorem valueMiddle (value : x.value? = some v) :
    v = if x.negative then -(RoundingInterval.ofMagnitude f x.magnitude).middle
      else (RoundingInterval.ofMagnitude f x.magnitude).middle := by
  have finite : v = scaled (if x.negative then -(x.parts.1 : Int) else x.parts.1) x.parts.2 := by
    rw [value?, read] at value
    generalize x.parts = parts at value ⊢
    split at value
    · rename_i number
      split at number
      · cases number
      · split at number
        · cases number
        · rw [← Option.some.inj value, ← (Reading.finite.inj number).2]
    · cases value
  rw [finite]
  split
  · exact scaledNeg _ _
  · rfl

theorem middlePositive (f : BinaryFormat) (n : Nat) : 0 ≤ (RoundingInterval.ofMagnitude f n).middle := by
  rw [RoundingInterval.middlePower]
  exact mul_nonneg (Nat.cast_nonneg _) (zpow_nonneg (by decide) _)

theorem Below.value (below : x.Below y) (first : x.value? = some v) (second : y.value? = some w) : v ≤ w := by
  have own := middlePositive f x.magnitude
  have other := middlePositive f y.magnitude
  rw [valueMiddle first, valueMiddle second]
  obtain ⟨negative, positive⟩ | ⟨negative, negative', less⟩ | ⟨negative, negative', more⟩ := below
  · rw [negative, positive, if_pos rfl, if_neg Bool.false_ne_true]
    exact (neg_nonpos.mpr own).trans other
  · rw [negative, negative', if_neg Bool.false_ne_true, if_neg Bool.false_ne_true]
    exact (RoundingInterval.middleOrder f less).le
  · rw [negative, negative', if_pos rfl, if_pos rfl]
    exact neg_le_neg (RoundingInterval.middleOrder f more).le

theorem belowOfValue (first : x.value? = some v) (second : y.value? = some w) (less : v < w) : x.Below y := by
  rcases Int.lt_trichotomy x.totalKey y.totalKey with below | same | above
  · exact totalKeyBelow.mp below
  · rw [totalKeySame.mp same, second, Option.some.injEq] at first
    exact absurd less (first ▸ lt_irrefl _)
  · exact absurd less (not_lt_of_ge ((totalKeyBelow.mp above).value second first))

end Binary
end TensorPlan
