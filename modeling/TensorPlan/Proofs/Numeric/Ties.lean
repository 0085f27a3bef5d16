import Mathlib.Algebra.Group.Int.Even
import Mathlib.Data.Rat.Floor
import Mathlib.Tactic.Linarith
import TensorPlan.Numeric.Rounding
/-! Rounding fractions to integers. Twice the integer nearest to half of a fraction is even, and where the fraction lies
half way between two integers it is one of these. So both strategies give the integer that their rule names, negative
fractions included, and neither changes the order of fractions. -/
namespace TensorPlan.Rounding
variable {v w : Rat} {n m : Int}

structure NearestEven (v : Rat) (n : Int) : Prop where
  nearest : ∀ m : Int, |v - n| ≤ |v - m|
  tie : ∀ m : Int, m ≠ n → |v - m| = |v - n| → Even n

inductive TowardZero (v : Rat) (n : Int) : Prop where
  | down (positive : 0 ≤ v) (below : n ≤ v) (near : v < n + 1)
  | up (negative : v ≤ 0) (above : v ≤ n) (near : (n : Rat) < v + 1)

theorem wholeToward (v : Rat) : TowardZero v (whole v) := by
  rcases le_total 0 v with positive | negative
  · have floor : whole v = v.floor := by
      rw [whole, Rat.floor_def, Int.tdiv_eq_ediv_of_nonneg (Rat.num_nonneg.mpr positive)]
    have near := Rat.lt_floor (x := v)
    rw [floor]
    exact .down positive (Rat.floor_le v) (by linarith)
  · have floor : whole v = -(-v).floor := by
      have natural : 0 ≤ -v.num := by have := Rat.num_nonpos.mpr negative; omega
      rw [whole, Rat.floor_def, Rat.neg_num, Rat.neg_den, ← Int.tdiv_eq_ediv_of_nonneg natural, Int.neg_tdiv, Int.neg_neg]
    have below := Rat.floor_le (-v)
    have near := Rat.lt_floor (x := -v)
    rw [floor]
    refine .up negative ?_ ?_ <;> push_cast <;> linarith

theorem nearestHalf (v : Rat) : |v - nearest v| ≤ 1 / 2 := by
  rw [abs_le, nearest]
  split
  · have below := Rat.floor_le (1 / 2 - v)
    have near := Rat.lt_floor (x := 1 / 2 - v)
    push_cast
    constructor <;> linarith
  · have below := Rat.floor_le (v + 1 / 2)
    have near := Rat.lt_floor (x := v + 1 / 2)
    constructor <;> linarith

def Halfway (v : Rat) : Prop := ∃ n : Int, v = n + 1 / 2

theorem halfwayPart : Halfway v ↔ v - whole v = 1 / 2 ∨ v - whole v = -(1 / 2) := by
  constructor
  · rintro ⟨n, same⟩
    have toward := wholeToward v
    generalize whole v = k at toward ⊢
    cases toward with
    | down positive below near =>
      have upper : (k : Rat) < n + 1 := by linarith
      have lower : (n : Rat) < k + 1 := by linarith
      have equal : k = n := by
        have := Int.lt_add_one_iff.mp (by exact_mod_cast upper)
        have := Int.lt_add_one_iff.mp (by exact_mod_cast lower)
        omega
      left
      rw [equal]
      linarith
    | up negative above near =>
      have upper : (k : Rat) < n + 2 := by linarith
      have lower : (n : Rat) < k := by linarith
      have equal : k = n + 1 := by
        have : k < n + 2 := by exact_mod_cast upper
        have : n < k := by exact_mod_cast lower
        omega
      right
      rw [equal]
      push_cast
      linarith
  · rintro (above | below)
    · exact ⟨whole v, by linarith⟩
    · refine ⟨whole v - 1, ?_⟩
      push_cast
      linarith

theorem halfwayOf (half : |v - n| = 1 / 2) : Halfway v := by
  rcases abs_cases (v - n) with ⟨same, _⟩ | ⟨same, _⟩
  · exact ⟨n, by linarith⟩
  · refine ⟨n - 1, ?_⟩
    push_cast
    linarith

theorem halfwayNear (halfway : Halfway v) (near : |v - n| ≤ 1) : |v - n| = 1 / 2 := by
  obtain ⟨k, rfl⟩ := halfway
  rw [abs_le] at near
  have upper : k < n + 1 := by
    have : (k : Rat) < n + 1 := by linarith
    exact_mod_cast this
  have lower : n < k + 2 := by
    have : (n : Rat) < k + 2 := by linarith
    exact_mod_cast this
  obtain rfl | rfl : n = k ∨ n = k + 1 := by omega
  · rw [add_sub_cancel_left]
    norm_num
  · push_cast
    rw [show (k : Rat) + 1 / 2 - (k + 1) = -(1 / 2) by ring]
    norm_num

theorem nearestEvenHalf (v : Rat) : |v - nearestEven v| ≤ 1 / 2 ∧ (|v - nearestEven v| = 1 / 2 → Even (nearestEven v)) := by
  have near := nearestHalf v
  unfold nearestEven
  dsimp only
  split
  · rename_i part
    have half := nearestHalf (v / 2)
    have twice : |v - ((2 * nearest (v / 2) : Int) : Rat)| ≤ 1 := by
      rw [abs_le] at half ⊢
      push_cast
      constructor <;> linarith
    exact ⟨(halfwayNear (halfwayPart.mpr part) twice).le, fun _ => even_two_mul _⟩
  · rename_i part
    exact ⟨near, fun half => (part (halfwayPart.mp (halfwayOf half))).elim⟩

theorem integersApart (v : Rat) (other : m ≠ n) : 1 ≤ |v - m| + |v - n| := by
  have whole : (1 : Rat) ≤ |((n - m : Int) : Rat)| := by exact_mod_cast Int.one_le_abs (sub_ne_zero.mpr other.symm)
  have between := abs_sub (v - m) (v - n)
  rw [sub_sub_sub_cancel_left, ← Int.cast_sub] at between
  exact whole.trans between

theorem nearestEvenIff : NearestEven v n ↔ |v - n| ≤ 1 / 2 ∧ (|v - n| = 1 / 2 → Even n) := by
  constructor
  · rintro ⟨nearest, tie⟩
    refine ⟨(nearest _).trans (nearestHalf v), fun half => ?_⟩
    have halfway := halfwayOf half
    rcases abs_cases (v - n) with ⟨same, _⟩ | ⟨same, _⟩
    · refine tie (n + 1) (by omega) (half ▸ halfwayNear halfway ?_)
      rw [abs_le]
      push_cast
      constructor <;> linarith
    · refine tie (n - 1) (by omega) (half ▸ halfwayNear halfway ?_)
      rw [abs_le]
      push_cast
      constructor <;> linarith
  · rintro ⟨near, even⟩
    refine ⟨fun m => ?_, fun m other same => ?_⟩
    · by_cases own : m = n
      · rw [own]
      · have := integersApart v own
        linarith
    · have := integersApart v other
      exact even (by linarith)

theorem NearestEven.order (first : NearestEven v n) (second : NearestEven w m) (order : v ≤ w) : n ≤ m := by
  obtain ⟨near, even⟩ := nearestEvenIff.mp first
  obtain ⟨near', even'⟩ := nearestEvenIff.mp second
  rw [abs_le] at near near'
  by_contra less
  have apart : (m : Rat) + 1 ≤ n := by exact_mod_cast Int.not_le.mp less
  have next : n = m + 1 := by
    have : (n : Rat) ≤ m + 1 := by linarith
    exact_mod_cast le_antisymm this apart
  have below : |v - n| = 1 / 2 := by rw [abs_of_nonpos] <;> linarith
  have above : |w - m| = 1 / 2 := by rw [abs_of_nonneg] <;> linarith
  exact Int.even_add_one.mp (next ▸ even below) (even' above)

theorem TowardZero.order (first : TowardZero v n) (second : TowardZero w m) (order : v ≤ w) : n ≤ m := by
  have next : ∀ i j : Int, (i : Rat) < j + 1 → i ≤ j := fun i j less => Int.lt_add_one_iff.mp (by exact_mod_cast less)
  cases first with
  | down positive below near =>
    cases second with
    | down _ _ near' => exact next n m (by linarith)
    | up _ above' _ => exact next n m (by linarith)
  | up negative above near =>
    cases second with
    | down positive' _ near' =>
      exact (next n 0 (by push_cast; linarith)).trans (next 0 m (by push_cast; linarith))
    | up _ above' _ => exact next n m (by linarith)

theorem nearestEvenOnly : NearestEven v n ↔ n = nearestEven v := by
  have own := nearestEvenIff.mpr (nearestEvenHalf v)
  exact ⟨fun rounds => (rounds.order own le_rfl).antisymm (own.order rounds le_rfl), fun same => same ▸ own⟩

theorem towardZeroOnly : TowardZero v n ↔ n = whole v :=
  ⟨fun rounds => (rounds.order (wholeToward v) le_rfl).antisymm ((wholeToward v).order rounds le_rfl),
    fun same => same ▸ wholeToward v⟩

theorem toIntegerNear (r : Rounding) (v : Rat) : |v - r.toInteger v| < 1 := by
  cases r with
  | halfEven => exact (nearestEvenHalf v).1.trans_lt (by norm_num)
  | towardZero =>
    have toward := wholeToward v
    rw [toInteger, abs_lt]
    cases toward with
    | down _ below near => constructor <;> linarith
    | up _ above near => constructor <;> linarith

theorem toIntegerOrder (r : Rounding) (order : v ≤ w) : r.toInteger v ≤ r.toInteger w := by
  cases r with
  | halfEven => exact (nearestEvenIff.mpr (nearestEvenHalf v)).order (nearestEvenIff.mpr (nearestEvenHalf w)) order
  | towardZero => exact (wholeToward v).order (wholeToward w) order

end TensorPlan.Rounding
