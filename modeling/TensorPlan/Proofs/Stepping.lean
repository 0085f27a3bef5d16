import Mathlib.Data.Nat.ModEq
import Mathlib.Logic.Function.Iterate
import TensorPlan.Proofs.RowMajor
/-! Stepping through indices. An index is read off a flat position by division, and is also reached by as many single
steps, each of which carries from the last axis to the first. The steps go round: they meet every index once before they
return to the one they began with. -/
namespace TensorPlan.Index
variable {dims start index : List Nat} {k n : Nat}

theorem dotRound (full : 0 ∉ dims) (n : Nat) : dot (ofPosition dims n) (strides dims) = n % volume dims := by
  rw [← ofPositionMod, dotOfPosition (Nat.mod_lt n (volumePositive full))]

theorem stepsOfPosition (full : 0 ∉ dims) (n k : Nat) : (next dims)^[k] (ofPosition dims n) = ofPosition dims (n + k) := by
  induction k with
  | zero => rfl
  | succ k ih => rw [Function.iterate_succ_apply', ih, nextOfPosition full, Nat.add_assoc]

theorem stepsFrom (within : Within start dims) (k : Nat) :
    (next dims)^[k] start = ofPosition dims (dot start (strides dims) + k) := by
  rw [← stepsOfPosition (withinFull within), ofPositionDot within]

def greatest (dims : List Nat) : List Nat := dims.map (· - 1)

theorem greatestWithin (full : 0 ∉ dims) : Within (greatest dims) dims := by
  induction dims with
  | nil => exact .nil
  | cons d ds ih =>
    simp only [List.mem_cons, not_or] at full
    exact .cons (Nat.sub_lt (by omega) Nat.one_pos) (ih full.2)

theorem greatestDot (full : 0 ∉ dims) : dot (greatest dims) (strides dims) + 1 = volume dims := by
  induction dims with
  | nil => rfl
  | cons d ds ih =>
    simp only [List.mem_cons, not_or] at full
    calc (d - 1) * volume ds + dot (greatest ds) (strides ds) + 1
      _ = (d - 1) * volume ds + volume ds := by rw [Nat.add_assoc, ih full.2]
      _ = (d - 1 + 1) * volume ds := (Nat.succ_mul _ _).symm
      _ = d * volume ds := by rw [Nat.sub_add_cancel (by omega)]

theorem stepsReach (within : Within start dims) (inside : Within index dims) :
    (next dims)^[k] start = index ↔ (dot start (strides dims) + k) % volume dims = dot index (strides dims) := by
  rw [stepsFrom within, ← dotRound (withinFull within)]
  constructor
  · intro reached
    rw [reached]
  · intro same
    rw [← ofPositionDot inside, ← same, ofPositionDot (ofPositionWithin (withinFull within) _)]

theorem stepsOnce (within : Within start dims) (inside : Within index dims) :
    ∃! k, k < volume dims ∧ (next dims)^[k] start = index := by
  have first := dotBound within
  have last := dotBound inside
  have round : dot start (strides dims) + (dot index (strides dims) + (volume dims - dot start (strides dims))) =
      dot index (strides dims) + volume dims := by omega
  have meets : (dot start (strides dims) + (dot index (strides dims) + (volume dims - dot start (strides dims))) %
      volume dims) % volume dims = dot index (strides dims) := by
    rw [Nat.add_mod_mod, round, Nat.add_mod_right, Nat.mod_eq_of_lt last]
  have below := Nat.mod_lt (dot index (strides dims) + (volume dims - dot start (strides dims))) (Nat.zero_lt_of_lt first)
  simp only [stepsReach within inside]
  refine ⟨_, ⟨below, meets⟩, fun k reaches => ?_⟩
  have alike := Nat.ModEq.add_left_cancel' (dot start (strides dims)) (reaches.2.trans meets.symm)
  exact alike.eq_of_lt_of_lt reaches.1 below

/-- Where no axis is empty, stepping from zeros goes through the indices of the flat positions in their order, from the
greatest one back to zeros, and stepping from any index meets every other once in a round. -/
theorem stepsVisit (dims : List Nat) (full : 0 ∉ dims) :
    let zeros := List.replicate dims.length 0
    (∀ k < volume dims, ofFlat? dims k = some ((next dims)^[k] zeros) ∧ Within ((next dims)^[k] zeros) dims ∧
      dot ((next dims)^[k] zeros) (strides dims) = k) ∧
    (next dims)^[volume dims - 1] zeros = greatest dims ∧ next dims (greatest dims) = zeros ∧
    ∀ start index, Within start dims → Within index dims →
      (∃! k, k < volume dims ∧ (next dims)^[k] start = index) ∧ (next dims)^[volume dims] start = start := by
  intro zeros
  have start : zeros = ofPosition dims 0 := (ofPositionZero dims).symm
  have steps : ∀ k, (next dims)^[k] zeros = ofPosition dims k := fun k => by
    rw [start, stepsOfPosition full, Nat.zero_add]
  have whole := greatestDot full
  have last := ofPositionDot (greatestWithin full)
  refine ⟨fun k below => ?_, ?_, ?_, fun start index within inside => ⟨stepsOnce within inside, ?_⟩⟩
  · rw [steps, ofFlatFull full]
    exact ⟨rfl, ofPositionWithin full k, dotOfPosition below⟩
  · rw [steps, ← whole, Nat.add_sub_cancel, last]
  · rw [← last, nextOfPosition full, whole, start, ← ofPositionMod, Nat.mod_self]
  · rw [stepsReach within within, Nat.add_mod_right, Nat.mod_eq_of_lt (dotBound within)]

theorem stepsVisitOfCarry :
    0 ∉ [2, 1, 3] ∧ ofFlat? [2, 1, 3] 3 = some [1, 0, 0] ∧ (next [2, 1, 3])^[3] [0, 0, 0] = [1, 0, 0] ∧
      next [2, 1, 3] [1, 0, 2] = [0, 0, 0] ∧ Within [0, 0, 2] [2, 1, 3] ∧ Within [0, 0, 1] [2, 1, 3] ∧
      ∃! k, k < 6 ∧ (next [2, 1, 3])^[k] [0, 0, 2] = [0, 0, 1] := by
  have full : 0 ∉ [2, 1, 3] := by decide
  have within : Within [0, 0, 2] [2, 1, 3] := .cons (by decide) (.cons (by decide) (.cons (by decide) .nil))
  have inside : Within [0, 0, 1] [2, 1, 3] := .cons (by decide) (.cons (by decide) (.cons (by decide) .nil))
  obtain ⟨visits, _, returns, rounds⟩ := stepsVisit [2, 1, 3] full
  obtain ⟨read, _, _⟩ := visits 3 (by decide)
  exact ⟨full, read, rfl, returns, within, inside, (rounds _ _ within inside).1⟩

end TensorPlan.Index
