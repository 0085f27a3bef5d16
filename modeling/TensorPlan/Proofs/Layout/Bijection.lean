import Mathlib.Data.List.Nodup
import Mathlib.Data.List.Perm.Basic
import TensorPlan.Proofs.Layout.Sizes
/-! The coordinates of a layout and the positions that hold an element stand in a bijection. The other positions
are those of channels behind the last one, which only whole groups of channels leave. -/
namespace TensorPlan.Layout
open Index (Within)
variable (l : Layout)

def held (position : Nat) : Bool := l.holds (l.coordinates position)

theorem heldWithin {position : Nat} (inside : position < l.physicalSize) :
    l.held position = true ↔ Within (l.coordinates position) l.dims :=
  ⟨(l.positionArranged inside).2.2, l.holdsWithin⟩

theorem elementWithin {n : Nat} (inside : n < l.size) : Within (Index.ofPosition l.dims n) l.dims :=
  Index.ofPositionWithin (volumeFull inside) n

theorem heldPositions : ((List.range l.physicalSize).filter l.held).Perm
    ((List.range l.size).map fun n => l.offset (Index.ofPosition l.dims n)) := by
  have apart : ((List.range l.size).map fun n => l.offset (Index.ofPosition l.dims n)).Nodup := by
    refine List.Nodup.map_on (fun m first n second same => ?_) List.nodup_range
    rw [List.mem_range] at first second
    have coords := congrArg l.coordinates same
    rw [l.coordinatesOffset (l.elementWithin first), l.coordinatesOffset (l.elementWithin second)] at coords
    rw [← Index.dotOfPosition first, coords, Index.dotOfPosition second]
  rw [List.perm_ext_iff_of_nodup (List.nodup_range.filter _) apart]
  intro position
  simp only [List.mem_filter, List.mem_map, List.mem_range]
  constructor
  · rintro ⟨inside, held⟩
    have within := (l.heldWithin inside).mp held
    refine ⟨dot (l.coordinates position) (TensorPlan.strides l.dims), Index.dotBound within, ?_⟩
    rw [Index.ofPositionDot within, l.offsetCoordinates inside]
  · rintro ⟨n, below, rfl⟩
    have within := l.elementWithin below
    refine ⟨l.offsetInside within, ?_⟩
    rw [held, l.coordinatesOffset within]
    exact l.holdsWithin within

theorem tailCount : ((List.range l.physicalSize).countP fun position => !l.held position) + l.size = l.physicalSize := by
  have whole := @List.length_eq_countP_add_countP _ l.held (List.range l.physicalSize)
  have some : (List.range l.physicalSize).countP l.held = l.size := by
    rw [List.countP_eq_length_filter, l.heldPositions.length_eq, List.length_map, List.length_range]
  rw [List.length_range, some] at whole
  simp only [Bool.not_eq_true, Bool.decide_eq_false] at whole
  omega

theorem notHeld {position : Nat} : l.held position = false ↔
    l.format.isBlocked = true ∧ l.dims.getD 1 0 ≤ (l.coordinates position).getD 1 0 := by
  simp [held, holds]

theorem heldCoords {position : Nat} (inside : position < l.physicalSize) (word : position < pow2 64) :
    l.logicalCoords position = .ok (l.held position, l.coordinates position) :=
  coordsOf (l.coordinatesSome inside) fun c member => Nat.lt_of_le_of_lt (l.coordinatesBelow inside c member) word

theorem wordCoords {coords : List Nat} (within : Within coords l.dims) (word : l.offset coords < pow2 64) :
    l.offsetOf coords = .ok (l.offset coords) ∧ l.logicalCoords (l.offset coords) = .ok (true, coords) := by
  refine ⟨(offsetOfWithin within).trans (Machine.wordFits word), ?_⟩
  rw [l.heldCoords (l.offsetInside within) word, held, l.coordinatesOffset within, l.holdsWithin within]

example : (create [pow2 33, pow2 33] .plain >>= countPositions) = Result.fault ∧
    (create [pow2 33, pow2 33] .plain >>= fun l => l.offsetOf [1, 2]) = .ok (pow2 33 + 2) ∧
    (create [pow2 33, pow2 33] .plain >>= fun l => l.offsetOf [pow2 32, 0]) = Result.fault := by decide

end TensorPlan.Layout
