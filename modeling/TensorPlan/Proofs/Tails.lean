import TensorPlan.Proofs.Broadcast.Agreement
import TensorPlan.Proofs.Pad.Agreement
import TensorPlan.Proofs.Reorder.Agreement
/-! Tails. What lies behind the last channel of a group is zero in all that padding, broadcasting and reordering by
elements write. Reordering by spans carries it over from the source, so there it is zero if it is zero in the source. -/
namespace TensorPlan
open Index (Within)

namespace Tensor
variable {t u : Tensor}

theorem tailsOfCells {m : Layout} {g : Nat → Bytes} (layout : t.descriptor.layout = .ok m)
    (cells : t.data = (List.range m.physicalSize).flatMap g)
    (sizes : ∀ position < m.physicalSize, (g position).length = t.type.size)
    (tails : ∀ position < m.physicalSize, m.holds (m.coordinates position) = false →
      g position = Bytes.zeros t.type.size) : t.ZeroTails := by
  intro l own position inside behind
  cases layout.symm.trans own
  have bound : (position + 1) * t.type.size ≤ t.data.length := by
    rw [cells, Bytes.rangeLength sizes]
    exact Nat.mul_le_mul_right _ inside
  have slice := Bytes.sliceItem bound
  rw [cells, Bytes.sliceJoined sizes inside, ← cells] at slice
  rw [← Option.some.inj slice, tails position inside behind]

theorem tailsUnblocked (unblocked : t.format.blockSize? = none) : t.ZeroTails := by
  intro l layout position _ behind
  have format : l.format.blockSize? = none := by rw [(Descriptor.layoutOk layout).1]; exact unblocked
  rw [l.holdsUnblocked format] at behind
  cases behind

theorem tailsOfZeros (zero : t.data = Bytes.zeros t.data.length) : t.ZeroTails := by
  obtain ⟨m, layout, held⟩ := t.layoutFits
  refine tailsOfCells (g := fun _ => Bytes.zeros t.type.size) layout ?_ (fun _ _ => Bytes.zerosLength _) fun _ _ _ => rfl
  rw [zero, held, Bytes.zerosItems]

theorem sameOfElements (described : t.descriptor = u.descriptor) (first : t.ZeroTails) (second : u.ZeroTails)
    (elements : ∀ coords, Within coords t.dims → t.element? coords = u.element? coords) : t = u := by
  obtain ⟨l, layout, room⟩ := t.layoutFits
  obtain ⟨l', layout', room'⟩ := u.layoutFits
  rw [← described] at layout'
  cases layout.symm.trans layout'
  rw [described] at layout'
  have dims : l.dims = t.dims := (Descriptor.layoutOk layout).2
  have dims' : u.dims = t.dims := congrArg Descriptor.dims described.symm
  have size : u.type.size = t.type.size := congrArg (fun d => ElementType.size d.type) described.symm
  refine Tensor.same described ?_
  rw [← Bytes.joinedItems room, ← Bytes.joinedItems room']
  refine List.flatMap_congr fun position member => ?_
  have inside := List.mem_range.mp member
  cases held : l.holds (l.coordinates position) with
  | false => rw [first l layout position inside held, second l layout' position inside held, size]
  | true =>
    have within : Within (l.coordinates position) t.dims := dims ▸ (l.positionArranged inside).2.2 held
    have equal := elements _ within
    rw [elementItem layout within, elementItem layout' (by rw [dims']; exact within), l.offsetCoordinates inside] at equal
    exact Option.some.inj equal

end Tensor

theorem PadRequest.outputTails [Widths] {r : PadRequest} {l m : Layout} {source : Bytes} (sound : r.Sound)
    (sourceLayout : r.source.layout = .ok l) (targetLayout : r.target.layout = .ok m)
    (held : source.length = l.physicalSize * r.source.type.size)
    (size : r.target.byteSize? = some (r.output l m source).length) :
    Tensor.ZeroTails ⟨r.target, r.output l m source, size⟩ := by
  have type : r.target.type = r.source.type := by rw [sound.target]
  refine Tensor.tailsOfCells targetLayout rfl (fun position inside => ?_) fun position _ behind => ?_
  · exact (elementOk sound sourceLayout targetLayout held inside).2.trans (congrArg ElementType.size type.symm)
  · rw [cell, behind, if_neg Bool.false_ne_true]
    exact congrArg (fun t => Bytes.zeros t.size) type.symm

theorem PadAttributes.tailsLeave [Widths] {a : PadAttributes} {r : PadRequest} {inputs given : List Tensor}
    (request : PadRequest.ofInputs a inputs = .ok r) (same : given.map Tensor.descriptor = inputs.map Tensor.descriptor)
    (validity : Validity) :
    ∃ t : Tensor, t.ZeroTails ∧ r.Leaves (inputs.map Tensor.descriptor) validity given t := by
  have sound := (requestSource request same).1
  obtain ⟨source, l, m, size, _, sourceLayout, targetLayout, held, leave⟩ := runsLeave request same validity
  exact ⟨_, PadRequest.outputTails sound sourceLayout targetLayout held size, leave⟩

theorem BroadcastPlan.outputTails {p : BroadcastPlan} {l m : Layout} {source : Bytes} (sound : p.Sound)
    (targetLayout : p.target.layout = .ok m) (reaches : p.Reaches l source)
    (size : p.target.byteSize? = some (p.output l m source).length) :
    Tensor.ZeroTails ⟨p.target, p.output l m source, size⟩ := by
  refine Tensor.tailsOfCells targetLayout rfl (fun position inside => ?_) fun position _ behind => ?_
  · exact (elementOk sound targetLayout reaches inside).2.trans (congrArg ElementType.size sound.type.symm)
  · rw [cell, behind, if_neg Bool.false_ne_true]
    exact congrArg (fun t => Bytes.zeros t.size) sound.type.symm

theorem BroadcastAttributes.tailsLeave {a : BroadcastAttributes} {p : BroadcastPlan} {inputs given : List Tensor}
    (made : BroadcastPlan.ofInputs a inputs = .ok p)
    (same : given.map Tensor.descriptor = inputs.map Tensor.descriptor) (validity : Validity) :
    ∃ t : Tensor, t.ZeroTails ∧ p.Leaves (inputs.map Tensor.descriptor) validity given t := by
  have sound := (planSource made same).1
  obtain ⟨source, l, m, size, _, _, targetLayout, reaches, leave⟩ := runsLeave made same validity
  exact ⟨_, BroadcastPlan.outputTails sound targetLayout reaches size, leave⟩

theorem ReorderPlan.outputTails [Widths] {p : ReorderPlan} {l m : Layout} {source : Bytes} (sound : p.Sound)
    (sourceLayout : p.source.layout = .ok l) (targetLayout : p.target.layout = .ok m)
    (held : source.length = l.physicalSize * p.sourceSize)
    (size : p.target.byteSize? = some (p.output l m source).length) :
    Tensor.ZeroTails ⟨p.target, p.output l m source, size⟩ := by
  refine Tensor.tailsOfCells targetLayout rfl (fun position inside => ?_) fun position _ behind => ?_
  · exact (positionOk sound sourceLayout targetLayout held inside).2
  · rw [cell, behind, if_neg Bool.false_ne_true]
    rfl

namespace ReorderAttributes
variable {a : ReorderAttributes} {p : ReorderPlan} {constant : Bool} {inputs given : List Tensor}

theorem tailsLeave [Widths] (made : ReorderPlan.ofInputs a inputs = .ok (p, constant))
    (same : given.map Tensor.descriptor = inputs.map Tensor.descriptor) (validity : Validity) :
    ∃ fast slow : Tensor, slow.ZeroTails ∧ ((∀ t ∈ given, t.ZeroTails) → fast.ZeroTails) ∧
      p.Leaves (inputs.map Tensor.descriptor) validity given fast slow := by
  have sound := (planSource made same).1
  obtain ⟨source, l, m, size, size', found, described, sourceLayout, targetLayout, held, leave⟩ :=
    runsLeave made same validity
  have tails := ReorderPlan.outputTails sound sourceLayout targetLayout held size'
  refine ⟨_, _, tails, fun zero => ?_, leave⟩
  have equal := ReorderPlan.spansOfZeroTails sound sourceLayout targetLayout described (zero source (List.mem_of_getElem? found))
  have same : (⟨p.target, p.spanOutput l m source.data, size⟩ : Tensor) = ⟨p.target, _, size'⟩ := Tensor.same rfl equal
  rw [same]
  exact tails

end ReorderAttributes
end TensorPlan
