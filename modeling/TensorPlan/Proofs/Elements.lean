import TensorPlan.Proofs.Positions
/-! Elements of a tensor by their coordinates. Every coordinate within the dimensions has one, in every format, and
tensors can have the same elements and still differ in what lies between them. -/
namespace TensorPlan.Tensor
open Index (Within)
variable {t : Tensor} {l : Layout} {coords : List Nat}

def element? (t : Tensor) (coords : List Nat) : Option Bytes := do
  let l ← t.descriptor.layout?
  let position ← l.offset? coords
  t.data.slice? (position * t.type.size) t.type.size

theorem elementAt (layout : t.descriptor.layout = .ok l) (within : Within coords t.dims) :
    t.element? coords = t.data.slice? (l.offset coords * t.type.size) t.type.size := by
  have found : t.descriptor.layout? = some l := Result.ofOptionOk.mp layout
  have length : coords.length = l.rank := by
    rw [Layout.rank, (Descriptor.layoutOk layout).2]
    exact Index.withinLength within
  simp only [element?, found, l.offsetSome length, Option.bind_eq_bind, Option.bind_some]

theorem elementSize {bytes : Bytes} (found : t.element? coords = some bytes) : bytes.length = t.type.size := by
  simp only [element?, Option.bind_eq_bind, Option.bind_eq_some_iff] at found
  obtain ⟨_, _, _, _, slice⟩ := found
  exact Bytes.sliceLength slice

theorem elementItem (layout : t.descriptor.layout = .ok l) (within : Within coords t.dims) :
    t.element? coords = some (Bytes.item t.type.size t.data (l.offset coords)) := by
  obtain ⟨own, found, held⟩ := t.layoutFits
  cases layout.symm.trans found
  have inside : l.offset coords < l.physicalSize :=
    l.offsetInside (by rw [(Descriptor.layoutOk layout).2]; exact within)
  rw [elementAt layout within]
  exact Bytes.sliceItem (by rw [held]; exact Nat.mul_le_mul_right _ inside)

theorem elementOfCells {g : Nat → Bytes} (layout : t.descriptor.layout = .ok l)
    (cells : t.data = (List.range l.physicalSize).flatMap g)
    (sizes : ∀ position < l.physicalSize, (g position).length = t.type.size) (within : Within coords t.dims) :
    t.element? coords = some (g (l.offset coords)) := by
  have inside : l.offset coords < l.physicalSize :=
    l.offsetInside (by rw [(Descriptor.layoutOk layout).2]; exact within)
  rw [elementAt layout within, cells, Bytes.sliceJoined sizes inside]

def double? [Widths] (t : Tensor) (coords : List Nat) : Option Double := (t.element? coords).map t.type.readDouble

theorem doubleAt [Widths] (plain : t.format = .plain) (within : Within coords t.dims) :
    t.doubles[dot coords (strides t.dims)]? = t.double? coords := by
  obtain ⟨l, layout, held⟩ := t.layoutFits
  have layoutOf := Descriptor.layoutOk layout
  have inside : Within coords l.dims := by rw [layoutOf.2]; exact within
  have offset : l.offset coords = dot coords (strides t.dims) := by
    rw [l.plainOffset (layoutOf.1.trans plain) (Index.withinLength inside), layoutOf.2]
    rfl
  rw [doubles, elements, Bytes.piecesItems (ElementType.sizePositive t.type) held, double?, elementItem layout within,
    ← offset, List.getElem?_map, List.getElem?_map, List.getElem?_range (l.offsetInside inside)]
  rfl

end TensorPlan.Tensor
