import TensorPlan.Numeric.Binary
/-! Boxes and their overlap, in single precision. -/
namespace TensorPlan

structure Box where
  left : Single
  top : Single
  right : Single
  bottom : Single
  deriving DecidableEq, Repr

namespace Box

def zero : Single := Binary.zero .single false

def area (normalized : Bool) (b : Box) : Single :=
  if b.right.less b.left || b.bottom.less b.top then zero
  else
    let extra := Binary.ofInt .single (if normalized then 0 else 1)
    (b.right - b.left + extra) * (b.bottom - b.top + extra)

def disjoint (a b : Box) : Bool :=
  a.right.less b.left || b.right.less a.left || a.bottom.less b.top || b.bottom.less a.top

def intersection (a b : Box) : Box :=
  ⟨a.left.greater b.left, a.top.greater b.top, a.right.lesser b.right, a.bottom.lesser b.bottom⟩

def overlap (normalized : Bool) (a b : Box) : Single :=
  if a.disjoint b then zero
  else
    let shared := (a.intersection b).area normalized
    let union := a.area normalized + b.area normalized - shared
    if union.atMost zero then zero else shared / union

end Box
end TensorPlan
