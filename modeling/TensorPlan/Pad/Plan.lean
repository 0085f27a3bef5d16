import TensorPlan.Pad.Request
/-! Pad plans over physical axes. Axes in front of the first padded one are folded into a single axis,
and everything behind the last padded one moves in chunks. A row of the output belongs to one index of
the axes in front of the last padded one. -/
namespace TensorPlan

structure PadAxis where
  before : Nat
  after : Nat
  source : Nat
  target : Nat
  sourceStride : Nat
  targetStride : Nat
  deriving DecidableEq, Repr

namespace PadAxis

def sourceEnd (a : PadAxis) : Nat := a.before + a.source

def reflectionBase (mode : PadMode) (a : PadAxis) : Nat :=
  a.source + a.sourceEnd + (if mode = .symmetric then 1 else 0) - 2

def isPadded (a : PadAxis) : Bool := a.before != 0 || a.after != 0

def list : List Nat → List Nat → List Nat → List Nat → List Nat → List Nat → List PadAxis
  | b :: bs, e :: es, s :: ss, t :: ts, u :: us, v :: vs => ⟨b, e, s, t, u, v⟩ :: list bs es ss ts us vs
  | _, _, _, _, _, _ => []

def fold (axes : List PadAxis) : Option PadAxis := do
  let first ← axes.head?
  let last ← axes.getLast?
  some ⟨first.before, first.after, volume (axes.map source), volume (axes.map target), last.sourceStride,
    last.targetStride⟩

end PadAxis

inductive PadWalk where
  | fill (total : Nat)
  | copy (total : Nat)
  | rows (beforeFirst : Int) (last outerRank : Nat)
  deriving DecidableEq, Repr

structure PadPlan where
  mode : PadMode
  elementSize : Nat
  pattern : Bytes
  axes : List PadAxis
  walk : PadWalk
  deriving DecidableEq, Repr

namespace PadPlan

def outerRank (p : PadPlan) : Nat :=
  match p.walk with
  | .rows _ _ outer => outer
  | _ => 0

def shift (p : PadPlan) : Nat :=
  match p.walk with
  | .rows _ _ outer => ((p.axes[outer]?).map PadAxis.targetStride).getD 1
  | _ => 1

def rowLength (p : PadPlan) : Nat :=
  match p.walk with
  | .fill _ => 1
  | .copy total => total
  | .rows _ _ outer => ((p.axes[outer]?).map fun a => a.target * a.targetStride).getD 0

def outerDims (p : PadPlan) : List Nat := (p.axes.take p.outerRank).map PadAxis.target

def work (p : PadPlan) : Nat :=
  match p.walk with
  | .fill total => total
  | .copy total => if 0 < total then 1 else 0
  | .rows .. => volume p.outerDims

def walked (p : PadPlan) : List PadAxis :=
  match p.walk with
  | .rows .. => p.axes
  | _ => []

def reflectionBases (p : PadPlan) : List Nat :=
  if p.mode = .reflect ∨ p.mode = .symmetric then p.walked.map (PadAxis.reflectionBase p.mode) else []

def paddedRange (p : PadPlan) : Int × Nat :=
  match p.walk with
  | .rows beforeFirst last _ => (beforeFirst, last)
  | _ => (0, 0)

def isFill (p : PadPlan) : Bool :=
  match p.walk with
  | .fill _ => true
  | _ => false

def hasZeroPattern (p : PadPlan) : Bool := p.pattern.all (· == 0)

def checkGroups (r : PadRequest) : Result Unit := do
  match r.source.format.blockSize? with
  | none => pure ()
  | some block =>
    let channels ← Result.orFault r.source.dims[1]?
    let before ← Result.orFault r.before[1]?
    let after ← Result.orFault r.after[1]?
    let unit := if r.mode = .constant then before % block == 0 && after % block == 0 else before == 0 && after == 0
    Result.ensure (channels % block == 0 && unit) (.padBlocked before after channels r.source.format r.mode)

def folded (axes : List PadAxis) (beforeFirst : Int) : List PadAxis :=
  if 0 < beforeFirst then
    let count := beforeFirst.toNat + 1
    (PadAxis.fold (axes.take count)).toList ++ axes.drop count
  else axes

def lastIndex? {α : Type} (p : α → Bool) (xs : List α) : Option Nat :=
  (xs.reverse.findIdx? p).map fun i => xs.length - 1 - i

def walkRows (axes : List PadAxis) : PadWalk :=
  let beforeFirst : Int := ((axes.findIdx? PadAxis.isPadded).map fun i => (i : Int) - 1).getD 0
  let last := (lastIndex? PadAxis.isPadded axes).getD (axes.length - 1)
  .rows beforeFirst last (last - beforeFirst.toNat)

def ofRequest [Widths] (r : PadRequest) : Result PadPlan := do
  checkGroups r
  let source ← r.source.layout
  let target ← r.target.layout
  let axes := PadAxis.list (Layout.arrange source.format r.before) (Layout.arrange source.format r.after)
    source.blockDims target.blockDims source.strides target.strides
  let make (axes : List PadAxis) (walk : PadWalk) : PadPlan :=
    ⟨r.mode, r.source.type.size, r.source.type.encode r.value, axes, walk⟩
  let total := target.physicalSize
  if 0 ∈ source.blockDims ∧ 0 ∉ target.blockDims then return make axes (.fill total)
  else if axes = [] ∨ 0 ∈ target.blockDims then return make axes (.copy total)
  else
    match walkRows axes with
    | .rows beforeFirst last outer => return make (folded axes beforeFirst) (.rows beforeFirst last outer)
    | walk => return make axes walk

end PadPlan
end TensorPlan
