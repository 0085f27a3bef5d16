import TensorPlan.Pad.Inference
/-! Pad requests: the attributes of a padding resolved against the inputs of a run. Reflected borders
must not be wider than the data that they reflect. -/
namespace TensorPlan

structure PadRequest where
  mode : PadMode
  before : List Nat
  after : List Nat
  value : Double
  source : Descriptor
  target : Descriptor
  deriving DecidableEq, Repr

namespace PadRequest

def zeroInput (r : PadRequest) : Bool := decide (0 ∈ r.source.dims) && decide (0 ∉ r.target.dims)

def widths (what : String) (rank : Nat) (values : List Int) : Result (List Nat) := do
  Result.ensure (values.length == rank) (.padRank what values.length rank)
  Result.ensure (values.all (0 ≤ ·)) (.padNegative what values)
  return values.map Int.toNat

def runtimeInput (inputs : List Tensor) (position : Nat) (what : String) : Result Tensor :=
  .ofOption (.padMissing what) inputs[position]?

def resolveWidths (given : Option (List Int)) (inputs : List Tensor) (position : Nat) (what : String)
    (rank : Nat) : Result (List Nat) := do
  match given with
  | some values => widths what rank values
  | none => widths what rank (← (← runtimeInput inputs position what).integers)

def limit? (mode : PadMode) (length : Nat) : Option Nat :=
  match mode, length with
  | _, 0 => none
  | .reflect, n => some (n - 1)
  | .symmetric, n => some n
  | _, _ => none

def checkLimits (mode : PadMode) (dims : List Nat) : Nat → List Nat → List Nat → List Nat → Result Unit
  | axis, d :: ds, b :: bs, e :: es => do
    match limit? mode d with
    | some limit => Result.ensure (decide (b ≤ limit ∧ e ≤ limit)) (.padExceeds mode b e limit axis dims)
    | none => pure ()
    checkLimits mode dims (axis + 1) ds bs es
  | _, _, _, _ => .ok ()

def padded : List Nat → List Nat → List Nat → List Nat
  | d :: ds, b :: bs, e :: es => (d + b + e) :: padded ds bs es
  | _, _, _ => []

def ofInputs [Widths] (a : PadAttributes) (inputs : List Tensor) : Result PadRequest := do
  let data ← Result.ofOption (.noPlanData .pad) inputs.head?
  let source := data.descriptor
  let before ← resolveWidths a.before inputs 1 "pads_begin" source.rank
  let after ← resolveWidths a.after inputs 2 "pads_end" source.rank
  let value ← match a.value with
    | some v => pure v
    | none => PadAttributes.singleValue (← runtimeInput inputs 3 "pad_value").doubles
  checkLimits a.mode source.dims 0 source.dims before after
  let dims ← Result.forEach Machine.word (padded source.dims before after)
  return ⟨a.mode, before, after, value, source, ⟨dims, source.type, source.format⟩⟩

end PadRequest
end TensorPlan
