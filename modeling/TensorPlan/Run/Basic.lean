import TensorPlan.Plan.Basic
/-! Runs: computations on the output tensors of a plan. What a run has written stays written when it
stops early, so that a failure can be said to leave the outputs as they were. -/
namespace TensorPlan

abbrev Run := ExceptT Halt (StateM (List Tensor))

namespace Run

def ofResult {α : Type} (r : Result α) : Run α := liftExcept r

def check (plan : ExecutionPlan) (inputs : List Tensor) : Run Unit := do
  let given := inputs.map Tensor.descriptor
  ofResult (.ensure (given == plan.inputs) (.inputsDiffer given plan.inputs))
  let outputs := (← get).map Tensor.descriptor
  ofResult (.ensure (outputs == plan.outputs) (.outputsDiffer outputs plan.outputs))

def input (inputs : List Tensor) (position : Nat) : Run Tensor := ofResult (.orFault inputs[position]?)

def update (output : Nat) (f : Tensor → Result Tensor) : Run Unit := do
  let outputs ← get
  let t ← ofResult (Result.orFault outputs[output]?)
  let new ← ofResult (f t)
  set (outputs.set output new)

def overwrite (output : Nat) (f : Bytes → Result Bytes) : Run Unit :=
  update output fun t => do Result.orFault (t.withData? (← f t.data))

end Run

namespace Bytes

def inPlaceOf (old new : Bytes) : Result Bytes := if new.length = old.length then .ok new else .fault

def overwriteSpans (itemSize : Nat) (f : Span → Bytes → Result Bytes) : List Span → Bytes → Result Bytes
  | [], bytes => .ok bytes
  | s :: ss, bytes => do
    let size := s.length * itemSize
    let piece ← Result.orFault (bytes.slice? 0 size)
    let new ← inPlaceOf piece (← f s piece)
    let rest ← overwriteSpans itemSize f ss (bytes.drop size)
    return new ++ rest

def overwriteItems (itemSize : Nat) (f : Nat → Result Bytes) : Nat → Nat → Bytes → Result Bytes
  | _, 0, bytes => .ok bytes
  | item, count + 1, bytes => do
    let piece ← Result.orFault (bytes.slice? 0 itemSize)
    let new ← inPlaceOf piece (← f item)
    let rest ← overwriteItems itemSize f (item + 1) count (bytes.drop itemSize)
    return new ++ rest

end Bytes

/-- How the workers of a pool take turns in a run. All that a run shows of it is which failure is reported when several
spans fail: the one at this place among the items that failed first in their spans. -/
structure Schedule where
  reported : List Nat → Nat

def Schedule.inOrder : Schedule := ⟨fun _ => 0⟩

def Span.failure? {α : Type} (f : Nat → Result α) (s : Span) : Option (Nat × Halt) :=
  s.items.findSome? fun item =>
    match f item with
    | .ok _ => none
    | .error h => some (item, h)

namespace Partition

def forEach {α : Type} (p : Partition) (s : Schedule) (f : Nat → Result α) : Result (List α) :=
  match p.spans.filterMap (Span.failure? f) with
  | [] => Result.forEach f p.items
  | first :: rest => .error ((first :: rest).getD (s.reported ((first :: rest).map Prod.fst)) first).2

def overwrite (p : Partition) (itemSize : Nat) (f : Span → Bytes → Result Bytes) (bytes : Bytes) :
    Result Bytes := do
  Result.ensure (decide (p.work * itemSize ≤ bytes.length)) (.smallDestination bytes.length p.work itemSize)
  bytes.overwriteSpans itemSize f p.spans

def overwriteEach (p : Partition) (itemSize : Nat) (f : Nat → Result Bytes) (bytes : Bytes) : Result Bytes :=
  p.overwrite itemSize (fun s piece => piece.overwriteItems itemSize f s.start s.length) bytes

end Partition
end TensorPlan
