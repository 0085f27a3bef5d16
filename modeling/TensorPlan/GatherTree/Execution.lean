import TensorPlan.Run.Basic
/-! Gathering beams. The column of a beam is read backwards from its last step along the parent ids;
from the first end token on it holds end tokens. All columns are found before any is written, so a
parent id out of range leaves the output as it was. -/
namespace TensorPlan

structure GatherTreeInputs where
  steps : List Double
  parents : List Double
  lengths : List Double
  endToken : Double
  deriving DecidableEq, Repr

namespace GatherTreePlan

def levels (p : GatherTreePlan) (length : Double) : Nat :=
  match length.read with
  | .nan => 0
  | .infinite negative => if negative then 0 else p.steps
  | .finite _ v => if 0 < v then min (Rounding.whole v).toNat p.steps else 0

def beam? (p : GatherTreePlan) (parent : Double) : Option Nat := do
  let v ← parent.value?
  if 0 ≤ v ∧ v.den = 1 ∧ v.num < p.beams then some v.num.toNat else none

def chain (p : GatherTreePlan) (inputs : GatherTreeInputs) (batch : Nat) : Nat → Nat → Result (List Double)
  | 0, _ => .ok []
  | level + 1, beam => do
    let position := p.position level batch beam
    let id ← Result.orFault inputs.steps[position]?
    let parent ← Result.orFault inputs.parents[position]?
    let next ← Result.ofOption (.parentRange parent level batch p.beams) (p.beam? parent)
    let front ← chain p inputs batch level next
    return front ++ [id]

def column (p : GatherTreePlan) (inputs : GatherTreeInputs) (item : Nat) : Result (List Double) := do
  let batch := item / p.beams
  let length ← Result.orFault inputs.lengths[batch]?
  let ids ← p.chain inputs batch (p.levels length) (item % p.beams)
  let kept := ids.takeWhile fun id => !id.same inputs.endToken
  return kept ++ List.replicate (p.steps - kept.length) inputs.endToken

variable [Widths]

def writeColumn (p : GatherTreePlan) (batch beam : Nat) : Nat → List Double → Bytes → Result Bytes
  | _, [], bytes => .ok bytes
  | step, v :: vs, bytes => do
    let new := p.type.writeDouble .halfEven v
    let bytes ← Result.orFault (bytes.patch? (p.position step batch beam * p.type.size) new)
    p.writeColumn batch beam (step + 1) vs bytes

def writeColumns (p : GatherTreePlan) : Nat → List (List Double) → Bytes → Result Bytes
  | _, [], bytes => .ok bytes
  | item, c :: cs, bytes => do
    let bytes ← p.writeColumn (item / p.beams) (item % p.beams) 0 c bytes
    p.writeColumns (item + 1) cs bytes

def execute (s : Schedule) (plan : ExecutionPlan) (inputs : List Tensor) : Run Unit := do
  Run.check plan inputs
  match plan.body with
  | .gatherTree p =>
    let steps ← Run.input inputs 0
    let parents ← Run.input inputs 1
    let lengths ← Run.input inputs 2
    let endTokens ← Run.input inputs 3
    let endToken := (endTokens.doubles.head?).getD (Binary.zero .double false)
    let decoded : GatherTreeInputs := ⟨steps.doubles, parents.doubles, lengths.doubles, endToken⟩
    let columns ← Run.ofResult (plan.partition.forEach s (p.column decoded))
    Run.overwrite 0 (p.writeColumns 0 columns)
  | _ => Run.ofResult (.fail (.wrongPlan "GatherTree" "a GatherTree"))

end GatherTreePlan
end TensorPlan
