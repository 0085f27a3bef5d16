import TensorPlan.Run.Basic
/-! Broadcasting: block by block for plain layouts, and element by element for every layout. The
source coordinate along an axis is the output coordinate modulo the aligned input length. -/
namespace TensorPlan.BroadcastPlan

def wrap : List Nat → List Nat → Option (List Nat)
  | i :: index, d :: ds =>
    if d = 0 then none
    else do
      let rest ← wrap index ds
      some (i % d :: rest)
  | [], _ => some []
  | index, [] => some index

def block (p : BroadcastPlan) (source : Bytes) (n : Nat) : Result Bytes := do
  let index ← Result.orFault (Index.ofFlat? p.outerDims n)
  let wrapped ← Result.orFault (wrap index p.aligned)
  let offset := dot wrapped (strides p.aligned)
  Result.orFault (source.slice? (offset * p.elementSize) (p.blockLength * p.elementSize))

def fillBlocks (p : BroadcastPlan) (partition : Partition) (source bytes : Bytes) : Result Bytes :=
  let size := p.blockLength * p.elementSize
  if size = 0 then .ok bytes else partition.overwriteEach size (p.block source) bytes

def element (p : BroadcastPlan) (sourceLayout targetLayout : Layout) (source : Bytes) (position : Nat) :
    Result Bytes := do
  let (inside, coords) ← Result.orFault (targetLayout.coordinates? position)
  if !inside then return Bytes.zeros p.elementSize
  else
    let wrapped ← Result.orFault (wrap coords p.aligned)
    let offset ← Result.orFault (sourceLayout.offset? wrapped)
    Result.orFault (source.slice? (offset * p.elementSize) p.elementSize)

def fillElements (p : BroadcastPlan) (partition : Partition) (source bytes : Bytes) : Result Bytes := do
  let sourceLayout ← p.sourceLayout
  let targetLayout ← p.target.layout
  partition.overwriteEach p.elementSize (p.element sourceLayout targetLayout source) bytes

def executeWith (fill : BroadcastPlan → Partition → Bytes → Bytes → Result Bytes) (plan : ExecutionPlan)
    (inputs : List Tensor) : Run Unit := do
  Run.check plan inputs
  match plan.body with
  | .broadcast p =>
    let source ← Run.input inputs 0
    Run.overwrite 0 (fill p plan.partition source.data)
  | _ => Run.ofResult (.fail (.wrongPlan "Broadcast" "a broadcast"))

def executeBlocks : ExecutionPlan → List Tensor → Run Unit := executeWith fillBlocks
def executeElements : ExecutionPlan → List Tensor → Run Unit := executeWith fillElements

end TensorPlan.BroadcastPlan
