import TensorPlan.Run.Basic
/-! Reordering: by spans of output positions, with shortcuts where positions line up, and by one pass
over the source elements. -/
namespace TensorPlan.ReorderPlan

def sourceSize (p : ReorderPlan) : Nat := p.source.type.size
def targetSize (p : ReorderPlan) : Nat := p.target.type.size

def sourceSpan (p : ReorderPlan) (source : Bytes) (s : Span) : Result Bytes :=
  .orFault (source.slice? (s.start * p.sourceSize) (s.length * p.sourceSize))

variable [Widths]

def convertSpan (p : ReorderPlan) (source : Bytes) (s : Span) : Result Bytes := do
  let bytes ← p.sourceSpan source s
  return ((bytes.pieces p.sourceSize).map fun b => p.source.type.convert b p.target.type p.rounding).flatten

def atPosition (p : ReorderPlan) (sourceLayout targetLayout : Layout) (source : Bytes) (position : Nat) :
    Result Bytes := do
  let (inside, coords) ← Result.orFault (targetLayout.coordinates? position)
  if !inside then return Bytes.zeros p.targetSize
  else
    let offset ← Result.orFault (sourceLayout.offset? coords)
    let bytes ← Result.orFault (source.slice? (offset * p.sourceSize) p.sourceSize)
    p.element bytes coords

def fill (p : ReorderPlan) (partition : Partition) (source bytes : Bytes) : Result Bytes := do
  if p.isCopy then partition.overwrite p.targetSize (fun s _ => p.sourceSpan source s) bytes
  else if p.source.format = p.target.format ∧ !p.hasMean then
    partition.overwrite p.targetSize (fun s _ => p.convertSpan source s) bytes
  else
    let sourceLayout ← p.source.layout
    let targetLayout ← p.target.layout
    partition.overwriteEach p.targetSize (p.atPosition sourceLayout targetLayout source) bytes

def scatter (p : ReorderPlan) (sourceLayout targetLayout : Layout) (source : Bytes) :
    Nat → List Nat → Bytes → Result Bytes
  | 0, _, bytes => .ok bytes
  | count + 1, coords, bytes => do
    let origin ← Result.orFault (sourceLayout.offset? coords)
    let goal ← Result.orFault (targetLayout.offset? coords)
    let element ← Result.orFault (source.slice? (origin * p.sourceSize) p.sourceSize)
    let new ← p.element element coords
    let bytes ← Result.orFault (bytes.patch? (goal * p.targetSize) new)
    p.scatter sourceLayout targetLayout source count (Index.next p.source.dims coords) bytes

def fillElements (p : ReorderPlan) (source bytes : Bytes) : Result Bytes := do
  let sourceLayout ← p.source.layout
  let targetLayout ← p.target.layout
  p.scatter sourceLayout targetLayout source p.source.count (List.replicate p.source.rank 0) (Bytes.zeros bytes.length)

def executeWith (fill : ReorderPlan → Partition → Bytes → Bytes → Result Bytes) (plan : ExecutionPlan)
    (inputs : List Tensor) : Run Unit := do
  Run.check plan inputs
  match plan.body with
  | .reorder p =>
    let source ← Run.input inputs 0
    Run.overwrite 0 (fill p plan.partition source.data)
  | _ => Run.ofResult (.fail (.wrongPlan "Reorder" "a reorder"))

def execute : ExecutionPlan → List Tensor → Run Unit := executeWith fill
def executeElements : ExecutionPlan → List Tensor → Run Unit := executeWith fun p _ => p.fillElements

end TensorPlan.ReorderPlan
