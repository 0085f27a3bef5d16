import TensorPlan.Run.Basic
/-! Padding row by row. The index of a row selects a row of the source, unless it lies in a constant
border; the innermost padded axis is filled in chunks inside the row. -/
namespace TensorPlan

def PadAxis.sourceIndex (mode : PadMode) (a : PadAxis) (i : Nat) : Option Nat :=
  if a.before ≤ i ∧ i < a.sourceEnd then some (i - a.before)
  else
    match mode with
    | .constant => none
    | .edge => some (if i < a.before then 0 else a.source - 1)
    | .reflect => some (if i < a.before then a.before - i else a.reflectionBase .reflect - i)
    | .symmetric => some (if i < a.before then a.before - i - 1 else a.reflectionBase .symmetric - i)

namespace PadPlan

def rowStart (mode : PadMode) : List PadAxis → List Nat → Option Nat
  | a :: as, i :: index => do
    let source ← a.sourceIndex mode i
    let rest ← rowStart mode as index
    some (source * a.sourceStride + rest)
  | _, _ => some 0

def chunksBefore (p : PadPlan) (a : PadAxis) : List Nat :=
  (List.range a.before).map fun i =>
    match p.mode with
    | .constant | .edge => 0
    | .reflect => a.before - i
    | .symmetric => a.before - 1 - i

def chunksAfter (p : PadPlan) (a : PadAxis) : List Nat :=
  (List.range a.after).map fun i =>
    match p.mode with
    | .constant => 0
    | .edge => a.source - 1
    | .reflect | .symmetric => a.reflectionBase p.mode - a.sourceEnd - i

def border (p : PadPlan) (row : Bytes) (chunks : List Nat) : Result Bytes :=
  let size := p.shift * p.elementSize
  if p.mode = .constant then .ok (Bytes.repeated (chunks.length * p.shift) p.pattern)
  else do
    let parts ← Result.forEach (fun i => Result.orFault (row.slice? (i * size) size)) chunks
    return parts.flatten

def row (p : PadPlan) (source : Bytes) (start : Nat) : Result Bytes := do
  let a ← Result.orFault p.axes[p.outerRank]?
  let middle ← Result.orFault (source.slice? (start * p.elementSize) (a.source * p.shift * p.elementSize))
  let before ← p.border middle (p.chunksBefore a)
  let after ← p.border middle (p.chunksAfter a)
  return before ++ middle ++ after

def item (p : PadPlan) (source : Bytes) (n : Nat) : Result Bytes := do
  let index ← Result.orFault (Index.ofFlat? p.outerDims n)
  match rowStart p.mode (p.axes.take p.outerRank) index with
  | none => return Bytes.repeated p.rowLength p.pattern
  | some start => p.row source start

def fill (p : PadPlan) (partition : Partition) (source bytes : Bytes) : Result Bytes :=
  match p.walk with
  | .fill _ => partition.overwrite p.elementSize (fun s _ => .ok (Bytes.repeated s.length p.pattern)) bytes
  | .copy _ => .ok (source.take bytes.length ++ bytes.drop source.length)
  | .rows .. => partition.overwriteEach (p.rowLength * p.elementSize) (p.item source) bytes

def execute (plan : ExecutionPlan) (inputs : List Tensor) : Run Unit := do
  Run.check plan inputs
  match plan.body with
  | .pad p =>
    let source ← Run.input inputs 0
    Run.overwrite 0 (p.fill plan.partition source.data)
  | body => Run.ofResult (.fail (.wrongPadPlan body.variant))

end PadPlan
end TensorPlan
