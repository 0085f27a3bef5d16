import TensorPlan.Nms.Selection
import TensorPlan.Run.Basic
import TensorPlan.Tensor.Grid
/-! Running matrix non-maximum suppression: every class of every batch is suppressed on its own, then
the rows, the indices and the counts are written, and a dynamic output is cut to its rows. -/
namespace TensorPlan.NmsPlan

structure View where
  rows : Nat
  columns : Nat
  depth : Nat
  values : List Single
  deriving DecidableEq, Repr

def view (what : String) (t : Tensor) : Result View := do
  let grid ← Grid.ofTensor t .f32
  match grid.dims with
  | [a, b, c] => return ⟨a, b, c, grid.elements.map fun e => Binary.ofBits .single e.toNat⟩
  | _ => .fail (.nmsView what)

def View.line? (v : View) (row column : Nat) : Option (List Single) :=
  if row < v.rows ∧ column < v.columns then
    some ((v.values.drop ((row * v.columns + column) * v.depth)).take v.depth)
  else none

def boxAt (boxes : View) (batch index : Nat) : Option Box := do
  match ← boxes.line? batch index with
  | left :: top :: right :: bottom :: _ => some ⟨left, top, right, bottom⟩
  | _ => none

def item (p : NmsPlan) (boxes scores : View) (n : Nat) : Result (List Selected) := do
  let batch := n / p.classes
  let cls := n % p.classes
  let line ← Result.orFault (scores.line? batch cls)
  if p.attributes.isBackground cls then return []
  else
    let candidates ← Result.forEach
      (fun c => do return ⟨c.1, c.2, ← Result.orFault (boxAt boxes batch c.1)⟩) (Candidate.ranking p line)
    return p.suppress batch cls candidates

def singleBytes (x : Single) : Bytes := Bytes.ofNat 4 x.bits.toNat

variable [Widths]

def indexBytes (p : NmsPlan) (v : Int) : Bytes :=
  p.attributes.indexType.writeDouble .halfEven (Binary.ofInt .double v)

def rowBytes : Option Selected → Bytes
  | some s =>
    ([Binary.ofInt .single s.cls, s.score, s.box.left, s.box.top, s.box.right, s.box.bottom].map singleBytes).flatten
  | none => Bytes.repeated 6 (singleBytes (Binary.ofInt .single (-1)))

def rowIndex (p : NmsPlan) : Option Selected → Int
  | some s => ((s.batch * p.boxes + s.index : Nat) : Int)
  | none => -1

def writeAll (size : Nat) : List (Nat × Bytes) → Bytes → Result Bytes
  | [], bytes => .ok bytes
  | (place, new) :: rest, bytes => do writeAll size rest (← Result.orFault (bytes.patch? (place * size) new))

def write (p : NmsPlan) (kept : List (List Selected)) : Run Unit := do
  let batches := p.perBatch kept
  let counts := batches.map List.length
  let (rows, last) := p.rows 0 (stretches counts (p.ordered batches))
  let size := p.attributes.indexType.size
  Run.overwrite 0 (writeAll 24 (rows.map fun r => (r.1, rowBytes r.2)))
  Run.overwrite 1 (writeAll size (rows.map fun r => (r.1, p.indexBytes (p.rowIndex r.2))))
  Run.overwrite 2 (writeAll size ((List.range counts.length).zip (counts.map fun n => p.indexBytes (n : Nat))))
  if p.attributes.dynamicOutput then
    Run.update 0 (·.truncateOuter last)
    Run.update 1 (·.truncateOuter last)

def execute (plan : ExecutionPlan) (inputs : List Tensor) : Run Unit := do
  Run.check plan inputs
  match plan.body with
  | .matrixNms p =>
    let boxes ← Run.ofResult (view "boxes" (← Run.input inputs 0))
    let scores ← Run.ofResult (view "scores" (← Run.input inputs 1))
    let kept ← Run.ofResult (Result.forEach (p.item boxes scores) plan.partition.items)
    p.write kept
  | _ => Run.ofResult (.fail (.wrongPlan "MatrixNms" "an NMS"))

end TensorPlan.NmsPlan
