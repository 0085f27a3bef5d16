import TensorPlan.Run.Basic
/-! Padding element by element, for every format: the coordinates of an output position lead to those
of a source element, or into a constant border. -/
namespace TensorPlan.PadRequest

def sourceCoordinate (mode : PadMode) (coordinate before length : Nat) : Option Int :=
  let i : Int := coordinate - before
  let n : Int := length
  if 0 ≤ i ∧ i < n then some i
  else
    match mode with
    | .constant => none
    | .edge => some (if i < 0 then 0 else n - 1)
    | .reflect => some (if i < 0 then -i else 2 * (n - 1) - i)
    | .symmetric => some (if i < 0 then -i - 1 else 2 * n - 1 - i)

def sourceCoordinates (mode : PadMode) : List Nat → List Nat → List Nat → Option (List Int)
  | c :: cs, b :: bs, d :: ds => do
    let i ← sourceCoordinate mode c b d
    let rest ← sourceCoordinates mode cs bs ds
    some (i :: rest)
  | _, _, _ => some []

def element (r : PadRequest) (sourceLayout targetLayout : Layout) (pattern source : Bytes) (position : Nat) :
    Result Bytes := do
  let (inside, coords) ← Result.orFault (targetLayout.coordinates? position)
  if !inside then return Bytes.zeros r.source.type.size
  else if r.zeroInput then return pattern
  else
    match sourceCoordinates r.mode coords r.before r.source.dims with
    | none => return pattern
    | some found =>
      let index ← Result.orFault (collect Int.toNat? found)
      let offset ← Result.orFault (sourceLayout.offset? index)
      Result.orFault (source.slice? (offset * r.source.type.size) r.source.type.size)

variable [Widths]

def fill (r : PadRequest) (partition : Partition) (source bytes : Bytes) : Result Bytes := do
  let sourceLayout ← r.source.layout
  let targetLayout ← r.target.layout
  let pattern := r.source.type.encode r.value
  partition.overwriteEach r.source.type.size (r.element sourceLayout targetLayout pattern source) bytes

def execute (plan : ExecutionPlan) (inputs : List Tensor) : Run Unit := do
  Run.check plan inputs
  match plan.body with
  | .padElements r =>
    let source ← Run.input inputs 0
    Run.overwrite 0 (r.fill plan.partition source.data)
  | _ => Run.ofResult (.fail (.wrongPlan "Reference pad" "a reference"))

end TensorPlan.PadRequest
