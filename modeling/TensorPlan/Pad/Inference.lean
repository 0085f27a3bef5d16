import TensorPlan.Graph.Node
import TensorPlan.Operator.Check
import TensorPlan.Machine
/-! Padding before a run: attributes from a node, and output shapes. The inputs are the data, the
widths in front, the widths behind and the pad value; the last three may be constants or attributes. -/
namespace TensorPlan.PadAttributes

def singleValue : List Double → Result Double
  | [v] => .ok v
  | vs => .fail (.padValueCount vs.length)

def widthsOfNode (n : Node) (name : String) (input : Nat) : Result (Option (List Int)) := do
  match ← n.ints? name, n.constant? input with
  | some widths, _ => return some widths
  | none, some t => return some (← t.integers)
  | none, none => return none

variable [Widths]

def valueOfNode (n : Node) : Result (Option Double) := do
  match ← n.float? "pad_value" with
  | some v => return some (Widths.widen v)
  | none =>
    if n.inputs.length ≤ 3 then return some (Binary.zero .double false)
    else
      match n.constant? 3 with
      | some t => return some (← singleValue t.doubles)
      | none => return none

def ofNode (n : Node) : Result PadAttributes := do
  let mode ← n.word? "mode" "pad mode" PadMode.ofText?
  let before ← widthsOfNode n "pads_begin" 1
  let after ← widthsOfNode n "pads_end" 2
  let value ← valueOfNode n
  return ⟨mode.getD .constant, before, after, value⟩

def checkWidths (data : Shape) (what : String) : Option Shape → Result Unit
  | none => .ok ()
  | some widths => do
    Check.rank .pad what widths 1
    match data.rank?, widths.dim? 0 with
    | some rank, some (.known length) => .ensure (rank == length) (.padLength what length data)
    | _, _ => .ok ()

def signedLength (n : Nat) : Int := Int.bmod n (pow2 64)

def lengthened (n : Nat) (before after : Int) : Result Int := do
  Machine.signed ((← Machine.signed (signedLength n + before)) + after)

def paddedDim (data : Shape) (axis : Nat) (before after : Int) : Dimension → Result Dimension
  | .unknown => .ok .unknown
  | .known n => do
    let length ← lengthened n before after
    Result.ensure (0 ≤ length) (.padNegativeSize axis data before after)
    return .known length.toNat

def paddedDims (data : Shape) : Nat → List Dimension → List Int → List Int → Result (List Dimension)
  | axis, d :: ds, b :: bs, e :: es => do
    let padded ← paddedDim data axis b e d
    let rest ← paddedDims data (axis + 1) ds bs es
    return padded :: rest
  | _, _, _, _ => .ok []

def runtimeShape (data : Shape) (widths : Option Shape) : Shape :=
  match data.rank?.or ((widths.bind (Shape.dim? · 0)).bind Dimension.length?) with
  | some rank => Shape.ofRank rank
  | none => .unranked

def shapes (a : PadAttributes) (inputs : List Shape) : Result (List Shape) := do
  let least := if a.before.isNone || a.after.isNone then 3 else 1
  Check.inputCount .pad inputs.length least 4
  let data ← Result.orFault inputs[0]?
  checkWidths data "pads_begin" inputs[1]?
  checkWidths data "pads_end" inputs[2]?
  match inputs[3]? with
  | some value => Check.rank .pad "pad_value" value 0
  | none => pure ()
  match a.before, a.after with
  | some before, some after =>
    Result.ensure (before.length == after.length) (.padsDiffer before after)
    let ranked ← Result.ofOption (.padEntries before.length data) (data.withRank? before.length)
    return [.ranked (← paddedDims ranked 0 (ranked.dims?.getD []) before after)]
  | _, _ => return [runtimeShape data inputs[1]?]

end TensorPlan.PadAttributes
