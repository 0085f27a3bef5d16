import TensorPlan.Element.Type
import TensorPlan.Numeric.Decimal
import TensorPlan.Text.Description
/-! Attributes of matrix non-maximum suppression, and the bounds that they set on the number of boxes.
A negative bound or background class means that there is none. -/
namespace TensorPlan

inductive SortResult where
  | classId
  | score
  | unsorted
  deriving DecidableEq, Repr

namespace SortResult

def all : List SortResult := [classId, score, unsorted]

def text : SortResult → String
  | classId => "classid"
  | score => "score"
  | unsorted => "none"

def described : SortResult → String
  | classId => "ClassId"
  | score => "Score"
  | unsorted => "None"

def ofText? (s : String) : Option SortResult := all.find? fun r => r.text == s

end SortResult

inductive DecayFunction where
  | gaussian
  | linear
  deriving DecidableEq, Repr

namespace DecayFunction

def all : List DecayFunction := [gaussian, linear]

def text : DecayFunction → String
  | gaussian => "gaussian"
  | linear => "linear"

def described : DecayFunction → String
  | gaussian => "Gaussian"
  | linear => "Linear"

def ofText? (s : String) : Option DecayFunction := all.find? fun f => f.text == s

def exponential (x : Single) : Single :=
  Binary.ofBits .single (Float32.ofBits (UInt32.ofNat x.bits.toNat)).exp.toBits.toNat

def decay (f : DecayFunction) (iou greatest sigma : Single) : Single :=
  let one := Binary.ofInt .single 1
  match f with
  | linear => (one - iou) / (one - greatest + Binary.ofRat .single (mkRat 1 10000000000))
  | gaussian => exponential ((greatest * greatest - iou * iou) * sigma)

end DecayFunction

structure NmsAttributes where
  sortResult : SortResult
  sortAcrossBatches : Bool
  indexType : ElementType
  scoreThreshold : Single
  candidatesPerClass : Int
  boxesPerBatch : Int
  background : Int
  decay : DecayFunction
  sigma : Single
  postThreshold : Single
  normalized : Bool
  dynamicOutput : Bool
  deriving DecidableEq, Repr

namespace NmsAttributes

def unset : NmsAttributes where
  sortResult := .unsorted
  sortAcrossBatches := false
  indexType := .i64
  scoreThreshold := Binary.zero .single false
  candidatesPerClass := -1
  boxesPerBatch := -1
  background := -1
  decay := .linear
  sigma := Binary.ofInt .single 2
  postThreshold := Binary.zero .single false
  normalized := true
  dynamicOutput := false

def atMost (n : Nat) (bound : Int) : Nat := if 0 ≤ bound then min n bound.toNat else n

def isBackground (a : NmsAttributes) (c : Nat) : Bool := decide (a.background = (c : Int))

def realClasses (a : NmsAttributes) (classes : Nat) : Nat :=
  if 0 ≤ a.background ∧ a.background < (classes : Int) then classes - 1 else classes

def maxPerClass (a : NmsAttributes) (boxes : Nat) : Nat := atMost boxes a.candidatesPerClass

def maxPerBatch (a : NmsAttributes) (boxes classes : Nat) : Nat :=
  atMost (a.maxPerClass boxes * a.realClasses classes) a.boxesPerBatch

def describe (a : NmsAttributes) : String :=
  Text.record "MatrixNmsAttrs" [("sort_result_type", a.sortResult.described),
    ("sort_result_across_batch", Text.truth a.sortAcrossBatches), ("output_type", a.indexType.described),
    ("score_threshold", DecimalStyle.described.render a.scoreThreshold),
    ("nms_top_k", toString a.candidatesPerClass), ("keep_top_k", toString a.boxesPerBatch),
    ("background_class", toString a.background), ("decay_function", a.decay.described),
    ("gaussian_sigma", DecimalStyle.described.render a.sigma),
    ("post_threshold", DecimalStyle.described.render a.postThreshold),
    ("normalized", Text.truth a.normalized), ("dynamic_output", Text.truth a.dynamicOutput)]

end NmsAttributes
end TensorPlan
