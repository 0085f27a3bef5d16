import TensorPlan.Element.Type
import TensorPlan.Layout.Format
import TensorPlan.Numeric.Decimal
import TensorPlan.Text.Description
/-! Attributes of reordering: the element type and the memory format of the output, and a mean that
is subtracted, multiplied or divided by on the way. -/
namespace TensorPlan

inductive MeanMode where
  | ignore
  | subtract
  | multiply
  | divide
  deriving DecidableEq, Repr

namespace MeanMode

def all : List MeanMode := [ignore, subtract, multiply, divide]

def text : MeanMode → String
  | ignore => "none"
  | subtract => "subtract"
  | multiply => "mul"
  | divide => "div"

def described : MeanMode → String
  | ignore => "None"
  | subtract => "Subtract"
  | multiply => "Mul"
  | divide => "Div"

def ofText? (s : String) : Option MeanMode := all.find? fun m => m.text == s

def apply (mode : MeanMode) (value mean : Double) : Double :=
  match mode with
  | ignore => value
  | subtract => value - mean
  | multiply => value * mean
  | divide => value / mean

end MeanMode

structure ReorderAttributes where
  type : ElementType
  format : MemoryFormat
  meanMode : MeanMode
  mean : List Single
  truncate : Bool
  deriving DecidableEq, Repr

namespace ReorderAttributes

def describe (a : ReorderAttributes) : String :=
  Text.record "ReorderAttrs" [("output_type", a.type.described), ("output_format", a.format.described),
    ("mean_mode", a.meanMode.described), ("mean_values", Text.list DecimalStyle.described.render a.mean),
    ("truncate", Text.truth a.truncate)]

end ReorderAttributes
end TensorPlan
