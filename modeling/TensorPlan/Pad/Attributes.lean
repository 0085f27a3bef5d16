import TensorPlan.Numeric.Decimal
import TensorPlan.Text.Description
/-! Attributes of padding: what fills the border, how wide it is on either side of each axis, and the
value for the constant mode. A missing part is read from an input at run time. -/
namespace TensorPlan

inductive PadMode where
  | constant
  | edge
  | reflect
  | symmetric
  deriving DecidableEq, Repr

namespace PadMode

def all : List PadMode := [constant, edge, reflect, symmetric]

def text : PadMode → String
  | constant => "constant"
  | edge => "edge"
  | reflect => "reflect"
  | symmetric => "symmetric"

def described : PadMode → String
  | constant => "Constant"
  | edge => "Edge"
  | reflect => "Reflect"
  | symmetric => "Symmetric"

def ofText? (s : String) : Option PadMode := all.find? fun m => m.text == s

end PadMode

structure PadAttributes where
  mode : PadMode
  before : Option (List Int)
  after : Option (List Int)
  value : Option Double
  deriving DecidableEq, Repr

namespace PadAttributes

def unset : PadAttributes := ⟨.constant, none, none, some (Binary.zero .double false)⟩

def isDataDependent (a : PadAttributes) : Bool := a.before.isNone || a.after.isNone || a.value.isNone

def describe (a : PadAttributes) : String :=
  Text.record "PadAttrs" [("mode", a.mode.described), ("pads_begin", Text.optional Text.integers a.before),
    ("pads_end", Text.optional Text.integers a.after),
    ("pad_value", Text.optional DecimalStyle.described.render a.value)]

end PadAttributes
end TensorPlan
