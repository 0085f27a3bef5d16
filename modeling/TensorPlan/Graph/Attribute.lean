import TensorPlan.Numeric.Decimal
import TensorPlan.Text.Description
import TensorPlan.Text.Quoted
/-! Untyped attributes, as a graph stores them with a node. Integers have 64 bits. -/
namespace TensorPlan

inductive Attribute where
  | float (value : Single)
  | int (value : Int)
  | string (value : String)
  | floats (values : List Single)
  | ints (values : List Int)
  | strings (values : List String)
  deriving DecidableEq, Repr

namespace Attribute

def describe : Attribute → String
  | float v => Text.applied "Float" [DecimalStyle.described.render v]
  | int v => Text.applied "Int" [toString v]
  | string s => Text.applied "String" [Text.quoted s]
  | floats vs => Text.applied "Floats" [Text.list DecimalStyle.described.render vs]
  | ints vs => Text.applied "Ints" [Text.integers vs]
  | strings ss => Text.applied "Strings" [Text.list Text.quoted ss]

end Attribute
end TensorPlan
