import TensorPlan.Text.Description
/-! Attributes of broadcasting: the target dimensions, read from an input at run time if missing, and
the output axes along which the input is replicated. -/
namespace TensorPlan

structure BroadcastAttributes where
  target : Option (List Nat)
  axes : Option (List Nat)
  deriving DecidableEq, Repr

namespace BroadcastAttributes

def isDataDependent (a : BroadcastAttributes) : Bool := a.target.isNone

def describe (a : BroadcastAttributes) : String :=
  Text.record "BroadcastAttrs" [("target_shape", Text.optional Text.naturals a.target),
    ("axes", Text.optional Text.naturals a.axes)]

end BroadcastAttributes
end TensorPlan
