/-! The five kinds of operators. -/
namespace TensorPlan

inductive OperatorKind where
  | gatherTree
  | pad
  | broadcast
  | reorder
  | matrixNms
  deriving DecidableEq, Repr

namespace OperatorKind

def all : List OperatorKind := [gatherTree, pad, broadcast, reorder, matrixNms]

def text : OperatorKind → String
  | gatherTree => "GatherTree"
  | pad => "Pad"
  | broadcast => "Broadcast"
  | reorder => "Reorder"
  | matrixNms => "MatrixNms"

def ofText? (s : String) : Option OperatorKind := all.find? fun k => k.text == s

end OperatorKind
end TensorPlan
