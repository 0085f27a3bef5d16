import TensorPlan.Error
/-! Checks that shape inference makes of the inputs of an operator. -/
namespace TensorPlan.Check

def inputCount (kind : OperatorKind) (count least greatest : Nat) : Result Unit :=
  .ensure (decide (least ≤ count ∧ count ≤ greatest)) (.inputCount kind least greatest count)

def rank (kind : OperatorKind) (what : String) (shape : Shape) (rank : Nat) : Result Unit :=
  .ensure (shape.hasRank rank) (.rankMismatch kind what rank shape)

def merge (kind : OperatorKind) (what : String) (left right : Shape) : Result Shape :=
  .ofOption (.shapesConflict kind what left right) (left.merge right)

end TensorPlan.Check
