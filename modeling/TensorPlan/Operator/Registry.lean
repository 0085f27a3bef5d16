import TensorPlan.Operator.Inference
/-! Registries of operators: which names are operators, of which kind, and how a node of that name
becomes typed attributes. -/
namespace TensorPlan

structure Operator where
  name : String
  kind : OperatorKind
  create : Node → Result Attributes

abbrev OperatorRegistry := List Operator

namespace OperatorRegistry

def standard [Widths] : OperatorRegistry := OperatorKind.all.map fun k => ⟨k.text, k, Attributes.ofNode k⟩

def find? (r : OperatorRegistry) (name : String) : Option Operator := List.find? (fun o => o.name == name) r

def register (r : OperatorRegistry) (o : Operator) : Result OperatorRegistry :=
  if (r.find? o.name).isSome then .fail (.operatorTaken o.name) else .ok (r ++ [o])

def kind? (r : OperatorRegistry) (name : String) : Option OperatorKind := (r.find? name).map Operator.kind

def create (r : OperatorRegistry) (n : Node) : Result Attributes := do
  let o ← Result.ofOption (.operatorUnknown n.operator) (r.find? n.operator)
  o.create n

def infer (r : OperatorRegistry) (n : Node) : Result (List Slot) := do
  (← r.create n).slots n.inputs

def describe (r : OperatorRegistry) : String :=
  let names := (r.map Operator.name).mergeSort fun a b => decide (a ≤ b)
  Text.record "OperatorRegistry" [("operators", Text.list Text.quoted names)]

end OperatorRegistry
end TensorPlan
