import TensorPlan.Tensor.Values
import TensorPlan.Text.Case
/-! Nodes of a graph and their slots. A slot carries what is known before a run: a shape, an element
type, a format, and the tensor itself where it is constant. -/
namespace TensorPlan

structure Slot where
  shape : Shape
  type : ElementType
  format : MemoryFormat
  constant : Option Tensor
  deriving DecidableEq, Repr

namespace Slot

def ofShape (shape : Shape) (type : ElementType) (format : MemoryFormat) : Slot := ⟨shape, type, format, none⟩

def ofTensor (t : Tensor) : Slot := ⟨t.shape, t.type, t.format, some t⟩

end Slot

structure Node where
  name : String
  operator : String
  attributes : List (String × Attribute)
  inputs : List Slot
  deriving DecidableEq, Repr

namespace Node

def shapes (n : Node) : List Shape := n.inputs.map Slot.shape

def constant? (n : Node) (input : Nat) : Option Tensor := n.inputs[input]?.bind Slot.constant

def attribute? (n : Node) (name : String) : Option Attribute :=
  (n.attributes.reverse.find? fun a => a.1 == name).map Prod.snd

def read {α : Type} (n : Node) (name expected : String) (select : Attribute → Option α) : Result (Option α) :=
  match n.attribute? name with
  | none => .ok none
  | some a =>
    match select a with
    | some x => .ok (some x)
    | none => .fail (.attributeType n.operator n.name name expected a)

def int? (n : Node) (name : String) : Result (Option Int) :=
  n.read name "int" fun | .int v => some v | _ => none

def float? (n : Node) (name : String) : Result (Option Single) :=
  n.read name "float" fun | .float v => some v | .int v => some (Binary.ofInt .single v) | _ => none

def string? (n : Node) (name : String) : Result (Option String) :=
  n.read name "string" fun | .string s => some s | _ => none

def ints? (n : Node) (name : String) : Result (Option (List Int)) :=
  n.read name "ints" fun | .ints vs => some vs | _ => none

def floats? (n : Node) (name : String) : Result (Option (List Single)) :=
  n.read name "floats" fun | .floats vs => some vs | _ => none

def bool? (n : Node) (name : String) : Result (Option Bool) := do
  return (← n.int? name).map (· != 0)

def word? {α : Type} (n : Node) (name what : String) (ofText? : String → Option α) : Result (Option α) := do
  match ← n.string? name with
  | none => return none
  | some s => return some (← .ofOption (.unknownName what s) (ofText? (Text.lower s)))

end Node
end TensorPlan
