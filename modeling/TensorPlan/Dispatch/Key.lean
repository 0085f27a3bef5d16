import TensorPlan.Operator.Kind
import TensorPlan.Element.Type
import TensorPlan.Layout.Format
import TensorPlan.Text.Description
/-! Registration keys: the operator kind, element type, memory format and shape mode that a kernel is
registered for. A missing type or format stands for any. -/
namespace TensorPlan

inductive ShapeMode where
  | allKnown
  | someUnknown
  deriving DecidableEq, Repr

namespace ShapeMode

def all : List ShapeMode := [allKnown, someUnknown]

def text : ShapeMode → String
  | allKnown => "static"
  | someUnknown => "dynamic"

def described : ShapeMode → String
  | allKnown => "Static"
  | someUnknown => "Dynamic"

def ofText? (s : String) : Option ShapeMode := all.find? fun m => m.text == s

end ShapeMode

structure KernelKey where
  kind : OperatorKind
  type : Option ElementType
  format : Option MemoryFormat
  mode : ShapeMode
  deriving DecidableEq, Repr

namespace KernelKey

def specificity (k : KernelKey) : Nat := k.type.isSome.toNat + k.format.isSome.toNat

def fits {α : Type} [DecidableEq α] (wanted given : Option α) : Bool := wanted.isNone || decide (wanted = given)

def accepts (k : KernelKey) (type : Option ElementType) (format : Option MemoryFormat) : Bool :=
  fits k.type type && fits k.format format

def describe (k : KernelKey) : String :=
  Text.record "KernelKey" [("op_kind", k.kind.text), ("data_type", Text.optional ElementType.described k.type),
    ("format", Text.optional MemoryFormat.described k.format), ("shape_mode", k.mode.described)]

end KernelKey
end TensorPlan
