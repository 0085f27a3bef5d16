import TensorPlan.Element.Type
import TensorPlan.Layout.Basic
import TensorPlan.Shape.Basic
/-! Descriptors: the dimensions, the element type and the memory format of a tensor. -/
namespace TensorPlan

structure Descriptor where
  dims : List Nat
  type : ElementType
  format : MemoryFormat
  deriving DecidableEq, Repr

namespace Descriptor

def plain (dims : List Nat) (type : ElementType) : Descriptor := ⟨dims, type, .plain⟩

def rank (d : Descriptor) : Nat := d.dims.length

def count (d : Descriptor) : Nat := volume d.dims

def layout? (d : Descriptor) : Option Layout := Layout.ofDims? d.dims d.format

def byteSize? (d : Descriptor) : Option Nat := d.layout?.map fun l => l.physicalSize * d.type.size

def shape (d : Descriptor) : Shape := Shape.ofDims d.dims

def describe (d : Descriptor) : String :=
  Text.record "TensorDesc" [("dims", Text.naturals d.dims), ("data_type", d.type.described),
    ("format", d.format.described)]

end Descriptor
end TensorPlan
