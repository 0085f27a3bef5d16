import TensorPlan.Tensor.Descriptor
import TensorPlan.Element.Conversion
/-! Tensors: a descriptor and a buffer of exactly the bytes that it asks for. -/
namespace TensorPlan

structure Tensor where
  descriptor : Descriptor
  data : Bytes
  fits : descriptor.byteSize? = some data.length
  deriving DecidableEq, Repr

namespace Tensor

def dims (t : Tensor) : List Nat := t.descriptor.dims
def type (t : Tensor) : ElementType := t.descriptor.type
def format (t : Tensor) : MemoryFormat := t.descriptor.format
def rank (t : Tensor) : Nat := t.descriptor.rank
def count (t : Tensor) : Nat := t.descriptor.count
def shape (t : Tensor) : Shape := t.descriptor.shape

def ofBytes? (d : Descriptor) (data : Bytes) : Option Tensor :=
  if h : d.byteSize? = some data.length then some ⟨d, data, h⟩ else none

def zeros? (d : Descriptor) : Option Tensor := d.byteSize?.bind fun n => ofBytes? d (Bytes.zeros n)

def withData? (t : Tensor) (data : Bytes) : Option Tensor := ofBytes? t.descriptor data

def elements (t : Tensor) : List Bytes := Bytes.pieces t.type.size t.data

def doubles [Widths] (t : Tensor) : List Double := t.elements.map t.type.readDouble

def integers? (t : Tensor) : Option (List Int) :=
  if t.type.isFloat then none else collect t.type.readInteger? t.elements

def describe (t : Tensor) : String :=
  Text.record "Tensor" [("dims", Text.naturals t.dims), ("data_type", t.type.text),
    ("format", t.format.text), ("bytes", toString t.data.length)]

end Tensor
end TensorPlan
