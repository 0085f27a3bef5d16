import TensorPlan.Tensor.Sizes
/-! Building tensors from values and reading values back, with the reasons for which this fails. -/
namespace TensorPlan.Tensor

def zeros (d : Descriptor) : Result Tensor := do
  Machine.capacity (← d.byteSize)
  .orFault (zeros? d)

def ofBytes (d : Descriptor) (data : Bytes) : Result Tensor := do
  let size ← d.byteSize
  .ofOption (.bufferSize data.length d size) (ofBytes? d data)

def ofElements (dims : List Nat) (type : ElementType) (elements : List Bytes) : Result Tensor := do
  let count ← Machine.product dims
  Result.ensure (elements.length == count) (.valueCount elements.length dims)
  .orFault (ofBytes? (.plain dims type) elements.flatten)

def scalar (type : ElementType) (element : Bytes) : Result Tensor := ofElements [] type [element]

def elementsAs (t : Tensor) (type : ElementType) : Result (List Bytes) :=
  if t.type = type then .ok t.elements else .fail (.typeMismatch t.type type)

def integers (t : Tensor) : Result (List Int) := .ofOption (.integersRequired t.type) t.integers?

/-- The sizes of a part. Whoever has bytes has counted as many as there are of them before. -/
def recount (data : Bytes) (kept : Descriptor) : Result Unit :=
  if data = [] then kept.byteSize.map fun _ => () else .ok ()

def truncateOuter (t : Tensor) (rows : Nat) : Result Tensor :=
  match t.format, t.dims with
  | .plain, d :: ds => do
    Result.ensure (rows ≤ d) (.truncateGrows d rows)
    let kept := Descriptor.plain (rows :: ds) t.type
    recount t.data kept
    .orFault (ofBytes? kept (t.data.take (kept.count * t.type.size)))
  | _, _ => .fail .truncateShape

def setByte (t : Tensor) (position : Nat) (b : UInt8) : Result Tensor :=
  .orFault (do t.withData? (← t.data.patch? position [b]))

end TensorPlan.Tensor
