import TensorPlan.Machine
import TensorPlan.Tensor.Basic
/-! Layouts and sizes as words: what the machine cannot count it does not make. Coordinates and positions are
words as well. -/
namespace TensorPlan

def Descriptor.layout (d : Descriptor) : Result Layout := .ofOption (.unsupportedRank d.format d.dims) d.layout?

namespace Layout

def countGroups (l : Layout) : Result Unit :=
  match l.format.blockSize? with
  | some block => (Machine.word (l.dims.getD 1 0 + block)).map fun _ => ()
  | none => .ok ()

def create (dims : List Nat) (format : MemoryFormat) : Result Layout := do
  let l ← Result.ofOption (.unsupportedRank format dims) (ofDims? dims format)
  l.countGroups
  let _ ← Result.forEach Machine.word l.strides
  return l

def countElements (l : Layout) : Result Nat := Machine.product l.dims

def countPositions (l : Layout) : Result Nat := Machine.product l.blockDims

def offsetOf (l : Layout) (coords : List Nat) : Result Nat := do
  Machine.word (← Result.orFault (l.offset? coords))

def logicalCoords (l : Layout) (position : Nat) : Result (Bool × List Nat) := do
  let found ← Result.orFault (l.coordinates? position)
  let _ ← Result.forEach Machine.word found.2
  return found

end Layout

def Descriptor.byteSize (d : Descriptor) : Result Nat := do
  let l ← Layout.create d.dims d.format
  Machine.word ((← l.countPositions) * d.type.size)

end TensorPlan
