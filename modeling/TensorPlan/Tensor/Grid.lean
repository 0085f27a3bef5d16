import TensorPlan.Tensor.Values
/-! Grids: elements in logical order with their dimensions, whose axes can be exchanged. -/
namespace TensorPlan

structure Grid where
  dims : List Nat
  type : ElementType
  elements : List Bytes
  deriving DecidableEq, Repr

namespace Grid

def maxPositions : Nat := pow2 63 - 1

def ofTensor (t : Tensor) (type : ElementType) : Result Grid := do
  Result.ensure (t.format == .plain) (.plainArrayRequired t.format)
  let elements ← t.elementsAs type
  Result.ensure (decide (volume (t.dims.filter (· != 0)) ≤ maxPositions)) .arrayTooLarge
  return ⟨t.dims, type, elements⟩

def toTensor (g : Grid) : Result Tensor := .orFault (Tensor.ofBytes? (.plain g.dims g.type) g.elements.flatten)

def isPermutation (axes : List Nat) (rank : Nat) : Bool :=
  axes.length == rank && (List.range rank).all axes.contains

def permute (g : Grid) (axes : List Nat) : Result Grid :=
  if isPermutation axes g.dims.length then do
    let dims ← Result.orFault (collect (g.dims[·]?) axes)
    let source (n : Nat) : Option Bytes := do
      let index := (Index.decode dims n).2
      let unpermuted ← collect (fun axis => index[axes.idxOf axis]?) (List.range g.dims.length)
      g.elements[dot unpermuted (strides g.dims)]?
    let elements ← Result.orFault (collect source (List.range (volume dims)))
    return ⟨dims, g.type, elements⟩
  else .fault

end Grid
end TensorPlan
