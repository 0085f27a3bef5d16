import TensorPlan.Layout.Format
import TensorPlan.Layout.Index
import TensorPlan.Text.Description
/-! Layouts: where the element with given coordinates lies in memory. A layout arranges coordinates in
the order of the physical axes; the position is the row-major position of the arranged coordinates.
Blocked formats round the channels up to whole groups, so some positions hold no element. -/
namespace TensorPlan

structure Layout where
  format : MemoryFormat
  dims : List Nat
  supported : format.supportsRank dims.length = true
  deriving DecidableEq, Repr

namespace Layout

def ofDims? (dims : List Nat) (format : MemoryFormat) : Option Layout :=
  if h : format.supportsRank dims.length = true then some ⟨format, dims, h⟩ else none

def contiguous (dims : List Nat) : Layout := ⟨.plain, dims, rfl⟩

def rank (l : Layout) : Nat := l.dims.length

def channelsToBack : List Nat → List Nat
  | n :: c :: spatial => n :: spatial ++ [c]
  | coords => coords

def channelsToFront : List Nat → List Nat
  | n :: rest =>
    match rest.getLast? with
    | some c => n :: c :: rest.dropLast
    | none => [n]
  | [] => []

def splitChannel (block : Nat) : List Nat → List Nat
  | n :: c :: spatial => n :: c / block :: spatial ++ [c % block]
  | coords => coords

def joinChannel (block : Nat) : List Nat → List Nat
  | n :: group :: rest =>
    match rest.getLast? with
    | some place => n :: (group * block + place) :: rest.dropLast
    | none => [n, group]
  | coords => coords

def arrange (f : MemoryFormat) (coords : List Nat) : List Nat :=
  match f.blockSize? with
  | some block => splitChannel block coords
  | none => if f = .channelsLast then channelsToBack coords else coords

def restore (f : MemoryFormat) (coords : List Nat) : List Nat :=
  match f.blockSize? with
  | some block => joinChannel block coords
  | none => if f = .channelsLast then channelsToFront coords else coords

def blockDims (l : Layout) : List Nat :=
  match l.format.blockSize?, l.dims with
  | some block, n :: c :: spatial => n :: blocksFor c block :: spatial ++ [block]
  | some _, dims => dims
  | none, dims => if l.format = .channelsLast then channelsToBack dims else dims

def order (l : Layout) : List Nat :=
  let axes := List.range l.rank
  if l.format.isBlocked then axes ++ [1]
  else if l.format = .channelsLast then channelsToBack axes
  else axes

def strides (l : Layout) : List Nat := TensorPlan.strides l.blockDims

def size (l : Layout) : Nat := volume l.dims

def physicalSize (l : Layout) : Nat := volume l.blockDims

def offset (l : Layout) (coords : List Nat) : Nat := dot (arrange l.format (coords.take l.rank)) l.strides

def offset? (l : Layout) (coords : List Nat) : Option Nat :=
  if l.format = .plain ∨ l.rank ≤ coords.length then some (l.offset coords) else none

def holds (l : Layout) (coords : List Nat) : Bool :=
  !l.format.isBlocked || decide (coords.getD 1 0 < l.dims.getD 1 0)

def coordinates (l : Layout) (position : Nat) : List Nat := restore l.format (Index.digits l.strides position)

def coordinates? (l : Layout) (position : Nat) : Option (Bool × List Nat) :=
  if 0 ∈ l.strides then none
  else
    let coords := l.coordinates position
    some (l.holds coords, coords)

def describe (l : Layout) : String :=
  Text.record "TensorLayout" [("format", l.format.text), ("dims", Text.naturals l.dims),
    ("block_dims", Text.naturals l.blockDims), ("strides", Text.naturals l.strides)]

end Layout
end TensorPlan
