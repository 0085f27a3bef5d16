import TensorPlan.Shape.Dimension
import TensorPlan.Layout.Index
import TensorPlan.Text.Description
/-! Shapes known in part. The number of axes may be unknown, and so may any single length. Merging
keeps what either side knows and fails where both know different things. -/
namespace TensorPlan

inductive Shape where
  | unranked
  | ranked (dims : List Dimension)
  deriving DecidableEq, Repr

def collect {α β : Type} (f : α → Option β) : List α → Option (List β)
  | [] => some []
  | x :: xs => do
    let y ← f x
    let ys ← collect f xs
    some (y :: ys)

namespace Shape

def ofDims (dims : List Nat) : Shape := ranked (dims.map .known)
def ofRank (rank : Nat) : Shape := ranked (List.replicate rank .unknown)
def scalar : Shape := ranked []

def dims? : Shape → Option (List Dimension)
  | unranked => none
  | ranked dims => some dims

def rank? (s : Shape) : Option Nat := s.dims?.map List.length

def isStatic : Shape → Bool
  | unranked => false
  | ranked dims => dims.all Dimension.isKnown

def dim? (s : Shape) (axis : Nat) : Option Dimension := s.dims?.bind (·[axis]?)

def dim (s : Shape) (axis : Nat) : Dimension := (s.dim? axis).getD .unknown

def setDim (s : Shape) (axis : Nat) (d : Dimension) : Shape :=
  match s with
  | unranked => unranked
  | ranked dims => ranked (dims.set axis d)

def toDims? (s : Shape) : Option (List Nat) := s.dims?.bind (collect Dimension.length?)

def count? (s : Shape) : Option Nat := s.toDims?.map volume

def hasRank (s : Shape) (rank : Nat) : Bool := s.rank?.all (· == rank)

def compatible : Shape → Shape → Bool
  | ranked a, ranked b => a.length == b.length && (a.zip b).all fun p => p.1.compatible p.2
  | _, _ => true

def merge : Shape → Shape → Option Shape
  | s, unranked => some s
  | unranked, s => some s
  | ranked a, ranked b =>
    if a.length = b.length then (collect (fun p => Dimension.merge p.1 p.2) (a.zip b)).map ranked else none

def mergeInto (t : Shape) : StateM Shape Bool := do
  match (← get).merge t with
  | some merged =>
    set merged
    return true
  | none => return false

def withRank? (s : Shape) (rank : Nat) : Option Shape :=
  match s with
  | unranked => some (ofRank rank)
  | ranked dims => if dims.length = rank then some s else none

def text : Shape → String
  | unranked => "[...]"
  | ranked dims => "[" ++ String.intercalate "," (dims.map Dimension.text) ++ "]"

end Shape
end TensorPlan
