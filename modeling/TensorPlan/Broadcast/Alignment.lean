import TensorPlan.Error
/-! Aligning the dimensions of an input with the output of a broadcast. Equal ranks align axis by axis;
otherwise axes of length one are inserted at the listed axes or, without a list, in front; an input
with a single element fits every rank. Along a listed axis the input must have length one; along any
other its length must divide the output's. -/
namespace TensorPlan.Broadcast

def insertOnes (listed : List Nat) : List Nat → List Nat → List Nat
  | [], _ => []
  | axis :: rest, ds =>
    if listed.contains axis then 1 :: insertOnes listed rest ds
    else
      match ds with
      | d :: ds => d :: insertOnes listed rest ds
      | [] => 1 :: insertOnes listed rest []

def align? (input output axes : List Nat) : Option (List Nat) :=
  let rank := output.length
  if input.length = rank then some input
  else if axes ≠ [] ∧ input.length + axes.length = rank then some (insertOnes axes (List.range rank) input)
  else if axes = [] ∧ input.length < rank then some (List.replicate (rank - input.length) 1 ++ input)
  else if volume input = 1 then some (List.replicate rank 1)
  else none

def checkAxis (input axes : List Nat) (axis source target : Nat) : Result Unit :=
  if axes.contains axis then .ensure (source == 1) (.axisNotOne axis source input)
  else if source = 0 then .ensure (target == 0) (.emptyAxis axis input target)
  else .ensure (target % source == 0) (.notDivisible target source axis)

def checkAxes (input axes : List Nat) : Nat → List Nat → List Nat → Result Unit
  | axis, source :: sources, target :: targets => do
    checkAxis input axes axis source target
    checkAxes input axes (axis + 1) sources targets
  | _, _, _ => .ok ()

def normalize (input output : List Nat) (axes : Option (List Nat)) : Result (List Nat) := do
  let axes := axes.getD []
  match axes.find? (output.length ≤ ·) with
  | some axis => .fail (.axisRange axis output)
  | none => pure ()
  let aligned ← Result.ofOption (.cannotAlign input output axes) (align? input output axes)
  checkAxes input axes 0 aligned output
  return aligned

end TensorPlan.Broadcast
