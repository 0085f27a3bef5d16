import TensorPlan.Error
/-! Machine arithmetic. A sum or a product that its word cannot hold ends the program. -/
namespace TensorPlan.Machine

def word (n : Nat) : Result Nat := if n < pow2 64 then .ok n else .fault

def signed (v : Int) : Result Int := if -(pow2 63 : Int) ≤ v ∧ v < (pow2 63 : Int) then .ok v else .fault

def capacity (n : Nat) : Result Unit := if n < pow2 63 then .ok () else .fault

/-- Factor by factor from the front, so that a product may leave the word before an empty axis is met. -/
def productFrom : Nat → List Nat → Result Nat
  | total, [] => .ok total
  | total, n :: ns => do productFrom (← word (total * n)) ns

def product (ns : List Nat) : Result Nat := productFrom 1 ns

end TensorPlan.Machine
