/-! Row-major indices: the last axis varies fastest. The volume of a list of dimensions is their
product, the stride of an axis is the volume of the axes behind it, and a flat position is the dot
product of an index with the strides. -/
namespace TensorPlan

def volume : List Nat → Nat
  | [] => 1
  | d :: ds => d * volume ds

def strides : List Nat → List Nat
  | [] => []
  | _ :: ds => volume ds :: strides ds

def dot : List Nat → List Nat → Nat
  | i :: is, s :: ss => i * s + dot is ss
  | _, _ => 0

def blocksFor (n block : Nat) : Nat := (n + block - 1) / block

namespace Index

def decode : List Nat → Nat → Nat × List Nat
  | [], n => (n, [])
  | d :: ds, n =>
    let (q, index) := decode ds n
    (q / d, q % d :: index)

def ofFlat? (dims : List Nat) (n : Nat) : Option (List Nat) :=
  if 0 ∈ dims then none else some (decode dims n).2

def advance : List Nat → List Nat → Bool × List Nat
  | d :: ds, i :: is =>
    match advance ds is with
    | (false, rest) => (false, i :: rest)
    | (true, rest) => if i + 1 < d then (false, (i + 1) :: rest) else (true, 0 :: rest)
  | _, _ => (true, [])

def next (dims index : List Nat) : List Nat := (advance dims index).2

def digits : List Nat → Nat → List Nat
  | [], _ => []
  | s :: ss, n => n / s :: digits ss (n % s)

end Index
end TensorPlan
