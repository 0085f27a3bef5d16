/-! The length of one axis, which may be unknown until a run. -/
namespace TensorPlan

inductive Dimension where
  | known (length : Nat)
  | unknown
  deriving DecidableEq, Repr

namespace Dimension

def length? : Dimension → Option Nat
  | known n => some n
  | unknown => none

def isKnown (d : Dimension) : Bool := d.length?.isSome

def compatible : Dimension → Dimension → Bool
  | known a, known b => decide (a = b)
  | _, _ => true

def merge : Dimension → Dimension → Option Dimension
  | unknown, d => some d
  | d, unknown => some d
  | known a, known b => if a = b then some (known a) else none

def text : Dimension → String
  | known n => toString n
  | unknown => "?"

end Dimension
end TensorPlan
