/-! Rounding exact fractions to integers. The two strategies differ only on numbers that are no
integers; a half goes to the even neighbour under `halfEven`. -/
namespace TensorPlan

inductive Rounding where
  | halfEven
  | towardZero
  deriving DecidableEq, Repr

namespace Rounding

def described : Rounding → String
  | halfEven => "RoundHalfEven"
  | towardZero => "Truncate"

def whole (v : Rat) : Int := v.num.tdiv v.den

def nearest (v : Rat) : Int :=
  if v < 0 then -(1 / 2 - v).floor else (v + 1 / 2).floor

def nearestEven (v : Rat) : Int :=
  let part := v - whole v
  if part = 1 / 2 ∨ part = -(1 / 2) then 2 * nearest (v / 2) else nearest v

def toInteger : Rounding → Rat → Int
  | .halfEven, v => nearestEven v
  | .towardZero, v => whole v

end Rounding
end TensorPlan
