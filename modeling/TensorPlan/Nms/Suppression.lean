import TensorPlan.Nms.Overlap
import TensorPlan.Nms.Plan
/-! Suppression of one class of one batch. The candidates are the best boxes above the threshold; the
score of each decays by its overlap with the better ones, and it is kept if it stays above a second
threshold. -/
namespace TensorPlan

structure Selected where
  batch : Nat
  cls : Nat
  index : Nat
  score : Single
  box : Box
  deriving DecidableEq, Repr

structure Candidate where
  index : Nat
  score : Single
  box : Box
  deriving DecidableEq, Repr

namespace Candidate

def before (a b : Nat × Single) : Bool :=
  ((compare b.2.totalKey a.2.totalKey).then (compare a.1 b.1)).isLE

def ranking (p : NmsPlan) (scores : List Single) : List (Nat × Single) :=
  let above := ((List.range scores.length).zip scores).filter fun c => p.attributes.scoreThreshold.less c.2
  (above.mergeSort before).take p.maxPerClass

end Candidate

namespace NmsPlan

def overlaps (p : NmsPlan) (earlier : List Candidate) (c : Candidate) : List Single :=
  earlier.map fun e => c.box.overlap p.attributes.normalized e.box

def greatestOverlap (p : NmsPlan) (earlier : List Candidate) (c : Candidate) : Single :=
  (p.overlaps earlier c).foldl Binary.greater Box.zero

def decayOf (p : NmsPlan) (earlier : List Candidate) (greatest : List Single) (c : Candidate) : Single :=
  let decays := ((p.overlaps earlier c).zip greatest).map fun o =>
    p.attributes.decay.decay o.1 o.2 p.attributes.sigma
  decays.foldl Binary.lesser (Binary.ofInt .single 1)

def decayed (p : NmsPlan) : List Candidate → List Single → List Candidate → List (Candidate × Single)
  | _, _, [] => []
  | earlier, greatest, c :: cs =>
    let score := if earlier.isEmpty then c.score else p.decayOf earlier greatest c * c.score
    (c, score) :: p.decayed (earlier ++ [c]) (greatest ++ [p.greatestOverlap earlier c]) cs

def suppress (p : NmsPlan) (batch cls : Nat) (candidates : List Candidate) : List Selected :=
  ((p.decayed [] [] candidates).filter fun d => p.attributes.postThreshold.less d.2).map fun d =>
    ⟨batch, cls, d.1.index, d.2, d.1.box⟩

end NmsPlan
end TensorPlan
