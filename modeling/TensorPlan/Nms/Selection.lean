import TensorPlan.Nms.Suppression
/-! Selection over classes and batches: the best boxes of each batch, an optional order across batches,
and the rows in which they are written. -/
namespace TensorPlan

namespace Selected

def batchOrder (a b : Selected) : Ordering :=
  (compare b.score.totalKey a.score.totalKey).then ((compare a.cls b.cls).then (compare a.index b.index))

def scoreOrder (a b : Selected) : Ordering :=
  (compare b.score.totalKey a.score.totalKey).then
    ((compare a.batch b.batch).then ((compare a.cls b.cls).then (compare a.index b.index)))

def classOrder (a b : Selected) : Ordering :=
  (compare a.cls b.cls).then
    ((compare a.batch b.batch).then
      ((compare b.score.totalKey a.score.totalKey).then (compare a.index b.index)))

def sort (order : Selected → Selected → Ordering) (xs : List Selected) : List Selected :=
  xs.mergeSort fun a b => (order a b).isLE

def sortAcross (result : SortResult) (xs : List Selected) : List Selected :=
  match result with
  | .score => sort scoreOrder xs
  | .classId => sort classOrder xs
  | .unsorted => xs

end Selected

def groups {α : Type} (size : Nat) : Nat → List α → List (List α)
  | 0, _ => []
  | count + 1, xs => xs.take size :: groups size count (xs.drop size)

def stretches {α : Type} : List Nat → List α → List (List α)
  | [], _ => []
  | n :: ns, xs => xs.take n :: stretches ns (xs.drop n)

namespace NmsPlan

def choose (p : NmsPlan) (classes : List (List Selected)) : List Selected :=
  let sorted := Selected.sort Selected.batchOrder classes.flatten
  if 0 ≤ p.attributes.boxesPerBatch then sorted.take p.attributes.boxesPerBatch.toNat else sorted

def perBatch (p : NmsPlan) (kept : List (List Selected)) : List (List Selected) :=
  (groups p.classes p.batches kept).map p.choose

def ordered (p : NmsPlan) (batches : List (List Selected)) : List Selected :=
  if p.attributes.sortAcrossBatches then Selected.sortAcross p.attributes.sortResult batches.flatten
  else batches.flatten

def rows (p : NmsPlan) : Nat → List (List Selected) → List (Nat × Option Selected) × Nat
  | start, [] => ([], start)
  | start, b :: bs =>
    let stop := start + b.length
    let chosen := (List.range' start b.length).zip (b.map some)
    let reserved := start + p.maxPerBatch
    let unused := if p.attributes.dynamicOutput then [] else
      (List.range' stop (reserved - stop)).map fun row => (row, none)
    let (rest, last) := p.rows (if p.attributes.dynamicOutput then stop else reserved) bs
    (chosen ++ unused ++ rest, last)

end NmsPlan
end TensorPlan
