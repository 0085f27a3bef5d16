import TensorPlan.Broadcast.Execution
import TensorPlan.GatherTree.Execution
import TensorPlan.Nms.Execution
import TensorPlan.Pad.Elements
import TensorPlan.Pad.Rows
import TensorPlan.Proofs.Computation
import TensorPlan.Reorder.Execution
/-! Interrupted writes. To overwrite an output takes two stages: it can be refused before any byte is written, and the
writing can break off, which leaves some bytes written and others not. Only the first stage gives an error of the
library; no rule for a single item does, so writing breaks off in faults alone. -/
namespace TensorPlan

namespace Result
variable {α β : Type}

def FaultsOnly (r : Result α) : Prop := ∀ e, r ≠ .error (.error e)

namespace FaultsOnly

theorem ok (x : α) : FaultsOnly (.ok x : Result α) := by intro e failed; cases failed

theorem fault : FaultsOnly (Result.fault : Result α) := by intro e failed; cases failed

theorem orFault (o : Option α) : FaultsOnly (Result.orFault o) := by
  cases o with
  | none => exact fault
  | some x => exact ok x

theorem bind {r : Result α} {f : α → Result β} (first : r.FaultsOnly) (rest : ∀ x, (f x).FaultsOnly) :
    (r >>= f).FaultsOnly := by
  cases r with
  | error h =>
    intro e failed
    cases failed
    exact first e rfl
  | ok x => exact rest x

theorem forEach {f : α → Result β} (each : ∀ x, (f x).FaultsOnly) (xs : List α) :
    (Result.forEach f xs).FaultsOnly := by
  induction xs with
  | nil => exact ok []
  | cons x xs ih => exact bind (each x) fun y => bind ih fun ys => ok (y :: ys)

end FaultsOnly

structure Stages (staged : Result (Result α)) (whole : Result α) : Prop where
  joined : (staged >>= fun second => second) = whole
  faults : ∀ second, staged = .ok second → second.FaultsOnly

theorem Stages.second {second : Result α} (faults : second.FaultsOnly) : Stages (.ok second) second where
  joined := rfl
  faults _ same := by cases same; exact faults

theorem Stages.bind {r : Result α} {staged : α → Result (Result β)} {whole : α → Result β}
    (rest : ∀ x, Stages (staged x) (whole x)) : Stages (r >>= staged) (r >>= whole) := by
  cases r with
  | error h => exact ⟨rfl, fun _ same => by cases same⟩
  | ok x => exact rest x

end Result

open Result (FaultsOnly Stages)

namespace Bytes

theorem inPlaceFaults (old new : Bytes) : (inPlaceOf old new).FaultsOnly := by
  unfold inPlaceOf
  split
  · exact .ok new
  · exact .fault

theorem itemsFaults {f : Nat → Result Bytes} (each : ∀ n, (f n).FaultsOnly) (itemSize item count : Nat)
    (bytes : Bytes) : (bytes.overwriteItems itemSize f item count).FaultsOnly := by
  induction count generalizing item bytes with
  | zero => exact .ok bytes
  | succ count ih =>
    exact .bind (.orFault _) fun piece => .bind (each item) fun new => .bind (inPlaceFaults piece new) fun new =>
      .bind (ih (item + 1) _) fun rest => .ok (new ++ rest)

theorem spansFaults {f : Span → Bytes → Result Bytes} (each : ∀ s piece, (f s piece).FaultsOnly) (itemSize : Nat)
    (spans : List Span) (bytes : Bytes) : (bytes.overwriteSpans itemSize f spans).FaultsOnly := by
  induction spans generalizing bytes with
  | nil => exact .ok bytes
  | cons s spans ih =>
    exact .bind (.orFault _) fun piece => .bind (each s piece) fun new => .bind (inPlaceFaults piece new) fun new =>
      .bind (ih _) fun rest => .ok (new ++ rest)

end Bytes

namespace Partition
variable {p : Partition} {itemSize : Nat} {bytes : Bytes}

def overwriteStaged (p : Partition) (itemSize : Nat) (f : Span → Bytes → Result Bytes) (bytes : Bytes) :
    Result (Result Bytes) := do
  Result.ensure (decide (p.work * itemSize ≤ bytes.length)) (.smallDestination bytes.length p.work itemSize)
  return bytes.overwriteSpans itemSize f p.spans

def overwriteEachStaged (p : Partition) (itemSize : Nat) (f : Nat → Result Bytes) (bytes : Bytes) :
    Result (Result Bytes) :=
  p.overwriteStaged itemSize (fun s piece => piece.overwriteItems itemSize f s.start s.length) bytes

theorem overwriteStages {f : Span → Bytes → Result Bytes} (each : ∀ s piece, (f s piece).FaultsOnly) :
    Stages (p.overwriteStaged itemSize f bytes) (p.overwrite itemSize f bytes) :=
  .bind fun _ => .second (Bytes.spansFaults each itemSize p.spans bytes)

theorem overwriteEachStages {f : Nat → Result Bytes} (each : ∀ n, (f n).FaultsOnly) :
    Stages (p.overwriteEachStaged itemSize f bytes) (p.overwriteEach itemSize f bytes) :=
  overwriteStages fun s piece => Bytes.itemsFaults each itemSize s.start s.length piece

end Partition

namespace PadPlan

def fillStaged (p : PadPlan) (partition : Partition) (source bytes : Bytes) : Result (Result Bytes) :=
  match p.walk with
  | .fill _ => partition.overwriteStaged p.elementSize (fun s _ => .ok (Bytes.repeated s.length p.pattern)) bytes
  | .copy _ => .ok (.ok (source.take bytes.length ++ bytes.drop source.length))
  | .rows .. => partition.overwriteEachStaged (p.rowLength * p.elementSize) (p.item source) bytes

theorem borderFaults (p : PadPlan) (row : Bytes) (chunks : List Nat) : (p.border row chunks).FaultsOnly := by
  unfold border
  split
  · exact .ok _
  · exact .bind (.forEach (fun i => .orFault _) chunks) fun parts => .ok parts.flatten

theorem itemFaults (p : PadPlan) (source : Bytes) (n : Nat) : (p.item source n).FaultsOnly := by
  refine .bind (.orFault _) fun index => ?_
  split
  · exact .ok _
  · exact .bind (.orFault _) fun a => .bind (.orFault _) fun middle => .bind (p.borderFaults middle _) fun before =>
      .bind (p.borderFaults middle _) fun after => .ok (before ++ middle ++ after)

theorem fillStages (p : PadPlan) (partition : Partition) (source bytes : Bytes) :
    Stages (p.fillStaged partition source bytes) (p.fill partition source bytes) := by
  unfold fillStaged fill
  cases p.walk with
  | fill => exact Partition.overwriteStages fun _ _ => .ok _
  | copy => exact .second (.ok _)
  | rows => exact Partition.overwriteEachStages (p.itemFaults source)

end PadPlan

namespace PadRequest

def fillStaged [Widths] (r : PadRequest) (partition : Partition) (source bytes : Bytes) : Result (Result Bytes) := do
  let sourceLayout ← r.source.layout
  let targetLayout ← r.target.layout
  let pattern := r.source.type.encode r.value
  partition.overwriteEachStaged r.source.type.size (r.element sourceLayout targetLayout pattern source) bytes

theorem elementFaults (r : PadRequest) (sourceLayout targetLayout : Layout) (pattern source : Bytes) (n : Nat) :
    (r.element sourceLayout targetLayout pattern source n).FaultsOnly := by
  refine .bind (.orFault _) fun place => ?_
  obtain ⟨inside, coords⟩ := place
  dsimp only
  split
  · exact .ok _
  split
  · exact .ok pattern
  split
  · exact .ok pattern
  · exact .bind (.orFault _) fun index => .bind (.orFault _) fun offset => .orFault _

theorem fillStages [Widths] (r : PadRequest) (partition : Partition) (source bytes : Bytes) :
    Stages (r.fillStaged partition source bytes) (r.fill partition source bytes) :=
  .bind fun s => .bind fun t => Partition.overwriteEachStages (r.elementFaults s t _ source)

end PadRequest

namespace BroadcastPlan

def fillBlocksStaged (p : BroadcastPlan) (partition : Partition) (source bytes : Bytes) : Result (Result Bytes) :=
  let size := p.blockLength * p.elementSize
  if size = 0 then .ok (.ok bytes) else partition.overwriteEachStaged size (p.block source) bytes

def fillElementsStaged (p : BroadcastPlan) (partition : Partition) (source bytes : Bytes) : Result (Result Bytes) := do
  let sourceLayout ← p.sourceLayout
  let targetLayout ← p.target.layout
  partition.overwriteEachStaged p.elementSize (p.element sourceLayout targetLayout source) bytes

theorem blockFaults (p : BroadcastPlan) (source : Bytes) (n : Nat) : (p.block source n).FaultsOnly :=
  .bind (.orFault _) fun _ => .bind (.orFault _) fun _ => .orFault _

theorem elementFaults (p : BroadcastPlan) (sourceLayout targetLayout : Layout) (source : Bytes) (n : Nat) :
    (p.element sourceLayout targetLayout source n).FaultsOnly := by
  refine .bind (.orFault _) fun place => ?_
  obtain ⟨inside, coords⟩ := place
  dsimp only
  split
  · exact .ok _
  · exact .bind (.orFault _) fun wrapped => .bind (.orFault _) fun offset => .orFault _

theorem fillBlocksStages (p : BroadcastPlan) (partition : Partition) (source bytes : Bytes) :
    Stages (p.fillBlocksStaged partition source bytes) (p.fillBlocks partition source bytes) := by
  unfold fillBlocksStaged fillBlocks
  dsimp only
  split
  · exact .second (.ok bytes)
  · exact Partition.overwriteEachStages (p.blockFaults source)

theorem fillElementsStages (p : BroadcastPlan) (partition : Partition) (source bytes : Bytes) :
    Stages (p.fillElementsStaged partition source bytes) (p.fillElements partition source bytes) :=
  .bind fun s => .bind fun t => Partition.overwriteEachStages (p.elementFaults s t source)

end BroadcastPlan

namespace ReorderPlan

def fillStaged [Widths] (p : ReorderPlan) (partition : Partition) (source bytes : Bytes) : Result (Result Bytes) := do
  if p.isCopy then partition.overwriteStaged p.targetSize (fun s _ => p.sourceSpan source s) bytes
  else if p.source.format = p.target.format ∧ !p.hasMean then
    partition.overwriteStaged p.targetSize (fun s _ => p.convertSpan source s) bytes
  else
    let sourceLayout ← p.source.layout
    let targetLayout ← p.target.layout
    partition.overwriteEachStaged p.targetSize (p.atPosition sourceLayout targetLayout source) bytes

def fillElementsStaged [Widths] (p : ReorderPlan) (source bytes : Bytes) : Result (Result Bytes) := do
  let sourceLayout ← p.source.layout
  let targetLayout ← p.target.layout
  let first := List.replicate p.source.rank 0
  return p.scatter sourceLayout targetLayout source p.source.count first (Bytes.zeros bytes.length)

theorem elementFaults [Widths] (p : ReorderPlan) (bytes : Bytes) (coords : List Nat) : (p.element bytes coords).FaultsOnly := by
  unfold element
  split
  · exact .bind (.orFault _) fun mean => .ok _
  · exact .ok _

theorem atPositionFaults [Widths] (p : ReorderPlan) (sourceLayout targetLayout : Layout) (source : Bytes) (n : Nat) :
    (p.atPosition sourceLayout targetLayout source n).FaultsOnly := by
  refine .bind (.orFault _) fun place => ?_
  obtain ⟨inside, coords⟩ := place
  dsimp only
  split
  · exact .ok _
  · exact .bind (.orFault _) fun offset => .bind (.orFault _) fun bytes => p.elementFaults bytes coords

theorem scatterFaults [Widths] (p : ReorderPlan) (sourceLayout targetLayout : Layout) (source : Bytes) (count : Nat)
    (coords : List Nat) (bytes : Bytes) : (p.scatter sourceLayout targetLayout source count coords bytes).FaultsOnly := by
  induction count generalizing coords bytes with
  | zero => exact .ok bytes
  | succ count ih =>
    exact .bind (.orFault _) fun origin => .bind (.orFault _) fun goal => .bind (.orFault _) fun element =>
      .bind (p.elementFaults element coords) fun new => .bind (.orFault _) fun bytes => ih _ bytes

theorem fillStages [Widths] (p : ReorderPlan) (partition : Partition) (source bytes : Bytes) :
    Stages (p.fillStaged partition source bytes) (p.fill partition source bytes) := by
  unfold fillStaged fill
  split
  · exact Partition.overwriteStages fun s _ => .orFault _
  split
  · exact Partition.overwriteStages fun s _ => .bind (.orFault _) fun bytes => .ok _
  · exact .bind fun s => .bind fun t => Partition.overwriteEachStages (p.atPositionFaults s t source)

theorem fillElementsStages [Widths] (p : ReorderPlan) (source bytes : Bytes) :
    Stages (p.fillElementsStaged source bytes) (p.fillElements source bytes) :=
  .bind fun s => .bind fun t => .second (p.scatterFaults s t source _ _ _)

end ReorderPlan

namespace NmsPlan

def writeAllStaged (size : Nat) (entries : List (Nat × Bytes)) (bytes : Bytes) : Result (Result Bytes) :=
  .ok (writeAll size entries bytes)

theorem writeAllFaults (size : Nat) (entries : List (Nat × Bytes)) (bytes : Bytes) :
    (writeAll size entries bytes).FaultsOnly := by
  induction entries generalizing bytes with
  | nil => exact .ok bytes
  | cons e entries ih => exact .bind (.orFault _) ih

theorem writeAllStages (size : Nat) (entries : List (Nat × Bytes)) (bytes : Bytes) :
    Stages (writeAllStaged size entries bytes) (writeAll size entries bytes) := .second (writeAllFaults size entries bytes)

end NmsPlan

namespace GatherTreePlan

def writeColumnsStaged [Widths] (p : GatherTreePlan) (columns : List (List Double)) (bytes : Bytes) : Result (Result Bytes) :=
  .ok (p.writeColumns 0 columns bytes)

theorem writeColumnFaults [Widths] (p : GatherTreePlan) (batch beam step : Nat) (column : List Double) (bytes : Bytes) :
    (p.writeColumn batch beam step column bytes).FaultsOnly := by
  induction column generalizing step bytes with
  | nil => exact .ok bytes
  | cons v column ih => exact .bind (.orFault _) (ih (step + 1))

theorem writeColumnsFaults [Widths] (p : GatherTreePlan) (item : Nat) (columns : List (List Double)) (bytes : Bytes) :
    (p.writeColumns item columns bytes).FaultsOnly := by
  induction columns generalizing item bytes with
  | nil => exact .ok bytes
  | cons c columns ih => exact .bind (p.writeColumnFaults _ _ 0 c bytes) (ih (item + 1))

theorem writeColumnsStages [Widths] (p : GatherTreePlan) (columns : List (List Double)) (bytes : Bytes) :
    Stages (p.writeColumnsStaged columns bytes) (p.writeColumns 0 columns bytes) :=
  .second (p.writeColumnsFaults 0 columns bytes)

end GatherTreePlan

namespace Run
variable {α β : Type}

def overwriteLeaving (left : List Tensor → List Tensor) (output : Nat) (f : Bytes → Result (Result Bytes)) :
    Run Unit := do
  let outputs ← get
  let t ← ofResult (Result.orFault outputs[output]?)
  match ← ofResult (f t.data) with
  | .ok data =>
    let new ← ofResult (Result.orFault (t.withData? data))
    set (outputs.set output new)
  | .error h =>
    set (left outputs)
    throw h

def Alike (r s : Run α) : Prop := ∀ outputs,
  r.run outputs = s.run outputs ∨ (r.run outputs).1 = .error .fault ∧ (s.run outputs).1 = .error .fault

theorem Alike.same (r : Run α) : Alike r r := fun _ => .inl rfl

theorem Alike.bind {r s : Run α} {f g : α → Run β} (first : Alike r s) (rest : ∀ x, Alike (f x) (g x)) :
    Alike (r >>= f) (s >>= g) := by
  intro outputs
  cases left : r.run outputs with
  | mk result held =>
    rcases first outputs with same | ⟨fault, fault'⟩
    · rw [left] at same
      cases result with
      | error h => rw [bindError left, bindError same.symm]; exact .inl rfl
      | ok x => rw [bindOk left, bindOk same.symm]; exact rest x held
    · rw [left] at fault
      cases fault
      cases right : s.run outputs with
      | mk result' held' =>
        rw [right] at fault'
        cases fault'
        rw [bindError left, bindError right]
        exact .inr ⟨rfl, rfl⟩

theorem Alike.read {r : Run α} {f g : α → Run β} (rest : ∀ x, Alike (f x) (g x)) : Alike (r >>= f) (r >>= g) :=
  .bind (.same r) rest

theorem overwriteAlike {output : Nat} {f : Bytes → Result Bytes} {g : Bytes → Result (Result Bytes)}
    (left : List Tensor → List Tensor) (stages : ∀ bytes, Stages (g bytes) (f bytes)) :
    Alike (overwriteLeaving left output g) (overwrite output f) := by
  refine .read fun outputs => .read fun t => ?_
  obtain ⟨joined, faults⟩ := stages t.data
  dsimp only
  rw [← joined]
  cases staged : g t.data with
  | error h => exact .same _
  | ok second =>
    cases second with
    | ok data => exact .same _
    | error h =>
      cases h with
      | error e => exact (faults _ staged e rfl).elim
      | fault => exact fun _ => .inr ⟨rfl, rfl⟩

end Run
end TensorPlan
