import TensorPlan.Dispatch.Builtin
import TensorPlan.Proofs.Splitting
/-! Edits. After it has read its inputs a kernel only edits its outputs, one after the other: it computes the bytes of one
anew, or it cuts its outermost dimension. -/
namespace TensorPlan

inductive Edit where
  | overwrite (f : Bytes → Result Bytes)
  | truncate (rows : Nat)

namespace Edit

def write (position : Nat) (b : UInt8) : Edit := overwrite fun bytes => .orFault (bytes.patch? position [b])

def apply : Edit → Tensor → Result Tensor
  | overwrite f, t => do Result.orFault (t.withData? (← f t.data))
  | truncate rows, t => t.truncateOuter rows

theorem writeApply (position : Nat) (b : UInt8) (t : Tensor) : (write position b).apply t = t.setByte position b := by
  rw [write, apply, Tensor.setByte]
  cases t.data.patch? position [b] <;> rfl

def KeepsLength : Edit → Prop
  | overwrite f => ∀ bytes new, f bytes = .ok new → new.length = bytes.length
  | truncate _ => True

end Edit

def Run.edits : List (Nat × Edit) → Run Unit
  | [] => pure ()
  | e :: es => do
    Run.update e.1 e.2.apply
    Run.edits es

theorem Run.ofResultBind {α β : Type} (r : Result α) (f : α → Result β) :
    ofResult (r >>= f) = ofResult r >>= fun x => ofResult (f x) := by cases r <;> rfl

theorem Run.ofResultPure {α : Type} (x : α) : ofResult (pure x) = pure x := rfl

namespace Bytes
variable {bytes new : Bytes}

theorem patchLength {start : Nat} {piece : Bytes} (patched : bytes.patch? start piece = some new) :
    new.length = bytes.length := by
  unfold patch? at patched
  split at patched
  · cases patched
    simp only [List.length_append, List.length_take, List.length_drop]
    omega
  · cases patched

theorem spansLength {itemSize : Nat} {f : Span → Bytes → Result Bytes} {spans : List Span}
    (ok : bytes.overwriteSpans itemSize f spans = .ok new) : new.length = bytes.length := by
  induction spans generalizing bytes new with
  | nil => cases ok; rfl
  | cons s spans ih =>
    simp only [overwriteSpans, Result.bindOk, Result.orFaultOk, inPlaceOfOk] at ok
    obtain ⟨piece, found, _, _, own, ⟨length, same⟩, rest, behind, last⟩ := ok
    cases same
    cases last
    have inside : s.length * itemSize ≤ bytes.length := by
      unfold slice? at found
      split at found
      · omega
      · cases found
    rw [List.length_append, length, sliceLength found, ih behind, List.length_drop]
    omega

end Bytes

theorem Partition.overwriteLength {p : Partition} {itemSize : Nat} {f : Span → Bytes → Result Bytes} {bytes new : Bytes}
    (ok : p.overwrite itemSize f bytes = .ok new) : new.length = bytes.length := by
  obtain ⟨_, _, filled⟩ := Result.bindOk.mp ok
  exact Bytes.spansLength filled

theorem PadPlan.fillLength {p : PadPlan} {partition : Partition} {source bytes new : Bytes}
    (ok : p.fill partition source bytes = .ok new) : new.length = bytes.length := by
  unfold fill at ok
  split at ok
  · exact Partition.overwriteLength ok
  · cases ok
    simp only [List.length_append, List.length_take, List.length_drop]
    omega
  · exact Partition.overwriteLength ok

theorem PadRequest.fillLength [Widths] {r : PadRequest} {partition : Partition} {source bytes new : Bytes}
    (ok : r.fill partition source bytes = .ok new) : new.length = bytes.length := by
  simp only [fill, Result.bindOk] at ok
  obtain ⟨_, _, _, _, ok⟩ := ok
  exact Partition.overwriteLength ok

namespace BroadcastPlan
variable {p : BroadcastPlan} {partition : Partition} {source bytes new : Bytes}

theorem fillBlocksLength (ok : p.fillBlocks partition source bytes = .ok new) : new.length = bytes.length := by
  unfold fillBlocks at ok
  dsimp only at ok
  split at ok
  · cases ok; rfl
  · exact Partition.overwriteLength ok

theorem fillElementsLength (ok : p.fillElements partition source bytes = .ok new) : new.length = bytes.length := by
  simp only [fillElements, Result.bindOk] at ok
  obtain ⟨_, _, _, _, ok⟩ := ok
  exact Partition.overwriteLength ok

end BroadcastPlan

namespace ReorderPlan
variable {p : ReorderPlan} {partition : Partition} {source bytes new : Bytes}

theorem fillLength [Widths] (ok : p.fill partition source bytes = .ok new) : new.length = bytes.length := by
  unfold fill at ok
  split at ok
  · exact Partition.overwriteLength ok
  split at ok
  · exact Partition.overwriteLength ok
  · simp only [Result.bindOk] at ok
    obtain ⟨_, _, _, _, ok⟩ := ok
    exact Partition.overwriteLength ok

theorem scatterLength [Widths] {s t : Layout} {count : Nat} {coords : List Nat}
    (ok : p.scatter s t source count coords bytes = .ok new) : new.length = bytes.length := by
  induction count generalizing coords bytes with
  | zero => cases ok; rfl
  | succ count ih =>
    simp only [scatter, Result.bindOk, Result.orFaultOk] at ok
    obtain ⟨_, _, _, _, _, _, _, _, _, patched, ok⟩ := ok
    rw [ih ok, Bytes.patchLength patched]

theorem fillElementsLength [Widths] (ok : p.fillElements source bytes = .ok new) : new.length = bytes.length := by
  simp only [fillElements, Result.bindOk] at ok
  obtain ⟨_, _, _, _, ok⟩ := ok
  rw [scatterLength ok, Bytes.zeros, List.length_replicate]

end ReorderPlan

theorem NmsPlan.writeAllLength {size : Nat} {entries : List (Nat × Bytes)} {bytes new : Bytes}
    (ok : writeAll size entries bytes = .ok new) : new.length = bytes.length := by
  induction entries generalizing bytes with
  | nil => cases ok; rfl
  | cons e entries ih =>
    simp only [writeAll, Result.bindOk, Result.orFaultOk] at ok
    obtain ⟨_, patched, ok⟩ := ok
    rw [ih ok, Bytes.patchLength patched]

namespace GatherTreePlan
variable {p : GatherTreePlan} {bytes new : Bytes}

theorem writeColumnLength [Widths] {batch beam step : Nat} {column : List Double}
    (ok : p.writeColumn batch beam step column bytes = .ok new) : new.length = bytes.length := by
  induction column generalizing step bytes with
  | nil => cases ok; rfl
  | cons v column ih =>
    simp only [writeColumn, Result.bindOk, Result.orFaultOk] at ok
    obtain ⟨_, patched, ok⟩ := ok
    rw [ih ok, Bytes.patchLength patched]

theorem writeColumnsLength [Widths] {item : Nat} {columns : List (List Double)}
    (ok : p.writeColumns item columns bytes = .ok new) : new.length = bytes.length := by
  induction columns generalizing item bytes with
  | nil => cases ok; rfl
  | cons c columns ih =>
    simp only [writeColumns, Result.bindOk] at ok
    obtain ⟨_, written, ok⟩ := ok
    rw [ih ok, writeColumnLength written]

end GatherTreePlan

def NmsPlan.edits [Widths] (p : NmsPlan) (kept : List (List Selected)) : List (Nat × Edit) :=
  let batches := p.perBatch kept
  let counts := batches.map List.length
  let (rows, last) := p.rows 0 (stretches counts (p.ordered batches))
  let size := p.attributes.indexType.size
  let indices := rows.map fun r => (r.1, p.indexBytes (p.rowIndex r.2))
  let written := (List.range counts.length).zip (counts.map fun n => p.indexBytes (n : Nat))
  [(0, .overwrite (writeAll 24 (rows.map fun r => (r.1, rowBytes r.2)))), (1, .overwrite (writeAll size indices)),
    (2, .overwrite (writeAll size written))] ++
    if p.attributes.dynamicOutput then [(0, .truncate last), (1, .truncate last)] else []

theorem NmsPlan.editsLength [Widths] (p : NmsPlan) (kept : List (List Selected)) : ∀ e ∈ p.edits kept, e.2.KeepsLength := by
  intro e member
  simp only [edits, List.mem_append, List.mem_cons, List.not_mem_nil, or_false] at member
  rcases member with (rfl | rfl | rfl) | member
  · exact fun _ _ ok => writeAllLength ok
  · exact fun _ _ ok => writeAllLength ok
  · exact fun _ _ ok => writeAllLength ok
  · split at member
    · simp only [List.mem_cons, List.not_mem_nil, or_false] at member
      rcases member with rfl | rfl <;> trivial
    · cases member

def Edit.transform (f : Bytes → Bytes → Result Bytes) (inputs : List Tensor) : Result (List (Nat × Edit)) := do
  let source ← Result.orFault inputs[0]?
  return [(0, overwrite (f source.data))]

theorem Edit.transformLength {f : Bytes → Bytes → Result Bytes} {inputs : List Tensor} {es : List (Nat × Edit)}
    (made : transform f inputs = .ok es) (keeps : ∀ source, (overwrite (f source)).KeepsLength) :
    ∀ e ∈ es, e.2.KeepsLength := by
  obtain ⟨source, _, same⟩ := Result.bindOk.mp made
  cases same
  simpa using keeps source.data

theorem Run.editsOne (output : Nat) (e : Edit) : edits [(output, e)] = update output e.apply := bind_pure _

theorem Run.transformEdits (f : Bytes → Bytes → Result Bytes) (inputs : List Tensor) :
    (input inputs 0 >>= fun source => overwrite 0 (f source.data)) = ofResult (Edit.transform f inputs) >>= edits := by
  simp only [Edit.transform, ofResultBind, bind_assoc, ofResultPure, pure_bind, editsOne]
  rfl

theorem NmsPlan.writeEdits [Widths] (p : NmsPlan) (kept : List (List Selected)) : p.write kept = Run.edits (p.edits kept) := by
  unfold write edits
  dsimp only
  split
  · simp only [List.cons_append, List.nil_append, Run.edits, bind_pure_unit]
    rfl
  · simp only [List.append_nil, Run.edits, bind_pure_unit]
    rfl

namespace BuiltinKernel

def edits [Widths] (k : BuiltinKernel) (s : Schedule) (plan : ExecutionPlan) (inputs : List Tensor) : Result (List (Nat × Edit)) :=
  match k, plan.body with
  | padRows, .pad p => Edit.transform (p.fill plan.partition) inputs
  | padElements, .padElements r => Edit.transform (r.fill plan.partition) inputs
  | broadcastBlocks, .broadcast p => Edit.transform (p.fillBlocks plan.partition) inputs
  | broadcastElements, .broadcast p => Edit.transform (p.fillElements plan.partition) inputs
  | reorderSpans, .reorder p => Edit.transform (p.fill plan.partition) inputs
  | reorderElements, .reorder p => Edit.transform p.fillElements inputs
  | matrixNms, .matrixNms p => do
    let boxes ← NmsPlan.view "boxes" (← Result.orFault inputs[0]?)
    let scores ← NmsPlan.view "scores" (← Result.orFault inputs[1]?)
    let kept ← Result.forEach (p.item boxes scores) plan.partition.items
    return p.edits kept
  | gatherTree, .gatherTree p => do
    let steps ← Result.orFault inputs[0]?
    let parents ← Result.orFault inputs[1]?
    let lengths ← Result.orFault inputs[2]?
    let endTokens ← Result.orFault inputs[3]?
    let endToken := (endTokens.doubles.head?).getD (Binary.zero .double false)
    let decoded : GatherTreeInputs := ⟨steps.doubles, parents.doubles, lengths.doubles, endToken⟩
    let columns ← plan.partition.forEach s (p.column decoded)
    return [(0, .overwrite (p.writeColumns 0 columns))]
  | padRows, body => .fail (.wrongPadPlan body.variant)
  | padElements, _ => .fail (.wrongPlan "Reference pad" "a reference")
  | broadcastBlocks, _ | broadcastElements, _ => .fail (.wrongPlan "Broadcast" "a broadcast")
  | reorderSpans, _ | reorderElements, _ => .fail (.wrongPlan "Reorder" "a reorder")
  | matrixNms, _ => .fail (.wrongPlan "MatrixNms" "an NMS")
  | gatherTree, _ => .fail (.wrongPlan "GatherTree" "a GatherTree")

theorem editsLength [Widths] {k : BuiltinKernel} {s : Schedule} {plan : ExecutionPlan} {inputs : List Tensor} {es : List (Nat × Edit)}
    (made : k.edits s plan inputs = .ok es) : ∀ e ∈ es, e.2.KeepsLength := by
  obtain ⟨takes, makes, validity, partition, body⟩ := plan
  cases k <;> cases body
  case padRows.pad p => exact Edit.transformLength (f := p.fill partition) made fun _ _ _ ok => p.fillLength ok
  case padElements.padElements r => exact Edit.transformLength (f := r.fill partition) made fun _ _ _ ok => r.fillLength ok
  case broadcastBlocks.broadcast p =>
    exact Edit.transformLength (f := p.fillBlocks partition) made fun _ _ _ ok => p.fillBlocksLength ok
  case broadcastElements.broadcast p =>
    exact Edit.transformLength (f := p.fillElements partition) made fun _ _ _ ok => p.fillElementsLength ok
  case reorderSpans.reorder p => exact Edit.transformLength (f := p.fill partition) made fun _ _ _ ok => p.fillLength ok
  case reorderElements.reorder p =>
    exact Edit.transformLength (f := p.fillElements) made fun _ _ _ ok => p.fillElementsLength ok
  case matrixNms.matrixNms p =>
    simp only [edits, Result.bindOk] at made
    obtain ⟨_, _, _, _, _, _, _, _, kept, _, same⟩ := made
    cases same
    exact p.editsLength kept
  case gatherTree.gatherTree p =>
    simp only [edits, Result.bindOk] at made
    obtain ⟨_, _, _, _, _, _, _, _, columns, _, same⟩ := made
    cases same
    intro e member
    cases List.mem_singleton.mp member
    exact fun _ _ ok => GatherTreePlan.writeColumnsLength ok
  all_goals cases made

theorem executeEdits [Widths] (k : BuiltinKernel) (s : Schedule) (plan : ExecutionPlan) (inputs : List Tensor) :
    k.execute s plan inputs =
      Run.check plan inputs >>= fun _ => Run.ofResult (k.edits s plan inputs) >>= Run.edits := by
  obtain ⟨takes, makes, validity, partition, body⟩ := plan
  cases k <;> refine congrArg (Run.check _ inputs >>= ·) (funext fun _ => ?_) <;> cases body
  case padRows.pad p => exact Run.transformEdits (p.fill partition) inputs
  case padElements.padElements r => exact Run.transformEdits (r.fill partition) inputs
  case broadcastBlocks.broadcast p => exact Run.transformEdits (p.fillBlocks partition) inputs
  case broadcastElements.broadcast p => exact Run.transformEdits (p.fillElements partition) inputs
  case reorderSpans.reorder p => exact Run.transformEdits (p.fill partition) inputs
  case reorderElements.reorder p => exact Run.transformEdits p.fillElements inputs
  case matrixNms.matrixNms p =>
    simp only [edits, Run.ofResultBind, bind_assoc, Run.ofResultPure, pure_bind, ← p.writeEdits]
    rfl
  case gatherTree.gatherTree p =>
    simp only [edits, Run.ofResultBind, bind_assoc, Run.ofResultPure, pure_bind, Run.editsOne]
    rfl
  all_goals rfl

end BuiltinKernel
end TensorPlan
