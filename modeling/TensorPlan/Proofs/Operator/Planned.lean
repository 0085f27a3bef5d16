import TensorPlan.Proofs.Broadcast.Agreement
import TensorPlan.Proofs.GatherTree.Execution
import TensorPlan.Proofs.Nms.Execution
import TensorPlan.Proofs.Operator.Monotone
import TensorPlan.Proofs.Pad.Requests
import TensorPlan.Proofs.Reorder.Agreement
/-! Planned outputs. For tensors whose dimensions refine the shapes that inference was given, the dimensions that plans
give their outputs refine the shapes that it found. -/
namespace TensorPlan

theorem collectLength {α β : Type} {f : α → Option β} {xs : List α} {ys : List β} (ok : collect f xs = some ys) :
    ys.length = xs.length := by
  induction xs generalizing ys with
  | nil => cases ok; rfl
  | cons x xs ih =>
    simp only [collect, Option.bind_eq_bind, Option.bind_eq_some_iff] at ok
    obtain ⟨_, _, rest, others, last⟩ := ok
    cases last
    rw [List.length_cons, List.length_cons, ih others]

theorem Tensor.integersLength {t : Tensor} {values : List Int} {n : Nat} (ok : t.integers = .ok values)
    (dims : t.dims = [n]) : values.length = n := by
  obtain ⟨l, layout, _⟩ := t.layoutFits
  obtain ⟨format, same⟩ := Descriptor.layoutOk layout
  have plain : t.descriptor.format = .plain := by
    have supported := l.supported
    rw [format, same, show t.descriptor.dims = [n] from dims] at supported
    simpa [MemoryFormat.supportsRank] using supported
  have found := Result.ofOptionOk.mp ok
  unfold integers? at found
  split at found
  · cases found
  · rw [collectLength found, t.elementsLength plain, show t.count = volume t.dims from rfl, dims, volumeCons, volumeNil,
      Nat.mul_one]

theorem Shape.knownLine {s : Shape} {dims : List Nat} {n : Nat} (refines : (ofDims dims).Refines s)
    (rank : s.hasRank 1 = true) (length : s.dim? 0 = some (.known n)) : dims = [n] := by
  cases refines with
  | unranked => cases length
  | @ranked _ ds each =>
    have line : ds.length = 1 := by simpa [hasRank, rank?, dims?] using rank
    obtain ⟨d, rfl⟩ := List.length_eq_one_iff.mp line
    cases length
    simp only [List.forall₂_cons_right_iff, List.forall₂_nil_right_iff, List.map_eq_cons_iff] at each
    obtain ⟨_, _, own, rfl, _, _, rfl, rfl, none⟩ := each
    cases own
    rw [List.map_eq_nil_iff.mp none]

theorem Shape.refinesOfRank {dims : List Nat} {n : Nat} (length : dims.length = n) : (ofDims dims).Refines (ofRank n) := by
  have unknown := refineUnknown (dims.map .known)
  rw [List.length_map, length] at unknown
  exact .ranked unknown

theorem BroadcastPlan.targetResolved {a : BroadcastAttributes} {inputs : List Tensor} {p : BroadcastPlan}
    (ok : ofInputs a inputs = .ok p) : resolveTarget a inputs = .ok p.target.dims := by
  simp only [ofInputs, Result.bindOk] at ok
  obtain ⟨_, _, _, resolved, _, _, _, _, last⟩ := ok
  cases last
  exact resolved

namespace PadAttributes

theorem lengthenedWord {n : Nat} {b e length : Int} (made : lengthened n b e = .ok length) (front : 0 ≤ b) (behind : 0 ≤ e)
    (fits : 0 ≤ length) (word : n + b.toNat + e.toNat < pow2 64) : length.toNat = n + b.toNat + e.toNat := by
  simp only [lengthened, Result.bindOk, Machine.signedOk] at made
  obtain ⟨_, ⟨_, rfl⟩, _, rfl⟩ := made
  rw [show pow2 64 = 18446744073709551616 from rfl] at word
  rw [signedLength, show pow2 64 = 18446744073709551616 from rfl, Int.bmod_def] at fits ⊢
  split at fits <;> omega

theorem paddedRefines {data : Shape} {ds out : List Dimension} {dims : List Nat} {axis : Nat} {before after : List Int}
    (finer : List.Forall₂ Dimension.Refines (dims.map .known) ds) (front : before.length = dims.length)
    (behind : after.length = dims.length) (natural : ∀ v ∈ before ++ after, 0 ≤ v)
    (words : ∀ n ∈ PadRequest.padded dims (before.map Int.toNat) (after.map Int.toNat), n < pow2 64)
    (ok : paddedDims data axis ds before after = .ok out) : List.Forall₂ Dimension.Refines
      ((PadRequest.padded dims (before.map Int.toNat) (after.map Int.toNat)).map .known) out := by
  induction dims generalizing ds axis before after out with
  | nil =>
    cases finer
    cases ok
    exact .nil
  | cons d dims ih =>
    match before, after, ds, finer, front, behind with
    | b :: bs, e :: es, _ :: ds, .cons own finer, front, behind =>
      obtain ⟨p, rest, first, others, rfl⟩ := paddedDimsOk.mp ok
      refine .cons ?_ (ih finer (by simpa using front) (by simpa using behind) ?_ ?_ others)
      · cases first with
        | unknown => exact .unknown _
        | known n made fits =>
          cases own
          rw [lengthenedWord made (natural b (by simp)) (natural e (by simp)) fits (words _ List.mem_cons_self)]
          exact .known _
      · intro v member
        refine natural v ?_
        simp only [List.cons_append, List.mem_cons, List.mem_append] at member ⊢
        tauto
      · exact fun n member => words n (List.mem_cons_of_mem _ member)

end PadAttributes

theorem NmsAttributes.rowsKept (p : NmsPlan) : (Dimension.known (p.batches * p.maxPerBatch)).Refines
    (p.attributes.rows (.known p.batches) (.known p.boxes) (.known p.classes)) := by
  unfold rows
  cases p.attributes.dynamicOutput with
  | false => exact .known _
  | true => exact .unknown _

section
variable {inputs : List Tensor} {shapes outputs : List Shape}
  (finer : List.Forall₂ Shape.Refines (inputs.map Tensor.shape) shapes)
include finer

theorem tensorAt {i : Nat} {s : Shape} (there : shapes[i]? = some s) : ∃ t, inputs[i]? = some t ∧ t.shape.Refines s := by
  obtain ⟨_, found, own⟩ := pairAt finer there
  rw [List.getElem?_map] at found
  obtain ⟨t, first, rfl⟩ := Option.map_eq_some_iff.mp found
  exact ⟨t, first, own⟩

theorem lineAt {i n : Nat} {s : Shape} (there : shapes[i]? = some s) (rank : s.hasRank 1 = true)
    (length : s.dim? 0 = some (.known n)) {t : Tensor} (found : inputs[i]? = some t) {values : List Int}
    (ok : t.integers = .ok values) : values.length = n := by
  obtain ⟨_, same, own⟩ := tensorAt finer there
  cases found.symm.trans same
  exact Tensor.integersLength ok (Shape.knownLine own rank length)

theorem GatherTree.plannedRefines {p : GatherTreePlan} (inferred : GatherTree.shapes shapes = .ok outputs)
    (made : GatherTreePlan.ofInputs inputs = .ok p) :
    List.Forall₂ Shape.Refines [Shape.ofDims [p.steps, p.batches, p.beams]] outputs := by
  obtain ⟨_, _, _, _, ids, output, rfl, merged, _, _, batches, _, rfl⟩ := GatherTree.shapesOk.mp inferred
  obtain ⟨steps, parents, lengths, endToken, rfl, _, stepsDims, parentsDims, lengthsDims, _, _⟩ :=
    GatherTreePlan.ofInputsOk.mp made
  simp only [List.map_cons, List.forall₂_cons, Tensor.shape, Descriptor.shape] at finer
  obtain ⟨ownSteps, ownParents, ownLengths, _⟩ := finer
  rw [show parents.descriptor.dims = steps.descriptor.dims from parentsDims] at ownParents
  rw [show steps.descriptor.dims = _ from stepsDims] at ownSteps ownParents
  rw [show lengths.descriptor.dims = _ from lengthsDims] at ownLengths
  obtain ⟨m, merged', own⟩ := Shape.mergeCommon ownSteps ownParents
  cases merged.symm.trans merged'
  have static : mergeBatches (.ofDims [p.steps, p.batches, p.beams]) (.ofDims [p.batches]) =
      .ok (.ofDims [p.steps, p.batches, p.beams]) := by
    simp [mergeBatches, Shape.ofDims, Shape.dims?, Shape.dim, Shape.dim?, Shape.setDim, Check.merge, Shape.merge, collect,
      Dimension.merge]
  obtain ⟨_, batches', refines⟩ := mergeBatchesFiner own ownLengths static
  cases batches.symm.trans batches'
  exact .cons refines .nil

theorem PadAttributes.plannedRefines [Widths] {a : PadAttributes} {r : PadRequest} (inferred : a.shapes shapes = .ok outputs)
    (made : PadRequest.ofInputs a inputs = .ok r) (alike : a.before.isSome = a.after.isSome) :
    List.Forall₂ Shape.Refines [Shape.ofDims r.target.dims] outputs := by
  obtain ⟨_, _, data, first, front, _, _, output, found, rfl⟩ := shapesOk.mp inferred
  obtain ⟨source, given, described, _, before, after, _, target, words⟩ := PadRequest.ofInputsParts made
  obtain ⟨_, same, own⟩ := tensorAt finer first
  cases given.symm.trans same
  have rank : r.target.dims.length = r.source.rank := by
    rw [target]
    exact PadRequest.paddedLength (PadRequest.resolvedLength before) (PadRequest.resolvedLength after)
  rw [Tensor.shape, described] at own
  refine .cons ?_ .nil
  cases found with
  | known hbefore hafter _ ranked padded =>
    rw [hbefore] at before
    rw [hafter] at after
    obtain ⟨front, naturalFront, sameFront⟩ := PadRequest.widthsOk before
    obtain ⟨behind, naturalBehind, sameBehind⟩ := PadRequest.widthsOk after
    have kept : r.source.shape.withRank? _ = some r.source.shape := if_pos (List.length_map _ |>.trans front.symm)
    obtain ⟨_, ranked', finer⟩ := own.withRank kept
    cases ranked.symm.trans ranked'
    rw [target, sameFront, sameBehind] at words ⊢
    refine .ranked (paddedRefines finer front behind ?_ words padded)
    exact fun v member => (List.mem_append.mp member).elim (naturalFront v) (naturalBehind v)
  | runtime missing =>
    have absent : a.before = none := by
      cases given : a.before with
      | none => rfl
      | some _ => simp_all
    rw [absent] at before
    simp only [PadRequest.resolveWidths, PadRequest.runtimeInput, Result.bindOk, Result.ofOptionOk] at before
    obtain ⟨t, given, values, ok, widths⟩ := before
    obtain ⟨length, _⟩ := PadRequest.widthsOk widths
    unfold runtimeShape
    split
    · rename_i n known
      refine Shape.refinesOfRank (rank.trans ?_)
      obtain known | ⟨_, known⟩ := Option.or_eq_some_iff.mp known
      · simpa [Descriptor.rank, Descriptor.shape, Shape.ofDims, Shape.rank?, Shape.dims?] using own.rank known
      · obtain ⟨d, there, known⟩ := Option.bind_eq_some_iff.mp known
        obtain ⟨s, found, there⟩ := Option.bind_eq_some_iff.mp there
        cases Dimension.lengthKnown.mp known
        exact length.symm.trans (lineAt finer found (checkWidthsOk.mp front s found).1 there given ok)
    · exact .unranked _

theorem BroadcastAttributes.plannedRefines {a : BroadcastAttributes} {p : BroadcastPlan}
    (inferred : a.shapes shapes = .ok outputs) (made : BroadcastPlan.ofInputs a inputs = .ok p) :
    List.Forall₂ Shape.Refines [Shape.ofDims p.target.dims] outputs := by
  obtain ⟨_, _, rank, data, first, output, found, rfl⟩ := shapesOk.mp inferred
  have resolved := BroadcastPlan.targetResolved made
  unfold BroadcastPlan.resolveTarget at resolved
  refine .cons ?_ .nil
  cases found with
  | known given _ =>
    rw [given] at resolved
    cases resolved
    exact Shape.refinesSelf _
  | ranked missing length =>
    simp only [missing, Result.bindOk, Result.ofOptionOk] at resolved
    obtain ⟨t, found, values, ok, _, _, last⟩ := resolved
    obtain ⟨s, there, known⟩ := Option.bind_eq_some_iff.mp length
    refine Shape.refinesOfRank ?_
    rw [← Except.ok.inj last, List.length_map, lineAt finer there (rank s there) known found ok]
  | unranked missing unknown => exact .unranked _

theorem ReorderAttributes.plannedRefines [Widths] {a : ReorderAttributes} {p : ReorderPlan} {constant : Bool}
    (inferred : a.shapes shapes = .ok outputs) (made : ReorderPlan.ofInputs a inputs = .ok (p, constant)) :
    List.Forall₂ Shape.Refines [Shape.ofDims p.target.dims] outputs := by
  obtain ⟨_, _, data, first, _, _, rfl⟩ := shapesOk.mp inferred
  obtain ⟨t, found, own⟩ := tensorAt finer first
  obtain ⟨sound, source, found', described⟩ := ReorderPlan.ofInputsSound made
  cases found.symm.trans found'
  rw [sound.dims, ← described]
  exact .cons own .nil

theorem NmsAttributes.plannedRefines {a : NmsAttributes} {p : NmsPlan} (inferred : a.shapes shapes = .ok outputs)
    (made : NmsPlan.ofInputs a inputs = .ok p) : List.Forall₂ Shape.Refines (p.outputs.map Descriptor.shape) outputs := by
  obtain ⟨_, _, batches, counts, rfl, _, _, merged, merged', _, rfl⟩ := shapesOk.mp inferred
  obtain ⟨boxes, scores, rest, rfl, rfl, boxesDims, scoresDims⟩ := NmsPlan.ofInputsOk.mp made
  simp only [List.map_cons, List.forall₂_cons, Tensor.shape, Descriptor.shape] at finer
  obtain ⟨ownBoxes, ownScores, _⟩ := finer
  rw [show boxes.descriptor.dims = _ from boxesDims.dims] at ownBoxes
  rw [show scores.descriptor.dims = _ from scoresDims.dims] at ownScores
  have single {n : Nat} {d : Dimension} (own : (Dimension.known n).Refines d) :
      Shape.Refines (.ofDims [n]) (.ranked [d]) := .ranked (.cons own .nil)
  obtain ⟨_, same, batchesOwn⟩ := Shape.mergeCommon (single (ownBoxes.dim 0)) (single (ownScores.dim 0))
  cases merged.symm.trans same
  obtain ⟨_, same, countsOwn⟩ := Shape.mergeCommon (single (ownBoxes.dim 1)) (single (ownScores.dim 2))
  cases merged'.symm.trans same
  have rows := (rowsKept p).trans (rowsFiner p.attributes (batchesOwn.dim 0) (countsOwn.dim 0) (ownScores.dim 1))
  exact .cons (.ranked (.cons rows (.cons (.known 6) .nil))) (.cons (.ranked (.cons rows (.cons (.known 1) .nil)))
    (.cons (single (batchesOwn.dim 0)) .nil))

end

end TensorPlan
