import TensorPlan.Proofs.Operator.Inferred
import TensorPlan.Proofs.Shape.Refinement
/-! Monotone inference. Where inference accepts shapes, it also accepts shapes that know less, and what it finds of
them knows less too. -/
namespace TensorPlan

namespace GatherTree
variable {ids lengths ids' lengths' : Shape}

theorem mergeBatchesFiner (own : ids'.Refines ids) (other : lengths'.Refines lengths) {output' : Shape}
    (ok : mergeBatches ids' lengths' = .ok output') :
    ∃ output, mergeBatches ids lengths = .ok output ∧ output'.Refines output := by
  cases own with
  | unranked => exact ⟨.unranked, rfl, .unranked _⟩
  | @ranked _ es each =>
    cases lengths' with
    | unranked =>
      cases other
      cases ok
      exact ⟨.ranked es, rfl, .ranked each⟩
    | ranked ls =>
      obtain ⟨batches', merged, last⟩ := Result.bindOk.mp ok
      cases last
      obtain ⟨first, second⟩ := Shape.mergeRefines (Check.mergeOk.mp merged)
      have finer := (Shape.Refines.ranked each).dim 1
      have batch := (first.dim 0).trans finer
      cases other with
      | unranked => exact ⟨.ranked es, rfl, (Shape.Refines.ranked each).setOwn batch⟩
      | ranked lengths =>
        obtain ⟨batches, merged, common⟩ :=
          Shape.mergeCommon (first.trans (.ranked (.cons finer .nil))) (second.trans (.ranked lengths))
        exact ⟨_, Result.bindOk.mpr ⟨batches, Check.mergeOk.mpr merged, rfl⟩,
          (Shape.Refines.ranked each).setDim (common.dim 0)⟩

end GatherTree

namespace PadAttributes
variable {data data' : Shape}

theorem paddedDimsFiner {ds ds' : List Dimension} (each : List.Forall₂ Dimension.Refines ds' ds) {axis : Nat}
    {before after : List Int} {padded' : List Dimension} (ok : paddedDims data' axis ds' before after = .ok padded') :
    ∃ padded, paddedDims data axis ds before after = .ok padded ∧ List.Forall₂ Dimension.Refines padded' padded := by
  induction each generalizing axis before after padded' with
  | nil => cases ok; exact ⟨[], rfl, .nil⟩
  | cons own _ ih =>
    match before, after with
    | b :: bs, e :: es =>
      obtain ⟨p', rest', first, others, rfl⟩ := paddedDimsOk.mp ok
      obtain ⟨rest, found, finer⟩ := ih others
      cases own with
      | unknown =>
        exact ⟨.unknown :: rest, paddedDimsOk.mpr ⟨_, rest, .unknown, found, rfl⟩, .cons (.unknown p') finer⟩
      | known n => exact ⟨p' :: rest, paddedDimsOk.mpr ⟨p', rest, first, found, rfl⟩, .cons p'.refinesSelf finer⟩
    | [], _ => cases ok; exact ⟨[], rfl, .nil⟩
    | _ :: _, [] => cases ok; exact ⟨[], rfl, .nil⟩

theorem checkWidthsFiner {what : String} {widths widths' : Option Shape} (finer : data'.Refines data)
    (same : Option.Rel Shape.Refines widths' widths) (checked : checkWidths data' what widths' = .ok ()) :
    checkWidths data what widths = .ok () := by
  cases same with
  | none => rfl
  | @some s' s own =>
    obtain ⟨hasRank, length⟩ := checkWidthsOk.mp checked s' rfl
    refine checkWidthsOk.mpr fun s same => ?_
    cases same
    exact ⟨own.hasRank hasRank, fun rank n ranked known => length rank n (finer.rank ranked) (own.knownDim known)⟩

theorem runtimeFiner {widths widths' : Option Shape} (finer : data'.Refines data)
    (same : Option.Rel Shape.Refines widths' widths) (checked : checkWidths data' "pads_begin" widths' = .ok ()) :
    (runtimeShape data' widths').Refines (runtimeShape data widths) := by
  unfold runtimeShape
  cases known : data.rank?.or ((widths.bind (Shape.dim? · 0)).bind Dimension.length?) with
  | none => exact .unranked _
  | some n =>
    have known' : data'.rank?.or ((widths'.bind (Shape.dim? · 0)).bind Dimension.length?) = some n := by
      obtain ranked | ⟨_, length⟩ := Option.or_eq_some_iff.mp known
      · rw [finer.rank ranked]; rfl
      · cases same with
        | none => cases length
        | @some s' _ own =>
          obtain ⟨d, there, length⟩ := Option.bind_eq_some_iff.mp length
          cases Dimension.lengthKnown.mp length
          have there' := own.knownDim there
          cases ranked : data'.rank? with
          | none => rw [Option.none_or, Option.bind_some, there']; rfl
          | some rank =>
            cases (checkWidthsOk.mp checked s' rfl).2 rank n ranked there'
            rfl
    rw [known']
    exact Shape.refinesSelf _

end PadAttributes

namespace ReorderAttributes

theorem meanCountFiner {a : ReorderAttributes} {mean mean' : Option Shape} {count : Nat}
    (same : Option.Rel Shape.Refines mean' mean) (counted : a.meanCount? mean = some count) :
    a.meanCount? mean' = some count := by
  cases same with
  | none => exact counted
  | some own =>
    unfold meanCount? at counted ⊢
    split
    · rename_i ignored
      rw [if_pos ignored] at counted; cases counted
    · rename_i used
      rw [if_neg used] at counted
      obtain ⟨dims, static, _⟩ := Option.map_eq_some_iff.mp counted
      rw [← own.static static] at counted
      exact counted

end ReorderAttributes

namespace NmsAttributes

theorem rowsFiner (a : NmsAttributes) {b n c b' n' c' : Dimension} (batches : b'.Refines b) (boxes : n'.Refines n)
    (classes : c'.Refines c) : (a.rows b' n' c').Refines (a.rows b n c) := by
  refine Dimension.refinesOf fun r known => ?_
  obtain ⟨_, _, _, _, rfl, rfl, rfl, _⟩ := rowsKnown.mp known
  cases batches; cases boxes; cases classes
  exact known

end NmsAttributes

section
variable {inputs refined : List Shape} (finer : List.Forall₂ Shape.Refines refined inputs)
include finer

theorem GatherTree.shapesFiner {outputs : List Shape} (ok : shapes refined = .ok outputs) :
    ∃ coarser, shapes inputs = .ok coarser ∧ List.Forall₂ Shape.Refines outputs coarser := by
  obtain ⟨steps, parents, lengths, endToken, ids, output, rfl, merged, idsRank, lengthsRank, batches, tokenRank, rfl⟩ :=
    shapesOk.mp ok
  match inputs, finer with
  | _, .cons steps' (.cons parents' (.cons lengths' (.cons endToken' .nil))) =>
    obtain ⟨first, second⟩ := Shape.mergeRefines merged
    obtain ⟨ids', merged', common⟩ := Shape.mergeCommon (first.trans steps') (second.trans parents')
    obtain ⟨output', batches', own⟩ := mergeBatchesFiner common lengths' batches
    exact ⟨[output'], shapesOk.mpr ⟨_, _, _, _, ids', output', rfl, merged', common.hasRank idsRank,
      lengths'.hasRank lengthsRank, batches', endToken'.hasRank tokenRank, rfl⟩, .cons own .nil⟩

theorem PadAttributes.shapesFiner (a : PadAttributes) {outputs : List Shape} (ok : a.shapes refined = .ok outputs) :
    ∃ coarser, a.shapes inputs = .ok coarser ∧ List.Forall₂ Shape.Refines outputs coarser := by
  obtain ⟨least, greatest, data', first, front, behind, value, output', found, rfl⟩ := shapesOk.mp ok
  rw [finer.length_eq] at least greatest
  obtain ⟨data, first, own⟩ := pairAt finer.flip first
  have accepted {output : Shape} (found : a.Finds data inputs[1]? output) : a.shapes inputs = .ok [output] := by
    refine shapesOk.mpr ⟨least, greatest, data, first, checkWidthsFiner own (relatedAt finer _) front,
      checkWidthsFiner own (relatedAt finer _) behind, fun s there => ?_, output, found, rfl⟩
    obtain ⟨s', there', own⟩ := pairAt finer there
    exact own.hasRank (value s' there')
  cases found with
  | known before after alike rank padded =>
    obtain ⟨ranked, rank, each⟩ := own.withRank rank
    obtain ⟨dims, padded, finer⟩ := paddedDimsFiner each padded
    exact ⟨_, accepted (.known before after alike rank padded), .cons (.ranked finer) .nil⟩
  | runtime missing =>
    exact ⟨_, accepted (.runtime missing), .cons (runtimeFiner own (relatedAt finer _) front) .nil⟩

theorem BroadcastAttributes.shapesFiner (a : BroadcastAttributes) {outputs : List Shape}
    (ok : a.shapes refined = .ok outputs) :
    ∃ coarser, a.shapes inputs = .ok coarser ∧ List.Forall₂ Shape.Refines outputs coarser := by
  obtain ⟨least, greatest, target, data', first, output', found, rfl⟩ := shapesOk.mp ok
  rw [finer.length_eq] at least greatest
  obtain ⟨data, first, own⟩ := pairAt finer.flip first
  have accepted {output : Shape} (found : a.Finds data inputs[1]? output) : a.shapes inputs = .ok [output] := by
    refine shapesOk.mpr ⟨least, greatest, fun s there => ?_, data, first, output, found, rfl⟩
    obtain ⟨s', there', own⟩ := pairAt finer there
    exact own.hasRank (target s' there')
  have lengthFiner {rank : Nat} (length : inputs[1]?.bind (Shape.dim? · 0) = some (.known rank)) :
      refined[1]?.bind (Shape.dim? · 0) = some (.known rank) := by
    obtain ⟨s, there, known⟩ := Option.bind_eq_some_iff.mp length
    obtain ⟨s', there', own⟩ := pairAt finer there
    rw [there', Option.bind_some, own.knownDim known]
  cases found with
  | known given aligned =>
    refine ⟨_, accepted (.known given fun lengths static => ?_), .cons (Shape.refinesSelf _) .nil⟩
    rw [← own.static static] at static
    exact aligned lengths static
  | ranked missing length =>
    by_cases unknown : ∀ rank, inputs[1]?.bind (Shape.dim? · 0) ≠ some (.known rank)
    · exact ⟨_, accepted (.unranked missing unknown), .cons (.unranked _) .nil⟩
    · obtain ⟨rank, length'⟩ := not_forall_not.mp unknown
      cases length.symm.trans (lengthFiner length')
      exact ⟨_, accepted (.ranked missing length'), .cons (Shape.refinesSelf _) .nil⟩
  | unranked missing unknown =>
    exact ⟨_, accepted (.unranked missing fun rank length => unknown rank (lengthFiner length)), .cons (.unranked _) .nil⟩

theorem ReorderAttributes.shapesFiner (a : ReorderAttributes) {outputs : List Shape}
    (ok : a.shapes refined = .ok outputs) :
    ∃ coarser, a.shapes inputs = .ok coarser ∧ List.Forall₂ Shape.Refines outputs coarser := by
  obtain ⟨least, greatest, data', first, holds, fits, rfl⟩ := shapesOk.mp ok
  rw [finer.length_eq] at least greatest
  obtain ⟨data, first, own⟩ := pairAt finer.flip first
  refine ⟨[data], shapesOk.mpr ⟨least, greatest, data, first, own.rankAll holds, fun count dims counted static => ?_, rfl⟩,
    .cons own .nil⟩
  rw [← own.static static] at static
  exact fits count dims (meanCountFiner (relatedAt finer _) counted) static

theorem NmsAttributes.shapesFiner (a : NmsAttributes) {outputs : List Shape} (ok : a.shapes refined = .ok outputs) :
    ∃ coarser, a.shapes inputs = .ok coarser ∧ List.Forall₂ Shape.Refines outputs coarser := by
  obtain ⟨boxes, scores, batches, counts, rfl, boxesRank, scoresRank, merged, merged', four, rfl⟩ := shapesOk.mp ok
  match inputs, finer with
  | _, .cons boxes' (.cons scores' .nil) =>
    have single {d e : Dimension} (own : d.Refines e) : Shape.Refines (.ranked [d]) (.ranked [e]) :=
      .ranked (.cons own .nil)
    obtain ⟨first, second⟩ := Shape.mergeRefines merged
    obtain ⟨m, batches, ownBatches⟩ :=
      Shape.mergeCommon (first.trans (single (boxes'.dim 0))) (second.trans (single (scores'.dim 0)))
    obtain ⟨first, second⟩ := Shape.mergeRefines merged'
    obtain ⟨m', counts, ownCounts⟩ :=
      Shape.mergeCommon (first.trans (single (boxes'.dim 1))) (second.trans (single (scores'.dim 2)))
    have rows := rowsFiner a (ownBatches.dim 0) (ownCounts.dim 0) (scores'.dim 1)
    refine ⟨_, shapesOk.mpr ⟨_, _, m, m', rfl, boxes'.hasRank boxesRank, scores'.hasRank scoresRank, batches, counts,
      fun width known => four width (boxes'.knownDim known), rfl⟩, ?_⟩
    exact .cons (.ranked (.cons rows (.cons (.known 6) .nil))) (.cons (.ranked (.cons rows (.cons (.known 1) .nil)))
      (.cons (single (ownBatches.dim 0)) .nil))

theorem Attributes.shapesMonotone (a : Attributes) {outputs : List Shape} (ok : a.shapes refined = .ok outputs) :
    ∃ coarser, a.shapes inputs = .ok coarser ∧ List.Forall₂ Shape.Refines outputs coarser := by
  cases a with
  | gatherTree => exact GatherTree.shapesFiner finer ok
  | pad a => exact a.shapesFiner finer ok
  | broadcast a => exact a.shapesFiner finer ok
  | reorder a => exact a.shapesFiner finer ok
  | matrixNms a => exact a.shapesFiner finer ok

end

theorem Attributes.shapesMonotoneOfBeams :
    let refined : List Shape :=
      [.ranked [.known 5, .unknown, .known 4], .ranked [.known 5, .unknown, .unknown], .ranked [.known 3], .scalar]
    let given : List Shape := [.ranked [.unknown, .unknown, .known 4], .unranked, .ranked [.known 3], .unranked]
    List.Forall₂ Shape.Refines refined given ∧
      gatherTree.shapes refined = .ok [.ranked [.known 5, .known 3, .known 4]] ∧
      ∃ coarser, gatherTree.shapes given = .ok coarser ∧
        List.Forall₂ Shape.Refines [.ranked [.known 5, .known 3, .known 4]] coarser := by
  intro refined given
  have finer : List.Forall₂ Shape.Refines refined given :=
    .cons (.ranked (.cons (.unknown _) (.cons (.unknown _) (.cons (.known 4) .nil))))
      (.cons (.unranked _) (.cons (Shape.refinesSelf _) (.cons (.unranked _) .nil)))
  exact ⟨finer, rfl, gatherTree.shapesMonotone finer rfl⟩

end TensorPlan
