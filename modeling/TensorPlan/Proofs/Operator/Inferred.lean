import TensorPlan.Operator.Inference
import TensorPlan.Proofs.Computation
/-! What shape inference accepts, and what it finds, for each operator: its checks without their errors. -/
namespace TensorPlan

namespace Check
variable {kind : OperatorKind} {what : String} {s t m : Shape} {u : Unit}

theorem inputCountOk {count least greatest : Nat} :
    inputCount kind count least greatest = .ok u ↔ least ≤ count ∧ count ≤ greatest := by
  rw [inputCount, Result.ensureOk, decide_eq_true_eq]

theorem rankOk {n : Nat} : rank kind what s n = .ok u ↔ s.hasRank n = true := Result.ensureOk

theorem mergeOk : merge kind what s t = .ok m ↔ s.merge t = some m := Result.ofOptionOk

end Check

namespace GatherTree

theorem shapesOk {inputs outputs : List Shape} : shapes inputs = .ok outputs ↔
    ∃ steps parents lengths endToken ids output, inputs = [steps, parents, lengths, endToken] ∧
      steps.merge parents = some ids ∧ ids.hasRank 3 = true ∧ lengths.hasRank 1 = true ∧
      mergeBatches ids lengths = .ok output ∧ endToken.hasRank 0 = true ∧ outputs = [output] := by
  unfold shapes
  constructor
  · intro ok
    obtain ⟨_, _, ok⟩ := Result.bindOk.mp ok
    split at ok
    · simp only [Result.bindOk, Check.mergeOk, Check.rankOk] at ok
      obtain ⟨ids, merged, _, idsRank, _, lengthsRank, output, batches, _, tokenRank, last⟩ := ok
      cases last
      exact ⟨_, _, _, _, ids, output, rfl, merged, idsRank, lengthsRank, batches, tokenRank, rfl⟩
    · cases ok
  · rintro ⟨steps, parents, lengths, endToken, ids, output, rfl, merged, idsRank, lengthsRank, batches, tokenRank, rfl⟩
    simp only [Result.bindOk, Check.mergeOk, Check.rankOk]
    exact ⟨(), Check.inputCountOk.mpr (by simp), ids, merged, (), idsRank, (), lengthsRank, output, batches, (),
      tokenRank, rfl⟩

end GatherTree

namespace PadAttributes
variable {a : PadAttributes}

theorem checkWidthsOk {data : Shape} {what : String} {widths : Option Shape} {u : Unit} :
    checkWidths data what widths = .ok u ↔ ∀ s, widths = some s → s.hasRank 1 = true ∧
      ∀ rank length, data.rank? = some rank → s.dim? 0 = some (.known length) → rank = length := by
  cases widths with
  | none => simp [checkWidths]
  | some s =>
    simp only [checkWidths, Result.bindOk, Check.rankOk, Option.some.injEq, forall_eq']
    constructor
    · rintro ⟨_, hasRank, ok⟩
      refine ⟨hasRank, fun rank length ranked known => ?_⟩
      rw [ranked, known] at ok
      exact beq_iff_eq.mp (Result.ensureOk.mp ok)
    · rintro ⟨hasRank, same⟩
      refine ⟨(), hasRank, ?_⟩
      split
      · rename_i rank length ranked known
        exact Result.ensureOk.mpr (beq_iff_eq.mpr (same rank length ranked known))
      · rfl

inductive Pads (before after : Int) : Dimension → Dimension → Prop where
  | unknown : Pads before after .unknown .unknown
  | known (n : Nat) {length : Int} (made : lengthened n before after = .ok length) (fits : 0 ≤ length) :
      Pads before after (.known n) (.known length.toNat)

theorem paddedDimOk {data : Shape} {axis : Nat} {b e : Int} {d p : Dimension} :
    paddedDim data axis b e d = .ok p ↔ Pads b e d p := by
  cases d with
  | unknown =>
    constructor
    · intro ok
      cases ok
      exact .unknown
    · rintro ⟨⟩
      rfl
  | known n =>
    simp only [paddedDim, Result.bindOk, Result.ensureOk, decide_eq_true_eq]
    constructor
    · rintro ⟨length, made, _, fits, last⟩
      cases last
      exact .known n made fits
    · rintro ⟨⟩
      rename_i length fits made
      exact ⟨length, made, (), fits, rfl⟩

theorem paddedDimsOk {data : Shape} {axis : Nat} {d : Dimension} {ds padded : List Dimension} {b e : Int}
    {bs es : List Int} : paddedDims data axis (d :: ds) (b :: bs) (e :: es) = .ok padded ↔
      ∃ p rest, Pads b e d p ∧ paddedDims data (axis + 1) ds bs es = .ok rest ∧ padded = p :: rest := by
  simp only [paddedDims, Result.bindOk, paddedDimOk]
  constructor
  · rintro ⟨p, own, rest, others, last⟩
    cases last
    exact ⟨p, rest, own, others, rfl⟩
  · rintro ⟨p, rest, own, others, rfl⟩
    exact ⟨p, own, rest, others, rfl⟩

inductive Finds (a : PadAttributes) (data : Shape) (widths : Option Shape) : Shape → Prop where
  | known {before after : List Int} {ranked : Shape} {dims : List Dimension} (front : a.before = some before)
      (behind : a.after = some after) (alike : before.length = after.length)
      (rank : data.withRank? before.length = some ranked)
      (padded : paddedDims ranked 0 (ranked.dims?.getD []) before after = .ok dims) : Finds a data widths (.ranked dims)
  | runtime (missing : a.before = none ∨ a.after = none) : Finds a data widths (runtimeShape data widths)

theorem findsOk {data : Shape} {widths : Option Shape} {outputs : List Shape} :
    (match a.before, a.after with
    | some before, some after => do
      Result.ensure (before.length == after.length) (.padsDiffer before after)
      let ranked ← Result.ofOption (.padEntries before.length data) (data.withRank? before.length)
      return [Shape.ranked (← paddedDims ranked 0 (ranked.dims?.getD []) before after)]
    | _, _ => return [runtimeShape data widths] : Result (List Shape)) = .ok outputs ↔
      ∃ output, a.Finds data widths output ∧ outputs = [output] := by
  constructor
  · intro ok
    split at ok
    · rename_i before after front behind
      simp only [Result.bindOk, Result.ensureOk, Result.ofOptionOk] at ok
      obtain ⟨_, alike, ranked, rank, dims, padded, last⟩ := ok
      cases last
      exact ⟨_, .known front behind (beq_iff_eq.mp alike) rank padded, rfl⟩
    · rename_i missing
      cases ok
      refine ⟨_, .runtime ?_, rfl⟩
      cases front : a.before with
      | none => exact .inl rfl
      | some before =>
        cases behind : a.after with
        | none => exact .inr rfl
        | some after => exact (missing before after front behind).elim
  · rintro ⟨output, found, rfl⟩
    cases found with
    | known front behind alike rank padded =>
      simp only [front, behind]
      simp only [Result.bindOk, Result.ensureOk, Result.ofOptionOk]
      exact ⟨(), beq_iff_eq.mpr alike, _, rank, _, padded, rfl⟩
    | runtime missing =>
      cases missing with
      | inl missing => simp [missing]
      | inr missing => cases a.before <;> simp [missing]

theorem shapesOk {inputs outputs : List Shape} : a.shapes inputs = .ok outputs ↔
    (if a.before.isNone || a.after.isNone then 3 else 1) ≤ inputs.length ∧ inputs.length ≤ 4 ∧
      ∃ data, inputs[0]? = some data ∧ checkWidths data "pads_begin" inputs[1]? = .ok () ∧
        checkWidths data "pads_end" inputs[2]? = .ok () ∧ (∀ s, inputs[3]? = some s → s.hasRank 0 = true) ∧
        ∃ output, a.Finds data inputs[1]? output ∧ outputs = [output] := by
  simp only [shapes, Result.bindOk, Check.inputCountOk, Result.orFaultOk]
  constructor
  · rintro ⟨_, ⟨least, greatest⟩, data, first, _, front, _, behind, ok⟩
    refine ⟨least, greatest, data, first, front, behind, ?_⟩
    split at ok
    · rename_i s there
      obtain ⟨_, rank, ok⟩ := Result.bindOk.mp ok
      refine ⟨fun s' same => ?_, findsOk.mp ok⟩
      cases there.symm.trans same
      exact Check.rankOk.mp rank
    · rename_i missing
      exact ⟨fun s there => (nomatch missing.symm.trans there), findsOk.mp ok⟩
  · rintro ⟨least, greatest, data, first, front, behind, value, output, found, rfl⟩
    refine ⟨(), ⟨least, greatest⟩, data, first, (), front, (), behind, ?_⟩
    have rest := findsOk.mpr ⟨output, found, rfl⟩
    split
    · rename_i s there
      exact Result.bindOk.mpr ⟨(), Check.rankOk.mpr (value s there), rest⟩
    · exact rest

end PadAttributes

namespace BroadcastAttributes
variable {a : BroadcastAttributes}

inductive Finds (a : BroadcastAttributes) (data : Shape) (target : Option Shape) : Shape → Prop where
  | known {dims : List Nat} (own : a.target = some dims) (aligned : ∀ lengths, data.toDims? = some lengths →
      ∃ alignment, Broadcast.normalize lengths dims a.axes = .ok alignment) : Finds a data target (.ofDims dims)
  | ranked {rank : Nat} (missing : a.target = none) (length : target.bind (Shape.dim? · 0) = some (.known rank)) :
      Finds a data target (.ofRank rank)
  | unranked (missing : a.target = none) (unknown : ∀ rank, target.bind (Shape.dim? · 0) ≠ some (.known rank)) :
      Finds a data target .unranked

theorem findsOk {inputs outputs : List Shape} :
    (do
      let data ← Result.orFault inputs[0]?
      match a.target with
      | some target =>
        match data.toDims? with
        | some dims => do discard (Broadcast.normalize dims target a.axes); return [Shape.ofDims target]
        | none => return [Shape.ofDims target]
      | none =>
        match inputs[1]?.bind (Shape.dim? · 0) with
        | some (.known rank) => return [Shape.ofRank rank]
        | _ => return [Shape.unranked] : Result (List Shape)) = .ok outputs ↔
      ∃ data, inputs[0]? = some data ∧ ∃ output, a.Finds data inputs[1]? output ∧ outputs = [output] := by
  simp only [Result.bindOk, Result.orFaultOk]
  refine exists_congr fun data => and_congr_right fun _ => ?_
  constructor
  · intro ok
    split at ok
    · rename_i target own
      refine ⟨_, .known own fun lengths static => ?_, ?_⟩
      · rw [static] at ok
        obtain ⟨_, aligned, _⟩ := Result.bindOk.mp ok
        obtain ⟨alignment, aligned, _⟩ := Result.mapOk.mp aligned
        exact ⟨alignment, aligned⟩
      · split at ok
        · obtain ⟨_, _, last⟩ := Result.bindOk.mp ok
          cases last; rfl
        · cases ok; rfl
    · rename_i missing
      split at ok
      · rename_i rank length
        cases ok
        exact ⟨_, .ranked missing length, rfl⟩
      · rename_i unknown
        cases ok
        exact ⟨_, .unranked missing unknown, rfl⟩
  · rintro ⟨output, found, rfl⟩
    cases found with
    | known own aligned =>
      simp only [own]
      cases static : data.toDims? with
      | none => rfl
      | some lengths =>
        obtain ⟨alignment, ok⟩ := aligned lengths static
        exact Result.bindOk.mpr ⟨(), Result.mapOk.mpr ⟨alignment, ok, rfl⟩, rfl⟩
    | ranked missing length => simp [missing, length]
    | unranked missing unknown => simp only [missing]; rfl

theorem shapesOk {inputs outputs : List Shape} : a.shapes inputs = .ok outputs ↔
    (if a.target.isSome then 1 else 2) ≤ inputs.length ∧ inputs.length ≤ 3 ∧
      (∀ s, inputs[1]? = some s → s.hasRank 1 = true) ∧ ∃ data, inputs[0]? = some data ∧
        ∃ output, a.Finds data inputs[1]? output ∧ outputs = [output] := by
  simp only [shapes, Result.bindOk, Check.inputCountOk]
  constructor
  · rintro ⟨_, ⟨least, greatest⟩, ok⟩
    refine ⟨least, greatest, ?_⟩
    split at ok
    · rename_i s there
      obtain ⟨_, rank, ok⟩ := Result.bindOk.mp ok
      refine ⟨fun s' same => ?_, findsOk.mp ok⟩
      cases there.symm.trans same
      exact Check.rankOk.mp rank
    · rename_i missing
      exact ⟨fun s there => (nomatch missing.symm.trans there), findsOk.mp ok⟩
  · rintro ⟨least, greatest, target, found⟩
    refine ⟨(), ⟨least, greatest⟩, ?_⟩
    have rest := findsOk.mpr found
    split
    · rename_i s there
      exact Result.bindOk.mpr ⟨(), Check.rankOk.mpr (target s there), rest⟩
    · exact rest

end BroadcastAttributes

namespace ReorderAttributes
variable {a : ReorderAttributes}

theorem shapesOk {inputs outputs : List Shape} : a.shapes inputs = .ok outputs ↔
    1 ≤ inputs.length ∧ inputs.length ≤ 2 ∧ ∃ data, inputs[0]? = some data ∧
      data.rank?.all a.format.supportsRank = true ∧ (∀ count dims, a.meanCount? inputs[1]? = some count →
        data.toDims? = some dims → fitsMean count dims = true) ∧ outputs = [data] := by
  simp only [shapes, Result.bindOk, Check.inputCountOk, Result.orFaultOk, Result.ensureOk]
  constructor
  · rintro ⟨_, ⟨least, greatest⟩, data, first, _, holds, ok⟩
    refine ⟨least, greatest, data, first, holds, ?_⟩
    split at ok
    · rename_i count dims counted static
      obtain ⟨_, fits, last⟩ := Result.bindOk.mp ok
      cases last
      refine ⟨fun count' dims' same same' => ?_, rfl⟩
      cases counted.symm.trans same
      cases static.symm.trans same'
      exact Result.ensureOk.mp fits
    · rename_i missing
      cases ok
      exact ⟨fun count dims counted static => (missing count dims counted static).elim, rfl⟩
  · rintro ⟨least, greatest, data, first, holds, fits, rfl⟩
    refine ⟨(), ⟨least, greatest⟩, data, first, (), holds, ?_⟩
    split
    · rename_i count dims counted static
      exact Result.bindOk.mpr ⟨(), Result.ensureOk.mpr (fits count dims counted static), rfl⟩
    · rfl

end ReorderAttributes

namespace NmsAttributes
variable {a : NmsAttributes}

theorem rowsKnown {batches boxes classes : Dimension} {n : Nat} : a.rows batches boxes classes = .known n ↔
    a.dynamicOutput = false ∧ ∃ b m c, batches = .known b ∧ boxes = .known m ∧ classes = .known c ∧
      n = b * a.maxPerBatch m c := by
  constructor
  · intro known
    unfold rows at known
    split at known
    · rename_i b m c fixed
      cases known
      exact ⟨fixed, b, m, c, rfl, rfl, rfl, rfl⟩
    · cases known
  · rintro ⟨fixed, b, m, c, rfl, rfl, rfl, rfl⟩
    simp only [rows, fixed]

theorem shapesOk {inputs outputs : List Shape} : a.shapes inputs = .ok outputs ↔
    ∃ boxes scores batches counts, inputs = [boxes, scores] ∧ boxes.hasRank 3 = true ∧ scores.hasRank 3 = true ∧
      Shape.merge (.ranked [boxes.dim 0]) (.ranked [scores.dim 0]) = some batches ∧
      Shape.merge (.ranked [boxes.dim 1]) (.ranked [scores.dim 2]) = some counts ∧
      (∀ width, boxes.dim? 2 = some (.known width) → width = 4) ∧
      outputs = [.ranked [a.rows (batches.dim 0) (counts.dim 0) (scores.dim 1), .known 6],
        .ranked [a.rows (batches.dim 0) (counts.dim 0) (scores.dim 1), .known 1], .ranked [batches.dim 0]] := by
  simp only [shapes, Result.bindOk, Check.inputCountOk, Result.orFaultOk, Check.rankOk, Check.mergeOk]
  constructor
  · rintro ⟨_, count, boxes, first, scores, second, _, boxesRank, _, scoresRank, batches, merged, counts, merged', ok⟩
    refine ⟨boxes, scores, batches, counts, ?_, boxesRank, scoresRank, merged, merged', ?_⟩
    · match inputs, count, first, second with
      | [_, _], _, first, second => cases first; cases second; rfl
    · split at ok
      · rename_i width known
        obtain ⟨_, four, last⟩ := Result.bindOk.mp ok
        cases last
        refine ⟨fun width' same => ?_, rfl⟩
        cases known.symm.trans same
        exact beq_iff_eq.mp (Result.ensureOk.mp four)
      · rename_i unknown
        cases ok
        exact ⟨fun width known => (unknown width known).elim, rfl⟩
  · rintro ⟨boxes, scores, batches, counts, rfl, boxesRank, scoresRank, merged, merged', four, rfl⟩
    refine ⟨(), by simp, boxes, rfl, scores, rfl, (), boxesRank, (), scoresRank, batches, merged, counts, merged', ?_⟩
    split
    · rename_i width known
      exact Result.bindOk.mpr ⟨(), Result.ensureOk.mpr (beq_iff_eq.mpr (four width known)), rfl⟩
    · rfl

end NmsAttributes

end TensorPlan
