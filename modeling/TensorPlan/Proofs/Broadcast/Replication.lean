import Mathlib.Data.List.TakeDrop
import TensorPlan.Proofs.Elements
import TensorPlan.Proofs.Tails
/-! What broadcasting replicates. The axes of the input follow axes of the output in order, and every element of the
output is the one of the input at the coordinates along these axes, modulo the lengths of the input. In the aligned
dimensions it stands at the output's coordinates modulo the aligned lengths, whichever rule aligned them. -/
namespace TensorPlan
namespace Broadcast
open Index (Within)
open BroadcastPlan (wrapped wrappedAppend wrappedWithin)

def unlisted (listed positions coords : List Nat) : List Nat :=
  ((positions.zip coords).filter fun place => !listed.contains place.1).map Prod.snd

def followed (input axes coords : List Nat) : List Nat :=
  List.takeD input.length
    (if input.length = coords.length then coords
     else if axes = [] then coords.drop (coords.length - input.length)
     else unlisted axes (List.range coords.length) coords) 0

def sourceIndex (input axes coords : List Nat) : List Nat := wrapped (followed input axes coords) input

section
variable {input axes coords aligned output listed positions ds : List Nat}

theorem dotWrapped (i d : Nat) (coords ds : List Nat) : dot (wrapped (i :: coords) (d :: ds)) (strides (d :: ds)) =
    i % d * volume ds + dot (wrapped coords ds) (strides ds) := rfl

theorem dotWrappedOne (i : Nat) (coords ds : List Nat) :
    dot (wrapped (i :: coords) (1 :: ds)) (strides (1 :: ds)) = dot (wrapped coords ds) (strides ds) := by
  rw [dotWrapped, Nat.mod_one, Nat.zero_mul, Nat.zero_add]

theorem unlistedListed {axis i : Nat} (member : listed.contains axis = true) :
    unlisted listed (axis :: positions) (i :: coords) = unlisted listed positions coords := by
  simp only [unlisted, List.zip_cons_cons, List.filter_cons, member, Bool.not_true, Bool.false_eq_true, if_false]

theorem unlistedOther {axis i : Nat} (other : listed.contains axis = false) :
    unlisted listed (axis :: positions) (i :: coords) = i :: unlisted listed positions coords := by
  simp only [unlisted, List.zip_cons_cons, List.filter_cons, other, Bool.not_false, if_true, List.map_cons]

theorem unlistedLength (same : coords.length = positions.length) :
    (unlisted listed positions coords).length = (positions.filter fun axis => !listed.contains axis).length := by
  induction positions generalizing coords with
  | nil => simp [unlisted]
  | cons axis rest ih =>
    match coords, same with
    | i :: coords, same =>
      have tail := @ih coords (by simpa using same)
      cases member : listed.contains axis with
      | true => rw [unlistedListed member, List.filter_cons_of_neg (by rw [member]; decide), tail]
      | false => rw [unlistedOther member, List.filter_cons_of_pos (by rw [member]; rfl), List.length_cons, tail,
          List.length_cons]

theorem insertOnesDot (same : coords.length = positions.length)
    (enough : ds.length ≤ (positions.filter fun axis => !listed.contains axis).length) :
    dot (wrapped coords (insertOnes listed positions ds)) (strides (insertOnes listed positions ds)) =
      dot (wrapped (unlisted listed positions coords) ds) (strides ds) := by
  induction positions generalizing coords ds with
  | nil =>
    have none : ds = [] := by simpa using enough
    subst none
    cases coords <;> rfl
  | cons axis rest ih =>
    match coords, same with
    | i :: coords, same =>
      have below : coords.length = rest.length := by simpa using same
      cases member : listed.contains axis with
      | true =>
        rw [List.filter_cons_of_neg (by rw [member]; decide)] at enough
        unfold insertOnes
        rw [if_pos member, unlistedListed member, dotWrappedOne, ih below enough]
      | false =>
        rw [List.filter_cons_of_pos (by rw [member]; rfl)] at enough
        unfold insertOnes
        rw [if_neg (by rw [member]; decide), unlistedOther member]
        cases ds with
        | nil =>
          rw [dotWrappedOne, ih below (Nat.zero_le _)]
          simp [wrapped, dot]
        | cons d ds =>
          have fewer : ds.length ≤ (rest.filter fun axis => !listed.contains axis).length := by simpa using enough
          rw [dotWrapped, dotWrapped, insertOnesVolume listed rest ds fewer, ih below fewer]

theorem leadingOnesDot (k : Nat) (enough : k ≤ coords.length) (ds : List Nat) :
    dot (wrapped coords (List.replicate k 1 ++ ds)) (strides (List.replicate k 1 ++ ds)) =
      dot (wrapped (coords.drop k) ds) (strides ds) := by
  induction k generalizing coords with
  | zero => rfl
  | succ k ih =>
    match coords, enough with
    | i :: coords, enough =>
      rw [List.replicate_succ, List.cons_append, dotWrappedOne, ih (by simpa using enough), List.drop_succ_cons]

theorem wrappedTake (coords ds : List Nat) : wrapped (coords.take ds.length) ds = wrapped coords ds := by
  induction ds generalizing coords with
  | nil => simp [wrapped]
  | cons d ds ih => cases coords <;> simp_all [wrapped]

theorem wrappedTakeD (enough : ds.length ≤ coords.length) : wrapped (coords.takeD ds.length 0) ds = wrapped coords ds := by
  rw [List.takeD_eq_take 0 enough, wrappedTake]

theorem sourceIndexWithin (full : 0 ∉ input) : Within (sourceIndex input axes coords) input :=
  wrappedWithin full (List.takeD_length _ _ _)

theorem sourceIndexDot (found : align? input output axes = some aligned) (full : 0 ∉ aligned)
    (same : coords.length = output.length) :
    dot (sourceIndex input axes coords) (strides input) = dot (wrapped coords aligned) (strides aligned) := by
  have fits := alignFits found
  unfold align? at found
  simp only at found
  split at found
  · rename_i equal
    cases found
    rw [sourceIndex, followed, if_pos (equal.trans same.symm), wrappedTakeD (Nat.le_of_eq (equal.trans same.symm))]
  · rename_i other
    rw [← same] at other
    split at found
    · rename_i inserted
      cases found
      have rank : coords.length = (List.range output.length).length := by rw [same, List.length_range]
      have others := unlistedAxes axes output.length
      rw [insertOnesDot rank (by omega), sourceIndex, followed, if_neg other, if_neg inserted.1, same,
        wrappedTakeD (by rw [unlistedLength rank]; omega)]
    · split at found
      · rename_i shorter
        cases found
        rw [leadingOnesDot _ (by omega), sourceIndex, followed, if_neg other, if_pos shorter.1, same,
          wrappedTakeD (by rw [List.length_drop]; omega)]
      · split at found
        · rename_i one
          have filled : 0 ∉ input := fun empty => by rw [volumeZero.mpr empty] at one; cases one
          have first := Index.dotBound (sourceIndexWithin filled : Within (sourceIndex input axes coords) input)
          have second := Index.dotBound (wrappedWithin full (same.trans fits.1.symm))
          omega
        · cases found

end
end Broadcast

namespace Layout
open Index (Within)
variable {index ss : List Nat}

theorem zerosWithin {ds : List Nat} (within : Within index ds) (one : volume ds = 1) : ∀ i ∈ index, i = 0 := by
  induction within with
  | nil => simp
  | cons below _ ih =>
    rw [volumeCons] at one
    have single := Nat.eq_one_of_mul_eq_one_right one
    rw [List.forall_mem_cons]
    exact ⟨by omega, ih (Nat.eq_one_of_mul_eq_one_left one)⟩

theorem dotZeros (zeros : ∀ i ∈ index, i = 0) : dot index ss = 0 := by
  induction index generalizing ss with
  | nil => rfl
  | cons i index ih =>
    rw [List.forall_mem_cons] at zeros
    cases ss with
    | nil => rfl
    | cons s ss => rw [dot, zeros.1, Nat.zero_mul, ih zeros.2]

theorem arrangeZeros (f : MemoryFormat) (zeros : ∀ i ∈ index, i = 0) : ∀ i ∈ arrange f index, i = 0 := by
  have split : ∀ block, ∀ i ∈ splitChannel block index, i = 0 := by
    intro block i member
    match index with
    | [] | [_] => exact zeros i member
    | n :: c :: spatial =>
      have channel : c = 0 := zeros c (by simp)
      simp only [splitChannel, channel, Nat.zero_div, Nat.zero_mod, List.cons_append, List.mem_cons, List.mem_append,
        List.not_mem_nil, or_false] at member
      rcases member with batch | group | inner | place
      · exact zeros i (by simp [batch])
      · exact group
      · exact zeros i (by simp [inner])
      · exact place
  cases f with
  | plain => exact zeros
  | channelsLast =>
    match index with
    | [] | [_] => exact zeros
    | n :: c :: spatial =>
      intro i member
      exact zeros i (by simp [arrange, MemoryFormat.blockSize?, channelsToBack] at member ⊢; tauto)
  | blocked8 => exact split 8
  | blocked16 => exact split 16

theorem singleOffset (l : Layout) (within : Within index l.dims) (one : volume l.dims = 1) : l.offset index = 0 := by
  rw [l.offsetArranged (Index.withinLength within)]
  exact dotZeros (arrangeZeros l.format (zerosWithin within one))

end Layout
namespace BroadcastPlan
open Index (Within)
open Broadcast (sourceIndex sourceIndexWithin)
variable {p : BroadcastPlan} {own l m : Layout} {index coords axes : List Nat} {source output : Tensor}

structure Replicates (axes dims aligned : List Nat) (source output : Tensor) : Prop where
  described : output.descriptor = ⟨dims, source.type, BroadcastAttributes.outputFormat source.format dims.length⟩
  rank : aligned.length = dims.length
  count : volume aligned = source.count
  listed : ∀ axis ∈ axes, aligned[axis]? = some 1
  position : ∀ coords, Within coords dims → Within (sourceIndex source.dims axes coords) source.dims ∧
    dot (sourceIndex source.dims axes coords) (strides source.dims) = dot (wrapped coords aligned) (strides aligned)
  element : ∀ coords, Within coords dims →
    ∃ element, source.element? (sourceIndex source.dims axes coords) = some element ∧ output.element? coords = some element
  tails : output.ZeroTails

theorem sourceOffset (sound : p.Sound) (ownLayout : p.source.layout = .ok own) (sourceLayout : p.sourceLayout = .ok l)
    (within : Within index p.source.dims) (wraps : Within coords p.aligned)
    (same : dot index (strides p.source.dims) = dot coords (strides p.aligned)) : own.offset index = l.offset coords := by
  have ownOf := Descriptor.layoutOk ownLayout
  have inside : Within index own.dims := by rw [ownOf.2]; exact within
  by_cases flat : p.source.format = .plain ∨ p.source.count ≤ 1
  · cases (if_pos flat : p.sourceLayout = .ok (.contiguous p.aligned)).symm.trans sourceLayout
    rw [Layout.contiguousOffset (Index.withinLength wraps), ← same]
    by_cases plain : p.source.format = .plain
    · rw [own.plainOffset (ownOf.1.trans plain) (Index.withinLength inside), ownOf.2]
    · have bound := Index.dotBound within
      have few : volume p.source.dims ≤ 1 := flat.resolve_left plain
      rw [own.singleOffset inside (by rw [ownOf.2]; omega)]
      omega
  · cases ((if_neg flat).trans ownLayout : p.sourceLayout = .ok own).symm.trans sourceLayout
    have aligned : p.aligned = p.source.dims :=
      (sound.moved.resolve_left (mt .inl flat)).resolve_right (mt .inr flat)
    rw [aligned] at same wraps
    rw [← Index.ofPositionDot within, same, Index.ofPositionDot wraps]

theorem cellAt (targetLayout : p.target.layout = .ok m) (within : Within coords p.target.dims) (bytes : Bytes) :
    p.cell l m bytes (m.offset coords) = Bytes.item p.elementSize bytes (l.offset (wrapped coords p.aligned)) := by
  rw [← (Descriptor.layoutOk targetLayout).2] at within
  rw [cell, m.coordinatesOffset within, m.holdsWithin within, if_pos rfl]

theorem outputReplicates (sound : p.Sound) (described : source.descriptor = p.source) (sourceLayout : p.sourceLayout = .ok l)
    (targetLayout : p.target.layout = .ok m) (reaches : p.Reaches l source.data)
    (found : Broadcast.align? p.source.dims p.target.dims axes = some p.aligned)
    (listed : ∀ axis ∈ axes, p.aligned[axis]? = some 1) (made : output.descriptor = p.target)
    (data : output.data = p.output l m source.data) (tails : output.ZeroTails) :
    Replicates axes p.target.dims p.aligned source output := by
  have dims : source.dims = p.source.dims := congrArg Descriptor.dims described
  have position : ∀ coords, Within coords p.target.dims → Within (wrapped coords p.aligned) p.aligned ∧
      Within (sourceIndex p.source.dims axes coords) p.source.dims ∧
      dot (sourceIndex p.source.dims axes coords) (strides p.source.dims) =
        dot (wrapped coords p.aligned) (strides p.aligned) := fun coords within => by
    have length := Index.withinLength within
    have full : 0 ∉ p.aligned := sound.filled (volumeFull (Index.dotBound within))
    have sourceFull : 0 ∉ p.source.dims := volumeFull (sound.count ▸ volumePositive full)
    exact ⟨wrappedWithin full (length.trans sound.rank.symm), sourceIndexWithin sourceFull,
      Broadcast.sourceIndexDot found full length⟩
  refine ⟨?_, sound.rank, ?_, listed, fun coords within => ?_, fun coords within => ?_, tails⟩
  · rw [made, Tensor.type, Tensor.format, described, ← sound.type, ← sound.format]
  · rw [sound.count, Tensor.count, described]
  · rw [dims]
    exact (position coords within).2
  · obtain ⟨own, ownLayout, _⟩ := source.layoutFits
    obtain ⟨wraps, reached, same⟩ := position coords within
    have offset := sourceOffset sound (by rw [← described]; exact ownLayout) sourceLayout reached wraps same
    refine ⟨_, ?_, Tensor.elementOfCells (by rw [made, targetLayout]) data (fun position below => ?_)
      (by rw [Tensor.dims, made]; exact within)⟩
    · rw [dims, Tensor.elementItem ownLayout (by rw [dims]; exact reached), offset, cellAt targetLayout within, Tensor.type,
        described]
      rfl
    · rw [Tensor.type, made, sound.type]
      exact (elementOk sound targetLayout reaches below).2

end BroadcastPlan

namespace BroadcastAttributes

theorem ofInputsOk {a : BroadcastAttributes} {inputs : List Tensor} {data : Tensor} {dims aligned : List Nat}
    (first : inputs[0]? = some data) (target : BroadcastPlan.resolveTarget a inputs = .ok dims)
    (normalized : Broadcast.normalize data.dims dims a.axes = .ok aligned)
    (moved : data.format = .plain ∨ aligned = data.dims ∨ data.count ≤ 1) : BroadcastPlan.ofInputs a inputs =
      .ok ⟨data.descriptor, ⟨dims, data.type, outputFormat data.format dims.length⟩, aligned⟩ := by
  have head : inputs.head? = some data := by rw [List.head?_eq_getElem?, first]
  simp only [BroadcastPlan.ofInputs, Result.bindOk, Result.ofOptionOk, Result.ensureOk, Bool.or_eq_true, beq_iff_eq,
    decide_eq_true_eq, or_assoc]
  exact ⟨data, head, dims, target, aligned, normalized, (), moved, rfl⟩

/-- Broadcasting by elements replicates the input along the axes that are aligned, in every format. Data with moved
channels and several elements can be refused although its dimensions align. -/
theorem broadcastReplicates (a : BroadcastAttributes) (inputs given : List Tensor) (context : PlanContext) (data : Tensor)
    (dims aligned : List Nat) (first : inputs[0]? = some data) (target : BroadcastPlan.resolveTarget a inputs = .ok dims)
    (normalized : Broadcast.normalize data.dims dims a.axes = .ok aligned)
    (accepted : data.format = .plain ∨ data.count ≤ 1 ∨ ∃ plan, a.planElements inputs context = .ok plan)
    (same : given.map Tensor.descriptor = inputs.map Tensor.descriptor) :
    ∃ plan source output, a.planElements inputs context = .ok plan ∧ plan.outputs = [output.descriptor] ∧
      given[0]? = some source ∧ source.descriptor = data.descriptor ∧
      Run.Leaves (BroadcastPlan.executeElements plan given) plan.outputs [output] ∧
      BroadcastPlan.Replicates (a.axes.getD []) dims aligned source output := by
  have moved : data.format = .plain ∨ aligned = data.dims ∨ data.count ≤ 1 := by
    rcases accepted with plain | few | ⟨plan, planned⟩
    · exact .inl plain
    · exact .inr (.inr few)
    · obtain ⟨p, _, _, made, _⟩ := planElementsCases planned
      simp only [BroadcastPlan.ofInputs, List.head?_eq_getElem?, first, target, Result.ofOptionSome, Result.okBind,
        Result.bindOk, Result.ensureOk, Bool.or_eq_true, beq_iff_eq, decide_eq_true_eq, or_assoc] at made
      obtain ⟨aligned', normalized', _, moved, _⟩ := made
      cases normalized.symm.trans normalized'
      exact moved
  have made := ofInputsOk first target normalized moved
  obtain ⟨below, found, checked⟩ := Broadcast.normalizeCases normalized
  obtain ⟨m', targetLayout', planned⟩ := planElementsOk made context
  obtain ⟨source, l, m, size, there, sourceLayout, targetLayout, reaches, leaves⟩ := runsLeave made same a.validity
  obtain ⟨source', _, there', described, _⟩ := Tensor.plannedSource first same
  cases there.symm.trans there'
  have sound := (planSource made same).1
  have listed : ∀ axis ∈ a.axes.getD [], aligned[axis]? = some 1 := fun axis member =>
    Broadcast.axesOnes checked (Broadcast.alignFits found).1 (below axis member) (by rwa [Nat.zero_add])
  exact ⟨_, source, _, planned, rfl, there, described, leaves.elements m' context.team targetLayout',
    BroadcastPlan.outputReplicates sound described sourceLayout targetLayout reaches found listed rfl rfl
      (BroadcastPlan.outputTails sound targetLayout reaches size)⟩

theorem broadcastReplicatesOfRepeatedAxis :
    let a : BroadcastAttributes := ⟨some [2, 3, 2], some [0, 0]⟩
    let row : Tensor := ⟨.plain [3] .u8, [1, 2, 3], rfl⟩
    ∃ plan output, a.planElements [row] ⟨2, 0⟩ = .ok plan ∧
      Run.Leaves (BroadcastPlan.executeElements plan [row]) plan.outputs [output] ∧ output.descriptor = .plain [2, 3, 2] .u8 ∧
      output.element? [1, 0, 1] = some [1] ∧ output.element? [0, 2, 1] = some [3] ∧ output.ZeroTails := by
  intro a row
  obtain ⟨plan, source, output, planned, _, found, _, leaves, replicates⟩ :=
    broadcastReplicates a [row] [row] ⟨2, 0⟩ row [2, 3, 2] [1, 3, 1] rfl rfl rfl (.inl rfl) rfl
  cases found
  have reads : ∀ i j k element, i < 2 → j < 3 → k < 2 → row.element? [j] = some element →
      output.element? [i, j, k] = some element := by
    intro i j k element batch place copy known
    obtain ⟨own, held, shown⟩ := replicates.element [i, j, k] (.cons batch (.cons place (.cons copy .nil)))
    have index : Broadcast.sourceIndex row.dims (a.axes.getD []) [i, j, k] = [j] :=
      congrArg (fun place => [place]) (Nat.mod_eq_of_lt place)
    rw [index, known] at held
    cases held
    exact shown
  exact ⟨plan, output, planned, leaves, replicates.described, reads 1 0 1 [1] (by decide) (by decide) (by decide) rfl,
    reads 0 2 1 [3] (by decide) (by decide) (by decide) rfl, replicates.tails⟩

end BroadcastAttributes
end TensorPlan
