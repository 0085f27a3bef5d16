import TensorPlan.Broadcast.Execution
import TensorPlan.Proofs.Broadcast.Alignment
import TensorPlan.Proofs.Encoding
import TensorPlan.Proofs.Positions
import TensorPlan.Proofs.Tiling
/-! Blocks and elements agree. The coordinates of an output position wrap into the source, so every
position has its bytes; a block of agreeing axes is a run of source elements, and it is the run of the
bytes of its positions. -/
namespace TensorPlan.BroadcastPlan
open Index (Within)

structure Sound (p : BroadcastPlan) : Prop where
  rank : p.aligned.length = p.target.dims.length
  count : volume p.aligned = p.source.count
  filled : 0 ∉ p.target.dims → 0 ∉ p.aligned
  type : p.target.type = p.source.type
  format : p.target.format = BroadcastAttributes.outputFormat p.source.format p.target.dims.length
  moved : p.source.format = .plain ∨ p.aligned = p.source.dims ∨ p.source.count ≤ 1

theorem ofInputsSound {a : BroadcastAttributes} {inputs : List Tensor} {p : BroadcastPlan}
    (ok : ofInputs a inputs = .ok p) : p.Sound ∧ ∃ data, inputs[0]? = some data ∧ data.descriptor = p.source := by
  simp only [ofInputs, Result.bindOk, Result.ofOptionOk, Result.ensureOk] at ok
  obtain ⟨data, found, dims, _, aligned, normalized, _, moved, last⟩ := ok
  cases last
  obtain ⟨rank, count, filled⟩ := Broadcast.normalizeOk normalized
  refine ⟨⟨rank, count, filled, rfl, rfl, ?_⟩, data, by rw [← List.head?_eq_getElem?, found], rfl⟩
  simp only [Bool.or_eq_true, beq_iff_eq, decide_eq_true_eq] at moved
  rwa [or_assoc] at moved

def wrapped (coords dims : List Nat) : List Nat := List.zipWith (· % ·) coords dims

theorem wrapOk {coords dims : List Nat} (full : 0 ∉ dims) :
    wrap coords dims = some (wrapped coords dims ++ coords.drop dims.length) := by
  induction dims generalizing coords with
  | nil => cases coords <;> rfl
  | cons d dims ih =>
    simp only [List.mem_cons, not_or] at full
    cases coords with
    | nil => rfl
    | cons i coords =>
      have positive : d ≠ 0 := fun zero => full.1 zero.symm
      simp [wrap, positive, ih full.2, wrapped]

theorem wrapShort {coords dims : List Nat} (full : 0 ∉ dims) (short : coords.length ≤ dims.length) :
    wrap coords dims = some (wrapped coords dims) := by
  rw [wrapOk full, List.drop_eq_nil_of_le short, List.append_nil]

theorem wrappedWithin {coords dims : List Nat} (full : 0 ∉ dims) (same : coords.length = dims.length) :
    Within (wrapped coords dims) dims := by
  induction dims generalizing coords with
  | nil => cases List.length_eq_zero_iff.mp same; exact .nil
  | cons d dims ih =>
    simp only [List.mem_cons, not_or] at full
    match coords, same with
    | i :: coords, same => exact .cons (Nat.mod_lt i (by omega)) (ih full.2 (by simpa using same))

theorem wrappedSelf {coords dims : List Nat} (within : Within coords dims) : wrapped coords dims = coords := by
  induction within with
  | nil => rfl
  | cons below _ ih => simp only [wrapped, List.zipWith_cons_cons, Nat.mod_eq_of_lt below] at ih ⊢; rw [ih]

theorem wrappedAppend {coords dims : List Nat} (same : coords.length = dims.length) (coords' dims' : List Nat) :
    wrapped (coords ++ coords') (dims ++ dims') = wrapped coords dims ++ wrapped coords' dims' :=
  List.zipWith_append same

section
variable {p : BroadcastPlan} {l m : Layout} {source bytes : Bytes} {position team : Nat}

theorem Sound.targetLayout (sound : p.Sound) : ∃ m, p.target.layout = .ok m := by
  have supported : p.target.format.supportsRank p.target.dims.length = true := by
    rw [sound.format]
    unfold BroadcastAttributes.outputFormat
    split
    · assumption
    · rfl
  exact ⟨_, Descriptor.layoutSupported supported⟩

def Reaches (p : BroadcastPlan) (l : Layout) (source : Bytes) : Prop :=
  ∀ coords, Within coords p.aligned →
    l.offset? coords = some (l.offset coords) ∧ (l.offset coords + 1) * p.elementSize ≤ source.length

theorem Sound.sourceLayout (sound : p.Sound) {data : Tensor} (described : data.descriptor = p.source) :
    ∃ l, p.sourceLayout = .ok l ∧ p.Reaches l data.data := by
  obtain ⟨own, layout, held⟩ := data.layoutFits
  rw [described] at layout
  have size : data.type.size = p.elementSize := by rw [Tensor.type, described]; rfl
  have ownOf := Descriptor.layoutOk layout
  rw [size] at held
  by_cases flat : p.source.format = .plain ∨ p.source.count ≤ 1
  · refine ⟨.contiguous p.aligned, if_pos flat, fun coords within => ⟨if_pos (.inl rfl), ?_⟩⟩
    have bound := (Layout.contiguous p.aligned).offsetInside within
    rw [Layout.physicalSize, Layout.blockDimsPlain _ rfl] at bound
    change (Layout.contiguous p.aligned).offset coords < volume p.aligned at bound
    rw [sound.count] at bound
    have enough : p.source.count ≤ own.physicalSize := by
      rcases flat with plain | few
      · rw [Layout.physicalSize, own.blockDimsPlain (ownOf.1.trans plain), ownOf.2]; exact Nat.le_refl _
      · have full : 0 ∉ p.source.dims := fun empty => by
          have none : p.source.count = 0 := volumeZero.mpr empty
          omega
        have positive := volumePositive (mt own.emptyAxes.mp (by rwa [ownOf.2]))
        rw [Layout.physicalSize]; omega
    rw [held]
    exact Nat.mul_le_mul_right _ (by omega)
  · have aligned : p.aligned = own.dims := by
      rcases sound.moved with plain | same | few
      · exact absurd (.inl plain) flat
      · rw [same, ownOf.2]
      · exact absurd (.inr few) flat
    refine ⟨own, (if_neg flat).trans layout, fun coords within => ?_⟩
    rw [aligned] at within
    refine ⟨own.offsetSome (Index.withinLength within), ?_⟩
    rw [held]
    exact Nat.mul_le_mul_right _ (own.offsetInside within)

def cell (p : BroadcastPlan) (l m : Layout) (source : Bytes) (position : Nat) : Bytes :=
  if m.holds (m.coordinates position) then
    Bytes.item p.elementSize source (l.offset (wrapped (m.coordinates position) p.aligned))
  else Bytes.zeros p.elementSize

def output (p : BroadcastPlan) (l m : Layout) (source : Bytes) : Bytes :=
  (List.range m.physicalSize).flatMap (p.cell l m source)

theorem elementOk (sound : p.Sound) (targetLayout : p.target.layout = .ok m) (reaches : p.Reaches l source)
    (inside : position < m.physicalSize) :
    p.element l m source position = .ok (p.cell l m source position) ∧
      (p.cell l m source position).length = p.elementSize := by
  have targetOf := Descriptor.layoutOk targetLayout
  have full := m.physicalFull inside
  rw [m.emptyAxes, targetOf.2] at full
  obtain ⟨_, length, _⟩ := m.positionArranged inside
  rw [Layout.rank, targetOf.2, ← sound.rank] at length
  unfold element cell
  simp only [m.coordinatesSome inside, Result.orFaultSome, Result.okBind]
  cases m.holds (m.coordinates position) with
  | false => exact ⟨rfl, Bytes.zerosLength _⟩
  | true =>
    obtain ⟨reached, bound⟩ := reaches _ (wrappedWithin (sound.filled full) length)
    simp only [Bool.not_true, Bool.false_eq_true, if_false, wrapShort (sound.filled full) (Nat.le_of_eq length),
      Result.orFaultSome, Result.okBind, reached, Bytes.sliceItem bound, if_true]
    exact ⟨trivial, Bytes.itemLength bound⟩

theorem outputLength (sound : p.Sound) (targetLayout : p.target.layout = .ok m) (reaches : p.Reaches l source) :
    (p.output l m source).length = m.physicalSize * p.elementSize := by
  apply Bytes.rangeLength
  intro position inside
  exact (elementOk sound targetLayout reaches inside).2

theorem fillElementsOk (sound : p.Sound) (sourceLayout : p.sourceLayout = .ok l) (targetLayout : p.target.layout = .ok m)
    (reaches : p.Reaches l source) (room : bytes.length = m.physicalSize * p.elementSize) :
    p.fillElements (.ofTeam m.physicalSize team) source bytes = .ok (p.output l m source) := by
  simp only [fillElements, sourceLayout, targetLayout, Result.okBind]
  exact Partition.overwriteEachOk room fun position inside => elementOk sound targetLayout reaches inside

theorem Sound.outerRankEq (sound : p.Sound) :
    p.outerRank ≤ p.target.dims.length ∧ p.aligned.drop p.outerRank = p.target.dims.drop p.outerRank := by
  unfold outerRank
  simp only
  cases found : (List.range (p.target.rank + 1)).find? fun k => p.aligned.drop k == p.target.dims.drop k with
  | none =>
    have last := List.find?_eq_none.mp found p.target.rank (by simp)
    rw [Descriptor.rank, ← sound.rank] at last
    simp [sound.rank] at last
  | some k =>
    have agrees := List.find?_some found
    have member := List.mem_of_find?_eq_some found
    rw [List.mem_range, Descriptor.rank] at member
    exact ⟨by simp only [Option.getD_some]; omega, by simpa using agrees⟩

structure Blocks (p : BroadcastPlan) (outer inner : List Nat) : Prop where
  aligned : p.aligned = outer ++ inner
  dims : p.target.dims = p.outerDims ++ inner
  length : outer.length = p.outerDims.length
  block : p.blockLength = volume inner

theorem Sound.blocks (sound : p.Sound) : ∃ outer inner, p.Blocks outer inner := by
  obtain ⟨inside, same⟩ := sound.outerRankEq
  refine ⟨p.aligned.take p.outerRank, p.target.dims.drop p.outerRank, ?_, ?_, ?_, rfl⟩
  · rw [← same, List.take_append_drop]
  · rw [outerDims, List.take_append_drop]
  · rw [outerDims, List.length_take, List.length_take, sound.rank]

namespace Blocks
variable {outer inner : List Nat} {n j : Nat}

def sourceBlock (p : BroadcastPlan) (outer : List Nat) (n : Nat) : Nat :=
  dot (wrapped (Index.ofPosition p.outerDims n) outer) (strides outer)

theorem sameRank (blocks : p.Blocks outer inner) (n : Nat) : (Index.ofPosition p.outerDims n).length = outer.length := by
  rw [Index.ofPositionLength, blocks.length]

theorem startEq (blocks : p.Blocks outer inner) (full : 0 ∉ outer) (index : List Nat) :
    dot (wrapped (Index.ofPosition p.outerDims n) outer ++ index) (strides p.aligned) =
      sourceBlock p outer n * p.blockLength + dot index (strides inner) := by
  have same : (wrapped (Index.ofPosition p.outerDims n) outer).length =
      ((strides outer).map (· * volume inner)).length := by
    rw [List.length_map, stridesLength, Index.withinLength (wrappedWithin full (blocks.sameRank n))]
  rw [blocks.aligned, stridesAppend, dotAppend same, dotScaled, blocks.block, sourceBlock]

theorem wrapEq (blocks : p.Blocks outer inner) (full : 0 ∉ p.aligned) :
    wrap (Index.ofPosition p.outerDims n) p.aligned = some (wrapped (Index.ofPosition p.outerDims n) outer) := by
  have same := blocks.sameRank n
  have split := wrappedAppend same [] inner
  rw [List.append_nil, ← blocks.aligned] at split
  have short : (Index.ofPosition p.outerDims n).length ≤ p.aligned.length := by
    rw [same, blocks.aligned, List.length_append]; omega
  rw [wrapShort full short, split]
  simp [wrapped]

theorem cellEq (blocks : p.Blocks outer inner) (sound : p.Sound) (plain : m.format = .plain)
    (targetLayout : p.target.layout = .ok m) (full : 0 ∉ p.target.dims) (inside : n < volume p.outerDims)
    (small : j < p.blockLength) :
    p.cell (.contiguous p.aligned) m source (n * p.blockLength + j) =
      Bytes.item p.elementSize source (sourceBlock p outer n * p.blockLength + j) := by
  have targetOf := Descriptor.layoutOk targetLayout
  have sourceFull := sound.filled full
  have outerFull : 0 ∉ outer := fun empty => sourceFull (by rw [blocks.aligned]; exact List.mem_append_left _ empty)
  have innerFull : 0 ∉ inner := fun empty => full (by rw [blocks.dims]; exact List.mem_append_right _ empty)
  have axes : m.blockDims = p.outerDims ++ inner := by rw [m.blockDimsPlain plain, targetOf.2, blocks.dims]
  have position : n * p.blockLength + j < m.physicalSize := by
    rw [Layout.physicalSize, axes, volumeAppend, ← blocks.block]
    exact digitsBelow inside small
  have held := m.holdsUnblocked (by rw [plain]; rfl) (m.coordinates (n * p.blockLength + j))
  have row : (n * p.blockLength + j) / p.blockLength = n := quotientDigit small
  have coords : m.coordinates (n * p.blockLength + j) =
      Index.ofPosition p.outerDims n ++ Index.ofPosition inner j := by
    rw [m.coordinatesInside position, plain, axes, Index.ofPositionAppend, ← blocks.block, row, blocks.block,
      Index.ofPositionOffset]
    rfl
  have rest := Index.ofPositionWithin innerFull j
  have length : (wrapped (Index.ofPosition p.outerDims n) outer ++ Index.ofPosition inner j).length = p.aligned.length := by
    rw [blocks.aligned, List.length_append, List.length_append, Index.withinLength rest,
      Index.withinLength (wrappedWithin outerFull (blocks.sameRank n))]
  rw [cell, if_pos held, coords, blocks.aligned, wrappedAppend (blocks.sameRank n), wrappedSelf rest, ← blocks.aligned,
    (Layout.contiguous p.aligned).offsetArranged length, Layout.blockDimsPlain _ rfl]
  change Bytes.item p.elementSize source (dot (wrapped (Index.ofPosition p.outerDims n) outer ++
    Index.ofPosition inner j) (strides p.aligned)) = _
  rw [blocks.startEq outerFull, Index.dotOfPosition (by rwa [← blocks.block])]

theorem blockOk (blocks : p.Blocks outer inner) (sound : p.Sound) (plain : m.format = .plain)
    (targetLayout : p.target.layout = .ok m) (held : source.length = volume p.aligned * p.elementSize)
    (filled : 0 < p.blockLength) (inside : n < volume p.outerDims) :
    p.block source n =
      .ok ((List.range' (n * p.blockLength) p.blockLength).flatMap (p.cell (.contiguous p.aligned) m source)) := by
  have outerDimsFull := volumeFull inside
  have innerFull : 0 ∉ inner := volumeFull (blocks.block ▸ filled)
  have full : 0 ∉ p.target.dims := by rw [blocks.dims]; simp [outerDimsFull, innerFull]
  have sourceFull := sound.filled full
  have outerFull : 0 ∉ outer := fun empty => sourceFull (by rw [blocks.aligned]; exact List.mem_append_left _ empty)
  have bound : sourceBlock p outer n < volume outer := Index.dotBound (wrappedWithin outerFull (blocks.sameRank n))
  have enough : (sourceBlock p outer n * p.blockLength + p.blockLength) * p.elementSize ≤ source.length := by
    rw [held, blocks.aligned, volumeAppend, ← blocks.block, ← Nat.succ_mul]
    exact Nat.mul_le_mul_right _ (Nat.mul_le_mul_right _ bound)
  have start : dot (wrapped (Index.ofPosition p.outerDims n) outer ++ []) (strides p.aligned) =
      sourceBlock p outer n * p.blockLength + 0 := blocks.startEq outerFull []
  rw [List.append_nil, Nat.add_zero] at start
  simp only [BroadcastPlan.block, Index.ofFlatFull outerDimsFull, Result.orFaultSome, Result.okBind,
    blocks.wrapEq sourceFull, start, Bytes.sliceItems enough]
  rw [List.range'_eq_map_range, List.range'_eq_map_range, List.flatMap_map, List.flatMap_map]
  refine congrArg Except.ok (List.flatMap_congr fun j member => ?_)
  rw [blocks.cellEq sound plain targetLayout full inside (List.mem_range.mp member)]

end Blocks

theorem fillBlocksOk (sound : p.Sound) (plain : m.format = .plain) (targetLayout : p.target.layout = .ok m)
    (reaches : p.Reaches (.contiguous p.aligned) source) (held : source.length = volume p.aligned * p.elementSize)
    (room : bytes.length = m.physicalSize * p.elementSize) :
    p.fillBlocks (.ofTeam (volume p.outerDims) team) source bytes = .ok (p.output (.contiguous p.aligned) m source) := by
  obtain ⟨outer, inner, blocks⟩ := sound.blocks
  have whole : m.physicalSize = volume p.outerDims * p.blockLength := by
    rw [Layout.physicalSize, m.blockDimsPlain plain, (Descriptor.layoutOk targetLayout).2, blocks.dims, volumeAppend,
      blocks.block]
  have size := ElementType.sizePositive p.source.type
  unfold fillBlocks
  by_cases none : p.blockLength * p.elementSize = 0
  · have empty : p.blockLength = 0 := (Nat.mul_eq_zero.mp none).resolve_right (by unfold elementSize; omega)
    have nothing : m.physicalSize = 0 := by rw [whole, empty, Nat.mul_zero]
    rw [nothing, Nat.zero_mul] at room
    simp [none, output, nothing, List.length_eq_zero_iff.mp room]
  · have filled : 0 < p.blockLength := Nat.pos_of_ne_zero fun zero => none (by rw [zero, Nat.zero_mul])
    simp only [none, if_false]
    rw [whole, Nat.mul_assoc] at room
    have run : (Partition.ofTeam (volume p.outerDims) team).overwriteEach (p.blockLength * p.elementSize) (p.block source)
        bytes = .ok ((List.range (volume p.outerDims)).flatMap fun n =>
          (List.range' (n * p.blockLength) p.blockLength).flatMap (p.cell (.contiguous p.aligned) m source)) := by
      apply Partition.overwriteEachOk room
      intro n inside
      refine ⟨blocks.blockOk sound plain targetLayout held filled inside, Bytes.joinedLength fun i _ high => ?_⟩
      have below : i < m.physicalSize :=
        calc i
          _ < (n + 1) * p.blockLength := by rw [Nat.succ_mul]; exact high
          _ ≤ volume p.outerDims * p.blockLength := Nat.mul_le_mul_right _ inside
          _ = m.physicalSize := whole.symm
      exact (elementOk sound targetLayout reaches below).2
    rw [run, rangeRuns, ← whole, output]

end

structure Leaves (p : BroadcastPlan) (inputs : List Descriptor) (validity : Validity) (given : List Tensor) (t : Tensor) :
    Prop where
  blocks : ∀ team, p.source.format = .plain → Run.Leaves (executeBlocks ⟨inputs, [p.target], validity,
    .ofTeam (volume p.outerDims) team, .broadcast p⟩ given) [p.target] [t]
  elements : ∀ m team, p.target.layout = .ok m → Run.Leaves (executeElements ⟨inputs, [p.target], validity,
    .ofTeam m.physicalSize team, .broadcast p⟩ given) [p.target] [t]

end TensorPlan.BroadcastPlan

namespace TensorPlan.BroadcastAttributes
variable {a : BroadcastAttributes} {inputs : List Tensor} {context : PlanContext} {plan : ExecutionPlan}

theorem planCases (ok : a.plan inputs context = .ok plan) : ∃ p team, BroadcastPlan.ofInputs a inputs = .ok p ∧
    p.source.format = .plain ∧ p.target.format = .plain ∧
      plan = ⟨inputs.map Tensor.descriptor, [p.target], a.validity, .ofTeam (volume p.outerDims) team, .broadcast p⟩ := by
  simp only [BroadcastAttributes.plan, Result.bindOk, Result.ensureOk, Bool.and_eq_true, beq_iff_eq] at ok
  obtain ⟨p, made, _, plain, last⟩ := ok
  cases last
  exact ⟨p, _, made, plain.1, plain.2, rfl⟩

theorem planElementsCases (ok : a.planElements inputs context = .ok plan) : ∃ p m team,
    BroadcastPlan.ofInputs a inputs = .ok p ∧ p.target.layout = .ok m ∧
      plan = ⟨inputs.map Tensor.descriptor, [p.target], a.validity, .ofTeam m.physicalSize team, .broadcast p⟩ := by
  simp only [BroadcastAttributes.planElements, Result.bindOk] at ok
  obtain ⟨p, made, m, layout, last⟩ := ok
  cases last
  exact ⟨p, m, _, made, layout, rfl⟩

section
variable {p : BroadcastPlan} (made : BroadcastPlan.ofInputs a inputs = .ok p)
include made

theorem planElementsOk (context : PlanContext) : ∃ m, p.target.layout = .ok m ∧ a.planElements inputs context =
    .ok ⟨inputs.map Tensor.descriptor, [p.target], a.validity, .ofTeam m.physicalSize context.team, .broadcast p⟩ := by
  obtain ⟨m, targetLayout⟩ := (BroadcastPlan.ofInputsSound made).1.targetLayout
  exact ⟨m, targetLayout, by simp only [planElements, made, targetLayout, Result.okBind]; rfl⟩

theorem planOk (plain : p.source.format = .plain) (context : PlanContext) : a.plan inputs context =
    .ok ⟨inputs.map Tensor.descriptor, [p.target], a.validity, .ofTeam (volume p.outerDims) context.team,
      .broadcast p⟩ := by
  have plain' : p.target.format = .plain := by
    rw [(BroadcastPlan.ofInputsSound made).1.format, plain]; rfl
  simp only [BroadcastAttributes.plan, made, plain, plain', Result.okBind, beq_self_eq_true, Bool.and_self,
    Result.ensure, if_true]
  rfl

end

section
variable {p : BroadcastPlan} (made : BroadcastPlan.ofInputs a inputs = .ok p) {given : List Tensor}
  (same : given.map Tensor.descriptor = inputs.map Tensor.descriptor)
include made same

theorem planSource : p.Sound ∧ ∃ source l m, given[0]? = some source ∧ source.descriptor = p.source ∧
    p.sourceLayout = .ok l ∧ p.Reaches l source.data ∧ p.target.layout = .ok m := by
  obtain ⟨sound, data, first, described⟩ := BroadcastPlan.ofInputsSound made
  obtain ⟨source, _, found, descriptor, _⟩ := Tensor.plannedSource first same
  rw [described] at descriptor
  obtain ⟨l, sourceLayout, reaches⟩ := sound.sourceLayout descriptor
  obtain ⟨m, targetLayout⟩ := sound.targetLayout
  exact ⟨sound, source, l, m, found, descriptor, sourceLayout, reaches, targetLayout⟩

theorem runsLeave (validity : Validity) : ∃ source l m size, given[0]? = some source ∧ p.sourceLayout = .ok l ∧
    p.target.layout = .ok m ∧ p.Reaches l source.data ∧
    p.Leaves (inputs.map Tensor.descriptor) validity given ⟨p.target, p.output l m source.data, size⟩ := by
  obtain ⟨sound, source, l, m, found, described, sourceLayout, reaches, targetLayout⟩ := planSource made same
  have length := BroadcastPlan.outputLength sound targetLayout reaches
  have size : p.target.byteSize? = some (p.output l m source.data).length := by
    rw [Descriptor.layoutSize targetLayout, length, sound.type]; rfl
  refine ⟨source, l, m, size, found, sourceLayout, targetLayout, reaches, fun team plain => ?_, fun m' team layout => ?_⟩
  · have flat : p.sourceLayout = .ok (.contiguous p.aligned) := if_pos (.inl plain)
    cases flat.symm.trans sourceLayout
    have plain' : p.target.format = .plain := by rw [sound.format, plain]; rfl
    obtain ⟨own, layout, held⟩ := source.layoutFits
    rw [described] at layout
    have ownOf := Descriptor.layoutOk layout
    have all : source.data.length = volume p.aligned * p.elementSize := by
      rw [held, Layout.physicalSize, own.blockDimsPlain (ownOf.1.trans plain), ownOf.2, sound.count, Tensor.type, described]
      rfl
    exact Run.transformLeaves size same rfl found fun bytes room => BroadcastPlan.fillBlocksOk sound
      ((Descriptor.layoutOk targetLayout).1.trans plain') targetLayout reaches all (room.trans length)
  · cases targetLayout.symm.trans layout
    exact Run.transformLeaves size same rfl found fun bytes room =>
      BroadcastPlan.fillElementsOk sound sourceLayout targetLayout reaches (room.trans length)

end

theorem runsAgree {p : BroadcastPlan} {m : Layout} (made : BroadcastPlan.ofInputs a inputs = .ok p)
    (plain : p.source.format = .plain) (layout : p.target.layout = .ok m) (validity : Validity) (team team' : Nat)
    (given outputs : List Tensor) :
    (BroadcastPlan.executeBlocks ⟨inputs.map Tensor.descriptor, [p.target], validity,
        .ofTeam (volume p.outerDims) team, .broadcast p⟩ given).run outputs =
      (BroadcastPlan.executeElements ⟨inputs.map Tensor.descriptor, [p.target], validity,
        .ofTeam m.physicalSize team', .broadcast p⟩ given).run outputs ∧
      (given.map Tensor.descriptor = inputs.map Tensor.descriptor → outputs.map Tensor.descriptor = [p.target] →
        ((BroadcastPlan.executeBlocks ⟨inputs.map Tensor.descriptor, [p.target], validity,
          .ofTeam (volume p.outerDims) team, .broadcast p⟩ given).run outputs).1 = .ok ()) := by
  refine Run.checkedAlike rfl rfl fun same ready => ?_
  obtain ⟨_, _, _, _, _, _, _, _, leaves⟩ := runsLeave made same validity
  exact ⟨_, leaves.blocks team plain outputs ready, leaves.elements m team' layout outputs ready⟩

end TensorPlan.BroadcastAttributes
