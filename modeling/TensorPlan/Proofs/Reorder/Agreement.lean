import TensorPlan.Element.UpperWord
import TensorPlan.Plan.Planning
import TensorPlan.Proofs.Elements
import TensorPlan.Proofs.Encoding
import TensorPlan.Proofs.Positions
import TensorPlan.Proofs.Tiling
import TensorPlan.Reorder.Execution
/-! Spans and single elements agree. Every position of the output has its bytes, the converted source
element with the same coordinates or zeros. The pass over the source writes them one after the other; the
spans write them in order, and where positions line up they convert what lies behind the last channel too,
which is zero in the output if it is zero in the source. -/
namespace TensorPlan
open Index (Within)

def Tensor.ZeroTails (t : Tensor) : Prop :=
  ∀ l, t.descriptor.layout = .ok l → ∀ position < l.physicalSize, l.holds (l.coordinates position) = false →
    Bytes.item t.type.size t.data position = Bytes.zeros t.type.size

section
variable [Widths]

namespace ReorderPlan

structure Sound (p : ReorderPlan) : Prop where
  dims : p.target.dims = p.source.dims
  supported : p.target.format.supportsRank p.target.dims.length = true
  mean : p.hasMean = true → ∃ n c spatial, p.source.dims = n :: c :: spatial ∧
    p.mean.length = if p.perElement then c * volume spatial else c

omit [Widths] in
theorem meanFits {mode : MeanMode} {count : Nat} {dims : List Nat} {perElement : Bool}
    (ok : meanPerElement mode count dims = .ok perElement) (used : mode ≠ .ignore) :
    ∃ n c spatial, dims = n :: c :: spatial ∧ count = if perElement then c * volume spatial else c := by
  unfold meanPerElement at ok
  rw [if_neg used] at ok
  match dims, ok with
  | n :: c :: spatial, ok =>
    refine ⟨n, c, spatial, rfl, ?_⟩
    simp only [ReorderAttributes.meanSizes?] at ok
    split at ok
    · rename_i perChannel; cases ok; exact perChannel
    · split at ok
      · rename_i each; cases ok; exact each
      · exact absurd ok Result.failNotOk
  | [], ok => exact absurd ok Result.failNotOk
  | [_], ok => exact absurd ok Result.failNotOk

theorem ofInputsSound {a : ReorderAttributes} {inputs : List Tensor} {p : ReorderPlan} {constant : Bool}
    (ok : ofInputs a inputs = .ok (p, constant)) :
    p.Sound ∧ ∃ data, inputs[0]? = some data ∧ data.descriptor = p.source := by
  simp only [ofInputs, Result.bindOk, Result.ofOptionOk, Result.ensureOk] at ok
  obtain ⟨data, found, _, supported, mean, _, perElement, fits, last⟩ := ok
  cases last
  refine ⟨⟨rfl, supported, fun used => meanFits fits ?_⟩, data, by rw [← List.head?_eq_getElem?, found], rfl⟩
  simpa [hasMean] using used

def converted (p : ReorderPlan) (bytes : Bytes) (coords : List Nat) : Bytes :=
  if p.hasMean then
    p.target.type.writeDouble p.rounding (p.meanMode.apply (p.source.type.readDouble bytes)
      ((p.meanAt? coords).getD (Binary.zero .double false)))
  else p.source.type.convert bytes p.target.type p.rounding

def cell (p : ReorderPlan) (l m : Layout) (source : Bytes) (position : Nat) : Bytes :=
  if m.holds (m.coordinates position) then
    p.converted (Bytes.item p.sourceSize source (l.offset (m.coordinates position))) (m.coordinates position)
  else Bytes.zeros p.targetSize

def output (p : ReorderPlan) (l m : Layout) (source : Bytes) : Bytes :=
  (List.range m.physicalSize).flatMap (p.cell l m source)

section
variable {p : ReorderPlan} {l m : Layout} {source bytes : Bytes} {position team : Nat} {coords : List Nat}

omit [Widths] in
theorem meanSome (sound : p.Sound) (used : p.hasMean = true) (within : Within coords p.source.dims) :
    ∃ x, p.meanAt? coords = some x := by
  obtain ⟨n, c, spatial, dims, count⟩ := sound.mean used
  rw [dims] at within
  obtain ⟨i, j, rest, joined, _, channel, inner⟩ := Index.withinChannels within
  unfold meanAt?
  rw [joined, dims]
  cases each : p.perElement with
  | false =>
    rw [each] at count
    exact ⟨_, List.getElem?_eq_getElem (by simpa [count] using channel)⟩
  | true =>
    rw [each] at count
    have below : j * volume spatial + dot rest (strides spatial) < p.mean.length := by
      rw [count]; exact digitsBelow channel (Index.dotBound inner)
    exact ⟨_, List.getElem?_eq_getElem below⟩

theorem elementOk (sound : p.Sound) (within : Within coords p.source.dims) (element : bytes.length = p.sourceSize) :
    p.element bytes coords = .ok (p.converted bytes coords) ∧ (p.converted bytes coords).length = p.targetSize := by
  unfold ReorderPlan.element converted
  cases used : p.hasMean with
  | false => exact ⟨rfl, ElementType.convertLength element _ _⟩
  | true =>
    obtain ⟨x, found⟩ := meanSome sound used within
    simp only [if_true, found, Result.orFaultSome, Result.okBind]
    exact ⟨rfl, ElementType.writeDoubleLength _ _ _⟩

omit [Widths] in
theorem positionWithin (sound : p.Sound) (targetLayout : p.target.layout = .ok m) (inside : position < m.physicalSize)
    (element : m.holds (m.coordinates position) = true) : Within (m.coordinates position) p.source.dims := by
  have within := (m.positionArranged inside).2.2 element
  rwa [(Descriptor.layoutOk targetLayout).2, sound.dims] at within

section
variable (sound : p.Sound) (sourceLayout : p.source.layout = .ok l) (targetLayout : p.target.layout = .ok m)
  (held : source.length = l.physicalSize * p.sourceSize)
include sound sourceLayout targetLayout held

theorem sourceElement (within : Within coords p.source.dims) :
    l.offset? coords = some (l.offset coords) ∧ m.offset? coords = some (m.offset coords) ∧
      m.offset coords < m.physicalSize ∧ m.coordinates (m.offset coords) = coords ∧
      m.holds coords = true ∧
      source.slice? (l.offset coords * p.sourceSize) p.sourceSize =
        some (Bytes.item p.sourceSize source (l.offset coords)) ∧
      p.element (Bytes.item p.sourceSize source (l.offset coords)) coords =
        .ok (p.converted (Bytes.item p.sourceSize source (l.offset coords)) coords) ∧
      (p.converted (Bytes.item p.sourceSize source (l.offset coords)) coords).length = p.targetSize := by
  have sourceOf := Descriptor.layoutOk sourceLayout
  have targetOf := Descriptor.layoutOk targetLayout
  have first : Within coords l.dims := by rwa [sourceOf.2]
  have second : Within coords m.dims := by rwa [targetOf.2, sound.dims]
  have bound : (l.offset coords + 1) * p.sourceSize ≤ source.length := by
    rw [held]; exact Nat.mul_le_mul_right _ (l.offsetInside first)
  obtain ⟨made, size⟩ := elementOk sound within (Bytes.itemLength bound)
  exact ⟨l.offsetSome (Index.withinLength first), m.offsetSome (Index.withinLength second), m.offsetInside second,
    m.coordinatesOffset second, m.holdsWithin second, Bytes.sliceItem bound, made, size⟩

theorem positionOk (inside : position < m.physicalSize) :
    p.atPosition l m source position = .ok (p.cell l m source position) ∧
      (p.cell l m source position).length = p.targetSize := by
  unfold atPosition cell
  simp only [m.coordinatesSome inside, Result.orFaultSome, Result.okBind]
  cases element : m.holds (m.coordinates position) with
  | false => exact ⟨rfl, Bytes.zerosLength _⟩
  | true =>
    have within := positionWithin sound targetLayout inside element
    obtain ⟨origin, _, _, _, _, slice, made, size⟩ := sourceElement sound sourceLayout targetLayout held within
    simp only [Bool.not_true, Bool.false_eq_true, if_false, origin, Result.orFaultSome, Result.okBind, slice, made,
      if_true]
    exact ⟨trivial, size⟩

theorem outputLength : (p.output l m source).length = m.physicalSize * p.targetSize := by
  apply Bytes.rangeLength
  intro position inside
  exact (positionOk sound sourceLayout targetLayout held inside).2

def written (p : ReorderPlan) (l m : Layout) (source : Bytes) (count position : Nat) : Bytes :=
  if m.holds (m.coordinates position) ∧ dot (m.coordinates position) (strides p.source.dims) < count then
    p.cell l m source position
  else Bytes.zeros p.targetSize

theorem writtenLength {count : Nat} (inside : position < m.physicalSize) :
    (p.written l m source count position).length = p.targetSize := by
  unfold written
  split
  · exact (positionOk sound sourceLayout targetLayout held inside).2
  · exact Bytes.zerosLength _

theorem writtenNext {k : Nat} (inside : k < p.source.count) (below : position < m.physicalSize) :
    p.written l m source (k + 1) position =
      if position = m.offset (Index.ofPosition p.source.dims k) then
        p.converted (Bytes.item p.sourceSize source (l.offset (Index.ofPosition p.source.dims k)))
          (Index.ofPosition p.source.dims k)
      else p.written l m source k position := by
  have within := Index.ofPositionWithin (volumeFull inside) k
  obtain ⟨_, _, _, back, element, _⟩ := sourceElement sound sourceLayout targetLayout held within
  by_cases goal : position = m.offset (Index.ofPosition p.source.dims k)
  · have place : dot (Index.ofPosition p.source.dims k) (strides p.source.dims) < k + 1 := by
      rw [Index.dotOfPosition inside]; omega
    rw [if_pos goal, written, goal, back, if_pos ⟨element, place⟩, cell, back, if_pos element]
  · rw [if_neg goal, written, written]
    by_cases holds : m.holds (m.coordinates position) = true
    · have other : dot (m.coordinates position) (strides p.source.dims) ≠ k := by
        intro same
        have coords := positionWithin sound targetLayout below holds
        have back := Index.ofPositionDot coords
        rw [same] at back
        exact goal (by rw [back, m.offsetCoordinates below])
      have step : dot (m.coordinates position) (strides p.source.dims) < k + 1 ↔
          dot (m.coordinates position) (strides p.source.dims) < k := by omega
      simp only [holds, step]
    · simp only [holds, Bool.false_eq_true, false_and, if_false]

theorem scatterOk {count k : Nat} (rest : k + count = p.source.count) :
    p.scatter l m source count (Index.ofPosition p.source.dims k)
      ((List.range m.physicalSize).flatMap (p.written l m source k)) =
      .ok ((List.range m.physicalSize).flatMap (p.written l m source (k + count))) := by
  -- The buffer holds the first `k` elements and zeros elsewhere; one step makes it hold one more.
  induction count generalizing k with
  | zero => rfl
  | succ count ih =>
    have inside : k < p.source.count := by omega
    have full : 0 ∉ p.source.dims := volumeFull inside
    obtain ⟨origin, goal, below, _, _, slice, made, size⟩ :=
      sourceElement sound sourceLayout targetLayout held (Index.ofPositionWithin full k)
    have sizes : ∀ position < m.physicalSize, (p.written l m source k position).length = p.targetSize :=
      fun position inside => writtenLength sound sourceLayout targetLayout held inside
    have patched := Bytes.patchJoined sizes below size
    have next : ((List.range m.physicalSize).flatMap fun position =>
        if position = m.offset (Index.ofPosition p.source.dims k) then
          p.converted (Bytes.item p.sourceSize source (l.offset (Index.ofPosition p.source.dims k)))
            (Index.ofPosition p.source.dims k)
        else p.written l m source k position) =
        (List.range m.physicalSize).flatMap (p.written l m source (k + 1)) :=
      List.flatMap_congr fun position member =>
        (writtenNext sound sourceLayout targetLayout held inside (List.mem_range.mp member)).symm
    rw [next] at patched
    simp only [scatter, origin, goal, slice, made, patched, Result.orFaultSome, Result.okBind,
      Index.nextOfPosition full]
    rw [ih (by omega), Nat.add_assoc, Nat.add_comm 1]

theorem fillElementsOk (room : bytes.length = m.physicalSize * p.targetSize) :
    p.fillElements source bytes = .ok (p.output l m source) := by
  have start := scatterOk sound sourceLayout targetLayout held (Nat.zero_add p.source.count)
  have zeros : (List.range m.physicalSize).flatMap (p.written l m source 0) = Bytes.zeros bytes.length := by
    rw [room, Bytes.zerosItems]
    exact List.flatMap_congr fun position _ => if_neg (by omega)
  have all : (List.range m.physicalSize).flatMap (p.written l m source p.source.count) = p.output l m source := by
    refine List.flatMap_congr fun position member => ?_
    have inside := List.mem_range.mp member
    unfold written
    by_cases holds : m.holds (m.coordinates position) = true
    · have coords := positionWithin sound targetLayout inside holds
      rw [if_pos ⟨holds, Index.dotBound coords⟩]
    · rw [if_neg fun both => holds both.1, cell, if_neg holds]
  rw [zeros, Nat.zero_add, all, Index.ofPositionZero] at start
  simp only [fillElements, sourceLayout, targetLayout, Result.okBind]
  exact start

end

def linesUp (p : ReorderPlan) : Bool := p.source.format == p.target.format && !p.hasMean

def spanOutput (p : ReorderPlan) (l m : Layout) (source : Bytes) : Bytes :=
  if p.linesUp then
    (List.range m.physicalSize).flatMap fun position =>
      p.source.type.convert (Bytes.item p.sourceSize source position) p.target.type p.rounding
  else p.output l m source

omit [Widths] in
theorem linesUpOk : p.linesUp = true ↔ p.source.format = p.target.format ∧ p.hasMean = false := by
  simp only [linesUp, Bool.and_eq_true, beq_iff_eq, Bool.not_eq_true']

omit [Widths] in
theorem sameLayout (sound : p.Sound) (sourceLayout : p.source.layout = .ok l) (targetLayout : p.target.layout = .ok m)
    (same : p.source.format = p.target.format) : l = m := by
  have sourceOf := Descriptor.layoutOk sourceLayout
  have targetOf := Descriptor.layoutOk targetLayout
  have formats : l.format = m.format := by rw [sourceOf.1, same, targetOf.1]
  have dims : l.dims = m.dims := by rw [sourceOf.2, ← sound.dims, targetOf.2]
  cases l; cases m
  cases formats; cases dims
  rfl

def spanCell (p : ReorderPlan) (l m : Layout) (source : Bytes) (position : Nat) : Bytes :=
  if p.linesUp then p.source.type.convert (Bytes.item p.sourceSize source position) p.target.type p.rounding
  else p.cell l m source position

theorem spanOutputCells : p.spanOutput l m source = (List.range m.physicalSize).flatMap (p.spanCell l m source) := by
  unfold spanOutput spanCell
  split <;> rfl

theorem spanCellHeld (sound : p.Sound) (sourceLayout : p.source.layout = .ok l) (targetLayout : p.target.layout = .ok m)
    (inside : position < m.physicalSize) (element : m.holds (m.coordinates position) = true) :
    p.spanCell l m source position = p.cell l m source position := by
  unfold spanCell
  split
  · rename_i up
    obtain ⟨same, plain⟩ := linesUpOk.mp up
    cases sameLayout sound sourceLayout targetLayout same
    rw [cell, if_pos element, l.offsetCoordinates inside, ReorderPlan.converted, plain, if_neg Bool.false_ne_true]
  · rfl

theorem spanOutputEq (sound : p.Sound) (sourceLayout : p.source.layout = .ok l) (targetLayout : p.target.layout = .ok m)
    (tails : ∀ position < l.physicalSize, l.holds (l.coordinates position) = false →
    Bytes.item p.sourceSize source position = Bytes.zeros p.sourceSize) :
    p.spanOutput l m source = p.output l m source := by
  rw [spanOutputCells, output]
  refine List.flatMap_congr fun position member => ?_
  have inside := List.mem_range.mp member
  cases element : m.holds (m.coordinates position) with
  | true => exact spanCellHeld sound sourceLayout targetLayout inside element
  | false =>
    rw [cell, element, if_neg Bool.false_ne_true, spanCell]
    split
    · rename_i up
      cases sameLayout sound sourceLayout targetLayout (linesUpOk.mp up).1
      rw [tails position inside element]
      exact ElementType.convertZeros _ _ _
    · rw [cell, element, if_neg Bool.false_ne_true]

theorem spansOfZeroTails {t : Tensor} (sound : p.Sound) (sourceLayout : p.source.layout = .ok l)
    (targetLayout : p.target.layout = .ok m) (described : t.descriptor = p.source) (tails : t.ZeroTails) :
    p.spanOutput l m t.data = p.output l m t.data := by
  have width : t.type.size = p.sourceSize := by rw [Tensor.type, described]; rfl
  refine spanOutputEq sound sourceLayout targetLayout fun position inside behind => ?_
  rw [← width]
  exact tails l (by rw [described]; exact sourceLayout) position inside behind

omit [Widths] in
theorem sourceSpanEq (p : ReorderPlan) (source : Bytes) (s : Span) : p.sourceSpan source s =
    if (s.start + s.length) * p.sourceSize ≤ source.length then
      .ok (s.items.flatMap (Bytes.item p.sourceSize source))
    else .fault := by
  unfold sourceSpan
  split
  · rename_i inside
    rw [Bytes.sliceItems inside, Span.items]
    rfl
  · rename_i outside
    rw [Nat.add_mul] at outside
    rw [Bytes.slice?, if_neg outside]
    rfl

theorem convertSpanEq (p : ReorderPlan) (source : Bytes) (s : Span) : p.convertSpan source s =
    if (s.start + s.length) * p.sourceSize ≤ source.length then
      .ok (s.items.flatMap fun i =>
        p.source.type.convert (Bytes.item p.sourceSize source i) p.target.type p.rounding)
    else .fault := by
  have positive : 0 < p.sourceSize := ElementType.sizePositive p.source.type
  rw [convertSpan, sourceSpanEq]
  split
  · rename_i inside
    simp only [Result.okBind, Result.pureOk, Span.items, Bytes.piecesRun positive inside, ← List.flatMap_def,
      List.flatMap_map]
  · rfl

section
variable (sound : p.Sound) (sourceLayout : p.source.layout = .ok l) (targetLayout : p.target.layout = .ok m)
  (held : source.length = l.physicalSize * p.sourceSize)
include sound sourceLayout targetLayout held

omit [Widths] in
theorem spanInside (same : p.source.format = p.target.format) {s : Span} (order : s.start ≤ s.stop)
    (inside : s.stop ≤ m.physicalSize) : (s.start + s.length) * p.sourceSize ≤ source.length := by
  rw [held, sameLayout sound sourceLayout targetLayout same]
  exact Nat.mul_le_mul_right _ (by unfold Span.length; omega)

theorem convertedLength (same : p.source.format = p.target.format) (inside : position < m.physicalSize) :
    (p.source.type.convert (Bytes.item p.sourceSize source position) p.target.type p.rounding).length = p.targetSize := by
  apply ElementType.convertLength
  apply Bytes.itemLength
  rw [held, sameLayout sound sourceLayout targetLayout same]
  exact Nat.mul_le_mul_right _ inside

theorem fillOk (room : bytes.length = m.physicalSize * p.targetSize) :
    p.fill (.ofTeam m.physicalSize team) source bytes = .ok (p.spanOutput l m source) := by
  unfold fill spanOutput
  by_cases copy : p.isCopy = true
  · rw [if_pos copy]
    simp only [isCopy, Bool.and_eq_true, Bool.not_eq_true', beq_iff_eq] at copy
    obtain ⟨⟨plain, types⟩, formats⟩ := copy
    rw [if_pos (linesUpOk.mpr ⟨formats, plain⟩)]
    apply Partition.overwriteOk room fun position inside =>
      convertedLength sound sourceLayout targetLayout held formats inside
    intro s piece order inside _
    rw [sourceSpanEq, if_pos (spanInside sound sourceLayout targetLayout held formats order inside)]
    refine congrArg Except.ok (List.flatMap_congr fun position _ => ?_)
    rw [ElementType.convert, if_pos types]
  · rw [if_neg copy]
    by_cases up : p.source.format = p.target.format ∧ !p.hasMean
    · have up' : p.linesUp = true := by simpa [linesUp] using up
      rw [if_pos up, if_pos up']
      apply Partition.overwriteOk room fun position inside =>
        convertedLength sound sourceLayout targetLayout held up.1 inside
      intro s piece order inside _
      exact (convertSpanEq p source s).trans (if_pos (spanInside sound sourceLayout targetLayout held up.1 order inside))
    · have up' : ¬ p.linesUp = true := by simpa [linesUp] using up
      rw [if_neg up, if_neg up']
      simp only [sourceLayout, targetLayout, Result.okBind]
      exact Partition.overwriteEachOk room fun position inside => positionOk sound sourceLayout targetLayout held inside

theorem spanCellLength (inside : position < m.physicalSize) : (p.spanCell l m source position).length = p.targetSize := by
  unfold spanCell
  split
  · rename_i up
    exact convertedLength sound sourceLayout targetLayout held (linesUpOk.mp up).1 inside
  · exact (positionOk sound sourceLayout targetLayout held inside).2

theorem spanOutputLength : (p.spanOutput l m source).length = m.physicalSize * p.targetSize := by
  rw [spanOutputCells]
  exact Bytes.rangeLength fun position inside => spanCellLength sound sourceLayout targetLayout held inside

end
end

structure Leaves (p : ReorderPlan) (inputs : List Descriptor) (validity : Validity) (given : List Tensor)
    (fast slow : Tensor) : Prop where
  spans : ∀ m team, p.target.layout = .ok m → Run.Leaves (execute ⟨inputs, [p.target], validity,
    .ofTeam m.physicalSize team, .reorder p⟩ given) [p.target] [fast]
  elements : ∀ partition, Run.Leaves (executeElements ⟨inputs, [p.target], validity, partition, .reorder p⟩ given)
    [p.target] [slow]

end ReorderPlan

namespace ReorderAttributes
variable {a : ReorderAttributes} {inputs : List Tensor} {context : PlanContext} {plan : ExecutionPlan}

theorem planCases (ok : a.plan inputs context = .ok plan) : ∃ p constant m team,
    ReorderPlan.ofInputs a inputs = .ok (p, constant) ∧ p.target.layout = .ok m ∧
      plan = ⟨inputs.map Tensor.descriptor, [p.target], .ofLasting constant, .ofTeam m.physicalSize team, .reorder p⟩ := by
  simp only [ReorderAttributes.plan, Result.bindOk] at ok
  obtain ⟨⟨p, constant⟩, made, m, layout, last⟩ := ok
  cases last
  exact ⟨p, constant, m, _, made, layout, rfl⟩

theorem planElementsCases (ok : a.planElements inputs = .ok plan) : ∃ p constant,
    ReorderPlan.ofInputs a inputs = .ok (p, constant) ∧
      plan = ⟨inputs.map Tensor.descriptor, [p.target], .ofLasting constant, .single p.source.count, .reorder p⟩ := by
  simp only [ReorderAttributes.planElements, Result.bindOk] at ok
  obtain ⟨⟨p, constant⟩, made, last⟩ := ok
  cases last
  exact ⟨p, constant, made, rfl⟩

section
variable {p : ReorderPlan} {constant : Bool} (made : ReorderPlan.ofInputs a inputs = .ok (p, constant))
include made

theorem planElementsOk : a.planElements inputs =
    .ok ⟨inputs.map Tensor.descriptor, [p.target], .ofLasting constant, .single p.source.count, .reorder p⟩ := by
  simp only [planElements, made, Result.okBind]; rfl

theorem planOk (context : PlanContext) : ∃ m, p.target.layout = .ok m ∧ a.plan inputs context =
    .ok ⟨inputs.map Tensor.descriptor, [p.target], .ofLasting constant, .ofTeam m.physicalSize context.team,
      .reorder p⟩ := by
  have targetLayout := Descriptor.layoutSupported (ReorderPlan.ofInputsSound made).1.supported
  exact ⟨_, targetLayout, by simp only [ReorderAttributes.plan, made, targetLayout, Result.okBind]; rfl⟩

end

section
variable {p : ReorderPlan} {constant : Bool} (made : ReorderPlan.ofInputs a inputs = .ok (p, constant))
  {given : List Tensor} (same : given.map Tensor.descriptor = inputs.map Tensor.descriptor)
include made same

theorem planSource : p.Sound ∧ ∃ source l m, given[0]? = some source ∧ source.descriptor = p.source ∧
    p.source.layout = .ok l ∧ p.target.layout = .ok m ∧ source.data.length = l.physicalSize * p.sourceSize := by
  obtain ⟨sound, data, first, described⟩ := ReorderPlan.ofInputsSound made
  obtain ⟨source, l, found, descriptor, sourceLayout, held⟩ := Tensor.plannedSource first same
  rw [described] at descriptor sourceLayout held
  exact ⟨sound, source, l, _, found, descriptor, sourceLayout, Descriptor.layoutSupported sound.supported, held⟩

theorem runsLeave (validity : Validity) : ∃ source l m size size', given[0]? = some source ∧
    source.descriptor = p.source ∧ p.source.layout = .ok l ∧ p.target.layout = .ok m ∧
    source.data.length = l.physicalSize * p.sourceSize ∧ p.Leaves (inputs.map Tensor.descriptor) validity given
      ⟨p.target, p.spanOutput l m source.data, size⟩ ⟨p.target, p.output l m source.data, size'⟩ := by
  obtain ⟨sound, source, l, m, found, described, sourceLayout, targetLayout, held⟩ := planSource made same
  have length := ReorderPlan.spanOutputLength sound sourceLayout targetLayout held
  have length' := ReorderPlan.outputLength sound sourceLayout targetLayout held
  have size : p.target.byteSize? = some (p.spanOutput l m source.data).length := by
    rw [Descriptor.layoutSize targetLayout, length]; rfl
  have size' : p.target.byteSize? = some (p.output l m source.data).length := by
    rw [Descriptor.layoutSize targetLayout, length']; rfl
  refine ⟨source, l, m, size, size', found, described, sourceLayout, targetLayout, held, fun m' team layout => ?_,
    fun partition => ?_⟩
  · cases targetLayout.symm.trans layout
    exact Run.transformLeaves size same rfl found fun bytes room =>
      ReorderPlan.fillOk sound sourceLayout targetLayout held (room.trans length)
  · exact Run.transformLeaves size' same rfl found fun bytes room =>
      ReorderPlan.fillElementsOk sound sourceLayout targetLayout held (room.trans length')

end

theorem runsSettle {p : ReorderPlan} {constant : Bool} (made : ReorderPlan.ofInputs a inputs = .ok (p, constant))
    (validity : Validity) {given outputs : List Tensor} (same : given.map Tensor.descriptor = inputs.map Tensor.descriptor)
    (ready : outputs.map Tensor.descriptor = [p.target]) : ∃ source fast slow, given[0]? = some source ∧
      (∀ m team, p.target.layout = .ok m → (ReorderPlan.execute ⟨inputs.map Tensor.descriptor, [p.target], validity,
        .ofTeam m.physicalSize team, .reorder p⟩ given).run outputs = (Except.ok (), [fast])) ∧
      (∀ partition, (ReorderPlan.executeElements ⟨inputs.map Tensor.descriptor, [p.target], validity, partition,
        .reorder p⟩ given).run outputs = (Except.ok (), [slow])) ∧
      fast.descriptor = p.target ∧ slow.descriptor = p.target ∧
      (∀ coords, Within coords p.target.dims →
        ∃ element, fast.element? coords = some element ∧ slow.element? coords = some element) ∧
      (source.ZeroTails → fast = slow) := by
  have sound := (planSource made same).1
  obtain ⟨source, l, m, size, size', found, described, sourceLayout, targetLayout, held, leaves⟩ :=
    runsLeave made same validity
  refine ⟨source, ⟨p.target, _, size⟩, ⟨p.target, _, size'⟩, found, fun m' team layout => leaves.spans m' team layout _ ready,
    fun partition => leaves.elements partition _ ready, rfl, rfl, fun coords within => ?_, fun tails => ?_⟩
  · have here : Within coords m.dims := by rw [(Descriptor.layoutOk targetLayout).2]; exact within
    have element : m.holds (m.coordinates (m.offset coords)) = true := by
      rw [m.coordinatesOffset here]; exact m.holdsWithin here
    have spans := @Tensor.elementOfCells ⟨p.target, _, size⟩ m coords _ targetLayout ReorderPlan.spanOutputCells
      (fun position inside => ReorderPlan.spanCellLength sound sourceLayout targetLayout held inside) within
    have elements := @Tensor.elementOfCells ⟨p.target, _, size'⟩ m coords _ targetLayout rfl
      (fun position inside => (ReorderPlan.positionOk sound sourceLayout targetLayout held inside).2) within
    rw [ReorderPlan.spanCellHeld sound sourceLayout targetLayout (m.offsetInside here) element] at spans
    exact ⟨_, spans, elements⟩
  · exact Tensor.same rfl (ReorderPlan.spansOfZeroTails sound sourceLayout targetLayout described tails)

end ReorderAttributes
end

namespace ReorderAttributes

end ReorderAttributes
end TensorPlan
