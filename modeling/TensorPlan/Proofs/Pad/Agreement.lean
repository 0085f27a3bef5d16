import TensorPlan.Element.UpperWord
import TensorPlan.Proofs.Pad.Arranged
import TensorPlan.Proofs.Pad.Folding
/-! Rows and elements agree. Whatever walk a plan takes, it writes the bytes of the output that filling
element by element writes, so both ways of padding have the same runs. -/
namespace TensorPlan
open Index (Within)

section
variable [Widths]

namespace PadRequest
variable {r : PadRequest} {l m : Layout} {source : Bytes} {position : Nat}

def planOf (r : PadRequest) (axes : List PadAxis) (walk : PadWalk) : PadPlan :=
  ⟨r.mode, r.source.type.size, r.source.type.encode r.value, axes, walk⟩

def axes (r : PadRequest) (l m : Layout) : List PadAxis :=
  PadAxis.list (Layout.arrange l.format r.before) (Layout.arrange l.format r.after) l.blockDims m.blockDims l.strides
    m.strides

omit [Widths] in
theorem Arranged.axesRegular (arranged : r.Arranged l m) (format : l.format = r.source.format) (full : 0 ∉ l.blockDims) :
    PadAxis.Regular r.mode (r.axes l m) ∧ (r.axes l m).map PadAxis.source = l.blockDims ∧
      (r.axes l m).map PadAxis.target = m.blockDims := by
  unfold axes
  rw [format, Layout.strides, Layout.strides, arranged.target]
  exact PadAxis.listRegular arranged.fills full

theorem Arranged.cellEq (arranged : r.Arranged l m) (sound : r.Sound) (sourceLayout : r.source.layout = .ok l)
    (targetLayout : r.target.layout = .ok m) (full : 0 ∉ l.blockDims) (inside : position < m.physicalSize) :
    r.cell l m source position =
      match PadPlan.rowStart r.mode (r.axes l m) (Index.ofPosition m.blockDims position) with
      | none => r.source.type.encode r.value
      | some start => Bytes.item r.source.type.size source start := by
  have sourceOf := Descriptor.layoutOk sourceLayout
  have targetOf := Descriptor.layoutOk targetLayout
  rw [sound.target] at targetOf
  rw [l.emptyAxes, sourceOf.2] at full
  have physical : 0 ∉ l.blockDims := by rwa [l.emptyAxes, sourceOf.2]
  obtain ⟨index, length, element⟩ := m.positionArranged inside
  have within := Index.ofPositionWithin (m.physicalFull inside) position
  rw [index, targetOf.1] at within
  have held := arranged.holds _ length within
  have coords := element held
  have start : PadPlan.rowStart r.mode (r.axes l m) (Index.ofPosition m.blockDims position) =
      (r.mode.sourceIndices (m.coordinates position) r.before r.source.dims).map l.offset := by
    have same : (Index.ofPosition m.blockDims position).length = l.blockDims.length := by
      have lengths := PadMode.fillsLength arranged.fills
      rw [Index.ofPositionLength, arranged.target, paddedLength lengths.1 lengths.2]
    have row := PadPlan.rowStartList arranged.fills physical same
    rw [← arranged.target] at row
    unfold axes
    rw [sourceOf.1, Layout.strides, Layout.strides, row, index, targetOf.1, arranged.indices _ coords, sourceOf.2,
      Option.map_map]
    apply Option.map_congr
    intro js found
    have reached := sound.sourceElement sourceLayout targetLayout full coords found
    rw [l.offsetArranged (Index.withinLength reached), sourceOf.1]
    rfl
  have filled : r.zeroInput = false := by simp [zeroInput, full]
  rw [cell, held, filled, start]
  cases r.mode.sourceIndices (m.coordinates position) r.before r.source.dims <;> rfl

end PadRequest

namespace PadPlan
variable {r : PadRequest} {p : PadPlan} {l m : Layout} {source bytes : Bytes} {team : Nat}

theorem ofRequestSome (groups : checkGroups r = .ok ()) (sourceLayout : r.source.layout = .ok l)
    (targetLayout : r.target.layout = .ok m) : ∃ p, ofRequest r = .ok p := by
  unfold ofRequest
  simp only [groups, sourceLayout, targetLayout, Result.okBind]
  split
  · exact ⟨_, rfl⟩
  · split
    · exact ⟨_, rfl⟩
    · split <;> exact ⟨_, rfl⟩

theorem ofRequestCases (sourceLayout : r.source.layout = .ok l) (targetLayout : r.target.layout = .ok m)
    (planned : ofRequest r = .ok p) :
    checkGroups r = .ok () ∧
      ((0 ∈ l.blockDims ∧ 0 ∉ m.blockDims ∧ p = r.planOf (r.axes l m) (.fill m.physicalSize)) ∨
        (¬(0 ∈ l.blockDims ∧ 0 ∉ m.blockDims) ∧ (r.axes l m = [] ∨ 0 ∈ m.blockDims) ∧
          p = r.planOf (r.axes l m) (.copy m.physicalSize)) ∨
        (0 ∉ l.blockDims ∧ r.axes l m ≠ [] ∧ ∃ beforeFirst last outer,
          walkRows (r.axes l m) = .rows beforeFirst last outer ∧
            p = r.planOf (folded (r.axes l m) beforeFirst) (.rows beforeFirst last outer))) := by
  unfold ofRequest at planned
  simp only [Result.bindOk, sourceLayout, targetLayout, Result.okBind] at planned
  obtain ⟨_, groups, planned⟩ := planned
  refine ⟨groups, ?_⟩
  split at planned
  · rename_i empty
    cases planned
    exact .inl ⟨empty.1, empty.2, rfl⟩
  · rename_i filled
    split at planned
    · rename_i trivial
      cases planned
      exact .inr (.inl ⟨filled, trivial, rfl⟩)
    · rename_i walked
      simp only [not_or] at walked
      have full : 0 ∉ l.blockDims := fun empty => filled ⟨empty, walked.2⟩
      split at planned
      · rename_i beforeFirst last outer walk
        cases planned
        exact .inr (.inr ⟨full, walked.1, beforeFirst, last, outer, walk, rfl⟩)
      · rename_i other
        exact absurd rfl (other _ _ _)

theorem fillConstant (axes : List PadAxis) {total : Nat} (room : bytes.length = total * r.source.type.size) :
    (r.planOf axes (.fill total)).fill (.ofTeam total team) source bytes =
      .ok ((List.range total).flatMap fun _ => r.source.type.encode r.value) := by
  apply Partition.overwriteOk room fun _ _ => ElementType.encodeLength r.source.type r.value
  intro s piece _ _ _
  rw [Bytes.repeatedItems s.length s.start, Span.items]
  rfl

section
variable (sound : r.Sound) (sourceLayout : r.source.layout = .ok l) (targetLayout : r.target.layout = .ok m)
  (arranged : r.Arranged l m) (held : source.length = l.physicalSize * r.source.type.size)
  (room : bytes.length = m.physicalSize * r.source.type.size)
include sound sourceLayout targetLayout arranged

theorem outputConstant (empty : 0 ∈ l.blockDims) (filled : 0 ∉ m.blockDims) :
    r.output l m source = (List.range m.physicalSize).flatMap fun _ => r.source.type.encode r.value := by
  have sourceOf := Descriptor.layoutOk sourceLayout
  have targetOf := Descriptor.layoutOk targetLayout
  rw [l.emptyAxes, sourceOf.2] at empty
  have full := filled
  rw [m.emptyAxes, targetOf.2] at filled
  apply List.flatMap_congr
  intro position member
  obtain ⟨index, length, _⟩ := m.positionArranged (List.mem_range.mp member)
  have within := Index.ofPositionWithin full position
  rw [index, targetOf.1, sound.target] at within
  simp [PadRequest.cell, arranged.holds _ length within, PadRequest.zeroInput, empty, filled]

include held room

theorem fillCopied (partition : Partition) (axes : List PadAxis) (total : Nat)
    (filled : ¬(0 ∈ l.blockDims ∧ 0 ∉ m.blockDims)) (trivial : r.axes l m = [] ∨ 0 ∈ m.blockDims) :
    (r.planOf axes (.copy total)).fill partition source bytes = .ok (r.output l m source) := by
  have sourceOf := Descriptor.layoutOk sourceLayout
  change Except.ok (source.take bytes.length ++ bytes.drop source.length) = _
  by_cases none : 0 ∈ m.blockDims
  · have nothing : m.physicalSize = 0 := volumeZero.mpr none
    rw [nothing, Nat.zero_mul] at room
    simp [PadRequest.output, nothing, List.length_eq_zero_iff.mp room]
  · have full : 0 ∉ l.blockDims := fun empty => filled ⟨empty, none⟩
    obtain ⟨_, sources, targets⟩ := arranged.axesRegular sourceOf.1 full
    have bare : r.axes l m = [] := trivial.resolve_right none
    rw [bare] at sources targets
    have one : l.physicalSize = 1 := by rw [Layout.physicalSize, ← sources]; rfl
    have alone : m.physicalSize = 1 := by rw [Layout.physicalSize, ← targets]; rfl
    have cell : r.cell l m source 0 = _ := arranged.cellEq sound sourceLayout targetLayout full (by omega)
    simp only [bare, ← targets, List.map_nil, Index.ofPosition, rowStart] at cell
    rw [one, Nat.one_mul] at held
    rw [alone, Nat.one_mul] at room
    simp [PadRequest.output, alone, cell, Bytes.item, held, room]

theorem fillWalked (full : 0 ∉ l.blockDims) (filled : r.axes l m ≠ []) {beforeFirst : Int} {last outer : Nat}
    (walk : walkRows (r.axes l m) = .rows beforeFirst last outer) :
    (r.planOf (folded (r.axes l m) beforeFirst) (.rows beforeFirst last outer)).fill
      (.ofTeam (r.planOf (folded (r.axes l m) beforeFirst) (.rows beforeFirst last outer)).work team) source bytes =
      .ok (r.output l m source) := by
  obtain ⟨regular, sources, targets⟩ := arranged.axesRegular (Descriptor.layoutOk sourceLayout).1 full
  obtain ⟨⟨front, a, inner, rows⟩, sourceVolume, targetVolume, same⟩ :=
    walkRowWise regular filled (ElementType.encodeLength r.source.type r.value) walk
  rw [sources] at sourceVolume
  rw [targets] at targetVolume same
  refine (rows.fillOk (held.trans (congrArg (· * _) sourceVolume.symm))
    (room.trans (congrArg (· * _) targetVolume.symm))).trans (congrArg Except.ok ?_)
  rw [targetVolume]
  apply List.flatMap_congr
  intro position member
  have inside := List.mem_range.mp member
  have read : r.cell l m source position = _ := arranged.cellEq sound sourceLayout targetLayout full inside
  rw [← same position inside] at read
  exact read.symm

end

theorem fillPlanned (sound : r.Sound) (sourceLayout : r.source.layout = .ok l) (targetLayout : r.target.layout = .ok m)
    (planned : ofRequest r = .ok p) (held : source.length = l.physicalSize * r.source.type.size)
    (room : bytes.length = m.physicalSize * r.source.type.size) :
    p.fill (.ofTeam p.work team) source bytes = .ok (r.output l m source) := by
  obtain ⟨groups, made⟩ := ofRequestCases sourceLayout targetLayout planned
  have arranged := sound.arranged groups sourceLayout targetLayout
  obtain ⟨empty, filled, plan⟩ | ⟨filled, trivial, plan⟩ | ⟨full, filled, _, _, _, walk, plan⟩ := made
  · rw [plan, outputConstant sound sourceLayout targetLayout arranged empty filled]
    exact fillConstant _ room
  · rw [plan]
    exact fillCopied sound sourceLayout targetLayout arranged held room _ _ _ filled trivial
  · rw [plan]
    exact fillWalked sound sourceLayout targetLayout arranged held room full filled walk

end PadPlan

structure PadRequest.Leaves (r : PadRequest) (inputs : List Descriptor) (validity : Validity) (given : List Tensor)
    (t : Tensor) : Prop where
  rows : ∀ p team, PadPlan.ofRequest r = .ok p →
    Run.Leaves (PadPlan.execute ⟨inputs, [r.target], validity, .ofTeam p.work team, .pad p⟩ given) [r.target] [t]
  elements : ∀ m team, r.target.layout = .ok m → Run.Leaves (PadRequest.execute ⟨inputs, [r.target], validity,
    .ofTeam m.physicalSize team, .padElements r⟩ given) [r.target] [t]

namespace PadAttributes
variable {a : PadAttributes} {inputs : List Tensor} {context : PlanContext} {plan : ExecutionPlan}

theorem planCases (ok : a.plan inputs context = .ok plan) : ∃ r p team, PadRequest.ofInputs a inputs = .ok r ∧
    PadPlan.ofRequest r = .ok p ∧
      plan = ⟨inputs.map Tensor.descriptor, [r.target], a.validity, .ofTeam p.work team, .pad p⟩ := by
  simp only [PadAttributes.plan, Result.bindOk] at ok
  obtain ⟨r, request, p, planned, last⟩ := ok
  cases last
  exact ⟨r, p, _, request, planned, rfl⟩

theorem planElementsCases (ok : a.planElements inputs context = .ok plan) : ∃ r m team,
    PadRequest.ofInputs a inputs = .ok r ∧ r.target.layout = .ok m ∧
      plan = ⟨inputs.map Tensor.descriptor, [r.target], a.validity, .ofTeam m.physicalSize team, .padElements r⟩ := by
  simp only [PadAttributes.planElements, Result.bindOk] at ok
  obtain ⟨r, request, m, layout, last⟩ := ok
  cases last
  exact ⟨r, m, _, request, layout, rfl⟩

section
variable {r : PadRequest} (request : PadRequest.ofInputs a inputs = .ok r)
include request

theorem planElementsOk (context : PlanContext) : ∃ m, r.target.layout = .ok m ∧ a.planElements inputs context =
    .ok ⟨inputs.map Tensor.descriptor, [r.target], a.validity, .ofTeam m.physicalSize context.team, .padElements r⟩ := by
  obtain ⟨sound, data, _, described⟩ := PadRequest.ofInputsSound request
  obtain ⟨l, sourceLayout, _⟩ := data.layoutFits
  rw [described] at sourceLayout
  obtain ⟨m, targetLayout⟩ := sound.targetLayout sourceLayout
  exact ⟨m, targetLayout, by simp only [planElements, request, targetLayout, Result.okBind]; rfl⟩

theorem planOk (groups : PadPlan.checkGroups r = .ok ()) (context : PlanContext) : ∃ p team,
    a.plan inputs context =
      .ok ⟨inputs.map Tensor.descriptor, [r.target], a.validity, .ofTeam p.work team, .pad p⟩ := by
  obtain ⟨sound, data, _, described⟩ := PadRequest.ofInputsSound request
  obtain ⟨l, sourceLayout, _⟩ := data.layoutFits
  rw [described] at sourceLayout
  obtain ⟨m, targetLayout⟩ := sound.targetLayout sourceLayout
  obtain ⟨p, planned⟩ := PadPlan.ofRequestSome groups sourceLayout targetLayout
  exact ⟨p, _, by simp only [PadAttributes.plan, request, planned, Result.okBind]; rfl⟩

end

section
variable {r : PadRequest} (request : PadRequest.ofInputs a inputs = .ok r) {given : List Tensor}
  (same : given.map Tensor.descriptor = inputs.map Tensor.descriptor)
include request same

theorem requestSource : r.Sound ∧ ∃ source l m, given[0]? = some source ∧ r.source.layout = .ok l ∧
    r.target.layout = .ok m ∧ source.data.length = l.physicalSize * r.source.type.size := by
  obtain ⟨sound, data, first, described⟩ := PadRequest.ofInputsSound request
  obtain ⟨source, l, found, _, sourceLayout, held⟩ := Tensor.plannedSource first same
  rw [described] at sourceLayout held
  obtain ⟨m, targetLayout⟩ := sound.targetLayout sourceLayout
  exact ⟨sound, source, l, m, found, sourceLayout, targetLayout, held⟩

theorem runsLeave (validity : Validity) : ∃ source l m size, given[0]? = some source ∧ r.source.layout = .ok l ∧
    r.target.layout = .ok m ∧ source.data.length = l.physicalSize * r.source.type.size ∧
    r.Leaves (inputs.map Tensor.descriptor) validity given ⟨r.target, r.output l m source.data, size⟩ := by
  obtain ⟨sound, source, l, m, found, sourceLayout, targetLayout, held⟩ := requestSource request same
  have length := PadRequest.outputLength sound sourceLayout targetLayout held
  have size : r.target.byteSize? = some (r.output l m source.data).length := by
    rw [Descriptor.layoutSize targetLayout, length, sound.target]
  refine ⟨source, l, m, size, found, sourceLayout, targetLayout, held, fun p team planned => ?_, fun m' team layout => ?_⟩
  · exact Run.transformLeaves size same rfl found fun bytes room =>
      PadPlan.fillPlanned sound sourceLayout targetLayout planned held (room.trans length)
  · cases targetLayout.symm.trans layout
    exact Run.transformLeaves size same rfl found fun bytes room =>
      PadRequest.fillOk sound sourceLayout targetLayout held (room.trans length)

end

theorem runsAgree {r : PadRequest} {p : PadPlan} {m : Layout} (request : PadRequest.ofInputs a inputs = .ok r)
    (planned : PadPlan.ofRequest r = .ok p) (layout : r.target.layout = .ok m) (validity : Validity) (team team' : Nat)
    (given outputs : List Tensor) :
    (PadPlan.execute ⟨inputs.map Tensor.descriptor, [r.target], validity, .ofTeam p.work team, .pad p⟩ given).run outputs =
        (PadRequest.execute ⟨inputs.map Tensor.descriptor, [r.target], validity, .ofTeam m.physicalSize team',
          .padElements r⟩ given).run outputs ∧
      (given.map Tensor.descriptor = inputs.map Tensor.descriptor → outputs.map Tensor.descriptor = [r.target] →
        ((PadPlan.execute ⟨inputs.map Tensor.descriptor, [r.target], validity, .ofTeam p.work team, .pad p⟩ given).run
          outputs).1 = .ok ()) := by
  refine Run.checkedAlike rfl rfl fun same ready => ?_
  obtain ⟨_, _, _, _, _, _, _, _, leaves⟩ := runsLeave request same validity
  exact ⟨_, leaves.rows p team planned outputs ready, leaves.elements m team' layout outputs ready⟩

/-- Padding by rows refines padding by elements. Whatever can be planned by rows can be planned by elements,
for the same output and as long, and has the same runs; what can be planned by elements can also be planned by
rows, unless the channels are grouped. -/
theorem rowsRefineElements (a : PadAttributes) (inputs : List Tensor) (context context' : PlanContext) :
    (∀ plan, a.plan inputs context = .ok plan → ∃ elements, a.planElements inputs context' = .ok elements ∧
      elements.inputs = plan.inputs ∧ elements.outputs = plan.outputs ∧ elements.validity = plan.validity ∧
      ∀ given outputs,
        (PadPlan.execute plan given).run outputs = (PadRequest.execute elements given).run outputs ∧
        (given.map Tensor.descriptor = plan.inputs → outputs.map Tensor.descriptor = plan.outputs →
          ((PadPlan.execute plan given).run outputs).1 = .ok ())) ∧
    ∀ elements, a.planElements inputs context' = .ok elements →
      (∀ data, inputs.head? = some data → data.format.isBlocked = false) →
      ∃ plan, a.plan inputs context = .ok plan := by
  constructor
  · intro plan ok
    obtain ⟨r, p, team, request, planned, made⟩ := planCases ok
    obtain ⟨m, targetLayout, elements⟩ := planElementsOk request context'
    subst made
    exact ⟨_, elements, rfl, rfl, rfl, fun given outputs => runsAgree request planned targetLayout _ _ _ given outputs⟩
  · intro elements ok loose
    obtain ⟨r, m, team, request, targetLayout, _⟩ := planElementsCases ok
    obtain ⟨_, data, first, described⟩ := PadRequest.ofInputsSound request
    have groups : PadPlan.checkGroups r = .ok () := by
      have plain := loose data (by rw [List.head?_eq_getElem?, first])
      have none : r.source.format.blockSize? = none := by
        rw [← described]; simpa [MemoryFormat.isBlocked, Tensor.format] using plain
      unfold PadPlan.checkGroups
      rw [none]; rfl
    obtain ⟨_, _, planned⟩ := planOk request groups context
    exact ⟨_, planned⟩

end PadAttributes
end

namespace PadAttributes

theorem rowsRefineElementsOfPicture :
    let a : PadAttributes := ⟨.reflect, some [0, 1], some [1, 2], some (Binary.zero .double false)⟩
    let picture : Tensor := ⟨.plain [2, 3] .u8, [1, 2, 3, 4, 5, 6], rfl⟩
    let output : Tensor := ⟨.plain [3, 6] .u8, Bytes.zeros 18, rfl⟩
    ∃ plan elements, a.plan [picture] ⟨2, 0⟩ = .ok plan ∧ a.planElements [picture] ⟨2, 0⟩ = .ok elements ∧
      elements.outputs = plan.outputs ∧ elements.validity = plan.validity ∧
      (PadPlan.execute plan [picture]).run [output] = (PadRequest.execute elements [picture]).run [output] ∧
      ((PadPlan.execute plan [picture]).run [output]).1 = .ok () := by
  intro a picture output
  obtain ⟨rows, loose⟩ := rowsRefineElements a [picture] ⟨2, 0⟩ ⟨2, 0⟩
  obtain ⟨plan, planned⟩ := loose _ rfl fun data head => by cases head; rfl
  obtain ⟨elements, made, _, outputs, validity, runs⟩ := rows plan planned
  obtain ⟨agree, done⟩ := runs [picture] [output]
  have inputs : [picture].map Tensor.descriptor = plan.inputs := by
    cases planned; rfl
  have target : [output].map Tensor.descriptor = plan.outputs := by
    cases planned; rfl
  exact ⟨plan, elements, planned, made, outputs, validity, agree, done inputs target⟩

end PadAttributes
end TensorPlan
