import TensorPlan.Element.UpperWord
import TensorPlan.Proofs.Dispatch.Likeness
import TensorPlan.Proofs.Operator.Planned
import TensorPlan.Proofs.Operator.Slots
import TensorPlan.Session.Executor
/-! Foreseen outputs. What inference finds of the slots of a node holds of every plan made for tensors that fit the
slots: as many outputs, of these types and of dimensions that refine these shapes. -/
namespace TensorPlan

structure Slot.Describes (slot : Slot) (d : Descriptor) : Prop where
  type : d.type = slot.type
  shape : slot.shape.compatible d.shape = true

theorem Slot.tensorsRefine {slots : List Slot} {inputs : List Tensor}
    (fit : List.Forall₂ (fun slot t => slot.shape.compatible t.shape = true) slots inputs) :
    List.Forall₂ Shape.Refines (inputs.map Tensor.shape) (slots.map Slot.shape) := by
  rw [List.forall₂_map_left_iff, List.forall₂_map_right_iff]
  exact (fit.imp fun slot t agree => Shape.compatibleRefines.mp agree).flip

theorem zippedTogether {α β γ : Type} {related : α → β → Prop} {xs : List α} {ys : List β}
    (each : List.Forall₂ related xs ys) (zs : List γ) :
    List.Forall₂ (fun p q => related p.1 q.1 ∧ p.2 = q.2) (xs.zip zs) (ys.zip zs) := by
  induction each generalizing zs with
  | nil => exact .nil
  | cons own _ ih =>
    cases zs with
    | nil => exact .nil
    | cons z zs => exact .cons ⟨own, rfl⟩ (ih zs)

theorem BroadcastAttributes.outputPlain {f : MemoryFormat} {rank : Nat} :
    outputFormat f rank = .plain ↔ ¬ (3 ≤ rank ∧ f ≠ .plain) := by
  unfold outputFormat MemoryFormat.supportsRank
  by_cases plain : f = .plain <;> simp [plain]

namespace Attributes
variable {a : Attributes} {inputs : List Tensor} {descriptors : List Descriptor}

def descriptorsOf (a : Attributes) (data : Descriptor) (dims : List (List Nat)) : List Descriptor :=
  match a with
  | gatherTree | pad _ => dims.map fun ds => ⟨ds, data.type, data.format⟩
  | broadcast _ => dims.map fun ds => ⟨ds, data.type, BroadcastAttributes.outputFormat data.format ds.length⟩
  | reorder a => dims.map fun ds => ⟨ds, a.type, a.format⟩
  | matrixNms a => (dims.zip [.f32, a.indexType, a.indexType]).map fun p => .plain p.1 p.2

theorem Plans.elements [Widths] (made : a.Plans inputs descriptors) : ∃ data, inputs[0]? = some data ∧
    descriptors = a.descriptorsOf data.descriptor (descriptors.map Descriptor.dims) := by
  cases made with
  | gatherTree made =>
    obtain ⟨steps, parents, lengths, endToken, rfl, plain, _, _, _, _, type⟩ := GatherTreePlan.ofInputsOk.mp made
    refine ⟨steps, rfl, ?_⟩
    have flat : steps.descriptor.format = .plain := plain steps (by simp)
    simp [descriptorsOf, Descriptor.plain, flat, ← type, Tensor.type]
  | pad made =>
    obtain ⟨data, first, described, _, _, _, _, target, _⟩ := PadRequest.ofInputsParts made
    exact ⟨data, first, by rw [described, target]; rfl⟩
  | @broadcast _ p made =>
    obtain ⟨sound, data, first, described⟩ := BroadcastPlan.ofInputsSound made
    refine ⟨data, first, ?_⟩
    simp [descriptorsOf, described, ← sound.type, ← sound.format]
  | reorder made =>
    simp only [ReorderPlan.ofInputs, Result.bindOk, Result.ofOptionOk] at made
    obtain ⟨data, first, _, _, _, _, _, _, last⟩ := made
    cases last
    exact ⟨data, List.head?_eq_getElem?.symm.trans first, rfl⟩
  | matrixNms made =>
    obtain ⟨boxes, scores, rest, rfl, rfl, _, _⟩ := NmsPlan.ofInputsOk.mp made
    exact ⟨boxes, rfl, rfl⟩

theorem Plans.refines [Widths] {shapes : List Shape} (made : a.Plans inputs descriptors)
    (finer : List.Forall₂ Shape.Refines (inputs.map Tensor.shape) shapes) {outputs : List Shape}
    (inferred : a.shapes shapes = .ok outputs) (alike : ∀ p, a = .pad p → p.before.isSome = p.after.isSome) :
    List.Forall₂ Shape.Refines (descriptors.map Descriptor.shape) outputs := by
  cases made with
  | gatherTree made => exact GatherTree.plannedRefines finer inferred made
  | pad made => exact PadAttributes.plannedRefines finer inferred made (alike _ rfl)
  | broadcast made => exact BroadcastAttributes.plannedRefines finer inferred made
  | reorder made => exact ReorderAttributes.plannedRefines finer inferred made
  | matrixNms made => exact NmsAttributes.plannedRefines finer inferred made

theorem Plans.ranks [Widths] {shapes outputs : List Shape}
    (made : a.Plans inputs descriptors) (finer : List.Forall₂ Shape.Refines (inputs.map Tensor.shape) shapes)
    (inferred : a.shapes shapes = .ok outputs) :
    List.Forall₂ (fun s d => a.kind = .broadcast → ∀ n, s.rank? = some n → d.dims.length = n) outputs descriptors := by
  have ranked {ds : List Descriptor} (refines : List.Forall₂ Shape.Refines (ds.map Descriptor.shape) outputs) :
      List.Forall₂ (fun s d => a.kind = .broadcast → ∀ n, s.rank? = some n → d.dims.length = n) outputs ds :=
    (List.forall₂_map_left_iff.mp refines).flip.imp fun s d own _ n known => by
      simpa [Descriptor.shape, Shape.ofDims, Shape.rank?, Shape.dims?] using own.rank known
  cases made with
  | gatherTree made => exact ranked (GatherTree.plannedRefines finer inferred made)
  | pad made =>
    obtain ⟨_, _, _, _, _, _, _, _, _, rfl⟩ := PadAttributes.shapesOk.mp inferred
    exact .cons (fun other => by cases other) .nil
  | broadcast made => exact ranked (BroadcastAttributes.plannedRefines finer inferred made)
  | reorder made => exact ranked (ReorderAttributes.plannedRefines finer inferred made)
  | matrixNms made => exact ranked (NmsAttributes.plannedRefines finer inferred made)

theorem formats {data : Slot} {d : Descriptor} (same : d.format = data.format) {shapes : List Shape}
    {dims : List (List Nat)}
    (each : List.Forall₂ (fun s ds => a.kind = .broadcast → ∀ n, s.rank? = some n → ds.length = n) shapes dims) :
    List.Forall₂ (fun slot planned => planned.format = slot.format ↔ ¬ (a.kind = .broadcast ∧ slot.shape = .unranked ∧
      3 ≤ planned.rank ∧ d.format ≠ .plain)) (a.slotsOf data shapes) (a.descriptorsOf d dims) := by
  have kept {p q : Prop} {kind : OperatorKind} (same : p) (other : kind ≠ .broadcast) : p ↔ ¬ (kind = .broadcast ∧ q) :=
    iff_of_true same fun given => other given.1
  cases a <;> simp only [slotsOf, descriptorsOf, List.forall₂_map_left_iff, List.forall₂_map_right_iff]
  case broadcast a =>
    refine each.imp fun s ds rank => ?_
    cases s with
    | ranked known =>
      refine iff_of_true ?_ fun unranked => by cases unranked.2.1
      rw [← same, rank rfl _ rfl]
      rfl
    | unranked =>
      simp only [Slot.ofShape, Shape.rank?, Shape.dims?, Option.map_none, Option.getD_none, Descriptor.rank, kind,
        true_and]
      exact BroadcastAttributes.outputPlain
  case matrixNms a => exact (zippedTogether each _).imp fun p q _ => kept rfl (by simp [kind])
  case reorder a => exact each.imp fun s ds _ => kept rfl (by simp [kind])
  all_goals exact each.imp fun s ds _ => kept same (by simp [kind])

theorem describes {data : Slot} {d : Descriptor} (same : d.type = data.type) {shapes : List Shape}
    {dims : List (List Nat)} (each : List.Forall₂ (fun s ds => (Shape.ofDims ds).Refines s) shapes dims) :
    List.Forall₂ Slot.Describes (a.slotsOf data shapes) (a.descriptorsOf d dims) := by
  have compatible {s : Shape} {ds : List Nat} (own : (Shape.ofDims ds).Refines s) :
      s.compatible (Shape.ofDims ds) = true := Shape.compatibleRefines.mpr own
  cases a <;> simp only [slotsOf, descriptorsOf, List.forall₂_map_left_iff, List.forall₂_map_right_iff]
  case matrixNms a =>
    exact (zippedTogether each _).imp fun p q own => ⟨own.2.symm, compatible own.1⟩
  case reorder a => exact each.imp fun s ds own => ⟨rfl, compatible own⟩
  all_goals exact each.imp fun s ds own => ⟨same, compatible own⟩

end Attributes

theorem NodeExecutor.checkOutputsOk {e : NodeExecutor} {plan : ExecutionPlan}
    (describes : List.Forall₂ Slot.Describes e.expected plan.outputs) : e.checkOutputs plan = .ok () := by
  obtain ⟨length, each⟩ := List.forall₂_iff_zip.mp describes
  have fits : ∀ p ∈ e.expected.zip plan.outputs, checkOutput e.name p.1 p.2 = .ok () := fun p member => by
    have own : p.1.Describes p.2 := each member
    rw [checkOutput, own.type, own.shape, beq_self_eq_true]
    rfl
  rw [checkOutputs, length, beq_self_eq_true, Bool.or_true, Result.forEachOk fits]
  rfl

namespace BuiltinKernel

/-- A padding takes both widths from its attributes or both from inputs. -/
theorem plannedAsInferred [Widths] (k : BuiltinKernel) (attributes : Attributes) (slots expected : List Slot)
    (inferred : attributes.slots slots = .ok expected) (inputs : List Tensor)
    (fit : List.Forall₂ (fun slot t => Slot.Describes slot t.descriptor) slots inputs) (context : PlanContext)
    (plan : ExecutionPlan) (planned : k.plan attributes inputs context = .ok plan)
    (alike : ∀ a, attributes = .pad a → a.before.isSome = a.after.isSome) :
    List.Forall₂ Slot.Describes expected plan.outputs ∧
      ∀ e : NodeExecutor, e.expected = expected → e.checkOutputs plan = .ok () := by
  obtain ⟨slot, shapes, first, found, rfl⟩ := Attributes.slotsOk inferred
  obtain ⟨data, given, made⟩ := (plans planned).2.elements
  have refines := (plans planned).2.refines (Slot.tensorsRefine (fit.imp fun _ _ own => own.shape)) found alike
  have describes : List.Forall₂ Slot.Describes (attributes.slotsOf slot shapes) plan.outputs := by
    obtain ⟨_, same, own⟩ := pairAt fit given
    cases first.symm.trans same
    rw [made]
    refine Attributes.describes own.type ?_
    rw [List.forall₂_map_right_iff]
    exact (List.forall₂_map_left_iff.mp refines).flip
  refine ⟨describes, fun e same => NodeExecutor.checkOutputsOk ?_⟩
  rw [same]
  exact describes

theorem plannedAsInferredOfRows :
    let widths : PadAttributes := ⟨.constant, some [1, 0], some [0, 2], some (Binary.zero .double false)⟩
    let slots : List Slot := [.ofShape (.ranked [.unknown, .known 3]) .u8 .plain]
    let rows : Tensor := ⟨.plain [1, 3] .u8, [1, 2, 3], rfl⟩
    ∃ plan, (Attributes.pad widths).slots slots = .ok [.ofShape (.ranked [.unknown, .known 5]) .u8 .plain] ∧
      padRows.plan (.pad widths) [rows] ⟨1, 0⟩ = .ok plan ∧
      List.Forall₂ Slot.Describes [.ofShape (.ranked [.unknown, .known 5]) .u8 .plain] plan.outputs := by
  intro widths slots rows
  have request : PadRequest.ofInputs widths [rows] =
    .ok ⟨.constant, [1, 0], [0, 2], Binary.zero .double false, .plain [1, 3] .u8, .plain [2, 5] .u8⟩ := rfl
  obtain ⟨_, _, made⟩ := PadAttributes.planOk request rfl ⟨1, 0⟩
  refine ⟨_, rfl, made, (plannedAsInferred padRows (.pad widths) slots _ rfl _ ?_ _ _ made ?_).1⟩
  · exact .cons ⟨rfl, rfl⟩ .nil
  · intro a same
    cases same
    rfl

/-- The formats foreseen are the planned ones, except that a broadcast to an unknown number of axes, foreseen as
plain, keeps the format of its data where the axes turn out to be enough. -/
theorem plannedFormats [Widths] (k : BuiltinKernel) (attributes : Attributes) (slots expected : List Slot)
    (inferred : attributes.slots slots = .ok expected) (inputs : List Tensor)
    (fit : List.Forall₂ Slot.Accepts slots inputs) (context : PlanContext) (plan : ExecutionPlan)
    (planned : k.plan attributes inputs context = .ok plan) :
    List.Forall₂ (fun slot d => d.format = slot.format ↔ ¬ (attributes.kind = .broadcast ∧ slot.shape = .unranked ∧
      3 ≤ d.rank ∧ ∃ data, inputs[0]? = some data ∧ data.format ≠ .plain)) expected plan.outputs := by
  obtain ⟨slot, shapes, first, found, rfl⟩ := Attributes.slotsOk inferred
  obtain ⟨data, given, made⟩ := (plans planned).2.elements
  obtain ⟨_, same, own⟩ := pairAt fit given
  cases first.symm.trans same
  have ranks := (plans planned).2.ranks (Slot.tensorsRefine (fit.imp fun _ _ own => own.shape)) found
  rw [made]
  refine (Attributes.formats own.format (List.forall₂_map_right_iff.mpr ranks)).imp fun slot d settled => ?_
  rw [settled]
  simp [given, Tensor.format]

def groupInputs : List Tensor :=
  [⟨⟨[1, 8, 1], .u8, .blocked8⟩, [1, 2, 3, 4, 5, 6, 7, 8], rfl⟩,
    ⟨.plain [3] .i32, [2, 0, 0, 0, 8, 0, 0, 0, 1, 0, 0, 0], rfl⟩]

theorem groupsPlanned : ∃ plan, broadcastElements.plan (.broadcast ⟨none, none⟩) groupInputs ⟨1, 0⟩ = .ok plan ∧
    plan.outputs = [⟨[2, 8, 1], .u8, .blocked8⟩] := by
  have made : BroadcastPlan.ofInputs ⟨none, none⟩ groupInputs =
    .ok ⟨⟨[1, 8, 1], .u8, .blocked8⟩, ⟨[2, 8, 1], .u8, .blocked8⟩, [1, 8, 1]⟩ := rfl
  obtain ⟨_, _, planned⟩ := BroadcastAttributes.planElementsOk made ⟨1, 0⟩
  exact ⟨_, planned, rfl⟩

theorem plannedFormatsOfGroups :
    let slots : List Slot := [.ofShape (.ofDims [1, 8, 1]) .u8 .blocked8, .ofShape (.ranked [.known 3]) .i32 .plain]
    ∃ plan, (Attributes.broadcast ⟨none, none⟩).slots slots = .ok [.ofShape (.ofRank 3) .u8 .blocked8] ∧
      broadcastElements.plan (.broadcast ⟨none, none⟩) groupInputs ⟨1, 0⟩ = .ok plan ∧
      List.Forall₂ (fun (slot : Slot) d => d.format = slot.format) [.ofShape (.ofRank 3) .u8 .blocked8] plan.outputs := by
  intro slots
  obtain ⟨plan, planned, _⟩ := groupsPlanned
  have settled := plannedFormats broadcastElements _ slots _ rfl groupInputs
    (.cons ⟨rfl, rfl, rfl⟩ (.cons ⟨rfl, rfl, rfl⟩ .nil)) _ plan planned
  refine ⟨plan, rfl, planned, ?_⟩
  match plan.outputs, settled with
  | [d], .cons own .nil => exact .cons (own.mpr fun other => nomatch other.2.1) .nil

/-- If the number of lengths is not known before the run, the groups are foreseen to be gone. They stay. -/
theorem plannedFormatDiffers :
    let slots : List Slot := [.ofShape (.ofDims [1, 8, 1]) .u8 .blocked8, .ofShape (.ranked [.unknown]) .i32 .plain]
    ∃ plan, (Attributes.broadcast ⟨none, none⟩).slots slots = .ok [.ofShape .unranked .u8 .plain] ∧
      List.Forall₂ Slot.Accepts slots groupInputs ∧
      broadcastElements.plan (.broadcast ⟨none, none⟩) groupInputs ⟨1, 0⟩ = .ok plan ∧
      ¬ List.Forall₂ (fun (slot : Slot) d => d.format = slot.format) [.ofShape .unranked .u8 .plain] plan.outputs := by
  intro slots
  obtain ⟨plan, planned, outputs⟩ := groupsPlanned
  refine ⟨plan, rfl, .cons ⟨rfl, rfl, rfl⟩ (.cons ⟨rfl, rfl, rfl⟩ .nil), planned, fun same => ?_⟩
  rw [outputs] at same
  cases same with
  | cons own _ => cases own

end BuiltinKernel
end TensorPlan
