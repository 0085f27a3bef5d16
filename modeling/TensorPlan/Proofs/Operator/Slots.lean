import TensorPlan.Proofs.Operator.Inferred
/-! Slots that inference finds. They carry the shapes found, and types and formats that the attributes and the first
input decide. Every operator needs an input, and padding, broadcasting and reordering have a single output. -/
namespace TensorPlan.Attributes
variable {a : Attributes} {inputs outputs : List Slot}

def slotsOf (a : Attributes) (data : Slot) (shapes : List Shape) : List Slot :=
  match a with
  | gatherTree | pad _ => shapes.map fun s => .ofShape s data.type data.format
  | broadcast _ => shapes.map fun s =>
      .ofShape s data.type ((s.rank?.map (BroadcastAttributes.outputFormat data.format)).getD .plain)
  | reorder a => shapes.map fun s => .ofShape s a.type a.format
  | matrixNms a => (shapes.zip [.f32, a.indexType, a.indexType]).map fun p => .ofShape p.1 p.2 .plain

theorem slotsLikeFirstOk (ok : a.slotsLikeFirst inputs = .ok outputs) : ∃ data shapes, inputs[0]? = some data ∧
    a.shapes (inputs.map Slot.shape) = .ok shapes ∧
      outputs = shapes.map fun s => .ofShape s data.type data.format := by
  simp only [slotsLikeFirst, Result.bindOk, Result.ofOptionOk] at ok
  obtain ⟨data, found, shapes, inferred, last⟩ := ok
  cases last
  exact ⟨data, shapes, List.head?_eq_getElem?.symm.trans found, inferred, rfl⟩

theorem slotsOk (ok : a.slots inputs = .ok outputs) : ∃ data shapes, inputs[0]? = some data ∧
    a.shapes (inputs.map Slot.shape) = .ok shapes ∧ outputs = a.slotsOf data shapes := by
  have first {i : Nat} {s : Shape} (there : (inputs.map Slot.shape)[i]? = some s) : ∃ slot, inputs[i]? = some slot := by
    rw [List.getElem?_map] at there
    obtain ⟨slot, found, _⟩ := Option.map_eq_some_iff.mp there
    exact ⟨slot, found⟩
  cases a with
  | gatherTree => exact slotsLikeFirstOk ok
  | pad a => exact slotsLikeFirstOk ok
  | broadcast a =>
    simp only [slots, BroadcastAttributes.slots, Result.bindOk, Result.orFaultOk] at ok
    obtain ⟨shapes, inferred, data, found, last⟩ := ok
    cases last
    exact ⟨data, shapes, found, inferred, rfl⟩
  | reorder a =>
    simp only [slots, ReorderAttributes.slots, Result.bindOk] at ok
    obtain ⟨shapes, inferred, last⟩ := ok
    obtain ⟨_, _, _, found, _⟩ := ReorderAttributes.shapesOk.mp inferred
    obtain ⟨data, found⟩ := first found
    cases last
    exact ⟨data, shapes, found, inferred, rfl⟩
  | matrixNms a =>
    simp only [slots, NmsAttributes.slots, Result.bindOk] at ok
    obtain ⟨shapes, inferred, last⟩ := ok
    obtain ⟨_, _, _, _, given, _⟩ := NmsAttributes.shapesOk.mp inferred
    obtain ⟨data, found⟩ := first (congrArg (·[0]?) given)
    cases last
    exact ⟨data, shapes, found, inferred, rfl⟩

theorem slotsFilled (ok : a.slots inputs = .ok outputs) : inputs ≠ [] := by
  obtain ⟨data, _, first, _⟩ := slotsOk ok
  rintro rfl
  cases first

def Single (a : Attributes) : Prop := a.kind = .pad ∨ a.kind = .broadcast ∨ a.kind = .reorder

theorem slotsSingle (single : a.Single) (ok : a.slots inputs = .ok outputs) : outputs.length = 1 := by
  obtain ⟨data, shapes, _, inferred, rfl⟩ := slotsOk ok
  cases a with
  | pad a =>
    obtain ⟨_, _, _, _, _, _, _, _, _, rfl⟩ := PadAttributes.shapesOk.mp inferred
    rfl
  | broadcast a =>
    obtain ⟨_, _, _, _, _, _, _, rfl⟩ := BroadcastAttributes.shapesOk.mp inferred
    rfl
  | reorder a =>
    obtain ⟨_, _, _, _, _, _, rfl⟩ := ReorderAttributes.shapesOk.mp inferred
    rfl
  | gatherTree => simp [Single, kind] at single
  | matrixNms a => simp [Single, kind] at single

end TensorPlan.Attributes
