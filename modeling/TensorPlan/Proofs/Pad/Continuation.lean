import TensorPlan.Element.UpperWord
import TensorPlan.Proofs.Elements
import TensorPlan.Proofs.Tails
/-! Continued axes. A mode other than the constant one continues an axis to all integers: by its outermost elements,
or by the axis and its reflection in turn. A padded output shows the source with its axes continued as far as the
borders reach, or with the pad value around it. -/
namespace TensorPlan
open Index (Within)

namespace PadMode

def reflected (repeats length i : Int) : Int :=
  let period := 2 * (length - 1 + repeats)
  let place := i % period
  min place (period - repeats - place)

def continued (mode : PadMode) (length : Nat) (i : Int) : Int :=
  match mode with
  | constant => i
  | edge => max 0 (min i (length - 1))
  | reflect => reflected 0 length i
  | symmetric => reflected 1 length i

section
variable {repeats length i : Int}

theorem reflectedPeriod (repeats length i : Int) :
    reflected repeats length (i + 2 * (length - 1 + repeats)) = reflected repeats length i := by
  simp only [reflected, Int.add_emod_right]

theorem reflectedInside (few : 0 ≤ repeats) (low : 0 ≤ i) (high : i < length) : reflected repeats length i = i := by
  have own : i % (2 * (length - 1 + repeats)) = i := by
    by_cases none : length - 1 + repeats = 0
    · rw [none, Int.mul_zero, Int.emod_zero]
    · exact Int.emod_eq_of_lt low (by omega)
  simp only [reflected, own]
  omega

theorem reflectedEven (few : repeats = 0 ∨ repeats = 1) (filled : 0 < length) :
    reflected repeats length (-repeats - i) = reflected repeats length i := by
  simp only [reflected]
  generalize periodEq : 2 * (length - 1 + repeats) = period
  by_cases none : period = 0
  · rw [none, Int.emod_zero, Int.emod_zero]
    omega
  · have low := Int.emod_nonneg i none
    have high := Int.emod_lt_of_pos i (show 0 < period by omega)
    have whole := Int.emod_add_mul_ediv i period
    generalize i % period = place at *
    by_cases first : repeats + place = 0
    · have turned : (-repeats - i) % period = 0 := by
        have multiple : -repeats - i = period * -(i / period) := by rw [Int.mul_neg]; omega
        rw [multiple, Int.mul_emod_right]
      rw [turned]
      omega
    · have turned : (-repeats - i) % period = period - repeats - place := by
        have multiple : -repeats - i = period - repeats - place + period * (-(i / period) - 1) := by
          rw [Int.mul_sub, Int.mul_neg, Int.mul_one]; omega
        rw [multiple, Int.add_mul_emod_self_left]
        exact Int.emod_eq_of_lt (by omega) (by omega)
      rw [turned]
      omega

theorem reflectedBelow (few : repeats = 0 ∨ repeats = 1) (low : i < 0) (high : -repeats - i < length) :
    reflected repeats length i = -repeats - i := by
  rw [← reflectedEven few (by omega)]
  exact reflectedInside (by omega) (by omega) high

theorem reflectedAbove (few : repeats = 0 ∨ repeats = 1) (low : length ≤ i)
    (high : 0 ≤ 2 * (length - 1 + repeats) - repeats - i) (filled : 0 < length) :
    reflected repeats length i = 2 * (length - 1 + repeats) - repeats - i := by
  have back : i = (i - 2 * (length - 1 + repeats)) + 2 * (length - 1 + repeats) := by omega
  have turned : -repeats - (i - 2 * (length - 1 + repeats)) = 2 * (length - 1 + repeats) - repeats - i := by omega
  rw [back, reflectedPeriod, ← reflectedEven few filled, turned, ← back]
  exact reflectedInside (by omega) high (by omega)

end

variable {mode : PadMode} {length before after i j : Nat}

theorem continuedInside (mode : PadMode) {i : Int} (low : 0 ≤ i) (high : i < length) : mode.continued length i = i := by
  cases mode with
  | constant => rfl
  | edge => rw [continued]; omega
  | reflect => exact reflectedInside (Int.le_refl 0) low high
  | symmetric => exact reflectedInside (by decide) low high

theorem sourceIndexContinued (positive : 0 < length) (fills : mode.Fills length before after)
    (inside : i < length + before + after) (found : mode.sourceIndex i before length = some j) :
    (j : Int) = mode.continued length (i - before) := by
  unfold sourceIndex at found
  split at found
  · cases found
    rw [continuedInside mode (by omega) (by omega)]
    omega
  · cases mode with
    | constant => cases found
    | edge =>
      cases found
      rw [continued]
      split <;> omega
    | reflect =>
      have bounds := reflectFills positive fills
      cases found
      rw [continued]
      split
      · rw [reflectedBelow (.inl rfl) (by omega) (by omega)]; omega
      · rw [reflectedAbove (.inl rfl) (by omega) (by omega) (by omega)]; omega
    | symmetric =>
      have bounds := symmetricFills positive fills
      cases found
      rw [continued]
      split
      · rw [reflectedBelow (.inr rfl) (by omega) (by omega)]; omega
      · rw [reflectedAbove (.inr rfl) (by omega) (by omega) (by omega)]; omega

theorem sourceIndexNone : mode.sourceIndex i before length = none ↔
    mode = constant ∧ ¬ (0 ≤ (i - before : Int) ∧ (i - before : Int) < length) := by
  have bounds : (before ≤ i ∧ i < before + length) ↔ (0 ≤ (i - before : Int) ∧ (i - before : Int) < length) := by omega
  rw [← bounds]
  unfold sourceIndex
  by_cases middle : before ≤ i ∧ i < before + length
  · simp [middle]
  · rw [if_neg middle]
    cases mode <;> simp [middle]

end PadMode

section
variable [Widths]

namespace PadRequest
open PadMode
variable {mode : PadMode} {coords ds bs es index : List Nat}

def fromSource (coords before : List Nat) : List Int := List.zipWith (fun (i b : Nat) => (i - b : Int)) coords before

def Inside (dims : List Nat) (place : List Int) : Prop :=
  List.Forall₂ (fun (d : Nat) (i : Int) => 0 ≤ i ∧ i < d) dims place

instance (dims : List Nat) (place : List Int) : Decidable (Inside dims place) :=
  inferInstanceAs (Decidable (List.Forall₂ (fun (d : Nat) (i : Int) => 0 ≤ i ∧ i < d) dims place))

omit [Widths] in
theorem continuedWithin {place : List Int} (mode : PadMode) (inside : Inside ds place) :
    List.zipWith mode.continued ds place = place := by
  induction inside with
  | nil => rfl
  | cons own _ ih => rw [List.zipWith_cons_cons, ih, continuedInside mode own.1 own.2]

omit [Widths] in
theorem sourceIndicesContinued (fills : mode.FillsAll ds bs es) (full : 0 ∉ ds) (within : Within coords (padded ds bs es))
    (found : mode.sourceIndices coords bs ds = some index) :
    index.map Int.ofNat = List.zipWith mode.continued ds (fromSource coords bs) := by
  induction fills generalizing coords index with
  | nil => cases within; cases found; rfl
  | cons fills _ ih =>
    simp only [List.mem_cons, not_or] at full
    cases within with
    | cons below rest =>
      simp only [sourceIndices, Option.bind_eq_bind, Option.bind_eq_some_iff] at found
      obtain ⟨j, first, tail, others, last⟩ := found
      cases last
      have own := sourceIndexContinued (by omega) fills below first
      rw [List.map_cons, ih full.2 rest others, Int.ofNat_eq_natCast, own]
      rfl

omit [Widths] in
theorem sourceIndicesNone (fills : mode.FillsAll ds bs es) (same : coords.length = ds.length) :
    mode.sourceIndices coords bs ds = none ↔ mode = .constant ∧ ¬ Inside ds (fromSource coords bs) := by
  induction fills generalizing coords with
  | nil => cases List.length_eq_zero_iff.mp same; simp [sourceIndices, Inside, fromSource]
  | @cons d b _ ds bs _ _ _ ih =>
    cases coords with
    | nil => cases same
    | cons i coords =>
      have first := @sourceIndexNone mode d b i
      have rest := @ih coords (by simpa using same)
      have split : Inside (d :: ds) (fromSource (i :: coords) (b :: bs)) ↔
          (0 ≤ (i - b : Int) ∧ (i - b : Int) < d) ∧ Inside ds (fromSource coords bs) := List.forall₂_cons
      rw [split, Classical.not_and_iff_not_or_not, and_or_left, ← first, ← rest, sourceIndices]
      cases mode.sourceIndex i b d with
      | none => simp
      | some j => cases mode.sourceIndices coords bs ds <;> simp

def Copies (source output : Tensor) (coords : List Nat) (place : List Int) : Prop :=
  ∃ index element, Within index source.dims ∧ index.map Int.ofNat = place ∧ source.element? index = some element ∧
    output.element? coords = some element

structure Shows (r : PadRequest) (source output : Tensor) : Prop where
  described : output.descriptor = r.target
  inside : ∀ coords, Within coords r.target.dims → Inside r.source.dims (fromSource coords r.before) →
    Copies source output coords (fromSource coords r.before)
  border : ∀ coords, Within coords r.target.dims → ¬ Inside r.source.dims (fromSource coords r.before) →
    r.mode = .constant ∨ 0 ∈ r.source.dims → output.element? coords = some (r.source.type.encode r.value)
  continued : ∀ coords, Within coords r.target.dims → ¬ Inside r.source.dims (fromSource coords r.before) →
    r.mode ≠ .constant → 0 ∉ r.source.dims →
    Copies source output coords (List.zipWith r.mode.continued r.source.dims (fromSource coords r.before))
  tails : output.ZeroTails

section
variable {r : PadRequest} {l m : Layout} {source output : Tensor}

omit [Widths] in
theorem insideFull {place : List Int} (inside : Inside ds place) : 0 ∉ ds := by
  induction inside with
  | nil => exact List.not_mem_nil
  | cons own _ ih =>
    simp only [List.mem_cons, not_or]
    exact ⟨by omega, ih⟩

theorem cellAt (targetLayout : r.target.layout = .ok m) (within : Within coords r.target.dims) :
    r.cell l m source.data (m.offset coords) =
      if 0 ∈ r.source.dims then r.source.type.encode r.value
      else match r.mode.sourceIndices coords r.before r.source.dims with
        | none => r.source.type.encode r.value
        | some index => Bytes.item r.source.type.size source.data (l.offset index) := by
  have dims := (Descriptor.layoutOk targetLayout).2
  rw [← dims] at within
  have full := m.physicalFull (m.offsetInside within)
  rw [m.emptyAxes, dims] at full
  have empty : r.zeroInput = true ↔ 0 ∈ r.source.dims := by simp [zeroInput, full]
  rw [cell, m.coordinatesOffset within, m.holdsWithin within, if_pos rfl]
  by_cases none : 0 ∈ r.source.dims
  · rw [if_pos none, if_pos (empty.mpr none)]
  · exact (if_neg (mt empty.mp none)).trans (if_neg none).symm

def shown (r : PadRequest) (source : Tensor) (coords : List Nat) : Option Bytes :=
  if 0 ∈ r.source.dims then some (r.source.type.encode r.value)
  else match r.mode.sourceIndices coords r.before r.source.dims with
    | none => some (r.source.type.encode r.value)
    | some index => source.element? index

section
variable (sound : r.Sound) (described : source.descriptor = r.source) (sourceLayout : r.source.layout = .ok l)
  (targetLayout : r.target.layout = .ok m) (held : source.data.length = l.physicalSize * r.source.type.size)
  (made : output.descriptor = r.target) (data : output.data = r.output l m source.data)
include sound described sourceLayout targetLayout held made data

theorem outputElement (within : Within coords r.target.dims) : output.element? coords = r.shown source coords := by
  have type : r.target.type = r.source.type := by rw [sound.target]
  have dims : source.dims = r.source.dims := congrArg Descriptor.dims described
  have cell : output.element? coords = some (r.cell l m source.data (m.offset coords)) :=
    Tensor.elementOfCells (by rw [made, targetLayout]) data (fun position inside => by
      rw [Tensor.type, made, type]
      exact (elementOk sound sourceLayout targetLayout held inside).2) (by rw [Tensor.dims, made]; exact within)
  rw [cell, cellAt targetLayout within, shown]
  by_cases empty : 0 ∈ r.source.dims
  · rw [if_pos empty, if_pos empty]
  · rw [if_neg empty, if_neg empty]
    cases found : r.mode.sourceIndices coords r.before r.source.dims with
    | none => rfl
    | some index =>
      rw [sound.target] at within
      have reached := PadMode.sourceIndicesWithin sound.fills empty within found
      have read := Tensor.elementItem (by rw [described]; exact sourceLayout) (by rw [dims]; exact reached)
      rw [Tensor.type, described] at read
      exact read.symm

theorem outputShows (tails : output.ZeroTails) : r.Shows source output := by
  have dims : source.dims = r.source.dims := congrArg Descriptor.dims described
  have element : ∀ coords, Within coords r.target.dims → output.element? coords = r.shown source coords := fun _ within =>
    outputElement sound described sourceLayout targetLayout held made data within
  have copies : ∀ coords index, Within coords r.target.dims → 0 ∉ r.source.dims →
      r.mode.sourceIndices coords r.before r.source.dims = some index →
      Copies source output coords (List.zipWith r.mode.continued r.source.dims (fromSource coords r.before)) := by
    intro coords index within full found
    have padded := within
    rw [sound.target] at padded
    have reached := sourceIndicesWithin sound.fills full padded found
    have read := Tensor.elementItem (by rw [described]; exact sourceLayout) (by rw [dims]; exact reached)
    have shown := element coords within
    rw [PadRequest.shown, if_neg full, found] at shown
    exact ⟨index, _, by rw [dims]; exact reached, sourceIndicesContinued sound.fills full padded found, read, shown.trans read⟩
  have rank : ∀ coords, Within coords r.target.dims → coords.length = r.source.dims.length := fun coords within => by
    have lengths := fillsLength sound.fills
    rw [Index.withinLength within, sound.target, paddedLength lengths.1 lengths.2]
  refine ⟨made, fun coords within inside => ?_, fun coords within outside how => ?_, fun coords within outside mode full => ?_,
    tails⟩
  · cases found : r.mode.sourceIndices coords r.before r.source.dims with
    | none => exact ((sourceIndicesNone sound.fills (rank coords within)).mp found).2.elim inside
    | some index =>
      have shown := copies coords index within (insideFull inside) found
      rwa [continuedWithin r.mode inside] at shown
  · rw [element coords within, shown]
    split
    · rfl
    · rename_i full
      rw [(sourceIndicesNone sound.fills (rank coords within)).mpr ⟨how.resolve_right full, outside⟩]
  · cases found : r.mode.sourceIndices coords r.before r.source.dims with
    | none => exact (mode ((sourceIndicesNone sound.fills (rank coords within)).mp found).1).elim
    | some index => exact copies coords index within full found

end
end
end PadRequest

namespace PadAttributes

/-- Padding by elements continues the axes of the source as the mode says, in every format. -/
theorem paddingContinues (a : PadAttributes) (inputs : List Tensor) (context : PlanContext) (r : PadRequest)
    (request : PadRequest.ofInputs a inputs = .ok r) (given : List Tensor)
    (same : given.map Tensor.descriptor = inputs.map Tensor.descriptor) :
    ∃ plan source output, a.planElements inputs context = .ok plan ∧ plan.outputs = [r.target] ∧
      given[0]? = some source ∧ source.descriptor = r.source ∧
      Run.Leaves (PadRequest.execute plan given) plan.outputs [output] ∧ r.Shows source output := by
  obtain ⟨sound, data, first, described⟩ := PadRequest.ofInputsSound request
  obtain ⟨source, l, m, size, found, sourceLayout, targetLayout, held, leaves⟩ := runsLeave request same a.validity
  obtain ⟨m', targetLayout', planned⟩ := planElementsOk request context
  obtain ⟨source', _, found', descriptor, _⟩ := Tensor.plannedSource first same
  cases found.symm.trans found'
  have tails := PadRequest.outputTails sound sourceLayout targetLayout held size
  exact ⟨_, source, _, planned, rfl, found, descriptor.trans described, leaves.elements m' context.team targetLayout',
    PadRequest.outputShows sound (descriptor.trans described) sourceLayout targetLayout held rfl rfl tails⟩

end PadAttributes
end

namespace PadAttributes

theorem paddingContinuesOfLine :
    let a : PadAttributes := ⟨.reflect, some [0, 0, 1], some [0, 0, 2], some (Binary.zero .double false)⟩
    let line : Tensor := ⟨⟨[1, 1, 3], .u8, .blocked8⟩, [10, 0, 0, 0, 0, 0, 0, 0, 20, 0, 0, 0, 0, 0, 0, 0, 30, 0, 0, 0, 0, 0, 0, 0], rfl⟩
    ∃ plan output, a.planElements [line] ⟨2, 0⟩ = .ok plan ∧
      Run.Leaves (PadRequest.execute plan [line]) plan.outputs [output] ∧ output.dims = [1, 1, 6] ∧
      output.element? [0, 0, 0] = some [20] ∧ output.element? [0, 0, 2] = some [20] ∧ output.element? [0, 0, 5] = some [10] ∧
      output.ZeroTails := by
  intro a line
  obtain ⟨r, request⟩ : ∃ r, PadRequest.ofInputs a [line] = .ok r := ⟨_, rfl⟩
  obtain ⟨plan, source, output, planned, _, first, _, leaves, shows'⟩ :=
    paddingContinues a [line] ⟨2, 0⟩ r request [line] rfl
  cases first
  cases request
  have within : ∀ i < 6, Within [0, 0, i] [1, 1, 6] := fun i small =>
    .cons (by decide) (.cons (by decide) (.cons small .nil))
  have reads : ∀ i j element, PadRequest.Copies line output [0, 0, i] [0, 0, (j : Nat)] →
      line.element? [0, 0, j] = some element → output.element? [0, 0, i] = some element := by
    rintro i j element ⟨index, own, _, place, held, found⟩ known
    have same : index = [0, 0, j] := List.map_injective_iff.mpr (fun _ _ => Int.ofNat.inj) place
    rw [same, known] at held
    cases held
    exact found
  refine ⟨plan, output, planned, leaves, congrArg Descriptor.dims shows'.described, ?_, ?_, ?_, shows'.tails⟩
  · exact reads 0 1 [20] (shows'.continued [0, 0, 0] (within 0 (by decide)) (by decide) (by decide) (by decide)) rfl
  · exact reads 2 1 [20] (shows'.inside [0, 0, 2] (within 2 (by decide)) (by decide)) rfl
  · exact reads 5 0 [10] (shows'.continued [0, 0, 5] (within 5 (by decide)) (by decide) (by decide) (by decide)) rfl

end PadAttributes
end TensorPlan
