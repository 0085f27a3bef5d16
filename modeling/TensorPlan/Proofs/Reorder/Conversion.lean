import TensorPlan.Element.UpperWord
import TensorPlan.Proofs.Layout.Bijection
import TensorPlan.Proofs.Patching
import TensorPlan.Proofs.Tails
/-! What reordering computes. An element is converted, or it is combined with a mean value that depends on its channel
and place; the formats decide where it is read and written, and each position of an element is written once. -/
namespace TensorPlan
open Index (Within)

inductive MeanOf (mean : List Double) : List Nat → List Nat → Double → Prop where
  | channel {n channels i c : Nat} {spatial place : List Nat} {x : Double} (each : mean.length = channels)
      (found : mean[c]? = some x) : MeanOf mean (n :: channels :: spatial) (i :: c :: place) x
  | place {n channels i c : Nat} {spatial place : List Nat} {x : Double} (more : mean.length ≠ channels)
      (found : mean[c * volume spatial + dot place (strides spatial)]? = some x) :
      MeanOf mean (n :: channels :: spatial) (i :: c :: place) x

theorem MeanOf.ofBatches {mean : List Double} {dims coords : List Nat} {i j : Nat} {x y : Double}
    (first : MeanOf mean dims (i :: coords) x) (second : MeanOf mean dims (j :: coords) y) : x = y := by
  cases first with
  | channel each found =>
    cases second with
    | channel _ other => exact Option.some.inj (found.symm.trans other)
    | place more => exact (more each).elim
  | place more found =>
    cases second with
    | channel each => exact (more each).elim
    | place _ other => exact Option.some.inj (found.symm.trans other)

section
variable [Widths]

namespace ReorderPlan

inductive Converts (p : ReorderPlan) (coords : List Nat) (bytes : Bytes) : Bytes → Prop where
  | exactly (ignored : p.meanMode = .ignore) : Converts p coords bytes (p.source.type.convert bytes p.target.type p.rounding)
  | combined {x : Double} (used : p.meanMode ≠ .ignore) (found : MeanOf p.mean p.source.dims coords x) :
      Converts p coords bytes
        (p.target.type.writeDouble p.rounding (p.meanMode.apply (p.source.type.readDouble bytes) x))

structure Resolves (p : ReorderPlan) (a : ReorderAttributes) (inputs : List Tensor) : Prop where
  source : ∃ data, inputs[0]? = some data ∧ p.source = data.descriptor
  target : p.target = ⟨p.source.dims, a.type, a.format⟩
  meanMode : p.meanMode = a.meanMode
  mean : a.meanMode ≠ .ignore → p.mean = (inputs[1]?.map Tensor.doubles).getD (a.mean.map Widths.widen)
  rounding : p.rounding = if a.truncate then .towardZero else .halfEven

variable {p : ReorderPlan} {a : ReorderAttributes} {inputs : List Tensor} {constant : Bool} {coords : List Nat}

omit [Widths] in
theorem meanDecided {mode : MeanMode} {count n channels : Nat} {spatial : List Nat} {perElement : Bool}
    (ok : meanPerElement mode count (n :: channels :: spatial) = .ok perElement) (used : mode ≠ .ignore) :
    perElement = true ↔ count ≠ channels := by
  simp only [meanPerElement, if_neg used, ReorderAttributes.meanSizes?] at ok
  split at ok
  · rename_i each
    cases ok
    exact ⟨fun other => (Bool.false_ne_true other).elim, fun other => (other each).elim⟩
  · rename_i more
    split at ok
    · cases ok
      exact ⟨fun _ => more, fun _ => rfl⟩
    · exact (Result.failNotOk ok).elim

theorem resolvedMean {mean : List Double} (ok : resolveMean a inputs = .ok (mean, constant)) (used : a.meanMode ≠ .ignore) :
    mean = (inputs[1]?.map Tensor.doubles).getD (a.mean.map Widths.widen) := by
  rw [resolveMean, if_neg used] at ok
  cases second : inputs[1]? with
  | none =>
    rw [second] at ok
    cases ok
    rfl
  | some t =>
    simp only [second, Result.bindOk] at ok
    obtain ⟨_, _, last⟩ := ok
    cases last
    rfl

theorem ofInputsResolves (ok : ofInputs a inputs = .ok (p, constant)) : p.Resolves a inputs ∧
    (p.meanMode ≠ .ignore → ∀ n channels spatial, p.source.dims = n :: channels :: spatial →
      (p.perElement = true ↔ p.mean.length ≠ channels)) := by
  simp only [ofInputs, Result.bindOk, Result.ofOptionOk, Result.ensureOk] at ok
  obtain ⟨data, found, _, _, ⟨mean, _⟩, resolved, perElement, fits, last⟩ := ok
  cases last
  refine ⟨⟨⟨data, by rw [← List.head?_eq_getElem?, found], rfl⟩, rfl, rfl, resolvedMean resolved, rfl⟩,
    fun used n channels spatial dims => ?_⟩
  rw [dims] at fits
  exact meanDecided fits used

theorem meanFound (ok : ofInputs a inputs = .ok (p, constant)) (used : p.meanMode ≠ .ignore)
    (within : Within coords p.source.dims) : ∃ x, p.meanAt? coords = some x ∧ MeanOf p.mean p.source.dims coords x := by
  have sound := (ofInputsSound ok).1
  have hasMean : p.hasMean = true := bne_iff_ne.mpr used
  obtain ⟨n, channels, spatial, dims, _⟩ := sound.mean hasMean
  have decided := (ofInputsResolves ok).2 used n channels spatial dims
  obtain ⟨x, found⟩ := meanSome sound hasMean within
  refine ⟨x, found, ?_⟩
  rw [dims] at within
  obtain ⟨i, c, place, joined, _⟩ := Index.withinChannels within
  unfold meanAt? at found
  rw [joined, dims] at found ⊢
  cases each : p.perElement with
  | false =>
    simp only [each, Bool.false_eq_true, if_false, false_iff, not_not] at found decided
    exact .channel decided found
  | true =>
    simp only [each, if_true, true_iff] at found decided
    exact .place decided found

theorem convertedConverts (ok : ofInputs a inputs = .ok (p, constant)) (within : Within coords p.source.dims) (bytes : Bytes) :
    p.Converts coords bytes (p.converted bytes coords) := by
  by_cases ignored : p.meanMode = .ignore
  · have plain : p.hasMean = false := by rw [hasMean, ignored]; rfl
    rw [converted, plain, if_neg Bool.false_ne_true]
    exact .exactly ignored
  · obtain ⟨x, found, mean⟩ := meanFound ok ignored within
    rw [converted, hasMean, bne_iff_ne.mpr ignored, if_pos rfl, found]
    exact .combined ignored mean

section
variable {l m : Layout} {source bytes : Bytes}

def writes (p : ReorderPlan) (l m : Layout) (source : Bytes) (ns : List Nat) : List (Nat × Bytes) :=
  ns.map fun n => (m.offset (Index.ofPosition p.source.dims n),
    p.converted (Bytes.item p.sourceSize source (l.offset (Index.ofPosition p.source.dims n))) (Index.ofPosition p.source.dims n))

variable (sound : p.Sound) (sourceLayout : p.source.layout = .ok l) (targetLayout : p.target.layout = .ok m)
  (held : source.length = l.physicalSize * p.sourceSize)
include sound sourceLayout targetLayout held

theorem scatterWrites {count k : Nat} (rest : k + count = p.source.count) :
    p.scatter l m source count (Index.ofPosition p.source.dims k) bytes =
      NmsPlan.writeAll p.targetSize (p.writes l m source (List.range' k count)) bytes := by
  induction count generalizing k bytes with
  | zero => rfl
  | succ count ih =>
    have full : 0 ∉ p.source.dims := volumeFull (show k < p.source.count by omega)
    obtain ⟨origin, goal, _, _, _, slice, made, _⟩ :=
      sourceElement sound sourceLayout targetLayout held (Index.ofPositionWithin full k)
    rw [List.range'_succ, writes, List.map_cons, NmsPlan.writeAll, ← writes]
    simp only [scatter, origin, goal, slice, made, Result.orFaultSome, Result.okBind, Index.nextOfPosition full]
    simp only [ih (show k + 1 + count = p.source.count by omega)]

theorem fillElementsWrites : p.fillElements source bytes =
    NmsPlan.writeAll p.targetSize (p.writes l m source (List.range p.source.count)) (Bytes.zeros bytes.length) := by
  simp only [fillElements, sourceLayout, targetLayout, Result.okBind]
  rw [Descriptor.rank, ← Index.ofPositionZero, List.range_eq_range']
  exact scatterWrites sound sourceLayout targetLayout held (Nat.zero_add p.source.count)

omit held sourceLayout in
theorem writesOnce : ((p.writes l m source (List.range p.source.count)).map Prod.fst).Perm
    ((List.range m.physicalSize).filter m.held) := by
  have dims : m.dims = p.source.dims := by rw [(Descriptor.layoutOk targetLayout).2, sound.dims]
  have size : m.size = p.source.count := by rw [Layout.size, dims]; rfl
  have places := m.heldPositions
  rw [size, dims] at places
  rw [writes, List.map_map]
  exact places.symm

end

structure Shows (p : ReorderPlan) (source fast slow : Tensor) : Prop where
  described : slow.descriptor = p.target
  elements : ∀ coords, Within coords source.dims → ∃ before after, source.element? coords = some before ∧
    slow.element? coords = some after ∧ p.Converts coords before after
  tails : slow.ZeroTails
  same : source.ZeroTails → fast = slow

theorem runsShow (made : ofInputs a inputs = .ok (p, constant)) {given : List Tensor}
    (same : given.map Tensor.descriptor = inputs.map Tensor.descriptor) (validity : Validity) :
    ∃ source l m fast slow, given[0]? = some source ∧ source.descriptor = p.source ∧ p.source.layout = .ok l ∧
      p.target.layout = .ok m ∧ source.data.length = l.physicalSize * p.sourceSize ∧ p.Shows source fast slow ∧
      p.Leaves (inputs.map Tensor.descriptor) validity given fast slow := by
  have sound := (ofInputsSound made).1
  obtain ⟨source, l, m, size, size', found, described, sourceLayout, targetLayout, held, leaves⟩ :=
    ReorderAttributes.runsLeave made same validity
  have width : source.type.size = p.sourceSize := by rw [Tensor.type, described]; rfl
  refine ⟨source, l, m, _, _, found, described, sourceLayout, targetLayout, held, ⟨rfl, fun coords within => ?_,
    outputTails sound sourceLayout targetLayout held size', fun tails => ?_⟩, leaves⟩
  · have inside : Within coords p.source.dims := by rw [← described]; exact within
    have element := Tensor.elementItem (by rw [described]; exact sourceLayout) within
    rw [width] at element
    obtain ⟨_, _, _, back, held', _⟩ := sourceElement sound sourceLayout targetLayout held inside
    have written := @Tensor.elementOfCells ⟨p.target, _, size'⟩ m coords _ targetLayout rfl
      (fun position inside => (positionOk sound sourceLayout targetLayout held inside).2)
      (by rw [Tensor.dims, sound.dims]; exact inside)
    rw [cell, back, if_pos held'] at written
    exact ⟨_, _, element, written, convertedConverts made inside _⟩
  · exact Tensor.same rfl (spansOfZeroTails sound sourceLayout targetLayout described tails)

end ReorderPlan

namespace ReorderAttributes

end ReorderAttributes
end

namespace ReorderAttributes

end ReorderAttributes
end TensorPlan
