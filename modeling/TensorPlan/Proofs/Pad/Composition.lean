import TensorPlan.Dispatch.Builtin
import TensorPlan.Element.UpperWord
import TensorPlan.Proofs.Pad.Continuation
/-! Padding twice. A constant border and repeated outermost elements lead each axis through the middle tensor to where one
padding by both widths leads it, so two paddings with the same mode and value are one. -/
namespace TensorPlan
open Index (Within)

namespace PadMode
variable {mode : PadMode} {length before after before' i : Nat}

def Composes (mode : PadMode) : Prop := mode = constant ∨ mode = edge

theorem composedFills (composes : mode.Composes) (length before after : Nat) : mode.Fills length before after := by
  rcases composes with rfl | rfl
  · exact constantFills length before after
  · intro limit limited
    cases length <;> simp [PadRequest.limit?] at limited

theorem constantIndex (i before length : Nat) : constant.sourceIndex i before length =
    if before ≤ i ∧ i < before + length then some (i - before) else none := rfl

theorem edgeIndex (i before : Nat) (positive : 0 < length) :
    edge.sourceIndex i before length = some (min (i - before) (length - 1)) := by
  unfold sourceIndex
  split
  · exact congrArg some (by omega)
  · exact congrArg some (by split <;> omega)

theorem sourceIndexThrough (composes : mode.Composes) (positive : 0 < length) :
    mode.sourceIndex i (before + before') length =
      (mode.sourceIndex i before' (length + before + after)).bind fun j => mode.sourceIndex j before length := by
  rcases composes with rfl | rfl
  · rw [constantIndex, constantIndex]
    by_cases middle : before' ≤ i ∧ i < before' + (length + before + after)
    · have shifted : (before + before' ≤ i ∧ i < before + before' + length) ↔
          (before ≤ i - before' ∧ i - before' < before + length) := by omega
      have place : i - (before + before') = i - before' - before := by omega
      rw [if_pos middle, Option.bind_some, constantIndex, if_congr shifted rfl rfl, place]
    · rw [if_neg middle, if_neg (by omega), Option.bind_none]
  · rw [edgeIndex _ _ positive, edgeIndex _ _ (by omega), Option.bind_some, edgeIndex _ _ positive]
    exact congrArg some (by omega)

section
variable {ds bs es bs' index : List Nat}

theorem sourceIndicesThrough (composes : mode.Composes) (full : 0 ∉ ds) (fills : mode.FillsAll ds bs es)
    (before' : bs'.length = ds.length) (same : index.length = ds.length) :
    mode.sourceIndices index (List.zipWith (· + ·) bs bs') ds =
      (mode.sourceIndices index bs' (PadRequest.padded ds bs es)).bind fun js => mode.sourceIndices js bs ds := by
  induction fills generalizing bs' index with
  | nil =>
    cases List.length_eq_zero_iff.mp before'
    cases List.length_eq_zero_iff.mp same
    rfl
  | @cons d b e ds bs es _ _ ih =>
    obtain ⟨b', bs', rfl⟩ := List.exists_cons_of_length_eq_add_one before'
    obtain ⟨i, index, rfl⟩ := List.exists_cons_of_length_eq_add_one same
    simp only [List.mem_cons, not_or] at full
    simp only [List.length_cons, Nat.add_right_cancel_iff] at before' same
    have first := @sourceIndexThrough mode d b e b' i composes (by omega)
    have rest := ih full.2 before' same
    rw [List.zipWith_cons_cons, PadRequest.padded, sourceIndices, sourceIndices, first, rest]
    cases mode.sourceIndex i b' (d + b + e) with
    | none => rfl
    | some j =>
      cases mode.sourceIndices index bs' (PadRequest.padded ds bs es) with
      | none => cases own : mode.sourceIndex j b d <;> simp [own]
      | some js => rfl

theorem composedFillsAll (composes : mode.Composes) (before : bs.length = ds.length) (after : es.length = ds.length) :
    mode.FillsAll ds bs es := by
  induction ds generalizing bs es with
  | nil =>
    cases List.length_eq_zero_iff.mp before
    cases List.length_eq_zero_iff.mp after
    exact .nil
  | cons d ds ih =>
    obtain ⟨b, bs, rfl⟩ := List.exists_cons_of_length_eq_add_one before
    obtain ⟨e, es, rfl⟩ := List.exists_cons_of_length_eq_add_one after
    exact .cons (composedFills composes d b e) (ih (by simpa using before) (by simpa using after))

theorem unpaddedFillsAll (mode : PadMode) (ds : List Nat) :
    mode.FillsAll ds (List.replicate ds.length 0) (List.replicate ds.length 0) := by
  induction ds with
  | nil => exact .nil
  | cons d ds ih => exact .cons (unpaddedFills mode d) ih

theorem sourceIndicesUnpadded (mode : PadMode) (within : Within index ds) :
    mode.sourceIndices index (List.replicate ds.length 0) ds = some index := by
  induction within with
  | nil => rfl
  | cons below _ ih => simp [sourceIndices, List.replicate_succ, sourceIndexUnpadded mode below, ih]

end
end PadMode

section
variable [Widths]

namespace PadRequest
variable {mode : PadMode} {dims ds bs es bs' es' : List Nat} {axis : Nat}

omit [Widths] in
theorem limitsChecked (fills : mode.FillsAll ds bs es) : checkLimits mode dims axis ds bs es = .ok () := by
  induction fills generalizing axis with
  | nil => rfl
  | @cons d b e _ _ _ fills _ ih =>
    rw [checkLimits, ih]
    cases limited : limit? mode d with
    | none => rfl
    | some limit => simp [Result.ensure, fills limit limited]

omit [Widths] in
theorem paddedUnpadded (ds : List Nat) : padded ds (List.replicate ds.length 0) (List.replicate ds.length 0) = ds := by
  induction ds with
  | nil => rfl
  | cons d ds ih => simp [padded, List.replicate_succ, ih]

omit [Widths] in
theorem paddedFull (full : 0 ∉ ds) (fills : mode.FillsAll ds bs es) : 0 ∉ padded ds bs es := by
  induction fills with
  | nil => exact List.not_mem_nil
  | cons _ _ ih =>
    simp only [List.mem_cons, not_or] at full
    simp only [padded, List.mem_cons, not_or]
    exact ⟨by omega, ih full.2⟩

omit [Widths] in
theorem paddedWords (before : bs.length = ds.length) (after : es.length = ds.length) {bound : Nat}
    (words : ∀ n ∈ padded ds bs es, n < bound) : ∀ n ∈ ds, n < bound := by
  induction ds generalizing bs es with
  | nil => exact fun _ member => nomatch member
  | cons d ds ih =>
    obtain ⟨b, bs, rfl⟩ := List.exists_cons_of_length_eq_add_one before
    obtain ⟨e, es, rfl⟩ := List.exists_cons_of_length_eq_add_one after
    simp only [padded, List.forall_mem_cons] at words ⊢
    exact ⟨by omega, ih (by simpa using before) (by simpa using after) words.2⟩

omit [Widths] in
theorem paddedTwice (fills : mode.FillsAll ds bs es) (before' : bs'.length = ds.length) (after' : es'.length = ds.length) :
    padded (padded ds bs es) bs' es' = padded ds (List.zipWith (· + ·) bs bs') (List.zipWith (· + ·) es es') := by
  induction fills generalizing bs' es' with
  | nil => rfl
  | cons _ _ ih =>
    obtain ⟨b', bs', rfl⟩ := List.exists_cons_of_length_eq_add_one before'
    obtain ⟨e', es', rfl⟩ := List.exists_cons_of_length_eq_add_one after'
    simp only [padded, List.zipWith_cons_cons, ih (by simpa using before') (by simpa using after'), List.cons.injEq, and_true]
    omega

def around (mode : PadMode) (t : Tensor) (before after : List Nat) (value : Double) : PadRequest :=
  ⟨mode, before, after, value, t.descriptor, ⟨padded t.dims before after, t.type, t.format⟩⟩

section
variable {t mid : Tensor} {before after before' after' coords : List Nat} {value : Double}

theorem aroundEmpty (empty : 0 ∈ t.dims) (coords : List Nat) :
    (around mode t before after value).shown t coords = some (t.type.encode value) := if_pos empty

theorem aroundFull (full : 0 ∉ t.dims) (coords : List Nat) : (around mode t before after value).shown t coords =
    match mode.sourceIndices coords before t.dims with
    | none => some (t.type.encode value)
    | some index => t.element? index := if_neg full

theorem aroundUnpadded (within : Within coords t.dims) :
    (around mode t (.replicate t.dims.length 0) (.replicate t.dims.length 0) value).shown t coords = t.element? coords := by
  rw [aroundFull (Index.withinFull within), PadMode.sourceIndicesUnpadded mode within]

theorem aroundTwice (composes : mode.Composes) (fills : mode.FillsAll t.dims before after)
    (fills' : mode.FillsAll mid.dims before' after')
    (described : mid.descriptor = ⟨padded t.dims before after, t.type, t.format⟩)
    (elements : ∀ coords, Within coords (padded t.dims before after) →
      mid.element? coords = (around mode t before after value).shown t coords)
    (within : Within coords (padded mid.dims before' after')) :
    (around mode mid before' after' value).shown mid coords =
      (around mode t (List.zipWith (· + ·) before before') (List.zipWith (· + ·) after after') value).shown t coords := by
  have dims : mid.dims = padded t.dims before after := congrArg Descriptor.dims described
  have type : mid.type = t.type := by rw [Tensor.type, described]
  have reached : ∀ index, 0 ∉ mid.dims → mode.sourceIndices coords before' mid.dims = some index →
      mid.element? index = (around mode t before after value).shown t index := fun index full found =>
    elements index (dims ▸ PadMode.sourceIndicesWithin fills' full within found)
  by_cases empty : 0 ∈ t.dims
  · rw [aroundEmpty empty]
    by_cases full : 0 ∈ mid.dims
    · rw [aroundEmpty full, type]
    · rw [aroundFull full]
      cases found : mode.sourceIndices coords before' mid.dims with
      | none => rw [type]
      | some index => exact (reached index full found).trans (aroundEmpty empty index)
  · have full : 0 ∉ mid.dims := dims ▸ paddedFull empty fills
    obtain ⟨front, back⟩ := PadMode.fillsLength fills
    obtain ⟨front', back'⟩ := PadMode.fillsLength fills'
    have rank : mid.dims.length = t.dims.length := by rw [dims, paddedLength front back]
    have same : coords.length = t.dims.length := by
      rw [Index.withinLength within, paddedLength front' back', rank]
    rw [aroundFull full, aroundFull empty,
      PadMode.sourceIndicesThrough composes empty fills (front'.trans rank) same, ← dims]
    cases found : mode.sourceIndices coords before' mid.dims with
    | none => rw [type]; rfl
    | some index => exact (reached index full found).trans (aroundFull empty index)

end
end PadRequest

namespace PadAttributes
open PadRequest (padded around)

inductive WidthsFrom (widths : List Nat) : Option (List Int) → Option Tensor → Prop where
  | given (input : Option Tensor) : WidthsFrom widths (some (widths.map Int.ofNat)) input
  | read {input : Tensor} (held : input.integers? = some (widths.map Int.ofNat)) : WidthsFrom widths none (some input)

inductive BorderFrom (value : Double) : Option Double → Option Tensor → Prop where
  | given (input : Option Tensor) : BorderFrom value (some value) input
  | read {input : Tensor} (held : input.doubles = [value]) : BorderFrom value none (some input)

structure Asks (a : PadAttributes) (rest : List Tensor) (mode : PadMode) (before after : List Nat) (value : Double) :
    Prop where
  mode : a.mode = mode
  before : WidthsFrom before a.before rest[0]?
  after : WidthsFrom after a.after rest[1]?
  value : BorderFrom value a.value rest[2]?

def PadsTo (a : PadAttributes) (inputs : List Tensor) (out : Tensor) : Prop :=
  ∀ context, ∃ plan, BuiltinKernel.padElements.plan (.pad a) inputs context = .ok plan ∧
    plan.outputs = [out.descriptor] ∧
    ∀ s, Run.Leaves (BuiltinKernel.padElements.execute s plan inputs) plan.outputs [out]

def Faults (a : PadAttributes) (inputs : List Tensor) : Prop :=
  ∀ context, BuiltinKernel.padElements.plan (.pad a) inputs context = Result.fault

variable {a : PadAttributes} {t : Tensor} {rest : List Tensor} {mode : PadMode} {before after : List Nat} {value : Double}

omit [Widths] in
theorem WidthsFrom.resolved {widths : List Nat} {given : Option (List Int)} {position rank : Nat} {what : String}
    (found : WidthsFrom widths given (t :: rest)[position]?) (length : widths.length = rank) :
    PadRequest.resolveWidths given (t :: rest) position what rank = .ok widths := by
  have own : PadRequest.widths what rank (widths.map Int.ofNat) = .ok widths := by
    simp [PadRequest.widths, Result.ensure, length, Function.comp_def]
  generalize place : (t :: rest)[position]? = there at found
  cases found with
  | given => exact own
  | read held =>
    simp only [PadRequest.resolveWidths, PadRequest.runtimeInput, place, Result.ofOptionSome, Result.okBind, Tensor.integers,
      held, own]

theorem Asks.resolved (asks : a.Asks rest mode before after value) (fills : mode.FillsAll t.dims before after) :
    PadRequest.ofInputs a (t :: rest) =
      (Result.forEach Machine.word (padded t.dims before after)).map fun _ => around mode t before after value := by
  obtain ⟨rfl, front, back, border⟩ := asks
  obtain ⟨length, length'⟩ := PadMode.fillsLength fills
  have first := @WidthsFrom.resolved t rest _ _ 1 t.descriptor.rank "pads_begin" front length
  have second := @WidthsFrom.resolved t rest _ _ 2 t.descriptor.rank "pads_end" back length'
  have limits : PadRequest.checkLimits a.mode t.descriptor.dims 0 t.descriptor.dims before after = .ok () :=
    PadRequest.limitsChecked fills
  have resolved : PadRequest.ofInputs a (t :: rest) = Result.forEach Machine.word (padded t.dims before after) >>= fun dims =>
      .ok ⟨a.mode, before, after, value, t.descriptor, dims, t.type, t.format⟩ := by
    generalize own : a.value = given at border
    generalize place : rest[2]? = input at border
    have third : (t :: rest)[3]? = input := place
    unfold PadRequest.ofInputs
    simp only [List.head?_cons, Result.ofOptionSome, Result.okBind, first, second, own]
    cases border with
    | given =>
      simp only [pure, Except.pure, Result.okBind, limits]
      rfl
    | read held =>
      simp only [PadRequest.runtimeInput, third, Result.ofOptionSome, Result.okBind, held, singleValue, limits]
      rfl
  rw [resolved]
  cases words : Result.forEach Machine.word (padded t.dims before after) with
  | error h => rfl
  | ok dims =>
    obtain ⟨_, rfl⟩ := Machine.wordsOk.mp words
    rfl

theorem Asks.faults (asks : a.Asks rest mode before after value) (fills : mode.FillsAll t.dims before after)
    (beyond : ¬ ∀ n ∈ padded t.dims before after, n < pow2 64) : a.Faults (t :: rest) := by
  intro context
  have request : PadRequest.ofInputs a (t :: rest) = Result.fault := by
    rw [asks.resolved fills, Machine.wordsFault beyond]
    rfl
  change a.planElements (t :: rest) context = _
  rw [planElements, request]
  rfl

theorem padsShown (asks : a.Asks rest mode before after value) (fills : mode.FillsAll t.dims before after)
    (words : ∀ n ∈ padded t.dims before after, n < pow2 64) :
    ∃ out : Tensor, a.PadsTo (t :: rest) out ∧ out.descriptor = ⟨padded t.dims before after, t.type, t.format⟩ ∧
      out.ZeroTails ∧ ∀ coords, Within coords (padded t.dims before after) →
        out.element? coords = (around mode t before after value).shown t coords := by
  have request : PadRequest.ofInputs a (t :: rest) = .ok (around mode t before after value) := by
    rw [asks.resolved fills, Machine.wordsOk.mpr ⟨words, rfl⟩]
    rfl
  have sound := (PadRequest.ofInputsSound request).1
  obtain ⟨source, l, m, size, found, sourceLayout, targetLayout, held, leaves⟩ := runsLeave request rfl a.validity
  cases found
  have tails := PadRequest.outputTails sound sourceLayout targetLayout held size
  refine ⟨_, fun context => ?_, rfl, tails, fun coords within =>
    PadRequest.outputElement sound rfl sourceLayout targetLayout held rfl rfl within⟩
  obtain ⟨m', targetLayout', planned⟩ := planElementsOk request context
  exact ⟨_, planned, rfl, fun _ => leaves.elements m' context.team targetLayout'⟩

/-- In a mode that composes, padding twice by elements leaves what one padding by both widths leaves, and padding by nothing
keeps each element, also around tensors that are empty along some axis. Where a length by both widths leaves its word, the
one padding stops there and so does one of the two. -/
theorem paddingComposes (composes : mode.Composes) (t : Tensor) (value : Double) :
    (∀ (a a' whole : PadAttributes) (rest rest' rest'' : List Tensor) (before after before' after' : List Nat),
      before.length = t.dims.length → after.length = t.dims.length → before'.length = t.dims.length →
      after'.length = t.dims.length → a.Asks rest mode before after value → a'.Asks rest' mode before' after' value →
      whole.Asks rest'' mode (List.zipWith (· + ·) before before') (List.zipWith (· + ·) after after') value →
      if ∀ n ∈ padded t.dims (List.zipWith (· + ·) before before') (List.zipWith (· + ·) after after'), n < pow2 64 then
        ∃ mid out, a.PadsTo (t :: rest) mid ∧ mid.descriptor = ⟨padded t.dims before after, t.type, t.format⟩ ∧
          a'.PadsTo (mid :: rest') out ∧ whole.PadsTo (t :: rest'') out
      else whole.Faults (t :: rest'') ∧ (a.Faults (t :: rest) ∨ ∃ mid, a.PadsTo (t :: rest) mid ∧
        mid.descriptor = ⟨padded t.dims before after, t.type, t.format⟩ ∧ a'.Faults (mid :: rest'))) ∧
    ∀ (a : PadAttributes) (rest : List Tensor),
      a.Asks rest mode (.replicate t.dims.length 0) (.replicate t.dims.length 0) value →
      if ∀ n ∈ t.dims, n < pow2 64 then
        ∃ out, a.PadsTo (t :: rest) out ∧ out.descriptor = t.descriptor ∧
          ∀ coords, Within coords t.dims → out.element? coords = t.element? coords
      else a.Faults (t :: rest) := by
  refine ⟨fun a a' whole rest rest' rest'' before after before' after' front back front' back' asks asks' once => ?_,
    fun a rest asks => ?_⟩
  · have fills := PadMode.composedFillsAll composes front back
    have fillsOnce : mode.FillsAll t.dims (List.zipWith (· + ·) before before') (List.zipWith (· + ·) after after') :=
      PadMode.composedFillsAll composes (by simp [front, front']) (by simp [back, back'])
    have twice := PadRequest.paddedTwice fills front' back'
    split
    · rename_i words
      have words' : ∀ n ∈ padded (padded t.dims before after) before' after', n < pow2 64 := by rwa [twice]
      have length : (padded t.dims before after).length = t.dims.length := PadRequest.paddedLength front back
      obtain ⟨mid, pads, described, _, elements⟩ := padsShown asks fills
        (PadRequest.paddedWords (front'.trans length.symm) (back'.trans length.symm) words')
      have dims : mid.dims = padded t.dims before after := congrArg Descriptor.dims described
      have rank : mid.dims.length = t.dims.length := by rw [dims, length]
      have fills' := PadMode.composedFillsAll composes (front'.trans rank.symm) (back'.trans rank.symm)
      obtain ⟨out, pads', described', tails, elements'⟩ := padsShown asks' fills' (by rwa [dims])
      obtain ⟨single, padsOnce, describedOnce, tailsOnce, elementsOnce⟩ := padsShown (t := t) once fillsOnce words
      have target : padded mid.dims before' after' =
          padded t.dims (List.zipWith (· + ·) before before') (List.zipWith (· + ·) after after') := by
        rw [dims, twice]
      have equal : out = single := by
        refine Tensor.sameOfElements ?_ tails tailsOnce fun coords within => ?_
        · rw [described', describedOnce, target, Tensor.type, Tensor.format, described]
        · rw [Tensor.dims, described'] at within
          rw [elements' coords within, elementsOnce coords (target ▸ within)]
          exact PadRequest.aroundTwice composes fills fills' described elements within
      exact ⟨mid, out, pads, described, pads', equal ▸ padsOnce⟩
    · rename_i beyond
      refine ⟨once.faults fillsOnce beyond, ?_⟩
      by_cases words : ∀ n ∈ padded t.dims before after, n < pow2 64
      · obtain ⟨mid, pads, described, _⟩ := padsShown asks fills words
        have dims : mid.dims = padded t.dims before after := congrArg Descriptor.dims described
        have rank : mid.dims.length = t.dims.length := by rw [dims, PadRequest.paddedLength front back]
        have fills' := PadMode.composedFillsAll composes (front'.trans rank.symm) (back'.trans rank.symm)
        exact .inr ⟨mid, pads, described, asks'.faults fills' (by rwa [dims, twice])⟩
      · exact .inl (asks.faults fills words)
  · have fills := PadMode.unpaddedFillsAll mode t.dims
    have same := PadRequest.paddedUnpadded t.dims
    split
    · rename_i words
      obtain ⟨out, pads, described, _, elements⟩ := padsShown asks fills (by rwa [same])
      rw [same] at described elements
      exact ⟨out, pads, described, fun coords within => (elements coords within).trans (PadRequest.aroundUnpadded within)⟩
    · rename_i beyond
      exact asks.faults fills (by rwa [same])

end PadAttributes
end

namespace PadAttributes
open PadRequest (padded around)

theorem paddingComposesOfEmpty :
    let empty : Tensor := ⟨⟨[1, 0], .u8, .plain⟩, [], rfl⟩
    let seven := Binary.ofInt .double 7
    let pad (before after : List Nat) : PadAttributes :=
      ⟨.edge, some (before.map Int.ofNat), some (after.map Int.ofNat), some seven⟩
    (∃ mid out, (pad [0, 1] [0, 1]).PadsTo [empty] mid ∧ mid.dims = [1, 2] ∧ (pad [2, 0] [0, 3]).PadsTo [mid] out ∧
      (pad [2, 1] [0, 4]).PadsTo [empty] out) ∧
    ∃ out, (pad [0, 0] [0, 0]).PadsTo [empty] out ∧ out.descriptor = empty.descriptor := by
  intro empty seven pad
  have asks (before after : List Nat) : (pad before after).Asks [] .edge before after seven :=
    ⟨rfl, .given _, .given _, .given _⟩
  have composes := paddingComposes (.inr rfl) empty seven
  have both := composes.1 _ _ _ [] [] [] [0, 1] [0, 1] [2, 0] [0, 3] rfl rfl rfl rfl (asks _ _) (asks _ _) (asks _ _)
  have none := composes.2 _ [] (asks _ _)
  rw [if_pos (by decide)] at both none
  obtain ⟨mid, out, first, described, second, once⟩ := both
  obtain ⟨kept, pads, own, _⟩ := none
  exact ⟨⟨mid, out, first, congrArg Descriptor.dims described, second, once⟩, kept, pads, own⟩

end PadAttributes
end TensorPlan
