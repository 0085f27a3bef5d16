import Mathlib.Data.List.Forall2
import TensorPlan.Element.UpperWord
import TensorPlan.Proofs.Broadcast.Replication
import TensorPlan.Proofs.Dispatch.Contents
/-! Broadcasting in two steps. Without listed axes an input aligns with an output whose last axes its lengths divide, or it
is a single element. Both carry over from step to step: lengths that divide each other chain, and a coordinate modulo a
multiple of a length, modulo the length, is the coordinate modulo the length. -/
namespace TensorPlan
open Index (Within)

namespace Broadcast
open BroadcastPlan (wrapped wrappedWithin)
variable {input middle output aligned aligned' coords : List Nat} {axes axes' : Option (List Nat)}

theorem checkAxisUnlisted {axis source target : Nat} : checkAxis input [] axis source target = .ok () ↔ source ∣ target := by
  have unlisted : ([] : List Nat).contains axis = false := rfl
  rw [checkAxis, unlisted, if_neg Bool.false_ne_true]
  split
  · rename_i empty
    rw [Result.ensureOk, beq_iff_eq, empty, Nat.zero_dvd]
  · rw [Result.ensureOk, beq_iff_eq, Nat.dvd_iff_mod_eq_zero]

theorem checkAxesUnlisted {axis : Nat} (length : aligned.length = output.length) :
    checkAxes input [] axis aligned output = .ok () ↔ List.Forall₂ (· ∣ ·) aligned output := by
  induction aligned generalizing axis output with
  | nil =>
    cases List.length_eq_zero_iff.mp length.symm
    exact ⟨fun _ => .nil, fun _ => rfl⟩
  | cons source aligned ih =>
    obtain ⟨target, output, rfl⟩ := List.exists_cons_of_length_eq_add_one length.symm
    have rest := @ih output (axis + 1) (by simpa using length)
    rw [List.forall₂_cons, ← rest, ← checkAxisUnlisted, checkAxes, Result.bindOk]
    constructor
    · rintro ⟨_, first, later⟩
      exact ⟨first, later⟩
    · rintro ⟨first, later⟩
      exact ⟨(), first, later⟩

theorem normalizeUnlisted (unlisted : axes.getD [] = []) : normalize input output axes = .ok aligned ↔
    align? input output [] = some aligned ∧ List.Forall₂ (· ∣ ·) aligned output := by
  constructor
  · intro ok
    obtain ⟨_, found, checked⟩ := normalizeCases ok
    rw [unlisted] at found checked
    exact ⟨found, (checkAxesUnlisted (alignFits found).1).mp checked⟩
  · rintro ⟨found, divides⟩
    have checked : checkAxes input [] 0 aligned output = .ok () := (checkAxesUnlisted (alignFits found).1).mpr divides
    simp only [normalize, unlisted, List.find?_nil, Result.bindOk, Result.ofOptionOk]
    exact ⟨aligned, found, (), checked, rfl⟩

theorem alignGrown (grows : input.length ≤ output.length) :
    align? input output [] = some (List.replicate (output.length - input.length) 1 ++ input) := by
  unfold align?
  rcases Nat.lt_or_eq_of_le grows with shorter | same
  · simp [Nat.ne_of_lt shorter, shorter]
  · simp [same]

theorem singleDims (one : volume input = 1) : input = List.replicate input.length 1 := by
  induction input with
  | nil => rfl
  | cons d ds ih =>
    rw [volumeCons] at one
    rw [List.length_cons, List.replicate_succ, Nat.eq_one_of_mul_eq_one_right one,
      ← ih (Nat.eq_one_of_mul_eq_one_left one)]

theorem alignSingle (one : volume input = 1) : align? input output [] = some (List.replicate output.length 1) := by
  rcases Nat.lt_or_ge output.length input.length with shrinks | grows
  · simp [align?, Nat.ne_of_gt shrinks, Nat.not_lt_of_ge (Nat.le_of_lt shrinks), one]
  · rw [alignGrown grows]
    nth_rewrite 2 [singleDims one]
    rw [List.replicate_append_replicate, Nat.sub_add_cancel grows]

theorem alignEither (found : align? input output [] = some aligned) : input.length ≤ output.length ∨ volume input = 1 := by
  rcases Nat.lt_or_ge output.length input.length with shrinks | grows
  · right
    simp [align?, Nat.ne_of_gt shrinks, Nat.not_lt_of_ge (Nat.le_of_lt shrinks)] at found
    exact found.1
  · exact .inl grows

theorem dividesOne (divides : List.Forall₂ (· ∣ ·) input output) (one : volume output = 1) : volume input = 1 := by
  induction divides with
  | nil => rfl
  | cons first _ ih =>
    rw [volumeCons] at one ⊢
    rw [Nat.eq_one_of_mul_eq_one_right one, Nat.dvd_one] at first
    rw [first, ih (Nat.eq_one_of_mul_eq_one_left one)]

theorem dividesTrans {first second third : List Nat} (divides : List.Forall₂ (· ∣ ·) first second)
    (divides' : List.Forall₂ (· ∣ ·) second third) : List.Forall₂ (· ∣ ·) first third := by
  induction divides generalizing third with
  | nil => exact divides'
  | cons own _ ih =>
    cases divides' with
    | cons next rest => exact .cons (Nat.dvd_trans own next) (ih rest)

theorem onesDivide (ds : List Nat) : List.Forall₂ (· ∣ ·) (List.replicate ds.length 1) ds := by
  induction ds with
  | nil => exact .nil
  | cons d ds ih => exact .cons (Nat.one_dvd d) ih

inductive Chained (input middle output : List Nat) : Prop where
  | single (one : volume input = 1)
  | grown (first : input.length ≤ middle.length) (second : middle.length ≤ output.length)
      (divides : List.Forall₂ (· ∣ ·) input (middle.drop (middle.length - input.length)))

theorem leadingDivide (k : Nat) (enough : k ≤ output.length) :
    List.Forall₂ (· ∣ ·) (List.replicate k 1 ++ input) output ↔ List.Forall₂ (· ∣ ·) input (output.drop k) := by
  induction k generalizing output with
  | zero => rfl
  | succ k ih =>
    match output, enough with
    | d :: output, enough =>
      rw [List.replicate_succ, List.cons_append, List.forall₂_cons, List.drop_succ_cons, ih (by simpa using enough)]
      exact and_iff_right (Nat.one_dvd d)

theorem alignedBehind (grows : input.length ≤ output.length) (found : align? input output [] = some aligned) :
    List.Forall₂ (· ∣ ·) aligned output ↔ List.Forall₂ (· ∣ ·) input (output.drop (output.length - input.length)) := by
  cases (alignGrown grows).symm.trans found
  exact leadingDivide _ (Nat.sub_le _ _)

theorem alignChained (found : align? input middle [] = some aligned) (divides : List.Forall₂ (· ∣ ·) aligned middle)
    (found' : align? middle output [] = some aligned') : Chained input middle output := by
  rcases alignEither found with first | one
  · rcases alignEither found' with second | one
    · exact .grown first second ((alignedBehind first found).mp divides)
    · exact .single ((alignFits found).2.symm.trans (dividesOne divides one))
  · exact .single one

theorem normalizeTwice {axes'' : Option (List Nat)} (unlisted : axes.getD [] = []) (unlisted' : axes'.getD [] = [])
    (unlisted'' : axes''.getD [] = []) (ok : normalize input middle axes = .ok aligned)
    (ok' : normalize middle output axes' = .ok aligned') :
    Chained input middle output ∧ ∃ direct, normalize input output axes'' = .ok direct := by
  obtain ⟨found, divides⟩ := (normalizeUnlisted unlisted).mp ok
  obtain ⟨found', divides'⟩ := (normalizeUnlisted unlisted').mp ok'
  have chained := alignChained found divides found'
  refine ⟨chained, ?_⟩
  simp only [normalizeUnlisted unlisted'']
  cases chained with
  | single one => exact ⟨_, alignSingle one, onesDivide output⟩
  | grown first second own =>
    have grown := alignGrown (Nat.le_trans first second)
    refine ⟨_, grown, (alignedBehind (Nat.le_trans first second) grown).mpr ?_⟩
    have behind := List.forall₂_drop (middle.length - input.length) ((alignedBehind second found').mp divides')
    have depth : output.length - middle.length + (middle.length - input.length) = output.length - input.length := by omega
    rw [List.drop_drop, depth] at behind
    exact dividesTrans own behind

theorem sourceIndexBehind (grows : input.length ≤ coords.length) :
    sourceIndex input [] coords = wrapped (coords.drop (coords.length - input.length)) input := by
  have enough : input.length ≤ (coords.drop (coords.length - input.length)).length := by rw [List.length_drop]; omega
  rw [← wrappedTakeD enough, sourceIndex, followed, if_pos rfl]
  split
  · rename_i same
    rw [same, Nat.sub_self, List.drop_zero]
  · rfl

theorem wrappedTwice (divides : List.Forall₂ (· ∣ ·) input middle) (coords : List Nat) :
    wrapped (wrapped coords middle) input = wrapped coords input := by
  induction divides generalizing coords with
  | nil => simp [wrapped]
  | cons first _ ih =>
    cases coords with
    | nil => rfl
    | cons i coords =>
      have rest := ih coords
      simp only [wrapped, List.zipWith_cons_cons, Nat.mod_mod_of_dvd _ first] at rest ⊢
      rw [rest]

theorem sourceIndexTwice (first : input.length ≤ middle.length) (second : middle.length ≤ coords.length)
    (divides : List.Forall₂ (· ∣ ·) input (middle.drop (middle.length - input.length))) :
    sourceIndex input [] (sourceIndex middle [] coords) = sourceIndex input [] coords := by
  have between : (wrapped (coords.drop (coords.length - middle.length)) middle).length = middle.length := by
    rw [wrapped, List.length_zipWith, List.length_drop]; omega
  have depth : coords.length - middle.length + (middle.length - input.length) = coords.length - input.length := by omega
  have inner : (wrapped (coords.drop (coords.length - middle.length)) middle).drop (middle.length - input.length) =
      wrapped (coords.drop (coords.length - input.length)) (middle.drop (middle.length - input.length)) := by
    rw [wrapped, List.drop_zipWith, List.drop_drop, depth]
    rfl
  rw [sourceIndexBehind second, sourceIndexBehind (by rw [between]; exact first), between, inner, wrappedTwice divides,
    sourceIndexBehind (Nat.le_trans first second)]

theorem withinSingle {index index' ds : List Nat} (one : volume ds = 1) (within : Within index ds)
    (within' : Within index' ds) : index = index' := by
  have first := Index.dotBound within
  have second := Index.dotBound within'
  rw [← Index.ofPositionDot within, ← Index.ofPositionDot within']
  exact congrArg (Index.ofPosition ds) (by omega)

theorem chainedIndex (chained : Chained input middle output) (rank : coords.length = output.length)
    (within : Within (sourceIndex input [] (sourceIndex middle [] coords)) input)
    (within' : Within (sourceIndex input [] coords) input) :
    sourceIndex input [] (sourceIndex middle [] coords) = sourceIndex input [] coords := by
  cases chained with
  | single one => exact withinSingle one within within'
  | grown first second divides => exact sourceIndexTwice first (rank ▸ second) divides

end Broadcast

section
variable [Widths]

namespace BuiltinKernel

def BroadcastOnce (k : BuiltinKernel) (a : BroadcastAttributes) (inputs : List Tensor) (out : Tensor) : Prop :=
  ∃ context plan s before, k.plan (.broadcast a) inputs context = .ok plan ∧
    (k.execute s plan inputs).run before = (.ok (), [out])

def Broadcasts (k : BuiltinKernel) (a : BroadcastAttributes) (inputs : List Tensor) (out : Tensor) : Prop :=
  ∀ context, ∃ plan, k.plan (.broadcast a) inputs context = .ok plan ∧ plan.outputs = [out.descriptor] ∧
    ∀ s, Run.Leaves (k.execute s plan inputs) plan.outputs [out]

end BuiltinKernel

namespace BroadcastAttributes
open Broadcast (sourceIndex)
open BroadcastPlan (Replicates)
variable {a : BroadcastAttributes} {t out : Tensor} {rest : List Tensor} {k : BuiltinKernel} {dims aligned : List Nat}

theorem plainBroadcasts (plain : t.format = .plain) (unlisted : a.axes.getD [] = []) (kind : k.kind = .broadcast)
    (target : BroadcastPlan.resolveTarget a (t :: rest) = .ok dims)
    (normalized : Broadcast.normalize t.dims dims a.axes = .ok aligned) :
    ∃ out, k.Broadcasts a (t :: rest) out ∧ Replicates [] dims aligned t out := by
  have first : (t :: rest)[0]? = some t := rfl
  have made := ofInputsOk first target normalized (.inl plain)
  obtain ⟨_, found, _⟩ := Broadcast.normalizeCases normalized
  rw [unlisted] at found
  obtain ⟨source, l, m, size, there, sourceLayout, targetLayout, reaches, leaves⟩ := runsLeave made rfl a.validity
  cases there
  have sound := (planSource made rfl).1
  have replicates := BroadcastPlan.outputReplicates sound rfl sourceLayout targetLayout reaches found
    (fun _ member => (List.not_mem_nil member).elim) rfl rfl (BroadcastPlan.outputTails sound targetLayout reaches size)
  refine ⟨_, fun context => ?_, replicates⟩
  cases k with
  | broadcastBlocks => exact ⟨_, planOk made plain context, rfl, fun _ => leaves.blocks context.team plain⟩
  | broadcastElements =>
    obtain ⟨m', layout, planned⟩ := planElementsOk made context
    exact ⟨_, planned, rfl, fun _ => leaves.elements m' context.team layout⟩
  | padRows | padElements | reorderSpans | reorderElements | matrixNms | gatherTree => cases kind

theorem onceResolved (once : k.BroadcastOnce a (t :: rest) out) : k.kind = .broadcast ∧ ∃ dims aligned,
    BroadcastPlan.resolveTarget a (t :: rest) = .ok dims ∧ Broadcast.normalize t.dims dims a.axes = .ok aligned := by
  obtain ⟨context, plan, _, _, planned, _⟩ := once
  have made : k.kind = .broadcast ∧ ∃ p, BroadcastPlan.ofInputs a (t :: rest) = .ok p := by
    cases k with
    | broadcastBlocks =>
      obtain ⟨p, _, made, _⟩ := planCases planned
      exact ⟨rfl, p, made⟩
    | broadcastElements =>
      obtain ⟨p, _, _, made, _⟩ := planElementsCases planned
      exact ⟨rfl, p, made⟩
    | padRows | padElements | reorderSpans | reorderElements | matrixNms | gatherTree =>
      exact (Result.failNotOk planned).elim
  obtain ⟨kind, p, made⟩ := made
  simp only [BroadcastPlan.ofInputs, List.head?_cons, Result.ofOptionSome, Result.okBind, Result.bindOk] at made
  obtain ⟨dims, target, aligned, normalized, _⟩ := made
  exact ⟨kind, dims, aligned, target, normalized⟩

theorem onceLeft {other : Tensor} (once : k.BroadcastOnce a (t :: rest) out) (always : k.Broadcasts a (t :: rest) other) :
    out = other := by
  obtain ⟨context, plan, s, before, planned, ran⟩ := once
  obtain ⟨plan', planned', _, leaves⟩ := always context
  cases planned.symm.trans planned'
  rw [leaves s before (BuiltinKernel.executeReady ran).2] at ran
  cases ran
  rfl

theorem onceReplicates (plain : t.format = .plain) (unlisted : a.axes.getD [] = [])
    (once : k.BroadcastOnce a (t :: rest) out) : ∃ dims aligned, BroadcastPlan.resolveTarget a (t :: rest) = .ok dims ∧
      Broadcast.normalize t.dims dims a.axes = .ok aligned ∧ Replicates [] dims aligned t out := by
  obtain ⟨kind, dims, aligned, target, normalized⟩ := onceResolved once
  obtain ⟨other, always, replicates⟩ := plainBroadcasts plain unlisted kind target normalized
  cases onceLeft once always
  exact ⟨dims, aligned, target, normalized, replicates⟩

/-- Without listed axes a tensor without moved channels that is broadcast, and whose broadcast is broadcast again, is
broadcast to the last target at once, by every kernel for it and with the same bytes. -/
theorem broadcastComposes (t middle out : Tensor) (plain : t.format = .plain) (a a' whole : BroadcastAttributes)
    (unlisted : a.axes.getD [] = []) (unlisted' : a'.axes.getD [] = []) (unlistedWhole : whole.axes.getD [] = [])
    (rest rest' restWhole : List Tensor) (k k' kernel : BuiltinKernel) (kind : kernel.kind = .broadcast)
    (first : k.BroadcastOnce a (t :: rest) middle) (second : k'.BroadcastOnce a' (middle :: rest') out)
    (same : BroadcastPlan.resolveTarget whole (t :: restWhole) = BroadcastPlan.resolveTarget a' (middle :: rest')) :
    kernel.Broadcasts whole (t :: restWhole) out := by
  obtain ⟨dims, aligned, _, normalized, replicates⟩ := onceReplicates plain unlisted first
  have type : middle.type = t.type := by rw [Tensor.type, replicates.described]
  have plain' : middle.format = .plain := by rw [Tensor.format, replicates.described, plain]; rfl
  obtain rfl : middle.dims = dims := congrArg Descriptor.dims replicates.described
  obtain ⟨target, aligned', resolved, normalized', replicates'⟩ := onceReplicates plain' unlisted' second
  obtain ⟨chained, direct, normalizedWhole⟩ :=
    Broadcast.normalizeTwice unlisted unlisted' unlistedWhole normalized normalized'
  obtain ⟨single, broadcasts, replicatesWhole⟩ :=
    plainBroadcasts plain unlistedWhole kind (same.trans resolved) normalizedWhole
  have equal : out = single := by
    refine Tensor.sameOfElements ?_ replicates'.tails replicatesWhole.tails fun coords within => ?_
    · rw [replicates'.described, replicatesWhole.described, type, plain, plain']
    · have inside : Within coords target := by rwa [Tensor.dims, replicates'.described] at within
      obtain ⟨element, shown, goal⟩ := replicates'.element coords inside
      obtain ⟨origin, held, wholeGoal⟩ := replicatesWhole.element coords inside
      have reached := (replicates'.position coords inside).1
      obtain ⟨own, ownHeld, ownGoal⟩ := replicates.element _ reached
      have index := Broadcast.chainedIndex chained (Index.withinLength inside)
        (replicates.position _ reached).1 (replicatesWhole.position coords inside).1
      rw [goal, wholeGoal, ← shown, ← held, ownGoal, ← ownHeld, index]
  exact equal ▸ broadcasts

end BroadcastAttributes
end

namespace BroadcastAttributes
open Broadcast (sourceIndex)
open BroadcastPlan (Replicates)

theorem broadcastComposesOfTable :
    let pair : Tensor := ⟨.plain [2] .u8, [1, 2], rfl⟩
    let row : Tensor := ⟨.plain [1, 4] .u8, [1, 2, 1, 2], rfl⟩
    let lengths : Tensor := ⟨.plain [2] .i8, [2, 8], rfl⟩
    let table : Tensor := ⟨.plain [2, 8] .u8, [1, 2, 1, 2, 1, 2, 1, 2, 1, 2, 1, 2, 1, 2, 1, 2], rfl⟩
    BuiltinKernel.broadcastElements.BroadcastOnce ⟨some [1, 4], none⟩ [pair] row ∧
      BuiltinKernel.broadcastBlocks.BroadcastOnce ⟨none, some []⟩ [row, lengths] table ∧
      BuiltinKernel.broadcastBlocks.Broadcasts ⟨some [2, 8], none⟩ [pair] table := by
  intro pair row lengths table
  have first : BuiltinKernel.broadcastElements.BroadcastOnce ⟨some [1, 4], none⟩ [pair] row :=
    ⟨⟨2, 0⟩, _, .inOrder, [⟨.plain [1, 4] .u8, [9, 9, 9, 9], rfl⟩], rfl, Prod.ext (by decide +kernel) (by decide +kernel)⟩
  have second : BuiltinKernel.broadcastBlocks.BroadcastOnce ⟨none, some []⟩ [row, lengths] table := by
    obtain ⟨plan, planned⟩ : ∃ plan, BuiltinKernel.broadcastBlocks.plan (.broadcast ⟨none, some []⟩)
      [row, ⟨.plain [2] .i8, [2, 8], rfl⟩] ⟨3, 1⟩ = .ok plan := ⟨_, rfl⟩
    refine ⟨⟨3, 1⟩, plan, .inOrder, [⟨.plain [2, 8] .u8, Bytes.zeros 16, rfl⟩], planned, ?_⟩
    cases planned
    exact Prod.ext (by decide +kernel) (by decide +kernel)
  exact ⟨first, second, broadcastComposes pair row table rfl _ _ _ rfl rfl rfl [] [lengths] [] _ _ _ rfl first second
    (by decide +kernel)⟩

end BroadcastAttributes
end TensorPlan
