import TensorPlan.GatherTree.Execution
import TensorPlan.Plan.Planning
import TensorPlan.Proofs.Patching
import TensorPlan.Proofs.Positions
import TensorPlan.Proofs.Schedules
import TensorPlan.Proofs.Tiling
/-! Running a plan for gathering beams. A chain stays within the beams as long as its parents are numbers of
beams, so a run writes the whole output, or it stops at an invalid parent and the output is as before. -/
namespace TensorPlan

def GatherTreeInputs.ofTensors [Widths] : List Tensor → Option GatherTreeInputs
  | [steps, parents, lengths, endToken] =>
    some ⟨steps.doubles, parents.doubles, lengths.doubles, (endToken.doubles.head?).getD (Binary.zero .double false)⟩
  | _ => none

namespace GatherTreePlan
variable {p : GatherTreePlan}

theorem positionInside {step batch beam : Nat} (first : step < p.steps) (second : batch < p.batches)
    (third : beam < p.beams) : p.position step batch beam < p.steps * p.batches * p.beams :=
  digitsBelow (digitsBelow first second) third

theorem beamInside {parent : Double} {beam : Nat} (found : p.beam? parent = some beam) : beam < p.beams := by
  simp only [beam?, Option.bind_eq_bind, Option.bind_eq_some_iff] at found
  obtain ⟨v, _, inside⟩ := found
  split at inside
  · rename_i bounds
    cases inside
    have natural := Rat.num_nonneg.mpr bounds.1
    omega
  · cases inside

theorem levelsInside (length : Double) : p.levels length ≤ p.steps := by
  unfold levels
  split
  · exact Nat.zero_le _
  · split
    · exact Nat.zero_le _
    · exact Nat.le_refl _
  · split
    · exact Nat.min_le_right _ _
    · exact Nat.zero_le _

theorem valueSome {values : List Double} {count i : Nat} (length : values.length = count) (inside : i < count) :
    ∃ v, values[i]? = some v := ⟨_, List.getElem?_eq_getElem (by rwa [length])⟩

structure Covers (p : GatherTreePlan) (inputs : GatherTreeInputs) : Prop where
  steps : inputs.steps.length = p.steps * p.batches * p.beams
  parents : inputs.parents.length = p.steps * p.batches * p.beams
  lengths : inputs.lengths.length = p.batches

def InvalidParent (p : GatherTreePlan) (h : Halt) : Prop :=
  ∃ parent level batch, p.beam? parent = none ∧ h = .error (.parentRange parent level batch p.beams)

def BothStray {α : Type} (r r' : Result α) : Prop :=
  ∃ (p : GatherTreePlan) (h h' : Halt), r = .error h ∧ r' = .error h' ∧ p.InvalidParent h ∧ p.InvalidParent h'

def FirstFailure (p : GatherTreePlan) (inputs : GatherTreeInputs) (items : List Nat) (h : Halt) : Prop :=
  ∃ item ∈ items, p.column inputs item = .error h ∧ ∀ earlier ∈ items, earlier < item → ∃ ids, p.column inputs earlier = .ok ids

section
variable {inputs : GatherTreeInputs} (covers : p.Covers inputs)
include covers

theorem chainStep {batch level beam : Nat} (inside : batch < p.batches) (below : level < p.steps) (within : beam < p.beams) :
    ∃ id parent, inputs.steps[p.position level batch beam]? = some id ∧
      inputs.parents[p.position level batch beam]? = some parent ∧
      ((p.beam? parent = none ∧
          p.chain inputs batch (level + 1) beam = .error (.error (.parentRange parent level batch p.beams))) ∨
        ∃ next, p.beam? parent = some next ∧
          p.chain inputs batch (level + 1) beam = p.chain inputs batch level next >>= fun front => .ok (front ++ [id])) := by
  have position := positionInside below inside within
  obtain ⟨id, ofId⟩ := valueSome covers.steps position
  obtain ⟨parent, ofParent⟩ := valueSome covers.parents position
  refine ⟨id, parent, ofId, ofParent, ?_⟩
  simp only [chain, ofId, ofParent, Result.orFaultSome, Result.okBind]
  cases found : p.beam? parent with
  | none => exact .inl ⟨rfl, rfl⟩
  | some next => exact .inr ⟨next, rfl, rfl⟩

theorem chainEither {batch level beam : Nat} (inside : batch < p.batches) (below : level ≤ p.steps)
    (within : beam < p.beams) :
    (∃ ids, p.chain inputs batch level beam = .ok ids ∧ ids.length = level) ∨
      ∃ h, p.chain inputs batch level beam = .error h ∧ p.InvalidParent h := by
  -- Over all beams at once, because a valid parent leads to another beam one level below.
  induction level generalizing beam with
  | zero => exact .inl ⟨[], rfl, rfl⟩
  | succ level ih =>
    obtain ⟨id, parent, _, _, ⟨none, failed⟩ | ⟨next, found, step⟩⟩ := chainStep covers inside below within
    · exact .inr ⟨_, failed, parent, level, batch, none, rfl⟩
    · rcases ih (Nat.le_of_succ_le below) (beamInside found) with ⟨ids, ok, length⟩ | ⟨h, failed, invalid⟩
      · exact .inl ⟨ids ++ [id], by rw [step, ok, Result.okBind], by simp [length]⟩
      · exact .inr ⟨h, by rw [step, failed, Result.errorBind], invalid⟩

theorem columnEither {item : Nat} (inside : item < p.batches * p.beams) :
    (∃ ids, p.column inputs item = .ok ids ∧ ids.length = p.steps) ∨
      ∃ h, p.column inputs item = .error h ∧ p.InvalidParent h := by
  obtain ⟨positive, batch⟩ := quotientBelow inside
  obtain ⟨length, ofLength⟩ := valueSome covers.lengths batch
  unfold column
  simp only [ofLength, Result.orFaultSome, Result.okBind]
  have levels : p.levels length ≤ p.steps := levelsInside length
  rcases chainEither covers batch levels (Nat.mod_lt item positive) with ⟨ids, ok, count⟩ | ⟨h, failed, invalid⟩
  · have kept := (List.takeWhile_sublist (l := ids) fun id => !id.same inputs.endToken).length_le
    rw [ok]
    exact .inl ⟨_, rfl, by rw [List.length_append, List.length_replicate]; omega⟩
  · exact .inr ⟨h, by rw [failed, Result.errorBind], invalid⟩

end

def columnEntries [Widths] (p : GatherTreePlan) (batch beam : Nat) : Nat → List Double → List (Nat × Bytes)
  | _, [] => []
  | step, v :: vs =>
    (p.position step batch beam, p.type.writeDouble .halfEven v) :: p.columnEntries batch beam (step + 1) vs

def entries [Widths] (p : GatherTreePlan) : Nat → List (List Double) → List (Nat × Bytes)
  | _, [] => []
  | item, c :: cs => p.columnEntries (item / p.beams) (item % p.beams) 0 c ++ p.entries (item + 1) cs

theorem writeColumnEq [Widths] (p : GatherTreePlan) (batch beam step : Nat) (column : List Double) (bytes : Bytes) :
    p.writeColumn batch beam step column bytes =
      NmsPlan.writeAll p.type.size (p.columnEntries batch beam step column) bytes := by
  induction column generalizing step bytes with
  | nil => rfl
  | cons v column ih => simp only [writeColumn, columnEntries, NmsPlan.writeAll, ih]

theorem writeColumnsEq [Widths] (p : GatherTreePlan) (item : Nat) (columns : List (List Double)) (bytes : Bytes) :
    p.writeColumns item columns bytes = NmsPlan.writeAll p.type.size (p.entries item columns) bytes := by
  induction columns generalizing item bytes with
  | nil => rfl
  | cons c columns ih =>
    simp only [writeColumns, entries, NmsPlan.writeAllAppend, writeColumnEq]
    exact congrArg _ (funext fun bytes => ih (item + 1) bytes)

theorem columnPlaces [Widths] (p : GatherTreePlan) (batch beam step : Nat) (column : List Double) :
    (p.columnEntries batch beam step column).map Prod.fst =
      (List.range' step column.length).map fun s => p.position s batch beam := by
  induction column generalizing step with
  | nil => rfl
  | cons v column ih => rw [columnEntries, List.map_cons, ih, List.length_cons, List.range'_succ, List.map_cons]

theorem columnWidths [Widths] (p : GatherTreePlan) (batch beam step : Nat) (column : List Double) :
    ∀ e ∈ p.columnEntries batch beam step column, e.2.length = p.type.size := by
  induction column generalizing step with
  | nil => exact fun e member => (List.not_mem_nil member).elim
  | cons v column ih =>
    intro e member
    rcases List.mem_cons.mp member with first | later
    · rw [first]
      exact ElementType.writeDoubleLength _ _ _
    · exact ih (step + 1) e later

theorem positionOfItem (p : GatherTreePlan) (step item : Nat) :
    p.position step (item / p.beams) (item % p.beams) = step * (p.batches * p.beams) + item := by
  rw [position, Nat.add_mul, Nat.add_assoc, Nat.div_add_mod', Nat.mul_assoc]

theorem entriesPlaces [Widths] {item : Nat} {columns : List (List Double)} (fits : ∀ c ∈ columns, c.length = p.steps) :
    (p.entries item columns).map Prod.fst = (List.range' item columns.length).flatMap fun i =>
      (List.range p.steps).map fun s => s * (p.batches * p.beams) + i := by
  induction columns generalizing item with
  | nil => rfl
  | cons c columns ih =>
    rw [entries, List.map_append, columnPlaces, fits c List.mem_cons_self, List.length_cons, List.range'_succ,
      List.flatMap_cons, ih fun c member => fits c (List.mem_cons_of_mem _ member), List.range_eq_range']
    simp only [positionOfItem]

theorem entriesWidths [Widths] (p : GatherTreePlan) (item : Nat) (columns : List (List Double)) :
    ∀ e ∈ p.entries item columns, e.2.length = p.type.size := by
  induction columns generalizing item with
  | nil => exact fun e member => (List.not_mem_nil member).elim
  | cons c columns ih =>
    intro e member
    rcases List.mem_append.mp member with own | later
    · exact columnWidths p _ _ 0 c e own
    · exact ih (item + 1) e later

theorem entriesCovering [Widths] {columns : List (List Double)} (count : columns.length = p.batches * p.beams)
    (fits : ∀ c ∈ columns, c.length = p.steps) : Bytes.Covering p.type.size (p.steps * (p.batches * p.beams))
      (p.steps * (p.batches * p.beams)) (p.entries 0 columns) := by
  have places : ∀ i, i ∈ (p.entries 0 columns).map Prod.fst ↔
      ∃ item < p.batches * p.beams, ∃ s < p.steps, s * (p.batches * p.beams) + item = i := by
    simp only [entriesPlaces fits, count, ← List.range_eq_range', List.mem_flatMap, List.mem_map, List.mem_range,
      implies_true]
  refine ⟨Nat.le_refl _, fun e member => ?_, entriesWidths p 0 columns, fun i below => (places i).mpr ?_⟩
  · obtain ⟨item, inside, s, small, same⟩ := (places e.1).mp (List.mem_map_of_mem member)
    rw [← same]
    exact digitsBelow small inside
  · obtain ⟨positive, small⟩ := quotientBelow below
    exact ⟨i % (p.batches * p.beams), Nat.mod_lt i positive, i / (p.batches * p.beams), small, Nat.div_add_mod' i _⟩

theorem ofInputsOk {inputs : List Tensor} : ofInputs inputs = .ok p ↔ ∃ steps parents lengths endToken,
    inputs = [steps, parents, lengths, endToken] ∧ (∀ t ∈ inputs, t.format = .plain) ∧
      steps.dims = [p.steps, p.batches, p.beams] ∧ parents.dims = steps.dims ∧ lengths.dims = [p.batches] ∧
      endToken.count = 1 ∧ steps.type = p.type := by
  constructor
  · intro ok
    unfold ofInputs at ok
    split at ok
    · rename_i steps parents lengths endToken
      refine ⟨steps, parents, lengths, endToken, rfl, ?_⟩
      cases grouped : [steps, parents, lengths, endToken].find? fun t => t.format != .plain with
      | some t =>
        rw [grouped] at ok
        exact (Result.failNotOk ok).elim
      | none =>
        rw [grouped] at ok
        have plain : ∀ t ∈ [steps, parents, lengths, endToken], t.format = .plain := fun t member => by
          simpa using List.find?_eq_none.mp grouped t member
        refine ⟨plain, ?_⟩
        simp only [Result.pureOk] at ok
        split at ok
        · rename_i count batches beams dims
          simp only [Result.bindOk, Result.ensureOk, Bool.and_eq_true, beq_iff_eq] at ok
          obtain ⟨_, shapes, last⟩ := ok
          cases last
          exact ⟨dims, shapes.1.1, shapes.1.2, shapes.2, rfl⟩
        · exact (Result.failNotOk ok).elim
    · exact (Result.failNotOk ok).elim
  · rintro ⟨steps, parents, lengths, endToken, rfl, plain, dims, parentsDims, lengthsDims, single, type⟩
    have grouped : ([steps, parents, lengths, endToken].find? fun t => t.format != .plain) = none :=
      List.find?_eq_none.mpr fun t member => by simp [plain t member]
    simp only [ofInputs, grouped, Result.pureOk, parentsDims, lengthsDims, single, dims, beq_self_eq_true, Bool.and_self,
      Result.ensure, if_true, Result.okBind, type]

theorem doublesLength [Widths] {t : Tensor} (plain : t.format = .plain) : t.doubles.length = volume t.dims := by
  rw [Tensor.doubles, List.length_map, t.elementsLength plain]; rfl

theorem coversInputs [Widths] {steps parents lengths endToken : Tensor}
    (ok : ofInputs [steps, parents, lengths, endToken] = .ok p) (token : Double) :
    p.Covers ⟨steps.doubles, parents.doubles, lengths.doubles, token⟩ := by
  obtain ⟨_, _, _, _, same, plain, stepsDims, parentsDims, lengthsDims, _⟩ := ofInputsOk.mp ok
  cases same
  constructor
  · rw [doublesLength (plain _ (by simp)), stepsDims]; simp [Nat.mul_assoc]
  · rw [doublesLength (plain _ (by simp)), parentsDims, stepsDims]; simp [Nat.mul_assoc]
  · rw [doublesLength (plain _ (by simp)), lengthsDims]; simp

end GatherTreePlan

namespace GatherTree
variable {inputs : List Tensor} {context : PlanContext} {plan : ExecutionPlan} {s : Schedule}

theorem planCases (ok : GatherTree.plan inputs context = .ok plan) : ∃ p team, GatherTreePlan.ofInputs inputs = .ok p ∧
    plan = ⟨inputs.map Tensor.descriptor, [.plain [p.steps, p.batches, p.beams] p.type], .lasting,
      .ofTeam (p.batches * p.beams) team, .gatherTree p⟩ := by
  simp only [GatherTree.plan, Result.bindOk] at ok
  obtain ⟨p, made, last⟩ := ok
  cases last
  exact ⟨p, _, made, rfl⟩

theorem runReads [Widths] {p : GatherTreePlan} {steps parents lengths endToken : Tensor} {outputs : List Tensor}
    (body : plan.body = .gatherTree p)
    (given : [steps, parents, lengths, endToken].map Tensor.descriptor = plan.inputs)
    (ready : outputs.map Tensor.descriptor = plan.outputs) :
    (GatherTreePlan.execute s plan [steps, parents, lengths, endToken]).run outputs =
      (Run.ofResult (plan.partition.forEach s (p.column ⟨steps.doubles, parents.doubles, lengths.doubles,
          (endToken.doubles.head?).getD (Binary.zero .double false)⟩)) >>= fun columns =>
        Run.overwrite 0 (p.writeColumns 0 columns)).run outputs := by
  rw [GatherTreePlan.execute, Run.bindOk (Run.runCheck given ready), body, Run.bindOk (Run.runInput rfl),
    Run.bindOk (Run.runInput rfl), Run.bindOk (Run.runInput rfl), Run.bindOk (Run.runInput rfl)]

theorem runColumns [Widths] (ok : GatherTree.plan inputs context = .ok plan) :
    ∃ p decoded, plan.body = .gatherTree p ∧ GatherTreeInputs.ofTensors inputs = some decoded ∧
      ((∃ columns t, Result.forEach (p.column decoded) (List.range (p.batches * p.beams)) = .ok columns ∧
          (∀ s, Run.Leaves (GatherTreePlan.execute s plan inputs) plan.outputs [t]) ∧
          t.descriptor = .plain [p.steps, p.batches, p.beams] p.type ∧
          t.data = Bytes.written p.type.size (p.steps * (p.batches * p.beams)) (p.entries 0 columns)) ∨
        (∃ h, Result.forEach (p.column decoded) (List.range (p.batches * p.beams)) = .error h) ∧
          ∀ s, ∃ h, plan.partition.forEach s (p.column decoded) = .error h ∧ p.InvalidParent h ∧
            Run.Stops (GatherTreePlan.execute s plan inputs) plan.outputs h) := by
  obtain ⟨p, team, made, planned⟩ := planCases ok
  obtain ⟨steps, parents, lengths, endToken, given, _⟩ := GatherTreePlan.ofInputsOk.mp made
  subst planned given
  have covers := GatherTreePlan.coversInputs made ((endToken.doubles.head?).getD (Binary.zero .double false))
  have each : ∀ n ∈ List.range (p.batches * p.beams), _ := fun n member =>
    GatherTreePlan.columnEither covers (List.mem_range.mp member)
  refine ⟨p, _, rfl, rfl, ?_⟩
  rcases Result.forEachEither each with ⟨columns, held, count, all⟩ | ⟨h, failed, _⟩
  · left
    have fits : ∀ c ∈ columns, c.length = p.steps := fun c member => by
      obtain ⟨i, found⟩ := List.mem_iff_getElem?.mp member
      obtain ⟨_, _, length⟩ := all i c found
      exact length
    rw [List.length_range] at count
    have covering := GatherTreePlan.entriesCovering count fits
    have size : (Descriptor.plain [p.steps, p.batches, p.beams] p.type).byteSize? =
        some (Bytes.written p.type.size (p.steps * (p.batches * p.beams)) (p.entries 0 columns)).length := by
      rw [Descriptor.plainSize, covering.writtenLength]
      simp
    refine ⟨columns, ⟨_, _, size⟩, held, fun s outputs ready => ?_, rfl, rfl⟩
    have gathered := Partition.forEachFine s ((congrArg _ (Partition.ofTeamItems _ team)).trans held)
    rw [runReads rfl rfl ready, gathered, Run.bindOk (Run.runOfResult _ _)]
    refine Run.overwriteLeaves size (fun bytes room => ?_) outputs ready
    rw [GatherTreePlan.writeColumnsEq]
    exact NmsPlan.writeAllWhole (room.trans covering.writtenLength) covering
  · refine .inr ⟨⟨h, failed⟩, fun s => ?_⟩
    obtain ⟨own, gathered⟩ := Partition.forEachFailed s ((congrArg _ (Partition.ofTeamItems _ team)).trans failed)
    obtain ⟨item, inside, fails⟩ := Partition.forEachSource gathered
    rw [Partition.ofTeamItems] at inside
    have invalid : p.InvalidParent own := by
      obtain ⟨ids, fine, _⟩ | ⟨_, found, invalid⟩ := each item inside
      · rw [fails] at fine
        cases fine
      · cases fails.symm.trans found
        exact invalid
    refine ⟨own, gathered, invalid, fun outputs ready => ?_⟩
    rw [runReads rfl rfl ready, gathered]
    exact Run.bindError (Run.runOfResult _ _)

section
variable (ok : GatherTree.plan inputs context = .ok plan) {outputs : List Tensor}
  (ready : outputs.map Tensor.descriptor = plan.outputs)
include ok ready

theorem runEither [Widths] (s : Schedule) :
    (∃ written, (GatherTreePlan.execute s plan inputs).run outputs = (Except.ok (), written)) ∨
      ∃ p h, plan.body = .gatherTree p ∧ p.InvalidParent h ∧
        (GatherTreePlan.execute s plan inputs).run outputs = (Except.error h, outputs) := by
  obtain ⟨p, _, body, _, ⟨_, t, _, leaves, _⟩ | ⟨_, failed⟩⟩ := runColumns ok
  · exact .inl ⟨[t], leaves s outputs ready⟩
  · obtain ⟨h, _, invalid, stopped⟩ := failed s
    exact .inr ⟨p, h, body, invalid, stopped outputs ready⟩

theorem runFails [Widths] : ∃ p decoded, plan.body = .gatherTree p ∧ GatherTreeInputs.ofTensors inputs = some decoded ∧
    ∀ s h, ((GatherTreePlan.execute s plan inputs).run outputs).1 = .error h ↔
      plan.partition.forEach s (p.column decoded) = .error h := by
  obtain ⟨p, decoded, body, held, ran⟩ := runColumns ok
  refine ⟨p, decoded, body, held, fun s h => ?_⟩
  obtain ⟨columns, _, found, leaves, _⟩ | ⟨_, failed⟩ := ran
  · obtain ⟨p', team, made, planned⟩ := planCases ok
    subst planned
    cases body
    have gathered := Partition.forEachFine s ((congrArg _ (Partition.ofTeamItems _ team)).trans found)
    rw [gathered, leaves s outputs ready]
    simp
  · obtain ⟨own, gathered, _, stopped⟩ := failed s
    rw [gathered, stopped outputs ready]
    simp

end

end GatherTree
end TensorPlan
