import TensorPlan.Proofs.Element.Carried
import TensorPlan.Proofs.GatherTree.Backtracking
/-! Backtracking over integers. A run carries step ids and end token as doubles, so a column ends at the first id that is
carried to where the end token is, and holds what its ids are carried to. Where all are carried to themselves, it is exact. -/
namespace TensorPlan

namespace GatherTree

variable [Widths]

theorem Visits.within {beams batch beam length level place : Nat} {parents : Tensor}
    (visits : Visits beams parents batch beam length level place) (inside : beam < beams) : place < beams := by
  cases visits with
  | last => exact inside
  | back _ _ names => exact names.2

section
variable (carry : Int → Int) (beams : Nat) (steps parents : Tensor) (token : Int) (batch beam length level : Nat)

def EndedAt : Prop :=
  ∃ earlier ≤ level, ∃ place id, Visits beams parents batch beam length earlier place ∧
    steps.integer? [earlier, batch, place] = some id ∧ carry id = carry token

inductive HoldsInteger : Int → Prop where
  | step {place : Nat} {id : Int} (visited : Visits beams parents batch beam length level place)
      (read : steps.integer? [level, batch, place] = some id)
      (running : ¬ EndedAt carry beams steps parents token batch beam length level) : HoldsInteger (carry id)
  | done (past : length ≤ level ∨ EndedAt carry beams steps parents token batch beam length level) :
      HoldsInteger (carry token)

end

structure Gathers (carry : Int → Int) (p : GatherTreePlan) (steps parents lengths : Tensor) (token : Int) (output : Tensor) :
    Prop where
  described : output.descriptor = .plain [p.steps, p.batches, p.beams] p.type
  integer : ∀ level batch beam, level < p.steps → batch < p.batches → beam < p.beams → ∃ length v,
    lengths.double? [batch] = some length ∧
      HoldsInteger carry p.beams steps parents token batch beam (p.levels length) level v ∧
      output.integer? [level, batch, beam] = some v

section
variable {carry : Int → Int} {p : GatherTreePlan} {steps parents lengths output : Tensor} {token : Int}
  {beams batch beam length level : Nat}

theorem endedExact (ids : ∀ coords id, steps.integer? coords = some id → carry id = id) (own : carry token = token) :
    EndedAt carry beams steps parents token batch beam length level ↔
      EndedAt id beams steps parents token batch beam length level := by
  constructor
  · rintro ⟨earlier, before, place, found, visits, read, same⟩
    exact ⟨earlier, before, place, found, visits, read, by rwa [ids _ _ read, own] at same⟩
  · rintro ⟨earlier, before, place, found, visits, read, same⟩
    exact ⟨earlier, before, place, found, visits, read, congrArg carry same⟩

theorem Gathers.exact (gathers : Gathers carry p steps parents lengths token output)
    (ids : ∀ coords id, steps.integer? coords = some id → carry id = id) (own : carry token = token) :
    Gathers id p steps parents lengths token output := by
  refine ⟨gathers.described, fun level batch beam below inside within => ?_⟩
  obtain ⟨length, v, read, holds, shown⟩ := gathers.integer level batch beam below inside within
  refine ⟨length, v, read, ?_, shown⟩
  cases holds with
  | step visited found running =>
    rw [ids _ _ found]
    exact .step visited found (mt (endedExact ids own).mpr running)
  | done past =>
    rw [own]
    exact .done (past.imp_right (endedExact ids own).mp)

section
variable {low high : Int} (range : p.type.integerRange? = some (low, high)) (type : steps.type = p.type)
  (inside : low ≤ token ∧ token ≤ high)
include range type inside

theorem endedCarried : Ended beams steps parents (Binary.ofInt .double token) batch beam length level ↔
    EndedAt p.type.carried beams steps parents token batch beam length level := by
  have words := ElementType.rangeWord range inside.1 inside.2
  have alike : ∀ coords v, steps.integer? coords = some v →
      ((Binary.ofInt .double v).same (Binary.ofInt .double token) = true ↔ p.type.carried v = p.type.carried token) := by
    intro coords v read
    have bounds := Tensor.integerInside (by rw [type]; exact range) read
    have word := ElementType.rangeWord range bounds.1 bounds.2
    rw [Binary.sameInt (by omega) (by omega), ElementType.carriedSame range bounds inside]
  have doubles : ∀ coords, steps.double? coords = (steps.integer? coords).map (Binary.ofInt .double) := fun coords =>
    Tensor.integerDouble (by rw [type]; exact range)
  constructor
  · rintro ⟨earlier, before, place, id, visits, read, same⟩
    rw [doubles] at read
    obtain ⟨v, found, rfl⟩ := Option.map_eq_some_iff.mp read
    exact ⟨earlier, before, place, v, visits, found, (alike _ _ found).mp same⟩
  · rintro ⟨earlier, before, place, v, visits, found, same⟩
    exact ⟨earlier, before, place, _, visits, by rw [doubles, found, Option.map_some], (alike _ _ found).mpr same⟩

theorem Backtracks.gathers
    (backtracks : Backtracks p steps parents lengths (Binary.ofInt .double token) output) :
    Gathers p.type.carried p steps parents lengths token output := by
  have outType : output.type = p.type := by rw [Tensor.type, backtracks.described]; rfl
  refine ⟨backtracks.described, fun level batch beam below inner within => ?_⟩
  obtain ⟨length, x, read, holds, shown⟩ := backtracks.element level batch beam below inner within
  have written : ∀ v, low ≤ v ∧ v ≤ high → x = Binary.ofInt .double v →
      output.integer? [level, batch, beam] = some (p.type.carried v) := by
    rintro v bounds rfl
    rw [Tensor.integer?, shown, Option.bind_some, outType]
    have encodes := ElementType.ofIntEncodes range bounds.1 bounds.2
    rw [← encodes.double]
    exact encodes.carried.read
  cases holds with
  | step visited found running =>
    rw [Tensor.integerDouble (by rw [type]; exact range)] at found
    obtain ⟨v, own, same⟩ := Option.map_eq_some_iff.mp found
    refine ⟨length, _, read, .step visited own (mt (endedCarried range type inside).mpr running), written v ?_ same.symm⟩
    exact Tensor.integerInside (by rw [type]; exact range) own
  | done past =>
    exact ⟨length, _, read, .done (past.imp_right (endedCarried range type inside).mp), written token inside rfl⟩

end
end

theorem runGathers {inputs given : List Tensor} {context : PlanContext} {plan : ExecutionPlan}
    (ok : GatherTree.plan inputs context = .ok plan) (same : given.map Tensor.descriptor = plan.inputs) :
    ∃ p steps parents lengths endToken, given = [steps, parents, lengths, endToken] ∧
      steps.descriptor = .plain [p.steps, p.batches, p.beams] p.type ∧
      ∀ low high, p.type.integerRange? = some (low, high) → endToken.type = p.type →
        ∃ token, endToken.integers? = some [token] ∧ (low ≤ token ∧ token ≤ high) ∧
          ∀ s outputs, outputs.map Tensor.descriptor = plan.outputs →
            (∃ e, (GatherTreePlan.execute s plan given).run outputs = (.error (.error e), outputs) ∧
              Astray p parents lengths) ∨
            ∃ output, (GatherTreePlan.execute s plan given).run outputs = (.ok (), [output]) ∧
              Gathers p.type.carried p steps parents lengths token output := by
  have again := planGiven ok same
  obtain ⟨p, decoded, body, held, ran⟩ := runColumns again
  obtain ⟨p', team, made, planned⟩ := planCases again
  obtain ⟨steps, parents, lengths, endToken, rfl, plain, dims, _, _, single, type⟩ := GatherTreePlan.ofInputsOk.mp made
  cases held
  have own : p' = p := by
    rw [planned] at body
    cases body
    rfl
  subst own
  have descriptor : steps.descriptor = .plain [p'.steps, p'.batches, p'.beams] p'.type := by
    rw [← dims, ← type, Descriptor.plain, ← plain steps (by simp)]
    rfl
  refine ⟨p', steps, parents, lengths, endToken, rfl, descriptor, fun low high range alike => ?_⟩
  obtain ⟨tokens, integers, doubles, bounds⟩ := endToken.integersDoubles (by rw [alike]; exact range)
  obtain ⟨token, rfl⟩ : ∃ token, tokens = [token] := List.length_eq_one_iff.mp (by
    have count := GatherTreePlan.doublesLength (plain endToken (by simp))
    rw [doubles, List.length_map] at count
    exact count.trans single)
  have inside := bounds token (List.mem_singleton_self _)
  have decodes := GatherTreePlan.ofInputsDecodes made ((endToken.doubles.head?).getD (Binary.zero .double false))
  refine ⟨token, integers, inside, fun s outputs ready => ?_⟩
  obtain ⟨columns, output, found, leaves, described, data⟩ | ⟨failed, stops⟩ := ran
  · have backtracks := outputBacktracks decodes found described data
    rw [doubles] at backtracks
    exact .inr ⟨output, leaves s outputs ready, backtracks.gathers range type inside⟩
  · obtain ⟨_, _, ⟨_, _, _, _, rfl⟩, stopped⟩ := stops s
    exact .inl ⟨_, stopped outputs ready, (astrayColumns decodes).mpr failed⟩

end GatherTree
end TensorPlan
