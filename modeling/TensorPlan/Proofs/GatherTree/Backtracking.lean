import Mathlib.Algebra.Order.Ring.Unbundled.Rat
import Mathlib.Data.Rat.Lemmas
import TensorPlan.Element.UpperWord
import TensorPlan.Proofs.Dispatch.Lasting
import TensorPlan.Proofs.Elements
/-! Backtracking. The chain of a beam leads from its last step down to the first one, to the beam that each parent
names. A run stops where a chain meets a parent that is no beam; else every column of the output holds the step ids
along its chain up to the first end token, and end tokens from there on. -/
namespace TensorPlan

section
variable [Widths]

namespace GatherTree

def Names (beams : Nat) (parent : Double) (beam : Nat) : Prop := parent.value? = some (beam : Rat) ∧ beam < beams

def Strays (beams : Nat) (parent : Double) : Prop :=
  match parent.read with
  | .nan | .infinite _ => True
  | .finite _ v => v < 0 ∨ v.den ≠ 1 ∨ (beams : Rat) ≤ v

inductive Visits (beams : Nat) (parents : Tensor) (batch beam : Nat) : Nat → Nat → Nat → Prop where
  | last (level : Nat) : Visits beams parents batch beam (level + 1) level beam
  | back {length level place next : Nat} {parent : Double} (above : Visits beams parents batch beam length (level + 1) place)
      (read : parents.double? [level + 1, batch, place] = some parent) (names : Names beams parent next) :
      Visits beams parents batch beam length level next

section
variable {beams batch beam length level place next : Nat} {parents : Tensor} {parent : Double}

theorem Visits.inside (visits : Visits beams parents batch beam length level place) : level < length := by
  induction visits with
  | last level => exact Nat.lt_succ_self level
  | back _ _ _ ih => omega

theorem Visits.longer (visits : Visits beams parents batch next length level place)
    (read : parents.double? [length, batch, beam] = some parent) (names : Names beams parent next) :
    Visits beams parents batch beam (length + 1) level place := by
  induction visits with
  | last level => exact .back (.last (level + 1)) read names
  | back _ own others ih => exact .back (ih read) own others

theorem visitsSplit : Visits beams parents batch beam (length + 1) level place ↔ (level = length ∧ place = beam) ∨
    ∃ parent next, parents.double? [length, batch, beam] = some parent ∧ Names beams parent next ∧
      Visits beams parents batch next length level place := by
  constructor
  · intro visits
    generalize whole : length + 1 = levels at visits
    -- A visit ends at its lowest level, so the induction moves the first step down to the front.
    induction visits with
    | last level => exact .inl ⟨by omega, rfl⟩
    | back _ read names ih =>
      obtain ⟨rfl, rfl⟩ | ⟨parent, next, first, others, rest⟩ := ih whole
      · exact .inr ⟨_, _, read, names, .last _⟩
      · exact .inr ⟨parent, next, first, others, .back rest read names⟩
  · rintro (⟨rfl, rfl⟩ | ⟨parent, next, read, names, rest⟩)
    · exact .last level
    · exact rest.longer read names

end

def Ended (beams : Nat) (steps parents : Tensor) (token : Double) (batch beam length level : Nat) : Prop :=
  ∃ earlier ≤ level, ∃ place id, Visits beams parents batch beam length earlier place ∧
    steps.double? [earlier, batch, place] = some id ∧ id.same token = true

inductive Holds (beams : Nat) (steps parents : Tensor) (token : Double) (batch beam length level : Nat) : Double → Prop where
  | step {place : Nat} {id : Double} (visited : Visits beams parents batch beam length level place)
      (read : steps.double? [level, batch, place] = some id)
      (running : ¬ Ended beams steps parents token batch beam length level) :
      Holds beams steps parents token batch beam length level id
  | done (past : length ≤ level ∨ Ended beams steps parents token batch beam length level) :
      Holds beams steps parents token batch beam length level token

end GatherTree

namespace GatherTreePlan
open GatherTree (Names Strays Visits visitsSplit Ended Holds)
variable {p : GatherTreePlan}

omit [Widths] in
theorem beamNames {parent : Double} {beam : Nat} : p.beam? parent = some beam ↔ Names p.beams parent beam := by
  simp only [beam?, Option.bind_eq_bind, Option.bind_eq_some_iff, Names]
  constructor
  · rintro ⟨v, found, inside⟩
    split at inside
    · rename_i bounds
      cases inside
      have natural := Rat.num_nonneg.mpr bounds.1
      have whole : ((v.num.toNat : Nat) : Rat) = v := by
        rw [← Int.cast_natCast, Int.toNat_of_nonneg natural, Rat.coe_int_num_of_den_eq_one bounds.2.1]
      rw [found, whole]
      exact ⟨rfl, by omega⟩
    · cases inside
  · rintro ⟨found, inside⟩
    refine ⟨beam, found, ?_⟩
    rw [Rat.num_natCast, Rat.den_natCast, if_pos ⟨Rat.natCast_nonneg, rfl, by omega⟩, Int.toNat_natCast]

omit [Widths] in
theorem beamStrays {parent : Double} : p.beam? parent = none ↔ Strays p.beams parent := by
  simp only [beam?, Binary.value?, Strays]
  cases parent.read with
  | nan => simp
  | infinite negative => simp
  | finite negative v =>
    simp only [Option.bind_eq_bind, Option.bind_some, ite_eq_right_iff, reduceCtorEq, imp_false, not_and_or, not_le, not_lt]
    refine or_congr_right (or_congr_right' fun fraction => ?_)
    have whole := Rat.coe_int_num_of_den_eq_one (not_not.mp fraction)
    have order : ((p.beams : Int) : Rat) ≤ (v.num : Rat) ↔ (p.beams : Int) ≤ v.num := Rat.intCast_le_intCast
    rw [← order, whole, Int.cast_natCast]

structure Decodes (p : GatherTreePlan) (inputs : GatherTreeInputs) (steps parents lengths : Tensor) : Prop where
  covers : p.Covers inputs
  steps : ∀ {level batch beam}, level < p.steps → batch < p.batches → beam < p.beams →
    inputs.steps[p.position level batch beam]? = steps.double? [level, batch, beam]
  parents : ∀ {level batch beam}, level < p.steps → batch < p.batches → beam < p.beams →
    inputs.parents[p.position level batch beam]? = parents.double? [level, batch, beam]
  lengths : ∀ {batch}, batch < p.batches → inputs.lengths[batch]? = lengths.double? [batch]

omit [Widths] in
theorem positionDot (step batch beam : Nat) :
    dot [step, batch, beam] (strides [p.steps, p.batches, p.beams]) = p.position step batch beam := by
  simp only [dot, strides, volumeCons, volumeNil, position, Nat.mul_one, Nat.add_zero, Nat.add_mul, Nat.mul_assoc,
    Nat.add_assoc]

omit [Widths] in
theorem positionWithin {step batch beam : Nat} (first : step < p.steps) (second : batch < p.batches)
    (third : beam < p.beams) : Index.Within [step, batch, beam] [p.steps, p.batches, p.beams] :=
  .cons first (.cons second (.cons third .nil))

theorem ofInputsDecodes {steps parents lengths endToken : Tensor} (made : ofInputs [steps, parents, lengths, endToken] = .ok p)
    (token : Double) : p.Decodes ⟨steps.doubles, parents.doubles, lengths.doubles, token⟩ steps parents lengths := by
  have covers := coversInputs made token
  obtain ⟨_, _, _, _, same, plain, stepsDims, parentsDims, lengthsDims, _⟩ := ofInputsOk.mp made
  cases same
  refine ⟨covers, fun first second third => ?_, fun first second third => ?_, fun {batch} below => ?_⟩
  · have found := Tensor.doubleAt (plain steps (by simp)) (stepsDims ▸ positionWithin first second third)
    rwa [stepsDims, positionDot] at found
  · have found := Tensor.doubleAt (plain parents (by simp)) ((parentsDims.trans stepsDims) ▸ positionWithin first second third)
    rwa [parentsDims, stepsDims, positionDot] at found
  · have found := Tensor.doubleAt (plain lengths (by simp)) (lengthsDims ▸ Index.Within.cons below .nil)
    rw [lengthsDims] at found
    simpa [dot, strides] using found

structure Follows (p : GatherTreePlan) (steps parents : Tensor) (batch beam length : Nat) (ids : List Double) : Prop where
  count : ids.length = length
  reached : ∀ level < length, ∃ place, Visits p.beams parents batch beam length level place
  shown : ∀ level place, Visits p.beams parents batch beam length level place →
    ids[level]? = steps.double? [level, batch, place]
  named : ∀ level place parent, Visits p.beams parents batch beam length level place →
    parents.double? [level, batch, place] = some parent → ¬ Strays p.beams parent

def StraysFrom (p : GatherTreePlan) (parents : Tensor) (batch beam length : Nat) : Prop :=
  ∃ level place parent, Visits p.beams parents batch beam length level place ∧
    parents.double? [level, batch, place] = some parent ∧ Strays p.beams parent

section
variable {steps parents : Tensor} {batch beam length next : Nat} {parent id : Double} {ids : List Double}

theorem Follows.nil : p.Follows steps parents batch beam 0 [] where
  count := rfl
  reached level less := absurd less (Nat.not_lt_zero level)
  shown level _ visits := absurd visits.inside (Nat.not_lt_zero level)
  named level _ _ visits := absurd visits.inside (Nat.not_lt_zero level)

theorem Follows.longer (follows : p.Follows steps parents batch next length ids)
    (read : parents.double? [length, batch, beam] = some parent) (names : Names p.beams parent next)
    (shown : steps.double? [length, batch, beam] = some id) :
    p.Follows steps parents batch beam (length + 1) (ids ++ [id]) := by
  have found := beamNames.mpr names
  refine ⟨by simp [follows.count], fun level less => ?_, fun level place visits => ?_, fun level place own visits there => ?_⟩
  · rcases Nat.lt_succ_iff_lt_or_eq.mp less with lower | rfl
    · obtain ⟨place, visits⟩ := follows.reached level lower
      exact ⟨place, visits.longer read names⟩
    · exact ⟨beam, .last level⟩
  · obtain ⟨rfl, rfl⟩ | ⟨_, _, first, names', rest⟩ := visitsSplit.mp visits
    · rw [shown, ← follows.count, List.getElem?_concat_length]
    · cases read.symm.trans first
      cases found.symm.trans (beamNames.mpr names')
      rw [List.getElem?_append_left (by rw [follows.count]; exact rest.inside), follows.shown level place rest]
  · obtain ⟨rfl, rfl⟩ | ⟨_, _, first, names', rest⟩ := visitsSplit.mp visits
    · cases read.symm.trans there
      rw [← beamStrays, found]
      exact Option.some_ne_none next
    · cases read.symm.trans first
      cases found.symm.trans (beamNames.mpr names')
      exact follows.named level place own rest there

end

section
variable {inputs : GatherTreeInputs} {steps parents lengths : Tensor} (decodes : p.Decodes inputs steps parents lengths)
include decodes

theorem chainFollows {batch length beam : Nat} (inside : batch < p.batches) (below : length ≤ p.steps)
    (within : beam < p.beams) :
    (∃ ids, p.chain inputs batch length beam = .ok ids ∧ p.Follows steps parents batch beam length ids) ∨
      ∃ h, p.chain inputs batch length beam = .error h ∧ p.StraysFrom parents batch beam length := by
  induction length generalizing beam with
  | zero => exact .inl ⟨[], rfl, .nil⟩
  | succ length ih =>
    obtain ⟨id, parent, ofId, ofParent, step⟩ := chainStep decodes.covers inside below within
    have shown := (decodes.steps below inside within).symm.trans ofId
    have read := (decodes.parents below inside within).symm.trans ofParent
    obtain ⟨none, failed⟩ | ⟨next, found, step⟩ := step
    · exact .inr ⟨_, failed, length, beam, parent, .last length, read, beamStrays.mp none⟩
    · have names := beamNames.mp found
      rcases ih (Nat.le_of_succ_le below) names.2 with ⟨ids, ok, follows⟩ | ⟨h, failed, level, place, bad, visits, stray⟩
      · exact .inl ⟨ids ++ [id], by rw [step, ok, Result.okBind], follows.longer read names shown⟩
      · exact .inr ⟨h, by rw [step, failed, Result.errorBind], level, place, bad, visits.longer read names, stray⟩

end

section
variable {steps parents : Tensor} {token : Double} {batch beam length level : Nat} {ids : List Double}

theorem Follows.cut (follows : p.Follows steps parents batch beam length ids) (inside : level < p.steps) :
    ∃ v, let kept := ids.takeWhile fun id => !id.same token
      (kept ++ List.replicate (p.steps - kept.length) token)[level]? = some v ∧
        Holds p.beams steps parents token batch beam length level v := by
  have kept : (ids.takeWhile fun id => !id.same token) = ids.take (ids.findIdx fun id => id.same token) := by
    simp only [List.takeWhile_eq_take_findIdx_not, Bool.not_not]
  have count : (ids.take (ids.findIdx fun id => id.same token)).length = ids.findIdx fun id => id.same token := by
    rw [List.length_take, Nat.min_eq_left List.findIdx_le_length]
  simp only [kept, count]
  by_cases running : level < ids.findIdx fun id => id.same token
  · obtain ⟨small, others⟩ := (List.lt_findIdx_iff ids _ level).mp running
    obtain ⟨place, visits⟩ := follows.reached level (follows.count ▸ small)
    have own := follows.shown level place visits
    rw [List.getElem?_eq_getElem small] at own
    refine ⟨ids[level], ?_, .step visits own.symm ?_⟩
    · rw [List.getElem?_append_left (by rwa [count]), List.getElem?_take, if_pos running, List.getElem?_eq_getElem small]
    · rintro ⟨earlier, before, place, id, visited, read, same⟩
      have there := follows.shown earlier place visited
      rw [read, List.getElem?_eq_getElem (by omega)] at there
      rw [← Option.some.inj there, others earlier before] at same
      cases same
  · refine ⟨token, ?_, .done ?_⟩
    · rw [List.getElem?_append_right (by rw [count]; omega), count, List.getElem?_replicate, if_pos (by omega)]
    · by_cases past : length ≤ level
      · exact .inl past
      · have small : level < ids.length := by rw [follows.count]; omega
        rw [List.lt_findIdx_iff] at running
        push Not at running
        obtain ⟨earlier, before, same⟩ := running small
        obtain ⟨place, visits⟩ := follows.reached earlier (by omega)
        refine .inr ⟨earlier, before, place, ids[earlier], visits, ?_, by simpa using same⟩
        rw [← follows.shown earlier place visits, List.getElem?_eq_getElem]

end

structure Column (p : GatherTreePlan) (steps parents : Tensor) (token : Double) (batch beam length : Nat)
    (column : List Double) : Prop where
  holds : ∀ level < p.steps, ∃ v, column[level]? = some v ∧ Holds p.beams steps parents token batch beam length level v
  named : ¬ p.StraysFrom parents batch beam length

theorem columnShows {inputs : GatherTreeInputs} {steps parents lengths : Tensor}
    (decodes : p.Decodes inputs steps parents lengths) {batch beam : Nat} (inside : batch < p.batches)
    (within : beam < p.beams) : ∃ length, lengths.double? [batch] = some length ∧
      ((∃ column, p.column inputs (batch * p.beams + beam) = .ok column ∧
          p.Column steps parents inputs.endToken batch beam (p.levels length) column) ∨
        ∃ h, p.column inputs (batch * p.beams + beam) = .error h ∧ p.StraysFrom parents batch beam (p.levels length)) := by
  obtain ⟨length, ofLength⟩ := valueSome decodes.covers.lengths inside
  refine ⟨length, (decodes.lengths inside).symm.trans ofLength, ?_⟩
  have row := @quotientDigit batch _ _ within
  have rest : (batch * p.beams + beam) % p.beams = beam := by rw [Nat.mul_add_mod', Nat.mod_eq_of_lt within]
  unfold column
  simp only [row, rest, ofLength, Result.orFaultSome, Result.okBind]
  rcases chainFollows decodes inside (levelsInside length) within with ⟨ids, ok, follows⟩ | ⟨h, failed, strays⟩
  · rw [ok]
    refine .inl ⟨_, rfl, fun level below => follows.cut below, ?_⟩
    rintro ⟨level, place, parent, visits, read, stray⟩
    exact follows.named level place parent visits read stray
  · exact .inr ⟨h, by rw [failed, Result.errorBind], strays⟩

theorem columnEntriesFrom {batch beam step : Nat} {column : List Double} {e : Nat × Bytes}
    (member : e ∈ p.columnEntries batch beam step column) :
    ∃ level v, column[level]? = some v ∧ e = (p.position (step + level) batch beam, p.type.encode v) := by
  induction column generalizing step with
  | nil => exact (List.not_mem_nil member).elim
  | cons v column ih =>
    rcases List.mem_cons.mp member with rfl | later
    · exact ⟨0, v, rfl, rfl⟩
    · obtain ⟨level, w, found, rfl⟩ := ih later
      exact ⟨level + 1, w, found, by rw [Nat.add_right_comm, Nat.add_assoc]⟩

theorem entriesFrom {item : Nat} {columns : List (List Double)} {e : Nat × Bytes} (member : e ∈ p.entries item columns) :
    ∃ i level column v, columns[i]? = some column ∧ column[level]? = some v ∧
      e = (level * (p.batches * p.beams) + (item + i), p.type.encode v) := by
  induction columns generalizing item with
  | nil => exact (List.not_mem_nil member).elim
  | cons column columns ih =>
    rcases List.mem_append.mp member with own | later
    · obtain ⟨level, v, found, rfl⟩ := columnEntriesFrom own
      exact ⟨0, level, column, v, rfl, found, by rw [positionOfItem, Nat.zero_add]; rfl⟩
    · obtain ⟨i, level, column, v, first, found, rfl⟩ := ih later
      exact ⟨i + 1, level, column, v, first, found, by rw [Nat.add_right_comm, Nat.add_assoc item]⟩

theorem entriesAt {columns : List (List Double)} {column : List Double} {level item : Nat} {v : Double}
    (count : columns.length = p.batches * p.beams) (fits : ∀ c ∈ columns, c.length = p.steps)
    (first : columns[item]? = some column) (found : column[level]? = some v) :
    Bytes.patched (fun _ => Bytes.zeros p.type.size) (p.entries 0 columns) (level * (p.batches * p.beams) + item) =
      p.type.encode v := by
  obtain ⟨inside, _⟩ := List.getElem?_eq_some_iff.mp first
  obtain ⟨below, _⟩ := List.getElem?_eq_some_iff.mp found
  rw [fits column (List.mem_of_getElem? first)] at below
  rw [count] at inside
  refine Bytes.patchedValue (fun e member place => ?_) fun missing => ?_
  · obtain ⟨i, level', column', v', first', found', rfl⟩ := entriesFrom member
    obtain ⟨inside', _⟩ := List.getElem?_eq_some_iff.mp first'
    rw [count] at inside'
    simp only [Nat.zero_add] at place
    have levels : level' = level := by
      rw [← @quotientDigit level' i _ inside', place, quotientDigit inside]
    subst levels
    cases Nat.add_left_cancel place
    cases first.symm.trans first'
    cases found.symm.trans found'
    rfl
  · exact (missing ((entriesCovering count fits).covered _ (digitsBelow below inside))).elim

end GatherTreePlan

namespace GatherTree
open GatherTreePlan (StraysFrom)

structure Backtracks (p : GatherTreePlan) (steps parents lengths : Tensor) (token : Double) (output : Tensor) : Prop where
  described : output.descriptor = .plain [p.steps, p.batches, p.beams] p.type
  element : ∀ level batch beam, level < p.steps → batch < p.batches → beam < p.beams → ∃ length v,
    lengths.double? [batch] = some length ∧ Holds p.beams steps parents token batch beam (p.levels length) level v ∧
    output.element? [level, batch, beam] = some (p.type.encode v)

def Astray (p : GatherTreePlan) (parents lengths : Tensor) : Prop :=
  ∃ batch beam length, batch < p.batches ∧ beam < p.beams ∧ lengths.double? [batch] = some length ∧
    p.StraysFrom parents batch beam (p.levels length)

theorem astrayColumns {p : GatherTreePlan} {inputs : GatherTreeInputs} {steps parents lengths : Tensor}
    (decodes : p.Decodes inputs steps parents lengths) : Astray p parents lengths ↔
      ∃ h, Result.forEach (p.column inputs) (List.range (p.batches * p.beams)) = .error h := by
  constructor
  · rintro ⟨batch, beam, length, inside, within, read, strays⟩
    cases found : Result.forEach (p.column inputs) (List.range (p.batches * p.beams)) with
    | error h => exact ⟨h, rfl⟩
    | ok columns =>
      obtain ⟨column, made⟩ := Result.forEachEvery found _ (List.mem_range.mpr (digitsBelow inside within))
      obtain ⟨length', read', ⟨_, _, shows'⟩ | ⟨h, failed, _⟩⟩ := GatherTreePlan.columnShows decodes inside within
      · cases read.symm.trans read'
        exact (shows'.named strays).elim
      · cases made.symm.trans failed
  · rintro ⟨h, failed⟩
    rw [List.range_eq_range', Result.forEachError] at failed
    obtain ⟨item, _, below, stopped, _⟩ := failed
    rw [Nat.zero_add] at below
    obtain ⟨positive, inside⟩ := quotientBelow below
    have within := Nat.mod_lt item positive
    obtain ⟨length, read, ⟨_, made, _⟩ | ⟨_, _, strays⟩⟩ := GatherTreePlan.columnShows decodes inside within
    · rw [Nat.div_add_mod', stopped] at made
      cases made
    · exact ⟨_, _, length, inside, within, read, strays⟩

theorem outputBacktracks {p : GatherTreePlan} {inputs : GatherTreeInputs} {steps parents lengths output : Tensor}
    {columns : List (List Double)} (decodes : p.Decodes inputs steps parents lengths)
    (found : Result.forEach (p.column inputs) (List.range (p.batches * p.beams)) = .ok columns)
    (described : output.descriptor = .plain [p.steps, p.batches, p.beams] p.type)
    (data : output.data = Bytes.written p.type.size (p.steps * (p.batches * p.beams)) (p.entries 0 columns)) :
    Backtracks p steps parents lengths inputs.endToken output := by
  obtain ⟨count, each⟩ := Result.forEachRange found
  have fits : ∀ c ∈ columns, c.length = p.steps := fun c member => by
    obtain ⟨item, inside, made⟩ := Result.forEachMember found c member
    obtain ⟨ids, ok, length⟩ | ⟨h, failed, _⟩ := GatherTreePlan.columnEither decodes.covers (List.mem_range.mp inside)
    · cases made.symm.trans ok
      exact length
    · cases made.symm.trans failed
  have covering := GatherTreePlan.entriesCovering count fits
  have layout : output.descriptor.layout = .ok (.contiguous [p.steps, p.batches, p.beams]) := by
    rw [described]
    exact Descriptor.layoutSupported rfl
  have size : (Layout.contiguous [p.steps, p.batches, p.beams]).physicalSize = p.steps * (p.batches * p.beams) := by
    rw [Layout.physicalSize, Layout.blockDimsPlain _ rfl]
    simp [Layout.contiguous]
  refine ⟨described, fun level batch beam below inside within => ?_⟩
  have position := GatherTreePlan.positionWithin below inside within
  have place : (Layout.contiguous [p.steps, p.batches, p.beams]).offset [level, batch, beam] =
      level * (p.batches * p.beams) + (batch * p.beams + beam) := by
    rw [Layout.contiguousOffset (Index.withinLength position), ← Nat.add_assoc, ← Nat.mul_assoc, ← Nat.add_mul]
    exact GatherTreePlan.positionDot level batch beam
  have element := Tensor.elementOfCells layout (by rw [size]; exact data)
    (by rw [size, Tensor.type, described]
        exact Bytes.patchedSizes (fun _ _ => Bytes.zerosLength _) covering.widths)
    (by rw [Tensor.dims, described]; exact position)
  obtain ⟨column, there⟩ : ∃ column, columns[batch * p.beams + beam]? = some column :=
    ⟨_, List.getElem?_eq_getElem (by rw [count]; exact digitsBelow inside within)⟩
  have made := each _ column there
  obtain ⟨length, read, ⟨_, ok, shows'⟩ | ⟨h, failed, _⟩⟩ := GatherTreePlan.columnShows decodes inside within
  · cases made.symm.trans ok
    obtain ⟨v, held, holds⟩ := shows'.holds level below
    exact ⟨length, v, read, holds, by rw [element, place, GatherTreePlan.entriesAt count fits there held]⟩
  · cases made.symm.trans failed

end GatherTree
end

namespace GatherTree
open GatherTreePlan (StraysFrom)

end GatherTree
end TensorPlan
