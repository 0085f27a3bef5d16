import TensorPlan.Element.UpperWord
import TensorPlan.Proofs.Dispatch.Lasting
/-! Blocks of rows. Every batch selects boxes of its own, at most as many as there are rows reserved for it. A static
output holds a block for each batch, with as many boxes as the batch has selected and empty rows behind them; a dynamic
output holds the same boxes in the same order without the empty rows. -/
namespace TensorPlan

def NmsAttributes.cutting (a : NmsAttributes) (dynamic : Bool) : NmsAttributes := { a with dynamicOutput := dynamic }

namespace NmsPlan
variable {p : NmsPlan}

def cutting (p : NmsPlan) (dynamic : Bool) : NmsPlan := { p with attributes := p.attributes.cutting dynamic }

theorem decayedCutting (dynamic : Bool) (earlier : List Candidate) (greatest : List Single) (cs : List Candidate) :
    (p.cutting dynamic).decayed earlier greatest cs = p.decayed earlier greatest cs := by
  induction cs generalizing earlier greatest with
  | nil => rfl
  | cons c cs ih =>
    rw [decayed, decayed, ih]
    rfl

theorem itemCutting (dynamic : Bool) (boxes scores : View) :
    (p.cutting dynamic).item boxes scores = p.item boxes scores := by
  have suppressed : ∀ batch cls candidates, (p.cutting dynamic).suppress batch cls candidates =
      p.suppress batch cls candidates := fun batch cls candidates => by
    rw [suppress, suppress, decayedCutting]
    rfl
  funext n
  simp only [item, suppressed]
  rfl

theorem blocksCutting (dynamic : Bool) (kept : List (List Selected)) : (p.cutting dynamic).blocks kept = p.blocks kept := rfl

def blockRows (p : NmsPlan) (l : List Selected) : List (Option Selected) :=
  l.map some ++ List.replicate (p.maxPerBatch - l.length) none

theorem blockRowsLength {l : List Selected} (fits : l.length ≤ p.maxPerBatch) : (p.blockRows l).length = p.maxPerBatch := by
  rw [blockRows, List.length_append, List.length_map, List.length_replicate, Nat.add_sub_cancel' fits]

def padded (p : NmsPlan) (blocks : List (List Selected)) : List (Option Selected) :=
  blocks.flatMap fun b => b.map some ++ List.replicate (p.maxPerBatch - b.length) none

theorem chosenRows (start : Nat) (b : List Selected) : ((List.range' start b.length).zip (b.map some)).map Prod.snd = b.map some :=
  List.map_snd_zip (Nat.le_of_eq (by rw [List.length_map, List.length_range']))

theorem rowsContents (start : Nat) (blocks : List (List Selected)) : (p.rows start blocks).1.map Prod.snd =
    blocks.flatMap fun b => b.map some ++
      if p.attributes.dynamicOutput then [] else List.replicate (p.maxPerBatch - b.length) none := by
  induction blocks generalizing start with
  | nil => rfl
  | cons b blocks ih =>
    have unused : ∀ first count, ((List.range' first count).map fun row => ((row, none) : Nat × Option Selected)).map Prod.snd =
        List.replicate count none := fun first count => by
      simp only [List.map_map, Function.comp_def, List.map_const', List.length_range']
    unfold rows
    cases dynamic : p.attributes.dynamicOutput with
    | true => simp only [dynamic, if_true, List.append_nil, List.map_append, chosenRows, ih, List.flatMap_cons]
    | false => simp only [dynamic, Bool.false_eq_true, if_false, List.map_append, chosenRows, unused, ih,
        List.flatMap_cons, Nat.add_sub_add_left]

theorem rowsCut (start : Nat) (blocks : List (List Selected)) :
    ((p.cutting true).rows start blocks).1.map Prod.snd = blocks.flatten.map some := by
  rw [rowsContents, List.map_flatten, ← List.flatMap_def]
  exact List.flatMap_congr fun b _ => List.append_nil _

theorem rowsPadded (start : Nat) (blocks : List (List Selected)) :
    ((p.cutting false).rows start blocks).1.map Prod.snd = p.padded blocks := rowsContents start blocks

theorem paddedRow {blocks : List (List Selected)} (fits : ∀ l ∈ blocks, l.length ≤ p.maxPerBatch) {j : Nat}
    (small : j < p.maxPerBatch) (b : Nat) :
    (p.padded blocks)[b * p.maxPerBatch + j]? = blocks[b]?.map fun l => l[j]? := by
  induction blocks generalizing b with
  | nil => rfl
  | cons l blocks ih =>
    have size : (l.map some ++ List.replicate (p.maxPerBatch - l.length) none).length = p.maxPerBatch :=
      blockRowsLength (fits l List.mem_cons_self)
    rw [padded, List.flatMap_cons]
    cases b with
    | zero =>
      rw [Nat.zero_mul, Nat.zero_add, List.getElem?_append_left (by rwa [size]), List.getElem?_cons_zero, Option.map_some]
      by_cases inside : j < l.length
      · rw [List.getElem?_append_left (by rwa [List.length_map]), List.getElem?_map, List.getElem?_eq_getElem inside,
          Option.map_some]
      · rw [List.getElem?_append_right (by rw [List.length_map]; omega), List.length_map, List.getElem?_replicate,
          if_pos (by omega), List.getElem?_eq_none (by omega)]
    | succ b =>
      have place : (b + 1) * p.maxPerBatch + j - p.maxPerBatch = b * p.maxPerBatch + j := by rw [Nat.succ_mul]; omega
      rw [List.getElem?_append_right (by rw [size, Nat.succ_mul]; omega), size, place, List.getElem?_cons_succ]
      exact ih (fun l member => fits l (List.mem_cons_of_mem _ member)) b

section
variable {α : Type}

theorem stretchesWhole {xss : List (List α)} {xs : List α} (whole : xs.length = xss.flatten.length) :
    (stretches (xss.map List.length) xs).map List.length = xss.map List.length ∧
      (stretches (xss.map List.length) xs).flatten = xs := by
  induction xss generalizing xs with
  | nil => exact ⟨rfl, (List.length_eq_zero_iff.mp whole).symm⟩
  | cons own xss ih =>
    rw [List.flatten_cons, List.length_append] at whole
    obtain ⟨lengths, joined⟩ := @ih (xs.drop own.length) (by rw [List.length_drop]; omega)
    rw [List.map_cons, stretches, List.map_cons, List.flatten_cons, lengths, joined, List.take_append_drop, List.length_take]
    exact ⟨by rw [Nat.min_eq_left (by omega)], rfl⟩

theorem stretchesFlatten (xss : List (List α)) : stretches (xss.map List.length) xss.flatten = xss := by
  induction xss with
  | nil => rfl
  | cons xs xss ih => rw [List.map_cons, List.flatten_cons, stretches, List.take_left, List.drop_left, ih]

end

theorem orderedPerm (batches : List (List Selected)) : (p.ordered batches).Perm batches.flatten := by
  unfold ordered Selected.sortAcross Selected.sort
  split
  · split
    · exact List.mergeSort_perm _ _
    · exact List.mergeSort_perm _ _
    · exact .refl _
  · exact .refl _

theorem orderedAlone (batches : List (List Selected))
    (alone : p.attributes.sortAcrossBatches = false ∨ p.attributes.sortResult = .unsorted) :
    p.ordered batches = batches.flatten := by
  unfold ordered Selected.sortAcross
  rcases alone with within | unsorted
  · rw [within, if_neg Bool.false_ne_true]
  · rw [unsorted, ite_self]

structure Arranges (p : NmsPlan) (chosen blocks : List (List Selected)) : Prop where
  counts : blocks.map List.length = chosen.map List.length
  total : blocks.flatten.length = (chosen.map List.length).foldr (· + ·) 0
  boxes : blocks.flatten.Perm chosen.flatten
  alone : p.attributes.sortAcrossBatches = false ∨ p.attributes.sortResult = .unsorted → blocks = chosen

theorem blocksArrange (p : NmsPlan) (kept : List (List Selected)) : p.Arranges (p.perBatch kept) (p.blocks kept) := by
  have perm := orderedPerm (p := p) (p.perBatch kept)
  obtain ⟨counts, joined⟩ := stretchesWhole perm.length_eq
  refine ⟨counts, by rw [List.length_flatten, blocks, counts]; rfl, ?_, fun alone => ?_⟩
  · rw [blocks, joined]
    exact perm
  · rw [blocks, orderedAlone _ alone, stretchesFlatten]

structure Own (p : NmsPlan) (boxes : View) (b : Nat) (s : Selected) : Prop where
  batch : s.batch = b
  cls : s.cls < p.classes
  box : boxAt boxes b s.index = some s.box

section
variable {boxes scores : View} {n : Nat} {l : List Selected}

theorem itemOwn (ok : p.item boxes scores n = .ok l) (positive : 0 < p.classes) : ∀ s ∈ l, p.Own boxes (n / p.classes) s := by
  simp only [item, Result.bindOk] at ok
  obtain ⟨line, _, found⟩ := ok
  split at found
  · cases found
    exact fun s member => (List.not_mem_nil member).elim
  · simp only [Result.bindOk] at found
    obtain ⟨candidates, each, last⟩ := found
    cases last
    intro s member
    obtain ⟨d, inside, rfl⟩ := List.mem_map.mp member
    have candidate : d.1 ∈ candidates := by
      rw [← decayedFirst (p := p) [] [] candidates]
      exact List.mem_map_of_mem (List.mem_filter.mp inside).1
    obtain ⟨c, _, made⟩ := Result.forEachMember each _ candidate
    simp only [Result.bindOk, Result.orFaultOk] at made
    obtain ⟨box, found, same⟩ := made
    refine ⟨rfl, Nat.mod_lt n positive, ?_⟩
    rw [← Except.ok.inj same]
    exact found

theorem batchItems {kept : List (List Selected)}
    (ok : Result.forEach (p.item boxes scores) (List.range (p.batches * p.classes)) = .ok kept) {b : Nat}
    (below : b < p.batches) : ((kept.drop (b * p.classes)).take p.classes).length = p.classes ∧
      ∀ (c : Nat) l, ((kept.drop (b * p.classes)).take p.classes)[c]? = some l →
        c < p.classes ∧ p.item boxes scores (b * p.classes + c) = .ok l := by
  obtain ⟨count, each⟩ := Result.forEachRange ok
  obtain ⟨length, items⟩ := groupItems count below
  refine ⟨length, fun c l found => ?_⟩
  obtain ⟨small, own⟩ := items c l found
  exact ⟨small, each _ l own⟩

theorem perBatchOwn {kept : List (List Selected)}
    (ok : Result.forEach (p.item boxes scores) (List.range (p.batches * p.classes)) = .ok kept) {b : Nat}
    (found : (p.perBatch kept)[b]? = some l) : ∀ s ∈ l, p.Own boxes b s := by
  obtain ⟨below, chosen⟩ := perBatchFrom found
  intro s member
  have grouped : s ∈ ((kept.drop (b * p.classes)).take p.classes).flatten := by
    rw [← chosen, choose] at member
    split at member
    · exact List.mem_mergeSort.mp (List.mem_of_mem_take member)
    · exact List.mem_mergeSort.mp member
  obtain ⟨items, inside, own⟩ := List.mem_flatten.mp grouped
  obtain ⟨c, there⟩ := List.mem_iff_getElem?.mp inside
  obtain ⟨small, made⟩ := (batchItems ok below).2 c items there
  have held := itemOwn made (by omega) s own
  rwa [quotientDigit small] at held

end

def Keeps (p : NmsPlan) (given : List Tensor) (boxes : View) (kept : List (List Selected)) : Prop :=
  ∃ first second scores, given[0]? = some first ∧ given[1]? = some second ∧ view "boxes" first = .ok boxes ∧
    view "scores" second = .ok scores ∧
    Result.forEach (p.item boxes scores) (List.range (p.batches * p.classes)) = .ok kept

theorem Keeps.same {given : List Tensor} {boxes boxes' : View} {kept kept' : List (List Selected)}
    (keeps : p.Keeps given boxes kept) (keeps' : p.Keeps given boxes' kept') : boxes' = boxes ∧ kept' = kept := by
  obtain ⟨_, _, _, first, second, boxesSeen, scoresSeen, held⟩ := keeps
  obtain ⟨_, _, _, first', second', boxesSeen', scoresSeen', held'⟩ := keeps'
  cases first.symm.trans first'
  cases second.symm.trans second'
  cases boxesSeen.symm.trans boxesSeen'
  cases scoresSeen.symm.trans scoresSeen'
  cases held.symm.trans held'
  exact ⟨rfl, rfl⟩

structure Selects (p : NmsPlan) (boxes : View) (chosen : List (List Selected)) : Prop where
  count : chosen.length = p.batches
  budget : ∀ l ∈ chosen, l.length ≤ p.maxPerBatch
  own : ∀ (b : Nat) l, chosen[b]? = some l → ∀ s ∈ l, p.Own boxes b s

theorem keptSelects {given : List Tensor} {boxes : View} {kept : List (List Selected)} (keeps : p.Keeps given boxes kept)
    (all : p.KeptAll kept) : p.Selects boxes (p.perBatch kept) := by
  obtain ⟨_, _, _, _, _, _, _, held⟩ := keeps
  obtain ⟨count, budget⟩ := perBatchLengths all
  exact ⟨count, budget, fun _ _ found => perBatchOwn held found⟩

theorem rowsOnce {kept : List (List Selected)} (all : p.KeptAll kept) :
    ((p.cutting false).rows 0 (p.blocks kept)).1.map Prod.fst = List.range (p.batches * p.maxPerBatch) := by
  obtain ⟨rows, last, chosen, places, _, whole⟩ := rowsChosen (p := p.cutting false) ⟨all.count, all.bounded, all.background⟩
  rw [blocksCutting] at chosen
  rw [chosen, places, whole rfl]
  rfl

theorem ofInputsCutting {a : NmsAttributes} {inputs : List Tensor} (made : ofInputs a inputs = .ok p) (dynamic : Bool) :
    ofInputs (a.cutting dynamic) inputs = .ok (p.cutting dynamic) := by
  obtain ⟨boxes, scores, rest, given, attributes, first, second⟩ := ofInputsOk.mp made
  exact ofInputsOk.mpr ⟨boxes, scores, rest, given, congrArg (·.cutting dynamic) attributes, first, second⟩

end NmsPlan

namespace NmsAttributes
variable {a : NmsAttributes} {p : NmsPlan} {inputs given : List Tensor} {context : PlanContext} {plan : ExecutionPlan}

theorem planCutting (ok : a.plan inputs context = .ok plan) (dynamic : Bool) :
    ∃ other, (a.cutting dynamic).plan inputs context = .ok other ∧ other.inputs = plan.inputs := by
  obtain ⟨p, team, made, planned⟩ := planCases ok
  simp only [NmsAttributes.plan, NmsPlan.ofInputsCutting made, Result.okBind, planned]
  exact ⟨_, rfl, rfl⟩

theorem runShows [Widths] (ok : a.plan inputs context = .ok plan) (made : NmsPlan.ofInputs a inputs = .ok p)
    (indexable : ∀ t ∈ inputs.take 2, t.descriptor.Indexable) : ∃ boxes kept first second third,
      p.Keeps inputs boxes kept ∧ p.KeptAll kept ∧
      Run.Leaves (NmsPlan.execute plan inputs) plan.outputs [first, second, third] ∧
      p.Shows ((p.rows 0 (p.blocks kept)).1.map Prod.snd) ((p.perBatch kept).map List.length) first second third := by
  obtain ⟨p', _, _, boxes, _, kept, first, second, made', boxesSeen, scoresSeen, held, all, runs⟩ := runKeeps ok indexable
  cases made.symm.trans made'
  obtain ⟨t0, t1, t2, leaves, shown⟩ := NmsPlan.writeLeaves all
  exact ⟨boxes, kept, t0, t1, t2, ⟨_, _, _, first, second, boxesSeen, scoresSeen, held⟩, all, runs _ leaves, shown⟩

theorem cuttingLeaves [Widths] {dynamic : Bool} (ok : (a.cutting dynamic).plan inputs context = .ok plan)
    (made : NmsPlan.ofInputs a inputs = .ok p) (indexable : ∀ t ∈ inputs.take 2, t.descriptor.Indexable) :
    ∃ boxes kept first second third, p.Keeps inputs boxes kept ∧ p.KeptAll kept ∧
      Run.Leaves (NmsPlan.execute plan inputs) plan.outputs [first, second, third] ∧
      p.Shows (((p.cutting dynamic).rows 0 (p.blocks kept)).1.map Prod.snd) ((p.perBatch kept).map List.length)
        first second third := by
  obtain ⟨boxes, kept, _, _, _, ⟨_, _, _, first, second, boxesSeen, scoresSeen, held⟩, all, leaves, shown⟩ :=
    runShows ok (NmsPlan.ofInputsCutting made dynamic) indexable
  rw [NmsPlan.itemCutting] at held
  exact ⟨boxes, kept, _, _, _, ⟨_, _, _, first, second, boxesSeen, scoresSeen, held⟩,
    ⟨all.count, all.bounded, all.background⟩, leaves, shown.boxes, shown.boxesData, shown.indices, shown.indicesData,
    shown.valid, shown.validData⟩

end NmsAttributes
end TensorPlan
