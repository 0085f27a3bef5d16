import TensorPlan.Element.UpperWord
import TensorPlan.Proofs.Nms.Blocks
/-! Batches apart. What a run writes for a batch depends on the boxes and scores of that batch alone, unless the rows are
sorted across batches or an output is cut, which moves the rows of a batch with the number of rows before it. -/
namespace TensorPlan

namespace Bytes

theorem itemJoined {α : Type} {g : α → Bytes} {size i : Nat} {xs : List α} {x : α} (sizes : ∀ x ∈ xs, (g x).length = size)
    (found : xs[i]? = some x) : item size (xs.flatMap g) i = g x := by
  induction xs generalizing i with
  | nil => cases found
  | cons y xs ih =>
    have own := sizes y List.mem_cons_self
    rw [item, List.flatMap_cons]
    cases i with
    | zero =>
      cases found
      rw [Nat.zero_mul, List.drop_zero, List.take_left' own]
    | succ i =>
      have front : (i + 1) * size = (g y).length + i * size := by rw [own, Nat.succ_mul, Nat.add_comm]
      rw [front, List.drop_length_add_append]
      exact ih (fun x member => sizes x (List.mem_cons_of_mem y member)) found

theorem piecesBlock {size n k b : Nat} {bytes : Bytes} (positive : 0 < size) (whole : bytes.length = k * size)
    (inside : b * n + n ≤ k) : pieces size (item (n * size) bytes b) = ((pieces size bytes).drop (b * n)).take n := by
  have room : (b * n + n) * size ≤ bytes.length := by
    rw [whole]
    exact Nat.mul_le_mul_right size inside
  have places : ((List.range k).drop (b * n)).take n = List.range' (b * n) n :=
    List.ext_getElem (by simp; omega) fun i _ _ => by simp
  rw [item, ← Nat.mul_assoc, takeItems room, piecesRun positive room, piecesItems positive whole, ← List.map_drop,
    ← List.map_take, places]

end Bytes

def Tensor.block (t : Tensor) (rows b : Nat) : Bytes := Bytes.item (rows * (volume t.dims.tail * t.type.size)) t.data b

namespace NmsPlan
variable {p : NmsPlan} {boxes scores boxes' scores' v v' : View} {kept kept' : List (List Selected)} {b : Nat}

theorem viewCases {what : String} {t : Tensor} (seen : view what t = .ok v) : t.type = .f32 ∧ t.format = .plain ∧
    t.dims = [v.rows, v.columns, v.depth] ∧ v.values = t.elements.map fun e => Binary.ofBits .single e.toNat := by
  simp only [view, Grid.ofTensor, Tensor.elementsAs, Result.bindOk, Result.ensureOk, beq_iff_eq] at seen
  obtain ⟨grid, ⟨_, plain, elements, typed, _, _, made⟩, last⟩ := seen
  cases made
  split at typed
  · rename_i type
    cases typed
    split at last
    · rename_i dims
      cases last
      exact ⟨type, plain, dims, rfl⟩
    · exact (Result.failNotOk last).elim
  · exact (Result.failNotOk typed).elim

theorem lineFromBlock {what : String} {t : Tensor} (seen : view what t = .ok v) {column : Nat} (row : b < v.rows)
    (inside : column < v.columns) : v.line? b column =
      some ((((Bytes.pieces 4 (t.block 1 b)).map fun e => Binary.ofBits .single e.toNat).drop (column * v.depth)).take v.depth) := by
  obtain ⟨type, plain, dims, values⟩ := viewCases seen
  obtain ⟨l, layout, held⟩ := t.layoutFits
  have whole : t.data.length = v.rows * (v.columns * v.depth) * 4 := by
    have layoutOf := Descriptor.layoutOk layout
    rw [held, type, Layout.physicalSize, l.blockDimsPlain (layoutOf.1.trans plain), layoutOf.2]
    change volume t.dims * 4 = _
    rw [dims]
    simp
  have room : b * (v.columns * v.depth) + v.columns * v.depth ≤ v.rows * (v.columns * v.depth) := by
    rw [← Nat.succ_mul]
    exact Nat.mul_le_mul_right _ row
  have size : 1 * (volume t.dims.tail * t.type.size) = v.columns * v.depth * 4 := by
    rw [dims, type]
    simp [ElementType.size]
  have part : column * v.depth + v.depth ≤ v.columns * v.depth := by
    rw [← Nat.succ_mul]
    exact Nat.mul_le_mul_right _ inside
  have place : (b * v.columns + column) * v.depth = b * (v.columns * v.depth) + column * v.depth := by
    rw [Nat.add_mul, Nat.mul_assoc]
  have elements : t.elements = Bytes.pieces 4 t.data := by rw [Tensor.elements, type]; rfl
  rw [View.line?, if_pos ⟨row, inside⟩, values, elements, Tensor.block, size, Bytes.piecesBlock (by decide) whole room,
    List.map_take, List.drop_take, List.take_take, Nat.min_eq_left (by omega), List.map_drop, List.drop_drop, place]

theorem lineSame {what : String} {t t' : Tensor} (seen : view what t = .ok v) (seen' : view what t' = .ok v')
    (described : t'.dims = t.dims) (same : t.block 1 b = t'.block 1 b) (column : Nat) :
    v.line? b column = v'.line? b column := by
  obtain ⟨_, _, dims, _⟩ := viewCases seen
  obtain ⟨_, _, dims', _⟩ := viewCases seen'
  have shape := dims'.symm.trans (described.trans dims)
  simp only [List.cons.injEq, and_true] at shape
  obtain ⟨rows, columns, depth⟩ := shape
  by_cases inside : b < v.rows ∧ column < v.columns
  · rw [lineFromBlock seen inside.1 inside.2, lineFromBlock seen' (by rw [rows]; exact inside.1)
      (by rw [columns]; exact inside.2), same, depth]
  · rw [View.line?, if_neg inside, View.line?, rows, columns, if_neg inside]

structure Alike (b : Nat) (boxes scores boxes' scores' : View) : Prop where
  boxes : ∀ column, boxes.line? b column = boxes'.line? b column
  scores : ∀ column, scores.line? b column = scores'.line? b column

theorem Alike.item (alike : Alike b boxes scores boxes' scores') {n : Nat} (own : n / p.classes = b) :
    p.item boxes scores n = p.item boxes' scores' n := by
  have found : ∀ i, boxAt boxes b i = boxAt boxes' b i := fun i => by rw [boxAt, boxAt, alike.boxes]
  simp only [NmsPlan.item, own, alike.scores, found]

section
variable (alike : Alike b boxes scores boxes' scores')
  (ok : Result.forEach (p.item boxes scores) (List.range (p.batches * p.classes)) = .ok kept)
  (ok' : Result.forEach (p.item boxes' scores') (List.range (p.batches * p.classes)) = .ok kept')
include alike ok ok'

theorem Alike.chosen (inside : b < p.batches) : ∃ l, (p.perBatch kept)[b]? = some l ∧ (p.perBatch kept')[b]? = some l := by
  obtain ⟨count, items⟩ := batchItems ok inside
  obtain ⟨count', items'⟩ := batchItems ok' inside
  have group : (kept.drop (b * p.classes)).take p.classes = (kept'.drop (b * p.classes)).take p.classes := by
    refine List.ext_getElem (count.trans count'.symm) fun c here there => ?_
    obtain ⟨small, made⟩ := items c _ (List.getElem?_eq_getElem here)
    obtain ⟨_, made'⟩ := items' c _ (List.getElem?_eq_getElem there)
    rw [alike.item (quotientDigit small), made'] at made
    exact (Except.ok.inj made).symm
  refine ⟨p.choose ((kept.drop (b * p.classes)).take p.classes), ?_, ?_⟩
  · rw [perBatch, List.getElem?_map, groupsAt inside, Option.map_some]
  · rw [perBatch, List.getElem?_map, groupsAt inside, Option.map_some, group]

end

theorem rowsBlock {f : Option Selected → Bytes} {size : Nat} {l : List Selected} (all : p.KeptAll kept)
    (static : p.attributes.dynamicOutput = false) (within : p.attributes.sortAcrossBatches = false)
    (widths : ∀ row, (f row).length = size) (found : (p.perBatch kept)[b]? = some l) :
    Bytes.item (p.maxPerBatch * size) (((p.rows 0 (p.blocks kept)).1.map Prod.snd).flatMap f) b = (p.blockRows l).flatMap f := by
  obtain ⟨_, fits⟩ := perBatchLengths all
  have blocks : p.blocks kept = p.perBatch kept := (p.blocksArrange kept).alone (.inl within)
  have rows : ((p.rows 0 (p.blocks kept)).1.map Prod.snd).flatMap f =
      (p.perBatch kept).flatMap fun l => (p.blockRows l).flatMap f := by
    simp only [rowsContents, static, Bool.false_eq_true, if_false, List.flatMap_assoc, blocks, blockRows]
  rw [rows]
  refine Bytes.itemJoined (fun l member => ?_) found
  rw [List.length_flatMap, List.map_congr_left fun row _ => widths row, List.map_const', List.sum_replicate_nat,
    blockRowsLength (fits l member)]

theorem Shows.blocks [Widths] {first second third : Tensor} {l : List Selected} (all : p.KeptAll kept)
    (static : p.attributes.dynamicOutput = false) (within : p.attributes.sortAcrossBatches = false)
    (shown : p.Shows ((p.rows 0 (p.blocks kept)).1.map Prod.snd) ((p.perBatch kept).map List.length) first second third)
    (found : (p.perBatch kept)[b]? = some l) : first.block p.maxPerBatch b = (p.blockRows l).flatMap rowBytes ∧
      second.block p.maxPerBatch b = ((p.blockRows l).flatMap fun row => p.indexBytes (p.rowIndex row)) ∧
      third.block 1 b = p.indexBytes (l.length : Nat) := by
  have width : ∀ v, (p.indexBytes v).length = p.attributes.indexType.size := fun v => ElementType.writeDoubleLength _ _ _
  have six : volume first.dims.tail * first.type.size = 24 := by rw [Tensor.dims, Tensor.type, shown.boxes]; rfl
  have one : volume second.dims.tail * second.type.size = p.attributes.indexType.size := by
    rw [Tensor.dims, Tensor.type, shown.indices]
    exact Nat.one_mul _
  have none : 1 * (volume third.dims.tail * third.type.size) = p.attributes.indexType.size := by
    rw [Tensor.dims, Tensor.type, shown.valid, Nat.one_mul]
    exact Nat.one_mul _
  refine ⟨?_, ?_, ?_⟩
  · rw [Tensor.block, six, shown.boxesData, rowsBlock all static within rowBytesLength found]
  · rw [Tensor.block, one, shown.indicesData, rowsBlock all static within (fun _ => width _) found]
  · rw [Tensor.block, none, shown.validData]
    exact Bytes.itemJoined (fun n _ => width _) (by rw [List.getElem?_map, found]; rfl)

end NmsPlan

namespace NmsAttributes

theorem indexableSame {given given' : List Tensor} (same : given'.map Tensor.descriptor = given.map Tensor.descriptor) :
    (∀ t ∈ given'.take 2, t.descriptor.Indexable) ↔ ∀ t ∈ given.take 2, t.descriptor.Indexable := by
  rw [← List.forall_mem_map (f := Tensor.descriptor), List.map_take, same, ← List.map_take, List.forall_mem_map]

/-- What is written for a batch is the same in two runs that have the same boxes and scores for it. -/
theorem batchesApart [Widths] (a : NmsAttributes) (static : a.dynamicOutput = false) (within : a.sortAcrossBatches = false)
    (inputs given given' : List Tensor) (context : PlanContext) (plan : ExecutionPlan) (ok : a.plan inputs context = .ok plan)
    (same : given.map Tensor.descriptor = plan.inputs) (same' : given'.map Tensor.descriptor = plan.inputs) :
    ∃ p, plan.body = .matrixNms p ∧ p.attributes = a ∧
      plan.inputs.take 2 = [.plain [p.batches, p.boxes, 4] .f32, .plain [p.batches, p.classes, p.boxes] .f32] ∧
      ((∃ t ∈ given.take 2, ¬ t.descriptor.Indexable) → ∀ outputs, outputs.map Tensor.descriptor = plan.outputs →
        (NmsPlan.execute plan given).run outputs = (.error (.error .arrayTooLarge), outputs) ∧
        (NmsPlan.execute plan given').run outputs = (.error (.error .arrayTooLarge), outputs)) ∧
      ((∀ t ∈ given.take 2, t.descriptor.Indexable) → ∃ first second third first' second' third',
        Run.Leaves (NmsPlan.execute plan given) plan.outputs [first, second, third] ∧
        Run.Leaves (NmsPlan.execute plan given') plan.outputs [first', second', third'] ∧
        ∀ b < p.batches, (∀ i < 2, given[i]?.map (fun t => t.block 1 b) = given'[i]?.map fun t => t.block 1 b) →
          first.block p.maxPerBatch b = first'.block p.maxPerBatch b ∧
          second.block p.maxPerBatch b = second'.block p.maxPerBatch b ∧ third.block 1 b = third'.block 1 b) := by
  have own := planGiven ok same
  have own' := planGiven ok same'
  have described : given'.map Tensor.descriptor = given.map Tensor.descriptor := same'.trans same.symm
  obtain ⟨p, made, body, attributes, sizes⟩ := planSizes own
  refine ⟨p, body, attributes, sizes, fun large outputs ready => ⟨runTooLarge own ready large, runTooLarge own' ready ?_⟩,
    fun indexable => ?_⟩
  · by_contra fine
    push Not at fine
    obtain ⟨t, member, unfit⟩ := large
    exact unfit ((indexableSame described).mp fine t member)
  obtain ⟨_, _, first, second, third, ⟨t, s, _, tFound, sFound, boxesSeen, scoresSeen, held⟩, all, leaves, shown⟩ :=
    runShows own made indexable
  obtain ⟨_, _, first', second', third', ⟨t', s', _, tFound', sFound', boxesSeen', scoresSeen', held'⟩, all', leaves',
    shown'⟩ := runShows own' (NmsPlan.ofInputsSame described made) ((indexableSame described).mpr indexable)
  refine ⟨first, second, third, first', second', third', leaves, leaves', fun b inside agree => ?_⟩
  rw [← attributes] at static within
  have boxesAgree := agree 0 (by decide)
  have scoresAgree := agree 1 (by decide)
  simp only [tFound, tFound', sFound, sFound', Option.map_some, Option.some.injEq] at boxesAgree scoresAgree
  have dims : ∀ (i : Nat) u u', given[i]? = some u → given'[i]? = some u' → u'.dims = u.dims := fun i u u' found found' => by
    have there := congrArg (fun ds : List Descriptor => ds[i]?) described
    simp only [List.getElem?_map, found, found', Option.map_some, Option.some.injEq] at there
    rw [Tensor.dims, there, Tensor.dims]
  have alike : NmsPlan.Alike b _ _ _ _ :=
    ⟨NmsPlan.lineSame boxesSeen boxesSeen' (dims 0 t t' tFound tFound') boxesAgree,
      NmsPlan.lineSame scoresSeen scoresSeen' (dims 1 s s' sFound sFound') scoresAgree⟩
  obtain ⟨l, chosen, chosen'⟩ := alike.chosen held held' inside
  obtain ⟨rows, indices, count⟩ := shown.blocks all static within chosen
  obtain ⟨rows', indices', count'⟩ := shown'.blocks all' static within chosen'
  exact ⟨rows.trans rows'.symm, indices.trans indices'.symm, count.trans count'.symm⟩

theorem batchesApartOfFirst :
    let boxes : Tensor := ⟨.plain [2, 1, 4] .f32, Bytes.zeros 32, rfl⟩
    let scores : Tensor := ⟨.plain [2, 1, 1] .f32, [0, 0, 0, 63, 0, 0, 128, 63], rfl⟩
    let scores' : Tensor := ⟨.plain [2, 1, 1] .f32, [0, 0, 0, 63, 0, 0, 0, 0], rfl⟩
    ∃ plan p first second third first' second' third', unset.plan [boxes, scores] ⟨1, 0⟩ = .ok plan ∧
      plan.body = .matrixNms p ∧ Run.Leaves (NmsPlan.execute plan [boxes, scores]) plan.outputs [first, second, third] ∧
      Run.Leaves (NmsPlan.execute plan [boxes, scores']) plan.outputs [first', second', third'] ∧
      first.block p.maxPerBatch 0 = first'.block p.maxPerBatch 0 ∧ third.block 1 0 = third'.block 1 0 := by
  intro boxes scores scores'
  obtain ⟨plan, planned⟩ : ∃ plan, unset.plan [boxes, scores] ⟨1, 0⟩ = .ok plan := ⟨_, rfl⟩
  obtain ⟨p, body, _, _, _, runs⟩ := batchesApart unset rfl rfl [boxes, scores] [boxes, scores] [boxes, scores'] ⟨1, 0⟩ plan
    planned (by cases planned; rfl) (by cases planned; rfl)
  obtain ⟨first, second, third, first', second', third', leaves, leaves', apart⟩ := runs (by decide)
  have two : p.batches = 2 := by
    cases planned
    cases body
    rfl
  obtain ⟨rows, _, count⟩ := apart 0 (by omega) (by decide)
  exact ⟨plan, p, first, second, third, first', second', third', planned, body, leaves, leaves', rows, count⟩

end NmsAttributes
end TensorPlan
