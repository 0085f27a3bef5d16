import TensorPlan.Nms.Execution
import TensorPlan.Plan.Planning
import TensorPlan.Proofs.Integers
import TensorPlan.Proofs.Nms.Budget
import TensorPlan.Proofs.Patching
import TensorPlan.Proofs.Tensor.Truncation
import TensorPlan.Proofs.Tiling
/-! Running a plan for non-maximum suppression. Where the arrays of boxes and scores can be indexed, every
work item finds its scores and boxes, and the rows and counts that are written lie within the outputs. -/
namespace TensorPlan

def Descriptor.Indexable (d : Descriptor) : Prop := volume (d.dims.filter (· != 0)) ≤ Grid.maxPositions

instance (d : Descriptor) : Decidable d.Indexable := inferInstanceAs (Decidable (_ ≤ _))

namespace NmsPlan
variable {p : NmsPlan}

structure View.Full (v : View) (a b c : Nat) : Prop where
  rows : v.rows = a
  columns : v.columns = b
  depth : v.depth = c
  values : v.values.length = a * b * c

theorem viewOk (what : String) {t : Tensor} {a b c : Nat} (type : t.type = .f32) (plain : t.format = .plain)
    (dims : t.dims = [a, b, c]) (indexable : t.descriptor.Indexable) : ∃ v, view what t = .ok v ∧ v.Full a b c := by
  have bound : decide (volume (t.dims.filter (· != 0)) ≤ Grid.maxPositions) = true := decide_eq_true indexable
  have count : t.count = a * b * c := by
    change volume t.dims = _
    rw [dims]; simp [Nat.mul_assoc]
  refine ⟨⟨a, b, c, t.elements.map fun e => Binary.ofBits .single e.toNat⟩, ?_, rfl, rfl, rfl, ?_⟩
  · have held : t.elementsAs .f32 = .ok t.elements := if_pos type
    rw [dims] at bound
    simp only [view, Grid.ofTensor, plain, beq_self_eq_true, Result.ensure, if_true, held, Result.okBind, bound,
      Result.pureOk, dims]
  · rw [List.length_map, t.elementsLength plain, count]

theorem viewTooLarge (what : String) {t : Tensor} (type : t.type = .f32) (plain : t.format = .plain)
    (large : ¬ t.descriptor.Indexable) : view what t = .error (.error .arrayTooLarge) := by
  have bound : decide (volume (t.dims.filter (· != 0)) ≤ Grid.maxPositions) = false := decide_eq_false large
  have held : t.elementsAs .f32 = .ok t.elements := if_pos type
  simp only [view, Grid.ofTensor, plain, beq_self_eq_true, Result.ensure, if_true, held, Result.okBind, bound,
    Bool.false_eq_true, if_false]
  rfl

theorem lineSome {v : View} {rows columns depth row column : Nat} (full : v.Full rows columns depth) (first : row < rows)
    (second : column < columns) : ∃ line, v.line? row column = some line ∧ line.length = depth := by
  have room : (row * columns + column) * depth + depth ≤ v.values.length := by
    rw [full.values, ← Nat.succ_mul]; exact Nat.mul_le_mul_right _ (digitsBelow first second)
  refine ⟨(v.values.drop ((row * columns + column) * depth)).take depth, ?_, ?_⟩
  · unfold View.line?
    rw [full.rows, full.columns, full.depth, if_pos ⟨first, second⟩]
  · rw [List.length_take, List.length_drop]; omega

theorem boxSome {v : View} {rows columns row column : Nat} (full : v.Full rows columns 4) (first : row < rows)
    (second : column < columns) : ∃ box, boxAt v row column = some box := by
  obtain ⟨line, found, length⟩ := lineSome full first second
  match line, length with
  | [left, top, right, bottom], _ => exact ⟨⟨left, top, right, bottom⟩, by simp [boxAt, found]⟩

section
variable {boxes scores : View} (boxesFull : boxes.Full p.batches p.boxes 4)
  (scoresFull : scores.Full p.batches p.classes p.boxes)
include boxesFull scoresFull

theorem itemSome {n : Nat} (inside : n < p.batches * p.classes) : ∃ l, p.item boxes scores n = .ok l ∧
    l.length ≤ p.maxPerClass ∧ (p.attributes.isBackground (n % p.classes) = true → l = []) := by
  obtain ⟨positive, batch⟩ := quotientBelow inside
  obtain ⟨line, found, length⟩ := lineSome scoresFull batch (Nat.mod_lt n positive)
  unfold item
  simp only [found, Result.orFaultSome, Result.okBind]
  cases background : p.attributes.isBackground (n % p.classes) with
  | true => exact ⟨[], rfl, Nat.zero_le _, fun _ => rfl⟩
  | false =>
    have each : ∀ c ∈ Candidate.ranking p line,
        ∃ y, (do return (⟨c.1, c.2, ← Result.orFault (boxAt boxes (n / p.classes) c.1)⟩ : Candidate) : Result Candidate) =
          .ok y ∧ True := by
      intro c member
      obtain ⟨box, held⟩ := boxSome boxesFull batch (by rw [← length]; exact rankingBelow member)
      exact ⟨⟨c.1, c.2, box⟩, by simp [held], trivial⟩
    obtain ⟨candidates, ok, count, _⟩ := Result.forEachSome each
    simp only [ok, Result.okBind, Bool.false_eq_true, if_false]
    refine ⟨_, rfl, ?_, fun held => by cases held⟩
    exact Nat.le_trans (suppressLength _ _ candidates) (by rw [count]; exact rankingLength line)

theorem itemsSome : ∃ kept, Result.forEach (p.item boxes scores) (List.range (p.batches * p.classes)) = .ok kept ∧
    p.KeptAll kept := by
  obtain ⟨kept, ok, count, all⟩ := Result.forEachSome fun n member =>
    itemSome boxesFull scoresFull (List.mem_range.mp member)
  rw [List.length_range] at count
  refine ⟨kept, ok, count, fun l member => ?_, fun n l found => ?_⟩
  · obtain ⟨i, found⟩ := List.mem_iff_getElem?.mp member
    obtain ⟨_, _, bounded, _⟩ := all i l found
    exact bounded
  · obtain ⟨x, place, _, background⟩ := all n l found
    have same := (List.getElem?_eq_some_iff.mp place).2
    rw [List.getElem_range] at same
    rw [same]; exact background

end

theorem rowBytesLength (s : Option Selected) : (rowBytes s).length = 24 := by
  cases s with
  | none => rw [rowBytes, Bytes.repeatedLength, singleBytes, Bytes.ofNatLength]
  | some s => simp [rowBytes, singleBytes, Bytes.ofNatLength]

theorem mappedCovering {rows : List (Nat × Option Selected)} {f : Option Selected → Bytes} {n k size : Nat} (inside : k ≤ n)
    (places : rows.map Prod.fst = List.range k) (sizes : ∀ s, (f s).length = size) :
    Bytes.Covering size n k (rows.map fun r => (r.1, f r.2)) := by
  refine .ofRange inside ?_ fun e member => ?_
  · rw [List.map_map]
    exact places
  · obtain ⟨r, _, made⟩ := List.mem_map.mp member
    rw [← made]
    exact sizes r.2

theorem countsCovering {counts : List Nat} {f : Nat → Bytes} {size : Nat} (sizes : ∀ n, (f n).length = size) :
    Bytes.Covering size counts.length counts.length ((List.range counts.length).zip (counts.map f)) := by
  refine .ofRange (Nat.le_refl _) ?_ fun e member => ?_
  · exact List.map_fst_zip (Nat.le_of_eq (by rw [List.length_range, List.length_map]))
  · obtain ⟨n, _, made⟩ := List.mem_map.mp (List.of_mem_zip member).2
    rw [← made]
    exact sizes n

theorem mappedWritten {rows : List (Nat × Option Selected)} {k : Nat} (places : rows.map Prod.fst = List.range k)
    (f : Option Selected → Bytes) (size : Nat) :
    Bytes.written size k (rows.map fun r => (r.1, f r.2)) = (rows.map Prod.snd).flatMap f := by
  rw [Bytes.writtenInOrder (by rw [List.map_map]; exact places), List.flatMap_map, List.flatMap_map]

theorem countsWritten (counts : List Nat) (f : Nat → Bytes) (size : Nat) :
    Bytes.written size counts.length ((List.range counts.length).zip (counts.map f)) = counts.flatMap f := by
  have same : (List.range counts.length).length = (counts.map f).length := by rw [List.length_range, List.length_map]
  rw [Bytes.writtenInOrder (List.map_fst_zip (Nat.le_of_eq same)), List.flatMap_def,
    List.map_snd_zip (Nat.le_of_eq same.symm), List.flatMap_def]

section
variable {t : Tensor} {ds : List Nat} {type : ElementType} {outputs : List Tensor} {i : Nat} {entries : List (Nat × Bytes)} {size n k : Nat}
  (covering : Bytes.Covering size n k entries) (width : volume ds * type.size = size)
include covering width

theorem coveredSize : (Descriptor.plain (k :: ds) type).byteSize? = some (Bytes.written size k entries).length := by
  rw [Descriptor.plainSize, covering.writtenLength, volumeCons, Nat.mul_assoc, width]

theorem runCovered (found : outputs[i]? = some t) (described : t.descriptor = .plain (n :: ds) type) :
    ∃ new, new.descriptor = .plain (n :: ds) type ∧ new.data.take (k * size) = Bytes.written size k entries ∧
      (Run.overwrite i (writeAll size entries)).run outputs = (Except.ok (), outputs.set i new) := by
  have room : t.data.length = n * size := by rw [t.plainBytes described, volumeCons, Nat.mul_assoc, width]
  obtain ⟨data, ok, length, front⟩ := writeAllOk room covering
  exact ⟨t.replaced data length, described, front, Run.runOverwrite found ok length⟩

theorem coveredWhole (described : t.descriptor = .plain (k :: ds) type)
    (front : t.data.take (k * size) = Bytes.written size k entries) :
    t = ⟨.plain (k :: ds) type, _, coveredSize covering width⟩ := by
  have length := t.plainBytes described
  rw [volumeCons, Nat.mul_assoc, width] at length
  rw [← length, List.take_length] at front
  exact Tensor.same described front

end

theorem truncateCovered {t : Tensor} {m n k size : Nat} {type : ElementType} {entries : List (Nat × Bytes)}
    (covering : Bytes.Covering size n k entries) (width : volume [m] * type.size = size) (positive : 0 < m) (word : m < pow2 64)
    (described : t.descriptor = .plain [n, m] type) (front : t.data.take (k * size) = Bytes.written size k entries) :
    t.truncateOuter k = .ok ⟨.plain [k, m] type, _, coveredSize covering width⟩ :=
  have counted := Tensor.recountRows positive word covering.inside (t.plainBytes described)
  Tensor.truncateOk described covering.inside counted (by rw [Nat.mul_assoc, width]; exact front) _

structure Shows [Widths] (p : NmsPlan) (rows : List (Option Selected)) (counts : List Nat) (first second third : Tensor) : Prop where
  boxes : first.descriptor = .plain [rows.length, 6] .f32
  boxesData : first.data = rows.flatMap rowBytes
  indices : second.descriptor = .plain [rows.length, 1] p.attributes.indexType
  indicesData : second.data = rows.flatMap fun r => p.indexBytes (p.rowIndex r)
  valid : third.descriptor = .plain [counts.length] p.attributes.indexType
  validData : third.data = counts.flatMap fun n => p.indexBytes (n : Nat)

def rowValues : Option Selected → List Single
  | some s => [Binary.ofInt .single s.cls, s.score, s.box.left, s.box.top, s.box.right, s.box.bottom]
  | none => List.replicate 6 (Binary.ofInt .single (-1))

theorem rowBytesValues (r : Option Selected) : rowBytes r = (rowValues r).flatMap singleBytes := by
  cases r with
  | none => rw [rowBytes, rowValues, List.flatMap_def, List.map_replicate, Bytes.repeated]
  | some s => rfl

theorem singleRead (x : Single) : Binary.ofBits .single (singleBytes x).toNat = x := by
  have small : x.bits.toNat < pow2 (8 * 4) := x.bits.isLt
  rw [singleBytes, Bytes.toNatOfNat small, Binary.ofBits, BitVec.ofNat_toNat, BitVec.setWidth_eq]

theorem Shows.values [Widths] {rows : List (Option Selected)} {counts : List Nat} {first second third : Tensor}
    (shown : p.Shows rows counts first second third) :
    first.elements.map (fun e => Binary.ofBits .single e.toNat) = rows.flatMap rowValues := by
  have type : first.type = .f32 := congrArg Descriptor.type shown.boxes
  have data : first.data = ((rows.flatMap rowValues).map singleBytes).flatten := by
    rw [shown.boxesData, ← List.flatMap_def, List.flatMap_assoc]
    exact List.flatMap_congr fun r _ => rowBytesValues r
  have each : ∀ e ∈ (rows.flatMap rowValues).map singleBytes, e.length = ElementType.f32.size := fun e member => by
    obtain ⟨x, _, rfl⟩ := List.mem_map.mp member
    exact Bytes.ofNatLength _ _
  rw [Tensor.elements, type, data, Bytes.piecesFlatten (by decide) each, List.map_map]
  exact (List.map_congr_left fun x _ => singleRead x).trans (List.map_id _)

theorem Shows.plain [Widths] {rows : List (Option Selected)} {counts : List Nat} {first second third : Tensor}
    (shown : p.Shows rows counts first second third) : ∀ t ∈ [first, second, third], t.format = .plain := by
  simp only [List.forall_mem_cons, List.not_mem_nil, false_implies, implies_true, and_true]
  exact ⟨congrArg Descriptor.format shown.boxes, congrArg Descriptor.format shown.indices,
    congrArg Descriptor.format shown.valid⟩

theorem writeLeaves [Widths] {kept : List (List Selected)} (all : p.KeptAll kept) : ∃ first second third,
    Run.Leaves (p.write kept) p.outputs [first, second, third] ∧
      p.Shows ((p.rows 0 (p.blocks kept)).1.map Prod.snd) ((p.perBatch kept).map List.length) first second third := by
  obtain ⟨batches, _⟩ := perBatchLengths all
  obtain ⟨rows, last, chosen, places, inside, whole⟩ := rowsChosen all
  have indexBytes : ∀ v, (p.indexBytes v).length = p.attributes.indexType.size := fun v =>
    ElementType.writeDoubleLength _ _ _
  have rowsCovered := mappedCovering inside places rowBytesLength
  have indicesCovered := mappedCovering inside places (f := fun r => p.indexBytes (p.rowIndex r)) fun _ => indexBytes _
  have countsCovered := @countsCovering ((p.perBatch kept).map List.length) (fun n => p.indexBytes (n : Nat)) _
    fun _ => indexBytes _
  rw [List.length_map, batches] at countsCovered
  have rowWidth : volume [6] * ElementType.f32.size = 24 := rfl
  have indexWidth : volume [1] * p.attributes.indexType.size = p.attributes.indexType.size := Nat.one_mul _
  have countWidth : volume [] * p.attributes.indexType.size = p.attributes.indexType.size := Nat.one_mul _
  refine ⟨⟨_, _, coveredSize rowsCovered rowWidth⟩, ⟨_, _, coveredSize indicesCovered indexWidth⟩,
    ⟨_, _, coveredSize countsCovered countWidth⟩, fun outputs ready => ?_, ?_⟩
  · obtain ⟨t0, t1, t2, rfl, first, second, third⟩ := Tensor.triple ready
    obtain ⟨n0, first, rowsFront, rowsWritten⟩ :=
      runCovered rowsCovered rowWidth (show [t0, t1, t2][0]? = some t0 from rfl) first
    obtain ⟨n1, second, indicesFront, indicesWritten⟩ :=
      runCovered indicesCovered indexWidth (show [n0, t1, t2][1]? = some t1 from rfl) second
    obtain ⟨n2, third, countsFront, countsWritten⟩ :=
      runCovered countsCovered countWidth (show [n0, n1, t2][2]? = some t2 from rfl) third
    simp only [List.set_cons_zero, List.set_cons_succ] at rowsWritten indicesWritten countsWritten
    rw [blocks] at chosen
    simp only [write, chosen]
    rw [← coveredWhole countsCovered countWidth third countsFront, List.length_map, batches, Run.bindOk rowsWritten,
      Run.bindOk indicesWritten, Run.bindOk countsWritten]
    cases dynamic : p.attributes.dynamicOutput with
    | false =>
      cases whole dynamic
      rw [← coveredWhole rowsCovered rowWidth first rowsFront, ← coveredWhole indicesCovered indexWidth second indicesFront]
      rfl
    | true =>
      have cutRows := truncateCovered rowsCovered rowWidth (by decide) (by decide) first rowsFront
      have cutIndices := truncateCovered indicesCovered indexWidth (by decide) (by decide) second indicesFront
      simp only [if_true]
      rw [Run.bindOk (Run.runUpdate (show [n0, n1, n2][0]? = some n0 from rfl) cutRows)]
      exact Run.runUpdate rfl cutIndices
  · have count : rows.length = last := by rw [← List.length_map (f := Prod.fst), places, List.length_range]
    have held := countsWritten ((p.perBatch kept).map List.length) (fun n => p.indexBytes (n : Nat))
      p.attributes.indexType.size
    rw [List.length_map, batches] at held
    rw [chosen]
    exact ⟨by rw [List.length_map, count], mappedWritten places rowBytes 24, by rw [List.length_map, count],
      mappedWritten places (fun r => p.indexBytes (p.rowIndex r)) _, by rw [List.length_map, batches], held⟩

structure Floats (t : Tensor) (dims : List Nat) : Prop where
  type : t.type = .f32
  plain : t.format = .plain
  dims : t.dims = dims

theorem Floats.described {t : Tensor} {dims : List Nat} (floats : Floats t dims) : t.descriptor = .plain dims .f32 := by
  obtain ⟨⟨_, _, _⟩, _, _⟩ := t
  obtain ⟨rfl, rfl, rfl⟩ := floats
  rfl

theorem inputDimsOk {what : String} {t : Tensor} {a b c : Nat} :
    inputDims what t = .ok (a, b, c) ↔ Floats t [a, b, c] := by
  constructor
  · intro ok
    simp only [inputDims, Result.bindOk, Result.ensureOk, Bool.and_eq_true, beq_iff_eq] at ok
    obtain ⟨_, ⟨type, plain⟩, shape⟩ := ok
    split at shape
    · rename_i dims
      cases shape
      exact ⟨type, plain, dims⟩
    · exact (Result.failNotOk shape).elim
  · intro floats
    simp only [inputDims, floats.type, floats.plain, floats.dims, beq_self_eq_true, Bool.and_self, Result.ensure, if_true,
      Result.okBind, Result.pureOk]

theorem ofInputsOk {a : NmsAttributes} {inputs : List Tensor} : ofInputs a inputs = .ok p ↔
    ∃ boxes scores rest, inputs = boxes :: scores :: rest ∧ p.attributes = a ∧ Floats boxes [p.batches, p.boxes, 4] ∧
      Floats scores [p.batches, p.classes, p.boxes] := by
  constructor
  · intro ok
    match inputs with
    | [] => exact (Result.failNotOk ok).elim
    | [_] => exact (Result.failNotOk ok).elim
    | boxes :: scores :: rest =>
      simp only [ofInputs, Result.bindOk, Result.ensureOk, Bool.and_eq_true, beq_iff_eq] at ok
      obtain ⟨⟨batches, count, width⟩, first, ⟨others, classes, others'⟩, second, _, agree, last⟩ := ok
      obtain ⟨⟨four, same⟩, same'⟩ := agree
      cases last
      subst four same same'
      exact ⟨boxes, scores, rest, rfl, rfl, inputDimsOk.mp first, inputDimsOk.mp second⟩
  · rintro ⟨boxes, scores, rest, rfl, rfl, first, second⟩
    simp only [ofInputs, inputDimsOk.mpr first, inputDimsOk.mpr second, Result.okBind, beq_self_eq_true, Bool.and_self,
      Result.ensure, if_true, Result.pureOk]

end NmsPlan

namespace NmsAttributes
variable {a : NmsAttributes} {inputs : List Tensor} {context : PlanContext} {plan : ExecutionPlan}

theorem planCases (ok : a.plan inputs context = .ok plan) : ∃ p team, NmsPlan.ofInputs a inputs = .ok p ∧
    plan = ⟨inputs.map Tensor.descriptor, p.outputs, .lasting, .ofTeam (p.batches * p.classes) team, .matrixNms p⟩ := by
  simp only [NmsAttributes.plan, Result.bindOk] at ok
  obtain ⟨p, made, last⟩ := ok
  cases last
  exact ⟨p, _, made, rfl⟩

theorem planSizes (ok : a.plan inputs context = .ok plan) : ∃ p, NmsPlan.ofInputs a inputs = .ok p ∧
    plan.body = .matrixNms p ∧ p.attributes = a ∧ plan.inputs.take 2 =
      [.plain [p.batches, p.boxes, 4] .f32, .plain [p.batches, p.classes, p.boxes] .f32] := by
  obtain ⟨p, team, made, planned⟩ := planCases ok
  obtain ⟨boxes, scores, rest, given, attributes, first, second⟩ := NmsPlan.ofInputsOk.mp made
  refine ⟨p, made, by rw [planned], attributes, ?_⟩
  rw [planned, given, ← first.described, ← second.described]
  rfl

theorem runKeeps [Widths] (ok : a.plan inputs context = .ok plan) (indexable : ∀ t ∈ inputs.take 2, t.descriptor.Indexable) :
    ∃ p boxes scores boxView scoreView kept, inputs[0]? = some boxes ∧ inputs[1]? = some scores ∧
      NmsPlan.ofInputs a inputs = .ok p ∧ NmsPlan.view "boxes" boxes = .ok boxView ∧
      NmsPlan.view "scores" scores = .ok scoreView ∧
      Result.forEach (p.item boxView scoreView) (List.range (p.batches * p.classes)) = .ok kept ∧ p.KeptAll kept ∧
      ∀ written, Run.Leaves (p.write kept) p.outputs written →
        Run.Leaves (NmsPlan.execute plan inputs) plan.outputs written := by
  obtain ⟨p, team, made, planned⟩ := planCases ok
  obtain ⟨boxes, scores, rest, given, _, first, second⟩ := NmsPlan.ofInputsOk.mp made
  subst planned given
  obtain ⟨boxView, boxesSeen, boxesFull⟩ := NmsPlan.viewOk "boxes" first.type first.plain first.dims
    (indexable boxes (by simp))
  obtain ⟨scoreView, scoresSeen, scoresFull⟩ := NmsPlan.viewOk "scores" second.type second.plain second.dims
    (indexable scores (by simp))
  obtain ⟨kept, held, all⟩ := NmsPlan.itemsSome boxesFull scoresFull
  refine ⟨p, boxes, scores, boxView, scoreView, kept, rfl, rfl, made, boxesSeen, scoresSeen, held, all,
    fun written leaves outputs ready => ?_⟩
  rw [← Partition.ofTeamItems _ team] at held
  rw [NmsPlan.execute, Run.bindOk (Run.runCheck rfl ready), Run.bindOk (Run.runInput rfl), boxesSeen,
    Run.bindOk (Run.runOfResult _ _), Run.bindOk (Run.runInput rfl), scoresSeen, Run.bindOk (Run.runOfResult _ _), held,
    Run.bindOk (Run.runOfResult _ _)]
  exact leaves outputs ready

theorem runLeaves [Widths] (ok : a.plan inputs context = .ok plan) (indexable : ∀ t ∈ inputs.take 2, t.descriptor.Indexable) :
    ∃ written, Run.Leaves (NmsPlan.execute plan inputs) plan.outputs written ∧ ∀ t ∈ written, t.format = .plain := by
  obtain ⟨p, _, _, _, _, kept, _, _, _, _, _, _, all, runs⟩ := runKeeps ok indexable
  obtain ⟨_, _, _, leaves, shown⟩ := NmsPlan.writeLeaves all
  exact ⟨_, runs _ leaves, shown.plain⟩

theorem runTooLarge [Widths] (ok : a.plan inputs context = .ok plan) {outputs : List Tensor}
    (ready : outputs.map Tensor.descriptor = plan.outputs) (large : ∃ t ∈ inputs.take 2, ¬ t.descriptor.Indexable) :
    (NmsPlan.execute plan inputs).run outputs = (Except.error (.error .arrayTooLarge), outputs) := by
  obtain ⟨p, team, made, planned⟩ := planCases ok
  obtain ⟨boxes, scores, rest, given, _, first, second⟩ := NmsPlan.ofInputsOk.mp made
  subst planned given
  rw [NmsPlan.execute, Run.bindOk (Run.runCheck rfl ready), Run.bindOk (Run.runInput rfl)]
  by_cases bounded : boxes.descriptor.Indexable
  · have scoresLarge : ¬ scores.descriptor.Indexable := by
      obtain ⟨t, member, large⟩ := large
      simp only [List.take_succ_cons, List.take_zero, List.mem_cons, List.not_mem_nil, or_false] at member
      rcases member with same | same
      · rw [same] at large; exact (large bounded).elim
      · rwa [same] at large
    obtain ⟨_, boxesSeen, _⟩ := NmsPlan.viewOk "boxes" first.type first.plain first.dims bounded
    rw [boxesSeen, Run.bindOk (Run.runOfResult _ _), Run.bindOk (Run.runInput rfl),
      NmsPlan.viewTooLarge "scores" second.type second.plain scoresLarge]
    exact Run.bindError (Run.runOfResult _ _)
  · rw [NmsPlan.viewTooLarge "boxes" first.type first.plain bounded]
    exact Run.bindError (Run.runOfResult _ _)

end NmsAttributes
end TensorPlan
