import TensorPlan.Proofs.Pad.Rows
/-! The bytes of a row. Each border is the run of its chunks, and so is the copied middle; together they
are the cells of the row, and all rows are all cells. -/
namespace TensorPlan.PadPlan.RowWise
open PadAxis (Regular)
variable {p : PadPlan} {outer inner : List PadAxis} {a : PadAxis} {source : Bytes} {start : Nat}

theorem chunksBeforeEq (rows : p.RowWise outer a inner) (filled : p.mode ≠ .constant) :
    (List.range a.before).map (fun i => p.mode.sourceIndex i a.before a.source) = (p.chunksBefore a).map some := by
  have positive := rows.positive
  rw [chunksBefore, List.map_map]
  apply List.map_congr_left
  intro i member
  have below := List.mem_range.mp member
  have border : ¬ (a.before ≤ i ∧ i < a.before + a.source) := by omega
  unfold PadMode.sourceIndex
  rw [if_neg border]
  cases mode : p.mode with
  | constant => exact absurd mode filled
  | edge => simp [below]
  | reflect => simp [below]
  | symmetric => simp only [below, if_true, Function.comp_apply, Option.some.injEq]; omega

theorem chunksAfterEq (rows : p.RowWise outer a inner) (filled : p.mode ≠ .constant) :
    (List.range' (a.before + a.source) a.after).map (fun i => p.mode.sourceIndex i a.before a.source) =
      (p.chunksAfter a).map some := by
  have positive := rows.positive
  have fills := rows.fills
  rw [chunksAfter, List.map_map, List.range'_eq_map_range, List.map_map]
  apply List.map_congr_left
  intro i member
  have below := List.mem_range.mp member
  have border : ¬ (a.before ≤ a.before + a.source + i ∧ a.before + a.source + i < a.before + a.source) := by omega
  have behind : ¬ a.before + a.source + i < a.before := by omega
  simp only [Function.comp_apply]
  unfold PadMode.sourceIndex
  rw [if_neg border]
  cases mode : p.mode with
  | constant => exact absurd mode filled
  | edge => simp [behind]
  | reflect =>
    rw [mode] at fills
    have bounds := PadMode.reflectFills positive fills
    simp only [behind, if_false, PadAxis.reflectionBase, PadAxis.sourceEnd, reduceCtorEq, Option.some.injEq]
    omega
  | symmetric =>
    simp only [behind, if_false, PadAxis.reflectionBase, PadAxis.sourceEnd, if_true, Option.some.injEq]
    omega

theorem borderOk (rows : p.RowWise outer a inner)
    (inside : (start + a.source * p.shift) * p.elementSize ≤ source.length) (first count : Nat) (chunks : List Nat)
    (border : ∀ i, first ≤ i → i < first + count → ¬ (a.before ≤ i ∧ i < a.before + a.source))
    (below : first + count ≤ a.target) (counted : chunks.length = count)
    (filled : p.mode ≠ .constant →
      (List.range' first count).map (fun i => p.mode.sourceIndex i a.before a.source) = chunks.map some) :
    p.border ((List.range' start (a.source * p.shift)).flatMap (Bytes.item p.elementSize source)) chunks =
      .ok ((List.range' first count).flatMap fun i => p.chunk source start (p.mode.sourceIndex i a.before a.source)) := by
  unfold PadPlan.border
  by_cases constant : p.mode = .constant
  · have none : ∀ i ∈ List.range' first count,
        p.chunk source start (p.mode.sourceIndex i a.before a.source) = Bytes.repeated p.shift p.pattern := by
      intro i member
      rw [List.mem_range'_1] at member
      unfold PadMode.sourceIndex
      rw [if_neg (border i member.1 member.2), constant]; rfl
    simp only [constant, if_true, counted]
    rw [← constant, List.flatMap_congr none, ← Bytes.repeatedRun]
  · have same := filled constant
    have each : ∀ c ∈ chunks, Result.orFault (Bytes.slice? ((List.range' start (a.source * p.shift)).flatMap
        (Bytes.item p.elementSize source)) (c * (p.shift * p.elementSize)) (p.shift * p.elementSize)) =
        .ok (p.chunk source start (some c)) := by
      intro c member
      have found : some c ∈ (List.range' first count).map fun i => p.mode.sourceIndex i a.before a.source := by
        rw [same]; exact List.mem_map_of_mem member
      obtain ⟨i, range, index⟩ := List.mem_map.mp found
      rw [List.mem_range'_1] at range
      have length := rows.lengthEq
      have small := PadMode.sourceIndexBelow rows.positive rows.fills (by omega) index
      have part : c * p.shift + p.shift ≤ a.source * p.shift := by
        rw [← Nat.succ_mul]; exact Nat.mul_le_mul_right _ small
      rw [← Nat.mul_assoc, Bytes.sliceRun inside part, Result.orFaultSome, chunk]
    simp only [constant, if_false, Result.forEachOk each, Result.okBind, Result.pureOk]
    rw [← List.flatMap_def,
      ← List.flatMap_map (f := fun i => p.mode.sourceIndex i a.before a.source) (g := p.chunk source start), same,
      List.flatMap_map]

theorem rowOk (rows : p.RowWise outer a inner)
    (inside : (start + a.source * p.shift) * p.elementSize ≤ source.length) :
    p.row source start =
      .ok ((List.range a.target).flatMap fun i => p.chunk source start (p.mode.sourceIndex i a.before a.source)) := by
  have length := rows.lengthEq
  have before := rows.borderOk inside 0 a.before (p.chunksBefore a)
    (fun i _ high => by omega) (by omega) (by simp [chunksBefore]) fun filled => by
      rw [← List.range_eq_range']; exact rows.chunksBeforeEq filled
  have after := rows.borderOk inside (a.before + a.source) a.after (p.chunksAfter a)
    (fun i low _ => by omega) (by omega) (by simp [chunksAfter]) rows.chunksAfterEq
  have middle : (List.range' a.before a.source).flatMap
      (fun i => p.chunk source start (p.mode.sourceIndex i a.before a.source)) =
      (List.range' start (a.source * p.shift)).flatMap (Bytes.item p.elementSize source) := by
    rw [← rangeMul start a.source p.shift, List.flatMap_assoc, List.range'_eq_map_range, List.flatMap_map]
    apply List.flatMap_congr
    intro i member
    have below := List.mem_range.mp member
    have copied : a.before ≤ a.before + i ∧ a.before + i < a.before + a.source := by omega
    unfold PadMode.sourceIndex
    rw [if_pos copied, Nat.add_sub_cancel_left, chunk]
  have split : List.range a.target =
      List.range' 0 a.before ++ (List.range' a.before a.source ++ List.range' (a.before + a.source) a.after) := by
    have total : a.target = a.before + (a.source + a.after) := by omega
    have front := List.range'_append_1 (s := 0) (m := a.before) (n := a.source + a.after)
    have back := List.range'_append_1 (s := a.before) (m := a.source) (n := a.after)
    rw [Nat.zero_add] at front
    rw [back, front, List.range_eq_range', total]
  simp only [row, rows.axisAt, Bytes.sliceItems inside, Result.orFaultSome, Result.okBind, before, after, Result.pureOk]
  rw [split, List.flatMap_append, List.flatMap_append, middle, List.append_assoc]

theorem chunkCells (rows : p.RowWise outer a inner) {n i : Nat} (below : i < a.target)
    (found : rowStart p.mode outer (Index.ofPosition (outer.map PadAxis.target) n) = some start) :
    p.chunk source start (p.mode.sourceIndex i a.before a.source) =
      (List.range' (n * p.rowLength + i * p.shift) p.shift).flatMap (p.cell source) := by
  rw [List.range'_eq_map_range, List.flatMap_map]
  cases index : p.mode.sourceIndex i a.before a.source with
  | none =>
    rw [chunk, Bytes.repeatedItems p.shift 0, ← List.range_eq_range']
    apply List.flatMap_congr
    intro t member
    rw [rows.cellEq below (List.mem_range.mp member), found, index]
  | some c =>
    rw [chunk, List.range'_eq_map_range, List.flatMap_map]
    apply List.flatMap_congr
    intro t member
    rw [rows.cellEq below (List.mem_range.mp member), found, index]

theorem itemOk (rows : p.RowWise outer a inner)
    (held : source.length = volume (p.axes.map PadAxis.source) * p.elementSize) {n : Nat} :
    p.item source n = .ok ((List.range' (n * p.rowLength) p.rowLength).flatMap (p.cell source)) := by
  have targets := PadAxis.regularFull rows.regular
  have outerFull : 0 ∉ outer.map PadAxis.target := fun member => targets (by simp_all)
  have index := Index.ofPositionWithin outerFull n
  simp only [item, rows.outerDimsEq, Index.ofFlatFull outerFull, Result.orFaultSome, Result.okBind, rows.outerAxes]
  rw [rows.rowLengthEq, ← rangeMul, List.flatMap_assoc, ← rows.rowLengthEq]
  cases found : rowStart p.mode outer (Index.ofPosition (outer.map PadAxis.target) n) with
  | none =>
    simp only [Result.pureOk, Except.ok.injEq]
    rw [rows.rowLengthEq, Bytes.repeatedRun a.target 0, ← List.range_eq_range']
    apply List.flatMap_congr
    intro i member
    rw [Bytes.repeatedItems p.shift 0, ← rows.rowLengthEq, List.range'_eq_map_range, List.range'_eq_map_range,
      List.flatMap_map, List.flatMap_map]
    apply List.flatMap_congr
    intro t inside
    rw [rows.cellEq (List.mem_range.mp member) (List.mem_range.mp inside), found]
  | some start =>
    have bound := rowStartBound rows.regular index found
    rw [rows.sourceVolume, ← rows.axes] at bound
    have inside := Nat.mul_le_mul_right p.elementSize bound
    rw [← held] at inside
    simp only [rows.rowOk inside, Except.ok.injEq]
    apply List.flatMap_congr
    intro i member
    exact rows.chunkCells (List.mem_range.mp member) found

theorem cellLength (rows : p.RowWise outer a inner)
    (held : source.length = volume (p.axes.map PadAxis.source) * p.elementSize) (n : Nat) :
    (p.cell source n).length = p.elementSize := by
  have index := Index.ofPositionWithin (PadAxis.regularFull rows.regular) n
  unfold cell
  rw [rows.axes] at held ⊢
  cases found : rowStart p.mode (outer ++ a :: inner)
      (Index.ofPosition ((outer ++ a :: inner).map PadAxis.target) n) with
  | none => exact rows.pattern
  | some start =>
    have whole : Regular p.mode ((outer ++ a :: inner) ++ []) := by rw [List.append_nil]; exact rows.regular
    have bound := rowStartBound whole index found
    rw [List.append_nil, List.map_nil, volumeNil] at bound
    have inside := Nat.mul_le_mul_right p.elementSize bound
    rw [← held] at inside
    exact Bytes.itemLength inside

theorem workEq (rows : p.RowWise outer a inner) : p.work * p.rowLength = volume (p.axes.map PadAxis.target) := by
  obtain ⟨_, _, walk⟩ := rows.walk
  have work : p.work = volume (outer.map PadAxis.target) := by rw [PadPlan.work, walk, ← rows.outerDimsEq]
  rw [work, rows.rowLengthEq, rows.strideEq, rows.axes, List.map_append, volumeAppend]
  rfl

theorem fillOk (rows : p.RowWise outer a inner)
    (held : source.length = volume (p.axes.map PadAxis.source) * p.elementSize) {team : Nat} {bytes : Bytes}
    (room : bytes.length = volume (p.axes.map PadAxis.target) * p.elementSize) :
    p.fill (.ofTeam p.work team) source bytes =
      .ok ((List.range (volume (p.axes.map PadAxis.target))).flatMap (p.cell source)) := by
  obtain ⟨_, _, walk⟩ := rows.walk
  have whole : bytes.length = p.work * (p.rowLength * p.elementSize) := by
    rw [room, ← rows.workEq, Nat.mul_assoc]
  have run : (Partition.ofTeam p.work team).overwriteEach (p.rowLength * p.elementSize) (p.item source) bytes =
      .ok ((List.range p.work).flatMap fun n => (List.range' (n * p.rowLength) p.rowLength).flatMap (p.cell source)) :=
    Partition.overwriteEachOk whole fun n _ =>
      ⟨rows.itemOk held, Bytes.joinedLength fun i _ _ => rows.cellLength held i⟩
  rw [fill, walk]
  simp only [run]
  rw [rangeRuns, rows.workEq]

end TensorPlan.PadPlan.RowWise
