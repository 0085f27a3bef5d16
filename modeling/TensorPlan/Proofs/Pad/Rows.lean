import TensorPlan.Proofs.Encoding
import TensorPlan.Proofs.Pad.Axes
import TensorPlan.Proofs.Tiling
/-! Padding row by row. Over axes that lie row-major, the cell of an output position is found through
the start of its row. A row is the run of its chunks, one for each index of the innermost padded axis, and
these are the cells of the row. -/
namespace TensorPlan
open Index (Within)

namespace PadAxis

inductive Regular (mode : PadMode) : List PadAxis → Prop where
  | nil : Regular mode []
  | cons {a : PadAxis} {axes : List PadAxis} (positive : 0 < a.source) (fills : mode.Fills a.source a.before a.after)
      (length : a.target = a.source + a.before + a.after) (sourceStride : a.sourceStride = volume (axes.map source))
      (targetStride : a.targetStride = volume (axes.map target)) (rest : Regular mode axes) :
      Regular mode (a :: axes)

variable {mode : PadMode}

theorem sourceIndexEq (mode : PadMode) {a : PadAxis} (positive : 0 < a.source) (i : Nat) :
    a.sourceIndex mode i = mode.sourceIndex i a.before a.source := by
  unfold sourceIndex PadMode.sourceIndex reflectionBase sourceEnd
  cases mode with
  | constant => rfl
  | edge => rfl
  | reflect =>
    have base : a.source + (a.before + a.source) - 2 = 2 * a.source + a.before - 2 := by omega
    simp [base]
  | symmetric =>
    have base : a.source + (a.before + a.source) + 1 - 2 = 2 * a.source + a.before - 1 := by omega
    simp [base]

theorem noBorders {a : PadAxis} (unpadded : a.isPadded = false) : a.before = 0 ∧ a.after = 0 := by
  simpa [isPadded] using unpadded

theorem regularSuffix {outer inner : List PadAxis} (regular : Regular mode (outer ++ inner)) : Regular mode inner := by
  induction outer with
  | nil => exact regular
  | cons a outer ih => cases regular with | cons _ _ _ _ _ rest => exact ih rest

theorem regularFull {axes : List PadAxis} (regular : Regular mode axes) : 0 ∉ axes.map target := by
  induction regular with
  | nil => simp
  | cons positive _ length _ _ _ ih =>
    simp only [List.map_cons, List.mem_cons, not_or]
    exact ⟨by omega, ih⟩

theorem listRegular {ds bs es : List Nat} (fills : mode.FillsAll ds bs es) (full : 0 ∉ ds) :
    Regular mode (list bs es ds (PadRequest.padded ds bs es) (strides ds) (strides (PadRequest.padded ds bs es))) ∧
      (list bs es ds (PadRequest.padded ds bs es) (strides ds) (strides (PadRequest.padded ds bs es))).map source = ds ∧
      (list bs es ds (PadRequest.padded ds bs es) (strides ds) (strides (PadRequest.padded ds bs es))).map target =
        PadRequest.padded ds bs es := by
  induction fills with
  | nil => exact ⟨.nil, rfl, rfl⟩
  | @cons d b e ds bs es fills _ ih =>
    simp only [List.mem_cons, not_or] at full
    obtain ⟨regular, sources, targets⟩ := ih full.2
    refine ⟨.cons ?_ fills rfl ?_ ?_ regular, ?_, ?_⟩
    · change 0 < d; omega
    · rw [sources]
    · rw [targets]
    · simp only [strides, PadRequest.padded, list, List.map_cons, sources]
    · simp only [strides, PadRequest.padded, list, List.map_cons, targets]

end PadAxis

namespace PadPlan
open PadAxis (Regular)
variable {mode : PadMode}

theorem rowStartList {ds bs es index : List Nat} (fills : mode.FillsAll ds bs es) (full : 0 ∉ ds)
    (same : index.length = ds.length) :
    rowStart mode (PadAxis.list bs es ds (PadRequest.padded ds bs es) (strides ds)
      (strides (PadRequest.padded ds bs es))) index =
      (mode.sourceIndices index bs ds).map fun js => dot js (strides ds) := by
  induction fills generalizing index with
  | nil =>
    cases List.length_eq_zero_iff.mp same
    rfl
  | @cons d b e ds bs es fills _ ih =>
    simp only [List.mem_cons, not_or] at full
    match index, same with
    | i :: index, same =>
      have rest := ih full.2 (show index.length = ds.length by simpa using same)
      have first := PadAxis.sourceIndexEq mode (a := ⟨b, e, d, d + b + e, volume ds, volume (PadRequest.padded ds bs es)⟩)
        (by change 0 < d; omega) i
      simp only [PadRequest.padded, strides, PadAxis.list, rowStart, PadMode.sourceIndices, first, rest]
      cases mode.sourceIndex i b d with
      | none => rfl
      | some j => cases mode.sourceIndices index bs ds <;> rfl

theorem rowStartAppend {outer : List PadAxis} {index : List Nat} (same : index.length = outer.length)
    (inner : List PadAxis) (index' : List Nat) :
    rowStart mode (outer ++ inner) (index ++ index') =
      (rowStart mode outer index).bind fun s => (rowStart mode inner index').map (s + ·) := by
  induction outer generalizing index with
  | nil =>
    cases List.length_eq_zero_iff.mp same
    simp [rowStart]
  | cons a outer ih =>
    match index, same with
    | i :: index, same =>
      have rest := @ih index (by simpa using same)
      simp only [List.cons_append, rowStart, rest]
      cases a.sourceIndex mode i with
      | none => rfl
      | some j =>
        cases rowStart mode outer index with
        | none => rfl
        | some s => cases rowStart mode inner index' <;> simp [Nat.add_assoc]

theorem rowStartUnpadded {front rest : List PadAxis} (regular : Regular mode (front ++ rest))
    (unpadded : ∀ a ∈ front, a.isPadded = false) {n : Nat} (inside : n < volume (front.map PadAxis.target)) :
    rowStart mode front (Index.ofPosition (front.map PadAxis.target) n) =
      some (n * volume (rest.map PadAxis.source)) ∧ front.map PadAxis.source = front.map PadAxis.target := by
  induction front generalizing n with
  | nil =>
    have zero : n = 0 := by simpa using inside
    simp [rowStart, zero]
  | cons a front ih =>
    cases regular with
    | cons positive fills length sourceStride targetStride regular =>
      have bare := PadAxis.noBorders (unpadded a List.mem_cons_self)
      simp only [List.map_cons, volumeCons] at inside ⊢
      obtain ⟨volumes, digit⟩ := quotientBelow inside
      obtain ⟨start, same⟩ := ih regular (fun b member => unpadded b (List.mem_cons_of_mem a member))
        (Nat.mod_lt n volumes)
      have own : a.target = a.source := by omega
      rw [Index.ofPositionMod] at start
      simp only [Index.ofPosition, rowStart, PadAxis.sourceIndexEq mode positive, bare.1, start]
      rw [Nat.mod_eq_of_lt digit, PadMode.sourceIndexUnpadded mode (by rw [← own]; exact digit), own, same]
      refine ⟨?_, rfl⟩
      have whole := Nat.div_add_mod' n (volume (front.map PadAxis.target))
      simp only [Option.bind_eq_bind, Option.bind_some, Option.some.injEq, sourceStride, List.append_eq,
        List.map_append, volumeAppend, same]
      rw [← Nat.mul_assoc, ← Nat.add_mul, whole]

theorem rowStartBound {outer rest : List PadAxis} (regular : Regular mode (outer ++ rest)) {index : List Nat}
    (inside : Within index (outer.map PadAxis.target)) {start : Nat} (found : rowStart mode outer index = some start) :
    start + volume (rest.map PadAxis.source) ≤ volume ((outer ++ rest).map PadAxis.source) := by
  induction outer generalizing index start with
  | nil => cases inside; cases found; simp
  | cons a outer ih =>
    cases regular with
    | cons positive fills length sourceStride targetStride regular =>
      cases inside with
      | cons below inside =>
        simp only [rowStart, Option.bind_eq_bind, Option.bind_eq_some_iff, Option.some.injEq,
          PadAxis.sourceIndexEq mode positive] at found
        obtain ⟨j, first, s, rest, last⟩ := found
        have inner := ih regular inside rest
        have small := PadMode.sourceIndexBelow positive fills (by omega) first
        rw [← last, sourceStride, List.cons_append, List.map_cons, volumeCons]
        calc j * volume ((outer ++ _).map PadAxis.source) + s + volume (List.map PadAxis.source _)
          _ ≤ (j + 1) * volume ((outer ++ _).map PadAxis.source) := by rw [Nat.succ_mul]; omega
          _ ≤ a.source * volume ((outer ++ _).map PadAxis.source) := Nat.mul_le_mul_right _ small

def cell (p : PadPlan) (source : Bytes) (n : Nat) : Bytes :=
  match rowStart p.mode p.axes (Index.ofPosition (p.axes.map PadAxis.target) n) with
  | none => p.pattern
  | some start => Bytes.item p.elementSize source start

def chunk (p : PadPlan) (source : Bytes) (start : Nat) : Option Nat → Bytes
  | none => Bytes.repeated p.shift p.pattern
  | some c => (List.range' (start + c * p.shift) p.shift).flatMap (Bytes.item p.elementSize source)

structure RowWise (p : PadPlan) (outer : List PadAxis) (a : PadAxis) (inner : List PadAxis) : Prop where
  axes : p.axes = outer ++ a :: inner
  walk : ∃ beforeFirst last, p.walk = .rows beforeFirst last outer.length
  regular : Regular p.mode (outer ++ a :: inner)
  unpadded : ∀ b ∈ inner, b.isPadded = false
  pattern : p.pattern.length = p.elementSize

namespace RowWise
variable {p : PadPlan} {outer inner : List PadAxis} {a : PadAxis} {source : Bytes} {start : Nat}

theorem outerRankEq (rows : p.RowWise outer a inner) : p.outerRank = outer.length := by
  obtain ⟨_, _, walk⟩ := rows.walk
  rw [outerRank, walk]

theorem axisAt (rows : p.RowWise outer a inner) : p.axes[p.outerRank]? = some a := by
  rw [rows.outerRankEq, rows.axes]; simp

theorem outerAxes (rows : p.RowWise outer a inner) : p.axes.take p.outerRank = outer := by
  rw [rows.outerRankEq, rows.axes]; simp

theorem outerDimsEq (rows : p.RowWise outer a inner) : p.outerDims = outer.map PadAxis.target := by
  rw [outerDims, rows.outerAxes]

theorem shiftEq (rows : p.RowWise outer a inner) : p.shift = a.targetStride := by
  obtain ⟨_, _, walk⟩ := rows.walk
  have axis := rows.axisAt
  rw [rows.outerRankEq] at axis
  simp [shift, walk, axis]

theorem rowLengthEq (rows : p.RowWise outer a inner) : p.rowLength = a.target * p.shift := by
  obtain ⟨_, _, walk⟩ := rows.walk
  have axis := rows.axisAt
  rw [rows.outerRankEq] at axis
  simp [rowLength, walk, axis, rows.shiftEq]

theorem axisRegular (rows : p.RowWise outer a inner) : Regular p.mode (a :: inner) :=
  PadAxis.regularSuffix rows.regular

theorem strideEq (rows : p.RowWise outer a inner) : p.shift = volume (inner.map PadAxis.target) := by
  cases rows.axisRegular with
  | cons _ _ _ _ targetStride _ => rw [rows.shiftEq, targetStride]

theorem positive (rows : p.RowWise outer a inner) : 0 < a.source := by
  cases rows.axisRegular with
  | cons positive _ _ _ _ _ => exact positive

theorem lengthEq (rows : p.RowWise outer a inner) : a.target = a.source + a.before + a.after := by
  cases rows.axisRegular with
  | cons _ _ length _ _ _ => exact length

theorem fills (rows : p.RowWise outer a inner) : p.mode.Fills a.source a.before a.after := by
  cases rows.axisRegular with
  | cons _ fills _ _ _ _ => exact fills

theorem shiftPositive (rows : p.RowWise outer a inner) : 0 < p.shift := by
  rw [rows.strideEq]
  exact volumePositive (PadAxis.regularFull (@PadAxis.regularSuffix p.mode [a] inner rows.axisRegular))

theorem innerEq (rows : p.RowWise outer a inner) {t : Nat} (inside : t < p.shift) :
    rowStart p.mode inner (Index.ofPosition (inner.map PadAxis.target) t) = some t ∧ a.sourceStride = p.shift := by
  rw [rows.strideEq] at inside ⊢
  cases rows.axisRegular with
  | cons _ _ _ sourceStride _ regular =>
    have whole : Regular p.mode (inner ++ []) := by rwa [List.append_nil]
    have bare := rowStartUnpadded whole rows.unpadded inside
    rw [sourceStride, bare.2]
    exact ⟨by simpa using bare.1, rfl⟩

theorem sourceVolume (rows : p.RowWise outer a inner) :
    volume ((a :: inner).map PadAxis.source) = a.source * p.shift := by
  have stride := (rows.innerEq rows.shiftPositive).2
  cases rows.axisRegular with
  | cons _ _ _ sourceStride _ _ => rw [List.map_cons, volumeCons, ← sourceStride, stride]

theorem cellIndex (rows : p.RowWise outer a inner) {n i t : Nat} (below : i < a.target) (inside : t < p.shift) :
    Index.ofPosition (p.axes.map PadAxis.target) (n * p.rowLength + i * p.shift + t) =
      Index.ofPosition (outer.map PadAxis.target) n ++ i :: Index.ofPosition (inner.map PadAxis.target) t := by
  have length : p.rowLength = volume ((a :: inner).map PadAxis.target) := by
    rw [rows.rowLengthEq, rows.strideEq]; rfl
  have small : i * p.shift + t < p.rowLength := by
    rw [rows.rowLengthEq]; exact digitsBelow below inside
  have row : (n * p.rowLength + (i * p.shift + t)) / p.rowLength = n := quotientDigit small
  have axis : (i * p.shift + t) / p.shift = i := quotientDigit inside
  rw [rows.axes, List.map_append, Index.ofPositionAppend, ← length, Nat.add_assoc, row, length, Index.ofPositionOffset,
    List.map_cons, Index.ofPosition, ← rows.strideEq, axis, Nat.mod_eq_of_lt below]
  congr 2
  rw [rows.strideEq, Index.ofPositionOffset]

theorem cellEq (rows : p.RowWise outer a inner) {n i t : Nat} (below : i < a.target) (inside : t < p.shift) :
    p.cell source (n * p.rowLength + i * p.shift + t) =
      match rowStart p.mode outer (Index.ofPosition (outer.map PadAxis.target) n),
        p.mode.sourceIndex i a.before a.source with
      | some start, some c => Bytes.item p.elementSize source (start + c * p.shift + t)
      | _, _ => p.pattern := by
  obtain ⟨rest, stride⟩ := rows.innerEq inside
  unfold cell
  rw [rows.cellIndex below inside, rows.axes, rowStartAppend (by simp), rowStart, rest, stride,
    PadAxis.sourceIndexEq p.mode rows.positive]
  cases rowStart p.mode outer (Index.ofPosition (outer.map PadAxis.target) n) with
  | none => rfl
  | some start =>
    cases p.mode.sourceIndex i a.before a.source with
    | none => rfl
    | some c => simp [Nat.add_assoc]

end RowWise
end PadPlan
end TensorPlan
