import TensorPlan.Proofs.Pad.RowBytes
/-! Folding and walking. Folding the axes in front of the first padded one into one moves no element, and
the walk that is chosen for regular axes numbers its rows by the axes in front of the last padded one. -/
namespace TensorPlan
open PadAxis (Regular)
variable {α : Type} {p : α → Bool} {xs : List α}

namespace PadPlan

theorem lastIndexSome {l : Nat} (found : lastIndex? p xs = some l) :
    l < xs.length ∧ (∃ x, xs[l]? = some x ∧ p x = true) ∧ ∀ x ∈ xs.drop (l + 1), p x = false := by
  rw [lastIndex?, Option.map_eq_some_iff] at found
  obtain ⟨i, index, last⟩ := found
  obtain ⟨inside, holds, first⟩ := List.findIdx?_eq_some_iff_getElem.mp index
  rw [List.length_reverse] at inside
  rw [List.getElem_reverse] at holds
  refine ⟨by omega, ⟨xs[xs.length - 1 - i], ?_, holds⟩, fun x member => ?_⟩
  · subst last; exact List.getElem?_eq_getElem _
  · obtain ⟨k, below, value⟩ := List.mem_iff_getElem.mp member
    rw [List.length_drop] at below
    have other := first (xs.length - 1 - (l + 1 + k)) (by omega)
    rw [List.getElem_reverse] at other
    have place : xs.length - 1 - (xs.length - 1 - (l + 1 + k)) = l + 1 + k := by omega
    simp only [place] at other
    rw [← value, List.getElem_drop]
    simpa using other

theorem lastIndexNone (none : lastIndex? p xs = none) : ∀ x ∈ xs, p x = false := by
  rw [lastIndex?, Option.map_eq_none_iff, List.findIdx?_eq_none_iff] at none
  intro x member
  exact none x (List.mem_reverse.mpr member)

end PadPlan

namespace PadAxis
variable {mode : PadMode}

theorem lastStrides {front rest : List PadAxis} {last : PadAxis} (regular : Regular mode (front ++ rest))
    (found : front.getLast? = some last) :
    last.sourceStride = volume (rest.map source) ∧ last.targetStride = volume (rest.map target) := by
  obtain ⟨init, joined⟩ := List.getLast?_eq_some_iff.mp found
  rw [joined, List.append_assoc] at regular
  cases regularSuffix regular with
  | cons _ _ _ sourceStride targetStride _ => exact ⟨sourceStride, targetStride⟩

theorem rowStartFront {q : PadAxis} {rest : List PadAxis} {n : Nat} (bare : q.before = 0) (length : q.target = q.source)
    (below : n / volume (rest.map target) < q.source) :
    PadPlan.rowStart mode (q :: rest) (Index.ofPosition ((q :: rest).map target) n) =
      (PadPlan.rowStart mode rest (Index.ofPosition (rest.map target) n)).map
        (n / volume (rest.map target) * q.sourceStride + ·) := by
  simp only [List.map_cons, Index.ofPosition, PadPlan.rowStart, length, Nat.mod_eq_of_lt below, bare,
    sourceIndexEq mode (Nat.zero_lt_of_lt below), PadMode.sourceIndexUnpadded mode below]
  cases PadPlan.rowStart mode rest (Index.ofPosition (rest.map target) n) <;> rfl

theorem foldFields {first : PadAxis} {front rest : List PadAxis} (regular : Regular mode (first :: front ++ rest)) :
    ∃ q, fold (first :: front) = some q ∧ q.before = first.before ∧ q.after = first.after ∧
      q.source = volume ((first :: front).map source) ∧ q.target = volume ((first :: front).map target) ∧
      q.sourceStride = volume (rest.map source) ∧ q.targetStride = volume (rest.map target) := by
  obtain ⟨last, found⟩ : ∃ last, (first :: front).getLast? = some last :=
    ⟨_, List.getLast?_eq_some_getLast (List.cons_ne_nil first front)⟩
  obtain ⟨sourceStride, targetStride⟩ := lastStrides regular found
  exact ⟨⟨first.before, first.after, _, _, last.sourceStride, last.targetStride⟩, by simp [fold, found], rfl, rfl,
    rfl, rfl, sourceStride, targetStride⟩

theorem foldRegular {first : PadAxis} {front rest : List PadAxis} (regular : Regular mode (first :: front ++ rest))
    (unpadded : ∀ a ∈ first :: front, a.isPadded = false) :
    ∃ q, fold (first :: front) = some q ∧ Regular mode (q :: rest) ∧
      q.source = volume ((first :: front).map source) ∧ q.target = volume ((first :: front).map target) ∧
      ∀ n < volume ((first :: front ++ rest).map target),
        PadPlan.rowStart mode (q :: rest) (Index.ofPosition ((q :: rest).map target) n) =
          PadPlan.rowStart mode (first :: front ++ rest) (Index.ofPosition ((first :: front ++ rest).map target) n) := by
  obtain ⟨q, made, before, after, sources, targets, sourceStride, targetStride⟩ := foldFields regular
  have bare := noBorders (unpadded first List.mem_cons_self)
  rw [bare.1] at before
  rw [bare.2] at after
  have full : 0 ∉ (first :: front).map target := fun member =>
    regularFull regular (by rw [List.map_append]; exact List.mem_append_left _ member)
  have volumes := volumePositive full
  have same := (PadPlan.rowStartUnpadded regular unpadded volumes).2
  have length : q.target = q.source := by rw [sources, targets, same]
  rw [← targets, length] at volumes
  have fills : mode.Fills q.source q.before q.after := by rw [before, after]; exact PadMode.unpaddedFills mode _
  have whole : q.target = q.source + q.before + q.after := by omega
  refine ⟨q, made, .cons volumes fills whole sourceStride targetStride (regularSuffix regular), sources, targets,
    fun n inside => ?_⟩
  have position : n / volume (rest.map target) < volume ((first :: front).map target) := by
    rw [List.map_append, volumeAppend] at inside
    exact Nat.div_lt_of_lt_mul (by rwa [Nat.mul_comm])
  have start := (PadPlan.rowStartUnpadded regular unpadded position).1
  rw [List.map_append, Index.ofPositionAppend, PadPlan.rowStartAppend (by simp), start,
    rowStartFront before length (by rw [sources, same]; exact position), sourceStride]
  rfl

end PadAxis

namespace PadPlan

theorem lastSplit (p : α → Bool) {xs : List α} (filled : xs ≠ []) :
    ∃ front x rest, xs = front ++ x :: rest ∧ front.length = (lastIndex? p xs).getD (xs.length - 1) ∧
      ∀ y ∈ rest, p y = false := by
  have positive := List.length_pos_of_ne_nil filled
  obtain ⟨inside, behind⟩ : (lastIndex? p xs).getD (xs.length - 1) < xs.length ∧
      ∀ y ∈ xs.drop ((lastIndex? p xs).getD (xs.length - 1) + 1), p y = false := by
    cases found : lastIndex? p xs with
    | none => exact ⟨by simp; omega, fun y member => lastIndexNone found y (List.mem_of_mem_drop member)⟩
    | some l => exact ⟨(lastIndexSome found).1, (lastIndexSome found).2.2⟩
  generalize (lastIndex? p xs).getD (xs.length - 1) = l at inside behind ⊢
  refine ⟨xs.take l, xs[l], xs.drop (l + 1), ?_, ?_, behind⟩
  · rw [← List.drop_eq_getElem_cons inside, List.take_append_drop]
  · rw [List.length_take]; omega

theorem firstBare {f : Nat} (found : xs.findIdx? p = some f) : ∀ x ∈ xs.take f, p x = false := by
  intro x member
  obtain ⟨_, _, first⟩ := List.findIdx?_eq_some_iff_getElem.mp found
  obtain ⟨k, below, value⟩ := List.mem_iff_getElem.mp member
  rw [List.length_take] at below
  rw [← value, List.getElem_take]
  simpa using first k (by omega)

theorem firstInFront {front rest : List α} {x : α} {f : Nat} (behind : ∀ y ∈ rest, p y = false)
    (found : (front ++ x :: rest).findIdx? p = some f) : f ≤ front.length := by
  obtain ⟨inside, holds, _⟩ := List.findIdx?_eq_some_iff_getElem.mp found
  by_contra late
  have tail : (front ++ x :: rest)[f]? = rest[f - front.length - 1]? := by
    have step : f - front.length = (f - front.length - 1) + 1 := by omega
    rw [List.getElem?_append_right (by omega), step, List.getElem?_cons_succ, Nat.add_sub_cancel]
  rw [List.getElem?_eq_getElem inside] at tail
  have none := behind _ (List.mem_of_getElem? tail.symm)
  rw [none] at holds
  cases holds

theorem frontSplit {front : List α} {f : Nat} (positive : 0 < f) (inFront : f ≤ front.length) :
    ∃ lead mid rest, front = lead :: mid ++ rest ∧ (lead :: mid).length = f := by
  match front, inFront with
  | lead :: front, inFront =>
    refine ⟨lead, front.take (f - 1), front.drop (f - 1), ?_, ?_⟩
    · rw [List.cons_append, List.take_append_drop]
    · simp only [List.length_cons] at inFront
      rw [List.length_cons, List.length_take]; omega
  | [], inFront => simp only [List.length_nil] at inFront; omega

section
variable {mode : PadMode} {size : Nat} {pattern : Bytes} {axes : List PadAxis} {beforeFirst : Int} {last outer : Nat}

theorem foldedFront {lead q : PadAxis} {mid rest : List PadAxis} (several : 0 < beforeFirst)
    (leads : (lead :: mid).length = beforeFirst.toNat + 1) (made : PadAxis.fold (lead :: mid) = some q) :
    folded (lead :: mid ++ rest) beforeFirst = q :: rest := by
  unfold folded
  simp only [if_pos several, List.take_left' leads, List.drop_left' leads, made]
  rfl

theorem walkRowWise (regular : Regular mode axes) (filled : axes ≠ []) (fits : pattern.length = size)
    (walk : walkRows axes = .rows beforeFirst last outer) :
    (∃ front a inner, (⟨mode, size, pattern, folded axes beforeFirst, .rows beforeFirst last outer⟩ : PadPlan).RowWise
        front a inner) ∧
      volume ((folded axes beforeFirst).map PadAxis.source) = volume (axes.map PadAxis.source) ∧
      volume ((folded axes beforeFirst).map PadAxis.target) = volume (axes.map PadAxis.target) ∧
      ∀ n < volume (axes.map PadAxis.target),
        rowStart mode (folded axes beforeFirst) (Index.ofPosition ((folded axes beforeFirst).map PadAxis.target) n) =
          rowStart mode axes (Index.ofPosition (axes.map PadAxis.target) n) := by
  obtain ⟨front, a, inner, split, length, unpadded⟩ := lastSplit PadAxis.isPadded filled
  simp only [walkRows, PadWalk.rows.injEq] at walk
  obtain ⟨firstEq, lastEq, outerEq⟩ := walk
  rw [firstEq, ← length] at outerEq
  rw [← length] at lastEq
  by_cases several : 0 < beforeFirst
  · cases found : axes.findIdx? PadAxis.isPadded with
    | none => rw [found] at firstEq; simp at firstEq; omega
    | some f =>
      rw [found] at firstEq
      change (f : Int) - 1 = beforeFirst at firstEq
      have count : beforeFirst.toNat + 1 = f := by omega
      have inFront := firstInFront unpadded (split ▸ found)
      obtain ⟨lead, mid, rest, parts, leads⟩ := frontSplit (by omega) inFront
      have joined : axes = lead :: mid ++ (rest ++ a :: inner) := by rw [split, parts, List.append_assoc]
      have bare := firstBare found
      rw [joined, List.take_left' leads] at bare
      rw [joined] at regular
      obtain ⟨q, made, folded', sources, targets, same⟩ := PadAxis.foldRegular regular bare
      rw [joined, foldedFront several (leads.trans count.symm) made]
      have rank : outer = (q :: rest).length := by
        rw [parts, List.length_append, leads] at outerEq
        rw [List.length_cons]; omega
      refine ⟨⟨q :: rest, a, inner, rfl, ⟨beforeFirst, last, by rw [rank]⟩, folded', unpadded, fits⟩, ?_, ?_, same⟩
      · change q.source * volume ((rest ++ a :: inner).map PadAxis.source) = _
        rw [sources, ← volumeAppend, ← List.map_append]
      · change q.target * volume ((rest ++ a :: inner).map PadAxis.target) = _
        rw [targets, ← volumeAppend, ← List.map_append]
  · have same : folded axes beforeFirst = axes := if_neg several
    have rank : outer = front.length := by
      have none : beforeFirst.toNat = 0 := by omega
      rw [← outerEq, none, Nat.sub_zero]
    rw [same]
    exact ⟨⟨front, a, inner, split, ⟨beforeFirst, last, by rw [rank]⟩, split ▸ regular, unpadded, fits⟩, rfl, rfl,
      fun _ _ => rfl⟩

end
end PadPlan
end TensorPlan
