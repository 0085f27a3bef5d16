import TensorPlan.Proofs.Computation
import TensorPlan.Proofs.Items
/-! Partitions of work. The shares of a team tile the items without gap and overlap, so overwriting
span by span, or item by item, replaces a buffer of exactly the items by the results in order. -/
namespace TensorPlan

inductive Tiles : Nat → List Span → Nat → Prop where
  | nil (stop : Nat) : Tiles stop [] stop
  | cons {s : Span} {ss : List Span} {stop : Nat} (filled : s.start < s.stop) (rest : Tiles s.stop ss stop) :
      Tiles s.start (s :: ss) stop

theorem tilesOrder {start stop : Nat} {ss : List Span} (tiles : Tiles start ss stop) : start ≤ stop := by
  induction tiles with
  | nil => exact Nat.le_refl _
  | cons filled _ ih => omega

theorem tilesNone {start : Nat} {ss : List Span} (tiles : Tiles start ss start) : ss = [] := by
  cases tiles with
  | nil => rfl
  | cons filled rest => exact absurd (tilesOrder rest) (by omega)

theorem spanSplit {s : Span} {stop : Nat} (filled : s.start < s.stop) (order : s.stop ≤ stop) :
    stop - s.start = s.length + (stop - s.stop) ∧ s.start + s.length = s.stop := by
  unfold Span.length; omega

theorem tilesItems {start stop : Nat} {ss : List Span} (tiles : Tiles start ss stop) :
    ss.flatMap Span.items = List.range' start (stop - start) := by
  induction tiles with
  | nil => simp
  | @cons s ss stop filled rest ih =>
    obtain ⟨total, behind⟩ := spanSplit filled (tilesOrder rest)
    rw [List.flatMap_cons, ih, total, ← List.range'_append_1, behind, Span.items]

namespace Span

def bound (n team worker : Nat) : Nat :=
  if team ≤ 1 ∨ n = 0 then if worker = 0 then 0 else n
  else
    let larger := blocksFor n team
    let favoured := n - (larger - 1) * team
    if worker ≤ favoured then worker * larger else favoured * larger + (worker - favoured) * (larger - 1)

theorem shareBounds (n team worker : Nat) : share n team worker = ⟨bound n team worker, bound n team (worker + 1)⟩ := by
  unfold share bound
  split
  · by_cases first : worker = 0
    · simp [first]
    · simp [first]
  · simp only [mk.injEq, true_and]
    generalize blocksFor n team = larger
    generalize n - (larger - 1) * team = favoured
    by_cases inside : worker + 1 ≤ favoured
    · have before : worker ≤ favoured := by omega
      have strict : worker < favoured := by omega
      simp only [inside, before, strict, if_true, Nat.succ_mul]
    · by_cases last : worker = favoured
      · have behind : ¬ favoured + 1 ≤ favoured := by omega
        simp [last, behind]
      · have behind : ¬ worker ≤ favoured := by omega
        have strict : ¬ worker < favoured := by omega
        have step : worker + 1 - favoured = worker - favoured + 1 := by omega
        simp only [inside, behind, strict, if_false, step, Nat.succ_mul, Nat.add_assoc]

theorem shareOrder (n team worker : Nat) : (share n team worker).start ≤ (share n team worker).stop := by
  unfold share
  split
  · split
    · exact Nat.zero_le n
    · exact Nat.le_refl n
  · exact Nat.le_add_right _ _

theorem boundOrder (n team worker : Nat) : bound n team worker ≤ bound n team (worker + 1) := by
  have order := shareOrder n team worker
  rwa [shareBounds] at order

theorem boundZero (n team : Nat) : bound n team 0 = 0 := by
  unfold bound
  split <;> simp

theorem boundTeam {n team : Nat} (positive : 0 < team) : bound n team team = n := by
  unfold bound
  split
  · rename_i few
    have some : team ≠ 0 := by omega
    simp [some]
  · rename_i many
    have work : 0 < n := by omega
    have larger := Nat.div_add_mod (n + team - 1) team
    have rest := Nat.mod_lt (n + team - 1) positive
    have whole : blocksFor n team * team = team * ((n + team - 1) / team) := by rw [blocksFor, Nat.mul_comm]
    have one : 0 < blocksFor n team := Nat.div_pos (by omega) positive
    obtain ⟨smaller, count⟩ : ∃ smaller, blocksFor n team = smaller + 1 := ⟨blocksFor n team - 1, by omega⟩
    rw [count, Nat.succ_mul] at whole
    simp only [count, Nat.add_sub_cancel]
    have favoured : n - smaller * team ≤ team := by omega
    by_cases all : team ≤ n - smaller * team
    · have equal : n = smaller * team + team := by omega
      simp only [all, if_true]
      rw [Nat.mul_succ, Nat.mul_comm, ← equal]
    · simp only [all, if_false]
      have split : (n - smaller * team) * smaller + (team - (n - smaller * team)) * smaller = team * smaller := by
        rw [← Nat.add_mul]; congr 1; omega
      rw [Nat.mul_succ, Nat.add_right_comm, split, Nat.mul_comm]
      omega

theorem sharesTile (n team worker count : Nat) :
    Tiles (bound n team worker)
      (((List.range' worker count).map (share n team)).filter fun s => !s.isEmpty) (bound n team (worker + count)) := by
  induction count generalizing worker with
  | zero => exact .nil _
  | succ count ih =>
    have rest := ih (worker + 1)
    have order := boundOrder n team worker
    rw [Nat.add_right_comm, Nat.add_assoc] at rest
    rw [List.range'_succ, List.map_cons, shareBounds]
    by_cases filled : bound n team worker < bound n team (worker + 1)
    · rw [List.filter_cons_of_pos (by simp [isEmpty, filled])]
      exact .cons (s := ⟨bound n team worker, bound n team (worker + 1)⟩) filled rest
    · have empty : bound n team (worker + 1) = bound n team worker := by omega
      rw [List.filter_cons_of_neg (by simp [isEmpty, empty]), ← empty]
      exact rest

end Span

namespace Partition

theorem ofTeamTiles (work team : Nat) : Tiles 0 (ofTeam work team).spans work := by
  have members : 0 < min (max team 1) (max work 1) := by omega
  have tiles := Span.sharesTile work (min (max team 1) (max work 1)) 0 (min (max team 1) (max work 1))
  rw [Span.boundZero, Nat.zero_add, Span.boundTeam members, ← List.range_eq_range'] at tiles
  exact tiles

theorem ofTeamItems (work team : Nat) : (ofTeam work team).items = List.range work := by
  rw [items, tilesItems (ofTeamTiles work team), List.range_eq_range', Nat.sub_zero]

end Partition

namespace Bytes

theorem inPlaceOfSame {old new : Bytes} (size : new.length = old.length) : inPlaceOf old new = .ok new := if_pos size

theorem overwriteItemsOk {size count start : Nat} {f : Nat → Result Bytes} {g : Nat → Bytes} {bytes : Bytes}
    (whole : bytes.length = count * size)
    (made : ∀ i, start ≤ i → i < start + count → f i = .ok (g i) ∧ (g i).length = size) :
    overwriteItems size f start count bytes = .ok ((List.range' start count).flatMap g) := by
  induction count generalizing start bytes with
  | zero =>
    have empty : bytes = [] := by simpa using whole
    simp [overwriteItems, empty]
  | succ count ih =>
    rw [Nat.succ_mul] at whole
    obtain ⟨first, fits⟩ := made start (by omega) (by omega)
    have rest : overwriteItems size f (start + 1) count (bytes.drop size) =
        .ok ((List.range' (start + 1) count).flatMap g) :=
      ih (by rw [List.length_drop, whole]; omega) fun i low high => made i (by omega) (by omega)
    have piece : bytes.slice? 0 size = some (bytes.take size) := by simp [slice?, whole]
    have replaced : inPlaceOf (bytes.take size) (g start) = .ok (g start) :=
      inPlaceOfSame (by rw [fits, List.length_take, whole]; omega)
    rw [List.range'_succ, List.flatMap_cons]
    simp [overwriteItems, piece, first, replaced, rest]

theorem overwriteSpansOk {size start stop : Nat} {ss : List Span} {f : Span → Bytes → Result Bytes}
    {g : Nat → Bytes} {bytes : Bytes} (tiles : Tiles start ss stop) (whole : bytes.length = (stop - start) * size)
    (sizes : ∀ i, start ≤ i → i < stop → (g i).length = size)
    (made : ∀ (s : Span) (piece : Bytes), start ≤ s.start → s.start ≤ s.stop → s.stop ≤ stop →
      piece.length = s.length * size → f s piece = .ok (s.items.flatMap g)) :
    overwriteSpans size f ss bytes = .ok ((List.range' start (stop - start)).flatMap g) := by
  induction tiles generalizing bytes with
  | nil =>
    have empty : bytes = [] := by simpa using whole
    simp [overwriteSpans, empty]
  | @cons s ss stop filled tiles ih =>
    have order := tilesOrder tiles
    obtain ⟨total, behind⟩ := spanSplit filled order
    rw [total, Nat.add_mul] at whole
    have rest : overwriteSpans size f ss (bytes.drop (s.length * size)) =
        .ok ((List.range' s.stop (stop - s.stop)).flatMap g) :=
      ih (by rw [List.length_drop, whole]; omega) (fun i low high => sizes i (by omega) high)
        fun t piece low inside high => made t piece (by omega) inside high
    have piece : bytes.slice? 0 (s.length * size) = some (bytes.take (s.length * size)) := by simp [slice?, whole]
    have held : (bytes.take (s.length * size)).length = s.length * size := by
      rw [List.length_take, whole]; omega
    have new := made s _ (Nat.le_refl _) (by omega) order held
    have fits : (s.items.flatMap g).length = s.length * size :=
      joinedLength fun i low high => sizes i low (by omega)
    have replaced := inPlaceOfSame (fits.trans held.symm)
    rw [total, ← List.range'_append_1, behind, List.flatMap_append, ← Span.items]
    simp [overwriteSpans, piece, new, replaced, rest]

end Bytes

namespace Partition
variable {work team size : Nat} {g : Nat → Bytes} {bytes : Bytes}

theorem overwriteOk {f : Span → Bytes → Result Bytes} (whole : bytes.length = work * size)
    (sizes : ∀ i < work, (g i).length = size)
    (made : ∀ (s : Span) (piece : Bytes), s.start ≤ s.stop → s.stop ≤ work → piece.length = s.length * size →
      f s piece = .ok (s.items.flatMap g)) :
    (ofTeam work team).overwrite size f bytes = .ok ((List.range work).flatMap g) := by
  have room : decide (work * size ≤ bytes.length) = true := by simp [whole]
  have run := Bytes.overwriteSpansOk (ofTeamTiles work team) (by simpa using whole) (fun i _ high => sizes i high)
    fun s piece _ order high held => made s piece order high held
  rw [Nat.sub_zero, ← List.range_eq_range'] at run
  have planned : (ofTeam work team).work = work := rfl
  simp [overwrite, planned, room, Result.ensure, run]

theorem overwriteEachOk {f : Nat → Result Bytes} (whole : bytes.length = work * size)
    (made : ∀ i < work, f i = .ok (g i) ∧ (g i).length = size) :
    (ofTeam work team).overwriteEach size f bytes = .ok ((List.range work).flatMap g) := by
  apply overwriteOk whole (fun i high => (made i high).2)
  intro s piece order high held
  apply Bytes.overwriteItemsOk held
  intro i _ below
  exact made i (by unfold Span.length at below; omega)

end Partition
end TensorPlan
