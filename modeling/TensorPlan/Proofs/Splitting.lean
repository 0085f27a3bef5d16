import TensorPlan.Proofs.Tiling
/-! Splitting work among teams. Where writing two adjacent spans one after the other is writing both as one, all
partitions of the work write the same bytes or fail alike, also into a buffer that is too small or too large. -/
namespace TensorPlan

namespace Bytes
variable {size start stop m n : Nat} {ss : List Span} {s : Span} {f : Span → Bytes → Result Bytes} {bytes : Bytes}

def replaced (f : Span → Bytes → Result Bytes) (s : Span) (piece : Bytes) : Result Bytes := do
  inPlaceOf piece (← f s piece)

def Divisible (size : Nat) (f : Span → Bytes → Result Bytes) : Prop :=
  ∀ (start m n : Nat) (front back : Bytes), 0 < m → 0 < n → front.length = m * size → back.length = n * size →
    replaced f ⟨start, start + m + n⟩ (front ++ back) = do
      let x ← replaced f ⟨start, start + m⟩ front
      let y ← replaced f ⟨start + m, start + m + n⟩ back
      return x ++ y

theorem overwriteFirst (room : s.length * size ≤ bytes.length) :
    overwriteSpans size f (s :: ss) bytes = do
      let x ← replaced f s (bytes.take (s.length * size))
      let rest ← overwriteSpans size f ss (bytes.drop (s.length * size))
      return x ++ rest := by
  have piece : bytes.slice? 0 (s.length * size) = some (bytes.take (s.length * size)) := if_pos (by omega)
  simp only [overwriteSpans, replaced, piece, Result.orFaultSome, Result.okBind, bind_assoc]

theorem overwriteSpansWhole (divisible : Divisible size f) (tiles : Tiles start ss stop) (filled : start < stop)
    (room : (stop - start) * size ≤ bytes.length) :
    overwriteSpans size f ss bytes = do
      let x ← replaced f ⟨start, stop⟩ (bytes.take ((stop - start) * size))
      return x ++ bytes.drop ((stop - start) * size) := by
  induction tiles generalizing bytes with
  | nil => omega
  | @cons s ss stop first tiles ih =>
    have order := tilesOrder tiles
    obtain ⟨total, behind⟩ := spanSplit first order
    rw [total, Nat.add_mul] at room
    rw [overwriteFirst (by omega)]
    by_cases last : s.stop = stop
    · subst last
      rw [tilesNone tiles, overwriteSpans]
      rfl
    · have rest := @ih (bytes.drop (s.length * size)) (by omega) (by rw [List.length_drop]; omega)
      have both := divisible s.start s.length (stop - s.stop) (bytes.take (s.length * size))
        ((bytes.drop (s.length * size)).take ((stop - s.stop) * size)) (by omega) (by omega)
        (by rw [List.length_take]; omega) (by rw [List.length_take, List.length_drop]; omega)
      rw [behind, Nat.add_sub_cancel' order] at both
      rw [rest, total, Nat.add_mul, List.take_add, both, ← List.drop_drop]
      simp only [bind_assoc, pure_bind, List.append_assoc]

theorem inPlaceOfOk {old new out : Bytes} : inPlaceOf old new = .ok out ↔ new.length = old.length ∧ new = out := by
  unfold inPlaceOf
  split
  · rename_i same
    simp [same]
  · rename_i other
    simp [other, Result.fault]

section
variable {f : Nat → Result Bytes}

theorem overwriteItemsLength {count : Nat} {out : Bytes} (whole : bytes.length = count * size)
    (ok : overwriteItems size f start count bytes = .ok out) : out.length = bytes.length := by
  induction count generalizing start bytes out with
  | zero => cases ok; rfl
  | succ count ih =>
    rw [Nat.succ_mul] at whole
    have piece : bytes.slice? 0 size = some (bytes.take size) := if_pos (by omega)
    simp only [overwriteItems, piece, Result.orFaultSome, Result.okBind, Result.bindOk, inPlaceOfOk] at ok
    obtain ⟨_, _, new, ⟨length, same⟩, rest, written, last⟩ := ok
    cases same
    cases last
    have behind := ih (by rw [List.length_drop]; omega) written
    simp only [List.length_append, List.length_take, List.length_drop] at length behind ⊢
    omega

theorem overwriteItemsSplit {front : Bytes} (back : Bytes) (whole : front.length = m * size) :
    overwriteItems size f start (m + n) (front ++ back) = do
      let x ← overwriteItems size f start m front
      let y ← overwriteItems size f (start + m) n back
      return x ++ y := by
  induction m generalizing start front with
  | zero =>
    have none : front = [] := by simpa using whole
    subst none
    rw [Nat.zero_add, List.nil_append, overwriteItems]
    exact (bind_pure _).symm
  | succ m ih =>
    rw [Nat.succ_mul] at whole
    have enough : size ≤ front.length := by omega
    have piece : front.slice? 0 size = some (front.take size) := if_pos (by omega)
    have joined : (front ++ back).slice? 0 size = some (front.take size) := by
      rw [slice?, if_pos (by rw [List.length_append]; omega), List.drop_zero, List.take_append_of_le_length enough]
    have rest := @ih (start + 1) (front.drop size) (by rw [List.length_drop]; omega)
    rw [← List.drop_append_of_le_length enough, Nat.add_right_comm, Nat.add_assoc] at rest
    rw [Nat.succ_add]
    simp only [overwriteItems, piece, joined, rest, Result.orFaultSome, Result.okBind, bind_assoc, pure_bind,
      List.append_assoc]

end

theorem itemsDivisible (size : Nat) (f : Nat → Result Bytes) :
    Divisible size fun s piece => overwriteItems size f s.start s.length piece := by
  have own : ∀ (start count : Nat) (piece : Bytes), piece.length = count * size →
      replaced (fun s piece => overwriteItems size f s.start s.length piece) ⟨start, start + count⟩ piece =
        overwriteItems size f start count piece := by
    intro start count piece whole
    have length : (⟨start, start + count⟩ : Span).length = count := Nat.add_sub_cancel_left start count
    simp only [replaced, length]
    cases written : overwriteItems size f start count piece with
    | error h => rfl
    | ok out => exact inPlaceOfSame (overwriteItemsLength whole written)
  intro start m n front back _ _ before behind
  have both : (front ++ back).length = (m + n) * size := by rw [List.length_append, before, behind, Nat.add_mul]
  rw [own _ _ _ before, own _ _ _ behind, Nat.add_assoc, own _ _ _ both, overwriteItemsSplit back before]

theorem itemwiseDivisible {unit reach width : Nat} {g : Nat → Bytes}
    (sizes : ∀ i, (i + 1) * unit ≤ reach → (g i).length = width)
    (made : ∀ s piece, f s piece = if (s.start + s.length) * unit ≤ reach then .ok (s.items.flatMap g) else .fault) :
    Divisible size f := by
  have own : ∀ start count piece, 0 < count → piece.length = count * size → replaced f ⟨start, start + count⟩ piece =
      if (start + count) * unit ≤ reach ∧ width = size then .ok ((List.range' start count).flatMap g) else .fault := by
    intro start count piece some whole
    have length : (⟨start, start + count⟩ : Span).length = count := Nat.add_sub_cancel_left start count
    simp only [replaced, made, Span.items, length]
    by_cases inside : (start + count) * unit ≤ reach
    · have joined : ((List.range' start count).flatMap g).length = count * width := joinedLength fun i _ high =>
        sizes i (Nat.le_trans (Nat.mul_le_mul_right unit high) inside)
      simp only [inside, if_true, true_and, Result.okBind, inPlaceOf, joined, whole, Nat.mul_right_inj (Nat.ne_of_gt some)]
    · simp only [inside, if_false, false_and]
      rfl
  intro start m n front back first second before behind
  have together := own start (m + n) (front ++ back) (Nat.add_pos_left first n)
    (by rw [List.length_append, before, behind, Nat.add_mul])
  rw [← Nat.add_assoc] at together
  rw [together, own _ _ _ first before, own _ _ _ second behind]
  by_cases inside : (start + m + n) * unit ≤ reach ∧ width = size
  · have part : (start + m) * unit ≤ reach := Nat.le_trans (Nat.mul_le_mul_right unit (Nat.le_add_right _ n)) inside.1
    rw [if_pos inside, if_pos ⟨part, inside.2⟩, ← List.range'_append_1, List.flatMap_append]
    simp only [Result.okBind, if_pos inside]
    rfl
  · rw [if_neg inside]
    split <;> rfl

end Bytes

namespace Partition
variable {size : Nat} {f : Span → Bytes → Result Bytes}

theorem overwriteTeams (divisible : Bytes.Divisible size f) (work team team' : Nat) (bytes : Bytes) :
    (ofTeam work team).overwrite size f bytes = (ofTeam work team').overwrite size f bytes := by
  have planned : ∀ team, (ofTeam work team).work = work := fun _ => rfl
  simp only [overwrite, planned]
  by_cases room : work * size ≤ bytes.length
  · refine congrArg _ (funext fun _ => ?_)
    by_cases none : work = 0
    · subst none
      rw [tilesNone (ofTeamTiles 0 team), tilesNone (ofTeamTiles 0 team')]
    · have whole := fun team => Bytes.overwriteSpansWhole divisible (ofTeamTiles work team) (Nat.pos_of_ne_zero none)
        (show (work - 0) * size ≤ bytes.length from room)
      exact (whole team).trans (whole team').symm
  · have short : decide (work * size ≤ bytes.length) = false := decide_eq_false room
    rw [short]
    rfl

theorem overwriteEachTeams (work team team' size : Nat) (f : Nat → Result Bytes) (bytes : Bytes) :
    (ofTeam work team).overwriteEach size f bytes = (ofTeam work team').overwriteEach size f bytes :=
  overwriteTeams (Bytes.itemsDivisible size f) work team team' bytes

end Partition
end TensorPlan
