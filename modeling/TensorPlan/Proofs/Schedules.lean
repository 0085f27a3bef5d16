import TensorPlan.Proofs.Computation
/-! Work under a schedule. The spans of a partition are done by workers of their own, each span in order. All schedules find
the same results, and a failure that one of them reports is how some span fails when it is done alone. -/
namespace TensorPlan

namespace Result
variable {α : Type}

theorem forEachAppend {β : Type} (f : α → Result β) (xs ys : List α) : forEach f (xs ++ ys) = do
    let front ← forEach f xs
    let back ← forEach f ys
    return front ++ back := by
  induction xs with
  | nil =>
    rw [List.nil_append]
    cases forEach f ys <;> rfl
  | cons x xs ih => simp [forEach, ih, bind_assoc]

end Result

variable {α : Type} {f : Nat → Result α} {h : Halt}

namespace Span
variable {span : Span}

theorem failureNone (none : span.failure? f = none) : ∃ ys, Result.forEach f span.items = .ok ys := by
  unfold failure? at none
  generalize span.items = items at none
  obtain ⟨ys, ok, _⟩ := @Result.forEachSome _ _ f items (fun _ _ => True) fun item member => by
    have fine := List.findSome?_eq_none_iff.mp none item member
    cases found : f item with
    | ok y => exact ⟨y, rfl, trivial⟩
    | error h => rw [found] at fine; cases fine
  exact ⟨ys, ok⟩

theorem failureSome : (∃ item, span.failure? f = some (item, h)) ↔ Result.forEach f span.items = .error h := by
  unfold failure?
  generalize span.items = items
  induction items with
  | nil => simp [Result.forEach]
  | cons item items ih =>
    rw [List.findSome?_cons, Result.forEach]
    cases f item with
    | error own => simp
    | ok y =>
      rw [Result.okBind]
      refine ih.trans ?_
      cases Result.forEach f items <;> simp

end Span

namespace Partition
variable {p : Partition} {s : Schedule}

theorem forEachCases (p : Partition) (s : Schedule) (f : Nat → Result α) :
    ((∀ span ∈ p.spans, ∃ ys, Result.forEach f span.items = .ok ys) ∧ p.forEach s f = Result.forEach f p.items) ∨
      ∃ h, p.forEach s f = .error h ∧ ∃ span ∈ p.spans, Result.forEach f span.items = .error h := by
  unfold forEach
  split
  · rename_i none
    exact .inl ⟨fun span member => Span.failureNone (List.filterMap_eq_nil_iff.mp none span member), rfl⟩
  · rename_i first rest failed
    right
    generalize chosen : (first :: rest).getD (s.reported ((first :: rest).map Prod.fst)) first = own
    have member : own ∈ first :: rest := by
      rw [← chosen, List.getD_eq_getElem?_getD]
      cases found : (first :: rest)[s.reported ((first :: rest).map Prod.fst)]? with
      | none => exact List.mem_cons_self
      | some own => exact List.mem_of_getElem? found
    rw [← failed] at member
    obtain ⟨span, inside, fails⟩ := List.mem_filterMap.mp member
    exact ⟨own.2, rfl, span, inside, Span.failureSome.mp ⟨own.1, fails⟩⟩

theorem itemsFine (each : ∀ span ∈ p.spans, ∃ ys, Result.forEach f span.items = .ok ys) :
    ∃ ys, Result.forEach f p.items = .ok ys := by
  unfold items
  generalize p.spans = spans at each
  induction spans with
  | nil => exact ⟨[], rfl⟩
  | cons span spans ih =>
    obtain ⟨⟨front, first⟩, later⟩ := List.forall_mem_cons.mp each
    obtain ⟨back, rest⟩ := ih later
    exact ⟨front ++ back, by rw [List.flatMap_cons, Result.forEachAppend, first, rest]; rfl⟩

theorem forEachFine (s : Schedule) {ys : List α} (ok : Result.forEach f p.items = .ok ys) : p.forEach s f = .ok ys := by
  obtain ⟨_, same⟩ | ⟨h, _, span, member, failed⟩ := forEachCases p s f
  · exact same.trans ok
  · have every : ∀ item ∈ span.items, ∃ y, f item = .ok y := fun item inside =>
      Result.forEachEvery ok item (List.mem_flatMap.mpr ⟨span, member, inside⟩)
    obtain ⟨_, fine, _⟩ := @Result.forEachSome _ _ f span.items (fun _ _ => True) fun item inside =>
      (every item inside).imp fun y made => ⟨made, trivial⟩
    rw [failed] at fine
    cases fine

theorem forEachFails (failed : p.forEach s f = .error h) : ∃ span ∈ p.spans, Result.forEach f span.items = .error h := by
  obtain ⟨each, same⟩ | ⟨own, found, fails⟩ := forEachCases p s f
  · obtain ⟨ys, fine⟩ := itemsFine each
    rw [same, fine] at failed
    cases failed
  · cases failed.symm.trans found
    exact fails

theorem forEachSource (failed : p.forEach s f = .error h) : ∃ item ∈ p.items, f item = .error h := by
  obtain ⟨span, member, fails⟩ := forEachFails failed
  obtain ⟨item, low, high, own, _⟩ := Result.forEachError.mp fails
  exact ⟨item, List.mem_flatMap.mpr ⟨span, member, List.mem_range'_1.mpr ⟨low, high⟩⟩, own⟩

theorem forEachFailed (s : Schedule) (failed : Result.forEach f p.items = .error h) :
    ∃ own, p.forEach s f = .error own := by
  obtain ⟨_, same⟩ | ⟨own, found, _⟩ := forEachCases p s f
  · exact ⟨h, same.trans failed⟩
  · exact ⟨own, found⟩

theorem forEachReports : (∃ s, p.forEach s f = .error h) ↔ ∃ span ∈ p.spans, Result.forEach f span.items = .error h := by
  constructor
  · rintro ⟨s, failed⟩
    exact forEachFails failed
  · rintro ⟨span, member, failed⟩
    obtain ⟨item, first⟩ := Span.failureSome.mpr failed
    obtain ⟨place, found⟩ := List.mem_iff_getElem?.mp (List.mem_filterMap.mpr ⟨span, member, first⟩)
    refine ⟨⟨fun _ => place⟩, ?_⟩
    unfold forEach
    split
    · rename_i none
      rw [none] at found
      cases found
    · rename_i failures
      rw [failures] at found
      rw [List.getD_eq_getElem?_getD, found]
      rfl

theorem forEachInOrder (p : Partition) (f : Nat → Result α) : p.forEach .inOrder f = Result.forEach f p.items := by
  unfold forEach items
  induction p.spans with
  | nil => rfl
  | cons span spans ih =>
    rw [List.flatMap_cons, Result.forEachAppend, List.filterMap_cons]
    cases first : span.failure? f with
    | some failure =>
      rw [Span.failureSome.mp ⟨failure.1, first⟩]
      rfl
    | none =>
      obtain ⟨ys, fine⟩ := Span.failureNone first
      rw [fine, Result.okBind, ← ih]
      cases spans.filterMap (Span.failure? f) <;> rfl

end Partition
end TensorPlan
