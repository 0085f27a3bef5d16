import TensorPlan.Machine
import TensorPlan.Proofs.Computation
import TensorPlan.Proofs.RowMajor
/-! What machine arithmetic gives: the exact number, as long as each word on the way can hold what is put into it. -/
namespace TensorPlan.Machine
variable {n m : Nat} {ns ms : List Nat}

@[simp] theorem wordOk : word n = .ok m ↔ n < pow2 64 ∧ n = m := by
  unfold word
  split
  · rename_i fits
    exact ⟨fun ok => ⟨fits, Except.ok.inj ok⟩, fun own => congrArg _ own.2⟩
  · rename_i beyond
    exact ⟨fun ok => (nomatch ok), fun own => (beyond own.1).elim⟩

theorem wordFits (fits : n < pow2 64) : word n = .ok n := if_pos fits

theorem wordFault (beyond : pow2 64 ≤ n) : word n = Result.fault := if_neg (Nat.not_lt.mpr beyond)

theorem signedOk {v w : Int} : signed v = .ok w ↔ (-(pow2 63 : Int) ≤ v ∧ v < (pow2 63 : Int)) ∧ v = w := by
  unfold signed
  split
  · rename_i fits
    exact ⟨fun ok => ⟨fits, Except.ok.inj ok⟩, fun own => congrArg _ own.2⟩
  · rename_i beyond
    exact ⟨fun ok => (nomatch ok), fun own => (beyond own.1).elim⟩

theorem wordsOk : Result.forEach word ns = .ok ms ↔ (∀ n ∈ ns, n < pow2 64) ∧ ns = ms := by
  constructor
  · intro ok
    refine ⟨fun n member => ?_, ?_⟩
    · obtain ⟨m, made⟩ := Result.forEachEvery ok n member
      exact (wordOk.mp made).1
    · have own := @Result.forEachInverse _ _ word id ns ms (fun n m made => (wordOk.mp made).2.symm) ok
      rw [← own, List.map_id]
  · rintro ⟨fit, rfl⟩
    have each := @Result.forEachOk _ _ word id ns fun n member => wordFits (fit n member)
    rwa [List.map_id] at each

theorem wordsFault (beyond : ¬ ∀ n ∈ ns, n < pow2 64) : Result.forEach word ns = Result.fault := by
  induction ns with
  | nil => exact (beyond fun _ member => nomatch member).elim
  | cons n ns ih =>
    by_cases fits : n < pow2 64
    · rw [List.forall_mem_cons, not_and] at beyond
      rw [Result.forEach, wordFits fits, Result.okBind, ih (beyond fits)]
      rfl
    · rw [Result.forEach, wordFault (Nat.not_lt.mp fits)]
      rfl

theorem capacityOk {u : Unit} : capacity n = .ok u ↔ n < pow2 63 := by
  unfold capacity
  split
  · rename_i fits
    exact ⟨fun _ => fits, fun _ => rfl⟩
  · rename_i beyond
    exact ⟨fun ok => (nomatch ok), fun fits => (beyond fits).elim⟩

def Counts (ns : List Nat) : Prop := ∀ k, volume (ns.take k) < pow2 64

theorem productFromOk {total : Nat} (fits : total < pow2 64) : productFrom total ns = .ok m ↔
    (∀ k, total * volume (ns.take k) < pow2 64) ∧ total * volume ns = m := by
  induction ns generalizing total with
  | nil => simp [productFrom, fits]
  | cons n ns ih =>
    simp only [productFrom, Result.bindOk, wordOk]
    constructor
    · rintro ⟨_, ⟨next, rfl⟩, rest⟩
      obtain ⟨counts, last⟩ := (ih next).mp rest
      rw [volumeCons, ← Nat.mul_assoc]
      refine ⟨fun k => ?_, last⟩
      cases k with
      | zero => simpa using fits
      | succ k => simpa only [List.take_succ_cons, volumeCons, ← Nat.mul_assoc] using counts k
    · rintro ⟨counts, last⟩
      have next : total * n < pow2 64 := by simpa using counts 1
      refine ⟨_, ⟨next, rfl⟩, (ih next).mpr ⟨fun k => ?_, by rw [← last, volumeCons, Nat.mul_assoc]⟩⟩
      simpa only [List.take_succ_cons, volumeCons, ← Nat.mul_assoc] using counts (k + 1)

theorem productOk : product ns = .ok m ↔ Counts ns ∧ volume ns = m := by
  rw [product, productFromOk (by decide)]
  simp only [Nat.one_mul, Counts]

theorem productFromEither (total : Nat) (ns : List Nat) :
    (∃ n, productFrom total ns = .ok n) ∨ productFrom total ns = Result.fault := by
  induction ns generalizing total with
  | nil => exact .inl ⟨total, rfl⟩
  | cons n ns ih =>
    by_cases fits : total * n < pow2 64
    · rw [productFrom, wordFits fits]
      exact ih (total * n)
    · rw [productFrom, wordFault (Nat.not_lt.mp fits)]
      exact .inr rfl

theorem productFault : product ns = Result.fault ↔ ¬ Counts ns := by
  obtain ⟨n, made⟩ | beyond := productFromEither 1 ns
  · rw [product, made]
    exact ⟨fun failed => (nomatch failed), fun beyond => (beyond (productOk.mp made).1).elim⟩
  · rw [product, beyond]
    refine ⟨fun _ counts => ?_, fun _ => rfl⟩
    rw [show productFrom 1 ns = .ok (volume ns) from productOk.mpr ⟨counts, rfl⟩] at beyond
    cases beyond

theorem Counts.volume (counts : Counts ns) : volume ns < pow2 64 := by
  have whole := counts ns.length
  rwa [List.take_length] at whole

end TensorPlan.Machine
