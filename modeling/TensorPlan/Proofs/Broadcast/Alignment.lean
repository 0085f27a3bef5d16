import Mathlib.Data.List.Nodup
import Mathlib.Data.List.Perm.Subperm
import TensorPlan.Plan.Planning
import TensorPlan.Proofs.Computation
import TensorPlan.Proofs.RowMajor
/-! Aligned dimensions. They have the rank of the output and as many elements as the input, and no axis
of them is empty unless the output is empty along it, so coordinates of the output wrap into them. -/
namespace TensorPlan.Broadcast
open Index (Within)

theorem insertOnesLength (listed positions ds : List Nat) : (insertOnes listed positions ds).length = positions.length := by
  induction positions generalizing ds with
  | nil => rfl
  | cons axis rest ih =>
    unfold insertOnes
    split
    · simp [ih]
    · cases ds <;> simp [ih]

theorem insertOnesVolume (listed positions ds : List Nat)
    (enough : ds.length ≤ (positions.filter fun axis => !listed.contains axis).length) :
    volume (insertOnes listed positions ds) = volume ds := by
  induction positions generalizing ds with
  | nil =>
    have none : ds = [] := by simpa using enough
    rw [none, insertOnes]
  | cons axis rest ih =>
    unfold insertOnes
    split
    · rename_i member
      rw [List.filter_cons_of_neg (by rw [member]; decide)] at enough
      rw [volumeCons, ih ds enough, Nat.one_mul]
    · rename_i other
      rw [List.filter_cons_of_pos (by simpa using other)] at enough
      cases ds with
      | nil => rw [volumeCons, ih [] (Nat.zero_le _), volumeNil, Nat.one_mul]
      | cons d ds => rw [volumeCons, ih ds (by simpa using enough), volumeCons]

theorem unlistedAxes (listed : List Nat) (rank : Nat) :
    rank ≤ ((List.range rank).filter fun axis => !listed.contains axis).length + listed.length := by
  have parts := (List.filter_append_perm (fun axis => !listed.contains axis) (List.range rank)).length_eq
  have distinct : ((List.range rank).filter fun axis => !!listed.contains axis).Nodup :=
    List.nodup_range.filter _
  have within : ((List.range rank).filter fun axis => !!listed.contains axis) ⊆ listed := by
    intro axis member
    simpa using (List.mem_filter.mp member).2
  have bound := (List.Nodup.subperm distinct within).length_le
  rw [List.length_append, List.length_range] at parts
  omega

theorem volumeOnes (count : Nat) : volume (List.replicate count 1) = 1 := by
  induction count with
  | zero => rfl
  | succ count ih => rw [List.replicate_succ, volumeCons, ih]

theorem alignFits {input output axes aligned : List Nat} (found : align? input output axes = some aligned) :
    aligned.length = output.length ∧ volume aligned = volume input := by
  unfold align? at found
  simp only at found
  split at found
  · rename_i same; cases found; exact ⟨same, rfl⟩
  · split at found
    · rename_i listed
      cases found
      have unlisted := unlistedAxes axes output.length
      exact ⟨by rw [insertOnesLength, List.length_range], insertOnesVolume axes _ input (by omega)⟩
    · split at found
      · rename_i shorter
        cases found
        refine ⟨by rw [List.length_append, List.length_replicate]; omega, ?_⟩
        rw [volumeAppend, volumeOnes, Nat.one_mul]
      · split at found
        · rename_i one
          cases found
          exact ⟨List.length_replicate, by rw [volumeOnes, one]⟩
        · cases found

theorem axesFilled {input axes aligned output : List Nat} {axis : Nat}
    (ok : checkAxes input axes axis aligned output = .ok ()) (length : aligned.length = output.length)
    (full : 0 ∉ output) : 0 ∉ aligned := by
  induction aligned generalizing axis output with
  | nil => simp
  | cons source aligned ih =>
    match output, length with
    | target :: output, length =>
      simp only [checkAxes, Result.bindOk] at ok
      obtain ⟨_, first, rest⟩ := ok
      simp only [List.mem_cons, not_or] at full ⊢
      refine ⟨?_, ih rest (by simpa using length) full.2⟩
      intro empty
      subst empty
      unfold checkAxis at first
      split at first
      · simp [Result.ensureOk] at first
      · simp only [if_true, Result.ensureOk, beq_iff_eq] at first
        omega

theorem axesOnes {input axes aligned output : List Nat} {first k : Nat}
    (ok : checkAxes input axes first aligned output = .ok ()) (length : aligned.length = output.length)
    (inside : k < output.length) (listed : first + k ∈ axes) : aligned[k]? = some 1 := by
  induction aligned generalizing first k output with
  | nil => rw [← length] at inside; cases inside
  | cons source aligned ih =>
    match output, length with
    | target :: output, length =>
      simp only [checkAxes, Result.bindOk] at ok
      obtain ⟨_, own, rest⟩ := ok
      cases k with
      | zero =>
        have member : axes.contains first = true := List.contains_iff_mem.mpr listed
        rw [checkAxis, if_pos member, Result.ensureOk, beq_iff_eq] at own
        rw [own]
        rfl
      | succ k =>
        refine ih rest (by simpa using length) (by simpa using inside) ?_
        rwa [Nat.add_assoc, Nat.add_comm 1]

theorem normalizeCases {input output aligned : List Nat} {axes : Option (List Nat)}
    (ok : normalize input output axes = .ok aligned) :
    (∀ axis ∈ axes.getD [], axis < output.length) ∧ align? input output (axes.getD []) = some aligned ∧
      checkAxes input (axes.getD []) 0 aligned output = .ok () := by
  cases outside : (axes.getD []).find? (output.length ≤ ·) with
  | some axis =>
    simp only [normalize, outside, Result.bindOk] at ok
    obtain ⟨_, failed, _⟩ := ok
    exact absurd failed Result.failNotOk
  | none =>
    simp only [normalize, outside, Result.bindOk, Result.ofOptionOk] at ok
    obtain ⟨_, found, _, checked, last⟩ := ok
    cases last
    exact ⟨fun axis member => by simpa using List.find?_eq_none.mp outside axis member, found, checked⟩

theorem normalizeOk {input output aligned : List Nat} {axes : Option (List Nat)}
    (ok : normalize input output axes = .ok aligned) :
    aligned.length = output.length ∧ volume aligned = volume input ∧ (0 ∉ output → 0 ∉ aligned) := by
  obtain ⟨_, found, checked⟩ := normalizeCases ok
  have fits := alignFits found
  exact ⟨fits.1, fits.2, axesFilled checked fits.1⟩

end TensorPlan.Broadcast
