import Mathlib.Data.List.Nodup
import TensorPlan.Nms.Execution
import TensorPlan.Proofs.Computation
import TensorPlan.Proofs.Items
/-! Patches. Items that are written to their places one after the other replace what stood there; the last one at a
place stays. Where all places are written, what stood there before does not matter. -/
namespace TensorPlan

namespace Bytes
variable {g g' : Nat → Bytes} {entries : List (Nat × Bytes)} {size n k : Nat}

theorem takeJoined (sizes : ∀ i < n, (g i).length = size) (inside : k ≤ n) :
    ((List.range n).flatMap g).take (k * size) = (List.range k).flatMap g := by
  have front : ((List.range' 0 k).flatMap g).length = k * size := joinedLength fun i _ high => sizes i (by omega)
  have parts := List.range'_append_1 (s := 0) (m := k) (n := n - k)
  rw [Nat.add_sub_cancel' inside] at parts
  rw [List.range_eq_range', ← parts, List.flatMap_append, List.take_left' front, List.range_eq_range']

def patched (g : Nat → Bytes) : List (Nat × Bytes) → Nat → Bytes
  | [] => g
  | (place, new) :: entries => patched (Function.update g place new) entries

theorem patchedSizes (sizes : ∀ i < n, (g i).length = size) (widths : ∀ e ∈ entries, e.2.length = size) :
    ∀ i < n, (patched g entries i).length = size := by
  induction entries generalizing g with
  | nil => exact sizes
  | cons e entries ih =>
    refine ih (fun i inside => ?_) fun e member => widths e (List.mem_cons_of_mem _ member)
    by_cases own : i = e.1
    · rw [own, Function.update_self]
      exact widths e List.mem_cons_self
    · rw [Function.update_of_ne own]
      exact sizes i inside

theorem patchedAlike {i : Nat} (alike : i ∉ entries.map Prod.fst → g i = g' i) : patched g entries i = patched g' entries i := by
  induction entries generalizing g g' with
  | nil => exact alike List.not_mem_nil
  | cons e entries ih =>
    refine ih fun later => ?_
    by_cases own : i = e.1
    · rw [own, Function.update_self, Function.update_self]
    · rw [Function.update_of_ne own, Function.update_of_ne own]
      exact alike fun member => (List.mem_cons.mp member).elim own later

theorem patchedValue {i : Nat} {new : Bytes} (alike : ∀ e ∈ entries, e.1 = i → e.2 = new)
    (missing : i ∉ entries.map Prod.fst → g i = new) : patched g entries i = new := by
  induction entries generalizing g with
  | nil => exact missing List.not_mem_nil
  | cons e entries ih =>
    refine ih (fun later member => alike later (List.mem_cons_of_mem e member)) fun others => ?_
    by_cases own : i = e.1
    · rw [own, Function.update_self]
      exact alike e List.mem_cons_self own.symm
    · rw [Function.update_of_ne own]
      exact missing fun member => (List.mem_cons.mp member).elim own others

def written (size k : Nat) (entries : List (Nat × Bytes)) : Bytes :=
  (List.range k).flatMap (patched (fun _ => zeros size) entries)

structure Covering (size n k : Nat) (entries : List (Nat × Bytes)) : Prop where
  inside : k ≤ n
  places : ∀ e ∈ entries, e.1 < n
  widths : ∀ e ∈ entries, e.2.length = size
  covered : ∀ i < k, i ∈ entries.map Prod.fst

theorem Covering.ofRange (inside : k ≤ n) (places : entries.map Prod.fst = List.range k)
    (widths : ∀ e ∈ entries, e.2.length = size) : Covering size n k entries where
  inside := inside
  places e member := by
    have place := List.mem_map_of_mem (f := Prod.fst) member
    rw [places, List.mem_range] at place
    omega
  widths := widths
  covered i below := by rw [places]; exact List.mem_range.mpr below

theorem Covering.writtenLength (covering : Covering size n k entries) : (written size k entries).length = k * size :=
  rangeLength (patchedSizes (fun _ _ => zerosLength size) covering.widths)

theorem writtenInOrder (places : entries.map Prod.fst = List.range k) : written size k entries = entries.flatMap Prod.snd := by
  have apart : (entries.map Prod.fst).Nodup := by rw [places]; exact List.nodup_range
  rw [written, ← places, List.flatMap_map]
  refine List.flatMap_congr fun e member => patchedValue (fun other inside same => ?_) fun missing => ?_
  · rw [List.inj_on_of_nodup_map apart inside member same]
  · exact (missing (List.mem_map_of_mem member)).elim

end Bytes

namespace NmsPlan
open Bytes (patched written Covering)
variable {g : Nat → Bytes} {entries : List (Nat × Bytes)} {bytes : Bytes} {size n k : Nat}

theorem writeAllJoined (sizes : ∀ i < n, (g i).length = size) (places : ∀ e ∈ entries, e.1 < n)
    (widths : ∀ e ∈ entries, e.2.length = size) :
    writeAll size entries ((List.range n).flatMap g) = .ok ((List.range n).flatMap (patched g entries)) := by
  induction entries generalizing g with
  | nil => rfl
  | cons e entries ih =>
    obtain ⟨place, new⟩ := e
    have first := Bytes.patchJoined sizes (places _ List.mem_cons_self) (widths _ List.mem_cons_self)
    have updated : (fun i => if i = place then new else g i) = Function.update g place new := by
      funext i
      rw [Function.update_apply]
    have next : ∀ i < n, (Function.update g place new i).length = size :=
      @Bytes.patchedSizes g [(place, new)] size n sizes fun e member => by
        cases List.mem_singleton.mp member
        exact widths _ List.mem_cons_self
    have rest := ih next (fun e member => places e (List.mem_cons_of_mem _ member))
      fun e member => widths e (List.mem_cons_of_mem _ member)
    rw [updated] at first
    simp only [writeAll, first, Result.orFaultSome, Result.okBind, rest, patched]

theorem writeAllOk (room : bytes.length = n * size) (covering : Covering size n k entries) :
    ∃ out, writeAll size entries bytes = .ok out ∧ out.length = bytes.length ∧
      out.take (k * size) = written size k entries := by
  have sizes : ∀ i < n, (Bytes.item size bytes i).length = size := fun i below =>
    Bytes.itemLength (by rw [room]; exact Nat.mul_le_mul_right _ below)
  have same := Bytes.patchedSizes sizes covering.widths
  have all := writeAllJoined sizes covering.places covering.widths
  rw [Bytes.joinedItems room] at all
  refine ⟨_, all, (Bytes.rangeLength same).trans room.symm, ?_⟩
  rw [Bytes.takeJoined same covering.inside]
  exact List.flatMap_congr fun i member =>
    Bytes.patchedAlike fun missing => (missing (covering.covered i (List.mem_range.mp member))).elim

theorem writeAllWhole (room : bytes.length = n * size) (covering : Covering size n n entries) :
    writeAll size entries bytes = .ok (written size n entries) := by
  obtain ⟨out, ok, length, front⟩ := writeAllOk room covering
  rw [← room, ← length, List.take_length] at front
  rw [ok, front]

theorem writeAllAppend (size : Nat) (first second : List (Nat × Bytes)) (bytes : Bytes) :
    writeAll size (first ++ second) bytes = (writeAll size first bytes >>= writeAll size second) := by
  induction first generalizing bytes with
  | nil => rfl
  | cons e first ih =>
    simp only [List.cons_append, writeAll]
    cases bytes.patch? (e.1 * size) e.2 with
    | none => rfl
    | some patched => exact ih patched

end NmsPlan
end TensorPlan
