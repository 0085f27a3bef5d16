import TensorPlan.Pad.Elements
import TensorPlan.Pad.Rows
import TensorPlan.Proofs.Positions
/-! Axes of a padding. Along one axis the source index of an output index is the same for coordinates
and for physical axes, and it lies inside the source where the borders can be filled. Over all axes the
start of a row is the position of the source indices. -/
namespace TensorPlan
open Index (Within)

namespace PadMode

def sourceIndex (mode : PadMode) (i before length : Nat) : Option Nat :=
  if before ≤ i ∧ i < before + length then some (i - before)
  else
    match mode with
    | constant => none
    | edge => some (if i < before then 0 else length - 1)
    | reflect => some (if i < before then before - i else 2 * length + before - 2 - i)
    | symmetric => some (if i < before then before - i - 1 else 2 * length + before - 1 - i)

def Fills (mode : PadMode) (length before after : Nat) : Prop :=
  ∀ limit, PadRequest.limit? mode length = some limit → before ≤ limit ∧ after ≤ limit

variable {mode : PadMode} {length before after i : Nat}

theorem reflectFills (positive : 0 < length) (fills : reflect.Fills length before after) :
    before < length ∧ after < length := by
  have limits := fills (length - 1) (by cases length <;> simp_all [PadRequest.limit?])
  omega

theorem symmetricFills (positive : 0 < length) (fills : symmetric.Fills length before after) :
    before ≤ length ∧ after ≤ length :=
  fills length (by cases length <;> simp_all [PadRequest.limit?])

theorem unpaddedFills (mode : PadMode) (length : Nat) : mode.Fills length 0 0 := fun _ _ => ⟨Nat.zero_le _, Nat.zero_le _⟩

theorem constantFills (length before after : Nat) : constant.Fills length before after := fun _ limited => by
  cases length <;> simp [PadRequest.limit?] at limited

theorem sourceIndexBelow (positive : 0 < length) (fills : mode.Fills length before after)
    (inside : i < length + before + after) {j : Nat} (found : mode.sourceIndex i before length = some j) :
    j < length := by
  unfold sourceIndex at found
  split at found
  · cases found; omega
  · cases mode with
    | constant => cases found
    | edge => cases found; split <;> omega
    | reflect =>
      have bounds := reflectFills positive fills
      cases found; split <;> omega
    | symmetric =>
      have bounds := symmetricFills positive fills
      cases found; split <;> omega

theorem sourceIndexUnpadded (mode : PadMode) {i length : Nat} (inside : i < length) :
    mode.sourceIndex i 0 length = some i := by
  unfold sourceIndex
  rw [if_pos ⟨Nat.zero_le i, by omega⟩, Nat.sub_zero]

theorem sourceCoordinateEq (positive : 0 < length) (fills : mode.Fills length before after)
    (inside : i < length + before + after) :
    PadRequest.sourceCoordinate mode i before length = (mode.sourceIndex i before length).map Int.ofNat := by
  unfold PadRequest.sourceCoordinate sourceIndex
  by_cases middle : before ≤ i ∧ i < before + length
  · have signed : (0 : Int) ≤ i - before ∧ (i - before : Int) < length := by omega
    simp only [middle, signed, and_self, if_true, Option.map_some, Option.some.injEq]
    have cast : ((i - before : Nat) : Int) = i - before := by omega
    exact cast.symm
  · have signed : ¬ ((0 : Int) ≤ i - before ∧ (i - before : Int) < length) := by omega
    have front : (i - before : Int) < 0 ↔ i < before := by omega
    simp only [middle, signed, if_false, front]
    cases mode with
    | constant => rfl
    | edge =>
      simp only [Option.map_some, Option.some.injEq, Int.ofNat_eq_natCast]
      split <;> omega
    | reflect =>
      have bounds := reflectFills positive fills
      simp only [Option.map_some, Option.some.injEq, Int.ofNat_eq_natCast]
      split <;> omega
    | symmetric =>
      have bounds := symmetricFills positive fills
      simp only [Option.map_some, Option.some.injEq, Int.ofNat_eq_natCast]
      split <;> omega

def sourceIndices (mode : PadMode) : List Nat → List Nat → List Nat → Option (List Nat)
  | i :: index, b :: bs, d :: ds => do
    let j ← mode.sourceIndex i b d
    let rest ← mode.sourceIndices index bs ds
    some (j :: rest)
  | _, _, _ => some []

inductive FillsAll (mode : PadMode) : List Nat → List Nat → List Nat → Prop where
  | nil : FillsAll mode [] [] []
  | cons {d b e : Nat} {ds bs es : List Nat} (fills : mode.Fills d b e) (rest : FillsAll mode ds bs es) :
      FillsAll mode (d :: ds) (b :: bs) (e :: es)

section
variable {ds bs es index : List Nat}

theorem fillsLength (fills : FillsAll mode ds bs es) : bs.length = ds.length ∧ es.length = ds.length := by
  induction fills with
  | nil => exact ⟨rfl, rfl⟩
  | cons _ _ ih => simp [ih.1, ih.2]

theorem sourceIndicesWithin (fills : FillsAll mode ds bs es) (full : 0 ∉ ds)
    (inside : Within index (PadRequest.padded ds bs es)) {js : List Nat}
    (found : mode.sourceIndices index bs ds = some js) : Within js ds := by
  induction fills generalizing index js with
  | nil => cases inside; cases found; exact .nil
  | cons fills _ ih =>
    simp only [List.mem_cons, not_or] at full
    cases inside with
    | cons below rest =>
      simp only [sourceIndices, Option.bind_eq_bind, Option.bind_eq_some_iff] at found
      obtain ⟨j, first, tail, others, last⟩ := found
      cases last
      exact .cons (sourceIndexBelow (by omega) fills below first) (ih full.2 rest others)

theorem sourceCoordinatesEq (fills : FillsAll mode ds bs es) (full : 0 ∉ ds)
    (inside : Within index (PadRequest.padded ds bs es)) :
    PadRequest.sourceCoordinates mode index bs ds = (mode.sourceIndices index bs ds).map (·.map Int.ofNat) := by
  induction fills generalizing index with
  | nil => cases inside; rfl
  | @cons d b e ds bs es fills _ ih =>
    simp only [List.mem_cons, not_or] at full
    cases inside with
    | @cons i _ index _ below rest =>
      have first := sourceCoordinateEq (by omega) fills below
      simp only [PadRequest.sourceCoordinates, sourceIndices, first, ih full.2 rest]
      cases mode.sourceIndex i b d with
      | none => rfl
      | some j => cases mode.sourceIndices index bs ds <;> rfl

theorem sourceIndicesAppend {index' bs' ds' : List Nat} (before : bs.length = ds.length)
    (same : index.length = ds.length) :
    mode.sourceIndices (index ++ index') (bs ++ bs') (ds ++ ds') = (mode.sourceIndices index bs ds).bind fun js =>
      (mode.sourceIndices index' bs' ds').map fun js' => js ++ js' := by
  induction ds generalizing bs index with
  | nil =>
    cases List.length_eq_zero_iff.mp before
    cases List.length_eq_zero_iff.mp same
    simp [sourceIndices]
  | cons d ds ih =>
    match bs, index, before, same with
    | b :: bs, i :: index, before, same =>
      have rest := @ih bs index (by simpa using before) (by simpa using same)
      simp only [List.cons_append, sourceIndices, rest]
      cases mode.sourceIndex i b d with
      | none => rfl
      | some j =>
        cases mode.sourceIndices index bs ds with
        | none => rfl
        | some js => cases mode.sourceIndices index' bs' ds' <;> rfl

end
end PadMode
end TensorPlan
