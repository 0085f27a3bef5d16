import Mathlib.Data.List.Perm.Basic
import Mathlib.Order.Bounds.Basic
import TensorPlan.Proofs.Shape.Refinement
/-! Joins of shapes. Shapes are ordered by what is known of them, and merging finds the least shape above two others, or
none if nothing is above both. So merging any number of shapes is the same in every order. -/
namespace TensorPlan

theorem Dimension.refinesAntisymm {d e : Dimension} (first : d.Refines e) (second : e.Refines d) : d = e := by
  cases first with
  | unknown => cases second; rfl
  | known => rfl

namespace Shape
variable {s t u m : Shape}

theorem dimensionsAntisymm {ds es : List Dimension} (first : List.Forall₂ Dimension.Refines ds es)
    (second : List.Forall₂ Dimension.Refines es ds) : ds = es := by
  induction first with
  | nil => rfl
  | cons own _ ih =>
    cases second with
    | cons own' rest => rw [Dimension.refinesAntisymm own own', ih rest]

theorem refinesAntisymm (first : s.Refines t) (second : t.Refines s) : s = t := by
  cases first with
  | unranked => cases second; rfl
  | ranked each =>
    cases second with
    | ranked each' => rw [dimensionsAntisymm each each']

instance : PartialOrder Shape where
  le s t := t.Refines s
  le_refl := refinesSelf
  le_trans _ _ _ first second := second.trans first
  le_antisymm _ _ first second := refinesAntisymm second first

theorem aboveBoth : u ∈ upperBounds {s, t} ↔ u.Refines s ∧ u.Refines t := by
  simp only [mem_upperBounds, Set.mem_insert_iff, Set.mem_singleton_iff, forall_eq_or_imp, forall_eq]
  rfl

theorem mergeLeast : s.merge t = some m ↔ IsLUB {s, t} m := by
  constructor
  · intro merged
    refine ⟨aboveBoth.mpr (mergeRefines merged), fun u above => ?_⟩
    obtain ⟨left, right⟩ := aboveBoth.mp above
    obtain ⟨m', merged', common⟩ := mergeCommon left right
    cases merged.symm.trans merged'
    exact common
  · intro least
    obtain ⟨left, right⟩ := aboveBoth.mp least.1
    obtain ⟨m', merged, common⟩ := mergeCommon left right
    have below : m ≤ m' := least.2 (aboveBoth.mpr (mergeRefines merged))
    rw [merged, refinesAntisymm common below]

theorem mergeBounded : (s.merge t).isSome = true ↔ BddAbove {s, t} := by
  constructor
  · intro merged
    obtain ⟨m, found⟩ := Option.isSome_iff_exists.mp merged
    exact ⟨m, (mergeLeast.mp found).1⟩
  · rintro ⟨u, above⟩
    obtain ⟨left, right⟩ := aboveBoth.mp above
    obtain ⟨m, found, _⟩ := mergeCommon left right
    exact Option.isSome_iff_exists.mpr ⟨m, found⟩

theorem mergeSelf (s : Shape) : s.merge s = some s := by
  rw [mergeLeast, Set.pair_eq_singleton]
  exact isLUB_singleton

theorem aboveMerged (merged : s.merge t = some m) (rest : List Shape) :
    upperBounds {u | u ∈ m :: rest} = upperBounds {u | u ∈ s :: t :: rest} := by
  ext v
  have both : m ≤ v ↔ s ≤ v ∧ t ≤ v := by
    rw [isLUB_le_iff (mergeLeast.mp merged)]
    exact aboveBoth
  simp only [mem_upperBounds, Set.mem_ofPred_eq, List.forall_mem_cons, both, and_assoc]

theorem mergeAllLeast {ss : List Shape} : ss.foldlM merge s = some m ↔ IsLUB {u | u ∈ s :: ss} m := by
  induction ss generalizing s with
  | nil =>
    have alone : {u | u ∈ [s]} = {s} := Set.ext fun u => List.mem_singleton
    rw [alone]
    exact ⟨fun same => by cases same; exact isLUB_singleton, fun least => congrArg some (isLUB_singleton.unique least)⟩
  | cons t ss ih =>
    rw [List.foldlM_cons, Option.bind_eq_bind, Option.bind_eq_some_iff]
    constructor
    · rintro ⟨n, merged, rest⟩
      rwa [ih, IsLUB, aboveMerged merged] at rest
    · intro least
      have bounded : BddAbove {s, t} := ⟨m, aboveBoth.mpr ⟨least.1 List.mem_cons_self, least.1 (by simp)⟩⟩
      obtain ⟨n, merged⟩ := Option.isSome_iff_exists.mp (mergeBounded.mpr bounded)
      refine ⟨n, merged, ?_⟩
      rwa [ih, IsLUB, aboveMerged merged]

theorem mergeAllPerm {ss ts : List Shape} (same : (s :: ss).Perm (t :: ts)) : ss.foldlM merge s = ts.foldlM merge t := by
  refine Option.ext fun m => ?_
  have members : {u | u ∈ s :: ss} = {u | u ∈ t :: ts} := Set.ext fun u => same.mem_iff
  rw [mergeAllLeast, mergeAllLeast, members]

theorem mergeComm (s t : Shape) : s.merge t = t.merge s :=
  Option.ext fun m => by rw [mergeLeast, mergeLeast, Set.pair_comm]

theorem mergeAssoc (s t u : Shape) : ((s.merge t).bind fun m => m.merge u) = (t.merge u).bind fun m => s.merge m := by
  have turned : [s, t, u].Perm [t, u, s] := @List.perm_append_comm _ [s] [t, u]
  have merged := mergeAllPerm turned
  simp only [List.foldlM_cons, List.foldlM_nil, bind_pure, Option.bind_eq_bind] at merged
  rw [merged]
  exact Option.bind_congr fun m _ => mergeComm m s

theorem collectSome {α β : Type} {f : α → Option β} (xs : List α) :
    (collect f xs).isSome = xs.all fun x => (f x).isSome := by
  induction xs with
  | nil => rfl
  | cons x xs ih => cases own : f x <;> cases rest : collect f xs <;> simp_all [collect]

theorem compatibleMerges (s t : Shape) : (s.merge t).isSome = s.compatible t := by
  cases t with
  | unranked => cases s <;> rfl
  | ranked bs =>
    cases s with
    | unranked => rfl
    | ranked as =>
      have each : ∀ p : Dimension × Dimension, (Dimension.merge p.1 p.2).isSome = p.1.compatible p.2 := by
        rintro ⟨a, b⟩
        cases a with
        | unknown => rfl
        | known n =>
          cases b with
          | unknown => rfl
          | known n' => by_cases same : n = n' <;> simp [Dimension.merge, Dimension.compatible, same]
      by_cases length : as.length = bs.length
      · simp [merge, compatible, length, collectSome, each]
      · simp [merge, compatible, length]

theorem mergeIntoRuns (s t : Shape) : (mergeInto t).run s = (s.compatible t, (s.merge t).getD s) := by
  rw [← compatibleMerges]
  cases merged : s.merge t <;> simp only [mergeInto, merged, StateT.run_bind, StateT.run_get, pure_bind] <;> rfl

theorem knownLengths {ds : List Dimension} (known : ds.all Dimension.isKnown = true) :
    ∃ dims : List Nat, ds = dims.map .known := by
  induction ds with
  | nil => exact ⟨[], rfl⟩
  | cons d ds ih =>
    rw [List.all_cons, Bool.and_eq_true] at known
    obtain ⟨dims, rest⟩ := ih known.2
    cases d with
    | unknown => exact absurd known.1 (by decide)
    | known n => exact ⟨n :: dims, by rw [rest]; rfl⟩

theorem staticShape (static : s.isStatic = true) : ∃ dims, s = ofDims dims := by
  cases s with
  | unranked => cases static
  | ranked ds =>
    obtain ⟨dims, known⟩ := knownLengths static
    exact ⟨dims, congrArg ranked known⟩

theorem ofDimsStatic (dims : List Nat) : (ofDims dims).isStatic = true := by
  simp [ofDims, isStatic, Dimension.isKnown, Dimension.length?]

theorem staticAbove (s : Shape) : ∃ dims, (ofDims dims).Refines s := by
  cases s with
  | unranked => exact ⟨[], .unranked _⟩
  | ranked ds =>
    refine ⟨ds.map fun d => d.length?.getD 0, .ranked ?_⟩
    induction ds with
    | nil => exact .nil
    | cons d ds ih =>
      refine .cons ?_ ih
      cases d with
      | unknown => exact .unknown _
      | known n => exact .known n

theorem compatibleStatic (static : t.isStatic = true) : s.compatible t = true ↔ t.Refines s := by
  obtain ⟨dims, rfl⟩ := staticShape static
  exact compatibleRefines

/-- Merging two shapes joins them: in place, in any order, with all that agrees with both, and it fails where nothing does. -/
theorem mergesJoin (a b : Shape) :
    (∃ stands, (mergeInto b).run a = (a.compatible b, stands) ∧ (a.compatible b = false → stands = a) ∧
      (a.compatible b = true → a.merge b = some stands)) ∧
    (a.compatible b = true ↔ ∃ s, s.isStatic = true ∧ a.compatible s = true ∧ b.compatible s = true) ∧
    a.merge a = some a ∧ a.merge b = b.merge a ∧
    (∀ c, ((a.merge b).bind fun m => m.merge c) = (b.merge c).bind fun m => a.merge m) ∧
    (∀ m s, a.merge b = some m → s.isStatic = true →
      (m.compatible s = true ↔ a.compatible s = true ∧ b.compatible s = true)) ∧
    ∀ as bs, (a :: as).Perm (b :: bs) → as.foldlM merge a = bs.foldlM merge b := by
  have merges := compatibleMerges a b
  refine ⟨⟨(a.merge b).getD a, mergeIntoRuns a b, fun conflict => ?_, fun agree => ?_⟩, ?_, mergeSelf a, mergeComm a b,
    mergeAssoc a b, fun m s merged static => ?_, fun as bs same => mergeAllPerm same⟩
  · rw [conflict, Option.isSome_eq_false_iff, Option.isNone_iff_eq_none] at merges
    rw [merges, Option.getD_none]
  · obtain ⟨m, merged⟩ := Option.isSome_iff_exists.mp (merges.trans agree)
    rw [merged, Option.getD_some]
  · rw [← merges, mergeBounded]
    constructor
    · rintro ⟨u, above⟩
      obtain ⟨dims, finer⟩ := staticAbove u
      obtain ⟨left, right⟩ := aboveBoth.mp above
      exact ⟨_, ofDimsStatic dims, compatibleRefines.mpr (finer.trans left), compatibleRefines.mpr (finer.trans right)⟩
    · rintro ⟨s, static, left, right⟩
      rw [compatibleStatic static] at left right
      exact ⟨s, aboveBoth.mpr ⟨left, right⟩⟩
  · rw [compatibleStatic static, compatibleStatic static, compatibleStatic static, ← aboveBoth]
    exact isLUB_le_iff (mergeLeast.mp merged)

theorem mergesJoinOfHalves :
    let height : Shape := .ranked [.known 2, .unknown]
    let width : Shape := .ranked [.unknown, .known 3]
    height.merge width = some (ofDims [2, 3]) ∧
      ((ofDims [2, 3]).compatible (ofDims [2, 4]) = true ↔
        height.compatible (ofDims [2, 4]) = true ∧ width.compatible (ofDims [2, 4]) = true) ∧
      [width, .unranked].foldlM merge height = [height, width].foldlM merge .unranked ∧
      (mergeInto (ofDims [2, 4])).run width = (false, width) := by
  intro height width
  obtain ⟨_, _, _, _, _, exactly, _⟩ := mergesJoin height width
  obtain ⟨_, _, _, _, _, _, orders⟩ := mergesJoin height .unranked
  obtain ⟨⟨stands, run, untouched, _⟩, _⟩ := mergesJoin width (ofDims [2, 4])
  have merged : height.merge width = some (ofDims [2, 3]) := by decide
  have conflict : width.compatible (ofDims [2, 4]) = false := by decide
  refine ⟨merged, exactly _ _ merged (by decide), orders _ _ (by decide), ?_⟩
  rw [run, conflict, untouched conflict]

end Shape
end TensorPlan
