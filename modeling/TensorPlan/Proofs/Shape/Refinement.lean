import Mathlib.Data.List.Forall2
import TensorPlan.Shape.Basic
/-! Refinement of shapes. A shape refines another one if it knows all that the other knows. Merging finds what two
shapes know together: the merged shape refines both, and whatever refines both refines it. -/
namespace TensorPlan

inductive Dimension.Refines : Dimension → Dimension → Prop where
  | unknown (d : Dimension) : Refines d .unknown
  | known (n : Nat) : Refines (.known n) (.known n)

inductive Shape.Refines : Shape → Shape → Prop where
  | unranked (s : Shape) : Refines s .unranked
  | ranked {ds es : List Dimension} (each : List.Forall₂ Dimension.Refines ds es) : Refines (.ranked ds) (.ranked es)

section
variable {α β : Type} {related : α → β → Prop} {xs : List α} {ys : List β} (each : List.Forall₂ related xs ys)
include each

theorem relatedAt (i : Nat) : Option.Rel related xs[i]? ys[i]? := by
  induction each generalizing i with
  | nil => exact .none
  | cons own _ ih =>
    cases i with
    | zero => exact .some own
    | succ i => exact ih i

theorem pairAt {i : Nat} {y : β} (there : ys[i]? = some y) : ∃ x, xs[i]? = some x ∧ related x y := by
  have own := relatedAt each i
  rw [there] at own
  cases found : xs[i]? with
  | none => rw [found] at own; cases own
  | some x => rw [found] at own; cases own with | some own => exact ⟨x, rfl, own⟩

end

namespace Dimension
variable {a b c d m : Dimension}

theorem refinesSelf (d : Dimension) : d.Refines d := by
  cases d with
  | known n => exact .known n
  | unknown => exact .unknown _

theorem refinesOf {d e : Dimension} (same : ∀ n, e = .known n → d = .known n) : d.Refines e := by
  cases e with
  | known n => rw [same n rfl]; exact .known n
  | unknown => exact .unknown d

theorem lengthKnown {d : Dimension} {n : Nat} : d.length? = some n ↔ d = .known n := by cases d <;> simp [length?]

theorem Refines.trans (first : c.Refines b) (second : b.Refines a) : c.Refines a := by
  cases second with
  | unknown => exact .unknown _
  | known n => exact first

theorem mergeRefines (ok : a.merge b = some m) : m.Refines a ∧ m.Refines b := by
  cases a with
  | unknown => cases ok; exact ⟨.unknown _, refinesSelf _⟩
  | known n =>
    cases b with
    | unknown => cases ok; exact ⟨refinesSelf _, .unknown _⟩
    | known n' =>
      simp only [merge] at ok
      split at ok
      · rename_i same; cases ok; rw [← same]; exact ⟨.known n, .known n⟩
      · cases ok

theorem mergeCommon (left : d.Refines a) (right : d.Refines b) : ∃ m, a.merge b = some m ∧ d.Refines m := by
  cases left with
  | unknown => exact ⟨b, rfl, right⟩
  | known n =>
    cases right with
    | unknown => exact ⟨_, rfl, .known n⟩
    | known => exact ⟨.known n, by simp [merge], .known n⟩

theorem compatibleRefines {n : Nat} : d.compatible (.known n) = true ↔ (known n).Refines d := by
  cases d with
  | unknown => exact ⟨fun _ => .unknown _, fun _ => rfl⟩
  | known n' =>
    constructor
    · intro same
      rw [of_decide_eq_true same]
      exact .known n
    · intro refines
      cases refines
      exact decide_eq_true rfl

end Dimension

namespace Shape
variable {s t u m : Shape} {axis n : Nat}

theorem dimensionsTrans {cs bs as : List Dimension} (first : List.Forall₂ Dimension.Refines cs bs)
    (second : List.Forall₂ Dimension.Refines bs as) : List.Forall₂ Dimension.Refines cs as := by
  induction first generalizing as with
  | nil => exact second
  | cons own _ ih =>
    cases second with
    | cons next rest => exact .cons (own.trans next) (ih rest)

theorem Refines.trans (first : u.Refines t) (second : t.Refines s) : u.Refines s := by
  cases second with
  | unranked => exact .unranked _
  | ranked each =>
    cases first with
    | ranked each' => exact .ranked (dimensionsTrans each' each)

theorem refineUnknown (ds : List Dimension) : List.Forall₂ Dimension.Refines ds (List.replicate ds.length .unknown) := by
  induction ds with
  | nil => exact .nil
  | cons d ds ih => exact .cons (.unknown d) ih

theorem refinesSelf (s : Shape) : s.Refines s := by
  cases s with
  | unranked => exact .unranked _
  | ranked ds => exact .ranked (List.forall₂_same.mpr fun d _ => d.refinesSelf)

theorem collectMerged {as bs ms : List Dimension} (length : as.length = bs.length)
    (ok : collect (fun p => Dimension.merge p.1 p.2) (as.zip bs) = some ms) :
    List.Forall₂ Dimension.Refines ms as ∧ List.Forall₂ Dimension.Refines ms bs := by
  induction as generalizing bs ms with
  | nil =>
    cases List.length_eq_zero_iff.mp length.symm
    cases ok
    exact ⟨.nil, .nil⟩
  | cons a as ih =>
    match bs, length with
    | b :: bs, length =>
      simp only [List.zip_cons_cons, collect, Option.bind_eq_bind, Option.bind_eq_some_iff] at ok
      obtain ⟨m, first, ms, rest, last⟩ := ok
      cases last
      obtain ⟨left, right⟩ := Dimension.mergeRefines first
      obtain ⟨lefts, rights⟩ := ih (by simpa using length) rest
      exact ⟨.cons left lefts, .cons right rights⟩

theorem collectCommon {ds as bs : List Dimension} (left : List.Forall₂ Dimension.Refines ds as)
    (right : List.Forall₂ Dimension.Refines ds bs) :
    ∃ ms, collect (fun p => Dimension.merge p.1 p.2) (as.zip bs) = some ms ∧ List.Forall₂ Dimension.Refines ds ms := by
  induction left generalizing bs with
  | nil => cases right; exact ⟨[], rfl, .nil⟩
  | cons own _ ih =>
    cases right with
    | cons own' right =>
      obtain ⟨m, first, common⟩ := Dimension.mergeCommon own own'
      obtain ⟨ms, rest, commons⟩ := ih right
      exact ⟨m :: ms, by simp [collect, first, rest], .cons common commons⟩

theorem mergeRefines (ok : s.merge t = some m) : m.Refines s ∧ m.Refines t := by
  cases t with
  | unranked => cases s <;> cases ok <;> exact ⟨refinesSelf _, .unranked _⟩
  | ranked bs =>
    cases s with
    | unranked => cases ok; exact ⟨.unranked _, refinesSelf _⟩
    | ranked as =>
      simp only [merge] at ok
      split at ok
      · rename_i length
        obtain ⟨ms, merged, last⟩ := Option.map_eq_some_iff.mp ok
        cases last
        obtain ⟨left, right⟩ := collectMerged length merged
        exact ⟨.ranked left, .ranked right⟩
      · cases ok

theorem mergeCommon (left : u.Refines s) (right : u.Refines t) : ∃ m, s.merge t = some m ∧ u.Refines m := by
  cases right with
  | unranked => exact ⟨s, by cases s <;> rfl, left⟩
  | ranked rights =>
    cases left with
    | unranked => exact ⟨_, rfl, .ranked rights⟩
    | ranked lefts =>
      obtain ⟨ms, merged, commons⟩ := collectCommon lefts rights
      have length := lefts.length_eq.symm.trans rights.length_eq
      exact ⟨.ranked ms, by simp [merge, length, merged], .ranked commons⟩

theorem compatibleRefines {dims : List Nat} : s.compatible (ofDims dims) = true ↔ (ofDims dims).Refines s := by
  cases s with
  | unranked => exact ⟨fun _ => .unranked _, fun _ => rfl⟩
  | ranked ds =>
    simp only [compatible, ofDims, Bool.and_eq_true, beq_iff_eq, List.all_eq_true]
    constructor
    · rintro ⟨length, each⟩
      refine .ranked (List.Forall₂.flip (List.forall₂_iff_zip.mpr ⟨length, fun {d e} member => ?_⟩))
      obtain ⟨n, _, rfl⟩ := List.mem_map.mp (List.of_mem_zip member).2
      exact Dimension.compatibleRefines.mp (each _ member)
    · intro refines
      cases refines with
      | ranked each =>
        obtain ⟨length, pairs⟩ := List.forall₂_iff_zip.mp each.flip
        refine ⟨length, fun p member => ?_⟩
        obtain ⟨n, _, same⟩ := List.mem_map.mp (List.of_mem_zip (show (p.1, p.2) ∈ _ from member)).2
        have own : p.2.Refines p.1 := pairs member
        rw [← same] at own ⊢
        exact Dimension.compatibleRefines.mpr own

section
variable (finer : t.Refines s)
include finer

theorem Refines.rank (known : s.rank? = some n) : t.rank? = some n := by
  cases finer with
  | unranked => cases known
  | ranked each => rw [← known]; exact congrArg some each.length_eq

theorem Refines.rankAll {fits : Nat → Bool} (all : t.rank?.all fits = true) : s.rank?.all fits = true := by
  cases known : s.rank? with
  | none => rfl
  | some rank => rwa [finer.rank known] at all

theorem Refines.hasRank (fits : t.hasRank n = true) : s.hasRank n = true := finer.rankAll fits

theorem Refines.dim (axis : Nat) : (t.dim axis).Refines (s.dim axis) := by
  cases finer with
  | unranked => exact .unknown _
  | ranked each =>
    simp only [Shape.dim, Shape.dim?, Shape.dims?, Option.bind_some]
    induction each generalizing axis with
    | nil => exact .unknown _
    | cons own _ ih =>
      cases axis with
      | zero => exact own
      | succ axis => simpa using ih axis

theorem Refines.knownDim (known : s.dim? axis = some (.known n)) : t.dim? axis = some (.known n) := by
  have own : (t.dim axis).Refines (.known n) := by
    have same : s.dim axis = .known n := by rw [Shape.dim, known]; rfl
    rw [← same]
    exact finer.dim axis
  cases there : t.dim? axis with
  | none => rw [Shape.dim, there] at own; cases own
  | some d => rw [Shape.dim, there] at own; cases own; rfl

theorem Refines.setOwn {d : Dimension} (own : d.Refines (s.dim axis)) : (t.setDim axis d).Refines s := by
  cases finer with
  | unranked => exact .unranked _
  | ranked each =>
    refine .ranked ?_
    simp only [Shape.dim, Shape.dim?, Shape.dims?, Option.bind_some] at own
    induction each generalizing axis with
    | nil => exact .nil
    | cons first rest ih =>
      cases axis with
      | zero => exact .cons own rest
      | succ axis => exact .cons first (ih own)

theorem Refines.setDim {d e : Dimension} (own : d.Refines e) : (t.setDim axis d).Refines (s.setDim axis e) := by
  cases finer with
  | unranked => exact .unranked _
  | ranked each =>
    refine .ranked ?_
    induction each generalizing axis with
    | nil => exact .nil
    | cons first rest ih =>
      cases axis with
      | zero => exact .cons own rest
      | succ axis => exact .cons first ih

theorem Refines.withRank {t' : Shape} (ok : t.withRank? n = some t') :
    ∃ s', s.withRank? n = some s' ∧ List.Forall₂ Dimension.Refines (t'.dims?.getD []) (s'.dims?.getD []) := by
  cases finer with
  | unranked =>
    refine ⟨ofRank n, rfl, ?_⟩
    cases t with
    | unranked =>
      cases ok
      exact List.forall₂_same.mpr fun d _ => d.refinesSelf
    | ranked ds =>
      simp only [withRank?, Option.ite_none_right_eq_some] at ok
      obtain ⟨rfl, same⟩ := ok
      cases same
      exact refineUnknown ds
  | ranked each =>
    simp only [withRank?, Option.ite_none_right_eq_some] at ok
    obtain ⟨length, same⟩ := ok
    cases same
    exact ⟨.ranked _, if_pos (each.length_eq.symm.trans length), each⟩

theorem Refines.static {dims : List Nat} (known : s.toDims? = some dims) : t = s := by
  cases finer with
  | unranked => cases known
  | ranked each =>
    refine congrArg Shape.ranked ?_
    simp only [toDims?, Shape.dims?, Option.bind_some] at known
    induction each generalizing dims with
    | nil => rfl
    | cons own _ ih =>
      simp only [collect, Option.bind_eq_bind, Option.bind_eq_some_iff] at known
      obtain ⟨n, length, ns, lengths, _⟩ := known
      cases own with
      | unknown => cases length
      | known => rw [ih lengths]

end

end Shape
end TensorPlan
