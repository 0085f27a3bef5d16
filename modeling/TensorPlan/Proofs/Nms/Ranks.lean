import Mathlib.Data.Int.Order.Basic
import Mathlib.Data.List.Lex
import TensorPlan.Nms.Selection
import TensorPlan.Proofs.Numeric.Order
/-! Ranks. Every order of candidates and boxes is that of their ranks, lists of numbers that are compared from the front.
Items of distinct ranks that are sorted and cut are those of lowest rank. -/
namespace TensorPlan

theorem rankCons {x y : Int} {xs ys : List Int} : x :: xs ≤ y :: ys ↔ x < y ∨ x = y ∧ xs ≤ ys := by
  rw [le_iff_lt_or_eq, le_iff_lt_or_eq, List.cons_lt_cons_iff, List.cons.injEq]
  tauto

theorem rankLess {x y : Int} {xs ys : List Int} : x :: xs < y :: ys ↔ x < y ∨ x = y ∧ xs < ys := List.cons_lt_cons_iff

namespace Candidate

def rank (c : Nat × Single) : List Int := [-c.2.totalKey, c.1]

def Precedes (c d : Nat × Single) : Prop := d.2.Below c.2 ∨ c.2 = d.2 ∧ c.1 < d.1
instance (c d) : Decidable (Precedes c d) := by unfold Precedes; infer_instance

theorem beforeRank (a b : Nat × Single) : before a b = true ↔ rank a ≤ rank b := by
  simp [before, rank, rankCons, Ordering.isLE_then_iff_or, Std.isLE_compare, Std.compare_eq_lt]
  omega

theorem rankPrecedes (c d : Nat × Single) : rank c < rank d ↔ Precedes c d := by
  simp [rank, Precedes, rankLess, Binary.totalKeyBelow, Binary.totalKeySame]

end Candidate

namespace Selected

def batchRank (s : Selected) : List Int := [-s.score.totalKey, s.cls, s.index]

def scoreRank (s : Selected) : List Int := [-s.score.totalKey, s.batch, s.cls, s.index]

def classRank (s : Selected) : List Int := [s.cls, s.batch, -s.score.totalKey, s.index]

def BatchPrecedes (s t : Selected) : Prop :=
  t.score.Below s.score ∨ s.score = t.score ∧ (s.cls < t.cls ∨ s.cls = t.cls ∧ s.index < t.index)

def ScorePrecedes (s t : Selected) : Prop :=
  t.score.Below s.score ∨ s.score = t.score ∧
    (s.batch < t.batch ∨ s.batch = t.batch ∧ (s.cls < t.cls ∨ s.cls = t.cls ∧ s.index < t.index))

def ClassPrecedes (s t : Selected) : Prop :=
  s.cls < t.cls ∨ s.cls = t.cls ∧
    (s.batch < t.batch ∨ s.batch = t.batch ∧ (t.score.Below s.score ∨ s.score = t.score ∧ s.index < t.index))

instance (s t) : Decidable (BatchPrecedes s t) := by unfold BatchPrecedes; infer_instance

instance (s t) : Decidable (ScorePrecedes s t) := by unfold ScorePrecedes; infer_instance

variable (a b : Selected)

theorem batchOrderRank : (batchOrder a b).isLE = true ↔ a.batchRank ≤ b.batchRank := by
  simp [batchOrder, batchRank, rankCons, Ordering.isLE_then_iff_or, Std.isLE_compare, Std.compare_eq_lt]
  omega

theorem scoreOrderRank : (scoreOrder a b).isLE = true ↔ a.scoreRank ≤ b.scoreRank := by
  simp [scoreOrder, scoreRank, rankCons, Ordering.isLE_then_iff_or, Std.isLE_compare, Std.compare_eq_lt]
  omega

theorem classOrderRank : (classOrder a b).isLE = true ↔ a.classRank ≤ b.classRank := by
  simp [classOrder, classRank, rankCons, Ordering.isLE_then_iff_or, Std.isLE_compare, Std.compare_eq_lt]
  omega

theorem batchRankPrecedes : a.batchRank < b.batchRank ↔ a.BatchPrecedes b := by
  simp [batchRank, BatchPrecedes, rankLess, Binary.totalKeyBelow, Binary.totalKeySame]

theorem scoreRankPrecedes : a.scoreRank < b.scoreRank ↔ a.ScorePrecedes b := by
  simp [scoreRank, ScorePrecedes, rankLess, Binary.totalKeyBelow, Binary.totalKeySame]

theorem classRankPrecedes : a.classRank < b.classRank ↔ a.ClassPrecedes b := by
  simp [classRank, ClassPrecedes, rankLess, Binary.totalKeyBelow, Binary.totalKeySame]

end Selected

section
variable {α : Type}

@[mk_iff]
structure Foremost (precedes : α → α → Prop) (n : Nat) (all chosen : List α) : Prop where
  members : ∀ x ∈ chosen, x ∈ all
  count : chosen.length = n
  order : chosen.Pairwise precedes
  rest : ∀ x ∈ all, x ∉ chosen → ∀ y ∈ chosen, precedes y x

variable {order : α → α → Bool} {rank : α → List Int} {xs : List α}
  (agrees : ∀ x y, order x y = true ↔ rank x ≤ rank y)
include agrees

theorem sortedRanks (xs : List α) : (xs.mergeSort order).Pairwise fun x y => rank x ≤ rank y := by
  have sorted : (xs.mergeSort order).Pairwise fun x y => order x y = true := List.pairwise_mergeSort
    (fun x y z first second => (agrees x z).mpr (le_trans ((agrees x y).mp first) ((agrees y z).mp second)))
    (fun x y => by rw [Bool.or_eq_true, agrees, agrees]; exact le_total _ _) xs
  exact sorted.imp fun below => (agrees _ _).mp below

theorem sortedApart (apart : xs.Pairwise fun x y => rank x ≠ rank y) :
    (xs.mergeSort order).Pairwise fun x y => rank x < rank y := by
  have different : (xs.mergeSort order).Pairwise fun x y => rank x ≠ rank y :=
    ((List.mergeSort_perm xs order).pairwise_iff fun other => other.symm).mpr apart
  exact ((sortedRanks agrees xs).and different).imp fun both => Std.lt_of_le_of_ne both.1 both.2

theorem foremostTaken {precedes : α → α → Prop} (ranked : ∀ x y, rank x < rank y ↔ precedes x y)
    (apart : xs.Pairwise fun x y => rank x ≠ rank y) (n : Nat) :
    Foremost precedes (min n xs.length) xs ((xs.mergeSort order).take n) := by
  have sorted := (sortedApart agrees apart).imp fun less => (ranked _ _).mp less
  have split := List.take_append_drop n (xs.mergeSort order)
  refine ⟨fun x member => List.mem_mergeSort.mp (List.mem_of_mem_take member), ?_, sorted.sublist (List.take_sublist _ _),
    fun x member missing y chosen => ?_⟩
  · rw [List.length_take, List.length_mergeSort]
  · rw [← split, List.pairwise_append] at sorted
    have behind : x ∈ (xs.mergeSort order).drop n := by
      have inside : x ∈ xs.mergeSort order := List.mem_mergeSort.mpr member
      rw [← split] at inside
      exact (List.mem_append.mp inside).resolve_left missing
    exact sorted.2.2 y chosen x behind

end

instance {α : Type} [DecidableEq α] (precedes : α → α → Prop) [DecidableRel precedes] (n : Nat) (all chosen : List α) :
    Decidable (Foremost precedes n all chosen) := decidable_of_iff' _ (foremost_iff precedes n all chosen)

section
variable {α : Type} {rank : α → List Int} {precedes : α → α → Prop} (ranked : ∀ x y, rank x < rank y ↔ precedes x y)
  {xs ys all : List α} {n : Nat}
include ranked

theorem orderApart (order : xs.Pairwise precedes) : xs.Nodup :=
  order.imp fun {x y} before (same : x = y) => List.lt_irrefl (rank x) ((ranked x x).mpr (by rw [← same] at before; exact before))

theorem orderOnly (same : xs.Perm ys) (first : xs.Pairwise precedes) (second : ys.Pairwise precedes) : xs = ys :=
  same.eq_of_pairwise (fun x y _ _ before after =>
    (List.lt_asymm ((ranked x y).mpr before) ((ranked y x).mpr after)).elim) first second

theorem Foremost.only (first : Foremost precedes n all xs) (second : Foremost precedes n all ys) : xs = ys := by
  have inside : xs ⊆ ys := by
    intro x member
    by_contra missing
    have some : ¬ ys ⊆ xs := fun every => by
      have same := (List.subperm_of_subset (orderApart ranked second.order) every).perm_of_length_le
        (Nat.le_of_eq (first.count.trans second.count.symm))
      exact missing (same.mem_iff.mpr member)
    obtain ⟨y, there, absent⟩ := Set.not_subset.mp some
    have before := first.rest y (second.members y there) absent x member
    have after := second.rest x (first.members x member) missing y there
    exact List.lt_asymm ((ranked x y).mpr before) ((ranked y x).mpr after)
  have same := (List.subperm_of_subset (orderApart ranked first.order) inside).perm_of_length_le
    (Nat.le_of_eq (second.count.trans first.count.symm))
  exact orderOnly ranked same first.order second.order

end
end TensorPlan
