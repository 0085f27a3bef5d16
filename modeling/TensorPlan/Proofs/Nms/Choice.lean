import TensorPlan.Element.UpperWord
import TensorPlan.Proofs.Nms.Blocks
import TensorPlan.Proofs.Nms.Ranks
/-! What is chosen. Suppression keeps boxes of the best candidates of each class, every batch chooses the best of what
its classes keep, and the rows show what the batches have chosen, one batch after the other or in an order across them. -/
namespace TensorPlan

theorem pairwiseNumbered {α : Type} {related : α → α → Prop} (number : α → Nat) {xss : List (List α)}
    (own : ∀ (i : Nat) xs, xss[i]? = some xs → ∀ x ∈ xs, number x = i) (each : ∀ xs ∈ xss, xs.Pairwise related)
    (across : ∀ x y, number x ≠ number y → related x y) : xss.flatten.Pairwise related := by
  rw [List.pairwise_flatten, List.pairwise_iff_getElem]
  refine ⟨each, fun i j first second less x inside y inside' => across x y ?_⟩
  rw [own i _ (List.getElem?_eq_getElem first) x inside, own j _ (List.getElem?_eq_getElem second) y inside']
  exact Nat.ne_of_lt less

def Candidate.ranked (c : Candidate) : Nat × Single := (c.index, c.score)

def Selected.name (s : Selected) : Nat × Nat := (s.cls, s.index)

namespace NmsPlan
variable {p : NmsPlan} {boxes scores : View} {line : List Single} {l : List Selected}

def passing (p : NmsPlan) (line : List Single) : List (Nat × Single) :=
  ((List.range line.length).zip line).filter fun c => p.attributes.scoreThreshold.less c.2

theorem memPassing {values : List Single} {c : Nat × Single} :
    c ∈ p.passing values ↔ values[c.1]? = some c.2 ∧ p.attributes.scoreThreshold.less c.2 = true := by
  rw [passing, List.mem_filter]
  refine and_congr_left fun _ => ⟨fun member => ?_, fun found => ?_⟩
  · obtain ⟨i, place⟩ := List.mem_iff_getElem?.mp member
    obtain ⟨index, score⟩ := List.getElem?_zip_eq_some.mp place
    have same := (List.getElem?_eq_some_iff.mp index).2
    rw [List.getElem_range] at same
    rwa [← same]
  · refine List.mem_iff_getElem?.mpr ⟨c.1, List.getElem?_zip_eq_some.mpr ⟨?_, found⟩⟩
    exact List.getElem?_range (List.getElem?_eq_some_iff.mp found).1

theorem passingApart : (p.passing line).Pairwise fun c d => c.1 ≠ d.1 := by
  have indices : (((List.range line.length).zip line).map Prod.fst).Nodup := by
    rw [List.map_fst_zip (Nat.le_of_eq List.length_range)]
    exact List.nodup_range
  exact (List.pairwise_map.mp indices).sublist List.filter_sublist

theorem rankingForemost : Foremost Candidate.Precedes (min p.maxPerClass (p.passing line).length) (p.passing line)
    (Candidate.ranking p line) :=
  foremostTaken Candidate.beforeRank Candidate.rankPrecedes (passingApart.imp fun apart same => apart (by
    simp only [Candidate.rank, List.cons.injEq, Int.natCast_inj, and_true] at same
    exact same.2)) _

theorem suppressIndices (b c : Nat) (candidates : List Candidate) :
    ((p.suppress b c candidates).map Selected.index).Sublist (candidates.map Candidate.index) := by
  have cut := (List.filter_sublist (p := fun d : Candidate × Single => p.attributes.postThreshold.less d.2)
    (l := p.decayed [] [] candidates)).map fun d => d.1.index
  rw [suppress, List.map_map]
  have all := congrArg (List.map Candidate.index) (decayedFirst (p := p) [] [] candidates)
  rw [List.map_map] at all
  rw [← all]
  exact cut

structure Survive (p : NmsPlan) (boxes scores : View) (b c : Nat) (l : List Selected) : Prop where
  background : p.attributes.isBackground c = true → l = []
  best : p.attributes.isBackground c = false → ∃ line candidates, scores.line? b c = some line ∧
    Foremost Candidate.Precedes (min p.maxPerClass (p.passing line).length) (p.passing line)
      (candidates.map Candidate.ranked) ∧
    (∀ d ∈ candidates, boxAt boxes b d.index = some d.box) ∧ l = p.suppress b c candidates ∧
    (l.map Selected.index).Sublist (candidates.map Candidate.index)
  batch : ∀ s ∈ l, s.batch = b
  cls : ∀ s ∈ l, s.cls = c

theorem itemSurvives {n : Nat} (ok : p.item boxes scores n = .ok l) :
    p.Survive boxes scores (n / p.classes) (n % p.classes) l := by
  simp only [item, Result.bindOk, Result.orFaultOk] at ok
  obtain ⟨line, found, last⟩ := ok
  cases background : p.attributes.isBackground (n % p.classes) with
  | true =>
    simp only [background, if_true, Result.pureOk, Except.ok.injEq] at last
    subst last
    refine ⟨fun _ => rfl, fun other => ?_, fun _ member => ?_, fun _ member => ?_⟩
    · rw [background] at other
      cases other
    · exact (List.not_mem_nil member).elim
    · exact (List.not_mem_nil member).elim
  | false =>
    simp only [background, Bool.false_eq_true, if_false, Result.bindOk] at last
    obtain ⟨candidates, each, kept⟩ := last
    cases kept
    have made : ∀ (c : Nat × Single) (d : Candidate),
        (do return (⟨c.1, c.2, ← Result.orFault (boxAt boxes (n / p.classes) c.1)⟩ : Candidate) : Result Candidate) = .ok d →
          d.ranked = c ∧ boxAt boxes (n / p.classes) c.1 = some d.box := fun c d ok => by
      simp only [Result.bindOk, Result.orFaultOk] at ok
      obtain ⟨box, there, same⟩ := ok
      cases same
      exact ⟨rfl, there⟩
    have ranked : candidates.map Candidate.ranked = Candidate.ranking p line :=
      Result.forEachInverse (fun c d ok => (made c d ok).1) each
    refine ⟨fun other => ?_, fun _ => ⟨line, candidates, found, ?_, fun d member => ?_, rfl, suppressIndices _ _ candidates⟩,
      fun s member => ?_, fun s member => ?_⟩
    · rw [background] at other
      cases other
    · rw [ranked]
      exact rankingForemost
    · obtain ⟨c, _, ok⟩ := Result.forEachMember each d member
      obtain ⟨rfl, there⟩ := made c d ok
      exact there
    all_goals
      obtain ⟨d, _, rfl⟩ := List.mem_map.mp member
      rfl

theorem placedAlike {b : Nat} {first second : List Candidate} (ranks : first.map Candidate.ranked = second.map Candidate.ranked)
    (placed : ∀ d ∈ first, boxAt boxes b d.index = some d.box) (placed' : ∀ d ∈ second, boxAt boxes b d.index = some d.box) :
    first = second := by
  have whole : ∀ {candidates : List Candidate}, (∀ d ∈ candidates, boxAt boxes b d.index = some d.box) →
      (candidates.map Candidate.ranked).map (fun c => (c, boxAt boxes b c.1)) =
        candidates.map fun d => (d.ranked, some d.box) := fun placed => by
    rw [List.map_map]
    exact List.map_congr_left fun d member => congrArg (Prod.mk d.ranked) (placed d member)
  have both := whole placed
  rw [ranks, whole placed'] at both
  refine List.map_injective_iff.mpr (fun d e same => ?_) both.symm
  obtain ⟨_, _, _⟩ := d
  obtain ⟨_, _, _⟩ := e
  cases same
  rfl

theorem Survive.determined {b c : Nat} {best : List Candidate} (survive : p.Survive boxes scores b c l)
    (real : p.attributes.isBackground c = false) (read : scores.line? b c = some line)
    (foremost : Foremost Candidate.Precedes (min p.maxPerClass (p.passing line).length) (p.passing line)
      (best.map Candidate.ranked)) (placed : ∀ d ∈ best, boxAt boxes b d.index = some d.box) : l = p.suppress b c best := by
  obtain ⟨_, candidates, read', foremost', placed', same, _⟩ := survive.best real
  cases read.symm.trans read'
  rw [same, placedAlike (Foremost.only Candidate.rankPrecedes foremost' foremost) placed' placed]

theorem Survive.apart {b c : Nat} (survive : p.Survive boxes scores b c l) : l.Pairwise fun s t => s.name ≠ t.name := by
  cases background : p.attributes.isBackground c with
  | true =>
    rw [survive.background background]
    exact .nil
  | false =>
    obtain ⟨line, candidates, _, foremost, _, _, indices⟩ := survive.best background
    have different : candidates.Pairwise fun d e => d.index ≠ e.index := by
      refine (List.pairwise_map.mp foremost.order).imp_of_mem fun {d e} first second less same => ?_
      have one := (memPassing.mp (foremost.members _ (List.mem_map_of_mem (f := Candidate.ranked) first))).1
      have other := (memPassing.mp (foremost.members _ (List.mem_map_of_mem (f := Candidate.ranked) second))).1
      have equal : d.ranked = e.ranked := by
        simp only [Candidate.ranked, same] at one other ⊢
        rw [Option.some.inj (one.symm.trans other)]
      rw [equal, ← Candidate.rankPrecedes] at less
      exact List.lt_irrefl _ less
    have apart := (List.pairwise_map.mpr different).sublist indices
    exact (List.pairwise_map.mp apart).imp fun apart same => apart (congrArg Prod.snd same)

structure Chooses (p : NmsPlan) (boxes scores : View) (b : Nat) (classes : List (List Selected)) (chosen : List Selected) :
    Prop where
  count : classes.length = p.classes
  kept : ∀ (c : Nat) l, classes[c]? = some l → p.Survive boxes scores b c l
  apart : (classes.flatten.map Selected.name).Nodup
  best : Foremost Selected.BatchPrecedes (NmsAttributes.atMost classes.flatten.length p.attributes.boxesPerBatch)
    classes.flatten chosen
  distinct : (chosen.map Selected.name).Nodup

theorem Chooses.determined {b : Nat} {classes classes' : List (List Selected)} {other : List Selected}
    (chooses : p.Chooses boxes scores b classes l) (same : classes = classes')
    (best : Foremost Selected.BatchPrecedes (NmsAttributes.atMost classes'.flatten.length p.attributes.boxesPerBatch)
      classes'.flatten other) : l = other := by
  subst same
  exact Foremost.only Selected.batchRankPrecedes chooses.best best

theorem chooseForemost {classes : List (List Selected)} (apart : classes.flatten.Pairwise fun s t => s.name ≠ t.name) :
    Foremost Selected.BatchPrecedes (NmsAttributes.atMost classes.flatten.length p.attributes.boxesPerBatch)
      classes.flatten (p.choose classes) ∧ (p.choose classes).Pairwise fun s t => s.name ≠ t.name := by
  have ranks : classes.flatten.Pairwise fun s t => s.batchRank ≠ t.batchRank := apart.imp fun apart same => apart (by
    simp only [Selected.batchRank, List.cons.injEq, Int.natCast_inj, and_true] at same
    exact Prod.ext same.2.1 same.2.2)
  have sorted := ((List.mergeSort_perm classes.flatten fun s t => (Selected.batchOrder s t).isLE).pairwise_iff
    fun {s t : Selected} (other : s.name ≠ t.name) => other.symm).mpr apart
  unfold choose NmsAttributes.atMost Selected.sort
  split
  · have foremost := foremostTaken Selected.batchOrderRank Selected.batchRankPrecedes ranks p.attributes.boxesPerBatch.toNat
    rw [Nat.min_comm] at foremost
    exact ⟨foremost, sorted.sublist (List.take_sublist _ _)⟩
  · have foremost := foremostTaken Selected.batchOrderRank Selected.batchRankPrecedes ranks classes.flatten.length
    rw [Nat.min_self, List.take_of_length_le (Nat.le_of_eq (List.length_mergeSort _))] at foremost
    exact ⟨foremost, sorted⟩

theorem perBatchChooses {kept : List (List Selected)}
    (ok : Result.forEach (p.item boxes scores) (List.range (p.batches * p.classes)) = .ok kept) {b : Nat}
    (found : (p.perBatch kept)[b]? = some l) : ∃ classes, p.Chooses boxes scores b classes l := by
  obtain ⟨below, chosen⟩ := perBatchFrom found
  obtain ⟨count, items⟩ := batchItems ok below
  have survive : ∀ (c : Nat) l, ((kept.drop (b * p.classes)).take p.classes)[c]? = some l → p.Survive boxes scores b c l := by
    intro c l there
    obtain ⟨small, made⟩ := items c l there
    have own := itemSurvives made
    rwa [quotientDigit small, Nat.mul_add_mod', Nat.mod_eq_of_lt small] at own
  have apart : ((kept.drop (b * p.classes)).take p.classes).flatten.Pairwise fun s t => s.name ≠ t.name := by
    refine pairwiseNumbered Selected.cls (fun c l there => (survive c l there).cls) (fun l member => ?_)
      fun s t other same => other (congrArg Prod.fst same)
    obtain ⟨c, there⟩ := List.mem_iff_getElem?.mp member
    exact (survive c l there).apart
  obtain ⟨foremost, distinct⟩ := chooseForemost (p := p) apart
  rw [chosen] at foremost distinct
  exact ⟨_, count, survive, List.pairwise_map.mpr apart, foremost,
    List.pairwise_map.mpr distinct⟩

theorem Chooses.batch {b : Nat} {classes : List (List Selected)} (chooses : p.Chooses boxes scores b classes l) :
    ∀ s ∈ l, s.batch = b := by
  intro s member
  obtain ⟨kept, inside, own⟩ := List.mem_flatten.mp (chooses.best.members s member)
  obtain ⟨c, there⟩ := List.mem_iff_getElem?.mp inside
  exact (chooses.kept c kept there).batch s own

structure Orders (p : NmsPlan) (chosen : List (List Selected)) (shown : List Selected) : Prop where
  same : shown.Perm chosen.flatten
  alone : p.attributes.sortAcrossBatches = false ∨ p.attributes.sortResult = .unsorted → shown = chosen.flatten
  score : p.attributes.sortAcrossBatches = true → p.attributes.sortResult = .score →
    shown.Pairwise Selected.ScorePrecedes
  cls : p.attributes.sortAcrossBatches = true → p.attributes.sortResult = .classId →
    shown.Pairwise Selected.ClassPrecedes

theorem orderedOrders {chosen : List (List Selected)}
    (apart : chosen.flatten.Pairwise fun s t => (s.batch, s.name) ≠ (t.batch, t.name)) :
    p.Orders chosen (p.ordered chosen) where
  same := orderedPerm chosen
  alone := orderedAlone chosen
  score across result := by
    rw [ordered, if_pos across, result]
    refine (sortedApart Selected.scoreOrderRank (apart.imp fun {s t} apart same => apart ?_)).imp fun less =>
      (Selected.scoreRankPrecedes _ _).mp less
    simp only [Selected.scoreRank, List.cons.injEq, Int.natCast_inj, and_true] at same
    rw [Selected.name, Selected.name, same.2.1, same.2.2.1, same.2.2.2]
  cls across result := by
    rw [ordered, if_pos across, result]
    refine (sortedApart Selected.classOrderRank (apart.imp fun {s t} apart same => apart ?_)).imp fun less =>
      (Selected.classRankPrecedes _ _).mp less
    simp only [Selected.classRank, List.cons.injEq, Int.natCast_inj, and_true] at same
    rw [Selected.name, Selected.name, same.1, same.2.1, same.2.2.2]

theorem rowsShown (kept : List (List Selected)) :
    ((p.rows 0 (p.blocks kept)).1.map Prod.snd).filterMap id = p.ordered (p.perBatch kept) := by
  obtain ⟨_, joined⟩ := stretchesWhole (orderedPerm (p := p) (p.perBatch kept)).length_eq
  rw [rowsContents, List.filterMap_flatMap, ← joined, ← List.flatMap_id]
  refine List.flatMap_congr fun b _ => ?_
  cases p.attributes.dynamicOutput <;> simp

def Reads (given : List Tensor) (boxes scores : View) : Prop :=
  ∃ first second, given[0]? = some first ∧ given[1]? = some second ∧ view "boxes" first = .ok boxes ∧
    view "scores" second = .ok scores

end NmsPlan

namespace NmsAttributes

end NmsAttributes
end TensorPlan
