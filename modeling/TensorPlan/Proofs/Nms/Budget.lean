import TensorPlan.Nms.Selection
import TensorPlan.Proofs.Computation
/-! The budget of rows. A class keeps at most the boxes that may take part and the background class none,
so a batch chooses at most the rows reserved for it, and the rows of all batches fit below each other. -/
namespace TensorPlan.NmsPlan
variable {p : NmsPlan}

theorem decayedFirst (earlier : List Candidate) (greatest : List Single) (cs : List Candidate) :
    (p.decayed earlier greatest cs).map Prod.fst = cs := by
  induction cs generalizing earlier greatest with
  | nil => rfl
  | cons c cs ih => rw [decayed, List.map_cons, ih]

theorem decayedLength (earlier : List Candidate) (greatest : List Single) (cs : List Candidate) :
    (p.decayed earlier greatest cs).length = cs.length := by
  rw [← List.length_map (f := Prod.fst), decayedFirst]

theorem suppressLength (batch cls : Nat) (candidates : List Candidate) :
    (p.suppress batch cls candidates).length ≤ candidates.length := by
  rw [suppress, List.length_map, ← decayedLength (p := p) [] [] candidates]
  exact List.length_filter_le _ _

theorem rankingLength (scores : List Single) : (Candidate.ranking p scores).length ≤ p.maxPerClass := by
  rw [Candidate.ranking, List.length_take]
  exact Nat.min_le_left _ _

theorem rankingBelow {scores : List Single} {c : Nat × Single} (member : c ∈ Candidate.ranking p scores) :
    c.1 < scores.length := by
  have above := List.mem_of_mem_take member
  rw [List.mem_mergeSort] at above
  have zipped := (List.mem_filter.mp above).1
  exact List.mem_range.mp (List.of_mem_zip zipped).1

structure Kept (p : NmsPlan) (first : Nat) (classes : List (List Selected)) : Prop where
  bounded : ∀ l ∈ classes, l.length ≤ p.maxPerClass
  background : ∀ i l, classes[i]? = some l → p.attributes.isBackground (first + i) = true → l = []

theorem keptTotal {first : Nat} {classes : List (List Selected)} (kept : p.Kept first classes) :
    classes.flatten.length ≤
      p.maxPerClass * ((List.range' first classes.length).filter fun c => !p.attributes.isBackground c).length := by
  induction classes generalizing first with
  | nil => exact Nat.zero_le _
  | cons l classes ih =>
    have rest := @ih (first + 1) ⟨fun l member => kept.bounded l (List.mem_cons_of_mem _ member),
      fun i l found => by
        have step : first + 1 + i = first + (i + 1) := by omega
        rw [step]; exact kept.background (i + 1) l found⟩
    rw [List.flatten_cons, List.length_append, List.length_cons, List.range'_succ]
    cases background : p.attributes.isBackground first with
    | true =>
      rw [kept.background 0 l rfl background, List.filter_cons_of_neg (by rw [background]; decide), List.length_nil,
        Nat.zero_add]
      exact rest
    | false =>
      rw [List.filter_cons_of_pos (by rw [background]; decide), List.length_cons, Nat.mul_succ]
      have own := kept.bounded l List.mem_cons_self
      omega

theorem realClassesEq (a : NmsAttributes) (classes : Nat) :
    ((List.range classes).filter fun c => !a.isBackground c).length = a.realClasses classes := by
  induction classes with
  | zero => simp [NmsAttributes.realClasses]
  | succ n ih =>
    rw [List.range_succ, List.filter_append, List.length_append, ih]
    unfold NmsAttributes.realClasses NmsAttributes.isBackground
    by_cases here : a.background = (n : Int)
    · simp only [here, decide_true, Bool.not_true, Bool.false_eq_true, not_false_eq_true, List.filter_cons_of_neg,
        List.filter_nil, List.length_nil]
      split <;> split <;> omega
    · simp only [here, decide_false, Bool.not_false, List.filter_cons_of_pos, List.filter_nil, List.length_cons,
        List.length_nil]
      split <;> split <;> omega

theorem atMostLess {n m : Nat} (bound : Int) (less : n ≤ m) :
    NmsAttributes.atMost n bound ≤ NmsAttributes.atMost m bound := by
  unfold NmsAttributes.atMost
  split <;> omega

theorem chooseLength {classes : List (List Selected)} (kept : p.Kept 0 classes) (count : classes.length = p.classes) :
    (p.choose classes).length ≤ p.maxPerBatch := by
  have total := keptTotal kept
  rw [count, ← List.range_eq_range', realClassesEq] at total
  have taken : (p.choose classes).length = NmsAttributes.atMost classes.flatten.length p.attributes.boxesPerBatch := by
    unfold choose NmsAttributes.atMost Selected.sort
    split
    · rw [List.length_take, List.length_mergeSort, Nat.min_comm]
    · rw [List.length_mergeSort]
  rw [taken]
  exact atMostLess _ total

theorem groupsLength {α : Type} (size count : Nat) (xs : List α) : (groups size count xs).length = count := by
  induction count generalizing xs with
  | zero => rfl
  | succ count ih => rw [groups, List.length_cons, ih]

theorem groupsAt {α : Type} {size count b : Nat} {xs : List α} (inside : b < count) :
    (groups size count xs)[b]? = some ((xs.drop (b * size)).take size) := by
  induction count generalizing b xs with
  | zero => omega
  | succ count ih =>
    cases b with
    | zero => simp [groups]
    | succ b => rw [groups, List.getElem?_cons_succ, ih (by omega), List.drop_drop, Nat.succ_mul, Nat.add_comm]

theorem groupItems {α : Type} {size count b : Nat} {xs : List α} (whole : xs.length = count * size) (inside : b < count) :
    ((xs.drop (b * size)).take size).length = size ∧ ∀ (i : Nat) x, ((xs.drop (b * size)).take size)[i]? = some x →
      i < size ∧ xs[b * size + i]? = some x := by
  have room : b * size + size ≤ xs.length := by
    rw [whole, ← Nat.succ_mul]
    exact Nat.mul_le_mul_right size inside
  refine ⟨by rw [List.length_take, List.length_drop]; omega, fun i x found => ?_⟩
  rw [List.getElem?_take] at found
  split at found
  · rename_i small
    rw [List.getElem?_drop] at found
    exact ⟨small, found⟩
  · cases found

theorem perBatchFrom {kept : List (List Selected)} {b : Nat} {l : List Selected} (found : (p.perBatch kept)[b]? = some l) :
    b < p.batches ∧ p.choose ((kept.drop (b * p.classes)).take p.classes) = l := by
  rw [perBatch, List.getElem?_map, Option.map_eq_some_iff] at found
  obtain ⟨group, there, chosen⟩ := found
  have below : b < p.batches := by
    rw [← groupsLength p.classes p.batches kept]
    exact (List.getElem?_eq_some_iff.mp there).1
  rw [groupsAt below] at there
  cases there
  exact ⟨below, chosen⟩

structure KeptAll (p : NmsPlan) (kept : List (List Selected)) : Prop where
  count : kept.length = p.batches * p.classes
  bounded : ∀ l ∈ kept, l.length ≤ p.maxPerClass
  background : ∀ n l, kept[n]? = some l → p.attributes.isBackground (n % p.classes) = true → l = []

theorem perBatchLengths {kept : List (List Selected)} (all : p.KeptAll kept) :
    (p.perBatch kept).length = p.batches ∧ ∀ b ∈ p.perBatch kept, b.length ≤ p.maxPerBatch := by
  refine ⟨by rw [perBatch, List.length_map, groupsLength], fun b member => ?_⟩
  obtain ⟨i, found⟩ := List.mem_iff_getElem?.mp member
  obtain ⟨below, chosen⟩ := perBatchFrom found
  obtain ⟨count, items⟩ := groupItems all.count below
  rw [← chosen]
  apply chooseLength
  · refine ⟨fun l member => all.bounded l (List.mem_of_mem_drop (List.mem_of_mem_take member)), fun c l there held => ?_⟩
    obtain ⟨small, own⟩ := items c l there
    refine all.background _ l own ?_
    rwa [Nat.mul_comm, Nat.mul_add_mod, Nat.mod_eq_of_lt small, ← Nat.zero_add c]
  · exact count

theorem stretchesLengths {α : Type} (counts : List Nat) (xs : List α) :
    (stretches counts xs).length = counts.length ∧
      ∀ bound, (∀ n ∈ counts, n ≤ bound) → ∀ s ∈ stretches counts xs, s.length ≤ bound := by
  induction counts generalizing xs with
  | nil => exact ⟨rfl, fun _ _ s member => (List.not_mem_nil member).elim⟩
  | cons n counts ih =>
    obtain ⟨length, rest⟩ := ih (xs.drop n)
    refine ⟨by rw [stretches, List.length_cons, List.length_cons, length], fun bound below s member => ?_⟩
    rcases List.mem_cons.mp member with first | later
    · rw [first, List.length_take]
      have small := below n List.mem_cons_self
      omega
    · exact rest bound (fun m inside => below m (List.mem_cons_of_mem n inside)) s later

theorem rowsPlaces {start : Nat} {batches : List (List Selected)} (fits : ∀ b ∈ batches, b.length ≤ p.maxPerBatch) :
    ∃ count, (p.rows start batches).1.map Prod.fst = List.range' start count ∧ (p.rows start batches).2 = start + count ∧
      count ≤ batches.length * p.maxPerBatch ∧
      (p.attributes.dynamicOutput = false → count = batches.length * p.maxPerBatch) := by
  induction batches generalizing start with
  | nil => exact ⟨0, rfl, rfl, Nat.zero_le _, fun _ => (Nat.zero_mul _).symm⟩
  | cons b batches ih =>
    have own := fits b List.mem_cons_self
    have rest := fun next => @ih next fun b member => fits b (List.mem_cons_of_mem _ member)
    have chosen : ((List.range' start b.length).zip (b.map some)).map Prod.fst = List.range' start b.length :=
      List.map_fst_zip (Nat.le_of_eq (by rw [List.length_range', List.length_map]))
    rw [List.length_cons, Nat.succ_mul]
    unfold rows
    cases dynamic : p.attributes.dynamicOutput with
    | true =>
      obtain ⟨count, places, last, bound, _⟩ := rest (start + b.length)
      refine ⟨b.length + count, ?_, ?_, by omega, fun other => by cases other⟩
      · simp only [if_true, List.append_nil, List.map_append, chosen, places, List.range'_append_1]
      · simp only [if_true, last, Nat.add_assoc]
    | false =>
      obtain ⟨count, places, last, bound, all⟩ := rest (start + p.maxPerBatch)
      have unused : ((List.range' (start + b.length) (start + p.maxPerBatch - (start + b.length))).map fun row =>
          ((row, none) : Nat × Option Selected)).map Prod.fst =
          List.range' (start + b.length) (p.maxPerBatch - b.length) := by
        rw [List.map_map, Nat.add_sub_add_left]
        exact List.map_id _
      have block := List.range'_append_1 (s := start) (m := b.length) (n := p.maxPerBatch - b.length)
      rw [Nat.add_sub_cancel' own] at block
      refine ⟨p.maxPerBatch + count, ?_, ?_, by omega, fun _ => by rw [all dynamic]; omega⟩
      · simp only [Bool.false_eq_true, if_false, List.map_append, chosen, unused, places, block, List.range'_append_1]
      · simp only [Bool.false_eq_true, if_false, last, Nat.add_assoc]

def blocks (p : NmsPlan) (kept : List (List Selected)) : List (List Selected) :=
  stretches ((p.perBatch kept).map List.length) (p.ordered (p.perBatch kept))

theorem blocksFit {kept : List (List Selected)} (all : p.KeptAll kept) :
    (p.blocks kept).length = p.batches ∧ ∀ b ∈ p.blocks kept, b.length ≤ p.maxPerBatch := by
  obtain ⟨batches, fits⟩ := perBatchLengths all
  obtain ⟨stretched, bounded⟩ := stretchesLengths ((p.perBatch kept).map List.length) (p.ordered (p.perBatch kept))
  refine ⟨stretched.trans (by rw [List.length_map, batches]), bounded p.maxPerBatch fun n member => ?_⟩
  obtain ⟨b, inside, length⟩ := List.mem_map.mp member
  rw [← length]
  exact fits b inside

theorem rowsChosen {kept : List (List Selected)} (all : p.KeptAll kept) : ∃ rows last,
    p.rows 0 (p.blocks kept) = (rows, last) ∧
      rows.map Prod.fst = List.range last ∧ last ≤ p.batches * p.maxPerBatch ∧
      (p.attributes.dynamicOutput = false → last = p.batches * p.maxPerBatch) := by
  obtain ⟨batches, fits⟩ := blocksFit all
  obtain ⟨count, places, behind, inside, whole⟩ := @rowsPlaces p 0 _ fits
  rw [batches] at inside whole
  rw [Nat.zero_add] at behind
  exact ⟨_, _, rfl, by rw [places, behind, List.range_eq_range'], by rwa [behind], by rwa [behind]⟩

end TensorPlan.NmsPlan
