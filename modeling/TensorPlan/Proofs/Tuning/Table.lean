import Mathlib.Data.List.Basic
import Mathlib.Data.List.Nodup
import Mathlib.Data.String.Basic
import TensorPlan.Tuning.Cache
/-! Tables as maps. Inserting and erasing change what stands under one key. While the keys are in order, a table holds
under a key exactly what is found there, and tables in tables hold as many pairs as they count. -/
namespace TensorPlan.Table
variable {α : Type} {t : Table α} {key key' : String} {v : α}

theorem getCons (e : String × α) (es : List (String × α)) (key : String) :
    (⟨e :: es⟩ : Table α).get? key = if e.1 = key then some e.2 else (⟨es⟩ : Table α).get? key := by
  unfold get?
  rw [List.find?_cons]
  by_cases same : e.1 = key
  · rw [if_pos same, beq_iff_eq.mpr same]; rfl
  · rw [if_neg same, beq_eq_false_iff_ne.mpr same]

theorem getInsert (t : Table α) (key key' : String) (v : α) :
    (t.insert key v).get? key' = if key = key' then some v else t.get? key' := by
  obtain ⟨es⟩ := t
  unfold insert
  induction es with
  | nil => exact getCons _ _ _
  | cons e es ih =>
    simp only [place]
    split
    · rename_i same
      rw [getCons, getCons]
      split
      · rfl
      · rename_i other
        rw [if_neg (same ▸ other)]
    · rename_i other
      split
      · exact getCons _ _ _
      · rw [getCons, getCons, ih]
        split
        · rename_i same
          rw [if_neg fun own => other (same.trans own.symm)]
        · rfl

theorem getErase (t : Table α) (key key' : String) :
    (t.erase key).get? key' = if key = key' then none else t.get? key' := by
  obtain ⟨es⟩ := t
  unfold erase
  induction es with
  | nil => exact (ite_self none).symm
  | cons e es ih =>
    by_cases same : e.1 = key
    · rw [List.filter_cons_of_neg (by simp [same]), ih, getCons, same]
      split <;> rfl
    · rw [List.filter_cons_of_pos (by simp [same]), getCons, getCons, ih]
      split
      · rename_i own
        rw [if_neg fun other => same (own.trans other.symm)]
      · rfl

theorem getOrEmpty (o : Option (Table α)) (key : String) : (o.getD empty).get? key = o.bind (·.get? key) := by
  cases o <;> rfl

theorem bindUnlessEmpty {β : Type} (t : Table (Table α)) (key key' : String) (inner : Table α) (f : Table α → Option β)
    (none' : f empty = none) : ((t.insertUnlessEmpty key inner).get? key').bind f =
      if key = key' then f inner else (t.get? key').bind f := by
  unfold insertUnlessEmpty
  split
  · rename_i bare
    obtain rfl : inner = empty := congrArg Table.mk (List.isEmpty_iff.mp bare)
    rw [getErase]
    split
    · exact none'.symm
    · rfl
  · rw [getInsert]
    split <;> rfl

def eraseIn (t : Table (Table α)) (key hash : String) : Table (Table α) :=
  match t.get? key with
  | none => t
  | some inner => t.insertUnlessEmpty key (inner.erase hash)

theorem getEraseIn (t : Table (Table α)) (key hash key' hash' : String) :
    ((t.eraseIn key hash).get? key').bind (·.get? hash') =
      if key = key' ∧ hash = hash' then none else (t.get? key').bind (·.get? hash') := by
  unfold eraseIn
  cases found : t.get? key with
  | none =>
    dsimp only
    split
    · rename_i same
      rw [← same.1, found]; rfl
    · rfl
  | some inner =>
    simp only [bindUnlessEmpty t key key' _ (·.get? hash') rfl, getErase]
    by_cases same : key = key'
    · subst same
      simp [found]
    · simp [same]

theorem placeMember {es : List (String × α)} {e : String × α} (member : e ∈ place key v es) : e = (key, v) ∨ e ∈ es := by
  induction es with
  | nil => exact .inl (List.mem_singleton.mp member)
  | cons first es ih =>
    simp only [place] at member
    split at member
    · exact (List.mem_cons.mp member).imp_right (List.mem_cons_of_mem _)
    · split at member
      · exact List.mem_cons.mp member
      · obtain same | later := List.mem_cons.mp member
        · exact .inr (List.mem_cons.mpr (.inl same))
        · exact (ih later).imp_right (List.mem_cons_of_mem _)

theorem placeSorted {es : List (String × α)} (sorted : es.Pairwise fun a b => a.1 < b.1) :
    (place key v es).Pairwise fun a b => a.1 < b.1 := by
  induction es with
  | nil => exact List.pairwise_singleton _ _
  | cons first es ih =>
    obtain ⟨least, rest⟩ := List.pairwise_cons.mp sorted
    simp only [place]
    split
    · rename_i same
      exact List.pairwise_cons.mpr ⟨fun e later => same ▸ least e later, rest⟩
    · rename_i other
      split
      · rename_i below
        refine List.pairwise_cons.mpr ⟨fun e later => ?_, sorted⟩
        obtain rfl | later := List.mem_cons.mp later
        · exact below
        · exact lt_trans below (least e later)
      · rename_i above
        refine List.pairwise_cons.mpr ⟨fun e later => ?_, ih rest⟩
        obtain rfl | later := placeMember later
        · exact lt_of_le_of_ne (not_lt.mp above) other
        · exact least e later

structure Ordered (property : α → Prop) (t : Table α) : Prop where
  sorted : t.entries.Pairwise fun a b => a.1 < b.1
  each : ∀ e ∈ t.entries, property e.2

section
variable {property : α → Prop} (ordered : t.Ordered property)
include ordered

theorem memGet : (key, v) ∈ t.entries ↔ t.get? key = some v := by
  obtain ⟨es⟩ := t
  have sorted := ordered.sorted
  clear ordered
  induction es with
  | nil => simp [get?]
  | cons e es ih =>
    obtain ⟨first, rest⟩ := List.pairwise_cons.mp sorted
    rw [getCons, List.mem_cons]
    by_cases same : e.1 = key
    · rw [if_pos same]
      constructor
      · rintro (rfl | later)
        · rfl
        · exact absurd (first _ later) (same ▸ lt_irrefl key)
      · intro own
        cases own
        exact .inl (by rw [← same])
    · rw [if_neg same]
      exact (or_iff_right fun own => same (by rw [← own])).trans (ih rest)

theorem getEach (found : t.get? key = some v) : property v := ordered.each _ ((memGet ordered).mpr found)

theorem keysNodup : (t.entries.map Prod.fst).Nodup := by
  rw [List.Nodup, List.pairwise_map]
  exact ordered.sorted.imp ne_of_lt

theorem Ordered.imp {weaker : α → Prop} (own : ∀ v, property v → weaker v) : t.Ordered weaker :=
  ⟨ordered.sorted, fun e member => own e.2 (ordered.each e member)⟩

theorem Ordered.insert (own : property v) : (t.insert key v).Ordered property :=
  ⟨placeSorted ordered.sorted, fun e member => (placeMember member).elim (fun same => same ▸ own) (ordered.each e)⟩

theorem Ordered.erase : (t.erase key).Ordered property :=
  ⟨ordered.sorted.filter _, fun e member => ordered.each e (List.mem_filter.mp member).1⟩

end

theorem emptyOrdered (property : α → Prop) : (empty : Table α).Ordered property := ⟨.nil, fun _ member => nomatch member⟩

section
variable {property : Table α → Prop} {t : Table (Table α)} (ordered : t.Ordered property)
include ordered

theorem Ordered.insertUnlessEmpty {inner : Table α} (own : property inner) :
    (t.insertUnlessEmpty key inner).Ordered property := by
  unfold Table.insertUnlessEmpty
  split
  · exact ordered.erase
  · exact ordered.insert own

theorem Ordered.getOrEmpty (own : property empty) (key : String) : property ((t.get? key).getD empty) := by
  cases found : t.get? key with
  | none => exact own
  | some inner => exact getEach ordered found

end

theorem Ordered.eraseIn {property : α → Prop} {t : Table (Table α)} (ordered : t.Ordered (Ordered property))
    (key hash : String) : (t.eraseIn key hash).Ordered (Ordered property) := by
  unfold Table.eraseIn
  split
  · exact ordered
  · rename_i inner found
    exact ordered.insertUnlessEmpty (getEach ordered found).erase

section
variable {κ β : Type}

def pairs (inner : α → List (κ × β)) (t : Table α) : List ((String × κ) × β) :=
  t.entries.flatMap fun e => (inner e.2).map fun x => ((e.1, x.1), x.2)

theorem pairsLength (inner : α → List (κ × β)) (t : Table α) :
    (t.pairs inner).length = CacheDocument.total (fun v => (inner v).length) t := by
  rw [pairs, CacheDocument.total, List.length_flatMap, ← List.sum_eq_foldl]
  simp

variable {property : α → Prop} (ordered : t.Ordered property)
include ordered

theorem memPairs {inner : α → List (κ × β)} {find : α → κ → Option β}
    (each : ∀ v, property v → ∀ k b, (k, b) ∈ inner v ↔ find v k = some b) {k : κ} {b : β} :
    ((key, k), b) ∈ t.pairs inner ↔ (t.get? key).bind (find · k) = some b := by
  simp only [pairs, List.mem_flatMap, List.mem_map, Prod.mk.injEq, Option.bind_eq_some_iff]
  constructor
  · rintro ⟨⟨_, v⟩, member, ⟨_, _⟩, inside, ⟨rfl, rfl⟩, rfl⟩
    exact ⟨v, (memGet ordered).mp member, (each v (ordered.each _ member) _ _).mp inside⟩
  · rintro ⟨v, found, inside⟩
    exact ⟨(key, v), (memGet ordered).mpr found, (k, b), (each v (getEach ordered found) k b).mpr inside, ⟨rfl, rfl⟩, rfl⟩

theorem pairsNodup {inner : α → List (κ × β)} (each : ∀ v, property v → ((inner v).map Prod.fst).Nodup) :
    ((t.pairs inner).map Prod.fst).Nodup := by
  rw [pairs, List.map_flatMap, List.nodup_flatMap]
  constructor
  · intro e member
    have own := (each e.2 (ordered.each e member)).map (Prod.mk_right_injective e.1)
    simpa [Function.comp_def] using own
  · refine ordered.sorted.imp fun {a b} below => ?_
    intro k first second
    simp only [List.map_map, List.mem_map, Function.comp_apply] at first second
    obtain ⟨_, _, rfl⟩ := first
    obtain ⟨_, _, same⟩ := second
    exact absurd (congrArg Prod.fst same).symm (ne_of_lt below)

end

end TensorPlan.Table
