import TensorPlan.Element.UpperWord
import TensorPlan.Proofs.Dispatch.Growth
import TensorPlan.Proofs.Dispatch.Selection
import TensorPlan.Proofs.Nms.Ranks
/-! The order of dispatch. Of the entries that fit, each kernel name keeps the earliest one with its most specific key;
the kept ones that support the parameters stand by specificity, then fast before reference, then by registration. -/
namespace TensorPlan

namespace KernelKey

def wildcards : KernelKey → Nat
  | ⟨_, some _, some _, _⟩ => 0
  | ⟨_, some _, none, _⟩ | ⟨_, none, some _, _⟩ => 1
  | ⟨_, none, none, _⟩ => 2

theorem specificityWildcards (k : KernelKey) : k.specificity + k.wildcards = 2 := by
  obtain ⟨_, _ | _, _ | _, _⟩ := k <;> rfl

theorem fewerWildcards {k k' : KernelKey} : k.wildcards < k'.wildcards ↔ k'.specificity < k.specificity := by
  have first := k.specificityWildcards
  have second := k'.specificityWildcards
  omega

theorem sameWildcards {k k' : KernelKey} : k.wildcards = k'.wildcards ↔ k'.specificity = k.specificity := by
  have first := k.specificityWildcards
  have second := k'.specificityWildcards
  omega

end KernelKey

namespace KernelEntry
open KernelKey (fewerWildcards sameWildcards)

def rank (e : KernelEntry) : List Int := [e.key.wildcards, e.kernel.isReference.toNat, e.order]

theorem orderRank (a b : KernelEntry) : (Selector.entryOrder a b).isLE = true ↔ a.rank ≤ b.rank := by
  have fastFirst : compare false true = Ordering.lt := rfl
  have fewer := @fewerWildcards a.key b.key
  have same := @sameWildcards a.key b.key
  cases first : a.kernel.isReference <;> cases second : b.kernel.isReference <;>
    simp [Selector.entryOrder, rank, rankCons, Ordering.isLE_then_iff_or, Std.isLE_compare, Std.compare_eq_lt, first, second,
      fastFirst] <;>
    omega

theorem rankOrder {a b : KernelEntry} (same : a.rank = b.rank) : a.order = b.order := by
  simp only [rank, List.cons.injEq] at same
  omega

structure Leads (fits : KernelEntry → Prop) (e : KernelEntry) : Prop where
  fitting : fits e
  best : ∀ e', fits e' → e'.kernel.name = e.kernel.name →
    e.key.wildcards < e'.key.wildcards ∨ e.key.wildcards = e'.key.wildcards ∧ e.order ≤ e'.order

theorem leadsSpecific {fits : KernelEntry → Prop} {e : KernelEntry} : Leads fits e ↔ fits e ∧
    ∀ e', fits e' → e'.kernel.name = e.kernel.name →
      e'.key.specificity < e.key.specificity ∨ e'.key.specificity = e.key.specificity ∧ e.order ≤ e'.order := by
  simp only [← fewerWildcards, ← sameWildcards]
  exact ⟨fun leads => ⟨leads.fitting, leads.best⟩, fun both => ⟨both.1, both.2⟩⟩

end KernelEntry

namespace KernelRegistry
open KernelEntry (Leads leadsSpecific)
variable {seen best entries : List KernelEntry} {new e : KernelEntry} {r : KernelRegistry}

theorem insertBestNames (names : (best.map fun e => e.kernel.name).Nodup) :
    ((insertBest best new).map fun e => e.kernel.name).Nodup := by
  induction best with
  | nil => exact List.nodup_singleton _
  | cons b bs ih =>
    rw [List.map_cons, List.nodup_cons] at names
    unfold insertBest
    split
    · rename_i same
      rw [List.map_cons, List.nodup_cons]
      refine ⟨?_, names.2⟩
      split
      · rw [← same]; exact names.1
      · exact names.1
    · rename_i other
      rw [List.map_cons, List.nodup_cons]
      refine ⟨fun member => ?_, ih names.2⟩
      obtain ⟨e, inside, same⟩ := List.mem_map.mp member
      rcases insertBestMember inside with old | rfl
      · exact names.1 (same ▸ List.mem_map_of_mem old)
      · exact other same.symm

theorem insertBestIff (names : (best.map fun e => e.kernel.name).Nodup) : e ∈ insertBest best new ↔
    (e ∈ best ∧ (e.kernel.name = new.kernel.name → new.key.specificity ≤ e.key.specificity)) ∨
      (e = new ∧ ∀ b ∈ best, b.kernel.name = new.kernel.name → b.key.specificity < new.key.specificity) := by
  induction best with
  | nil => simp [insertBest]
  | cons b bs ih =>
    rw [List.map_cons, List.nodup_cons] at names
    have others : ∀ e ∈ bs, e.kernel.name ≠ b.kernel.name := fun e member same =>
      names.1 (same ▸ List.mem_map_of_mem member)
    have rest := ih names.2
    unfold insertBest
    split
    · split <;> grind
    · grind

structure Best (seen best : List KernelEntry) : Prop where
  names : (best.map fun e => e.kernel.name).Nodup
  kept : ∀ e, e ∈ best ↔ Leads (· ∈ seen) e
  covered : ∀ e ∈ seen, ∃ b ∈ best, b.kernel.name = e.kernel.name ∧ e.key.specificity ≤ b.key.specificity

section
variable (holds : Best seen best)
include holds

theorem Best.known {b : KernelEntry} (member : b ∈ best) : b ∈ seen := ((holds.kept b).mp member).fitting

theorem Best.keeps (later : ∀ e ∈ seen, e.order < new.order) : e ∈ insertBest best new ↔ Leads (· ∈ seen ++ [new]) e := by
  rw [insertBestIff holds.names, holds.kept, leadsSpecific, leadsSpecific]
  constructor
  · rintro (⟨⟨known, best⟩, specific⟩ | ⟨rfl, above⟩)
    · refine ⟨List.mem_append_left _ known, fun e' member same => ?_⟩
      rcases List.mem_append.mp member with earlier | last
      · exact best e' earlier same
      · have own := List.mem_singleton.mp last
        subst own
        have before := later e known
        have enough := specific same.symm
        omega
    · refine ⟨List.mem_append_right _ (List.mem_singleton_self _), fun e' member same => ?_⟩
      rcases List.mem_append.mp member with earlier | last
      · obtain ⟨b, inside, name, specific⟩ := holds.covered e' earlier
        have less := above b inside (name.trans same)
        omega
      · rw [List.mem_singleton.mp last]
        exact .inr ⟨rfl, Nat.le_refl _⟩
  · rintro ⟨known, best⟩
    rcases List.mem_append.mp known with earlier | last
    · refine .inl ⟨⟨earlier, fun e' member => best e' (List.mem_append_left _ member)⟩, fun same => ?_⟩
      have against := best new (List.mem_append_right _ (List.mem_singleton_self _)) same.symm
      omega
    · have own := List.mem_singleton.mp last
      subst own
      refine .inr ⟨rfl, fun b member same => ?_⟩
      have against := best b (List.mem_append_left _ (holds.known member)) same
      have before := later b (holds.known member)
      omega

theorem Best.covers : ∀ e ∈ seen ++ [new], ∃ b ∈ insertBest best new,
    b.kernel.name = e.kernel.name ∧ e.key.specificity ≤ b.key.specificity := by
  intro e member
  have stays : ∀ b ∈ best, (b.kernel.name = new.kernel.name → new.key.specificity ≤ b.key.specificity) →
      b ∈ insertBest best new := fun b inside specific => (insertBestIff holds.names).mpr (.inl ⟨inside, specific⟩)
  by_cases above : ∀ b ∈ best, b.kernel.name = new.kernel.name → b.key.specificity < new.key.specificity
  · have taken : new ∈ insertBest best new := (insertBestIff holds.names).mpr (.inr ⟨rfl, above⟩)
    rcases List.mem_append.mp member with earlier | last
    · obtain ⟨b, inside, name, specific⟩ := holds.covered e earlier
      by_cases same : b.kernel.name = new.kernel.name
      · exact ⟨new, taken, same.symm.trans name, Nat.le_trans specific (Nat.le_of_lt (above b inside same))⟩
      · exact ⟨b, stays b inside fun equal => absurd equal same, name, specific⟩
    · rw [List.mem_singleton.mp last]
      exact ⟨new, taken, rfl, Nat.le_refl _⟩
  · push Not at above
    obtain ⟨b, inside, same, enough⟩ := above
    have only : ∀ b' ∈ best, b'.kernel.name = new.kernel.name → new.key.specificity ≤ b'.key.specificity := by
      intro b' inside' same'
      rw [List.inj_on_of_nodup_map holds.names inside' inside (same'.trans same.symm)]
      exact enough
    rcases List.mem_append.mp member with earlier | last
    · obtain ⟨b', inside', name, specific⟩ := holds.covered e earlier
      exact ⟨b', stays b' inside' (only b' inside'), name, specific⟩
    · rw [List.mem_singleton.mp last]
      exact ⟨b, stays b inside (only b inside), same, enough⟩

theorem Best.insert (later : ∀ e ∈ seen, e.order < new.order) : Best (seen ++ [new]) (insertBest best new) :=
  ⟨insertBestNames holds.names, fun _ => holds.keeps later, holds.covers⟩

end

theorem bestOf (ordered : (seen ++ entries).Pairwise fun a b => a.order < b.order) (holds : Best seen best) :
    Best (seen ++ entries) (entries.foldl insertBest best) := by
  induction entries generalizing seen best with
  | nil => rwa [List.append_nil]
  | cons new entries ih =>
    have later : ∀ e ∈ seen, e.order < new.order := fun e member =>
      (List.pairwise_append.mp ordered).2.2 e member new List.mem_cons_self
    rw [List.append_cons] at ordered ⊢
    exact ih ordered (holds.insert later)

theorem Regular.ordered (regular : r.Regular) : r.entries.Pairwise fun a b => a.order < b.order := by
  rw [List.pairwise_iff_getElem]
  intro i j first second before
  rw [regular.numbered i _ (List.getElem?_eq_getElem first), regular.numbered j _ (List.getElem?_eq_getElem second)]
  exact before

structure Fits (r : KernelRegistry) (p : KernelParams) (e : KernelEntry) : Prop where
  registered : e ∈ r.entries
  kind : e.key.kind = p.kind
  mode : e.key.mode = p.mode
  type : e.key.type = none ∨ e.key.type = p.type?
  format : e.key.format = none ∨ e.key.format = p.format?

theorem fitsIff {p : KernelParams} : r.Fits p e ↔ e ∈ r.entries.filter fun e =>
    e.key.kind == p.kind && e.key.mode == p.mode && e.key.accepts p.type? p.format? := by
  simp only [List.mem_filter, KernelKey.accepts, KernelKey.fits, Bool.and_eq_true, Bool.or_eq_true, beq_iff_eq,
    Option.isNone_iff_eq_none, decide_eq_true_eq]
  constructor
  · exact fun fits => ⟨fits.registered, ⟨fits.kind, fits.mode⟩, fits.type, fits.format⟩
  · rintro ⟨registered, ⟨kind, mode⟩, type, format⟩
    exact ⟨registered, kind, mode, type, format⟩

theorem Regular.candidatesLead (regular : r.Regular) (p : KernelParams) :
    ((r.candidates p.kind p.type? p.format? p.mode).map fun e => e.kernel.name).Nodup ∧
      ∀ e, e ∈ r.candidates p.kind p.type? p.format? p.mode ↔ Leads (r.Fits p) e := by
  have none : Best [] [] := ⟨List.nodup_nil, fun _ => ⟨fun member => (List.not_mem_nil member).elim,
    fun leads => (List.not_mem_nil leads.fitting).elim⟩, fun _ member => (List.not_mem_nil member).elim⟩
  have holds : Best _ (r.candidates p.kind p.type? p.format? p.mode) :=
    @bestOf [] [] _ (regular.ordered.sublist List.filter_sublist) none
  have same : r.Fits p = fun e => e ∈ r.entries.filter fun e =>
      e.key.kind == p.kind && e.key.mode == p.mode && e.key.accepts p.type? p.format? := funext fun e => propext fitsIff
  exact ⟨holds.names, fun e => by rw [same]; exact holds.kept e⟩

theorem Regular.ranksApart (regular : r.Regular) {kept : List KernelEntry} (inside : ∀ e ∈ kept, e ∈ r.entries)
    (names : (kept.map fun e => e.kernel.name).Nodup) : kept.Pairwise fun a b => a.rank ≠ b.rank := by
  refine (List.Nodup.of_map _ names).imp_of_mem fun first second other same => other ?_
  obtain ⟨i, foundA⟩ := List.mem_iff_getElem?.mp (inside _ first)
  obtain ⟨j, foundB⟩ := List.mem_iff_getElem?.mp (inside _ second)
  have orders := KernelEntry.rankOrder same
  rw [regular.numbered i _ foundA, regular.numbered j _ foundB] at orders
  rw [orders, foundB, Option.some.injEq] at foundA
  exact foundA.symm

end KernelRegistry

namespace Selector
open KernelEntry (Leads)
variable {s : Selector} {p : KernelParams} {device : Device}

structure Allows (s : Selector) (p : KernelParams) (device : Device) : Prop where
  dynamic : p.mode = .someUnknown → s.options.dynamicShapes = true
  device : ∀ f, p.format? = some f → device.supports f = true

structure Ranked (s : Selector) (p : KernelParams) (kept : List KernelEntry) : Prop where
  members : ∀ e, e ∈ kept ↔ Leads (s.registry.Fits p) e ∧ e.kernel.supports p = true
  names : (kept.map fun e => e.kernel.name).Nodup
  order : kept.Pairwise fun a b => a.rank < b.rank

theorem candidatesDenied (denied : ¬ s.Allows p device) : s.candidates p device = [] := by
  unfold candidates
  split
  · rfl
  · rename_i dynamic
    split
    · rfl
    · rename_i formats
      refine (denied ⟨fun some => ?_, fun f own => ?_⟩).elim
      · simpa [some] using dynamic
      · simpa [own] using formats

theorem candidatesRanked (regular : s.registry.Regular) (allowed : s.Allows p device) :
    ∃ kept, s.candidates p device = kept.map KernelEntry.kernel ∧ s.Ranked p kept := by
  unfold candidates
  have dynamic : ¬ (p.mode = .someUnknown ∧ (!s.options.dynamicShapes) = true) := by
    rintro ⟨some, closed⟩
    rw [allowed.dynamic some] at closed
    cases closed
  have formats : ¬ (p.format?.any fun f => !device.supports f) = true := by
    intro refused
    obtain ⟨f, own, closed⟩ := (Option.any_eq_true _ _).mp refused
    rw [allowed.device f own] at closed
    cases closed
  rw [if_neg dynamic, if_neg formats]
  obtain ⟨names, leading⟩ := regular.candidatesLead p
  refine ⟨_, rfl, fun e => ?_, ?_, ?_⟩
  · rw [List.mem_mergeSort, List.mem_filter, leading]
  · exact ((List.mergeSort_perm _ _).map _).nodup_iff.mpr (names.sublist (List.filter_sublist.map _))
  · refine sortedApart KernelEntry.orderRank (regular.ranksApart (fun e member => ?_) (names.sublist (List.filter_sublist.map _)))
    exact ((leading e).mp (List.mem_filter.mp member).1).fitting.registered

theorem Ranked.determined {kept entries : List KernelEntry} (ranked : s.Ranked p kept) (regular : s.registry.Regular)
    (same : entries.Perm ((s.registry.candidates p.kind p.type? p.format? p.mode).filter fun e => e.kernel.supports p))
    (order : entries.Pairwise fun a b => a.rank < b.rank) : kept = entries := by
  have apart : ∀ {es : List KernelEntry}, es.Pairwise (fun a b => a.rank < b.rank) → es.Nodup := fun order =>
    order.imp fun below same => absurd below (by rw [same]; exact lt_irrefl _)
  have members : kept.Perm entries := (List.perm_ext_iff_of_nodup (apart ranked.order) (apart order)).mpr fun e => by
    rw [same.mem_iff, List.mem_filter, ranked.members, (regular.candidatesLead p).2]
  exact members.eq_of_pairwise (fun a b _ _ below above => absurd below (lt_asymm above)) ranked.order order

/-- After any calls: where dispatch is allowed, the candidates are the kernels of the kept entries that support the
parameters, each name once, strictly by rank; where it is not, there are none. -/
theorem candidatesOrdered (calls : List RegistryCall) (options : EngineOptions) (p : KernelParams) (device : Device) :
    let s : Selector := ⟨.ofCalls calls, options⟩
    (s.Allows p device → ∃ kept, s.candidates p device = kept.map KernelEntry.kernel ∧ s.Ranked p kept) ∧
      (¬ s.Allows p device → s.candidates p device = []) :=
  ⟨candidatesRanked (KernelRegistry.ofCallsRegular calls), candidatesDenied⟩

theorem candidatesOrderedOfWildcards :
    let reference := BuiltinKernel.gatherTree.kernel
    let generic : Kernel := { reference with name := "generic", isReference := false }
    let typed : Kernel := { reference with name := "typed", isReference := false }
    let exact : Kernel := { reference with name := "exact", isReference := false }
    let calls : List RegistryCall := [.registerAny reference [.allKnown], .registerAny generic [.allKnown],
      .register ⟨.gatherTree, some .i32, none, .allKnown⟩ typed, .registerAny exact [.allKnown],
      .registerForTypes exact [(.i32, .plain)] [.allKnown]]
    let s : Selector := ⟨.ofCalls calls, .unset⟩
    let p : KernelParams := ⟨.gatherTree, [.ofShape (.ofDims [1]) .i32 .plain], []⟩
    (s.candidates p (.cpu 1)).map Kernel.name = ["exact", "typed", "generic", "gather_tree_ref"] ∧
      ∃ kept, s.candidates p (.cpu 1) = kept.map KernelEntry.kernel ∧ s.Ranked p kept ∧
        kept.map KernelEntry.rank = [[0, 0, 4], [1, 0, 2], [2, 0, 1], [2, 1, 0]] := by
  intro reference generic typed exact calls s p
  have allowed : s.Allows p (.cpu 1) := ⟨fun _ => rfl, fun f own => by cases own; rfl⟩
  obtain ⟨ranked, _⟩ := candidatesOrdered calls .unset p (.cpu 1)
  obtain ⟨kept, found, order⟩ := ranked allowed
  have same : kept = [⟨⟨.gatherTree, some .i32, some .plain, .allKnown⟩, exact, 4⟩,
      ⟨⟨.gatherTree, some .i32, none, .allKnown⟩, typed, 2⟩, ⟨⟨.gatherTree, none, none, .allKnown⟩, generic, 1⟩,
      ⟨⟨.gatherTree, none, none, .allKnown⟩, reference, 0⟩] :=
    order.determined (KernelRegistry.ofCallsRegular calls) (List.reverse_perm _).symm (by decide)
  subst same
  rw [found]
  exact ⟨rfl, _, rfl, order, rfl⟩

end Selector
end TensorPlan
