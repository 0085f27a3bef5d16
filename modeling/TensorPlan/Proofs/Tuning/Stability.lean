import TensorPlan.Proofs.Operator.Described
import TensorPlan.Proofs.Tuning.Flat
/-! What a lookup leaves behind. The first hit puts its entry under the current key, wherever it stood before, and from
then on only storing or removing under that very key can touch it, whoever else shares the older key. -/
namespace TensorPlan

def KernelParams.address (p : KernelParams) (units : Nat) : Nat × OperatorKind × UInt64 := (units, p.kind, p.currentHash)

theorem CacheDocument.keySame {p q : KernelParams} {units units' : Nat} :
    keyOf p units = keyOf q units' ↔ p.address units = q.address units' := by
  simp only [keyOf, Key.mk.injEq, KernelParams.address, Prod.mk.injEq, Text.naturalNames.injective.eq_iff,
    OperatorKind.textNames.injective.eq_iff, UInt64.toNat_inj]

namespace CacheCall

def address? : CacheCall → Option (Nat × OperatorKind × UInt64)
  | load p units | store p units _ _ | remove p units => some (p.address units)
  | count | changed => none

def isLoad : CacheCall → Bool
  | load _ _ => true
  | _ => false

end CacheCall

namespace CacheOperations
variable {State : Type}

def after (o : CacheOperations State) (calls : List CacheCall) (s : State) : State :=
  calls.foldl (fun s call => (o.answer s call).2) s

theorem afterCons (o : CacheOperations State) (call : CacheCall) (calls : List CacheCall) (s : State) :
    o.after (call :: calls) s = o.after calls (o.answer s call).2 := rfl

theorem afterKeeps {o : CacheOperations State} (property : State → Prop) {calls : List CacheCall} {s : State}
    (step : ∀ call ∈ calls, ∀ s, property s → property (o.answer s call).2) (start : property s) :
    property (o.after calls s) := by
  induction calls generalizing s with
  | nil => exact start
  | cons call calls ih =>
    rw [afterCons]
    exact ih (fun call later => step call (List.mem_cons_of_mem _ later)) (step call List.mem_cons_self s start)

theorem historyFirst {o : CacheOperations State} {clients : Nat → CacheClient} {turns : List Nat}
    {replies : Nat → List CacheReply} {s : State} {i : Nat} {call : CacheCall} {reply : CacheReply}
    {later : List (Nat × CacheCall × CacheReply)} (seen : o.history clients turns replies s = (i, call, reply) :: later) :
    (o.answer s call).1 = reply ∧
      ∃ turns' replies', o.history clients turns' replies' (o.answer s call).2 = later := by
  cases turns with
  | nil => cases seen
  | cons j turns =>
    simp only [history, List.cons.injEq] at seen
    obtain ⟨own, rest⟩ := seen
    cases own
    exact ⟨rfl, turns, _, rest⟩

theorem historyLater {o : CacheOperations State} {clients : Nat → CacheClient} {turns : List Nat}
    {replies : Nat → List CacheReply} {s : State} {before later : List (Nat × CacheCall × CacheReply)}
    (seen : o.history clients turns replies s = before ++ later) : ∃ turns' replies',
      o.history clients turns' replies' (o.after (before.map fun turn => turn.2.1) s) = later := by
  induction before generalizing turns replies s with
  | nil => exact ⟨turns, replies, seen⟩
  | cons first before ih =>
    obtain ⟨_, turns, replies, rest⟩ := historyFirst seen
    exact ih rest

end CacheOperations

structure CacheDocument.Settled (d : CacheDocument) (p : KernelParams) (units : Nat) (hit : Option CacheEntry) : Prop where
  current : d.get? (keyOf p units) = hit
  older : hit = none → d.getOlder? (keyOf p units).units (olderHash p) = none

namespace TuningCache
variable {c : TuningCache} {p : KernelParams} {units : Nat} {e : CacheEntry} {hit : Option CacheEntry}

theorem loadOf (settled : c.document.Settled p units hit) : c.load p units = (hit, c) := by
  cases hit with
  | some e => simp only [load, settled.current]
  | none => simp only [load, settled.current, settled.older rfl]

theorem loadCases (c : TuningCache) (p : KernelParams) (units : Nat) :
    (∃ hit, c.document.Settled p units hit ∧ c.load p units = (hit, c)) ∨
      ∃ e, c.load p units = (some e, { c with
        document := (c.document.eraseOlder (CacheDocument.keyOf p units).units (CacheDocument.olderHash p)).insert
          (CacheDocument.keyOf p units) e,
        changed := true }) := by
  cases current : c.document.get? (CacheDocument.keyOf p units) with
  | some e =>
    have settled : c.document.Settled p units (some e) := ⟨current, fun none => nomatch none⟩
    exact .inl ⟨some e, settled, loadOf settled⟩
  | none =>
    cases older : c.document.getOlder? (CacheDocument.keyOf p units).units (CacheDocument.olderHash p) with
    | some e => exact .inr ⟨e, by simp only [load, current, older]⟩
    | none =>
      have settled : c.document.Settled p units none := ⟨current, fun _ => older⟩
      exact .inl ⟨none, settled, loadOf settled⟩

theorem loadSettles (c : TuningCache) (p : KernelParams) (units : Nat) :
    (c.load p units).2.document.Settled p units (c.load p units).1 := by
  obtain ⟨hit, settled, loaded⟩ | ⟨e, moved⟩ := loadCases c p units
  · rw [loaded]
    exact settled
  · rw [moved]
    exact ⟨(CacheDocument.getInsert _ _ _ _).trans (if_pos rfl), fun none => nomatch none⟩

theorem storeSettles (c : TuningCache) (p : KernelParams) (units : Nat) (kernel : String) (config : Nat) :
    (c.store p units kernel config).document.Settled p units (some ⟨kernel, (min config maxConfig : Nat)⟩) :=
  ⟨(CacheDocument.getInsert _ _ _ _).trans (if_pos rfl), fun none => nomatch none⟩

theorem answerElsewhere {call : CacheCall} (other : call.address? ≠ some (p.address units)) :
    (operations.answer c call).2.document.get? (CacheDocument.keyOf p units) =
      c.document.get? (CacheDocument.keyOf p units) := by
  have apart : ∀ q units', call.address? = some (q.address units') →
      CacheDocument.keyOf q units' ≠ CacheDocument.keyOf p units := fun q units' own same =>
    other (own.trans (congrArg some (CacheDocument.keySame.mp same)))
  cases call with
  | load q units' =>
    change (c.load q units').2.document.get? _ = _
    obtain ⟨hit, _, loaded⟩ | ⟨e, moved⟩ := loadCases c q units'
    · rw [loaded]
    · rw [moved, CacheDocument.getInsert, if_neg (apart q units' rfl), CacheDocument.getAfterOlder]
  | store q units' kernel config => exact (CacheDocument.getInsert _ _ _ _).trans (if_neg (apart q units' rfl))
  | remove q units' =>
    exact (CacheDocument.getAfterOlder _ _ _ _).trans
      ((CacheDocument.getErase _ _ _).trans (if_neg (apart q units' rfl)))
  | count => rfl
  | changed => rfl

theorem answerOlder {call : CacheCall} {units hash : String} (missing : c.document.getOlder? units hash = none) :
    (operations.answer c call).2.document.getOlder? units hash = none := by
  cases call with
  | load q units' =>
    change (c.load q units').2.document.getOlder? _ _ = _
    obtain ⟨hit, _, loaded⟩ | ⟨e, moved⟩ := loadCases c q units'
    · rw [loaded]
      exact missing
    · rw [moved, CacheDocument.getOlderInsert, CacheDocument.getOlderErase, missing, ite_self]
  | store q units' kernel config => exact missing
  | remove q units' =>
    refine (CacheDocument.getOlderErase _ _ _ _ _).trans ?_
    rw [CacheDocument.getOlderAfter, missing, ite_self]
  | count => exact missing
  | changed => exact missing

theorem answerStands {call : CacheCall} (spares : call.address? = some (p.address units) → call.isLoad = true)
    (stands : c.document.get? (CacheDocument.keyOf p units) = some e) :
    (operations.answer c call).2.document.get? (CacheDocument.keyOf p units) = some e := by
  by_cases own : call.address? = some (p.address units)
  · cases call with
    | load q units' =>
      have same := CacheDocument.keySame.mpr (Option.some.inj own)
      have settled : c.document.Settled q units' (some e) := ⟨same ▸ stands, fun none => nomatch none⟩
      change (c.load q units').2.document.get? _ = _
      rw [loadOf settled]
      exact stands
    | store | remove | count | changed => cases spares own
  · exact (answerElsewhere own).trans stands

theorem standsAfter {calls : List CacheCall}
    (spared : ∀ call ∈ calls, call.address? = some (p.address units) → call.isLoad = true)
    (stands : c.document.get? (CacheDocument.keyOf p units) = some e) :
    (operations.after calls c).document.get? (CacheDocument.keyOf p units) = some e :=
  CacheOperations.afterKeeps (fun c : TuningCache => c.document.get? (CacheDocument.keyOf p units) = some e)
    (fun call member _ stands => answerStands (spared call member) stands) stands

theorem settledAfter {calls : List CacheCall} (elsewhere : ∀ call ∈ calls, call.address? ≠ some (p.address units))
    (settled : c.document.Settled p units hit) : (operations.after calls c).document.Settled p units hit :=
  CacheOperations.afterKeeps (fun c : TuningCache => c.document.Settled p units hit)
    (fun call member _ settled => ⟨(answerElsewhere (elsewhere call member)).trans settled.current,
      fun none => answerOlder (settled.older none)⟩) settled

end TuningCache

namespace FlatCache
variable {flat : FlatCache} {c : TuningCache}

theorem loadCount (flat : FlatCache) (p : KernelParams) (units : Nat) : (flat.load p units).2.count = flat.count := by
  unfold load
  split
  · rfl
  · rename_i missing
    split
    · rename_i e older
      have absent : currentKey p units ∉ flat.current.keys := by
        rw [Finmap.mem_keys, ← Finmap.lookup_eq_none]
        exact missing
      have present : olderKey p units ∈ flat.older.keys := by
        rw [Finmap.mem_keys]
        exact Finmap.mem_of_lookup_eq_some older
      have grown : (flat.current.insert (currentKey p units) e).keys = insert (currentKey p units) flat.current.keys := by
        ext k
        simp [Finmap.mem_keys]
      have positive := Finset.card_pos.mpr ⟨_, present⟩
      simp only [count, grown, Finset.card_insert_of_notMem absent, Finmap.keys_erase, Finset.card_erase_of_mem present]
      omega
    · rfl

end FlatCache

namespace TuningCache

theorem loadCount {c : TuningCache} (ordered : c.document.Ordered) (p : KernelParams) (units : Nat) :
    (c.load p units).2.count = c.count := by
  have start := FlatCache.ofCacheMirrors ordered
  have moved := (FlatCache.loadSame start p units).2
  exact (FlatCache.countSame moved).symm.trans ((FlatCache.loadCount _ p units).trans (FlatCache.countSame start))

/-- Once a lookup has found an entry, every later one under the same key finds that entry, unless something was stored or
removed under that key in between. No lookup changes the number of entries. -/
theorem lookupsStable (c : TuningCache) (ordered : c.document.Ordered) :
    (∀ (clients : Nat → CacheClient) (turns : List Nat) (before between later : List (Nat × CacheCall × CacheReply))
        (i j : Nat) (p q : KernelParams) (units units' : Nat) (e : CacheEntry) (found : Option CacheEntry),
      operations.history clients turns (fun _ => []) c =
        before ++ (i, .load p units, .entry (some e)) :: between ++ (j, .load q units', .entry found) :: later →
      q.address units' = p.address units →
      (∀ turn ∈ between, turn.2.1.address? = some (p.address units) → turn.2.1.isLoad = true) → found = some e) ∧
    ∀ (p : KernelParams) (units : Nat), (c.load p units).2.count = c.count := by
  refine ⟨?_, loadCount ordered⟩
  intro clients turns before between later i j p q units units' e found seen same spared
  rw [List.append_assoc, List.cons_append] at seen
  obtain ⟨turns, replies, seen⟩ := CacheOperations.historyLater seen
  obtain ⟨hit, turns, replies, seen⟩ := CacheOperations.historyFirst seen
  have stands := (loadSettles _ p units).current.trans (CacheReply.entry.inj hit)
  obtain ⟨turns, replies, seen⟩ := CacheOperations.historyLater seen
  have kept := standsAfter (List.forall_mem_map.mpr spared) stands
  have settled : CacheDocument.Settled _ q units' (some e) :=
    ⟨CacheDocument.keySame.mpr same ▸ kept, fun none => nomatch none⟩
  have last := (CacheOperations.historyFirst seen).1
  change CacheReply.entry (load (operations.after _ (load _ p units).2) q units').1 = _ at last
  rw [loadOf settled] at last
  exact (CacheReply.entry.inj last).symm

theorem lookupsStableOfRivals :
    let p : KernelParams := ⟨.gatherTree, [], []⟩
    let q : KernelParams := ⟨.gatherTree, [], [.ofShape (.ofDims [1]) .i32 .plain]⟩
    let e : CacheEntry := ⟨"gather_tree_ref", 2⟩
    let c : TuningCache := ⟨⟨.empty, ⟨[("4", ⟨[(CacheDocument.olderHash p, e)]⟩)]⟩⟩, false, false⟩
    let clients : Nat → CacheClient
      | 0 => fun _ => .load p 4
      | _ => fun replies => if replies.isEmpty then .load q 4 else .remove q 4
    c.document.Ordered ∧ CacheDocument.olderHash q = CacheDocument.olderHash p ∧ ∃ found,
      operations.history clients [0, 1, 1, 0] (fun _ => []) c = [] ++ (0, .load p 4, .entry (some e)) ::
        [(1, .load q 4, .entry none), (1, .remove q 4, .removed false)] ++ (0, .load p 4, .entry found) :: [] ∧
      found = some e ∧ (c.load p 4).2.count = c.count := by
  intro p q e c clients
  have ordered : c.document.Ordered := ⟨Table.emptyOrdered _, List.pairwise_singleton _ _, fun e member => by
    cases List.mem_singleton.mp member
    exact ⟨List.pairwise_singleton _ _, fun _ _ => trivial⟩⟩
  have seen : operations.history clients [0, 1, 1, 0] (fun _ => []) c = [] ++ (0, .load p 4, .entry (some e)) ::
      [(1, .load q 4, .entry none), (1, .remove q 4, .removed false)] ++ (0, .load p 4, .entry (some e)) :: [] := by
    decide +kernel
  have others : q.address 4 ≠ p.address 4 := by decide +kernel
  obtain ⟨stable, counts⟩ := lookupsStable c ordered
  refine ⟨ordered, rfl, some e, seen, stable clients _ [] _ [] 0 0 p p 4 4 e _ seen rfl ?_, counts p 4⟩
  intro turn member own
  simp only [List.mem_cons, List.not_mem_nil, or_false] at member
  rcases member with rfl | rfl <;> exact absurd (Option.some.inj own) others

end TuningCache
end TensorPlan
