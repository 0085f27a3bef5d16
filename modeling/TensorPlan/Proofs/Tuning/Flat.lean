import Mathlib.Data.Finmap
import TensorPlan.Proofs.Tuning.Document
/-! The tuning cache is two flat maps. Clients take turns, each call is a step of its own, and what a client calls may
depend on all replies that it got. No client ever gets another reply than from the flat maps. -/
namespace TensorPlan

inductive CacheCall where
  | load (p : KernelParams) (units : Nat)
  | store (p : KernelParams) (units : Nat) (kernel : String) (config : Nat)
  | remove (p : KernelParams) (units : Nat)
  | count
  | changed
  deriving DecidableEq

inductive CacheReply where
  | entry (found : Option CacheEntry)
  | stored
  | removed (found : Bool)
  | count (n : Nat)
  | changed (b : Bool)
  deriving DecidableEq

structure CacheOperations (State : Type) where
  load : State → KernelParams → Nat → Option CacheEntry × State
  store : State → KernelParams → Nat → String → Nat → State
  remove : State → KernelParams → Nat → Bool × State
  count : State → Nat
  changed : State → Bool

abbrev CacheClient := List CacheReply → CacheCall

namespace CacheOperations
variable {State Other : Type}

def answer (o : CacheOperations State) (s : State) : CacheCall → CacheReply × State
  | .load p units => ((o.load s p units).map CacheReply.entry id)
  | .store p units kernel config => (.stored, o.store s p units kernel config)
  | .remove p units => ((o.remove s p units).map CacheReply.removed id)
  | .count => (.count (o.count s), s)
  | .changed => (.changed (o.changed s), s)

def history (o : CacheOperations State) (clients : Nat → CacheClient) :
    List Nat → (Nat → List CacheReply) → State → List (Nat × CacheCall × CacheReply)
  | [], _, _ => []
  | i :: turns, replies, s =>
    let call := clients i (replies i)
    let (reply, s) := o.answer s call
    (i, call, reply) :: o.history clients turns (Function.update replies i (replies i ++ [reply])) s

theorem historyAsked {o : CacheOperations State} {other : CacheOperations Other} {related : State → Other → Prop}
    {asked : CacheCall → Prop} (step : ∀ s t call, asked call → related s t →
      (o.answer s call).1 = (other.answer t call).1 ∧ related (o.answer s call).2 (other.answer t call).2)
    {clients : Nat → CacheClient} (asks : ∀ i replies, asked (clients i replies)) (turns : List Nat)
    (replies : Nat → List CacheReply) {s : State} {t : Other} (start : related s t) :
    o.history clients turns replies s = other.history clients turns replies t := by
  induction turns generalizing replies s t with
  | nil => rfl
  | cons i turns ih =>
    obtain ⟨same, next⟩ := step s t (clients i (replies i)) (asks i (replies i)) start
    simp only [history, same, ih _ next]

theorem historySame {o : CacheOperations State} {other : CacheOperations Other} {related : State → Other → Prop}
    (step : ∀ s t call, related s t →
      (o.answer s call).1 = (other.answer t call).1 ∧ related (o.answer s call).2 (other.answer t call).2)
    (clients : Nat → CacheClient) (turns : List Nat) (replies : Nat → List CacheReply) {s : State} {t : Other}
    (start : related s t) : o.history clients turns replies s = other.history clients turns replies t :=
  historyAsked (fun s t call (_ : True) => step s t call) (fun _ _ => trivial) turns replies start

end CacheOperations

def TuningCache.operations : CacheOperations TuningCache := ⟨load, store, remove, count, changed⟩

structure FlatCache where
  current : Finmap fun _ : String × String × String => CacheEntry
  older : Finmap fun _ : String × String => CacheEntry
  changed : Bool

namespace FlatCache

def currentKey (p : KernelParams) (units : Nat) : String × String × String :=
  (toString units, p.kind.text, toString p.currentHash.toNat)

def olderKey (p : KernelParams) (units : Nat) : String × String := (toString units, toString p.olderHash.toNat)

def load (c : FlatCache) (p : KernelParams) (units : Nat) : Option CacheEntry × FlatCache :=
  match c.current.lookup (currentKey p units) with
  | some e => (some e, c)
  | none =>
    match c.older.lookup (olderKey p units) with
    | some e => (some e, ⟨c.current.insert (currentKey p units) e, c.older.erase (olderKey p units), true⟩)
    | none => (none, c)

def store (c : FlatCache) (p : KernelParams) (units : Nat) (kernel : String) (config : Nat) : FlatCache :=
  { c with current := c.current.insert (currentKey p units) ⟨kernel, (min config TuningCache.maxConfig : Nat)⟩,
           changed := true }

def remove (c : FlatCache) (p : KernelParams) (units : Nat) : Bool × FlatCache :=
  let found := decide (currentKey p units ∈ c.current ∨ olderKey p units ∈ c.older)
  (found, ⟨c.current.erase (currentKey p units), c.older.erase (olderKey p units), c.changed || found⟩)

def count (c : FlatCache) : Nat := c.current.keys.card + c.older.keys.card

def operations : CacheOperations FlatCache := ⟨load, store, remove, count, changed⟩

def ofCache (c : TuningCache) : FlatCache where
  current := (c.document.currentPairs.map Prod.toSigma).toFinmap
  older := (c.document.olderPairs.map Prod.toSigma).toFinmap
  changed := c.changed

end FlatCache

section
variable {κ β : Type} [DecidableEq κ]

theorem lookupInsert (m : Finmap fun _ : κ => β) (k k' : κ) (b : β) :
    (m.insert k b).lookup k' = if k = k' then some b else m.lookup k' := by
  by_cases same : k = k'
  · rw [if_pos same, ← same, Finmap.lookup_insert]
  · rw [if_neg same, Finmap.lookup_insert_of_ne _ (Ne.symm same)]

theorem lookupErase (m : Finmap fun _ : κ => β) (k k' : κ) :
    (m.erase k).lookup k' = if k = k' then none else m.lookup k' := by
  by_cases same : k = k'
  · rw [if_pos same, ← same, Finmap.lookup_erase]
  · rw [if_neg same, Finmap.lookup_erase_ne (Ne.symm same)]

variable {pairs : List (κ × β)} (nodup : (pairs.map Prod.fst).Nodup)
include nodup

theorem lookupPairs {k : κ} {b : β} : (pairs.map Prod.toSigma).toFinmap.lookup k = some b ↔ (k, b) ∈ pairs := by
  have keys : (pairs.map Prod.toSigma).NodupKeys := by
    rw [List.NodupKeys, List.keys, List.map_map]
    exact nodup
  rw [Finmap.dlookup_list_toFinmap, ← Option.mem_def, List.mem_dlookup_iff keys, List.mem_map]
  constructor
  · rintro ⟨x, member, same⟩
    cases same
    exact member
  · exact fun member => ⟨(k, b), member, rfl⟩

theorem cardPairs {m : Finmap fun _ : κ => β} (same : ∀ k b, (k, b) ∈ pairs ↔ m.lookup k = some b) :
    m.keys.card = pairs.length := by
  have keys : m.keys = (pairs.map Prod.fst).toFinset := by
    ext k
    simp [Finmap.mem_keys, Finmap.mem_iff, ← same]
  rw [keys, List.toFinset_card_of_nodup nodup, List.length_map]

end

structure FlatCache.Mirrors (flat : FlatCache) (c : TuningCache) : Prop where
  ordered : c.document.Ordered
  current : ∀ k, flat.current.lookup k = c.document.get? ⟨k.1, k.2.1, k.2.2⟩
  older : ∀ k, flat.older.lookup k = c.document.getOlder? k.1 k.2
  changed : flat.changed = c.changed

namespace FlatCache
variable {flat : FlatCache} {c : TuningCache} {p : KernelParams} {units : Nat}

theorem keySame {k : String × String × String} :
    currentKey p units = k ↔ CacheDocument.keyOf p units = ⟨k.1, k.2.1, k.2.2⟩ := by
  obtain ⟨u, o, h⟩ := k
  simp [currentKey, CacheDocument.keyOf]

theorem olderSame {k : String × String} :
    olderKey p units = k ↔ toString units = k.1 ∧ CacheDocument.olderHash p = k.2 := by
  obtain ⟨u, h⟩ := k
  simp [olderKey, CacheDocument.olderHash]

theorem ofCacheMirrors (ordered : c.document.Ordered) : (ofCache c).Mirrors c where
  ordered := ordered
  current _ := Option.ext fun _ => (lookupPairs (CacheDocument.currentNodup ordered)).trans (CacheDocument.memCurrent ordered)
  older _ := Option.ext fun _ => (lookupPairs (CacheDocument.olderNodup ordered)).trans (CacheDocument.memOlder ordered)
  changed := rfl

section
variable (mirrors : flat.Mirrors c)
include mirrors

theorem countSame : flat.count = c.count := by
  have current := cardPairs (CacheDocument.currentNodup mirrors.ordered) fun k e => by
    rw [mirrors.current]; exact CacheDocument.memCurrent mirrors.ordered
  have older := cardPairs (CacheDocument.olderNodup mirrors.ordered) fun k e => by
    rw [mirrors.older]; exact CacheDocument.memOlder mirrors.ordered
  rw [count, TuningCache.count, CacheDocument.countPairs, current, older]

theorem currentSame (p : KernelParams) (units : Nat) :
    flat.current.lookup (currentKey p units) = c.document.get? (CacheDocument.keyOf p units) := mirrors.current _

theorem olderEntrySame (p : KernelParams) (units : Nat) : flat.older.lookup (olderKey p units) =
    c.document.getOlder? (CacheDocument.keyOf p units).units (CacheDocument.olderHash p) := mirrors.older _

theorem storeSame (p : KernelParams) (units : Nat) (kernel : String) (config : Nat) :
    (flat.store p units kernel config).Mirrors (c.store p units kernel config) where
  ordered := mirrors.ordered.insert _ _
  current k := by
    simp only [store, TuningCache.store, lookupInsert, CacheDocument.getInsert, keySame, mirrors.current]
  older := mirrors.older
  changed := rfl

theorem loadSame (p : KernelParams) (units : Nat) :
    (flat.load p units).1 = (c.load p units).1 ∧ (flat.load p units).2.Mirrors (c.load p units).2 := by
  unfold load TuningCache.load
  dsimp only
  rw [currentSame mirrors, olderEntrySame mirrors]
  cases c.document.get? (CacheDocument.keyOf p units) with
  | some e => exact ⟨rfl, mirrors⟩
  | none =>
    cases c.document.getOlder? (CacheDocument.keyOf p units).units (CacheDocument.olderHash p) with
    | none => exact ⟨rfl, mirrors⟩
    | some e =>
      refine ⟨rfl, (mirrors.ordered.eraseOlder _ _).insert _ _, fun k => ?_, fun k => ?_, rfl⟩
      · simp only [lookupInsert, CacheDocument.getInsert, CacheDocument.getAfterOlder, mirrors.current, keySame]
      · rw [CacheDocument.getOlderInsert, lookupErase, CacheDocument.getOlderErase, mirrors.older]
        exact if_congr olderSame rfl rfl

theorem removeSame (p : KernelParams) (units : Nat) :
    (flat.remove p units).1 = (c.remove p units).1 ∧ (flat.remove p units).2.Mirrors (c.remove p units).2 := by
  have found : (flat.remove p units).1 = (c.remove p units).1 := by
    unfold remove TuningCache.remove
    dsimp only
    rw [← currentSame mirrors, ← olderEntrySame mirrors, Bool.eq_iff_iff]
    simp [Finmap.lookup_isSome]
  refine ⟨found, (mirrors.ordered.erase _).eraseOlder _ _, fun k => ?_, fun k => ?_, ?_⟩
  · simp only [remove, TuningCache.remove, lookupErase, CacheDocument.getErase, CacheDocument.getAfterOlder, mirrors.current,
      keySame]
  · simp only [remove, TuningCache.remove, lookupErase, CacheDocument.getOlderErase, CacheDocument.getOlderAfter,
      mirrors.older]
    exact if_congr olderSame rfl rfl
  · exact congr (congrArg Bool.or mirrors.changed) found

end

theorem answerSame (flat : FlatCache) (c : TuningCache) (call : CacheCall) (mirrors : flat.Mirrors c) :
    (operations.answer flat call).1 = (TuningCache.operations.answer c call).1 ∧
      (operations.answer flat call).2.Mirrors (TuningCache.operations.answer c call).2 := by
  cases call with
  | load p units =>
    obtain ⟨same, next⟩ := loadSame mirrors p units
    exact ⟨congrArg CacheReply.entry same, next⟩
  | store p units kernel config => exact ⟨rfl, storeSame mirrors p units kernel config⟩
  | remove p units =>
    obtain ⟨same, next⟩ := removeSame mirrors p units
    exact ⟨congrArg CacheReply.removed same, next⟩
  | count => exact ⟨congrArg CacheReply.count (countSame mirrors), mirrors⟩
  | changed => exact ⟨congrArg CacheReply.changed mirrors.changed, mirrors⟩

end FlatCache

theorem TuningCache.historyFlat (c : TuningCache) (ordered : c.document.Ordered) (clients : Nat → CacheClient)
    (turns : List Nat) : operations.history clients turns (fun _ => []) c =
      FlatCache.operations.history clients turns (fun _ => []) (.ofCache c) := by
  refine (CacheOperations.historySame ?_ clients turns _ (FlatCache.ofCacheMirrors ordered)).symm
  exact fun flat c call mirrors => FlatCache.answerSame flat c call mirrors

theorem TuningCache.historyFlatOfMove :
    let p : KernelParams := ⟨.gatherTree, [], []⟩
    let older : Table CacheEntry := ⟨[(CacheDocument.olderHash p, ⟨"gather_tree_ref", 2⟩)]⟩
    let c : TuningCache := ⟨⟨.empty, ⟨[("4", older)]⟩⟩, false, false⟩
    let clients : Nat → CacheClient
      | 0 => fun replies => if replies.isEmpty then .load p 4 else .changed
      | _ => fun replies => if replies.isEmpty then .remove p 4 else .count
    c.document.Ordered ∧ operations.history clients [0, 1, 0, 1] (fun _ => []) c =
      FlatCache.operations.history clients [0, 1, 0, 1] (fun _ => []) (.ofCache c) := by
  intro p older c clients
  have ordered : c.document.Ordered := ⟨Table.emptyOrdered _, List.pairwise_singleton _ _, fun e member => by
    cases List.mem_singleton.mp member
    exact ⟨List.pairwise_singleton _ _, fun _ _ => trivial⟩⟩
  exact ⟨ordered, historyFlat c ordered clients [0, 1, 0, 1]⟩

end TensorPlan
