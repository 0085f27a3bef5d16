import TensorPlan.Proofs.Computation
import TensorPlan.Proofs.Tuning.Table
import TensorPlan.Tuning.File
/-! Cache documents by their keys. Inserting and erasing change one entry, whichever tables appear and disappear on
the way, and a document counts what stands in it under all keys. -/
namespace TensorPlan.CacheDocument
variable {d : CacheDocument} {k k' : Key} {e : CacheEntry} {units units' hash hash' : String}

theorem getEq (d : CacheDocument) (k : Key) :
    d.get? k = (d.current.get? k.units).bind fun kinds => (kinds.get? k.kind).bind (·.get? k.hash) := rfl

theorem getInsert (d : CacheDocument) (k k' : Key) (e : CacheEntry) :
    (d.insert k e).get? k' = if k = k' then some e else d.get? k' := by
  obtain ⟨u, o, h⟩ := k
  obtain ⟨u', o', h'⟩ := k'
  rw [getEq, getEq, insert, Table.getInsert]
  by_cases units : u = u'
  · subst units
    rw [if_pos rfl, Option.bind_some, Table.getInsert, Table.getOrEmpty]
    by_cases kinds : o = o'
    · subst kinds
      rw [if_pos rfl, Option.bind_some, Table.getInsert, Table.getOrEmpty]
      simp [Option.bind_assoc]
    · simp [kinds, Table.getOrEmpty, Option.bind_assoc]
  · simp [units]

def currentWithout (d : CacheDocument) (k : Key) : Table (Table (Table CacheEntry)) :=
  match d.current.get? k.units with
  | none => d.current
  | some kinds => d.current.insertUnlessEmpty k.units (kinds.eraseIn k.kind k.hash)

theorem eraseEq (d : CacheDocument) (k : Key) : d.erase k = { d with current := d.currentWithout k } := by
  unfold erase currentWithout
  cases d.current.get? k.units with
  | none => rfl
  | some kinds =>
    dsimp only [Table.eraseIn]
    cases kinds.get? k.kind <;> rfl

theorem eraseOlderEq (d : CacheDocument) (units hash : String) :
    d.eraseOlder units hash = { d with older := d.older.eraseIn units hash } := by
  unfold eraseOlder Table.eraseIn
  cases d.older.get? units with
  | none => rfl
  | some hashes => rfl

theorem getErase (d : CacheDocument) (k k' : Key) : (d.erase k).get? k' = if k = k' then none else d.get? k' := by
  obtain ⟨u, o, h⟩ := k
  obtain ⟨u', o', h'⟩ := k'
  rw [getEq, getEq, eraseEq]
  unfold currentWithout
  cases found : d.current.get? u with
  | none =>
    dsimp only
    split
    · rename_i same
      cases same
      simp [found]
    · rfl
  | some kinds =>
    simp only [Table.bindUnlessEmpty d.current u u' _ (fun kinds => (kinds.get? o').bind (·.get? h')) rfl,
      Table.getEraseIn]
    by_cases units : u = u'
    · subst units
      simp [found]
    · simp [units]

theorem getOlderErase (d : CacheDocument) (units hash units' hash' : String) :
    (d.eraseOlder units hash).getOlder? units' hash' =
      if units = units' ∧ hash = hash' then none else d.getOlder? units' hash' := by
  rw [eraseOlderEq]
  exact Table.getEraseIn d.older units hash units' hash'

theorem getAfterOlder (d : CacheDocument) (units hash : String) (k : Key) : (d.eraseOlder units hash).get? k = d.get? k := by
  rw [eraseOlderEq]; rfl

theorem getOlderInsert (d : CacheDocument) (k : Key) (e : CacheEntry) (units hash : String) :
    (d.insert k e).getOlder? units hash = d.getOlder? units hash := rfl

theorem getOlderAfter (d : CacheDocument) (k : Key) (units hash : String) :
    (d.erase k).getOlder? units hash = d.getOlder? units hash := by
  rw [eraseEq]; rfl

structure Ordered (d : CacheDocument) : Prop where
  current : d.current.Ordered (Table.Ordered (Table.Ordered fun _ => True))
  older : d.older.Ordered (Table.Ordered fun _ => True)

structure Holds (property : CacheEntry → Prop) (d : CacheDocument) : Prop where
  current : d.current.Ordered (Table.Ordered (Table.Ordered property))
  older : d.older.Ordered (Table.Ordered property)

theorem orderedHolds : d.Ordered ↔ d.Holds fun _ => True :=
  ⟨fun ordered => ⟨ordered.current, ordered.older⟩, fun holds => ⟨holds.current, holds.older⟩⟩

theorem emptyHolds (property : CacheEntry → Prop) : empty.Holds property :=
  ⟨Table.emptyOrdered _, Table.emptyOrdered _⟩

section
variable {property : CacheEntry → Prop} (holds : d.Holds property)
include holds

theorem Holds.foundOlder (found : d.getOlder? units hash = some e) : property e := by
  obtain ⟨hashes, ofUnits, own⟩ := Option.bind_eq_some_iff.mp found
  exact Table.getEach (Table.getEach holds.older ofUnits) own

theorem Holds.ordered : d.Ordered where
  current := holds.current.imp fun _ kinds => kinds.imp fun _ hashes => hashes.imp fun _ _ => trivial
  older := holds.older.imp fun _ hashes => hashes.imp fun _ _ => trivial

theorem Holds.insert (k : Key) (own : property e) : (d.insert k e).Holds property := by
  have kinds := holds.current.getOrEmpty (Table.emptyOrdered _) k.units
  have hashes := kinds.getOrEmpty (Table.emptyOrdered _) k.kind
  exact ⟨holds.current.insert (kinds.insert (hashes.insert own)), holds.older⟩

theorem Holds.erase (k : Key) : (d.erase k).Holds property := by
  rw [eraseEq]
  refine ⟨?_, holds.older⟩
  unfold currentWithout
  cases found : d.current.get? k.units with
  | none => exact holds.current
  | some kinds => exact holds.current.insertUnlessEmpty ((Table.getEach holds.current found).eraseIn k.kind k.hash)

theorem Holds.eraseOlder (units hash : String) : (d.eraseOlder units hash).Holds property := by
  rw [eraseOlderEq]
  exact ⟨holds.current, holds.older.eraseIn units hash⟩

end

section
variable (ordered : d.Ordered)
include ordered

theorem Ordered.insert (k : Key) (e : CacheEntry) : (d.insert k e).Ordered :=
  ((orderedHolds.mp ordered).insert k trivial).ordered

theorem Ordered.erase (k : Key) : (d.erase k).Ordered := ((orderedHolds.mp ordered).erase k).ordered

theorem Ordered.eraseOlder (units hash : String) : (d.eraseOlder units hash).Ordered :=
  ((orderedHolds.mp ordered).eraseOlder units hash).ordered

end

def currentPairs (d : CacheDocument) : List ((String × String × String) × CacheEntry) :=
  d.current.pairs (Table.pairs Table.entries)

def olderPairs (d : CacheDocument) : List ((String × String) × CacheEntry) := d.older.pairs Table.entries

theorem countPairs (d : CacheDocument) : d.count = d.currentPairs.length + d.olderPairs.length := by
  have inner : total size = fun kinds : Table (Table CacheEntry) => (kinds.pairs Table.entries).length :=
    funext fun kinds => (Table.pairsLength Table.entries kinds).symm
  rw [count, currentPairs, olderPairs, Table.pairsLength, Table.pairsLength, Nat.add_comm]
  exact congrArg (fun size' => total size' d.current + total size d.older) inner

section
variable (ordered : d.Ordered)
include ordered

theorem memCurrent {k : String × String × String} : (k, e) ∈ d.currentPairs ↔ d.get? ⟨k.1, k.2.1, k.2.2⟩ = some e :=
  Table.memPairs ordered.current fun _ kinds _ _ => Table.memPairs kinds fun _ hashes _ _ => Table.memGet hashes

theorem memOlder {k : String × String} : (k, e) ∈ d.olderPairs ↔ d.getOlder? k.1 k.2 = some e :=
  Table.memPairs ordered.older fun _ hashes _ _ => Table.memGet hashes

theorem currentNodup : (d.currentPairs.map Prod.fst).Nodup :=
  Table.pairsNodup ordered.current fun _ kinds => Table.pairsNodup kinds fun _ => Table.keysNodup

theorem olderNodup : (d.olderPairs.map Prod.fst).Nodup := Table.pairsNodup ordered.older fun _ => Table.keysNodup

end

end TensorPlan.CacheDocument

namespace TensorPlan

theorem Table.ofListOrdered {α : Type} (entries : List (String × α)) : (ofList entries).Ordered fun _ => True := by
  suffices ∀ t : Table α, t.Ordered (fun _ => True) →
      (entries.foldl (fun t e => t.insert e.1 e.2) t).Ordered fun _ => True from this _ (emptyOrdered _)
  induction entries with
  | nil => exact fun t ordered => ordered
  | cons e entries ih => exact fun t ordered => ih _ (ordered.insert trivial)

theorem Table.readSorted {α : Type} {read : Json → Option α} {es : List (String × Json)} {out : List (String × α)}
    (ok : collect (fun e => do some (e.1, ← read e.2)) es = some out) :
    out.map Prod.fst = es.map Prod.fst ∧ ∀ e ∈ out, ∃ j, read j = some e.2 := by
  induction es generalizing out with
  | nil => cases ok; exact ⟨rfl, fun _ member => nomatch member⟩
  | cons e es ih =>
    simp only [collect, Option.bind_eq_bind, Option.bind_eq_some_iff] at ok
    obtain ⟨_, ⟨v, own, first⟩, rest, others, last⟩ := ok
    cases first
    cases last
    obtain ⟨keys, each⟩ := ih others
    refine ⟨congrArg (e.1 :: ·) keys, fun e' member => ?_⟩
    obtain rfl | later := List.mem_cons.mp member
    · exact ⟨e.2, own⟩
    · exact each e' later

theorem Table.ofJsonOrdered {α : Type} {read : Json → Option α} {property : α → Prop}
    (own : ∀ j v, read j = some v → property v) {j : Json} {t : Table α} (ok : ofJson? read j = some t) :
    t.Ordered property := by
  simp only [ofJson?, Option.bind_eq_bind, Option.bind_eq_some_iff] at ok
  obtain ⟨members, tabled, out, collected, last⟩ := ok
  cases last
  obtain ⟨keys, each⟩ := readSorted collected
  have sorted : members.entries.Pairwise fun a b => a.1 < b.1 := by
    cases j <;> simp only [Json.table?, Option.map_eq_some_iff, reduceCtorEq] at tabled
    obtain ⟨_, _, rfl⟩ := tabled
    exact (ofListOrdered _).sorted
  constructor
  · rw [← List.pairwise_map (f := Prod.fst) (R := (· < ·)), keys, List.pairwise_map]
    exact sorted
  · intro e member
    obtain ⟨j, found⟩ := each e member
    exact own j e.2 found

namespace CacheDocument

theorem partOrdered {α : Type} {property : Table α → Prop} {read : Json → Option (Table α)}
    (own : ∀ j t, read j = some t → property t) (bare : property .empty) {o : Option Json} {t : Table α}
    (ok : partOf read o = some t) : property t := by
  cases o with
  | none => cases ok; exact bare
  | some j => exact own j t ok

section
variable {property : CacheEntry → Prop} (own : ∀ j e, CacheEntry.ofJson? j = some e → property e)
include own

theorem olderOrdered (j : Json) (t : Table (Table CacheEntry)) (ok : older? j = some t) :
    t.Ordered (Table.Ordered property) := Table.ofJsonOrdered (fun _ _ => Table.ofJsonOrdered own) ok

theorem currentOrdered (j : Json) (t : Table (Table (Table CacheEntry))) (ok : current? j = some t) :
    t.Ordered (Table.Ordered (Table.Ordered property)) := Table.ofJsonOrdered (olderOrdered own) ok

theorem ofJsonHolds {j : Json} {d : CacheDocument} {present : Bool} (ok : ofJson? j = some (d, present)) :
    d.Holds property := by
  simp only [ofJson?] at ok
  split at ok
  · simp only [Option.bind_eq_bind, Option.bind_eq_some_iff] at ok
    obtain ⟨older, read, last⟩ := ok
    cases last
    exact ⟨Table.emptyOrdered _, olderOrdered own _ _ read⟩
  · simp only [Option.bind_eq_bind, Option.bind_eq_some_iff] at ok
    obtain ⟨current, read, older, read', last⟩ := ok
    cases last
    exact ⟨partOrdered (currentOrdered own) (Table.emptyOrdered _) read,
      partOrdered (olderOrdered own) (Table.emptyOrdered _) read'⟩

end
end CacheDocument

namespace TuningCache
variable {property : CacheEntry → Prop} (own : ∀ j e, CacheEntry.ofJson? j = some e → property e) {c : TuningCache}
include own

theorem ofTextHolds {s : String} (ok : ofText s = .ok c) : c.document.Holds property := by
  obtain ⟨j, _, read⟩ := Option.bind_eq_some_iff.mp (Result.ofOptionOk.mp ok)
  simp only [ofJson?, Option.bind_eq_bind] at read
  split at read
  · obtain ⟨⟨document, present⟩, found, last⟩ := Option.bind_eq_some_iff.mp read
    cases last
    exact CacheDocument.ofJsonHolds own found
  · cases read

theorem ofFileHolds {f : File} (ok : ofFile f = .ok c) : c.document.Holds property := by
  unfold ofFile at ok
  split at ok
  · cases ok
    exact CacheDocument.emptyHolds property
  · obtain ⟨read, text, last⟩ := Result.bindOk.mp ok
    have holds := ofTextHolds own text
    cases last
    exact holds

end TuningCache
end TensorPlan
