import TensorPlan.Dispatch.Params
import TensorPlan.Tuning.Table
/-! The tuning cache: which kernel was chosen for which parameters and number of compute units. Entries
stand under the units, the operator kind and the current hash. Older ones stand under the units and
the older hash; one that is found there moves to its current place. -/
namespace TensorPlan

structure CacheEntry where
  kernel : String
  config : Int
  deriving DecidableEq, Repr

namespace CacheEntry

def isDefault (e : CacheEntry) : Bool := decide (e.config < 0)

def index (e : CacheEntry) : Nat := e.config.toNat

def describe (e : CacheEntry) : String := Text.applied "CacheEntry" [Text.quoted e.kernel, toString e.config]

end CacheEntry

structure CacheDocument where
  current : Table (Table (Table CacheEntry))
  older : Table (Table CacheEntry)
  deriving DecidableEq, Repr

namespace CacheDocument

def empty : CacheDocument := ⟨.empty, .empty⟩

structure Key where
  units : String
  kind : String
  hash : String
  deriving DecidableEq, Repr

def keyOf (p : KernelParams) (units : Nat) : Key := ⟨toString units, p.kind.text, toString p.currentHash.toNat⟩

def olderHash (p : KernelParams) : String := toString p.olderHash.toNat

def get? (d : CacheDocument) (k : Key) : Option CacheEntry := do
  (← (← d.current.get? k.units).get? k.kind).get? k.hash

def getOlder? (d : CacheDocument) (units hash : String) : Option CacheEntry := do
  (← d.older.get? units).get? hash

def insert (d : CacheDocument) (k : Key) (e : CacheEntry) : CacheDocument :=
  let kinds := (d.current.get? k.units).getD .empty
  let hashes := (kinds.get? k.kind).getD .empty
  { d with current := d.current.insert k.units (kinds.insert k.kind (hashes.insert k.hash e)) }

def erase (d : CacheDocument) (k : Key) : CacheDocument :=
  match d.current.get? k.units with
  | none => d
  | some kinds =>
    let left :=
      match kinds.get? k.kind with
      | none => kinds
      | some hashes => kinds.insertUnlessEmpty k.kind (hashes.erase k.hash)
    { d with current := d.current.insertUnlessEmpty k.units left }

def eraseOlder (d : CacheDocument) (units hash : String) : CacheDocument :=
  match d.older.get? units with
  | none => d
  | some hashes => { d with older := d.older.insertUnlessEmpty units (hashes.erase hash) }

def total {α : Type} (size : α → Nat) (t : Table α) : Nat := (t.entries.map fun e => size e.2).foldl (· + ·) 0

def size {α : Type} (t : Table α) : Nat := t.entries.length

def count (d : CacheDocument) : Nat := total size d.older + total (total size) d.current

end CacheDocument

structure TuningCache where
  document : CacheDocument
  changed : Bool
  hasFile : Bool
  deriving DecidableEq, Repr

namespace TuningCache

def empty : TuningCache := ⟨.empty, false, false⟩

def count (c : TuningCache) : Nat := c.document.count

/-- The entry for the parameters. One found under the older hash moves to its current place. -/
def load (c : TuningCache) (p : KernelParams) (units : Nat) : Option CacheEntry × TuningCache :=
  let key := CacheDocument.keyOf p units
  match c.document.get? key with
  | some e => (some e, c)
  | none =>
    match c.document.getOlder? key.units (CacheDocument.olderHash p) with
    | none => (none, c)
    | some e =>
      let moved := (c.document.eraseOlder key.units (CacheDocument.olderHash p)).insert key e
      (some e, { c with document := moved, changed := true })

def maxConfig : Nat := pow2 63 - 1

def store (c : TuningCache) (p : KernelParams) (units : Nat) (kernel : String) (config : Nat) : TuningCache :=
  let entry : CacheEntry := ⟨kernel, ((min config maxConfig : Nat) : Int)⟩
  { c with document := c.document.insert (CacheDocument.keyOf p units) entry, changed := true }

def remove (c : TuningCache) (p : KernelParams) (units : Nat) : Bool × TuningCache :=
  let key := CacheDocument.keyOf p units
  let older := CacheDocument.olderHash p
  let found := (c.document.get? key).isSome || (c.document.getOlder? key.units older).isSome
  (found, { c with document := (c.document.erase key).eraseOlder key.units older, changed := c.changed || found })

end TuningCache
end TensorPlan
