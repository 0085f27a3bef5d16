import TensorPlan.Proofs.Json.Written
import TensorPlan.Proofs.Numeric.Finite
import TensorPlan.Proofs.Tuning.Stability
/-! Caches that are saved and read again. Every entry comes back in the part where it stood, so nobody who goes on with
the cache that was read can tell it from the one that was saved. -/
namespace TensorPlan

namespace Table
variable {α : Type} {t : Table α} {property : α → Prop}

theorem placeLast {key : String} (v : α) {es : List (String × α)} (after : ∀ e ∈ es, e.1 < key) :
    place key v es = es ++ [(key, v)] := by
  induction es with
  | nil => rfl
  | cons e es ih =>
    have below := after e List.mem_cons_self
    have last := ih fun e later => after e (List.mem_cons_of_mem _ later)
    rw [place, if_neg (ne_of_lt below), if_neg (lt_asymm below), last]
    rfl

theorem ofListSorted {es : List (String × α)} (sorted : es.Pairwise fun a b => a.1 < b.1) : ofList es = ⟨es⟩ := by
  induction es using List.reverseRecOn with
  | nil => rfl
  | append_singleton es e ih =>
    obtain ⟨front, -, last⟩ := List.pairwise_append.mp sorted
    have after := placeLast e.2 fun first member => last first member e List.mem_cons_self
    rw [ofList, List.foldl_append, ← ofList, ih front]
    exact congrArg mk after

theorem namedFields (write : α → Json) (es : List (String × α)) :
    Json.namedMembers? (es.map fun e => Json.field e.1 (write e.2)) = some (es.map fun e => (e.1, write e.2)) := by
  induction es with
  | nil => rfl
  | cons e es ih =>
    rw [Json.namedMembers?] at ih
    rw [Json.namedMembers?, List.map_cons, List.foldr_cons, ih]
    rfl

section
variable (ordered : t.Ordered property) {write : α → Json}
include ordered

theorem tableWritten (write : α → Json) :
    (t.toJson write).table? = some ⟨t.entries.map fun e => (e.1, write e.2)⟩ := by
  have sorted : (t.entries.map fun e => (e.1, write e.2)).Pairwise fun a b => a.1 < b.1 :=
    List.pairwise_map.mpr ordered.sorted
  rw [toJson, Json.table?, namedFields, Option.map_some, ofListSorted sorted]

theorem readWritten {read : Json → Option α} (own : ∀ v, property v → read (write v) = some v) :
    ofJson? read (t.toJson write) = some t := by
  have entries : collect (fun e => do some (e.1, ← read e.2)) (t.entries.map fun e => (e.1, write e.2)) =
      some t.entries := collectMapped fun e member => by simp [own e.2 (ordered.each e member)]
  rw [ofJson?, tableWritten ordered, Option.bind_eq_bind, Option.bind_some, entries]
  rfl

theorem writtenData {depth : Nat} (own : ∀ v, property v → (write v).isData depth = true) :
    (t.toJson write).isData (depth + 1) = true := by
  obtain ⟨es⟩ := t
  have each := ordered.each
  clear ordered
  rw [toJson, Json.isData]
  dsimp only at each ⊢
  induction es with
  | nil => rfl
  | cons e es ih =>
    have rest := ih fun e later => each e (List.mem_cons_of_mem _ later)
    rw [List.map_cons, Json.membersAreData, rest]
    simp [Json.field, own e.2 (each e List.mem_cons_self)]

end
end Table

def CacheEntry.Fits (e : CacheEntry) : Prop := -(pow2 63 : Nat) ≤ e.config ∧ e.config < (pow2 63 : Nat)

namespace CacheEntry
variable {e : CacheEntry}

theorem readWritten (fits : e.Fits) : ofJson? e.toJson = some e := by
  have config : (Json.int e.config).int64? = some e.config := if_pos fits
  rw [toJson, ofJson?, config]
  rfl

theorem writtenData (fits : e.Fits) (depth : Nat) : e.toJson.isData (depth + 1) = true := by
  have word : e.config.natAbs < 2 ^ 64 := by
    obtain ⟨low, high⟩ := fits
    rw [pow2Eq] at low high
    omega
  have finite := Binary.finiteInt word
  simp [toJson, Json.isData, Json.areData, Json.text, Json.int, JsonNumber.isFinite, finite]

theorem readFits (j : Json) (e : CacheEntry) (ok : ofJson? j = some e) : e.Fits := by
  unfold ofJson? at ok
  split at ok
  · simp only [Json.int64?, Option.bind_eq_bind, Option.bind_eq_some_iff] at ok
    obtain ⟨kernel, _, config, ⟨v, _, own⟩, last⟩ := ok
    cases last
    split at own
    · rename_i word
      cases own
      exact word
    · cases own
  · cases ok

end CacheEntry

namespace CacheDocument
variable {d : CacheDocument}

def currentJson (d : CacheDocument) : Json := Table.toJson (Table.toJson (Table.toJson CacheEntry.toJson)) d.current

def olderJson (d : CacheDocument) : Json := Table.toJson (Table.toJson CacheEntry.toJson) d.older

theorem partsWritten (d : CacheDocument) :
    (d.toJson.table?.getD .empty).get? "version_2" = (if d.current.isEmpty then none else some d.currentJson) ∧
      (d.toJson.table?.getD .empty).get? "version_1" = if d.older.isEmpty then none else some d.olderJson := by
  rw [toJson, ← currentJson, ← olderJson]
  have bare (key : String) : (Table.empty : Table Json).get? key = none := rfl
  cases d.current.isEmpty <;> cases d.older.isEmpty <;>
    simp [Json.table?, Json.namedMembers?, Json.field, Table.ofList, Table.getInsert, bare]

section
variable (fits : d.Holds CacheEntry.Fits)
include fits

theorem currentRead : current? d.currentJson = some d.current :=
  Table.readWritten fits.current fun _ kinds => Table.readWritten kinds fun _ hashes =>
    Table.readWritten hashes fun _ => CacheEntry.readWritten

theorem olderRead : older? d.olderJson = some d.older :=
  Table.readWritten fits.older fun _ hashes => Table.readWritten hashes fun _ => CacheEntry.readWritten

theorem readWritten : ofJson? d.toJson = some (d, !(d.current.isEmpty && d.older.isEmpty)) := by
  have current := currentRead fits
  have older := olderRead fits
  rw [ofJson?, (partsWritten d).1, (partsWritten d).2]
  obtain ⟨⟨currents⟩, ⟨olders⟩⟩ := d
  cases currents with
  | nil =>
    cases olders with
    | nil => rfl
    | cons o os => simp [Table.isEmpty, Table.empty, partOf, older]
  | cons c cs =>
    cases olders with
    | nil => simp [Table.isEmpty, Table.empty, partOf, current]
    | cons o os => simp [Table.isEmpty, partOf, current, older]

theorem writtenData : d.toJson.isData Json.maxDepth = true := by
  have current : d.currentJson.isData 126 = true :=
    Table.writtenData fits.current fun _ kinds => Table.writtenData kinds fun _ hashes =>
      Table.writtenData hashes fun _ entry => CacheEntry.writtenData entry 122
  have older : d.olderJson.isData 126 = true :=
    Table.writtenData fits.older fun _ hashes => Table.writtenData hashes fun _ entry =>
      CacheEntry.writtenData entry 123
  rw [toJson, ← currentJson, ← olderJson, Json.maxDepth, Json.isData]
  cases d.current.isEmpty <;> cases d.older.isEmpty <;> simp [Json.membersAreData, Json.field, current, older]

end
end CacheDocument

namespace TuningCache
variable {c : TuningCache}

theorem ofTextWritten (fits : c.document.Holds CacheEntry.Fits) :
    ofText c.toText = .ok ⟨c.document, c.document.current.isEmpty && c.document.older.isEmpty, false⟩ := by
  have data := CacheDocument.writtenData fits
  have text := Json.parseWritten .indented data
  rw [ofText, toText, Json.pretty, text, Option.bind_some, ofJson?, if_pos data, CacheDocument.readWritten fits]
  simp

theorem ofTextFits {s : String} (ok : ofText s = .ok c) : c.document.Holds CacheEntry.Fits :=
  ofTextHolds CacheEntry.readFits ok

theorem countEmpty (current : c.document.current.isEmpty = true) (older : c.document.older.isEmpty = true) :
    c.count = 0 := by
  obtain ⟨⟨⟨currents⟩, ⟨olders⟩⟩, changed, hasFile⟩ := c
  cases currents with
  | cons kinds currents => cases current
  | nil =>
    cases olders with
    | cons hashes olders => cases older
    | nil => rfl

theorem answerByDocument {c c' : TuningCache} {call : CacheCall} (asked : call ≠ .changed)
    (same : c.document = c'.document) : (operations.answer c call).1 = (operations.answer c' call).1 ∧
      (operations.answer c call).2.document = (operations.answer c' call).2.document := by
  obtain ⟨d, changed, hasFile⟩ := c
  obtain ⟨d', changed', hasFile'⟩ := c'
  obtain rfl : d = d' := same
  cases call with
  | load p units =>
    simp only [CacheOperations.answer, operations, Prod.map_fst, Prod.map_snd, load]
    cases d.get? (CacheDocument.keyOf p units) with
    | some e => exact ⟨rfl, rfl⟩
    | none =>
      cases d.getOlder? (CacheDocument.keyOf p units).units (CacheDocument.olderHash p) <;> exact ⟨rfl, rfl⟩
  | store p units kernel config => exact ⟨rfl, rfl⟩
  | remove p units => exact ⟨rfl, rfl⟩
  | count => exact ⟨rfl, rfl⟩
  | changed => exact absurd rfl asked

theorem storedFits (kernel : String) (config : Nat) : CacheEntry.Fits ⟨kernel, (min config maxConfig : Nat)⟩ := by
  rw [CacheEntry.Fits, maxConfig, pow2Eq]
  dsimp only
  omega

theorem answerFits (fits : c.document.Holds CacheEntry.Fits) (call : CacheCall) :
    (operations.answer c call).2.document.Holds CacheEntry.Fits := by
  cases call with
  | load p units =>
    change (c.load p units).2.document.Holds CacheEntry.Fits
    unfold load
    dsimp only
    split
    · exact fits
    · split
      · exact fits
      · rename_i e found
        exact (fits.eraseOlder _ _).insert _ (fits.foundOlder found)
  | store p units kernel config => exact fits.insert _ (storedFits kernel config)
  | remove p units => exact (fits.erase _).eraseOlder _ _
  | count => exact fits
  | changed => exact fits

theorem afterFits (fits : c.document.Holds CacheEntry.Fits) (calls : List CacheCall) :
    (operations.after calls c).document.Holds CacheEntry.Fits :=
  CacheOperations.afterKeeps (fun c : TuningCache => c.document.Holds CacheEntry.Fits)
    (fun call _ _ fits => answerFits fits call) fits

/-- What is read back holds the same entries in the same places, needs no saving if there are any, and answers every
client as the cache that was saved would. -/
theorem reloadSame (c : TuningCache) (fits : c.document.Holds CacheEntry.Fits) :
    ∃ reloaded, ofText c.toText = .ok reloaded ∧ reloaded.document = c.document ∧
      (0 < c.count → reloaded.changed = false) ∧
      ∀ clients : Nat → CacheClient, (∀ i replies, clients i replies ≠ .changed) → ∀ turns,
        operations.history clients turns (fun _ => []) reloaded = operations.history clients turns (fun _ => []) c := by
  refine ⟨_, ofTextWritten fits, rfl, fun holds => ?_, fun clients asks turns => ?_⟩
  · rw [Bool.and_eq_false_imp]
    intro current
    by_contra older
    exact absurd (countEmpty current (Bool.eq_true_of_not_eq_false older)) (Nat.ne_of_gt holds)
  · exact CacheOperations.historyAsked (fun s t call => answerByDocument) asks turns _ rfl

theorem reloadSameOfBothParts :
    let p : KernelParams := ⟨.gatherTree, [], []⟩
    let q : KernelParams := ⟨.gatherTree, [], [.ofShape (.ofDims [1]) .i32 .plain]⟩
    let older : Table CacheEntry := ⟨[("", ⟨"", -3⟩), (CacheDocument.olderHash p, ⟨"gather_tree_ref", 2⟩)]⟩
    let c := operations.after [.store q 4 "\x01 a \"name\"\n\\ π" 7] ⟨⟨.empty, ⟨[("4", older)]⟩⟩, false, false⟩
    let clients : Nat → CacheClient
      | 0 => fun replies => if replies.isEmpty then .load p 4 else .count
      | _ => fun _ => .remove q 4
    c.document.Holds CacheEntry.Fits ∧ 0 < c.count ∧ (∀ i replies, clients i replies ≠ .changed) ∧
      ∃ reloaded, ofText c.toText = .ok reloaded ∧ reloaded.document = c.document ∧ reloaded.changed = false ∧
        operations.history clients [0, 1, 0] (fun _ => []) reloaded =
          operations.history clients [0, 1, 0] (fun _ => []) c := by
  intro p q older c clients
  have fits : c.document.Holds CacheEntry.Fits := by
    refine afterFits ⟨Table.emptyOrdered _, ⟨List.pairwise_singleton _ _, fun inner member => ?_⟩⟩ _
    cases List.mem_singleton.mp member
    refine ⟨?_, fun e member => ?_⟩
    · decide +kernel
    · simp only [older, List.mem_cons, List.not_mem_nil, or_false] at member
      obtain rfl | rfl := member <;> exact ⟨by decide, by decide⟩
  have holds : 0 < c.count := by decide +kernel
  have asks : ∀ i replies, clients i replies ≠ .changed := by
    intro i replies
    cases i with
    | zero =>
      cases replies <;> intro same <;> cases same
    | succ i =>
      intro same
      cases same
  obtain ⟨reloaded, read, same, saved, histories⟩ := reloadSame c fits
  exact ⟨fits, holds, asks, reloaded, read, same, saved holds, histories clients asks [0, 1, 0]⟩

end TuningCache
end TensorPlan
