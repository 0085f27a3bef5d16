import TensorPlan.Element.UpperWord
import TensorPlan.Proofs.Dispatch.Safety
import TensorPlan.Proofs.Tuning.Stability
/-! Selections that are made again. The first one moves what a cache holds for it to its current place, or puts its own
choice there, and the next one finds just that. -/
namespace TensorPlan

structure Selection.Repeats (first second : Result Selection) : Prop where
  failure : ∀ h, first = .error h → second = .error h
  success : ∀ selection, first = .ok selection → ∃ source, second = .ok { selection with source := source } ∧
    (source = selection.source ∨ selection.source = .heuristic ∧ source = .tuned)

theorem Selection.repeatsSelf (result : Result Selection) : Repeats result result :=
  ⟨fun _ failed => failed, fun selection ok => ⟨selection.source, ok, .inl rfl⟩⟩

namespace Selector
variable {s : Selector} {p : KernelParams} {device : Device} {c : TuningCache} {hit : Option CacheEntry}

def Rests (s : Selector) (p : KernelParams) (device : Device) (hit : Option CacheEntry) : Prop :=
  s.options.tuning = .useAndUpdate → s.candidates p device = [] ∨ ∃ selection, tuned? (s.candidates p device) hit = some selection

theorem selectWithResting (settled : c.document.Settled p device.units hit) (rests : s.Rests p device hit) :
    s.selectWith c p device = (s.selectGiven hit p device, c) := by
  refine Prod.ext ((selectWithGiven s c p device).trans ?_) ?_
  · rw [TuningCache.loadOf settled]
  · unfold selectWith
    rw [TuningCache.loadOf settled]
    dsimp only
    cases tuned : tuned? (s.candidates p device) hit with
    | some selection => rfl
    | none =>
      cases candidates : s.candidates p device with
      | nil => rfl
      | cons kernel kernels =>
        by_cases update : s.options.tuning = .useAndUpdate
        · obtain bare | ⟨selection, impossible⟩ := rests update
          · rw [candidates] at bare
            cases bare
          · rw [tuned] at impossible
            cases impossible
        · exact if_neg update

theorem tunedFirst (kernel : Kernel) (kernels : List Kernel) :
    tuned? (kernel :: kernels) (some ⟨kernel.name, (min 0 TuningCache.maxConfig : Nat)⟩) = some ⟨kernel, 0, .tuned⟩ := by
  simp [tuned?, CacheEntry.index]

theorem selectWithSettles (s : Selector) (c : TuningCache) (p : KernelParams) (device : Device) :
    ∃ hit, (s.selectWith c p device).2.document.Settled p device.units hit ∧ s.Rests p device hit ∧
      Selection.Repeats (s.selectWith c p device).1 (s.selectGiven hit p device) := by
  have settled := TuningCache.loadSettles c p device.units
  rw [selectWithGiven]
  cases tuned : tuned? (s.candidates p device) (c.load p device.units).1 with
  | some selection =>
    refine ⟨_, ?_, fun _ => .inr ⟨selection, tuned⟩, Selection.repeatsSelf _⟩
    simpa only [selectWith, tuned] using settled
  | none =>
    cases candidates : s.candidates p device with
    | nil =>
      refine ⟨_, ?_, fun _ => .inl candidates, Selection.repeatsSelf _⟩
      rw [candidates] at tuned
      simpa only [selectWith, candidates, tuned] using settled
    | cons kernel kernels =>
      by_cases update : s.options.tuning = .useAndUpdate
      · have found := tunedFirst kernel kernels
        rw [candidates] at tuned
        refine ⟨some ⟨kernel.name, (min 0 TuningCache.maxConfig : Nat)⟩, ?_, fun _ => .inr ⟨_, candidates ▸ found⟩, ?_⟩
        · simpa only [selectWith, candidates, tuned, if_pos update] using
            TuningCache.storeSettles (c.load p device.units).2 p device.units kernel.name 0
        · simp only [selectGiven, selectAlone, candidates, tuned, found]
          constructor
          · intro h failed
            cases failed
          · intro selection ok
            cases ok
            exact ⟨.tuned, rfl, .inr ⟨rfl, rfl⟩⟩
      · refine ⟨_, ?_, fun own => absurd own update, Selection.repeatsSelf _⟩
        rw [candidates] at tuned
        simpa only [selectWith, candidates, tuned, if_neg update] using settled

section
variable (asked : s.registry.knows p.kind = true ∧ s.options.tuning ≠ .disabled)
include asked

theorem selectAsked (c : TuningCache) (device : Device) :
    s.select (some c) p device = ((s.selectWith c p device).1, some (s.selectWith c p device).2) := by
  unfold select
  rw [if_pos asked.1]
  cases tuning : s.options.tuning with
  | disabled => exact absurd tuning asked.2
  | useExisting | useAndUpdate => rfl

theorem selectResting (settled : c.document.Settled p device.units hit) (rests : s.Rests p device hit) :
    s.select (some c) p device = (s.selectGiven hit p device, some c) := by
  rw [selectAsked asked, selectWithResting settled rests]

end

theorem selectUnasked (unasked : ¬ (s.registry.knows p.kind = true ∧ s.options.tuning ≠ .disabled))
    (cache : Option TuningCache) : s.select cache p device = ((s.select none p device).1, cache) := by
  unfold select
  split
  · rename_i known
    have tuning : s.options.tuning = .disabled := by simpa [known] using unasked
    rw [tuning]
  · rfl

theorem selectNone (s : Selector) (p : KernelParams) (device : Device) : (s.select none p device).2 = none := by
  unfold select
  split
  · cases s.options.tuning <;> rfl
  · rfl

/-- A selection that is made again comes out the same and changes nothing, whatever calls there were for others and
whether or not the cache was saved. -/
theorem selectStable (s : Selector) (cache : Option TuningCache) (p : KernelParams) (device : Device)
    (between : List CacheCall) (elsewhere : ∀ call ∈ between, call.address? ≠ some (p.address device.units))
    (now : Option TuningCache) (held : now.map TuningCache.document =
      ((s.select cache p device).2.map (TuningCache.operations.after between)).map TuningCache.document) :
    Selection.Repeats (s.select cache p device).1 (s.select now p device).1 ∧ (s.select now p device).2 = now ∧
      s.select (s.select now p device).2 p device = s.select now p device := by
  suffices again : Selection.Repeats (s.select cache p device).1 (s.select now p device).1 ∧
      (s.select now p device).2 = now from ⟨again.1, again.2, by rw [again.2]⟩
  by_cases asked : s.registry.knows p.kind = true ∧ s.options.tuning ≠ .disabled
  · cases cache with
    | none =>
      rw [selectNone, Option.map_none, Option.map_none, Option.map_eq_none_iff] at held
      rw [held]
      exact ⟨Selection.repeatsSelf _, selectNone s p device⟩
    | some c =>
      obtain ⟨hit, settled, rests, repeats⟩ := selectWithSettles s c p device
      rw [selectAsked asked] at held ⊢
      simp only [Option.map_some, Option.map_eq_some_iff] at held
      obtain ⟨c', rfl, same⟩ := held
      have later := TuningCache.settledAfter elsewhere settled
      rw [← same] at later
      rw [selectResting asked later rests]
      exact ⟨repeats, rfl⟩
  · rw [selectUnasked asked cache, selectUnasked asked now]
    exact ⟨Selection.repeatsSelf _, rfl⟩

theorem selectStableOfStaleName :
    let kernel := BuiltinKernel.gatherTree.kernel
    let s : Selector := ⟨.ofCalls [.registerAny kernel [.allKnown]], { EngineOptions.unset with tuning := .useAndUpdate }⟩
    let slot : Slot := .ofShape (.ofDims [1]) .i32 .plain
    let p : KernelParams := ⟨.gatherTree, [slot], []⟩
    let q : KernelParams := ⟨.gatherTree, [slot], [slot]⟩
    let device := Device.ofUnits 0 .cpu 4
    let cache := some (TuningCache.empty.store p 4 "gone" 1)
    let between : List CacheCall := [.load q 4, .store q 4 "other" 0, .remove q 4]
    let now := (s.select cache p device).2.map (TuningCache.operations.after between)
    CacheDocument.olderHash q = CacheDocument.olderHash p ∧
      (∀ call ∈ between, call.address? ≠ some (p.address device.units)) ∧
      Selection.Repeats (s.select cache p device).1 (s.select now p device).1 ∧ (s.select now p device).2 = now ∧
      s.select (s.select now p device).2 p device = s.select now p device := by
  intro kernel s slot p q device cache between now
  have others : q.address 4 ≠ p.address 4 := by decide +kernel
  have elsewhere : ∀ call ∈ between, call.address? ≠ some (p.address device.units) := by
    intro call member
    have own : call.address? = some (q.address 4) := by
      simp only [between, List.mem_cons, List.not_mem_nil, or_false] at member
      rcases member with rfl | rfl | rfl <;> rfl
    rw [own]
    exact fun same => others (Option.some.inj same)
  exact ⟨rfl, elsewhere, selectStable s cache p device between elsewhere now rfl⟩

end Selector
end TensorPlan
