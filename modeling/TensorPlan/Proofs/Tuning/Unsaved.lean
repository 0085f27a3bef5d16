import TensorPlan.Proofs.Tuning.Saved
import TensorPlan.Session.Engine
/-! Unsaved changes. A cache that says it is unchanged holds the entries of the last text that was saved, or, before any
save, those it was created with: every call that touches an entry says so, and only a save that succeeds takes it back. -/
namespace TensorPlan

structure CacheDocument.SameEntries (d d' : CacheDocument) : Prop where
  current : ∀ k, d.get? k = d'.get? k
  older : ∀ units hash, d.getOlder? units hash = d'.getOlder? units hash

inductive CacheStep where
  | call (call : CacheCall)
  | save (file : File)
  | saveTo (file : File)

namespace CacheDocument
variable {d d' d'' : CacheDocument} {k : Key} {units hash : String}

theorem SameEntries.refl (d : CacheDocument) : d.SameEntries d := ⟨fun _ => rfl, fun _ _ => rfl⟩

theorem SameEntries.trans (first : d.SameEntries d') (second : d'.SameEntries d'') : d.SameEntries d'' :=
  ⟨fun k => (first.current k).trans (second.current k), fun units hash => (first.older units hash).trans (second.older units hash)⟩

theorem eraseMissing (missing : d.get? k = none) : (d.erase k).SameEntries d where
  current k' := by
    rw [getErase]
    split
    · rename_i same
      exact (same ▸ missing).symm
    · rfl
  older units hash := getOlderAfter d k units hash

theorem eraseOlderMissing (missing : d.getOlder? units hash = none) : (d.eraseOlder units hash).SameEntries d where
  current k := getAfterOlder d units hash k
  older units' hash' := by
    rw [getOlderErase]
    split
    · rename_i same
      rw [← same.1, ← same.2, missing]
    · rfl

end CacheDocument

namespace TuningCache
variable {c : TuningCache} {f : File}

inductive Created : TuningCache → Prop where
  | empty : Created empty
  | ofText {s : String} {c : TuningCache} (read : ofText s = .ok c) : Created c
  | ofFile {f : File} {c : TuningCache} (read : ofFile f = .ok c) : Created c

def saved : Result Unit × TuningCache × File → TuningCache × Option String
  | (.ok _, c, f) => (c, f.text)
  | (.error _, c, _) => (c, none)

def step (c : TuningCache) : CacheStep → TuningCache × Option String
  | .call call => ((operations.answer c call).2, none)
  | .save f => saved (c.save f)
  | .saveTo f => saved (c.saveTo f)

def run : List CacheStep → TuningCache × Option String → TuningCache × Option String
  | [], now => now
  | s :: steps, (c, last) =>
    let (next, text) := c.step s
    run steps (next, text.or last)

def Safe (first : CacheDocument) (d : CacheDocument) : Option String → Prop
  | none => d.SameEntries first
  | some text => ∃ last, ofText text = .ok last ∧ d.SameEntries last.document

theorem answerUnchanged {call : CacheCall} (unchanged : (operations.answer c call).2.changed = false) :
    c.changed = false ∧ (operations.answer c call).2.document.SameEntries c.document := by
  cases call with
  | load p units =>
    change (c.load p units).2.changed = false at unchanged
    change _ ∧ (c.load p units).2.document.SameEntries c.document
    obtain ⟨hit, _, loaded⟩ | ⟨e, moved⟩ := loadCases c p units
    · rw [loaded] at unchanged ⊢
      exact ⟨unchanged, .refl _⟩
    · rw [moved] at unchanged
      cases unchanged
  | store p units kernel config => cases unchanged
  | remove p units =>
    have nothing : (c.changed || (c.document.get? (CacheDocument.keyOf p units)).isSome ||
        (c.document.getOlder? (CacheDocument.keyOf p units).units (CacheDocument.olderHash p)).isSome) = false :=
      (Bool.or_assoc _ _ _).trans unchanged
    simp only [Bool.or_eq_false_iff, Option.isSome_eq_false_iff, Option.isNone_iff_eq_none] at nothing
    obtain ⟨⟨clean, current⟩, older⟩ := nothing
    have kept := (CacheDocument.getOlderAfter c.document (CacheDocument.keyOf p units) _ _).trans older
    exact ⟨clean, (CacheDocument.eraseOlderMissing kept).trans (CacheDocument.eraseMissing current)⟩
  | count => exact ⟨unchanged, .refl _⟩
  | changed => exact ⟨unchanged, .refl _⟩

theorem saveToCases (c : TuningCache) (f : File) :
    saved (c.saveTo f) = ({ c with changed := false }, some c.toText) ∨ saved (c.saveTo f) = (c, none) := by
  unfold saveTo
  split
  · exact .inl rfl
  · exact .inr rfl

theorem saveCases (c : TuningCache) (f : File) :
    saved (c.save f) = ({ c with changed := false }, some c.toText) ∨ saved (c.save f) = (c, none) := by
  unfold save
  split
  · exact saveToCases c f
  · exact .inr rfl

structure Sound (first : CacheDocument) (now : TuningCache × Option String) : Prop where
  fits : now.1.document.Holds CacheEntry.Fits
  safe : now.1.changed = false → Safe first now.1.document now.2

variable {first : CacheDocument} {last : Option String}

theorem createdSound (created : c.Created) : Sound c.document (c, none) := by
  refine ⟨?_, fun _ => .refl _⟩
  cases created with
  | empty => exact CacheDocument.emptyHolds _
  | ofText read => exact ofTextFits read
  | ofFile read => exact ofFileHolds CacheEntry.readFits read

theorem savedSound (sound : Sound first (c, last)) {next : TuningCache × Option String}
    (ended : next = ({ c with changed := false }, some c.toText) ∨ next = (c, none)) :
    Sound first (next.1, next.2.or last) := by
  obtain rfl | rfl := ended
  · exact ⟨sound.fits, fun _ => ⟨_, ofTextWritten sound.fits, .refl _⟩⟩
  · exact sound

theorem stepSound (sound : Sound first (c, last)) (s : CacheStep) :
    Sound first ((c.step s).1, (c.step s).2.or last) := by
  cases s with
  | call call =>
    refine ⟨answerFits sound.fits call, fun unchanged => ?_⟩
    obtain ⟨before, same⟩ := answerUnchanged unchanged
    have safe := sound.safe before
    change Safe first _ last
    cases last with
    | none => exact same.trans safe
    | some text =>
      obtain ⟨read, ok, entries⟩ := safe
      exact ⟨read, ok, same.trans entries⟩
  | save f => exact savedSound sound (saveCases c f)
  | saveTo f => exact savedSound sound (saveToCases c f)

theorem runSound (sound : Sound first (c, last)) (steps : List CacheStep) : Sound first (run steps (c, last)) := by
  induction steps generalizing c last with
  | nil => exact sound
  | cons s steps ih => exact ih (stepSound sound s)

end TuningCache

theorem Engine.saveSkips {e : Engine} {c : TuningCache} {f : File} (own : e.cache = some c)
    (skipped : (e.save f).1 = .ok false) : c.changed = false ∧ (e.save f).2 = (e, f) := by
  unfold save at skipped ⊢
  rw [own] at skipped ⊢
  dsimp only at skipped ⊢
  cases changed : c.changed with
  | false => exact ⟨rfl, rfl⟩
  | true =>
    rw [changed, if_pos rfl] at skipped
    obtain ⟨_, _, last⟩ := Result.mapOk.mp skipped
    cases last

namespace TuningCache

/-- After any steps a cache that says it is unchanged holds what was last saved or, without a save, what it was created
with. So an engine that skips a save leaves behind all there is to save. -/
theorem unchangedSafe (c : TuningCache) (created : c.Created) (steps : List CacheStep) :
    ((run steps (c, none)).1.changed = false →
      Safe c.document (run steps (c, none)).1.document (run steps (c, none)).2) ∧
    ∀ (e : Engine) (f : File), e.cache = some (run steps (c, none)).1 → (e.save f).1 = .ok false →
      (e.save f).2 = (e, f) ∧ Safe c.document (run steps (c, none)).1.document (run steps (c, none)).2 := by
  have sound := runSound (createdSound created) steps
  refine ⟨sound.safe, fun e f own skipped => ?_⟩
  obtain ⟨unchanged, same⟩ := Engine.saveSkips own skipped
  exact ⟨same, sound.safe unchanged⟩

theorem unchangedSafeOfMove :
    let p : KernelParams := ⟨.gatherTree, [], []⟩
    let q : KernelParams := ⟨.gatherTree, [], [.ofShape (.ofDims [1]) .i32 .plain]⟩
    let older : Table CacheEntry := ⟨[(CacheDocument.olderHash p, ⟨"gather_tree_ref", 2⟩)]⟩
    let d : CacheDocument := ⟨.empty, ⟨[("4", older)]⟩⟩
    let steps : List CacheStep :=
      [.call (.load p 4), .saveTo ⟨none, false⟩, .saveTo .missing, .call (.load q 4), .call (.remove q 4)]
    ∃ c text last, c.Created ∧ c.document = d ∧ (run steps (c, none)).1.changed = false ∧
      (run steps (c, none)).2 = some text ∧ ofText text = .ok last ∧
      (run steps (c, none)).1.document.SameEntries last.document := by
  intro p q older d steps
  have fits : d.Holds CacheEntry.Fits := by
    refine ⟨Table.emptyOrdered _, ⟨List.pairwise_singleton _ _, fun inner member => ?_⟩⟩
    cases List.mem_singleton.mp member
    refine ⟨List.pairwise_singleton _ _, fun e member => ?_⟩
    cases List.mem_singleton.mp member
    exact ⟨by decide, by decide⟩
  have read : ofText (toText ⟨d, false, false⟩) = .ok ⟨d, false, false⟩ := ofTextWritten fits
  have created := Created.ofText read
  have unchanged : (run steps (⟨d, false, false⟩, none)).1.changed = false := by decide +kernel
  obtain ⟨text, written⟩ : ∃ text, (run steps (⟨d, false, false⟩, none)).2 = some text := ⟨_, rfl⟩
  have safe := (unchangedSafe _ created steps).1 unchanged
  rw [written] at safe
  obtain ⟨last, back, same⟩ := safe
  exact ⟨_, text, last, created, rfl, unchanged, written, back, same⟩

end TuningCache
end TensorPlan
