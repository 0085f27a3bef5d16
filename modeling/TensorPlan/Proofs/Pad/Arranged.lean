import TensorPlan.Proofs.Pad.Requests
import TensorPlan.Proofs.Pad.Rows
/-! Padding of physical axes. Moving the channels back and splitting whole groups of channels commutes with
padding, so a position of the output finds its source element through the physical axes alone. -/
namespace TensorPlan
open Index (Within)
open Layout (arrange)

theorem blocksForWhole {block : Nat} (positive : 0 < block) (q : Nat) : blocksFor (block * q) block = q := by
  rw [blocksFor, Nat.add_sub_assoc positive, Nat.mul_add_div positive, Nat.div_eq_of_lt (by omega), Nat.add_zero]

namespace PadMode
variable {mode : PadMode} {block c channels before after : Nat}

def Grouped (mode : PadMode) (block channels before after : Nat) : Prop :=
  block ∣ channels ∧ if mode = .constant then block ∣ before ∧ block ∣ after else before = 0 ∧ after = 0

theorem groupedFills (grouped : mode.Grouped block channels before after) :
    mode.Fills (channels / block) (before / block) (after / block) := by
  by_cases constant : mode = .constant
  · rw [constant]; exact constantFills _ _ _
  · have bare := grouped.2
    rw [if_neg constant] at bare
    rw [bare.1, bare.2, Nat.zero_div]
    exact unpaddedFills mode _

theorem groupedAfter (grouped : mode.Grouped block channels before after) : block ∣ before ∧ block ∣ after := by
  have unit := grouped.2
  split at unit
  · exact unit
  · rw [unit.1, unit.2]; exact ⟨Nat.dvd_zero _, Nat.dvd_zero _⟩

theorem groupedTotal (positive : 0 < block) (grouped : mode.Grouped block channels before after) :
    blocksFor (channels + before + after) block = channels / block + before / block + after / block ∧
      block * (channels / block + before / block + after / block) = channels + before + after := by
  obtain ⟨q, whole⟩ := grouped.1
  obtain ⟨⟨s, front⟩, ⟨t, back⟩⟩ := groupedAfter grouped
  have total : channels + before + after = block * (q + s + t) := by
    rw [whole, front, back, Nat.mul_add, Nat.mul_add]
  rw [total, blocksForWhole positive, whole, front, back, Nat.mul_div_cancel_left _ positive,
    Nat.mul_div_cancel_left _ positive, Nat.mul_div_cancel_left _ positive]
  exact ⟨rfl, rfl⟩

theorem groupedIndex (positive : 0 < block) (grouped : mode.Grouped block channels before after)
    (inside : c < channels + before + after) :
    mode.sourceIndex (c / block) (before / block) (channels / block) =
        (mode.sourceIndex c before channels).map (· / block) ∧
      ∀ j, mode.sourceIndex c before channels = some j → j % block = c % block := by
  obtain ⟨q, whole⟩ := grouped.1
  by_cases constant : mode = .constant
  · obtain ⟨⟨s, front⟩, _⟩ := groupedAfter grouped
    rw [whole, front, Nat.mul_div_cancel_left _ positive, Nat.mul_div_cancel_left _ positive, constant]
    unfold sourceIndex
    have low : s ≤ c / block ↔ block * s ≤ c := by rw [Nat.le_div_iff_mul_le positive, Nat.mul_comm]
    have high : c / block < s + q ↔ c < block * s + block * q := by
      rw [Nat.div_lt_iff_lt_mul positive, Nat.mul_comm, Nat.mul_add]
    by_cases middle : block * s ≤ c ∧ c < block * s + block * q
    · simp only [low, high, middle, and_self, if_true, Option.map_some, Nat.sub_mul_div, Option.some.injEq, true_and]
      intro j value
      rw [← value, Nat.sub_mul_mod middle.1]
    · simp only [low, high, middle, if_false, Option.map_none, true_and]
      intro j value
      cases value
  · have bare := grouped.2
    rw [if_neg constant] at bare
    have below : c < channels := by omega
    have group : c / block < channels / block := by
      rw [whole, Nat.mul_div_cancel_left _ positive, Nat.div_lt_iff_lt_mul positive, Nat.mul_comm, ← whole]
      exact below
    rw [bare.1, Nat.zero_div, sourceIndexUnpadded mode group, sourceIndexUnpadded mode below]
    refine ⟨rfl, fun j value => ?_⟩
    cases value; rfl

theorem fillsChannels {n c : Nat} {spatial bs es : List Nat} (fills : FillsAll mode (n :: c :: spatial) bs es) :
    ∃ b0 b1 bs' e0 e1 es', bs = b0 :: b1 :: bs' ∧ es = e0 :: e1 :: es' ∧ mode.Fills n b0 e0 ∧ mode.Fills c b1 e1 ∧
      FillsAll mode spatial bs' es' := by
  cases fills with
  | cons batch fills =>
    cases fills with
    | cons channel rest => exact ⟨_, _, _, _, _, _, rfl, rfl, batch, channel, rest⟩

theorem fillsAppend {ds bs es ds' bs' es' : List Nat} (first : FillsAll mode ds bs es)
    (second : FillsAll mode ds' bs' es') : FillsAll mode (ds ++ ds') (bs ++ bs') (es ++ es') := by
  induction first with
  | nil => exact second
  | cons fills _ ih => exact .cons fills ih

end PadMode

namespace PadRequest
variable {r : PadRequest} {l m : Layout} {source : Bytes} {position : Nat}

theorem paddedAppend {ds bs es : List Nat} (before : bs.length = ds.length) (after : es.length = ds.length)
    (ds' bs' es' : List Nat) : padded (ds ++ ds') (bs ++ bs') (es ++ es') = padded ds bs es ++ padded ds' bs' es' := by
  induction ds generalizing bs es with
  | nil =>
    cases List.length_eq_zero_iff.mp before
    cases List.length_eq_zero_iff.mp after
    rfl
  | cons d ds ih =>
    match bs, es, before, after with
    | b :: bs, e :: es, before, after =>
      simp [padded, @ih bs es (by simpa using before) (by simpa using after)]

theorem groupsWhole {block n c b0 b1 e0 e1 : Nat} {spatial bs es : List Nat} (groups : PadPlan.checkGroups r = .ok ())
    (blocked : r.source.format.blockSize? = some block) (dims : r.source.dims = n :: c :: spatial)
    (before : r.before = b0 :: b1 :: bs) (after : r.after = e0 :: e1 :: es) : r.mode.Grouped block c b1 e1 := by
  unfold PadPlan.checkGroups at groups
  rw [blocked] at groups
  simp only [dims, before, after, List.getElem?_cons_succ, List.getElem?_cons_zero, Result.orFaultSome, Result.okBind,
    Result.ensureOk, Bool.and_eq_true, beq_iff_eq] at groups
  obtain ⟨whole, unit⟩ := groups
  refine ⟨Nat.dvd_of_mod_eq_zero whole, ?_⟩
  split at unit
  · rename_i constant
    simp only [Bool.and_eq_true, beq_iff_eq] at unit
    rw [if_pos constant]
    exact ⟨Nat.dvd_of_mod_eq_zero unit.1, Nat.dvd_of_mod_eq_zero unit.2⟩
  · rename_i other
    simp only [Bool.and_eq_true, beq_iff_eq] at unit
    rw [if_neg other]
    exact unit

structure Arranged (r : PadRequest) (l m : Layout) : Prop where
  fills : r.mode.FillsAll l.blockDims (arrange r.source.format r.before) (arrange r.source.format r.after)
  target : m.blockDims = padded l.blockDims (arrange r.source.format r.before) (arrange r.source.format r.after)
  holds : ∀ coords, coords.length = m.rank → Within (arrange r.source.format coords) m.blockDims →
    m.holds coords = true
  indices : ∀ coords, Within coords m.dims →
    r.mode.sourceIndices (arrange r.source.format coords) (arrange r.source.format r.before) l.blockDims =
      (r.mode.sourceIndices coords r.before l.dims).map (arrange r.source.format)

theorem arrangedPlain (sound : r.Sound) (plain : r.source.format = .plain)
    (source : l.format = r.source.format ∧ l.dims = r.source.dims)
    (target : m.format = r.source.format ∧ m.dims = padded r.source.dims r.before r.after) : r.Arranged l m := by
  have sources := l.blockDimsPlain (by rw [source.1, plain])
  have targets := m.blockDimsPlain (by rw [target.1, plain])
  have same : ∀ coords, arrange r.source.format coords = coords := fun coords => by rw [plain]; rfl
  constructor
  · rw [same, same, sources, source.2]; exact sound.fills
  · rw [same, same, sources, targets, source.2, target.2]
  · intro coords _ _
    exact m.holdsUnblocked (by rw [target.1, plain]; rfl) _
  · intro coords _
    rw [same, same, sources, funext same]; simp

theorem arrangedLast (sound : r.Sound) (last : r.source.format = .channelsLast) (enough : 3 ≤ r.source.dims.length)
    (source : l.format = r.source.format ∧ l.dims = r.source.dims)
    (target : m.format = r.source.format ∧ m.dims = padded r.source.dims r.before r.after) : r.Arranged l m := by
  obtain ⟨n, c, spatial, dims⟩ := Layout.threeAxes enough
  have sources := l.blockDimsLast (by rw [source.1, last])
  have targets := m.blockDimsLast (by rw [target.1, last])
  rw [source.2, dims] at sources
  have fills := sound.fills
  rw [dims] at fills
  obtain ⟨b0, b1, bs, e0, e1, es, before, after, batch, channel, rest⟩ := PadMode.fillsChannels fills
  have lengths := PadMode.fillsLength rest
  rw [target.2, dims, before, after] at targets
  constructor
  · rw [last, before, after, sources]
    exact .cons batch (PadMode.fillsAppend rest (.cons channel .nil))
  · rw [last, before, after, sources, targets]
    exact congrArg ((n + b0 + e0) :: ·) (paddedAppend lengths.1 lengths.2 [c] [b1] [e1]).symm
  · intro coords _ _
    exact m.holdsUnblocked (by rw [target.1, last]; rfl) _
  · intro coords within
    rw [target.2, dims, before, after] at within
    obtain ⟨i, j, coords, joined, _, _, inner⟩ := Index.withinChannels within
    have same := Index.withinLength inner
    rw [paddedLength lengths.1 lengths.2] at same
    have split : r.mode.sourceIndices (coords ++ [j]) (bs ++ [b1]) (spatial ++ [c]) = _ :=
      PadMode.sourceIndicesAppend lengths.1 same
    rw [last, before, sources, source.2, dims, joined]
    change r.mode.sourceIndices (i :: (coords ++ [j])) (b0 :: (bs ++ [b1])) (n :: (spatial ++ [c])) = _
    simp only [PadMode.sourceIndices, split]
    cases r.mode.sourceIndex i b0 n with
    | none => rfl
    | some i' =>
      cases r.mode.sourceIndex j b1 c with
      | none => cases r.mode.sourceIndices coords bs spatial <;> rfl
      | some j' => cases r.mode.sourceIndices coords bs spatial <;> rfl

theorem arrangedBlocked {block : Nat} (sound : r.Sound) (groups : PadPlan.checkGroups r = .ok ())
    (blocked : r.source.format.blockSize? = some block) (enough : 3 ≤ r.source.dims.length)
    (source : l.format = r.source.format ∧ l.dims = r.source.dims)
    (target : m.format = r.source.format ∧ m.dims = padded r.source.dims r.before r.after) : r.Arranged l m := by
  obtain ⟨n, c, spatial, dims⟩ := Layout.threeAxes enough
  have positive := MemoryFormat.blockPositive blocked
  have fills := sound.fills
  rw [dims] at fills
  obtain ⟨b0, b1, bs, e0, e1, es, before, after, batch, channel, rest⟩ := PadMode.fillsChannels fills
  have lengths := PadMode.fillsLength rest
  have grouped := groupsWhole groups blocked dims before after
  obtain ⟨count, total⟩ := PadMode.groupedTotal positive grouped
  have bare := PadMode.groupedAfter grouped
  have targetDims : m.dims = (n + b0 + e0) :: (c + b1 + e1) :: padded spatial bs es := by
    rw [target.2, dims, before, after]; rfl
  have sources := l.blockDimsBlocked (by rw [source.1, blocked]) (source.2.trans dims)
  have targets := m.blockDimsBlocked (by rw [target.1, blocked]) targetDims
  have whole : blocksFor c block = c / block := by
    obtain ⟨q, eq⟩ := grouped.1
    rw [eq, blocksForWhole positive, Nat.mul_div_cancel_left _ positive]
  rw [whole] at sources
  rw [count] at targets
  have front : arrange r.source.format r.before = b0 :: b1 / block :: (bs ++ [0]) := by
    rw [before, Layout.arrangeBlocked blocked, Nat.mod_eq_zero_of_dvd bare.1]; rfl
  have back : arrange r.source.format r.after = e0 :: e1 / block :: (es ++ [0]) := by
    rw [after, Layout.arrangeBlocked blocked, Nat.mod_eq_zero_of_dvd bare.2]; rfl
  constructor
  · rw [front, back, sources]
    exact .cons batch (.cons (PadMode.groupedFills grouped)
      (PadMode.fillsAppend rest (.cons (PadMode.unpaddedFills r.mode block) .nil)))
  · rw [front, back, sources, targets]
    have inner := paddedAppend lengths.1 lengths.2 [block] [0] [0]
    exact congrArg (fun tail => (n + b0 + e0) :: (c / block + b1 / block + e1 / block) :: tail) inner.symm
  · intro coords length within
    obtain ⟨i, j, coords, joined⟩ : ∃ i j rest, coords = i :: j :: rest := by
      apply Layout.threeAxes
      rw [length, Layout.rank, targetDims]
      have dimsLength := congrArg List.length dims
      simp only [List.length_cons, paddedLength lengths.1 lengths.2] at dimsLength ⊢
      omega
    rw [joined, Layout.arrangeBlocked blocked, targets] at within
    cases within with
    | cons _ within =>
      cases within with
      | cons group _ =>
        rw [Nat.div_lt_iff_lt_mul positive, Nat.mul_comm, total] at group
        simp [Layout.holds, joined, targetDims, group]
  · intro coords within
    rw [targetDims] at within
    obtain ⟨i, j, coords, joined, _, below, inner⟩ := Index.withinChannels within
    have same := Index.withinLength inner
    rw [paddedLength lengths.1 lengths.2] at same
    obtain ⟨group, place⟩ := PadMode.groupedIndex positive grouped below
    have split : r.mode.sourceIndices (coords ++ [j % block]) (bs ++ [0]) (spatial ++ [block]) = _ :=
      PadMode.sourceIndicesAppend lengths.1 same
    have own := PadMode.sourceIndexUnpadded r.mode (Nat.mod_lt j positive)
    rw [front, before, sources, source.2, dims, joined, Layout.arrangeBlocked blocked]
    change r.mode.sourceIndices (i :: j / block :: (coords ++ [j % block])) _ (n :: c / block :: (spatial ++ [block])) = _
    simp only [PadMode.sourceIndices, split, group, own]
    cases r.mode.sourceIndex i b0 n with
    | none => rfl
    | some i' =>
      cases channel : r.mode.sourceIndex j b1 c with
      | none => rfl
      | some j' =>
        cases r.mode.sourceIndices coords bs spatial with
        | none => rfl
        | some coords' => simp [Layout.arrangeBlocked blocked, place j' channel]

theorem Sound.arranged (sound : r.Sound) (groups : PadPlan.checkGroups r = .ok ()) (source : r.source.layout = .ok l)
    (target : r.target.layout = .ok m) : r.Arranged l m := by
  have sourceOf := Descriptor.layoutOk source
  have targetOf := Descriptor.layoutOk target
  rw [sound.target] at targetOf
  have supported := l.supported
  rw [sourceOf.1, sourceOf.2] at supported
  obtain plain | ⟨last, enough⟩ | ⟨block, blocked, enough⟩ := MemoryFormat.supportedCases supported
  · exact arrangedPlain sound plain sourceOf targetOf
  · exact arrangedLast sound last enough sourceOf targetOf
  · exact arrangedBlocked sound groups blocked enough sourceOf targetOf

end PadRequest
end TensorPlan
