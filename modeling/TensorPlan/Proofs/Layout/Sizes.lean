import TensorPlan.Proofs.Machine
import TensorPlan.Proofs.Positions
/-! Sizes as words. A layout is made if the sum and the strides it is made of are words, and a tensor has a size in bytes
if besides no product on the way to it leaves its word. -/
namespace TensorPlan

namespace Layout
variable {dims coords : List Nat} {format : MemoryFormat} {l : Layout} {position : Nat}

structure Counted (l : Layout) : Prop where
  groups : ∀ block, l.format.blockSize? = some block → l.dims.getD 1 0 + block < pow2 64
  strides : ∀ s ∈ l.strides, s < pow2 64

theorem countGroupsEither (l : Layout) :
    (l.countGroups = .ok () ∧ ∀ block, l.format.blockSize? = some block → l.dims.getD 1 0 + block < pow2 64) ∨
      (l.countGroups = Result.fault ∧ ¬ ∀ block, l.format.blockSize? = some block → l.dims.getD 1 0 + block < pow2 64) := by
  unfold countGroups
  cases l.format.blockSize? with
  | none => exact .inl ⟨rfl, fun _ given => nomatch given⟩
  | some block =>
    by_cases fits : l.dims.getD 1 0 + block < pow2 64
    · refine .inl ⟨?_, fun _ given => by cases given; exact fits⟩
      dsimp only
      rw [Machine.wordFits fits]
      rfl
    · refine .inr ⟨?_, fun all => fits (all block rfl)⟩
      dsimp only
      rw [Machine.wordFault (Nat.not_lt.mp fits)]
      rfl

structure Sized (l : Layout) (size : Nat) : Prop extends l.Counted where
  positions : Machine.Counts l.blockDims
  bytes : l.physicalSize * size < pow2 64

theorem createSupported (found : ofDims? dims format = some l) :
    create dims format = l.countGroups >>= fun _ => Result.forEach Machine.word l.strides >>= fun _ => .ok l := by
  rw [create, found]
  rfl

theorem createCounted (found : ofDims? dims format = some l) (counted : l.Counted) : create dims format = .ok l := by
  obtain ⟨groups, _⟩ | ⟨_, beyond⟩ := l.countGroupsEither
  · rw [createSupported found, groups, Result.okBind, Machine.wordsOk.mpr ⟨counted.strides, rfl⟩]
    rfl
  · exact (beyond counted.groups).elim

theorem createFault (found : ofDims? dims format = some l) (beyond : ¬ l.Counted) :
    create dims format = Result.fault := by
  rw [createSupported found]
  obtain ⟨groups, sums⟩ | ⟨groups, _⟩ := l.countGroupsEither
  · rw [groups, Result.okBind, Machine.wordsFault fun words => beyond ⟨sums, words⟩]
    rfl
  · rw [groups]
    rfl

theorem createOk : create dims format = .ok l ↔ ofDims? dims format = some l ∧ l.Counted := by
  constructor
  · intro made
    cases found : ofDims? dims format with
    | none =>
      rw [create, found] at made
      cases made
    | some m =>
      by_cases counted : m.Counted
      · cases made.symm.trans (createCounted found counted)
        exact ⟨rfl, counted⟩
      · cases made.symm.trans (createFault found counted)
  · exact fun own => createCounted own.1 own.2

theorem ofDimsSome (found : ofDims? dims format = some l) : l.format = format ∧ l.dims = dims := by
  unfold ofDims? at found
  split at found
  · cases found; exact ⟨rfl, rfl⟩
  · cases found

theorem dotMember {is ss : List Nat} (same : is.length = ss.length) (full : 0 ∉ ss) : ∀ i ∈ is, i ≤ dot is ss := by
  induction is generalizing ss with
  | nil => exact fun _ member => nomatch member
  | cons i is ih =>
    obtain ⟨s, ss, rfl⟩ := List.exists_cons_of_length_eq_add_one same.symm
    simp only [List.mem_cons, not_or] at full
    have rest := ih (by simpa using same) full.2
    have own : i ≤ i * s := Nat.le_mul_of_pos_right i (by omega)
    rw [dot]
    exact List.forall_mem_cons.mpr ⟨by omega, fun j member => Nat.le_trans (rest j member) (by omega)⟩

theorem channelBelow {block n g : Nat} {is ds : List Nat} (i c : Nat) (same : is.length = ds.length) (positive : 0 < block)
    (full : 0 ∉ ds) : c ≤ dot (i :: c / block :: is ++ [c % block]) (TensorPlan.strides (n :: g :: ds ++ [block])) := by
  have groups : block ≤ volume (ds ++ [block]) := by
    rw [volumeAppend, volumeCons, volumeNil, Nat.mul_one]
    exact Nat.le_mul_of_pos_left block (volumePositive full)
  have place : c % block ≤ dot (is ++ [c % block]) (TensorPlan.strides (ds ++ [block])) :=
    dotMember (by simp [same]) (stridesFull (by simp [full]; omega)) _ (by simp)
  have whole := Nat.div_add_mod c block
  have first := Nat.mul_le_mul_left (c / block) groups
  simp only [List.cons_append, TensorPlan.strides, dot]
  rw [Nat.mul_comm] at whole
  omega

theorem coordinatesBelow (l : Layout) (inside : position < l.physicalSize) : ∀ c ∈ l.coordinates position, c ≤ position := by
  obtain ⟨arranged, length, _⟩ := l.positionArranged inside
  have full := l.physicalFull inside
  have whole := l.offsetCoordinates inside
  have digits := @dotMember (arrange l.format (l.coordinates position)) (TensorPlan.strides l.blockDims)
    (by rw [← arranged, Index.ofPositionLength, stridesLength]) (stridesFull full)
  rw [← l.offsetArranged length, whole] at digits
  obtain plain | ⟨last, enough⟩ | ⟨block, blocked, enough⟩ := MemoryFormat.supportedCases (l.rankSupported length)
  · rwa [plain] at digits
  · obtain ⟨i, c, is, coords⟩ := threeAxes enough
    rw [coords, last] at digits
    rw [coords]
    exact fun k member => digits k (by simp [arrange, MemoryFormat.blockSize?, channelsToBack] at member ⊢; tauto)
  · obtain ⟨i, c, is, coords⟩ := threeAxes enough
    obtain ⟨n, g, ds, dims⟩ := @threeAxes l.dims (by rw [← rank, ← length]; exact enough)
    have axes := l.blockDimsBlocked blocked dims
    rw [axes] at full
    have below := @channelBelow block n (blocksFor g block) is ds i c (by simpa [coords, rank, dims] using length)
      (MemoryFormat.blockPositive blocked) (fun member => full (by simp [member]))
    rw [← arrangeBlocked blocked, ← axes, ← coords, ← l.offsetArranged length, whole] at below
    rw [coords, arrangeBlocked blocked] at digits
    rw [coords]
    refine List.forall_mem_cons.mpr ⟨digits i (by simp), List.forall_mem_cons.mpr ⟨below, fun k member => digits k ?_⟩⟩
    simp [member]

theorem offsetOfWithin (within : Index.Within coords l.dims) : l.offsetOf coords = Machine.word (l.offset coords) := by
  rw [offsetOf, l.offsetSome (Index.withinLength within)]
  rfl

theorem coordsOf {found : Bool × List Nat} (there : l.coordinates? position = some found)
    (words : ∀ c ∈ found.2, c < pow2 64) : l.logicalCoords position = .ok found := by
  rw [logicalCoords, there, Result.orFaultSome, Result.okBind, Machine.wordsOk.mpr ⟨words, rfl⟩]
  rfl

end Layout

namespace Descriptor
variable {d : Descriptor} {l : Layout} {n : Nat}

theorem byteSizeUnsupported (missing : d.layout? = none) : d.byteSize = Result.fail (.unsupportedRank d.format d.dims) := by
  rw [byteSize, Layout.create, show Layout.ofDims? d.dims d.format = none from missing]
  rfl

theorem byteSizeSized (found : d.layout? = some l) (sized : l.Sized d.type.size) :
    d.byteSize = .ok (l.physicalSize * d.type.size) := by
  rw [byteSize, Layout.createCounted found sized.toCounted, Result.okBind, Layout.countPositions,
    Machine.productOk.mpr ⟨sized.positions, rfl⟩]
  exact Machine.wordFits sized.bytes

theorem byteSizeFault (found : d.layout? = some l) (beyond : ¬ l.Sized d.type.size) : d.byteSize = Result.fault := by
  rw [byteSize]
  by_cases counted : l.Counted
  · rw [Layout.createCounted found counted, Result.okBind, Layout.countPositions]
    by_cases positions : Machine.Counts l.blockDims
    · rw [Machine.productOk.mpr ⟨positions, rfl⟩]
      exact Machine.wordFault (Nat.not_lt.mp fun bytes => beyond ⟨counted, positions, bytes⟩)
    · rw [Machine.productFault.mpr positions]
      rfl
  · rw [Layout.createFault found counted]
    rfl

theorem byteSizeOk : d.byteSize = .ok n ↔ ∃ l, d.layout? = some l ∧ l.Sized d.type.size ∧ l.physicalSize * d.type.size = n := by
  constructor
  · intro ok
    cases found : d.layout? with
    | none => cases ok.symm.trans (byteSizeUnsupported found)
    | some l =>
      by_cases sized : l.Sized d.type.size
      · exact ⟨l, rfl, sized, Except.ok.inj ((byteSizeSized found sized).symm.trans ok)⟩
      · cases ok.symm.trans (byteSizeFault found sized)
  · rintro ⟨l, found, sized, rfl⟩
    exact byteSizeSized found sized

theorem byteSizeExact (ok : d.byteSize = .ok n) : d.byteSize? = some n := by
  obtain ⟨l, found, _, size⟩ := byteSizeOk.mp ok
  rw [byteSize?, found, Option.map_some, size]

end Descriptor
end TensorPlan
