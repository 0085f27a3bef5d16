import TensorPlan.Proofs.Computation
import TensorPlan.Proofs.Encoding
import TensorPlan.Proofs.Items
import TensorPlan.Proofs.RowMajor
/-! Positions of a layout. Every format arranges the coordinates of an element into an index within the
physical axes and restores them from it, so elements lie inside the memory of the layout, apart from each
other, and the position of an element leads back to its coordinates. -/
namespace TensorPlan

namespace MemoryFormat

theorem blockPositive {f : MemoryFormat} {block : Nat} (blocked : f.blockSize? = some block) : 0 < block := by
  cases f <;> simp [blockSize?] at blocked <;> omega

theorem supportedCases {f : MemoryFormat} {rank : Nat} (supported : f.supportsRank rank = true) :
    f = .plain ∨ (f = .channelsLast ∧ 3 ≤ rank) ∨ ∃ block, f.blockSize? = some block ∧ 3 ≤ rank := by
  cases f with
  | plain => exact .inl rfl
  | channelsLast => exact .inr (.inl ⟨rfl, by simpa [supportsRank] using supported⟩)
  | blocked8 => exact .inr (.inr ⟨8, rfl, by simpa [supportsRank] using supported⟩)
  | blocked16 => exact .inr (.inr ⟨16, rfl, by simpa [supportsRank] using supported⟩)

end MemoryFormat

namespace Index

theorem withinSplit {index ds es : List Nat} (within : Within index (ds ++ es)) :
    ∃ is js, index = is ++ js ∧ Within is ds ∧ Within js es := by
  induction ds generalizing index with
  | nil => exact ⟨[], index, rfl, .nil, within⟩
  | cons d ds ih =>
    cases within with
    | cons below rest =>
      obtain ⟨is, js, joined, first, second⟩ := ih rest
      exact ⟨_ :: is, js, by rw [joined]; rfl, .cons below first, second⟩

theorem withinLast {index : List Nat} (ds : List Nat) {e : Nat} (within : Within index (ds ++ [e])) :
    ∃ is j, index = is ++ [j] ∧ Within is ds ∧ j < e := by
  obtain ⟨is, js, joined, first, second⟩ := withinSplit within
  cases second with
  | cons below rest => cases rest; exact ⟨is, _, joined, first, below⟩

theorem withinChannels {index ds : List Nat} {n c : Nat} (within : Within index (n :: c :: ds)) :
    ∃ i j rest, index = i :: j :: rest ∧ i < n ∧ j < c ∧ Within rest ds := by
  cases within with
  | cons batch within =>
    cases within with
    | cons channel rest => exact ⟨_, _, _, rfl, batch, channel, rest⟩

end Index

namespace Layout
open Index (Within)
variable {f : MemoryFormat} {block n c : Nat} {spatial : List Nat}

theorem arrangeBlocked (blocked : f.blockSize? = some block) (n c : Nat) (spatial : List Nat) :
    arrange f (n :: c :: spatial) = n :: c / block :: spatial ++ [c % block] := by
  unfold arrange; rw [blocked]; rfl

theorem restoreLast (n c : Nat) (spatial : List Nat) :
    restore .channelsLast (n :: (spatial ++ [c])) = n :: c :: spatial := by
  simp [restore, MemoryFormat.blockSize?, channelsToFront]

theorem restoreBlocked (blocked : f.blockSize? = some block) (n group place : Nat) (spatial : List Nat) :
    restore f (n :: group :: (spatial ++ [place])) = n :: (group * block + place) :: spatial := by
  unfold restore; rw [blocked]
  simp [joinChannel]

theorem blockDimsPlain (l : Layout) (plain : l.format = .plain) : l.blockDims = l.dims := by
  unfold blockDims; simp [plain, MemoryFormat.blockSize?]

theorem blockDimsLast (l : Layout) (last : l.format = .channelsLast) : l.blockDims = channelsToBack l.dims := by
  unfold blockDims; simp [last, MemoryFormat.blockSize?]

theorem blockDimsBlocked (l : Layout) (blocked : l.format.blockSize? = some block)
    (dims : l.dims = n :: c :: spatial) : l.blockDims = n :: blocksFor c block :: spatial ++ [block] := by
  unfold blockDims; rw [blocked, dims]

theorem threeAxes {coords : List Nat} (enough : 3 ≤ coords.length) : ∃ n c spatial, coords = n :: c :: spatial := by
  match coords, enough with
  | n :: c :: spatial, _ => exact ⟨n, c, spatial, rfl⟩

theorem restoreArrange {coords : List Nat} (supported : f.supportsRank coords.length = true) :
    restore f (arrange f coords) = coords := by
  obtain plain | ⟨last, enough⟩ | ⟨block, blocked, enough⟩ := MemoryFormat.supportedCases supported
  · subst plain; rfl
  · obtain ⟨n, c, spatial, shape⟩ := threeAxes enough
    subst last shape
    exact restoreLast n c spatial
  · obtain ⟨n, c, spatial, shape⟩ := threeAxes enough
    subst shape
    rw [arrangeBlocked blocked]
    simp only [List.cons_append, restoreBlocked blocked, Nat.mul_comm, Nat.div_add_mod]

theorem groupBound {c channels block : Nat} (positive : 0 < block) (below : c < channels) :
    c / block < blocksFor channels block := by
  rw [blocksFor, Nat.div_lt_iff_lt_mul positive]
  have whole := Nat.div_add_mod (channels + block - 1) block
  have rest := Nat.mod_lt (channels + block - 1) positive
  rw [Nat.mul_comm] at whole
  omega

theorem formatCases (l : Layout) :
    (l.format = .plain ∧ l.blockDims = l.dims) ∨
      (∃ n c spatial, l.format = .channelsLast ∧ l.dims = n :: c :: spatial ∧ l.blockDims = n :: spatial ++ [c]) ∨
      ∃ block n c spatial, l.format.blockSize? = some block ∧ 0 < block ∧ l.dims = n :: c :: spatial ∧
        l.blockDims = n :: blocksFor c block :: spatial ++ [block] := by
  obtain plain | ⟨last, enough⟩ | ⟨block, blocked, enough⟩ := MemoryFormat.supportedCases l.supported
  · exact .inl ⟨plain, blockDimsPlain l plain⟩
  · obtain ⟨n, c, spatial, dims⟩ := threeAxes enough
    exact .inr (.inl ⟨n, c, spatial, last, dims, by rw [blockDimsLast l last, dims]; rfl⟩)
  · obtain ⟨n, c, spatial, dims⟩ := threeAxes enough
    exact .inr (.inr ⟨block, n, c, spatial, blocked, MemoryFormat.blockPositive blocked, dims,
      blockDimsBlocked l blocked dims⟩)

theorem arrangeWithin (l : Layout) {coords : List Nat} (within : Within coords l.dims) :
    Within (arrange l.format coords) l.blockDims := by
  obtain ⟨plain, axes⟩ | ⟨n, c, spatial, last, dims, axes⟩ | ⟨block, n, c, spatial, blocked, positive, dims, axes⟩ :=
    l.formatCases
  · rw [axes, plain]
    exact within
  · rw [dims] at within
    obtain ⟨_, _, _, joined, batch, channel, rest⟩ := Index.withinChannels within
    rw [axes, last, joined]
    exact .cons batch (Index.withinAppend rest (.cons channel .nil))
  · rw [dims] at within
    obtain ⟨_, _, _, joined, batch, channel, rest⟩ := Index.withinChannels within
    rw [axes, joined, arrangeBlocked blocked]
    exact .cons batch (.cons (groupBound positive channel)
      (Index.withinAppend rest (.cons (Nat.mod_lt _ positive) .nil)))

theorem arrangedIndex (l : Layout) {index : List Nat} (within : Within index l.blockDims) :
    ∃ coords, index = arrange l.format coords ∧ coords.length = l.rank ∧
      (l.holds coords = true → Within coords l.dims) := by
  obtain ⟨plain, axes⟩ | ⟨n, c, spatial, last, dims, axes⟩ | ⟨block, n, c, spatial, blocked, positive, dims, axes⟩ :=
    l.formatCases
  · rw [axes] at within
    exact ⟨index, by rw [plain]; rfl, Index.withinLength within, fun _ => within⟩
  · rw [axes] at within
    obtain ⟨is, channel, joined, front, below⟩ := Index.withinLast (n :: spatial) within
    cases front with
    | @cons batch _ is _ first front =>
      refine ⟨batch :: channel :: is, by rw [joined, last]; rfl, ?_, fun _ => ?_⟩
      · rw [rank, dims]; simp [Index.withinLength front]
      · rw [dims]; exact .cons first (.cons below front)
  · rw [axes] at within
    obtain ⟨is, place, joined, front, small⟩ := Index.withinLast (n :: blocksFor c block :: spatial) within
    cases front with
    | @cons batch _ _ _ first front =>
      cases front with
      | @cons group _ is _ _ front =>
        have remainder : (group * block + place) % block = place := by
          rw [Nat.mul_add_mod', Nat.mod_eq_of_lt small]
        refine ⟨batch :: (group * block + place) :: is, ?_, ?_, fun held => ?_⟩
        · rw [joined, arrangeBlocked blocked, quotientDigit small, remainder]
        · rw [rank, dims]; simp [Index.withinLength front]
        · rw [dims]
          refine .cons first (.cons ?_ front)
          simpa [holds, MemoryFormat.isBlocked, blocked, dims] using held

theorem holdsUnblocked (l : Layout) (unblocked : l.format.blockSize? = none) (coords : List Nat) :
    l.holds coords = true := by
  simp [holds, MemoryFormat.isBlocked, unblocked]

theorem holdsWithin (l : Layout) {coords : List Nat} (within : Within coords l.dims) : l.holds coords = true := by
  obtain ⟨plain, _⟩ | ⟨n, c, spatial, last, _, _⟩ | ⟨block, n, c, spatial, _, _, dims, _⟩ := l.formatCases
  · exact l.holdsUnblocked (by rw [plain]; rfl) coords
  · exact l.holdsUnblocked (by rw [last]; rfl) coords
  · rw [dims] at within
    obtain ⟨_, _, _, joined, _, channel, _⟩ := Index.withinChannels within
    simp [holds, joined, dims, channel]

theorem noBlocks {block : Nat} (positive : 0 < block) (c : Nat) : 0 = blocksFor c block ↔ 0 = c := by
  constructor
  · intro none
    cases c with
    | zero => rfl
    | succ c => exact absurd (groupBound positive (Nat.succ_pos c)) (by simp [← none])
  · intro none
    rw [← none, blocksFor, Nat.zero_add, Nat.div_eq_of_lt (by omega)]

theorem emptyAxes (l : Layout) : 0 ∈ l.blockDims ↔ 0 ∈ l.dims := by
  obtain ⟨_, axes⟩ | ⟨n, c, spatial, _, dims, axes⟩ | ⟨block, n, c, spatial, _, positive, dims, axes⟩ := l.formatCases
  · rw [axes]
  · rw [axes, dims]
    simp [or_comm]
  · have filled : (0 = block) = False := by simp; omega
    rw [axes, dims]
    simp only [List.cons_append, List.mem_cons, List.mem_append, noBlocks positive, filled, List.not_mem_nil, or_false]

section
variable (l : Layout) {coords : List Nat} {position : Nat}

theorem rankSupported (length : coords.length = l.rank) : l.format.supportsRank coords.length = true := by
  rw [length]; exact l.supported

theorem offsetArranged (length : coords.length = l.rank) :
    l.offset coords = dot (arrange l.format coords) (TensorPlan.strides l.blockDims) := by
  rw [offset, List.take_of_length_le (Nat.le_of_eq length), strides]

theorem plainOffset (plain : l.format = .plain) (length : coords.length = l.rank) :
    l.offset coords = dot coords (TensorPlan.strides l.dims) := by
  rw [l.offsetArranged length, l.blockDimsPlain plain, plain]
  rfl

theorem contiguousOffset {dims : List Nat} (length : coords.length = dims.length) :
    (contiguous dims).offset coords = dot coords (TensorPlan.strides dims) := (contiguous dims).plainOffset rfl length

theorem offsetSome (length : coords.length = l.rank) : l.offset? coords = some (l.offset coords) :=
  if_pos (.inr (Nat.le_of_eq length.symm))

theorem offsetInside (within : Within coords l.dims) : l.offset coords < l.physicalSize := by
  rw [l.offsetArranged (Index.withinLength within)]
  exact Index.dotBound (l.arrangeWithin within)

theorem physicalFull (inside : position < l.physicalSize) : 0 ∉ l.blockDims := volumeFull inside

theorem coordinatesInside (inside : position < l.physicalSize) :
    l.coordinates position = restore l.format (Index.ofPosition l.blockDims position) := by
  rw [coordinates, strides, Index.digitsStrides inside]

theorem coordinatesSome (inside : position < l.physicalSize) :
    l.coordinates? position = some (l.holds (l.coordinates position), l.coordinates position) :=
  if_neg (stridesFull (l.physicalFull inside))

theorem positionArranged (inside : position < l.physicalSize) :
    Index.ofPosition l.blockDims position = arrange l.format (l.coordinates position) ∧
      (l.coordinates position).length = l.rank ∧
      (l.holds (l.coordinates position) = true → Within (l.coordinates position) l.dims) := by
  have within := Index.ofPositionWithin (l.physicalFull inside) position
  obtain ⟨coords, arranged, length, element⟩ := l.arrangedIndex within
  rw [l.coordinatesInside inside, arranged, restoreArrange (l.rankSupported length)]
  exact ⟨rfl, length, element⟩

theorem offsetCoordinates (inside : position < l.physicalSize) : l.offset (l.coordinates position) = position := by
  obtain ⟨arranged, length, _⟩ := l.positionArranged inside
  rw [l.offsetArranged length, ← arranged, Index.dotOfPosition inside]

theorem coordinatesOffset (within : Within coords l.dims) : l.coordinates (l.offset coords) = coords := by
  have length := Index.withinLength within
  rw [l.coordinatesInside (l.offsetInside within), l.offsetArranged length,
    Index.ofPositionDot (l.arrangeWithin within), restoreArrange (l.rankSupported length)]

end
end Layout

theorem Descriptor.layoutOk {d : Descriptor} {l : Layout} (ok : d.layout = .ok l) :
    l.format = d.format ∧ l.dims = d.dims := by
  have found := Result.ofOptionOk.mp ok
  unfold layout? Layout.ofDims? at found
  split at found
  · cases found; exact ⟨rfl, rfl⟩
  · cases found

theorem Descriptor.layoutSupported {d : Descriptor} (supported : d.format.supportsRank d.dims.length = true) :
    d.layout = .ok ⟨d.format, d.dims, supported⟩ := by
  rw [layout, layout?, Layout.ofDims?, dif_pos supported, Result.ofOptionSome]

theorem Tensor.layoutFits (t : Tensor) :
    ∃ l, t.descriptor.layout = .ok l ∧ t.data.length = l.physicalSize * t.type.size := by
  have fits := t.fits
  rw [Descriptor.byteSize?, Option.map_eq_some_iff] at fits
  obtain ⟨l, found, size⟩ := fits
  exact ⟨l, Result.ofOptionOk.mpr found, size.symm⟩

theorem Descriptor.layoutSize {d : Descriptor} {l : Layout} (ok : d.layout = .ok l) :
    d.byteSize? = some (l.physicalSize * d.type.size) := by
  have found : d.layout? = some l := Result.ofOptionOk.mp ok
  rw [byteSize?, found, Option.map_some]

theorem Descriptor.plainSize (dims : List Nat) (type : ElementType) :
    (Descriptor.plain dims type).byteSize? = some (volume dims * type.size) := by
  have layout := Descriptor.layoutSupported (d := .plain dims type) rfl
  rw [layoutSize layout, Layout.physicalSize, Layout.blockDimsPlain _ rfl]
  rfl

theorem Tensor.plannedSource {inputs given : List Tensor} {data : Tensor} (first : inputs[0]? = some data)
    (same : given.map Tensor.descriptor = inputs.map Tensor.descriptor) :
    ∃ source l, given[0]? = some source ∧ source.descriptor = data.descriptor ∧ data.descriptor.layout = .ok l ∧
      source.data.length = l.physicalSize * data.descriptor.type.size := by
  have head := congrArg (·[0]?) same
  simp only [List.getElem?_map, first, Option.map_some, Option.map_eq_some_iff] at head
  obtain ⟨source, found, descriptor⟩ := head
  obtain ⟨l, layout, held⟩ := source.layoutFits
  rw [descriptor] at layout
  rw [Tensor.type, descriptor] at held
  exact ⟨source, l, found, descriptor, layout, held⟩

theorem Tensor.elementsLength (t : Tensor) (plain : t.format = .plain) : t.elements.length = t.count := by
  obtain ⟨l, layout, held⟩ := t.layoutFits
  have layoutOf := Descriptor.layoutOk layout
  rw [elements, Bytes.piecesItems (ElementType.sizePositive t.type) held, List.length_map, List.length_range,
    Layout.physicalSize, l.blockDimsPlain (layoutOf.1.trans plain), layoutOf.2]
  rfl

theorem Tensor.plainBytes (t : Tensor) {dims : List Nat} {type : ElementType} (described : t.descriptor = .plain dims type) :
    t.data.length = volume dims * type.size := by
  obtain ⟨l, layout, held⟩ := t.layoutFits
  rw [described] at layout
  have layoutOf := Descriptor.layoutOk layout
  rw [held, Layout.physicalSize, l.blockDimsPlain layoutOf.1, layoutOf.2, Tensor.type, described]
  rfl

end TensorPlan
