import TensorPlan.Proofs.Elements
import TensorPlan.Proofs.Layout.Sizes
/-! Cutting a tensor to its first rows. A row is what lies behind one index of the outermost dimension. -/
namespace TensorPlan

theorem Descriptor.rowsOrNone (d : Descriptor) :
    (∃ n ds type, d = .plain (n :: ds) type) ∨ d.format ≠ .plain ∨ d.dims = [] := by
  obtain ⟨dims, type, format⟩ := d
  by_cases plain : format = .plain
  · cases plain
    cases dims with
    | nil => exact .inr (.inr rfl)
    | cons n ds => exact .inl ⟨n, ds, type, rfl⟩
  · exact .inr (.inl plain)

namespace Tensor
open Index (Within)
variable {t : Tensor} {d rows : Nat} {ds : List Nat} {type : ElementType}

theorem recountHeld {data : Bytes} (held : data ≠ []) (kept : Descriptor) : recount data kept = .ok () := if_neg held

theorem recountEither (data : Bytes) (dims : List Nat) (type : ElementType) :
    recount data (.plain dims type) = .ok () ∨
      (data = [] ∧ (Descriptor.plain dims type).byteSize = Result.fault ∧ recount data (.plain dims type) = Result.fault) := by
  by_cases empty : data = []
  · rw [recount, if_pos empty]
    have found : (Descriptor.plain dims type).layout? = some ⟨.plain, dims, rfl⟩ := rfl
    by_cases sized : (Layout.mk .plain dims rfl).Sized type.size
    · rw [Descriptor.byteSizeSized found sized]
      exact .inl rfl
    · rw [Descriptor.byteSizeFault found sized]
      exact .inr ⟨empty, rfl, rfl⟩
  · exact .inl (recountHeld empty _)

theorem noRowsSized {n : Nat} (word : n < pow2 64) (size : Nat) : (Layout.mk .plain [0, n] rfl).Sized size := by
  have axes : (Layout.mk .plain [0, n] rfl).blockDims = [0, n] := Layout.blockDimsPlain _ rfl
  refine ⟨⟨fun _ given => (nomatch given), fun s member => ?_⟩, fun k => ?_, ?_⟩
  · rw [Layout.strides, axes] at member
    have strides : s = n ∨ s = 1 := by simpa [TensorPlan.strides] using member
    rcases strides with rfl | rfl
    · exact word
    · decide
  · rw [axes]
    cases k with
    | zero => exact Nat.one_lt_two_pow (by decide)
    | succ k => simp [pow2]
  · rw [Layout.physicalSize, axes, volumeCons, Nat.zero_mul, Nat.zero_mul]
    decide

theorem recountRows {data : Bytes} {n : Nat} (positive : 0 < n) (word : n < pow2 64) (less : rows ≤ d)
    (length : data.length = volume [d, n] * type.size) : recount data (.plain [rows, n] type) = .ok () := by
  obtain counted | ⟨empty, beyond, _⟩ := recountEither data [rows, n] type
  · exact counted
  · rw [empty, List.length_nil, eq_comm, Nat.mul_eq_zero, volumeZero] at length
    have none : 0 ∈ [d, n] := length.resolve_right (Nat.ne_of_gt type.sizePositive)
    simp only [List.mem_cons, List.not_mem_nil, or_false] at none
    obtain rfl : rows = 0 := by omega
    cases beyond.symm.trans (Descriptor.byteSizeSized rfl (noRowsSized word type.size))

theorem truncateOk {data : Bytes} (described : t.descriptor = .plain (d :: ds) type) (less : rows ≤ d)
    (counted : recount t.data (.plain (rows :: ds) type) = .ok ()) (kept : t.data.take (rows * volume ds * type.size) = data)
    (size : (Descriptor.plain (rows :: ds) type).byteSize? = some data.length) :
    t.truncateOuter rows = .ok ⟨.plain (rows :: ds) type, data, size⟩ := by
  have dims : t.dims = d :: ds := by rw [Tensor.dims, described]; rfl
  have plain : t.format = .plain := by rw [Tensor.format, described]; rfl
  have own : t.type = type := by rw [Tensor.type, described]; rfl
  have count : (Descriptor.plain (rows :: ds) type).count = rows * volume ds := rfl
  unfold truncateOuter
  rw [plain, dims, own]
  simp only [Result.ensure, less, decide_true, if_true, Result.okBind, counted, count, kept, Tensor.ofBytes?, dif_pos size,
    Result.orFaultSome]

theorem truncateBeyond (described : t.descriptor = .plain (d :: ds) type) (less : rows ≤ d)
    (beyond : recount t.data (.plain (rows :: ds) type) = Result.fault) : t.truncateOuter rows = Result.fault := by
  have dims : t.dims = d :: ds := by rw [Tensor.dims, described]; rfl
  have plain : t.format = .plain := by rw [Tensor.format, described]; rfl
  have own : t.type = type := by rw [Tensor.type, described]; rfl
  unfold truncateOuter
  rw [plain, dims, own]
  simp only [Result.ensure, less, decide_true, if_true, Result.okBind, beyond]
  rfl

theorem truncateGrows (described : t.descriptor = .plain (d :: ds) type) (more : d < rows) :
    t.truncateOuter rows = Result.fail (.truncateGrows d rows) := by
  have dims : t.dims = d :: ds := by rw [Tensor.dims, described]; rfl
  have plain : t.format = .plain := by rw [Tensor.format, described]; rfl
  unfold truncateOuter
  rw [plain, dims]
  simp only [Result.ensure, Nat.not_le.mpr more, decide_false, Bool.false_eq_true, if_false]
  rfl

theorem truncateShape (rows : Nat) (other : t.format ≠ .plain ∨ t.dims = []) :
    t.truncateOuter rows = Result.fail .truncateShape := by
  unfold truncateOuter
  split
  · rename_i plain dims
    simp [plain, dims] at other
  · rfl

theorem truncateBytes (described : t.descriptor = .plain (d :: ds) type) (less : rows ≤ d)
    (counted : recount t.data (.plain (rows :: ds) type) = .ok ()) :
    ∃ u, t.truncateOuter rows = .ok u ∧ u.descriptor = .plain (rows :: ds) type ∧
      u.data = t.data.take (rows * (volume ds * type.size)) := by
  have length := t.plainBytes described
  rw [volumeCons, Nat.mul_assoc] at length
  have enough : rows * (volume ds * type.size) ≤ t.data.length := by
    rw [length]
    exact Nat.mul_le_mul_right _ less
  have size : (Descriptor.plain (rows :: ds) type).byteSize? =
      some (t.data.take (rows * (volume ds * type.size))).length := by
    rw [Descriptor.plainSize, volumeCons, Nat.mul_assoc, List.length_take, Nat.min_eq_left enough]
  exact ⟨_, truncateOk described less counted (by rw [Nat.mul_assoc]) size, rfl, rfl⟩

theorem rowElement {i : Nat} {index : List Nat} (described : t.descriptor = .plain (d :: ds) type) (inside : i < d)
    (within : Within index ds) : t.element? (i :: index) =
      some (Bytes.item type.size t.data (i * volume ds + dot index (strides ds))) := by
  obtain ⟨l, layout, _⟩ := t.layoutFits
  have dims : t.dims = d :: ds := by rw [Tensor.dims, described]; rfl
  have own : t.type = type := by rw [Tensor.type, described]; rfl
  have coords : Within (i :: index) t.dims := by rw [dims]; exact .cons inside within
  have layoutOf := Descriptor.layoutOk layout
  rw [elementItem layout coords, own, l.plainOffset (layoutOf.1.trans (by rw [described]; rfl))]
  · rw [layoutOf.2, described]
    rfl
  · rw [Layout.rank, layoutOf.2]
    exact Index.withinLength coords

theorem truncateElements {u : Tensor} (described : t.descriptor = .plain (d :: ds) type) (less : rows ≤ d)
    (cut : u.descriptor = .plain (rows :: ds) type) (data : u.data = t.data.take (rows * (volume ds * type.size)))
    {i : Nat} {index : List Nat} (inside : i < rows) (within : Within index ds) :
    u.element? (i :: index) = t.element? (i :: index) := by
  rw [rowElement cut inside within, rowElement described (Nat.lt_of_lt_of_le inside less) within, data, ← Nat.mul_assoc]
  have below := digitsBelow inside (Index.dotBound within)
  have room : (i * volume ds + dot index (strides ds)) * type.size + type.size ≤ rows * volume ds * type.size := by
    rw [← Nat.succ_mul]
    exact Nat.mul_le_mul_right _ below
  rw [Bytes.item, Bytes.item, List.drop_take, List.take_take, Nat.min_eq_left (by omega)]

end Tensor
end TensorPlan
