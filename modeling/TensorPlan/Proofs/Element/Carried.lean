import TensorPlan.Proofs.Element.Projection
import TensorPlan.Proofs.Elements
import TensorPlan.Proofs.Numeric.Spacing
/-! Integers that are carried as doubles. One that is read as a double and written back comes out as the nearest multiple of
the spacing, clamped: itself in every type up to 32 bits, and of 64 bits if the spacing divides it or it is the greatest. -/
namespace TensorPlan
open Binary (rounded spacing)

theorem Rounding.ofInteger (r : Rounding) (v : Int) : r.toInteger v = v := by
  have integer : whole v = v := by rw [whole, Rat.num_intCast, Rat.den_intCast, Int.natCast_one, Int.tdiv_one]
  cases r with
  | towardZero => exact integer
  | halfEven =>
    have half : (1 / 2 : Rat).floor = 0 := by decide +kernel
    rw [toInteger, nearestEven, integer, sub_self, if_neg (by decide +kernel), nearest]
    split
    · rw [sub_eq_add_neg, ← Rat.intCast_neg, Rat.floor_add_intCast, half]
      omega
    · rw [add_comm, Rat.floor_add_intCast, half]
      omega

namespace ElementType
variable {t : ElementType} {low high v w : Int}

def carried (t : ElementType) (v : Int) : Int :=
  match t.integerRange? with
  | some (low, high) => clamp low high (rounded v)
  | none => rounded v

theorem rangeWord (range : t.integerRange? = some (low, high)) (above : low ≤ v) (below : v ≤ high) : v.natAbs ≤ 2 ^ 63 := by
  cases t <;> cases range <;> omega

theorem boundsRounded (range : t.integerRange? = some (low, high)) : rounded low = low ∧ high ≤ rounded high := by
  cases t <;> cases range <;> decide +kernel

theorem encodeRounded [Widths] (range : t.integerRange? = some (low, high)) (word : v.natAbs < 2 ^ 64) :
    t.encode (Binary.ofInt .double v) = t.writeInteger (rounded v) := by
  obtain ⟨least, greatest⟩ := boundsRounded range
  have read := Binary.readInt (Nat.le_of_lt (bitsBelow word (by decide)))
  obtain ⟨w, prepared, same⟩ : ∃ w : Int, (t.prepare .halfEven (Binary.ofInt .double v)).value? = some (w : Rat) ∧
      clamp low high w = clamp low high (rounded v) := by
    obtain ⟨negative, positive⟩ := rangeOrdered range
    have short : ∀ w : Int, low ≤ w ∧ w ≤ high → w.natAbs.log2 ≤ 64 := fun w inside => by
      have bound := rangeWord range inside.1 inside.2
      exact Nat.le_of_lt (bitsBelow (show w.natAbs < 2 ^ 64 by omega) (by decide))
    simp only [prepare, range, read, Rounding.ofInteger]
    split
    · refine ⟨_, Binary.valueNearest _ (short low (by omega)), ?_⟩
      rw [least, clamp, clamp]
      split <;> omega
    · split
      · refine ⟨_, Binary.valueNearest _ (short high (by omega)), ?_⟩
        unfold clamp
        split <;> omega
      · refine ⟨_, Binary.valueNearest _ (Binary.ofIntRounded word).1, ?_⟩
        rw [Binary.roundedAgain word]
  simp only [encode, writeDouble, integerExact range, range, prepared, writeInteger, Option.map_some, Option.getD_some]
  rw [show Rounding.whole (w : Rat) = w from Rounding.ofInteger .towardZero w, same]

theorem Encodes.double [Widths] {bytes : Bytes} (encodes : t.Encodes v bytes) : t.readDouble bytes = Binary.ofInt .double v := by
  obtain ⟨_, _, range, _⟩ := encodes.range
  simp only [readDouble, integerExact range, encodes.read, Option.getD_some]

theorem Encodes.carried [Widths] {bytes : Bytes} (encodes : t.Encodes v bytes) :
    t.Encodes (t.carried v) (t.encode (t.readDouble bytes)) := by
  obtain ⟨low, high, range, above, below⟩ := encodes.range
  have word := rangeWord range above below
  obtain ⟨negative, positive⟩ := rangeOrdered range
  rw [encodes.double, encodeRounded range (by omega)]
  simp only [ElementType.carried, range, clampNearest (Int.le_trans negative positive)]
  exact writeEncodes range _

section
variable (range : t.integerRange? = some (low, high)) (above : low ≤ v) (below : v ≤ high)
include range above below

theorem carriedExact : t.carried v = v ↔ (spacing v.natAbs : Int) ∣ v ∨ v = high := by
  obtain ⟨least, greatest⟩ := boundsRounded range
  simp only [carried, range, ← Binary.roundedExact]
  constructor
  · intro same
    unfold clamp at same
    split at same
    · subst same
      exact .inl least
    · split at same
      · exact .inr same.symm
      · exact .inl same
  · rintro (same | rfl)
    · rw [same, clampInside above below]
    · rw [clamp, if_neg (by omega)]
      split <;> omega

theorem roundedNarrow (narrow : t ≠ i64) : rounded v = v := by
  have small : v.natAbs < 2 ^ 53 := by cases t <;> cases range <;> first | omega | exact (narrow rfl).elim
  rw [Binary.roundedExact, Binary.spacingOne (Nat.le_of_lt_succ (bitsBelow small (by decide)))]
  exact Int.one_dvd v

theorem carriedNarrow (narrow : t ≠ i64) : t.carried v = v :=
  (carriedExact range above below).mpr (.inl (Binary.roundedExact.mp (roundedNarrow range above below narrow)))

end

theorem roundedWord (word : v.natAbs ≤ 2 ^ 63) : (rounded v).natAbs ≤ 2 ^ 63 ∧ rounded v ≠ 9223372036854775807 := by
  refine ⟨by rw [Binary.roundedSize]; exact Binary.multipleBelow word, fun greatest => ?_⟩
  have again := Binary.roundedAgain (v := v) (by omega)
  rw [greatest] at again
  exact absurd again (by decide +kernel)

theorem carriedSame (range : t.integerRange? = some (low, high)) (first : low ≤ v ∧ v ≤ high) (second : low ≤ w ∧ w ≤ high) :
    t.carried v = t.carried w ↔ rounded v = rounded w := by
  by_cases wide : t = i64
  · subst wide
    have own := roundedWord (rangeWord range first.1 first.2)
    have other := roundedWord (rangeWord range second.1 second.2)
    simp only [carried, integerRange?, clamp]
    constructor
    · intro same
      split at same <;> split at same <;> omega
    · exact fun same => by rw [same]
  · rw [carriedNarrow range first.1 first.2 wide, carriedNarrow range second.1 second.2 wide,
      roundedNarrow range first.1 first.2 wide, roundedNarrow range second.1 second.2 wide]

theorem integersRead [Widths] (range : t.integerRange? = some (low, high)) (elements : List Bytes)
    (sizes : ∀ bytes ∈ elements, bytes.length = t.size) : ∃ vs, collect t.readInteger? elements = some vs ∧
      elements.map t.readDouble = vs.map (Binary.ofInt .double) ∧ ∀ v ∈ vs, low ≤ v ∧ v ≤ high := by
  induction elements with
  | nil => exact ⟨[], rfl, rfl, nofun⟩
  | cons bytes elements ih =>
    rw [List.forall_mem_cons] at sizes
    obtain ⟨v, encodes⟩ := readEncodes range sizes.1
    obtain ⟨vs, rest, doubles, bounds⟩ := ih sizes.2
    refine ⟨v :: vs, by simp only [collect, encodes.read, rest, Option.bind_eq_bind, Option.bind_some], ?_, ?_⟩
    · rw [List.map_cons, List.map_cons, encodes.double, doubles]
    · exact List.forall_mem_cons.mpr ⟨encodes.inside range, bounds⟩

end ElementType

namespace Tensor
variable {t : Tensor} {low high v : Int} {coords : List Nat}

def integer? (t : Tensor) (coords : List Nat) : Option Int := (t.element? coords).bind t.type.readInteger?

theorem elementEncodes [Widths] {bytes : Bytes} (range : t.type.integerRange? = some (low, high))
    (found : t.element? coords = some bytes) : ∃ v, t.integer? coords = some v ∧ t.type.Encodes v bytes := by
  obtain ⟨v, encodes⟩ := ElementType.readEncodes range (elementSize found)
  exact ⟨v, by rw [integer?, found, Option.bind_some, encodes.read], encodes⟩

theorem integerDouble [Widths] (range : t.type.integerRange? = some (low, high)) :
    t.double? coords = (t.integer? coords).map (Binary.ofInt .double) := by
  cases found : t.element? coords with
  | none => rw [double?, integer?, found, Option.map_none, Option.bind_none, Option.map_none]
  | some bytes =>
    obtain ⟨v, read, encodes⟩ := elementEncodes range found
    rw [double?, found, read, Option.map_some, Option.map_some, encodes.double]

theorem integerInside [Widths] (range : t.type.integerRange? = some (low, high)) (found : t.integer? coords = some v) :
    low ≤ v ∧ v ≤ high := by
  obtain ⟨bytes, held, read⟩ := Option.bind_eq_some_iff.mp found
  obtain ⟨w, own, encodes⟩ := elementEncodes range held
  cases found.symm.trans own
  exact encodes.inside range

theorem integersDoubles [Widths] (range : t.type.integerRange? = some (low, high)) : ∃ vs, t.integers? = some vs ∧
    t.doubles = vs.map (Binary.ofInt .double) ∧ ∀ v ∈ vs, low ≤ v ∧ v ≤ high := by
  obtain ⟨l, _, held⟩ := t.layoutFits
  have items := Bytes.piecesItems (ElementType.sizePositive t.type) held
  obtain ⟨vs, read, doubles, bounds⟩ := ElementType.integersRead range t.elements fun bytes member => by
    rw [elements, items] at member
    obtain ⟨i, below, rfl⟩ := List.mem_map.mp member
    exact Bytes.itemLength (by rw [held]; exact Nat.mul_le_mul_right _ (List.mem_range.mp below))
  have integer : t.type.isFloat = false := by rw [ElementType.isFloat, ElementType.integerExact range, Option.isSome_none]
  refine ⟨vs, ?_, doubles, bounds⟩
  rw [integers?, integer, if_neg Bool.false_ne_true, read]

end Tensor
end TensorPlan
