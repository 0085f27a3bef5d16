import Mathlib.Algebra.Group.Int.Defs
import TensorPlan.Element.UpperWord
import TensorPlan.Proofs.Integers
/-! Integers from one element type to another. An element encodes one integer of its type, and each of these integers has
one encoding. Conversion leads to the encoding of the nearest integer of the other type, whatever the rounding. -/
namespace TensorPlan.ElementType
variable {t source target : ElementType} {low high low' high' v w : Int} {bytes other : Bytes}

structure Encodes (t : ElementType) (v : Int) (bytes : Bytes) : Prop where
  range : ∃ low high, t.integerRange? = some (low, high) ∧ low ≤ v ∧ v ≤ high
  size : bytes.length = t.size
  number : (bytes.toNat : Int) = v % 256 ^ t.size

theorem Encodes.inside (encodes : t.Encodes v bytes) (range : t.integerRange? = some (low, high)) : low ≤ v ∧ v ≤ high := by
  obtain ⟨_, _, own, inside⟩ := encodes.range
  cases own.symm.trans range
  exact inside

theorem bytesPower (count : Nat) : ((pow2 (8 * count) : Nat) : Int) = 256 ^ count := by
  rw [pow2Eq, Nat.pow_mul, Int.natCast_pow]
  rfl

theorem rangeOrdered (range : t.integerRange? = some (low, high)) : low ≤ 0 ∧ 0 ≤ high := by
  cases t <;> cases range <;> decide

theorem integerExact (range : t.integerRange? = some (low, high)) : t.floatFormat? = none := by
  cases t <;> first | rfl | cases range

theorem ofIntEncodes (range : t.integerRange? = some (low, high)) (above : low ≤ v) (below : v ≤ high) :
    t.Encodes v (Bytes.ofInt t.size v) :=
  ⟨⟨low, high, range, above, below⟩, Bytes.ofNatLength _ _, by rw [Bytes.toNatOfInt, bytesPower]⟩

theorem Encodes.written (encodes : t.Encodes v bytes) : Bytes.ofInt t.size v = bytes := by
  rw [← encodes.size]
  refine Bytes.ofIntBytes bytes ?_
  rw [bytesPower, encodes.size, encodes.number]

theorem Encodes.unique (encodes : t.Encodes v bytes) (again : t.Encodes v other) : bytes = other :=
  encodes.written.symm.trans again.written

theorem Encodes.read [Widths] (encodes : t.Encodes v bytes) : t.readInteger? bytes = some v := by
  obtain ⟨low, high, range, above, below⟩ := encodes.range
  rw [← encodes.written, ← writeInside range above below]
  exact readWritten range above below

theorem Encodes.decoded [Widths] (encodes : t.Encodes v bytes) (again : t.Encodes w bytes) : v = w :=
  Option.some.inj (encodes.read.symm.trans again.read)

theorem readEncodes (range : t.integerRange? = some (low, high)) (size : bytes.length = t.size) :
    ∃ v, t.Encodes v bytes := by
  obtain ⟨v, _, above, below, written⟩ := readRange range size
  exact ⟨v, written ▸ ofIntEncodes range above below⟩

theorem clampNearest (ordered : low ≤ high) : clamp low high v = max low (min high v) := by
  unfold clamp
  split
  · omega
  · split <;> omega

theorem writeEncodes [Widths] (range : t.integerRange? = some (low, high)) (v : Int) :
    t.Encodes (max low (min high v)) (t.writeInteger v) := by
  obtain ⟨negative, positive⟩ := rangeOrdered range
  have written : t.writeInteger v = Bytes.ofInt t.size (max low (min high v)) := by
    simp only [writeInteger, integerExact range, range, clampNearest (Int.le_trans negative positive)]
  rw [written]
  exact ofIntEncodes range (by omega) (by omega)

theorem convertEncodes [Widths] (encodes : source.Encodes v bytes) (range : target.integerRange? = some (low, high)) (r : Rounding) :
    target.Encodes (max low (min high v)) (source.convert bytes target r) := by
  by_cases same : source = target
  · subst same
    obtain ⟨above, below⟩ := encodes.inside range
    rw [convert, if_pos rfl, Int.min_eq_right below, Int.max_eq_right above]
    exact encodes
  · simp only [convert, if_neg same, encodes.read]
    exact writeEncodes range v

/-- Conversion between integer types is the projection onto the target's integers, encoded: it keeps the order, a second
conversion changes nothing, and nothing is lost of an integer that both types have. -/
theorem integersProjected [Widths] (source target : ElementType) (low high low' high' : Int)
    (range : source.integerRange? = some (low, high)) (range' : target.integerRange? = some (low', high'))
    (r r' r'' : Rounding) :
    (∀ v, low ≤ v → v ≤ high → ∃! bytes, source.Encodes v bytes) ∧
    ∀ v bytes, source.Encodes v bytes →
      target.Encodes (max low' (min high' v)) (source.convert bytes target r) ∧
      (∀ w other v' w', source.Encodes w other → target.Encodes v' (source.convert bytes target r) →
        target.Encodes w' (source.convert other target r) → v ≤ w → v' ≤ w') ∧
      target.convert (source.convert bytes target r) target r' = source.convert bytes target r ∧
      source.convert (target.convert (source.convert bytes target r) source r') target r'' =
        source.convert bytes target r ∧
      (low' ≤ v → v ≤ high' → target.Encodes v (source.convert bytes target r) ∧
        target.convert (source.convert bytes target r) source r' = bytes) := by
  refine ⟨fun v above below => ⟨_, ofIntEncodes range above below, fun _ own => own.written.symm⟩, fun v bytes encodes => ?_⟩
  have there := convertEncodes encodes range' r
  have back := convertEncodes there range r'
  have again := convertEncodes back range' r''
  obtain ⟨negative, positive⟩ := rangeOrdered range
  obtain ⟨negative', positive'⟩ := rangeOrdered range'
  obtain ⟨above, below⟩ := encodes.inside range
  refine ⟨there, fun w other v' w' first second third order => ?_, by rw [convert, if_pos rfl], ?_,
    fun lower upper => ⟨?_, ?_⟩⟩
  · rw [second.decoded there, third.decoded (convertEncodes first range' r)]
    omega
  · have projected : max low' (min high' (max low (min high (max low' (min high' v))))) = max low' (min high' v) := by omega
    exact (projected ▸ again).unique there
  · rwa [Int.min_eq_right upper, Int.max_eq_right lower] at there
  · have restored : max low (min high (max low' (min high' v))) = v := by omega
    exact (restored ▸ back).unique encodes

theorem integersProjectedOfWords :
    let below : Bytes := [251, 255, 255, 255, 255, 255, 255, 255]
    let above : Bytes := [44, 1, 0, 0, 0, 0, 0, 0]
    let inside : Bytes := [7, 0, 0, 0, 0, 0, 0, 0]
    i64.Encodes (-5) below ∧ u8.Encodes 0 (i64.convert below u8 .halfEven) ∧
      i64.Encodes 300 above ∧ u8.Encodes 255 (i64.convert above u8 .halfEven) ∧
      u8.convert (i64.convert inside u8 .halfEven) i64 .towardZero = inside := by
  intro below above inside
  obtain ⟨_, projects⟩ := integersProjected i64 u8 _ _ _ _ rfl rfl .halfEven .towardZero .halfEven
  have first : i64.Encodes (-5) below := ⟨⟨_, _, rfl, by decide, by decide⟩, rfl, by decide⟩
  have second : i64.Encodes 300 above := ⟨⟨_, _, rfl, by decide, by decide⟩, rfl, by decide⟩
  have third : i64.Encodes 7 inside := ⟨⟨_, _, rfl, by decide, by decide⟩, rfl, by decide⟩
  obtain ⟨_, _, _, _, kept⟩ := projects 7 inside third
  exact ⟨first, (projects (-5) below first).1, second, (projects 300 above second).1, (kept (by decide) (by decide)).2⟩

end TensorPlan.ElementType
