import TensorPlan.Element.Conversion
import TensorPlan.Proofs.Items
/-! Encoded elements. Every writer yields as many bytes as the element type has. An element of zero bytes stays one under
every conversion, and a NaN becomes one where the target is an integer type. -/
namespace TensorPlan.ElementType

theorem sizePositive (t : ElementType) : 0 < t.size := by cases t <;> decide

variable [Widths]

theorem writeDoubleLength (t : ElementType) (r : Rounding) (x : Double) : (t.writeDouble r x).length = t.size := by
  cases t <;> exact Bytes.ofNatLength _ _

theorem writeIntegerLength (t : ElementType) (v : Int) : (t.writeInteger v).length = t.size := by
  cases t <;> exact Bytes.ofNatLength _ _

theorem encodeLength (t : ElementType) (x : Double) : (t.encode x).length = t.size := writeDoubleLength t .halfEven x

theorem convertLength {source : ElementType} {bytes : Bytes} (size : bytes.length = source.size)
    (target : ElementType) (r : Rounding) : (source.convert bytes target r).length = target.size := by
  unfold convert
  split
  · rename_i same; rw [size, same]
  · split
    · exact writeIntegerLength target _
    · exact writeDoubleLength target r _

omit [Widths] in
theorem memberOfAll (t : ElementType) : t ∈ all := by cases t <;> decide

omit [Widths] in
theorem zeroInt : Binary.ofInt .double 0 = Binary.zero .double false := by decide

omit [Widths] in
theorem integerZeros (t : ElementType) : (t.readInteger? (Bytes.zeros t.size)).getD 0 = 0 := by
  cases t <;> decide +kernel

theorem readDoubleFloat {t : ElementType} {f : BinaryFormat} (format : t.floatFormat? = some f) (bytes : Bytes) :
    t.readDouble bytes = Widths.widen (Binary.ofBits f bytes.toNat) := by
  rw [readDouble, format]

theorem readDoubleNumber {t : ElementType} {f : BinaryFormat} (format : t.floatFormat? = some f) {bytes : Bytes}
    (number : (Binary.ofBits f bytes.toNat).isNaN = false) :
    t.readDouble bytes = Binary.convert .double (Binary.ofBits f bytes.toNat) := by
  rw [readDoubleFloat format, Widths.widenNumber format _ number]

theorem readDoubleZeros (t : ElementType) : t.readDouble (Bytes.zeros t.size) = Binary.zero .double false := by
  cases t with
  | f32 => exact (readDoubleNumber (t := f32) rfl (by decide +kernel)).trans (by decide +kernel)
  | f16 => exact (readDoubleNumber (t := f16) rfl (by decide +kernel)).trans (by decide +kernel)
  | bf16 => exact (readDoubleNumber (t := bf16) rfl (by decide +kernel)).trans (by decide +kernel)
  | _ => exact (congrArg _ (integerZeros _)).trans zeroInt

theorem writeDoubleSingle (r : Rounding) {x : Double} (number : x.isNaN = false) :
    f32.writeDouble r x = f32.floatBytes (Binary.convert .single x) :=
  congrArg f32.floatBytes (Widths.narrowSingle x number)

theorem narrowedZero {t : ElementType} {f : BinaryFormat} (format : t.floatFormat? = some f) :
    t.floatBytes (Widths.narrow f (Binary.zero .double false)) = Bytes.zeros t.size := by
  rw [Widths.narrowZero format]
  cases t <;> cases format <;> decide +kernel

theorem writeDoubleZero (t : ElementType) (r : Rounding) :
    t.writeDouble r (Binary.zero .double false) = Bytes.zeros t.size := by
  cases t with
  | f32 => exact narrowedZero (t := f32) rfl
  | f16 => exact narrowedZero (t := f16) rfl
  | bf16 => exact narrowedZero (t := bf16) rfl
  | _ =>
    rw [writeDouble]
    simp only [floatFormat?, integerRange?]
    cases r <;> decide +kernel

theorem writeIntegerZero (t : ElementType) : t.writeInteger 0 = Bytes.zeros t.size := by
  cases t with
  | f16 => exact (congrArg _ (congrArg _ zeroInt)).trans (narrowedZero (t := f16) rfl)
  | bf16 => exact (congrArg _ (congrArg _ zeroInt)).trans (narrowedZero (t := bf16) rfl)
  | _ =>
    rw [writeInteger]
    simp only [floatFormat?, integerRange?, if_true]
    decide +kernel

omit [Widths] in
theorem readIntegerZeros {t : ElementType} {v : Int} (read : t.readInteger? (Bytes.zeros t.size) = some v) : v = 0 := by
  have zero := integerZeros t
  rw [read] at zero
  exact zero

theorem writeDoubleNaN {t : ElementType} {low high : Int} (range : t.integerRange? = some (low, high)) (r : Rounding) {x : Double}
    (nan : x.isNaN = true) : t.writeDouble r x = Bytes.zeros t.size := by
  have prepared : t.prepare r x = Binary.zero .double false := by
    rw [prepare, range, Binary.read, if_pos nan]
  have zero : t.prepare r (Binary.zero .double false) = Binary.zero .double false := by
    cases t <;> cases range <;> cases r <;> decide +kernel
  rw [← writeDoubleZero t r, writeDouble, writeDouble, prepared, zero]

theorem convertNaN {source target : ElementType} {f : BinaryFormat} {low high : Int} (format : source.floatFormat? = some f)
    (range : target.integerRange? = some (low, high)) (r : Rounding) {bytes : Bytes}
    (nan : (Binary.ofBits f bytes.toNat).isNaN = true) : source.convert bytes target r = Bytes.zeros target.size := by
  have float : source.readInteger? bytes = none := by cases source <;> first | rfl | cases format
  have other : source ≠ target := by
    rintro rfl
    cases source <;> cases format <;> cases range
  rw [convert, if_neg other, float]
  exact writeDoubleNaN range r (by rw [readDoubleFloat format]; exact Widths.widenNaN format _ nan)

theorem convertZeros (source target : ElementType) (r : Rounding) :
    source.convert (Bytes.zeros source.size) target r = Bytes.zeros target.size := by
  unfold convert
  split
  · rename_i same
    rw [same]
  · split
    · rename_i read
      rw [readIntegerZeros read, writeIntegerZero]
    · rw [readDoubleZeros, writeDoubleZero]

end TensorPlan.ElementType
