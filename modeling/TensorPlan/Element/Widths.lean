import TensorPlan.Element.Type
/-! Conversions between double precision and the narrower formats. Every number of a narrower format is read exactly. The
machine rounds a single once; a library narrows to the formats of half its width in a way of its own. Which NaN comes out is
left open. -/
namespace TensorPlan

class Widths where
  widen {f : BinaryFormat} (x : Binary f) : Double
  narrow (f : BinaryFormat) (x : Double) : Binary f
  widenNumber {t : ElementType} {f : BinaryFormat} (format : t.floatFormat? = some f) (x : Binary f) (number : x.isNaN = false) :
    widen x = Binary.convert .double x
  widenNaN {t : ElementType} {f : BinaryFormat} (format : t.floatFormat? = some f) (x : Binary f) (nan : x.isNaN = true) :
    (widen x).isNaN = true
  narrowSingle (x : Double) (number : x.isNaN = false) : narrow .single x = Binary.convert .single x
  narrowZero {t : ElementType} {f : BinaryFormat} (format : t.floatFormat? = some f) :
    narrow f (Binary.zero .double false) = Binary.zero f false

end TensorPlan
