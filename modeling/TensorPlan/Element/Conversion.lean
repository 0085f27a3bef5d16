import TensorPlan.Element.Widths
import TensorPlan.Numeric.Rounding
/-! Reading, writing and converting elements. Integers are converted to integers exactly and clamped
to the range of the target; floating point sources go through double precision, are rounded by the
given strategy and clamped. NaN becomes zero in an integer type. -/
namespace TensorPlan.ElementType

def clamp (low high v : Int) : Int := if v < low then low else if high < v then high else v

def readInteger? (t : ElementType) (bytes : Bytes) : Option Int :=
  match t with
  | i8 | i32 | i64 => some bytes.toInt
  | u8 => some (bytes.toNat : Int)
  | f32 | f16 | bf16 => none

variable [Widths]

def readDouble (t : ElementType) (bytes : Bytes) : Double :=
  match t.floatFormat? with
  | some f => Widths.widen (Binary.ofBits f bytes.toNat)
  | none => Binary.ofInt .double ((t.readInteger? bytes).getD 0)

def floatBytes (t : ElementType) {f : BinaryFormat} (x : Binary f) : Bytes := Bytes.ofNat t.size x.bits.toNat

/-- Writes an integer. Single precision rounds it once; the two half-width formats take it by way of
double precision. -/
def writeInteger (t : ElementType) (v : Int) : Bytes :=
  match t.floatFormat?, t.integerRange? with
  | some f, _ =>
    if t = f32 then t.floatBytes (Binary.ofInt f v)
    else t.floatBytes (Widths.narrow f (Binary.ofInt .double v))
  | none, some (low, high) => Bytes.ofInt t.size (clamp low high v)
  | none, none => []

def prepare (t : ElementType) (rounding : Rounding) (x : Double) : Double :=
  match t.integerRange? with
  | none => x
  | some (low, high) =>
    match x.read with
    | .nan => Binary.zero .double false
    | .infinite negative => Binary.ofInt .double (if negative then low else high)
    | .finite negative v =>
      let n := rounding.toInteger v
      if n < low then Binary.ofInt .double low
      else if high < n then Binary.ofInt .double high
      else Binary.nearest .double negative n

def writeDouble (t : ElementType) (rounding : Rounding) (x : Double) : Bytes :=
  let prepared := t.prepare rounding x
  match t.floatFormat?, t.integerRange? with
  | some f, _ => t.floatBytes (Widths.narrow f prepared)
  | none, some (low, high) =>
    Bytes.ofInt t.size (clamp low high ((prepared.value?.map Rounding.whole).getD 0))
  | none, none => []

def encode (t : ElementType) (x : Double) : Bytes := t.writeDouble .halfEven x

def convert (source : ElementType) (bytes : Bytes) (target : ElementType) (rounding : Rounding) : Bytes :=
  if source = target then bytes
  else
    match source.readInteger? bytes with
    | some v => target.writeInteger v
    | none => target.writeDouble rounding (source.readDouble bytes)

end TensorPlan.ElementType
