import TensorPlan.Element.Bytes
/-! The types of tensor elements: three floating point formats and four integer widths. -/
namespace TensorPlan

inductive ElementType where
  | f32
  | f16
  | bf16
  | i8
  | u8
  | i32
  | i64
  deriving DecidableEq, Repr

namespace ElementType

def all : List ElementType := [f32, f16, bf16, i8, u8, i32, i64]

def text : ElementType → String
  | f32 => "f32"
  | f16 => "f16"
  | bf16 => "bf16"
  | i8 => "i8"
  | u8 => "u8"
  | i32 => "i32"
  | i64 => "i64"

def described : ElementType → String
  | f32 => "F32"
  | f16 => "F16"
  | bf16 => "BF16"
  | i8 => "I8"
  | u8 => "U8"
  | i32 => "I32"
  | i64 => "I64"

def ofText? (s : String) : Option ElementType := all.find? fun t => t.text == s

def size : ElementType → Nat
  | f32 | i32 => 4
  | f16 | bf16 => 2
  | i8 | u8 => 1
  | i64 => 8

def floatFormat? : ElementType → Option BinaryFormat
  | f32 => some .single
  | f16 => some .half
  | bf16 => some .brain
  | _ => none

def isFloat (t : ElementType) : Bool := t.floatFormat?.isSome

def integerRange? : ElementType → Option (Int × Int)
  | i8 => some (-128, 127)
  | u8 => some (0, 255)
  | i32 => some (-2147483648, 2147483647)
  | i64 => some (-9223372036854775808, 9223372036854775807)
  | _ => none

def valueRange (t : ElementType) : Double × Double :=
  match t.floatFormat?, t.integerRange? with
  | some f, _ =>
    let greatest := Binary.convert .double (Binary.ofMagnitude f false (f.infinity - 1))
    (-greatest, greatest)
  | none, some (low, high) => (Binary.ofInt .double low, Binary.ofInt .double high)
  | none, none => (Binary.zero .double false, Binary.zero .double false)

end ElementType
end TensorPlan
