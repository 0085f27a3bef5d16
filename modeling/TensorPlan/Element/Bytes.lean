import TensorPlan.Numeric.Binary
/-! Byte sequences: little-endian numbers, and reading and replacing a stretch of bytes, which fails
where the stretch is not inside the sequence. -/
namespace TensorPlan

abbrev Bytes := List UInt8

namespace Bytes

def toNat : Bytes → Nat
  | [] => 0
  | b :: bs => b.toNat + 256 * toNat bs

def ofNat : Nat → Nat → Bytes
  | 0, _ => []
  | count + 1, n => UInt8.ofNat (n % 256) :: ofNat count (n / 256)

def ofInt (count : Nat) (v : Int) : Bytes := ofNat count (v % (pow2 (8 * count) : Nat)).toNat

def toInt (bytes : Bytes) : Int := Int.bmod bytes.toNat (pow2 (8 * bytes.length))

def zeros (count : Nat) : Bytes := List.replicate count 0

def slice? (bytes : Bytes) (start count : Nat) : Option Bytes :=
  if start + count ≤ bytes.length then some ((bytes.drop start).take count) else none

def patch? (bytes : Bytes) (start : Nat) (new : Bytes) : Option Bytes :=
  if start + new.length ≤ bytes.length then
    some (bytes.take start ++ new ++ bytes.drop (start + new.length))
  else none

def split (size : Nat) : Nat → Bytes → List Bytes
  | 0, _ => []
  | count + 1, bytes => bytes.take size :: split size count (bytes.drop size)

def pieces (size : Nat) (bytes : Bytes) : List Bytes := split size (bytes.length / size) bytes

def repeated (count : Nat) (pattern : Bytes) : Bytes := (List.replicate count pattern).flatten

end Bytes
end TensorPlan
