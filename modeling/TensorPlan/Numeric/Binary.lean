/-! Binary floating point. A format is given by the widths of its exponent and fraction fields; a
number is a bit pattern. Every operation reads its operands as exact fractions and rounds the exact
result once, to the nearest number of the format, ties to the even bit pattern. There is one NaN. -/
namespace TensorPlan

def pow2 (n : Nat) : Nat := Nat.pow 2 n

structure BinaryFormat where
  exponentBits : Nat
  fractionBits : Nat
  deriving DecidableEq, Repr

namespace BinaryFormat

def double : BinaryFormat := ⟨11, 52⟩
def single : BinaryFormat := ⟨8, 23⟩
def half : BinaryFormat := ⟨5, 10⟩
def brain : BinaryFormat := ⟨8, 7⟩

def width (f : BinaryFormat) : Nat := f.exponentBits + f.fractionBits + 1

def infinity (f : BinaryFormat) : Nat := (pow2 f.exponentBits - 1) * pow2 f.fractionBits

def minPlace (f : BinaryFormat) : Int :=
  2 - (pow2 (f.exponentBits - 1) : Nat) - (f.fractionBits : Nat)

end BinaryFormat

def scaled (m : Int) (e : Int) : Rat :=
  if 0 ≤ e then ((m * (pow2 e.toNat : Int) : Int) : Rat) else mkRat m (pow2 (-e).toNat)

def roundQuotient (num den : Nat) : Nat :=
  let q := num / den
  let r := num % den
  if 2 * r < den then q else if den < 2 * r then q + 1 else q + q % 2

def inUnits (num den : Nat) (e : Int) : Nat × Nat :=
  if 0 ≤ e then (num, den * pow2 e.toNat) else (num * pow2 (-e).toNat, den)

structure Binary (f : BinaryFormat) where
  bits : BitVec f.width
  deriving DecidableEq, Repr

abbrev Double := Binary .double
abbrev Single := Binary .single

namespace Binary
variable {f : BinaryFormat}

def ofBits (f : BinaryFormat) (bits : Nat) : Binary f := ⟨BitVec.ofNat f.width bits⟩

def signBit (f : BinaryFormat) : Nat := pow2 (f.exponentBits + f.fractionBits)

def negative (x : Binary f) : Bool := decide (signBit f ≤ x.bits.toNat)

def magnitude (x : Binary f) : Nat := x.bits.toNat % signBit f

def ofMagnitude (f : BinaryFormat) (negative : Bool) (magnitude : Nat) : Binary f :=
  ofBits f (if negative then signBit f + magnitude else magnitude)

def nan (f : BinaryFormat) : Binary f := ofBits f (f.infinity + pow2 (f.fractionBits - 1))
def infinite (f : BinaryFormat) (negative : Bool) : Binary f := ofMagnitude f negative f.infinity
def zero (f : BinaryFormat) (negative : Bool) : Binary f := ofMagnitude f negative 0

def isNaN (x : Binary f) : Bool := decide (f.infinity < x.magnitude)

def parts (x : Binary f) : Nat × Int :=
  let exponent := x.magnitude / pow2 f.fractionBits
  let fraction := x.magnitude % pow2 f.fractionBits
  if exponent = 0 then (fraction, f.minPlace)
  else (pow2 f.fractionBits + fraction, f.minPlace + (exponent - 1 : Nat))

inductive Reading where
  | nan
  | infinite (negative : Bool)
  | finite (negative : Bool) (value : Rat)
  deriving DecidableEq, Repr

def read (x : Binary f) : Reading :=
  if x.isNaN then .nan
  else if x.magnitude = f.infinity then .infinite x.negative
  else
    let (m, e) := x.parts
    .finite x.negative (scaled (if x.negative then -(m : Int) else m) e)

def place (f : BinaryFormat) (num den : Nat) : Int :=
  let upper : Int := (num.log2 : Int) - den.log2 - f.fractionBits
  let (n, d) := inUnits num den upper
  max (if n / d < pow2 f.fractionBits then upper - 1 else upper) f.minPlace

/-- The number nearest to `num / den`. A carry out of the fraction field moves into the exponent
field, and out of that into infinity, because the patterns are ordered as the numbers are. -/
def ofQuotient (f : BinaryFormat) (negative : Bool) (num den : Nat) : Binary f :=
  if num = 0 then zero f negative
  else
    let e := place f num den
    let (n, d) := inUnits num den e
    let magnitude := (e - f.minPlace).toNat * pow2 f.fractionBits + roundQuotient n d
    ofMagnitude f negative (min magnitude f.infinity)

def nearest (f : BinaryFormat) (zeroSign : Bool) (v : Rat) : Binary f :=
  ofQuotient f (if v = 0 then zeroSign else decide (v < 0)) v.num.natAbs v.den

def ofRat (f : BinaryFormat) (v : Rat) : Binary f := nearest f false v
def ofInt (f : BinaryFormat) (v : Int) : Binary f := nearest f false v

def convert (g : BinaryFormat) (x : Binary f) : Binary g :=
  match x.read with
  | .nan => nan g
  | .infinite s => infinite g s
  | .finite s v => nearest g s v

def neg (x : Binary f) : Binary f := ofMagnitude f (!x.negative) x.magnitude

def add (x y : Binary f) : Binary f :=
  match x.read, y.read with
  | .nan, _ | _, .nan => nan f
  | .infinite s, .infinite t => if s = t then infinite f s else nan f
  | .infinite s, .finite _ _ => infinite f s
  | .finite _ _, .infinite t => infinite f t
  | .finite s v, .finite t w => nearest f (s && t) (v + w)

def sub (x y : Binary f) : Binary f :=
  if y.isNaN then nan f else x.add y.neg

def mul (x y : Binary f) : Binary f :=
  match x.read, y.read with
  | .nan, _ | _, .nan => nan f
  | .infinite s, .infinite t => infinite f (s != t)
  | .infinite s, .finite t w => if w = 0 then nan f else infinite f (s != t)
  | .finite s v, .infinite t => if v = 0 then nan f else infinite f (s != t)
  | .finite s v, .finite t w => nearest f (s != t) (v * w)

def div (x y : Binary f) : Binary f :=
  match x.read, y.read with
  | .nan, _ | _, .nan => nan f
  | .infinite _, .infinite _ => nan f
  | .infinite s, .finite t _ => infinite f (s != t)
  | .finite s _, .infinite t => zero f (s != t)
  | .finite s v, .finite t w =>
    if w = 0 then (if v = 0 then nan f else infinite f (s != t)) else nearest f (s != t) (v / w)

instance : Add (Binary f) := ⟨add⟩
instance : Sub (Binary f) := ⟨sub⟩
instance : Mul (Binary f) := ⟨mul⟩
instance : Div (Binary f) := ⟨div⟩
instance : Neg (Binary f) := ⟨neg⟩

def orderKey (x : Binary f) : Int := if x.negative then -(x.magnitude : Int) else x.magnitude

def less (x y : Binary f) : Bool := !x.isNaN && !y.isNaN && decide (x.orderKey < y.orderKey)
def atMost (x y : Binary f) : Bool := !x.isNaN && !y.isNaN && decide (x.orderKey ≤ y.orderKey)
def same (x y : Binary f) : Bool := !x.isNaN && !y.isNaN && decide (x.orderKey = y.orderKey)

def totalKey (x : Binary f) : Int := if x.negative then -(x.magnitude : Int) - 1 else x.magnitude

def greater (x y : Binary f) : Binary f :=
  if x.isNaN then y else if y.isNaN then x else if x.less y then y else x

def lesser (x y : Binary f) : Binary f :=
  if x.isNaN then y else if y.isNaN then x else if y.less x then y else x

def value? (x : Binary f) : Option Rat :=
  match x.read with
  | .finite _ v => some v
  | _ => none

end Binary
end TensorPlan
