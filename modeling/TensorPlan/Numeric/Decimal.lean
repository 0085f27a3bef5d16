import TensorPlan.Numeric.Binary
/-! Decimal text of floating point numbers: the fewest digits that read back as the same number, and
of those the nearest to it. Digits and layout are separate: `shortest` finds `digits · 10 ^ exponent`,
a `DecimalStyle` says how such a decimal is written. -/
namespace TensorPlan

def pow10 (n : Nat) : Nat := Nat.pow 10 n

structure Decimal where
  digits : Nat
  exponent : Int
  deriving DecidableEq, Repr

namespace Decimal

def unit (e : Int) : Rat := if 0 ≤ e then ((pow10 e.toNat : Nat) : Rat) else mkRat 1 (pow10 (-e).toNat)

def value (d : Decimal) : Rat := d.digits * unit d.exponent

def digitCount (n : Nat) : Nat := (Nat.toDigits 10 n).length

def scientificExponent (d : Decimal) : Int := d.exponent + (digitCount d.digits : Nat) - 1

end Decimal

structure RoundingInterval where
  low : Rat
  middle : Rat
  high : Rat
  closed : Bool
  deriving DecidableEq, Repr

namespace RoundingInterval

def contains (r : RoundingInterval) (v : Rat) : Bool :=
  if r.closed then decide (r.low ≤ v) && decide (v ≤ r.high) else decide (r.low < v) && decide (v < r.high)

def ofBinary {f : BinaryFormat} (x : Binary f) : RoundingInterval :=
  let (m, e) := x.parts
  let narrow := m = pow2 f.fractionBits ∧ f.minPlace < e
  { low := if narrow then scaled (4 * m - 1) (e - 2) else scaled (2 * m - 1) (e - 1)
    middle := scaled m e
    high := scaled (2 * m + 1) (e - 1)
    closed := m % 2 = 0 }

def onGrid (r : RoundingInterval) (k : Int) : Option Decimal :=
  let below : Decimal := ⟨(r.middle / Decimal.unit k).floor.toNat, k⟩
  let above : Decimal := ⟨below.digits + 1, k⟩
  match r.contains below.value, r.contains above.value with
  | true, true => some (if r.middle - below.value < above.value - r.middle then below else above)
  | true, false => some below
  | false, true => some above
  | false, false => none

def search (r : RoundingInterval) : Nat → Int → Decimal
  | 0, k => ⟨0, k⟩
  | fuel + 1, k => (r.onGrid k).getD (r.search fuel (k - 1))

def topGrid (r : RoundingInterval) : Int :=
  ((r.middle.num.natAbs.log2 : Int) - r.middle.den.log2 + 1) * 30103 / 100000 + 1

/-- Twenty grids reach below the distance of any two numbers with at most 53 significant bits. -/
def shortest (r : RoundingInterval) : Decimal := r.search 20 r.topGrid

end RoundingInterval

structure DecimalStyle where
  smallest : Option Int
  largest : Option Int
  keepsPoint : Bool
  deriving DecidableEq, Repr

namespace DecimalStyle

def zeros (n : Nat) : String := String.ofList (List.replicate n '0')

def pointAfter (digits : String) (n : Int) : String :=
  if n ≤ 0 then "0." ++ zeros (-n).toNat ++ digits
  else
    let cs := digits.toList
    String.ofList (cs.take n.toNat) ++ "." ++ String.ofList (cs.drop n.toNat)

def positional (style : DecimalStyle) (d : Decimal) : String :=
  let digits := toString d.digits
  if 0 ≤ d.exponent then digits ++ zeros d.exponent.toNat ++ (if style.keepsPoint then ".0" else "")
  else pointAfter digits (d.exponent + digits.length)

def scientific (d : Decimal) : String :=
  let digits := (toString d.digits).toList
  let head := String.ofList (digits.take 1)
  let tail := String.ofList (digits.drop 1)
  head ++ (if tail.isEmpty then "" else "." ++ tail) ++ "e" ++ toString d.scientificExponent

def magnitude (style : DecimalStyle) (d : Decimal) : String :=
  let e := d.scientificExponent
  if style.smallest.any (e < ·) || style.largest.any (· ≤ e) then scientific d else style.positional d

def render (style : DecimalStyle) {f : BinaryFormat} (x : Binary f) : String :=
  if x.isNaN then "NaN"
  else
    let sign := if x.negative then "-" else ""
    if x.magnitude = f.infinity then sign ++ "inf"
    else if x.magnitude = 0 then sign ++ (if style.keepsPoint then "0.0" else "0")
    else sign ++ style.magnitude (RoundingInterval.ofBinary x).shortest

def described : DecimalStyle := ⟨some (-4), some 16, true⟩

def plain : DecimalStyle := ⟨none, none, false⟩

end DecimalStyle
end TensorPlan
