import Mathlib.Algebra.Order.Field.Rat
import Mathlib.Order.Monotone.Basic
import Mathlib.Tactic.NormNum
import Mathlib.Tactic.Positivity
import Mathlib.Tactic.Ring
import TensorPlan.Numeric.Decimal
import TensorPlan.Proofs.Numeric.Spacing
/-! The shortest decimal of a number. The intervals that round to the numbers of a format follow each other without
overlap, so that a decimal in one of them belongs to one number only; and a grid finer than half the distance to the next
number has a decimal in it, which the search reaches for every format up to the double. -/
namespace TensorPlan

namespace BinaryFormat
variable {f : BinaryFormat}

def partsAt (f : BinaryFormat) (n : Nat) : Nat × Int :=
  let exponent := n / pow2 f.fractionBits
  let fraction := n % pow2 f.fractionBits
  if exponent = 0 then (fraction, f.minPlace)
  else (pow2 f.fractionBits + fraction, f.minPlace + (exponent - 1 : Nat))

structure UpToDouble (f : BinaryFormat) : Prop where
  fraction : 0 < f.fractionBits
  narrow : f.fractionBits ≤ 52
  bottom : -1074 ≤ f.minPlace
  top : f.minPlace + (pow2 f.exponentBits : Nat) ≤ 974

theorem doubleUpToDouble : double.UpToDouble := ⟨by decide, by decide, by decide, by decide⟩

theorem singleUpToDouble : single.UpToDouble := ⟨by decide, by decide, by decide, by decide⟩

theorem unitPositive (f : BinaryFormat) : 0 < pow2 f.fractionBits := Nat.two_pow_pos _

theorem partsDigits {n exponent fraction : Nat} (below : fraction < pow2 f.fractionBits)
    (same : fraction + pow2 f.fractionBits * exponent = n) : f.partsAt n =
      if exponent = 0 then (fraction, f.minPlace)
      else (pow2 f.fractionBits + fraction, f.minPlace + (exponent - 1 : Nat)) := by
  obtain ⟨own, rest⟩ := (Nat.div_mod_unique f.unitPositive).mpr ⟨same, below⟩
  simp only [partsAt, own, rest]

theorem partsNext (f : BinaryFormat) (n : Nat) :
    (f.partsAt (n + 1) = ((f.partsAt n).1 + 1, (f.partsAt n).2) ∧
      ((f.partsAt n).1 + 1 = pow2 f.fractionBits → (f.partsAt n).2 = f.minPlace)) ∨
    (f.partsAt (n + 1) = (pow2 f.fractionBits, (f.partsAt n).2 + 1) ∧
      (f.partsAt n).1 + 1 = 2 * pow2 f.fractionBits ∧ f.minPlace ≤ (f.partsAt n).2) := by
  have below := Nat.mod_lt n f.unitPositive
  have same := Nat.mod_add_div n (pow2 f.fractionBits)
  rw [partsDigits below same]
  generalize n / pow2 f.fractionBits = exponent at *
  generalize n % pow2 f.fractionBits = fraction at *
  by_cases carry : fraction + 1 = pow2 f.fractionBits
  · have next := @partsDigits f (n + 1) (exponent + 1) 0 (by omega) (by rw [Nat.mul_succ]; omega)
    rw [next, if_neg (Nat.succ_ne_zero exponent)]
    by_cases first : exponent = 0
    · left
      simp [first, carry]
    · right
      rw [if_neg first]
      refine ⟨?_, by omega, by omega⟩
      rw [Nat.add_zero, Int.add_assoc, Prod.mk.injEq]
      exact ⟨rfl, by omega⟩
  · have next := @partsDigits f (n + 1) exponent (fraction + 1) (by omega) (by omega)
    rw [next]
    left
    by_cases first : exponent = 0
    · rw [if_pos first, if_pos first]
      exact ⟨rfl, fun _ => rfl⟩
    · rw [if_neg first, if_neg first]
      exact ⟨rfl, fun full => by omega⟩

theorem partsPositive (f : BinaryFormat) {n : Nat} (positive : 0 < n) : 0 < (f.partsAt n).1 := by
  have same := Nat.mod_add_div n (pow2 f.fractionBits)
  rw [partsAt]
  split
  · rename_i first
    rw [first, Nat.mul_zero, Nat.add_zero] at same
    exact Nat.lt_of_lt_of_eq positive same.symm
  · exact Nat.add_pos_left f.unitPositive _

theorem partsBounds (upTo : f.UpToDouble) {n : Nat} (finite : n < f.infinity) :
    (f.partsAt n).1 < 2 ^ 53 ∧ -1074 ≤ (f.partsAt n).2 ∧ (f.partsAt n).2 ≤ 971 := by
  obtain ⟨-, narrow, bottom, top⟩ := upTo
  have power : pow2 f.fractionBits ≤ 2 ^ 52 := Nat.pow_le_pow_right Nat.two_pos narrow
  have below := Nat.mod_lt n f.unitPositive
  have exponent : n / pow2 f.fractionBits < pow2 f.exponentBits - 1 := (Nat.div_lt_iff_lt_mul f.unitPositive).mpr finite
  have least : f.minPlace ≤ 2 := by unfold minPlace; omega
  rw [partsAt]
  generalize n / pow2 f.fractionBits = place at *
  split
  · exact ⟨by omega, bottom, by omega⟩
  · exact ⟨by omega, by omega, by omega⟩

theorem partsParity (fraction : 0 < f.fractionBits) (n : Nat) : (f.partsAt n).1 % 2 = n % 2 := by
  have even : pow2 f.fractionBits % 2 = 0 := by
    obtain ⟨bits, some⟩ := Nat.exists_eq_add_one.mpr fraction
    rw [some, pow2Eq, Nat.pow_succ, Nat.mul_mod_left]
  have same := congrArg (· % 2) (Nat.mod_add_div n (pow2 f.fractionBits))
  simp only [Nat.add_mod, Nat.mul_mod, even, Nat.zero_mul, Nat.zero_mod, Nat.add_zero, Nat.mod_mod] at same
  rw [partsAt]
  split
  · exact same
  · rw [Nat.add_mod, even, Nat.zero_add, Nat.mod_mod, same]

end BinaryFormat

namespace RoundingInterval
open BinaryFormat
variable {f : BinaryFormat} {r : RoundingInterval} {n m : Nat} {v : Rat} {k : Int}

def ofMagnitude (f : BinaryFormat) (n : Nat) : RoundingInterval :=
  let m := (f.partsAt n).1
  let e := (f.partsAt n).2
  let narrow := m = pow2 f.fractionBits ∧ f.minPlace < e
  { low := if narrow then scaled (4 * m - 1) (e - 2) else scaled (2 * m - 1) (e - 1)
    middle := scaled m e
    high := scaled (2 * m + 1) (e - 1)
    closed := m % 2 = 0 }

theorem ofBinaryMagnitude (x : Binary f) : ofBinary x = ofMagnitude f x.magnitude := rfl

theorem highNext (f : BinaryFormat) (n : Nat) : (ofMagnitude f n).high = (ofMagnitude f (n + 1)).low := by
  simp only [ofMagnitude]
  rcases partsNext f n with ⟨same, first⟩ | ⟨same, last, least⟩
  · rw [same]
    split
    · rename_i narrow
      exact absurd (first narrow.1) (by omega)
    · exact congrArg₂ scaled (by push_cast; omega) rfl
  · have place : (f.partsAt n).2 + 1 - 2 = (f.partsAt n).2 - 1 := by omega
    rw [same]
    split
    · exact congrArg₂ scaled (by push_cast; omega) place.symm
    · rename_i wide
      exact absurd ⟨rfl, by omega⟩ wide

theorem scaledHalf (m e : Int) : scaled m e = scaled (2 * m) (e - 1) := by
  rw [Int.two_mul, ← scaledCarry, Int.sub_add_cancel]

theorem scaledLess {m m' : Int} (less : m < m') (e : Int) : scaled m e < scaled m' e := by
  rw [scaledPower, scaledPower]
  exact mul_lt_mul_of_pos_right (Rat.intCast_lt_intCast.mpr less) (zpow_pos (by decide) e)

theorem middleHigh (f : BinaryFormat) (n : Nat) : (ofMagnitude f n).middle < (ofMagnitude f n).high := by
  simp only [ofMagnitude]
  rw [scaledHalf (f.partsAt n).1]
  exact scaledLess (by omega) _

theorem lowMiddle (f : BinaryFormat) (n : Nat) : (ofMagnitude f n).low < (ofMagnitude f n).middle := by
  have quarter : (f.partsAt n).2 - 1 - 1 = (f.partsAt n).2 - 2 := by omega
  simp only [ofMagnitude]
  rw [scaledHalf (f.partsAt n).1]
  split
  · rw [scaledHalf (2 * (f.partsAt n).1), quarter]
    exact scaledLess (by omega) _
  · exact scaledLess (by omega) _

theorem highOrder (f : BinaryFormat) : StrictMono fun n => (ofMagnitude f n).high :=
  strictMono_nat_of_lt_succ fun n => by
    rw [highNext]
    exact (lowMiddle f (n + 1)).trans (middleHigh f (n + 1))

theorem containsBounds (contains : r.contains v = true) : r.low ≤ v ∧ v ≤ r.high := by
  unfold RoundingInterval.contains at contains
  split at contains
  · simpa using contains
  · simp only [Bool.and_eq_true, decide_eq_true_eq] at contains
    exact ⟨contains.1.le, contains.2.le⟩

theorem containsStrict (contains : r.contains v = true) (closed : r.closed = false) : r.low < v ∧ v < r.high := by
  simpa [RoundingInterval.contains, closed] using contains

theorem containsBetween (low : r.low < v) (high : v < r.high) : r.contains v = true := by
  unfold RoundingInterval.contains
  split
  · simp [low.le, high.le]
  · simp [low, high]

theorem closedEven (fraction : 0 < f.fractionBits) (n : Nat) : (ofMagnitude f n).closed = decide (n % 2 = 0) := by
  rw [← partsParity fraction]
  rfl

theorem containsApart (fraction : 0 < f.fractionBits) (less : n < m) (first : (ofMagnitude f n).contains v = true) :
    (ofMagnitude f m).contains v = false := by
  by_contra second
  rw [Bool.not_eq_false] at second
  obtain ⟨last, rfl⟩ : ∃ last, m = last + 1 := ⟨m - 1, by omega⟩
  have upper := (containsBounds first).2
  have lower := (containsBounds second).1
  rw [← highNext] at lower
  rcases Nat.lt_or_eq_of_le (Nat.le_of_lt_succ less) with apart | rfl
  · exact absurd (upper.trans_lt (highOrder f apart)) (not_lt_of_ge lower)
  · by_cases even : n % 2 = 0
    · have strict := containsStrict second (by rw [closedEven fraction, decide_eq_false_iff_not]; omega)
      rw [← highNext] at strict
      exact absurd upper (not_le_of_gt strict.1)
    · have strict := containsStrict first (by rw [closedEven fraction, decide_eq_false_iff_not]; exact even)
      exact absurd lower (not_le_of_gt strict.2)

theorem containsOne (fraction : 0 < f.fractionBits) (first : (ofMagnitude f n).contains v = true)
    (second : (ofMagnitude f m).contains v = true) : n = m := by
  rcases Nat.lt_trichotomy n m with less | same | more
  · exact absurd second (by simp [containsApart fraction less first])
  · exact same
  · exact absurd first (by simp [containsApart fraction more second])

theorem unitPower (k : Int) : Decimal.unit k = 10 ^ k := by
  have natural (n : Nat) : ((pow10 n : Nat) : ℚ) = 10 ^ n := by
    rw [show pow10 n = 10 ^ n from rfl]
    push_cast
    rfl
  unfold Decimal.unit
  split
  · obtain ⟨n, rfl⟩ := Int.eq_ofNat_of_zero_le ‹_›
    rw [Int.toNat_natCast, zpow_natCast, natural]
  · obtain ⟨n, rfl⟩ : ∃ n : Nat, k = -n := ⟨(-k).toNat, by omega⟩
    rw [Int.neg_neg, Int.toNat_natCast, zpow_neg, zpow_natCast, Rat.mkRat_eq_div, natural, Int.cast_one, one_div]

theorem unitAbove (k : Int) : 0 < Decimal.unit k := unitPower k ▸ zpow_pos (by decide) k

theorem onGridContains {d : Decimal} (found : r.onGrid k = some d) : r.contains d.value = true := by
  unfold onGrid at found
  dsimp only at found
  split at found
  · rename_i below above
    split at found <;> cases found
    · exact below
    · exact above
  · rename_i below _
    cases found
    exact below
  · rename_i _ above
    cases found
    exact above
  · cases found

theorem onGridFine (low : r.low < r.middle) (positive : 0 ≤ r.middle) (fine : r.middle + Decimal.unit k < r.high) :
    (r.onGrid k).isSome = true := by
  have unit := unitAbove k
  generalize quotient : r.middle / Decimal.unit k = q
  have whole : q * Decimal.unit k = r.middle := by rw [← quotient, div_mul_cancel₀ _ unit.ne']
  have least : 0 ≤ q.floor := Rat.le_floor_iff.mpr (quotient ▸ div_nonneg positive unit.le)
  let above : Decimal := ⟨q.floor.toNat + 1, k⟩
  have digits : ((q.floor.toNat + 1 : Nat) : ℚ) = (q.floor + 1 : Int) := by
    rw [← Int.cast_natCast, Int.natCast_add, Int.toNat_of_nonneg least]
    rfl
  have inside : r.contains above.value = true := by
    rw [Decimal.value, digits]
    refine containsBetween (low.trans ?_) (lt_of_le_of_lt ?_ fine)
    · rw [← whole]
      exact mul_lt_mul_of_pos_right (Rat.lt_floor_add_one q) unit
    · rw [← whole, Int.cast_add, Int.cast_one, add_mul, one_mul]
      exact add_le_add_left (mul_le_mul_of_nonneg_right (Rat.floor_le q) unit.le) _
  unfold onGrid
  dsimp only
  rw [quotient, inside]
  cases r.contains _ <;> rfl

theorem searchContains {fuel : Nat} (found : ∃ i < fuel, (r.onGrid (k - (i : Nat))).isSome = true) :
    r.contains (r.search fuel k).value = true := by
  induction fuel generalizing k with
  | zero => exact absurd found (by simp)
  | succ fuel ih =>
    rw [search]
    cases here : r.onGrid k with
    | some d => exact onGridContains here
    | none =>
      obtain ⟨i, below, some⟩ := found
      cases i with
      | zero => simp [here] at some
      | succ i =>
        have place : k - 1 - (i : Int) = k - (i + 1 : Nat) := by omega
        exact ih ⟨i, by omega, place ▸ some⟩

theorem tenBelow {b e : Int} {c : Nat} (bounded : ((10 : ℚ) ^ k) ^ c ≤ 2 ^ (b * k)) (less : b * k < c * (e - 1)) :
    (10 : ℚ) ^ k < 2 ^ (e - 1) := by
  refine lt_of_pow_lt_pow_left₀ c (zpow_nonneg (by decide) _) (lt_of_le_of_lt bounded ?_)
  rw [← zpow_natCast, ← zpow_mul, Int.mul_comm (e - 1)]
  exact zpow_lt_zpow_right₀ one_lt_two less

theorem tenBelowTwo {e : Int} (near : 100000 * k ≤ 30103 * e - 174438) (least : -1074 ≤ e) (greatest : e ≤ 971) :
    (10 : ℚ) ^ k < 2 ^ (e - 1) := by
  rcases Int.lt_or_le 0 k with positive | negative
  · obtain ⟨n, rfl⟩ := Int.eq_ofNat_of_zero_le positive.le
    refine @tenBelow _ 10 e 3 ?_ (by omega)
    calc ((10 : ℚ) ^ (n : Int)) ^ 3 = (10 ^ 3) ^ n := by rw [zpow_natCast, pow_right_comm]
      _ ≤ (2 ^ 10) ^ n := pow_le_pow_left₀ (by norm_num) (by norm_num) n
      _ = 2 ^ (10 * (n : Int)) := by rw [zpow_mul, zpow_natCast]; norm_num
  · obtain ⟨n, rfl⟩ : ∃ n : Nat, k = -n := ⟨(-k).toNat, by omega⟩
    refine @tenBelow _ 93 e 28 ?_ (by omega)
    calc ((10 : ℚ) ^ (-(n : Int))) ^ 28 = ((10 ^ 28) ^ n)⁻¹ := by rw [zpow_neg, zpow_natCast, inv_pow, pow_right_comm]
      _ ≤ ((2 ^ 93) ^ n)⁻¹ := inv_anti₀ (by positivity) (pow_le_pow_left₀ (by norm_num) (by norm_num) n)
      _ = 2 ^ (93 * (-(n : Int))) := by rw [Int.mul_neg, zpow_neg, zpow_mul, zpow_natCast]; norm_num

theorem topGridNear {e : Int} (positive : 0 < r.middle) (below : r.middle < 2 ^ (e + 53)) :
    100000 * (r.topGrid - 19) ≤ 30103 * e - 174438 := by
  have numerator : 0 < r.middle.num := Rat.num_pos.mpr positive
  have value : (r.middle.num.natAbs : ℚ) = r.middle * r.middle.den := by
    rw [Rat.mul_den_eq_num, ← Int.cast_natCast, Int.natCast_natAbs, abs_of_pos numerator]
  have logs : (r.middle.num.natAbs.log2 : Int) < e + 53 + (r.middle.den.log2 + 1 : Nat) := by
    rw [← zpow_lt_zpow_iff_right₀ (show (1 : ℚ) < 2 by decide)]
    calc (2 : ℚ) ^ (r.middle.num.natAbs.log2 : Int) ≤ r.middle.num.natAbs := by
          rw [zpow_natCast]
          exact_mod_cast Nat.log2_self_le (by omega)
      _ = r.middle * r.middle.den := value
      _ < 2 ^ (e + 53) * r.middle.den := mul_lt_mul_of_pos_right below (by exact_mod_cast r.middle.den_pos)
      _ ≤ 2 ^ (e + 53) * 2 ^ (r.middle.den.log2 + 1) :=
          mul_le_mul_of_nonneg_left (by exact_mod_cast Nat.lt_log2_self.le) (zpow_nonneg (by decide) _)
      _ = 2 ^ (e + 53 + (r.middle.den.log2 + 1 : Nat)) := by
          rw [zpow_add₀ two_ne_zero _ (r.middle.den.log2 + 1 : Nat), zpow_natCast]
  unfold topGrid
  omega

theorem middlePower (f : BinaryFormat) (n : Nat) : (ofMagnitude f n).middle = (f.partsAt n).1 * 2 ^ (f.partsAt n).2 :=
  scaledPower _ _

theorem highGap (f : BinaryFormat) (n : Nat) :
    (ofMagnitude f n).high = (ofMagnitude f n).middle + 2 ^ ((f.partsAt n).2 - 1) := by
  simp only [ofMagnitude]
  rw [scaledHalf (f.partsAt n).1, scaledPower, scaledPower]
  push_cast
  ring

theorem shortestContained (upTo : f.UpToDouble) (positive : 0 < n) (finite : n < f.infinity) :
    (ofMagnitude f n).contains (ofMagnitude f n).shortest.value = true := by
  obtain ⟨narrow, least, greatest⟩ := partsBounds upTo finite
  have some := partsPositive f positive
  have power := zpow_pos (show (0 : ℚ) < 2 by decide) (f.partsAt n).2
  have middle : 0 < (ofMagnitude f n).middle := by
    rw [middlePower]
    exact mul_pos (by exact_mod_cast some) power
  have below : (ofMagnitude f n).middle < 2 ^ ((f.partsAt n).2 + 53) := by
    rw [middlePower, Int.add_comm, zpow_add₀ two_ne_zero]
    exact mul_lt_mul_of_pos_right (by exact_mod_cast narrow) power
  have fine := tenBelowTwo (topGridNear middle below) least greatest
  refine searchContains ⟨19, by decide, onGridFine (lowMiddle f n) middle.le ?_⟩
  rw [highGap, unitPower]
  exact add_lt_add_right fine _

theorem shortestPositive (upTo : f.UpToDouble) (positive : 0 < n) (finite : n < f.infinity) :
    0 < (ofMagnitude f n).shortest.digits := by
  obtain ⟨last, rfl⟩ := Nat.exists_eq_add_one.mpr positive
  have contained := (containsBounds (shortestContained upTo positive finite)).1
  have middle : 0 ≤ (ofMagnitude f last).middle := by
    rw [middlePower]
    exact mul_nonneg (Nat.cast_nonneg _) (zpow_nonneg (by decide) _)
  have above : 0 < (ofMagnitude f (last + 1)).shortest.value :=
    lt_of_le_of_lt middle (lt_of_lt_of_le (middleHigh f last) (highNext f last ▸ contained))
  refine Nat.pos_of_ne_zero fun none => ?_
  rw [Decimal.value, none, Nat.cast_zero, zero_mul] at above
  exact lt_irrefl _ above

theorem shortestInjective (upTo : f.UpToDouble) (positive : 0 < n) (finite : n < f.infinity) (positive' : 0 < m)
    (finite' : m < f.infinity) (same : (ofMagnitude f n).shortest.value = (ofMagnitude f m).shortest.value) : n = m :=
  containsOne upTo.fraction (shortestContained upTo positive finite)
    (same ▸ shortestContained upTo positive' finite')

end RoundingInterval
end TensorPlan
