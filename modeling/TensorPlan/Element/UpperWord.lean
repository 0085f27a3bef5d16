import TensorPlan.Element.Widths
/-! Conversions that round the upper word of a double to the formats of half a single's width, as software without the
instruction does. A NaN keeps its sign and its leading fraction bits and becomes quiet. -/
namespace TensorPlan
namespace Binary
variable {f : BinaryFormat}

def upperWord (x : Double) : Double := ofBits .double (x.bits.toNat / pow2 32 * pow2 32)

def quietFraction (g : BinaryFormat) (x : Binary f) : Nat :=
  pow2 (g.fractionBits - 1) ||| x.magnitude % pow2 f.fractionBits * pow2 g.fractionBits / pow2 f.fractionBits

def quiet (g : BinaryFormat) (x : Binary f) : Binary g := ofMagnitude g x.negative (g.infinity + x.quietFraction g)

theorem quietFractionBounds (x : Binary f) : 0 < x.quietFraction .double ∧ x.quietFraction .double < pow2 52 := by
  have within : x.magnitude % pow2 f.fractionBits * pow2 52 / pow2 f.fractionBits < pow2 52 :=
    Nat.div_lt_of_lt_mul (Nat.mul_lt_mul_of_pos_right (Nat.mod_lt _ (Nat.two_pow_pos _)) (Nat.two_pow_pos 52))
  exact ⟨Nat.lt_of_lt_of_le (Nat.two_pow_pos 51) Nat.left_le_or, Nat.or_lt_two_pow (by decide) within⟩

theorem quietNaN (x : Binary f) : (x.quiet .double).isNaN = true := by
  obtain ⟨some, within⟩ := x.quietFractionBounds
  have small : BinaryFormat.infinity .double + x.quietFraction .double < signBit .double :=
    Nat.lt_of_lt_of_le (Nat.add_lt_add_left within _) (by decide)
  have magnitude : (x.quiet .double).magnitude = BinaryFormat.infinity .double + x.quietFraction .double := by
    rw [quiet, ofMagnitude, Binary.magnitude, ofBits, BitVec.toNat_ofNat, Nat.mod_mod_of_dvd _ ⟨2, by decide⟩]
    split
    · rw [Nat.add_mod_left, Nat.mod_eq_of_lt small]
    · rw [Nat.mod_eq_of_lt small]
  rw [isNaN, magnitude]
  exact decide_eq_true (Nat.lt_add_of_pos_right some)

def recast (g : BinaryFormat) (x : Binary f) : Binary g := if x.isNaN then x.quiet g else convert g x

end Binary

instance (priority := low) Widths.upperWord : Widths where
  widen := Binary.recast .double
  narrow f x := if f = .single ∨ x.isNaN then x.recast f else Binary.convert f x.upperWord
  widenNumber _ x number := by rw [Binary.recast, number, if_neg Bool.false_ne_true]
  widenNaN _ x nan := by rw [Binary.recast, if_pos nan, Binary.quietNaN]
  narrowSingle x number := by rw [if_pos (.inl rfl), Binary.recast, number, if_neg Bool.false_ne_true]
  narrowZero := by
    intro t f format
    cases t <;> cases format <;> decide +kernel

example : Widths.narrow .brain (Widths.widen (Binary.ofBits .single 0x3F808001)) = Binary.ofBits .brain 0x3F80 := by
  decide +kernel

end TensorPlan
