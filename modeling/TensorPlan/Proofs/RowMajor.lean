import TensorPlan.Layout.Index
/-! Row-major positions. The index of a position is read off axis by axis, an index within its
dimensions comes back from its position, and stepping visits the indices in the order of their positions. -/
namespace TensorPlan

@[simp] theorem volumeNil : volume [] = 1 := rfl

@[simp] theorem volumeCons (d : Nat) (ds : List Nat) : volume (d :: ds) = d * volume ds := rfl

@[simp] theorem volumeAppend (xs ys : List Nat) : volume (xs ++ ys) = volume xs * volume ys := by
  induction xs with
  | nil => simp
  | cons x xs ih => simp [ih, Nat.mul_assoc]

theorem volumeZero {ds : List Nat} : volume ds = 0 ↔ 0 ∈ ds := by
  induction ds with
  | nil => simp
  | cons d ds ih => rw [volumeCons, Nat.mul_eq_zero, ih, List.mem_cons, eq_comm]

theorem volumePositive {ds : List Nat} (full : 0 ∉ ds) : 0 < volume ds :=
  Nat.pos_of_ne_zero fun zero => full (volumeZero.mp zero)

theorem volumeFull {ds : List Nat} {n : Nat} (inside : n < volume ds) : 0 ∉ ds := fun empty => by
  rw [volumeZero.mpr empty] at inside
  omega

@[simp] theorem stridesLength (ds : List Nat) : (strides ds).length = ds.length := by
  induction ds with
  | nil => rfl
  | cons d ds ih => simp [strides, ih]

theorem stridesFull {ds : List Nat} (full : 0 ∉ ds) : 0 ∉ strides ds := by
  induction ds with
  | nil => simp [strides]
  | cons d ds ih =>
    have rest : 0 ∉ ds := fun member => full (List.mem_cons_of_mem d member)
    have positive := volumePositive rest
    simp only [strides, List.mem_cons, not_or]
    exact ⟨by omega, ih rest⟩

theorem stridesAppend (xs ys : List Nat) :
    strides (xs ++ ys) = (strides xs).map (· * volume ys) ++ strides ys := by
  induction xs with
  | nil => rfl
  | cons x xs ih => simp [strides, ih]

theorem dotAppend {is ss : List Nat} (same : is.length = ss.length) (js ts : List Nat) :
    dot (is ++ js) (ss ++ ts) = dot is ss + dot js ts := by
  induction is generalizing ss with
  | nil =>
    cases ss with
    | nil => simp [dot]
    | cons s ss => simp at same
  | cons i is ih =>
    cases ss with
    | nil => simp at same
    | cons s ss =>
      have rest := @ih ss (by simpa using same)
      simp [dot, rest, Nat.add_assoc]

theorem dotScaled (is ss : List Nat) (v : Nat) : dot is (ss.map (· * v)) = dot is ss * v := by
  induction is generalizing ss with
  | nil => simp [dot]
  | cons i is ih =>
    cases ss with
    | nil => simp [dot]
    | cons s ss => simp [dot, ih, Nat.add_mul, Nat.mul_assoc]

theorem rangeMul (start rows length : Nat) :
    (List.range rows).flatMap (fun r => List.range' (start + r * length) length) =
      List.range' start (rows * length) := by
  induction rows with
  | zero => simp
  | succ rows ih =>
    rw [List.range_succ, List.flatMap_append, ih, Nat.succ_mul, ← List.range'_append_1]
    simp

theorem rangeRuns {α : Type} (rows length : Nat) (f : Nat → List α) :
    (List.range rows).flatMap (fun r => (List.range' (r * length) length).flatMap f) =
      (List.range (rows * length)).flatMap f := by
  have all := rangeMul 0 rows length
  simp only [Nat.zero_add] at all
  rw [← List.flatMap_assoc, all, List.range_eq_range']

theorem quotientDigit {q r v : Nat} (below : r < v) : (q * v + r) / v = q := by
  rw [Nat.mul_comm, Nat.mul_add_div (by omega), Nat.div_eq_of_lt below, Nat.add_zero]

theorem quotientBelow {n d v : Nat} (inside : n < d * v) : 0 < v ∧ n / v < d :=
  ⟨Nat.pos_of_ne_zero fun zero => by simp [zero] at inside, Nat.div_lt_of_lt_mul (by rwa [Nat.mul_comm])⟩

theorem digitsBelow {q d r v : Nat} (digit : q < d) (below : r < v) : q * v + r < d * v :=
  calc q * v + r
    _ < (q + 1) * v := by rw [Nat.succ_mul]; omega
    _ ≤ d * v := Nat.mul_le_mul_right v digit

namespace Index

def ofPosition : List Nat → Nat → List Nat
  | [], _ => []
  | d :: ds, n => n / volume ds % d :: ofPosition ds n

theorem decodeEq (ds : List Nat) (n : Nat) : decode ds n = (n / volume ds, ofPosition ds n) := by
  induction ds with
  | nil => simp [decode, ofPosition]
  | cons d ds ih => simp [decode, ofPosition, ih, Nat.div_div_eq_div_mul, Nat.mul_comm]

theorem ofFlatFull {ds : List Nat} (full : 0 ∉ ds) (n : Nat) : ofFlat? ds n = some (ofPosition ds n) := by
  simp [ofFlat?, full, decodeEq]

@[simp] theorem ofPositionLength (ds : List Nat) (n : Nat) : (ofPosition ds n).length = ds.length := by
  induction ds with
  | nil => rfl
  | cons d ds ih => simp [ofPosition, ih]

theorem ofPositionAppend (xs ys : List Nat) (n : Nat) :
    ofPosition (xs ++ ys) n = ofPosition xs (n / volume ys) ++ ofPosition ys n := by
  induction xs with
  | nil => rfl
  | cons x xs ih =>
    simp only [List.cons_append, ofPosition, ih, volumeAppend]
    rw [Nat.mul_comm, Nat.div_div_eq_div_mul]

theorem ofPositionMod (ds : List Nat) (n : Nat) : ofPosition ds (n % volume ds) = ofPosition ds n := by
  induction ds generalizing n with
  | nil => rfl
  | cons d ds ih =>
    have digit : n % (d * volume ds) / volume ds % d = n / volume ds % d := by
      rw [Nat.mul_comm d, Nat.mod_mul_right_div_self, Nat.mod_mod]
    have rest : ofPosition ds (n % (d * volume ds)) = ofPosition ds n := by
      rw [← ih, Nat.mod_mul_left_mod, ih]
    simp only [ofPosition, volumeCons, digit, rest]

theorem ofPositionOffset (ds : List Nat) (k n : Nat) : ofPosition ds (k * volume ds + n) = ofPosition ds n := by
  rw [← ofPositionMod, Nat.add_comm, Nat.add_mul_mod_self_right, ofPositionMod]

inductive Within : List Nat → List Nat → Prop where
  | nil : Within [] []
  | cons {i d : Nat} {index dims : List Nat} (below : i < d) (rest : Within index dims) :
      Within (i :: index) (d :: dims)

theorem withinLength {index dims : List Nat} (within : Within index dims) : index.length = dims.length := by
  induction within with
  | nil => rfl
  | cons _ _ ih => simp [ih]

theorem withinFull {index dims : List Nat} (within : Within index dims) : 0 ∉ dims := by
  induction within with
  | nil => exact List.not_mem_nil
  | cons below _ ih =>
    simp only [List.mem_cons, not_or]
    exact ⟨by omega, ih⟩

theorem withinAppend {is ds js es : List Nat} (first : Within is ds) (second : Within js es) :
    Within (is ++ js) (ds ++ es) := by
  induction first with
  | nil => exact second
  | cons below _ ih => exact .cons below ih

theorem ofPositionWithin {ds : List Nat} (full : 0 ∉ ds) (n : Nat) : Within (ofPosition ds n) ds := by
  induction ds with
  | nil => exact .nil
  | cons d ds ih =>
    have positive : 0 < d := Nat.pos_of_ne_zero fun zero => full (by simp [zero])
    exact .cons (Nat.mod_lt _ positive) (ih fun member => full (List.mem_cons_of_mem d member))

theorem dotBound {index ds : List Nat} (within : Within index ds) : dot index (strides ds) < volume ds := by
  induction within with
  | nil => simp [dot]
  | cons small _ ih => exact digitsBelow small ih

theorem ofPositionDot {index ds : List Nat} (within : Within index ds) :
    ofPosition ds (dot index (strides ds)) = index := by
  induction within with
  | nil => rfl
  | @cons i d index ds small within ih =>
    have digit := @quotientDigit i _ _ (dotBound within)
    simp only [ofPosition, strides, dot, digit, Nat.mod_eq_of_lt small, ofPositionOffset, ih]

theorem dotOfPosition {ds : List Nat} {n : Nat} (inside : n < volume ds) :
    dot (ofPosition ds n) (strides ds) = n := by
  induction ds generalizing n with
  | nil => simp at inside; simp [dot, ofPosition, inside]
  | cons d ds ih =>
    obtain ⟨positive, digit⟩ := quotientBelow inside
    have rest := ih (Nat.mod_lt n positive)
    rw [ofPositionMod] at rest
    simp only [ofPosition, strides, dot, Nat.mod_eq_of_lt digit, rest]
    rw [Nat.mul_comm, Nat.div_add_mod]

theorem digitsStrides {ds : List Nat} {n : Nat} (inside : n < volume ds) :
    digits (strides ds) n = ofPosition ds n := by
  induction ds generalizing n with
  | nil => rfl
  | cons d ds ih =>
    obtain ⟨positive, digit⟩ := quotientBelow inside
    simp only [digits, strides, ofPosition, Nat.mod_eq_of_lt digit, ih (Nat.mod_lt n positive), ofPositionMod]

theorem advanceOfPosition {ds : List Nat} (full : 0 ∉ ds) (n : Nat) :
    advance ds (ofPosition ds n) = (decide ((n + 1) % volume ds = 0), ofPosition ds (n + 1)) := by
  induction ds with
  | nil => simp [advance, ofPosition, Nat.mod_one]
  | cons d ds ih =>
    have rest : 0 ∉ ds := fun member => full (List.mem_cons_of_mem d member)
    have positive := volumePositive rest
    have first : 0 < d := Nat.pos_of_ne_zero fun zero => full (by simp [zero])
    have whole : (n + 1) % (d * volume ds) = (n + 1) % volume ds + volume ds * ((n + 1) / volume ds % d) := by
      rw [Nat.mul_comm d, Nat.mod_mul]
    simp only [advance, ofPosition, ih rest, volumeCons]
    by_cases wraps : (n + 1) % volume ds = 0
    · have carry : (n + 1) / volume ds = n / volume ds + 1 := Nat.succ_div_of_mod_eq_zero wraps
      have digit : n / volume ds % d < d := Nat.mod_lt _ first
      by_cases last : n / volume ds % d + 1 < d
      · have step : (n / volume ds + 1) % d = n / volume ds % d + 1 := by
          rw [← Nat.mod_add_mod, Nat.mod_eq_of_lt last]
        have later : volume ds * (n / volume ds % d + 1) ≠ 0 := Nat.mul_ne_zero (by omega) (by omega)
        simp [wraps, whole, carry, step, last, later]
      · have step : (n / volume ds + 1) % d = 0 := by
          have full : n / volume ds % d + 1 = d := by omega
          rw [← Nat.mod_add_mod, full, Nat.mod_self]
        simp [wraps, whole, carry, step, last]
    · have stay : (n + 1) / volume ds = n / volume ds := Nat.succ_div_of_mod_ne_zero wraps
      simp [wraps, whole, stay]

theorem nextOfPosition {ds : List Nat} (full : 0 ∉ ds) (n : Nat) :
    next ds (ofPosition ds n) = ofPosition ds (n + 1) := by
  rw [next, advanceOfPosition full]

theorem ofPositionZero (ds : List Nat) : ofPosition ds 0 = List.replicate ds.length 0 := by
  induction ds with
  | nil => rfl
  | cons d ds ih => simp [ofPosition, ih, List.replicate_succ]

end Index
end TensorPlan
