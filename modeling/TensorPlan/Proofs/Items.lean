import Mathlib.Data.List.Basic
import TensorPlan.Element.Bytes
/-! Byte sequences as items of one size. Slices at item boundaries are runs of items, a sequence of
whole items is the run of all of them, and a patch at an item boundary replaces a single item. -/
namespace TensorPlan.Bytes

def item (size : Nat) (bytes : Bytes) (p : Nat) : Bytes := (bytes.drop (p * size)).take size

theorem zerosLength (n : Nat) : (zeros n).length = n := by simp [zeros]

theorem ofNatLength (count n : Nat) : (ofNat count n).length = count := by
  induction count generalizing n with
  | zero => rfl
  | succ count ih => simp [ofNat, ih]

theorem repeatedLength (count : Nat) (pattern : Bytes) : (repeated count pattern).length = count * pattern.length := by
  induction count with
  | zero => simp [repeated]
  | succ count ih =>
    simp only [repeated, List.replicate_succ, List.flatten_cons, List.length_append] at ih ⊢
    rw [ih, Nat.succ_mul, Nat.add_comm]

theorem repeatedItems (count a : Nat) (pattern : Bytes) :
    repeated count pattern = (List.range' a count).flatMap fun _ => pattern := by
  induction count generalizing a with
  | zero => rfl
  | succ count ih =>
    rw [List.range'_succ, List.flatMap_cons, ← ih, repeated, List.replicate_succ, List.flatten_cons, repeated]

theorem itemLength {size p : Nat} {bytes : Bytes} (inside : (p + 1) * size ≤ bytes.length) :
    (item size bytes p).length = size := by
  rw [Nat.succ_mul] at inside
  simp only [item, List.length_take, List.length_drop]
  omega

theorem joinedLength {g : Nat → Bytes} {size a n : Nat} (sizes : ∀ i, a ≤ i → i < a + n → (g i).length = size) :
    ((List.range' a n).flatMap g).length = n * size := by
  induction n generalizing a with
  | zero => simp
  | succ n ih =>
    have rest := ih (a := a + 1) fun i low high => sizes i (by omega) (by omega)
    rw [List.range'_succ, List.flatMap_cons, List.length_append, rest, sizes a (by omega) (by omega),
      Nat.succ_mul, Nat.add_comm]

theorem rangeLength {g : Nat → Bytes} {size n : Nat} (sizes : ∀ i < n, (g i).length = size) :
    ((List.range n).flatMap g).length = n * size := by
  rw [List.range_eq_range']
  exact joinedLength fun i _ high => sizes i (by omega)

theorem takeItems {size o n : Nat} {bytes : Bytes} (inside : (o + n) * size ≤ bytes.length) :
    (bytes.drop (o * size)).take (n * size) = (List.range' o n).flatMap (item size bytes) := by
  induction n generalizing o with
  | zero => simp
  | succ n ih =>
    have rest := ih (o := o + 1) (by rwa [Nat.add_right_comm, Nat.add_assoc])
    rw [List.range'_succ, List.flatMap_cons, ← rest, item, Nat.succ_mul n, Nat.add_comm (n * size), List.take_add,
      List.drop_drop, ← Nat.succ_mul]

theorem joinedItems {size n : Nat} {bytes : Bytes} (whole : bytes.length = n * size) :
    (List.range n).flatMap (item size bytes) = bytes := by
  have all := @takeItems size 0 n bytes (Nat.le_of_eq (by rw [Nat.zero_add, whole]))
  rw [Nat.zero_mul, List.drop_zero, ← whole, List.take_length] at all
  rw [List.range_eq_range', ← all]

theorem sliceItems {size o n : Nat} {bytes : Bytes} (inside : (o + n) * size ≤ bytes.length) :
    bytes.slice? (o * size) (n * size) = some ((List.range' o n).flatMap (item size bytes)) := by
  have bound : o * size + n * size ≤ bytes.length := by rwa [← Nat.add_mul]
  rw [slice?, if_pos bound, takeItems inside]

theorem sliceItem {size p : Nat} {bytes : Bytes} (inside : (p + 1) * size ≤ bytes.length) :
    bytes.slice? (p * size) size = some (item size bytes p) := by
  have bound : p * size + size ≤ bytes.length := by rwa [← Nat.succ_mul]
  rw [slice?, if_pos bound, item]

theorem sliceLength {start count : Nat} {bytes piece : Bytes} (found : bytes.slice? start count = some piece) :
    piece.length = count := by
  rw [slice?, Option.ite_none_right_eq_some] at found
  obtain ⟨bound, cut⟩ := found
  rw [← Option.some.inj cut, List.length_take, List.length_drop]
  omega

theorem sliceRun {size o n c k : Nat} {bytes : Bytes} (inside : (o + n) * size ≤ bytes.length) (part : c + k ≤ n) :
    slice? ((List.range' o n).flatMap (item size bytes)) (c * size) (k * size) =
      some ((List.range' (o + c) k).flatMap (item size bytes)) := by
  have sizes : ∀ i, i < o + n → (item size bytes i).length = size := fun i below =>
    itemLength (Nat.le_trans (Nat.mul_le_mul_right size below) inside)
  have front : ((List.range' o c).flatMap (item size bytes)).length = c * size :=
    joinedLength fun i _ high => sizes i (by omega)
  have middle : ((List.range' (o + c) k).flatMap (item size bytes)).length = k * size :=
    joinedLength fun i _ high => sizes i (by omega)
  have whole : ((List.range' o n).flatMap (item size bytes)).length = n * size :=
    joinedLength fun i _ high => sizes i high
  have bound : c * size + k * size ≤ ((List.range' o n).flatMap (item size bytes)).length := by
    rw [whole, ← Nat.add_mul]; exact Nat.mul_le_mul_right size part
  have rest : n = c + (k + (n - (c + k))) := by omega
  rw [slice?, if_pos bound, rest, ← List.range'_append_1, ← List.range'_append_1, List.flatMap_append,
    List.flatMap_append, List.drop_left' front, List.take_left' middle]

theorem repeatedRun (count a n : Nat) (pattern : Bytes) :
    repeated (count * n) pattern = (List.range' a count).flatMap fun _ => repeated n pattern := by
  induction count generalizing a with
  | zero => simp [repeated]
  | succ count ih =>
    rw [List.range'_succ, List.flatMap_cons, ← ih, repeated, repeated, repeated, ← List.flatten_append,
      List.replicate_append_replicate, Nat.succ_mul, Nat.add_comm]

theorem splitItems (size count : Nat) (bytes : Bytes) :
    split size count bytes = (List.range count).map (item size bytes) := by
  induction count generalizing bytes with
  | zero => rfl
  | succ count ih =>
    rw [split, ih, List.range_succ_eq_map, List.map_cons, List.map_map]
    simp [item, List.drop_drop, Function.comp_def, Nat.succ_mul, Nat.add_comm]

theorem piecesItems {size n : Nat} {bytes : Bytes} (positive : 0 < size) (whole : bytes.length = n * size) :
    pieces size bytes = (List.range n).map (item size bytes) := by
  rw [pieces, splitItems, whole, Nat.mul_div_cancel n positive]

theorem flattenLength {size : Nat} {es : List Bytes} (each : ∀ e ∈ es, e.length = size) :
    es.flatten.length = es.length * size := by
  rw [List.length_flatten, List.map_congr_left each, List.map_const', List.sum_replicate_nat]

theorem piecesFlatten {size : Nat} {es : List Bytes} (positive : 0 < size) (each : ∀ e ∈ es, e.length = size) :
    pieces size es.flatten = es := by
  rw [pieces, flattenLength each, Nat.mul_div_cancel _ positive]
  induction es with
  | nil => rfl
  | cons e es ih =>
    have own := each e List.mem_cons_self
    rw [List.length_cons, split, List.flatten_cons, List.take_left' own, List.drop_left' own,
      ih fun e member => each e (List.mem_cons_of_mem _ member)]

theorem itemRun {size o n k : Nat} {bytes : Bytes} (inside : (o + n) * size ≤ bytes.length) (below : k < n) :
    item size ((List.range' o n).flatMap (item size bytes)) k = item size bytes (o + k) := by
  have slice := sliceRun inside (show k + 1 ≤ n from below)
  have whole : (o + k + 1) * size ≤ bytes.length :=
    Nat.le_trans (Nat.mul_le_mul_right size (by omega)) inside
  have length : ((List.range' o n).flatMap (item size bytes)).length = n * size :=
    joinedLength fun i _ high => itemLength (Nat.le_trans (Nat.mul_le_mul_right size high) inside)
  have bound : (k + 1) * size ≤ ((List.range' o n).flatMap (item size bytes)).length := by
    rw [length]; exact Nat.mul_le_mul_right size below
  rw [Nat.one_mul, sliceItem bound] at slice
  simpa using slice

theorem piecesRun {size o n : Nat} {bytes : Bytes} (positive : 0 < size) (inside : (o + n) * size ≤ bytes.length) :
    pieces size ((List.range' o n).flatMap (item size bytes)) = (List.range' o n).map (item size bytes) := by
  have length : ((List.range' o n).flatMap (item size bytes)).length = n * size :=
    joinedLength fun i _ high => itemLength (Nat.le_trans (Nat.mul_le_mul_right size high) inside)
  rw [piecesItems positive length, List.range'_eq_map_range, List.map_map]
  apply List.map_congr_left
  intro k member
  rw [← List.range'_eq_map_range, itemRun inside (List.mem_range.mp member)]
  rfl

theorem zerosItems (n size : Nat) : zeros (n * size) = (List.range n).flatMap fun _ => zeros size := by
  induction n with
  | zero => simp [zeros]
  | succ n ih =>
    rw [List.range_succ, List.flatMap_append, ← ih, Nat.succ_mul, zeros, zeros, ← List.replicate_append_replicate]
    simp [zeros]

theorem rangeAround {n p : Nat} (inside : p < n) :
    List.range n = List.range' 0 p ++ p :: List.range' (p + 1) (n - (p + 1)) := by
  have count : p + (n - (p + 1) + 1) = n := by omega
  have joined := List.range'_append_1 (s := 0) (m := p) (n := n - (p + 1) + 1)
  rw [count, Nat.zero_add, List.range'_succ] at joined
  rw [List.range_eq_range', joined]

theorem sliceJoined {g : Nat → Bytes} {size n p : Nat} (sizes : ∀ i < n, (g i).length = size) (inside : p < n) :
    slice? ((List.range n).flatMap g) (p * size) size = some (g p) := by
  have front : ((List.range' 0 p).flatMap g).length = p * size := joinedLength fun i _ high => sizes i (by omega)
  have own := sizes p inside
  have bound : p * size + size ≤ ((List.range n).flatMap g).length := by
    rw [rangeLength sizes, ← Nat.succ_mul]
    exact Nat.mul_le_mul_right size inside
  rw [slice?, if_pos bound, rangeAround inside, List.flatMap_append, List.flatMap_cons, List.drop_left' front,
    List.take_left' own]

theorem patchJoined {g : Nat → Bytes} {size n p : Nat} {new : Bytes} (sizes : ∀ i < n, (g i).length = size)
    (inside : p < n) (fits : new.length = size) :
    patch? ((List.range n).flatMap g) (p * size) new =
      some ((List.range n).flatMap fun q => if q = p then new else g q) := by
  have front : ((List.range' 0 p).flatMap g).length = p * size := joinedLength fun i _ high => sizes i (by omega)
  have before : (List.range' 0 p).flatMap (fun q => if q = p then new else g q) = (List.range' 0 p).flatMap g :=
    List.flatMap_congr fun i member => if_neg (by rw [List.mem_range'_1] at member; omega)
  have behind : (List.range' (p + 1) (n - (p + 1))).flatMap (fun q => if q = p then new else g q) =
      (List.range' (p + 1) (n - (p + 1))).flatMap g :=
    List.flatMap_congr fun i member => if_neg (by rw [List.mem_range'_1] at member; omega)
  rw [rangeAround inside]
  simp only [List.flatMap_append, List.flatMap_cons, before, behind, if_true]
  have own := sizes p inside
  have bound : p * size + new.length ≤ ((List.range' 0 p).flatMap g ++
      (g p ++ (List.range' (p + 1) (n - (p + 1))).flatMap g)).length := by
    rw [List.length_append, List.length_append, front, own, fits]; omega
  have tail : (List.range' 0 p).flatMap g ++ (g p ++ (List.range' (p + 1) (n - (p + 1))).flatMap g) =
      ((List.range' 0 p).flatMap g ++ g p) ++ (List.range' (p + 1) (n - (p + 1))).flatMap g := by
    rw [List.append_assoc]
  rw [patch?, if_pos bound, List.take_left' front, tail,
    List.drop_left' (by rw [List.length_append, front, own, fits]), List.append_assoc]

end TensorPlan.Bytes
