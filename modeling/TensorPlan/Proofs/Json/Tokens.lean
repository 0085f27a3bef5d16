import Mathlib.Data.List.Basic
import Mathlib.Data.List.DropRight
import Mathlib.Data.List.TakeWhile
import TensorPlan.Json.Reader
import TensorPlan.Json.Writer
/-! Numbers and strings that are read back. A number ends where none of its characters can follow, a string at its own
quote, since every quote inside of it was escaped. -/
namespace TensorPlan.Json.Reader
variable {rest : List Char}

def Stops (rest : List Char) : Prop :=
  ∀ c ∈ rest.head?, isDigit c = false ∧ c ≠ '.' ∧ c ≠ 'e' ∧ c ≠ 'E'

theorem stopsNil : Stops [] := fun _ member => nomatch member

theorem digitsOf (n : Nat) : (toString n).toList = Nat.toDigits 10 n := by
  rw [Nat.toString_eq_ofList_toDigits, String.toList_ofList]

theorem digitMember {n : Nat} {c : Char} (member : c ∈ Nat.toDigits 10 n) : isDigit c = true :=
  Nat.isDigit_of_mem_toDigits (by decide) (by decide) member

theorem digitsStart (n : Nat) : ∃ d ds, Nat.toDigits 10 n = d :: ds ∧ isDigit d = true := by
  cases digits : Nat.toDigits 10 n with
  | nil => exact absurd digits Nat.toDigits_ne_nil
  | cons d ds => exact ⟨d, ds, rfl, digitMember (digits ▸ List.mem_cons_self)⟩

theorem readDigitsAll {ds : List Char} (filled : ds ≠ []) (all : ∀ c ∈ ds, isDigit c = true)
    (ends : ∀ c ∈ rest.head?, isDigit c = false) : readDigits (ds ++ rest) = some (ds, rest) := by
  have taken : rest.takeWhile isDigit = [] := by
    cases rest with
    | nil => rfl
    | cons c cs => exact List.takeWhile_cons_of_neg (by simp [ends c rfl])
  have dropped : rest.dropWhile isDigit = rest := by
    cases rest with
    | nil => rfl
    | cons c cs => exact List.dropWhile_cons_of_neg (by simp [ends c rfl])
  unfold readDigits
  rw [List.takeWhile_append_of_pos all, List.dropWhile_append_of_pos all, taken, dropped, List.append_nil]
  obtain ⟨d, ds, rfl⟩ := List.exists_cons_of_ne_nil filled
  rfl

theorem readDigitsOf (n : Nat) (ends : ∀ c ∈ rest.head?, isDigit c = false) :
    readDigits (Nat.toDigits 10 n ++ rest) = some (Nat.toDigits 10 n, rest) :=
  readDigitsAll Nat.toDigits_ne_nil (fun _ => digitMember) ends

theorem decimalValueOf (n : Nat) : decimalValue (Nat.toDigits 10 n) = n := by
  have step : (fun (n : Nat) (c : Char) => n * 10 + digitValue c) = fun n c => 10 * n + (c.toNat - '0'.toNat) :=
    funext fun n => funext fun c => by rw [digitValue, Nat.mul_comm]
  rw [decimalValue, step, ← Nat.ofDigitChars_eq_foldl, Nat.ofDigitChars_ten_toDigits]

theorem noLeadingZero {n : Nat} (positive : n ≠ 0) : (Nat.toDigits 10 n).head? ≠ some '0' := by
  induction n using Nat.base_induction 10 (by decide) with
  | single m small =>
    rw [Nat.toDigits_of_lt_base small]
    revert positive
    decide +revert
  | digit m k small positive' ih =>
    rw [← Nat.toDigits_append_toDigits (by decide) positive' small]
    have first := ih (by omega)
    obtain ⟨d, ds, digits, -⟩ := digitsStart m
    rw [digits] at first ⊢
    exact first

theorem readWholeAll {ds : List Char} (filled : ds ≠ []) (all : ∀ c ∈ ds, isDigit c = true)
    (leading : ds.head? = some '0' → ds = ['0']) (ends : ∀ c ∈ rest.head?, isDigit c = false) :
    readWhole (ds ++ rest) = some (ds, rest) := by
  by_cases zero : ds.head? = some '0'
  · have stops : rest.head?.any isDigit = false := by
      cases rest with
      | nil => rfl
      | cons c cs => exact ends c rfl
    rw [leading zero]
    simp [readWhole, stops]
  · have read := readDigitsAll filled all ends
    obtain ⟨d, ds, rfl⟩ := List.exists_cons_of_ne_nil filled
    unfold readWhole
    split
    · rename_i own
      cases own
      exact absurd rfl zero
    · exact read

theorem readWholeOf (n : Nat) (ends : ∀ c ∈ rest.head?, isDigit c = false) :
    readWhole (Nat.toDigits 10 n ++ rest) = some (Nat.toDigits 10 n, rest) := by
  refine readWholeAll Nat.toDigits_ne_nil (fun _ => digitMember) (fun zero => ?_) ends
  by_cases none : n = 0
  · rw [none, Nat.toDigits_zero]
  · exact absurd zero (noLeadingZero none)

def sign (negative : Bool) : List Char := if negative then ['-'] else []

theorem integerText (v : Int) : (toString v).toList = sign (decide (v < 0)) ++ Nat.toDigits 10 v.natAbs := by
  cases v with
  | ofNat n => exact digitsOf n
  | negSucc n =>
    have signed : toString (Int.negSucc n) = "-" ++ toString (n + 1) := rfl
    rw [signed, String.toList_append, digitsOf, decide_eq_true (Int.negSucc_lt_zero n)]
    rfl

theorem readExponentOf (e : Int) (ends : ∀ c ∈ rest.head?, isDigit c = false) :
    readExponent ('e' :: ((toString e).toList ++ rest)) = some (some e, rest) := by
  have read := readDigitsOf e.natAbs ends
  have value := decimalValueOf e.natAbs
  rw [integerText]
  by_cases below : e < 0
  · simp only [readExponent, decide_eq_true below, sign, List.cons_append, List.nil_append, read, Option.map_some, value,
      true_or, if_true]
    congr 3
    omega
  · obtain ⟨d, ds, digits, digit⟩ := digitsStart e.natAbs
    rw [decide_eq_false below]
    rw [digits] at read value ⊢
    simp only [readExponent, sign, List.nil_append, List.cons_append, true_or, if_true, Bool.false_eq_true,
      if_false] at read ⊢
    split
    · rename_i own
      cases own
      cases digit
    · rename_i own
      cases own
      cases digit
    · rw [read, Option.map_some, value]
      congr 3
      omega

theorem readInteger (negative : Bool) (n : Nat) (stops : Stops rest) :
    readNumber negative (Nat.toDigits 10 n ++ rest) =
      some (.number (makeNumber negative (Nat.toDigits 10 n) none none), rest) := by
  have whole := readWholeOf n fun c member => (stops c member).1
  have fraction : readFraction rest = some (none, rest) := by
    unfold readFraction
    split
    · exact absurd rfl (stops '.' rfl).2.1
    · rfl
  have exponent : readExponent rest = some (none, rest) := by
    cases rest with
    | nil => rfl
    | cons c cs =>
      obtain ⟨-, -, lower, upper⟩ := stops c rfl
      simp [readExponent, lower, upper]
  simp [readNumber, whole, fraction, exponent]

theorem readDecimal (negative : Bool) (n : Nat) (e : Int) (stops : Stops rest) :
    readNumber negative (Nat.toDigits 10 n ++ 'e' :: ((toString e).toList ++ rest)) =
      some (.number (.decimal negative n e), rest) := by
  have exponent := readExponentOf e fun c member => (stops c member).1
  generalize (toString e).toList ++ rest = written at exponent ⊢
  have whole : readWhole (Nat.toDigits 10 n ++ 'e' :: written) = some (Nat.toDigits 10 n, 'e' :: written) :=
    readWholeOf n fun c member => by cases Option.mem_some.mp member; rfl
  simp [readNumber, whole, readFraction, exponent, makeNumber, decimalValueOf]

def Opens (c : Char) : Prop := c ∉ [' ', '\n', '\t', '\r', ']']

instance (c : Char) : Decidable (Opens c) := inferInstanceAs (Decidable (c ∉ _))

theorem skipOpening {c : Char} (opens : Opens c) (cs : List Char) : skipBlank (c :: cs) = c :: cs := by
  simp only [Opens, List.mem_cons, List.not_mem_nil, or_false, not_or] at opens
  exact List.dropWhile_cons_of_neg (by simp [opens])

theorem digitOpens {d : Char} (digit : isDigit d = true) : Opens d := by
  intro blank
  simp only [List.mem_cons, List.not_mem_nil, or_false] at blank
  rcases blank with rfl | rfl | rfl | rfl | rfl <;> cases digit

theorem skipAgain (cs : List Char) : skipBlank (skipBlank cs) = skipBlank cs := List.dropWhile_idempotent _ _

theorem readValueBlank (fuel : Nat) (cs : List Char) : readValue fuel (skipBlank cs) = readValue fuel cs := by
  cases fuel with
  | zero => rfl
  | succ fuel => simp only [readValue, skipAgain]

section
variable (negative : Bool) (n : Nat)

theorem signedStart (tail : List Char) : ∃ c cs, sign negative ++ (Nat.toDigits 10 n ++ tail) = c :: cs ∧ Opens c := by
  obtain ⟨d, ds, digits, digit⟩ := digitsStart n
  rw [digits]
  cases negative with
  | true => exact ⟨'-', _, rfl, by decide⟩
  | false => exact ⟨d, _, rfl, digitOpens digit⟩

theorem readSigned (fuel : Nat) (tail : List Char) :
    readValue (fuel + 1) (sign negative ++ (Nat.toDigits 10 n ++ tail)) =
      readNumber negative (Nat.toDigits 10 n ++ tail) := by
  cases negative with
  | true => rfl
  | false =>
    obtain ⟨d, ds, digits, digit⟩ := digitsStart n
    change readValue (fuel + 1) (Nat.toDigits 10 n ++ tail) = _
    rw [digits, List.cons_append, readValue, skipOpening (digitOpens digit)]
    split
    case h_8 => rfl
    all_goals
      rename_i own
      cases own
      cases digit

end

theorem makeInteger (v : Int) : makeNumber (decide (v < 0)) (Nat.toDigits 10 v.natAbs) none none = .integer v := by
  rw [makeNumber, decimalValueOf]
  by_cases below : v < 0
  · rw [decide_eq_true below, if_pos rfl, if_neg (by omega), show -(v.natAbs : Int) = v by omega]
  · rw [decide_eq_false below, if_neg Bool.false_ne_true, show (v.natAbs : Int) = v by omega]

def numberTail : JsonNumber → List Char
  | .integer _ => []
  | .decimal _ _ e => 'e' :: (toString e).toList

theorem numberText (n : JsonNumber) : ∃ negative digits, (writeNumber n).toList =
      sign negative ++ (Nat.toDigits 10 digits ++ numberTail n) ∧ ∀ rest, Stops rest →
        readNumber negative (Nat.toDigits 10 digits ++ (numberTail n ++ rest)) = some (.number n, rest) := by
  cases n with
  | integer v =>
    refine ⟨decide (v < 0), v.natAbs, ?_, fun rest stops => ?_⟩
    · rw [writeNumber, integerText, numberTail, List.append_nil]
    · rw [numberTail, List.nil_append, readInteger _ _ stops, makeInteger]
  | decimal negative n e =>
    refine ⟨negative, n, ?_, fun rest stops => readDecimal negative n e stops⟩
    cases negative <;> simp [writeNumber, numberTail, sign]

theorem numberStart (n : JsonNumber) : ∃ c cs, (writeNumber n).toList = c :: cs ∧ Opens c := by
  obtain ⟨negative, digits, text, -⟩ := numberText n
  rw [text]
  exact signedStart negative digits _

theorem readNumberText (n : JsonNumber) (stops : Stops rest) (fuel : Nat) :
    readValue (fuel + 1) ((writeNumber n).toList ++ rest) = some (.number n, rest) := by
  obtain ⟨negative, digits, text, read⟩ := numberText n
  rw [text, List.append_assoc, List.append_assoc, readSigned, read rest stops]

theorem hexPairText : ∀ n < 32, (hexPair n).toList = [Nat.digitChar (n / 16), Nat.digitChar (n % 16)] := by
  decide +kernel

theorem hexValueOf : ∀ n < 16, hexValue? (Nat.digitChar n) = some n := by decide

theorem readControl {c : Char} (control : c.toNat < 32) (rest : List Char) :
    readEscapedUnit ('0' :: '0' :: ((hexPair c.toNat).toList ++ rest)) = some (some c, rest) := by
  have high := hexValueOf (c.toNat / 16) (by omega)
  have low := hexValueOf (c.toNat % 16) (Nat.mod_lt _ (by decide))
  have zero := hexValueOf 0 (by decide)
  have whole : c.toNat / 16 * 16 + c.toNat % 16 = c.toNat := Nat.div_add_mod' _ _
  have single : isHighSurrogate c.toNat = false ∧ isLowSurrogate c.toNat = false := by
    simp [isHighSurrogate, isLowSurrogate]
    omega
  rw [hexPairText _ control]
  simp [readEscapedUnit, readUnit, high, low, whole, single, show hexValue? '0' = some 0 from zero]

theorem readEscapeChar (c : Char) (fuel : Nat) (done : List Char) :
    readString (fuel + 1) (some done) ((escapeChar c).toList ++ rest) = readString fuel (some (c :: done)) rest := by
  unfold escapeChar
  split
  · subst_vars; rfl
  split
  · subst_vars; rfl
  split
  · subst_vars; rfl
  split
  · subst_vars; rfl
  split
  · subst_vars; rfl
  split
  · subst_vars; rfl
  split
  · subst_vars; rfl
  split
  · rename_i control
    have unit := readControl control rest
    simp [readString, readEscape, unit]
  · rename_i quote backslash _ _ _ _ _ shown
    simp [readString, quote, backslash, shown, Char.toString]

theorem escapePositive (c : Char) : 0 < (escapeChar c).toList.length := by
  rw [List.length_pos_iff]
  unfold escapeChar
  repeat' split
  all_goals simp

theorem escapedLength (cs : List Char) : cs.length ≤ (String.join (cs.map escapeChar)).toList.length := by
  induction cs with
  | nil => exact Nat.zero_le _
  | cons c cs ih =>
    have own := escapePositive c
    simp only [List.map_cons, String.join_cons, String.toList_append, List.length_append, List.length_cons]
    omega

theorem readEscaped (cs : List Char) (fuel : Nat) (done rest : List Char) (enough : cs.length < fuel) :
    readString fuel (some done) ((String.join (cs.map escapeChar)).toList ++ '"' :: rest) =
      some (some (String.ofList (done.reverse ++ cs)), rest) := by
  induction cs generalizing fuel done with
  | nil =>
    obtain ⟨fuel, rfl⟩ := Nat.exists_eq_succ_of_ne_zero (Nat.ne_zero_of_lt enough)
    rw [List.append_nil]
    rfl
  | cons c cs ih =>
    obtain ⟨fuel, rfl⟩ := Nat.exists_eq_succ_of_ne_zero (Nat.ne_zero_of_lt enough)
    have later := ih fuel (c :: done) (Nat.lt_of_succ_lt_succ enough)
    rw [List.reverse_cons, List.append_assoc, List.singleton_append] at later
    rw [List.map_cons, String.join_cons, String.toList_append, List.append_assoc, readEscapeChar, later]

def quotedRest (s : String) : List Char := (String.join (s.toList.map escapeChar)).toList ++ ['"']

theorem writeTextOf (s : String) : (writeText (some s)).toList = '"' :: quotedRest s := by
  simp [writeText, writeString, quotedRest]

theorem readQuoted (s : String) (rest : List Char) :
    readString ((quotedRest s ++ rest).length + 1) (some []) (quotedRest s ++ rest) = some (some s, rest) := by
  have long := escapedLength s.toList
  have read := readEscaped s.toList ((quotedRest s ++ rest).length + 1) [] rest
    (by simp only [quotedRest, List.length_append]; omega)
  rw [List.reverse_nil, List.nil_append, String.ofList_toList] at read
  simpa [quotedRest] using read

theorem readText (s : String) (fuel : Nat) (rest : List Char) :
    readValue (fuel + 1) ((writeText (some s)).toList ++ rest) = some (.string (some s), rest) := by
  have read := readQuoted s rest
  rw [writeTextOf, List.cons_append, readValue, skipOpening (by decide)]
  simp only [read, Option.map_some]

end TensorPlan.Json.Reader
