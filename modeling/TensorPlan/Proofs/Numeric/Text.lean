import Mathlib.Tactic.Ring
import TensorPlan.Proofs.Json.Tokens
import TensorPlan.Proofs.Numeric.Shortest
/-! The text of a number. It is a numeral: digits, after them a point with more digits or an exponent or both. A numeral is
read back as the decimal that was written, so numbers with one text are one number, up to the payload of a NaN. -/
namespace TensorPlan
open Json.Reader (isDigit decimalValue readNumber readDigits readWhole readFraction readExponent digitMember)

structure Numeral where
  whole : List Char
  fraction : List Char
  exponent : Option Int
  filled : whole ≠ []
  digits : ∀ c ∈ whole ++ fraction, isDigit c = true
  leading : whole.head? = some '0' → whole = ['0']
  parted : fraction ≠ [] ∨ exponent.isSome = true

namespace Numeral

def pointed (fraction : List Char) : List Char := if fraction = [] then [] else '.' :: fraction

def raised : Option Int → List Char
  | none => []
  | some e => 'e' :: (toString e).toList

def text (a : Numeral) : List Char := a.whole ++ (pointed a.fraction ++ raised a.exponent)

def significand (a : Numeral) : Nat := decimalValue (a.whole ++ a.fraction)

def place (a : Numeral) : Int := a.exponent.getD 0 - a.fraction.length

def value (a : Numeral) : ℚ := a.significand * 10 ^ a.place

theorem raisedStart {exponent : Option Int} : ∀ c ∈ (raised exponent).head?, isDigit c = false := by
  intro c member
  cases exponent with
  | none => cases member
  | some e => cases member; rfl

theorem pointedStart (fraction : List Char) (exponent : Option Int) :
    ∀ c ∈ (pointed fraction ++ raised exponent).head?, isDigit c = false := by
  unfold pointed
  split
  · exact raisedStart
  · intro c member
    cases member
    rfl

theorem readRaised (exponent : Option Int) : readExponent (raised exponent) = some (exponent, []) := by
  cases exponent with
  | none => rfl
  | some e =>
    have read := @Json.Reader.readExponentOf [] e (fun _ member => nomatch member)
    rwa [List.append_nil] at read

theorem readPointed (a : Numeral) : readFraction (pointed a.fraction ++ raised a.exponent) =
    some (if a.fraction = [] then none else some a.fraction, raised a.exponent) := by
  unfold pointed
  split
  · cases a.exponent <;> rfl
  · rename_i filled
    have read := Json.Reader.readDigitsAll filled (fun c member => a.digits c (List.mem_append_right _ member))
      (@raisedStart a.exponent)
    simp [readFraction, read]

theorem read (a : Numeral) (negative : Bool) :
    readNumber negative a.text = some (.number (.decimal negative a.significand a.place), []) := by
  have whole := Json.Reader.readWholeAll a.filled (fun c member => a.digits c (List.mem_append_left _ member)) a.leading
    (pointedStart a.fraction a.exponent)
  have parted := a.parted
  have made : Json.Reader.makeNumber negative a.whole (if a.fraction = [] then none else some a.fraction) a.exponent =
      .decimal negative a.significand a.place := by
    unfold significand place
    cases exponent : a.exponent with
    | none =>
      rw [exponent] at parted
      have filled := parted.resolve_right (by decide)
      rw [if_neg filled]
      rfl
    | some e =>
      split
      · rename_i empty
        simp [Json.Reader.makeNumber, empty]
      · rfl
  simp only [text, readNumber, whole, readPointed, readRaised, Option.bind_eq_bind, Option.bind_some, made]

theorem textValue {a b : Numeral} (same : a.text = b.text) : a.value = b.value := by
  have read := (a.read false).symm.trans (same ▸ b.read false)
  simp only [Option.some.injEq, Prod.mk.injEq, Json.number.injEq, JsonNumber.decimal.injEq] at read
  rw [value, value, read.1.2.1, read.1.2.2]

theorem textStart (a : Numeral) : ∃ c cs, a.text = c :: cs ∧ isDigit c = true := by
  obtain ⟨c, cs, own⟩ := List.exists_cons_of_ne_nil a.filled
  exact ⟨c, _, congrArg (· ++ _) own, a.digits c (List.mem_append_left _ (own ▸ List.mem_cons_self))⟩

theorem textCharacters (a : Numeral) {c : Char} (member : c ∈ a.text) : isDigit c = true ∨ c ∈ ['-', '.', 'e'] := by
  have digits (own : c ∈ a.whole ++ a.fraction) : isDigit c = true := a.digits c own
  simp only [text, List.mem_append] at member digits
  rcases member with whole | pointed | raised
  · exact .inl (digits (.inl whole))
  · unfold Numeral.pointed at pointed
    split at pointed
    · cases pointed
    · rcases List.mem_cons.mp pointed with rfl | own
      · exact .inr (by decide)
      · exact .inl (digits (.inr own))
  · cases exponent : a.exponent with
    | none => simp [exponent, Numeral.raised] at raised
    | some e =>
      rw [exponent, Numeral.raised, Json.Reader.integerText] at raised
      rcases List.mem_cons.mp raised with rfl | own
      · exact .inr (by decide)
      rcases List.mem_append.mp own with sign | own
      · unfold Json.Reader.sign at sign
        split at sign
        · exact .inr (by simp [List.mem_singleton.mp sign])
        · cases sign
      · exact .inl (digitMember own)

end Numeral

namespace DecimalStyle
variable {style : DecimalStyle} {d : Decimal} {ds es : List Char}

theorem decimalValueLast (ds : List Char) (c : Char) :
    decimalValue (ds ++ [c]) = decimalValue ds * 10 + Json.Reader.digitValue c := by
  rw [decimalValue, List.foldl_append]
  rfl

theorem decimalValueAppend (ds es : List Char) :
    decimalValue (ds ++ es) = decimalValue ds * 10 ^ es.length + decimalValue es := by
  induction es using List.reverseRecOn with
  | nil => simp [decimalValue]
  | append_singleton es e ih =>
    rw [← List.append_assoc, decimalValueLast, decimalValueLast, ih, List.length_append, List.length_singleton,
      Nat.pow_succ]
    ring

theorem decimalValueZeros (n : Nat) : decimalValue (List.replicate n '0') = 0 := by
  induction n with
  | zero => rfl
  | succ n ih =>
    rw [List.replicate_succ', decimalValueAppend, ih]
    rfl

theorem zerosDigits (n : Nat) : ∀ c ∈ List.replicate n '0', isDigit c = true := by
  intro c member
  rw [List.eq_of_mem_replicate member]
  rfl

theorem scientificNumeral (positive : 0 < d.digits) :
    ∃ a : Numeral, (scientific d).toList = a.text ∧ a.value = d.value := by
  have first := Json.Reader.noLeadingZero positive.ne'
  have value := Json.Reader.decimalValueOf d.digits
  have written := Json.Reader.digitsOf d.digits
  have all : ∀ c ∈ Nat.toDigits 10 d.digits, isDigit c = true := fun c => digitMember
  have count : d.scientificExponent = d.exponent + (Nat.toDigits 10 d.digits).length - 1 := rfl
  obtain ⟨c, cs, digits⟩ := List.exists_cons_of_ne_nil (@Nat.toDigits_ne_nil d.digits 10)
  rw [digits] at first value all count written
  refine ⟨⟨[c], cs, some d.scientificExponent, by simp, all, fun zero => absurd zero first, .inr rfl⟩, ?_, ?_⟩
  · rw [scientific, written]
    cases cs <;> simp [Numeral.text, Numeral.pointed, Numeral.raised]
  · have place : d.scientificExponent - cs.length = d.exponent := by
      rw [count, List.length_cons]
      omega
    rw [Numeral.value, Numeral.significand, Numeral.place, List.singleton_append, value, Option.getD_some, place,
      Decimal.value, RoundingInterval.unitPower]

theorem wholeNumeral (keeps : style.keepsPoint = true) (positive : 0 < d.digits) (whole : 0 ≤ d.exponent) :
    ∃ a : Numeral, (style.positional d).toList = a.text ∧ a.value = d.value := by
  obtain ⟨n, exponent⟩ := Int.eq_ofNat_of_zero_le whole
  have filled := @Nat.toDigits_ne_nil d.digits 10
  have digits : ∀ c ∈ Nat.toDigits 10 d.digits ++ List.replicate n '0' ++ ['0'], isDigit c = true := by
    intro c member
    rcases List.mem_append.mp member with before | last
    · exact (List.mem_append.mp before).elim digitMember (zerosDigits n c)
    · exact zerosDigits 1 c last
  refine ⟨⟨Nat.toDigits 10 d.digits ++ List.replicate n '0', ['0'], none, by simp [filled], digits, fun zero => ?_,
    .inl (by simp)⟩, ?_, ?_⟩
  · rw [List.head?_append_of_ne_nil _ filled] at zero
    exact absurd zero (Json.Reader.noLeadingZero positive.ne')
  · simp [positional, keeps, zeros, exponent, Numeral.text, Numeral.pointed, Numeral.raised]
  · rw [Numeral.value, Numeral.significand, Numeral.place, decimalValueLast, decimalValueAppend, decimalValueZeros,
      Json.Reader.decimalValueOf, List.length_replicate, Decimal.value, RoundingInterval.unitPower, exponent]
    have zero : Json.Reader.digitValue '0' = 0 := rfl
    simp [zero]

theorem pointAfterText (ds : List Char) (n : Int) : (pointAfter (String.ofList ds) n).toList =
    if n ≤ 0 then '0' :: '.' :: (List.replicate (-n).toNat '0' ++ ds) else ds.take n.toNat ++ '.' :: ds.drop n.toNat := by
  unfold pointAfter
  split <;> simp [zeros]

theorem pointBefore {e : Int} (filled : ds ≠ []) (all : ∀ c ∈ ds, isDigit c = true) (small : e + ds.length ≤ 0) :
    ∃ a : Numeral, (pointAfter (String.ofList ds) (e + ds.length)).toList = a.text ∧ a.value = decimalValue ds * 10 ^ e := by
  rw [pointAfterText, if_pos small]
  obtain ⟨n, places⟩ : ∃ n : Nat, (-(e + ds.length)).toNat = n := ⟨_, rfl⟩
  have digits : ∀ c ∈ ['0'] ++ (List.replicate n '0' ++ ds), isDigit c = true := by
    intro c member
    rcases List.mem_append.mp member with point | rest
    · exact zerosDigits 1 c point
    · exact (List.mem_append.mp rest).elim (zerosDigits n c) (all c)
  refine ⟨⟨['0'], List.replicate n '0' ++ ds, none, by simp, digits, fun _ => rfl, .inl (by simp [filled])⟩, ?_, ?_⟩
  · rw [places]
    simp [Numeral.text, Numeral.pointed, Numeral.raised, filled]
  · have zeros := decimalValueZeros (n + 1)
    have place : (0 : Int) - (n + ds.length : Nat) = e := by omega
    rw [Numeral.value, Numeral.significand, Numeral.place, List.singleton_append, ← List.cons_append,
      ← List.replicate_succ, decimalValueAppend, zeros, Nat.zero_mul, Nat.zero_add, List.length_append,
      List.length_replicate, Option.getD_none, place]

theorem pointWithin {e : Int} (all : ∀ c ∈ ds, isDigit c = true) (first : ds.head? ≠ some '0') (broken : e < 0)
    (inside : 0 < e + ds.length) :
    ∃ a : Numeral, (pointAfter (String.ofList ds) (e + ds.length)).toList = a.text ∧ a.value = decimalValue ds * 10 ^ e := by
  rw [pointAfterText, if_neg (by omega)]
  obtain ⟨m, places⟩ := Nat.exists_eq_add_one.mpr (show 0 < (e + ds.length).toNat by omega)
  have split := List.take_append_drop (m + 1) ds
  have left : ds.take (m + 1) ≠ [] := by
    rw [Ne, ← List.length_eq_zero_iff, List.length_take]
    omega
  have right : ds.drop (m + 1) ≠ [] := by
    rw [Ne, List.drop_eq_nil_iff]
    omega
  refine ⟨⟨ds.take (m + 1), ds.drop (m + 1), none, left, split.symm ▸ all, fun zero => ?_, .inl right⟩, ?_, ?_⟩
  · rw [List.head?_take, if_neg (Nat.succ_ne_zero m)] at zero
    exact absurd zero first
  · simp only [places, Numeral.text, Numeral.pointed, Numeral.raised, if_neg right, List.append_nil]
  · have place : (0 : Int) - (ds.length - (m + 1) : Nat) = e := by omega
    simp only [Numeral.value, Numeral.significand, Numeral.place, split, List.length_drop, Option.getD_none, place]

theorem pointNumeral (positive : 0 < d.digits) (broken : d.exponent < 0) :
    ∃ a : Numeral, (style.positional d).toList = a.text ∧ a.value = d.value := by
  have first := Json.Reader.noLeadingZero positive.ne'
  have value := Json.Reader.decimalValueOf d.digits
  have all : ∀ c ∈ Nat.toDigits 10 d.digits, isDigit c = true := fun c => digitMember
  have filled := @Nat.toDigits_ne_nil d.digits 10
  rw [positional, if_neg (by omega), Nat.toString_eq_ofList_toDigits, String.length_ofList, Decimal.value,
    RoundingInterval.unitPower]
  generalize Nat.toDigits 10 d.digits = ds at *
  rw [← value]
  rcases Int.lt_or_le 0 (d.exponent + ds.length) with inside | small
  · exact pointWithin all first broken inside
  · exact pointBefore filled all small

theorem magnitudeNumeral (keeps : style.keepsPoint = true) (positive : 0 < d.digits) :
    ∃ a : Numeral, (style.magnitude d).toList = a.text ∧ a.value = d.value := by
  unfold magnitude
  dsimp only
  split
  · exact scientificNumeral positive
  · rcases Int.lt_or_le d.exponent 0 with broken | whole
    · exact pointNumeral positive broken
    · exact wholeNumeral keeps positive whole

end DecimalStyle

namespace Binary
open DecimalStyle
open Json.Reader (sign)
variable {f : BinaryFormat} {style : DecimalStyle} {x y : Binary f} {n m : Nat}

def Agree (x y : Binary f) : Prop := x = y ∨ x.isNaN = true ∧ y.isNaN = true

def shownValue (f : BinaryFormat) (n : Nat) : ℚ := if n = 0 then 0 else (RoundingInterval.ofMagnitude f n).shortest.value

theorem shownPositive (upTo : f.UpToDouble) (positive : n ≠ 0) (finite : n < f.infinity) : 0 < shownValue f n := by
  rw [shownValue, if_neg positive, Decimal.value]
  have digits := RoundingInterval.shortestPositive upTo (Nat.pos_of_ne_zero positive) finite
  exact mul_pos (Nat.cast_pos.mpr digits) (RoundingInterval.unitAbove _)

theorem shownInjective (upTo : f.UpToDouble) (finite : n < f.infinity) (finite' : m < f.infinity)
    (same : shownValue f n = shownValue f m) : n = m := by
  by_cases zero : n = 0
  · by_contra other
    have positive := shownPositive upTo (fun none => other (zero.trans none.symm)) finite'
    rw [← same, shownValue, if_pos zero] at positive
    exact lt_irrefl _ positive
  · have positive := shownPositive upTo zero finite
    by_cases zero' : m = 0
    · rw [same, shownValue, if_pos zero'] at positive
      exact absurd positive (lt_irrefl _)
    · rw [shownValue, shownValue, if_neg zero, if_neg zero'] at same
      exact RoundingInterval.shortestInjective upTo (Nat.pos_of_ne_zero zero) finite (Nat.pos_of_ne_zero zero') finite' same

inductive Written (x : Binary f) : Bool → List Char → Prop where
  | nan (none : x.isNaN = true) : Written x false ['N', 'a', 'N']
  | infinite (greatest : x.magnitude = f.infinity) : Written x x.negative ['i', 'n', 'f']
  | finite (a : Numeral) (finite : x.magnitude < f.infinity) (value : a.value = shownValue f x.magnitude) :
    Written x x.negative a.text

theorem renderWritten (upTo : f.UpToDouble) (keeps : style.keepsPoint = true) (x : Binary f) :
    ∃ negative body, (style.render x).toList = sign negative ++ body ∧ Written x negative body := by
  have signText (rest : String) : ((if x.negative then "-" else "") ++ rest).toList = sign x.negative ++ rest.toList := by
    cases x.negative <;> simp [sign]
  rw [render, RoundingInterval.ofBinaryMagnitude]
  split
  · exact ⟨_, _, rfl, .nan ‹_›⟩
  · rename_i number
    rw [isNaN, decide_eq_true_eq] at number
    dsimp only
    split
    · exact ⟨_, _, signText _, .infinite ‹_›⟩
    · split
      · rename_i zero
        let none : Numeral := ⟨['0'], ['0'], none, by simp, zerosDigits 2, by simp, by simp⟩
        refine ⟨_, _, (signText _).trans rfl, .finite none (by omega) ?_⟩
        rw [zero, shownValue, if_pos rfl]
        simp [none, Numeral.value, Numeral.significand, decimalValue, Json.Reader.digitValue]
      · rename_i finite some
        have positive := RoundingInterval.shortestPositive upTo (Nat.pos_of_ne_zero some) (by omega)
        obtain ⟨a, text, value⟩ := magnitudeNumeral keeps positive
        refine ⟨_, _, (signText _).trans (congrArg (_ ++ ·) text), .finite a (by omega) ?_⟩
        rw [value, shownValue, if_neg some]

theorem Written.start {negative : Bool} {body : List Char} (written : Written x negative body) : body.head? ≠ some '-' := by
  cases written with
  | nan => simp
  | infinite => simp
  | finite a =>
    obtain ⟨c, cs, text, digit⟩ := a.textStart
    rw [text]
    rintro ⟨⟩
    cases digit

theorem signApart {negative negative' : Bool} {body body' : List Char} (first : body.head? ≠ some '-')
    (second : body'.head? ≠ some '-') (same : sign negative ++ body = sign negative' ++ body') :
    negative = negative' ∧ body = body' := by
  cases negative <;> cases negative'
  · exact ⟨rfl, same⟩
  · exact absurd (congrArg List.head? same) first
  · exact absurd (congrArg List.head? same.symm) second
  · exact ⟨rfl, List.cons.inj same |>.2⟩

theorem Written.apart (upTo : f.UpToDouble) {negative negative' : Bool} {body body' : List Char}
    (first : Written x negative body) (second : Written y negative' body') (sameSign : negative = negative')
    (same : body = body') : x.Agree y := by
  have apart (a : Numeral) {c : Char} {cs : List Char} (text : a.text = c :: cs) : isDigit c = true := by
    obtain ⟨d, ds, own, digit⟩ := a.textStart
    cases text.symm.trans own
    exact digit
  cases first with
  | nan none =>
    cases second with
    | nan none' => exact .inr ⟨none, none'⟩
    | infinite => cases same
    | finite a => cases apart a same.symm
  | infinite greatest =>
    cases second with
    | nan => cases same
    | infinite greatest' => exact .inl (sameParts sameSign (greatest.trans greatest'.symm))
    | finite a => cases apart a same.symm
  | finite a finite value =>
    cases second with
    | nan => cases apart a same
    | infinite => cases apart a same
    | finite b finite' value' =>
      have shown := value.symm.trans ((Numeral.textValue same).trans value')
      exact .inl (sameParts sameSign (shownInjective upTo finite finite' shown))

theorem renderInjective (upTo : f.UpToDouble) (keeps : style.keepsPoint = true) :
    style.render x = style.render y ↔ x.Agree y := by
  constructor
  · intro same
    obtain ⟨negative, body, text, written⟩ := renderWritten upTo keeps x
    obtain ⟨negative', body', text', written'⟩ := renderWritten upTo keeps y
    rw [same, text'] at text
    obtain ⟨sign, body⟩ := signApart written.start written'.start text.symm
    exact written.apart upTo written' sign body
  · rintro (rfl | ⟨none, none'⟩)
    · rfl
    · rw [render, render, if_pos none, if_pos none']

end Binary
end TensorPlan
