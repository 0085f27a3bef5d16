import Mathlib.Data.List.Forall2
import Mathlib.Data.List.Nodup
import Mathlib.Data.Option.Basic
import TensorPlan.Proofs.Json.Tokens
import TensorPlan.Text.Description
/-! Descriptions that tell their values apart. A word holds no mark, so a mark or the end of the text ends it; and lists,
optional values and records of parts that end of themselves or before a mark do so too. -/
namespace TensorPlan.Text
open Json.Reader (isDigit)

def isMark (c : Char) : Bool := [' ', ',', ':', ';', '=', '(', ')', '[', ']', '\x7b', '\x7d'].contains c

def Plain (cs : List Char) : Prop := ∀ c ∈ cs, isMark c = false

structure Word (s : String) : Prop where
  filled : s.toList ≠ []
  plain : Plain s.toList

def Ends (rest : List Char) : Prop := ∀ c ∈ rest.head?, isMark c = true

structure Tells (s t : String) (same : Prop) : Prop where
  equal : same → s = t
  apart : ∀ {rest rest' : List Char}, Ends rest → Ends rest' → s.toList ++ rest = t.toList ++ rest' →
    same ∧ rest = rest'

variable {s t u v : String} {p q : Prop} {rest rest' : List Char}

theorem endsNil : Ends [] := fun _ member => nomatch member

theorem endsMark {c : Char} (mark : isMark c = true) (cs : List Char) : Ends (c :: cs) := by
  intro d member
  cases member
  exact mark

theorem plainOf {cs : List Char} (checked : cs.all (fun c => !isMark c) = true) : Plain cs := by
  simpa [Plain] using checked

theorem plainApart {cs ds : List Char} (first : Plain cs) (second : Plain ds)
    (ends : Ends rest) (ends' : Ends rest') (same : cs ++ rest = ds ++ rest') : cs = ds ∧ rest = rest' := by
  induction cs generalizing ds with
  | nil =>
    cases ds with
    | nil => exact ⟨rfl, same⟩
    | cons d ds =>
      rw [List.nil_append] at same
      have mark := ends d (by rw [same]; rfl)
      exact absurd mark (by simp [second d List.mem_cons_self])
  | cons c cs ih =>
    cases ds with
    | nil =>
      rw [List.nil_append] at same
      have mark := ends' c (by rw [← same]; rfl)
      exact absurd mark (by simp [first c List.mem_cons_self])
    | cons d ds =>
      obtain ⟨rfl, others⟩ := List.cons.inj same
      obtain ⟨rfl, after⟩ := ih (fun c member => first c (List.mem_cons_of_mem _ member))
        (fun c member => second c (List.mem_cons_of_mem _ member)) others
      exact ⟨rfl, after⟩

namespace Tells

theorem imp (tells : Tells s t p) (means : p ↔ q) : Tells s t q :=
  ⟨fun same => tells.equal (means.mpr same), fun ends ends' same => (tells.apart ends ends' same).imp_left means.mp⟩

theorem word (first : Word s) (second : Word t) (means : s = t ↔ p) : Tells s t p := by
  refine ⟨means.mpr, fun ends ends' same => ?_⟩
  obtain ⟨own, after⟩ := plainApart first.plain second.plain ends ends' same
  exact ⟨means.mp (String.toList_inj.mp own), after⟩

theorem behind (literal : String) (tells : Tells s t p) : Tells (literal ++ s) (literal ++ t) p := by
  refine ⟨fun same => congrArg _ (tells.equal same), fun ends ends' same => ?_⟩
  rw [String.toList_append, String.toList_append, List.append_assoc, List.append_assoc] at same
  exact tells.apart ends ends' (List.append_cancel_left same)

theorem join (mark : String) {c : Char} {cs : List Char} (marks : mark.toList = c :: cs) (isMark : isMark c = true)
    (first : Tells s t p) (second : Tells u v q) : Tells (s ++ mark ++ u) (t ++ mark ++ v) (p ∧ q) := by
  refine ⟨fun same => by rw [first.equal same.1, second.equal same.2], fun ends ends' same => ?_⟩
  simp only [String.toList_append, List.append_assoc, marks, List.cons_append] at same
  obtain ⟨own, others⟩ := first.apart (endsMark isMark _) (endsMark isMark _) same
  obtain ⟨more, after⟩ := second.apart ends ends' (List.append_cancel_left (List.cons.inj others).2)
  exact ⟨⟨own, more⟩, after⟩

theorem closed (mark : String) {c : Char} {cs : List Char} (marks : mark.toList = c :: cs) (isMark : isMark c = true)
    (tells : Tells s t p) : Tells (s ++ mark) (t ++ mark) p := by
  refine ⟨fun same => by rw [tells.equal same], fun ends ends' same => ?_⟩
  simp only [String.toList_append, List.append_assoc, marks, List.cons_append] at same
  obtain ⟨own, others⟩ := tells.apart (endsMark isMark _) (endsMark isMark _) same
  exact ⟨own, List.append_cancel_left (List.cons.inj others).2⟩

theorem applied (name : String) (tells : Tells s t p) : Tells (Text.applied name [s]) (Text.applied name [t]) p := by
  unfold Text.applied commas
  rw [String.intercalate_singleton, String.intercalate_singleton]
  exact closed ")" rfl rfl (tells.behind (name ++ "("))

theorem differ {c d : Char} (first : s.toList.head? = some c) (second : t.toList.head? = some d) (other : c ≠ d)
    (never : ¬ p) : Tells s t p := by
  refine ⟨fun same => absurd same never, fun _ _ same => ?_⟩
  have heads := congrArg List.head? same
  rw [List.head?_append, List.head?_append, first, second] at heads
  exact absurd (Option.some.inj heads) other

theorem optional {α : Type} {describe : α → String} {related : α → α → Prop}
    (tells : ∀ x y, Tells (describe x) (describe y) (related x y)) (a b : Option α) :
    Tells (Text.optional describe a) (Text.optional describe b) (Option.Rel related a b) := by
  have absent : (Text.optional describe none).toList.head? = some 'N' := by simp [Text.optional]
  have present (x : α) : (Text.optional describe (some x)).toList.head? = some 'S' := by
    simp [Text.optional, Text.applied]
  cases a with
  | none =>
    cases b with
    | none => exact ⟨fun _ => rfl, fun _ _ same => ⟨.none, List.append_cancel_left same⟩⟩
    | some y => exact differ absent (present y) (by decide) fun same => nomatch same
  | some x =>
    cases b with
    | none => exact differ (present x) absent (by decide) fun same => nomatch same
    | some y => exact ((tells x y).applied "Some").imp ⟨.some, fun | .some own => own⟩

end Tells

def following (sep : String) (items : List String) : List Char := items.flatMap fun t => sep.toList ++ t.toList

theorem intercalateCons (sep s : String) (items : List String) :
    (sep.intercalate (s :: items)).toList = s.toList ++ following sep items := by
  induction items generalizing s with
  | nil => rw [String.intercalate_singleton, following, List.flatMap_nil, List.append_nil]
  | cons t items ih =>
    rw [String.intercalate_cons_cons, String.toList_append, String.toList_append, ih, following, following, List.flatMap_cons,
      List.append_assoc, List.append_assoc]

theorem followingEnds {sep : String} {c d : Char} {cs : List Char} (marks : sep.toList = c :: cs) (mark : isMark c = true)
    (closing : isMark d = true) (items : List String) (rest : List Char) : Ends (following sep items ++ d :: rest) := by
  cases items with
  | nil => exact endsMark closing rest
  | cons t items =>
    rw [following, List.flatMap_cons, marks]
    exact endsMark mark _

section
variable {α : Type} {describe : α → String} {related : α → α → Prop} {sep : String} {more : List Char}
  (words : ∀ x, Word (describe x)) (means : ∀ x y, describe x = describe y ↔ related x y)
  (comma : sep.toList = ',' :: more)
include words means comma

theorem followingApart (xs ys : List α)
    (same : following sep (xs.map describe) ++ ']' :: rest = following sep (ys.map describe) ++ ']' :: rest') :
    List.Forall₂ related xs ys ∧ rest = rest' := by
  unfold following at same
  induction xs generalizing ys with
  | nil =>
    cases ys with
    | nil => exact ⟨.nil, (List.cons.inj same).2⟩
    | cons y ys =>
      rw [List.map_cons, List.flatMap_cons, comma] at same
      cases (List.cons.inj same).1
  | cons x xs ih =>
    cases ys with
    | nil =>
      rw [List.map_cons, List.flatMap_cons, comma] at same
      cases (List.cons.inj same).1
    | cons y ys =>
      simp only [List.map_cons, List.flatMap_cons, List.append_assoc] at same
      obtain ⟨own, others⟩ := (Tells.word (words x) (words y) (means x y)).apart (followingEnds comma rfl rfl _ _)
        (followingEnds comma rfl rfl _ _) (List.append_cancel_left same)
      obtain ⟨each, after⟩ := ih ys others
      exact ⟨.cons own each, after⟩

theorem Tells.enclosed (xs ys : List α) :
    Tells ("[" ++ sep.intercalate (xs.map describe) ++ "]") ("[" ++ sep.intercalate (ys.map describe) ++ "]")
      (List.Forall₂ related xs ys) := by
  have open' (zs : List α) (rest : List Char) : ("[" ++ sep.intercalate (zs.map describe) ++ "]").toList ++ rest =
      '[' :: ((sep.intercalate (zs.map describe)).toList ++ ']' :: rest) := by simp
  have never (x : α) (xs : List α) (rest rest' : List Char) :
      ']' :: rest' ≠ (sep.intercalate (describe x :: xs.map describe)).toList ++ ']' :: rest := by
    intro same
    obtain ⟨c, cs, own⟩ := List.exists_cons_of_ne_nil (words x).filled
    rw [intercalateCons, own] at same
    have plain := (words x).plain c (own ▸ List.mem_cons_self)
    rw [← (List.cons.inj same).1] at plain
    cases plain
  refine ⟨fun same => ?_, fun _ _ same => ?_⟩
  · have texts : xs.map describe = ys.map describe := by
      induction same with
      | nil => rfl
      | cons own _ ih => rw [List.map_cons, List.map_cons, ih, (means _ _).mpr own]
    rw [texts]
  · rw [open', open'] at same
    have same := (List.cons.inj same).2
    cases xs with
    | nil =>
      cases ys with
      | nil => exact ⟨.nil, (List.cons.inj same).2⟩
      | cons y ys => exact absurd same (never y ys _ _)
    | cons x xs =>
      cases ys with
      | nil => exact absurd same.symm (never x xs _ _)
      | cons y ys =>
        simp only [List.map_cons, intercalateCons, List.append_assoc] at same
        obtain ⟨own, others⟩ := (Tells.word (words x) (words y) (means x y)).apart (followingEnds comma rfl rfl _ _)
          (followingEnds comma rfl rfl _ _) same
        obtain ⟨each, after⟩ := followingApart words means comma xs ys others
        exact ⟨.cons own each, after⟩

end

theorem Tells.list {α : Type} {describe : α → String} {related : α → α → Prop} (words : ∀ x, Word (describe x))
    (means : ∀ x y, describe x = describe y ↔ related x y) (xs ys : List α) :
    Tells (Text.list describe xs) (Text.list describe ys) (List.Forall₂ related xs ys) :=
  @Tells.enclosed _ _ _ ", " _ words means rfl xs ys

inductive FieldsTell : List (String × String) → List (String × String) → Prop → Prop where
  | nil : FieldsTell [] [] True
  | cons {s t : String} {p q : Prop} {fields fields' : List (String × String)} (name : String) (first : Tells s t p)
    (others : FieldsTell fields fields' q) : FieldsTell ((name, s) :: fields) ((name, t) :: fields') (p ∧ q)

theorem FieldsTell.equal {fields fields' : List (String × String)} (tell : FieldsTell fields fields' p) (same : p) :
    fields = fields' := by
  induction tell with
  | nil => rfl
  | cons name first _ ih => rw [first.equal same.1, ih same.2]

theorem fieldsEnd (items : List String) (rest : List Char) : Ends (following ", " items ++ ' ' :: rest) :=
  @followingEnds ", " ',' ' ' [' '] rfl rfl rfl items rest

theorem FieldsTell.apart {fields fields' : List (String × String)} (tell : FieldsTell fields fields' p)
    (same : following ", " (fields.map fun f => field f.1 f.2) ++ ' ' :: rest =
      following ", " (fields'.map fun f => field f.1 f.2) ++ ' ' :: rest') : p ∧ rest = rest' := by
  induction tell with
  | nil => exact ⟨trivial, (List.cons.inj same).2⟩
  | cons name first others ih =>
    rw [List.map_cons, List.map_cons, following, following, List.flatMap_cons, List.flatMap_cons, field, field] at same
    simp only [String.toList_append, List.append_assoc] at same
    have same := List.append_cancel_left (List.append_cancel_left (List.append_cancel_left same))
    obtain ⟨own, same⟩ := first.apart (fieldsEnd _ _) (fieldsEnd _ _) same
    obtain ⟨more, after⟩ := ih same
    exact ⟨⟨own, more⟩, after⟩

theorem Tells.record (name : String) {fields fields' : List (String × String)} (tell : FieldsTell fields fields' p) :
    Tells (Text.record name fields) (Text.record name fields') p := by
  refine ⟨fun same => by rw [tell.equal same], fun _ _ same => ?_⟩
  have close (rest : List Char) : " \x7d".toList ++ rest = ' ' :: '\x7d' :: rest := rfl
  unfold Text.record commas at same
  simp only [String.toList_append, List.append_assoc, close] at same
  have same := List.append_cancel_left (List.append_cancel_left same)
  cases tell with
  | nil => exact ⟨trivial, (List.cons.inj (List.cons.inj (List.append_cancel_left same)).2).2⟩
  | cons _ first others =>
    simp only [List.map_cons, intercalateCons, field, String.toList_append, List.append_assoc] at same
    have same := List.append_cancel_left (List.append_cancel_left same)
    obtain ⟨own, same⟩ := first.apart (fieldsEnd _ _) (fieldsEnd _ _) same
    obtain ⟨more, after⟩ := others.apart same
    exact ⟨⟨own, more⟩, (List.cons.inj after).2⟩

structure Names {α : Type} (describe : α → String) : Prop where
  word : ∀ x, Word (describe x)
  injective : Function.Injective describe

namespace Names
variable {α : Type} {describe : α → String}

theorem ofAll (all : List α) (complete : ∀ x, x ∈ all) (apart : (all.map describe).Nodup)
    (words : ∀ x ∈ all, (describe x).toList ≠ [] ∧ (describe x).toList.all (fun c => !isMark c) = true) :
    Names describe where
  word x := ⟨(words x (complete x)).1, plainOf (words x (complete x)).2⟩
  injective x y same := List.inj_on_of_nodup_map apart (complete x) (complete y) same

theorem tells (names : Names describe) (x y : α) : Tells (describe x) (describe y) (x = y) :=
  .word (names.word x) (names.word y) names.injective.eq_iff

theorem list (names : Names describe) (xs ys : List α) : Tells (Text.list describe xs) (Text.list describe ys) (xs = ys) :=
  (Tells.list names.word (fun _ _ => names.injective.eq_iff) xs ys).imp (by rw [List.forall₂_eq_eq_eq])

end Names

theorem digitPlain {c : Char} (digit : isDigit c = true) : isMark c = false := by
  by_contra mark
  rw [Bool.not_eq_false, isMark, List.contains_iff_mem] at mark
  simp only [List.mem_cons, List.not_mem_nil, or_false] at mark
  rcases mark with rfl | rfl | rfl | rfl | rfl | rfl | rfl | rfl | rfl | rfl | rfl <;> cases digit

theorem integerNames : Names fun v : Int => toString v where
  word v := by
    have text := Json.Reader.integerText v
    refine ⟨fun empty => ?_, fun c member => ?_⟩
    · rw [text] at empty
      exact Nat.toDigits_ne_nil (List.append_eq_nil_iff.mp empty).2
    · rw [text] at member
      rcases List.mem_append.mp member with sign | digit
      · unfold Json.Reader.sign at sign
        split at sign
        · rw [List.mem_singleton.mp sign]
          rfl
        · cases sign
      · exact digitPlain (Json.Reader.digitMember digit)
  injective v w same := by
    have read (v : Int) := @Json.Reader.readNumberText [] (.integer v) Json.Reader.stopsNil 0
    have numbers := congrArg (fun s : String => Json.Reader.readValue 1 (s.toList ++ [])) same
    cases (read v).symm.trans (numbers.trans (read w))
    rfl

theorem naturalNames : Names fun n : Nat => toString n where
  word n := integerNames.word n
  injective _ _ same := Int.natCast_inj.mp (integerNames.injective same)

theorem optionalEqual {α : Type} {a b : Option α} : Option.Rel Eq a b ↔ a = b := by
  constructor
  · rintro (own | _)
    · rw [own]
    · rfl
  · rintro rfl
    cases a with
    | none => exact .none
    | some x => exact .some rfl

end TensorPlan.Text
