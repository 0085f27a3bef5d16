import TensorPlan.Proofs.Json.Tokens
/-! Values that are read back, in both styles. A list goes on behind each of its items with a comma and another item or
with its bracket, and twice the length of a text is fuel enough for it. -/
namespace TensorPlan.Json
variable {s : Style} {rest : List Char}

def Style.following (s : Style) (level : Nat) (close : Char) : List String → List Char
  | [] => (s.lineBreak level).toList ++ [close]
  | item :: items => ',' :: ((s.lineBreak (level + 1)).toList ++ (item.toList ++ s.following level close items))

theorem Style.encloseNil (s : Style) (level : Nat) (left right : String) :
    s.enclose level left right [] = left ++ right := rfl

theorem Style.encloseCons (s : Style) (level : Nat) (left : String) {right : String} {close : Char}
    (closes : right.toList = [close]) (item : String) (items : List String) :
    (s.enclose level left right (item :: items)).toList =
      left.toList ++ ((s.lineBreak (level + 1)).toList ++ (item.toList ++ s.following level close items)) := by
  have inner : (String.intercalate "," ((item :: items).map (s.lineBreak (level + 1) ++ ·))).toList ++
      ((s.lineBreak level).toList ++ [close]) =
        (s.lineBreak (level + 1)).toList ++ (item.toList ++ s.following level close items) := by
    induction items generalizing item with
    | nil => simp [following]
    | cons next items ih =>
      have later := ih next
      simp only [List.map_cons, String.toList_intercalate, List.intercalate_cons_cons] at later ⊢
      simp [following, ← later]
  simp only [enclose, List.isEmpty_cons, Bool.false_eq_true, if_false, String.toList_append, List.append_assoc, closes,
    ← inner]

theorem Style.breakText (s : Style) (level : Nat) :
    (s.lineBreak level).toList = if s.pretty then '\n' :: List.replicate (2 * level) ' ' else [] := by
  unfold lineBreak
  split
  · simp
  · rfl

section
variable (s : Style) (level : Nat)

theorem arrayNil : (write s level (.array [])).toList = ['[', ']'] := by
  simp only [write, writeItems, Style.encloseNil]
  rfl

theorem arrayCons (x : Json) (xs : List Json) : (write s level (.array (x :: xs))).toList =
    '[' :: ((s.lineBreak (level + 1)).toList ++
      ((write s (level + 1) x).toList ++ s.following level ']' (writeItems s (level + 1) xs))) := by
  have closes : "]".toList = [']'] := rfl
  rw [write, writeItems, Style.encloseCons s level "[" closes]
  rfl

theorem objectNil : (write s level (.object [])).toList = ['\x7b', '\x7d'] := by
  simp only [write, writeMembers, Style.encloseNil]
  rfl

def Style.keyed (key : String) (value : List Char) : List Char :=
  '"' :: (Reader.quotedRest key ++ (s.colon.toList ++ value))

theorem memberText (key : String) (value : Json) : (writeText (some key) ++ s.colon ++ write s level value).toList =
    s.keyed key (write s level value).toList := by
  rw [String.toList_append, String.toList_append, Reader.writeTextOf, List.append_assoc]
  rfl

theorem objectCons (key : String) (value : Json) (ms : List (Option String × Json)) :
    (write s level (.object ((some key, value) :: ms))).toList =
      '\x7b' :: ((s.lineBreak (level + 1)).toList ++
        (s.keyed key (write s (level + 1) value).toList ++
          s.following level '\x7d' (writeMembers s (level + 1) ms))) := by
  have closes : "\x7d".toList = ['\x7d'] := rfl
  rw [write, writeMembers, Style.encloseCons s level "\x7b" closes, memberText]
  rfl

end

namespace Reader

theorem skipBreak (s : Style) (level : Nat) (cs : List Char) :
    skipBlank ((s.lineBreak level).toList ++ cs) = skipBlank cs := by
  rw [Style.breakText]
  split
  · simp [skipBlank, List.dropWhile_append_of_pos]
  · rfl

theorem skipColon (s : Style) (cs : List Char) :
    ∃ more, s.colon.toList ++ cs = ':' :: more ∧ skipBlank more = skipBlank cs := by
  unfold Style.colon
  split
  · exact ⟨' ' :: cs, rfl, rfl⟩
  · exact ⟨cs, rfl, rfl⟩

theorem followingStops {close : Char} (bracket : close = ']' ∨ close = '\x7d') (s : Style) (level : Nat)
    (items : List String) : Stops (s.following level close items ++ rest) := by
  intro c member
  cases items with
  | cons item items =>
    cases Option.mem_some.mp member
    decide
  | nil =>
    rw [Style.following, Style.breakText] at member
    split at member
    · cases Option.mem_some.mp member
      decide
    · cases Option.mem_some.mp member
      obtain rfl | rfl := bracket <;> decide

theorem writtenStart (s : Style) (level : Nat) {depth : Nat} {j : Json} (data : j.isData depth = true) :
    ∃ c cs, (write s level j).toList = c :: cs ∧ Opens c := by
  cases j with
  | null =>
    rw [write]
    exact ⟨'n', _, rfl, by decide⟩
  | bool b =>
    rw [write]
    cases b with
    | true => exact ⟨'t', _, rfl, by decide⟩
    | false => exact ⟨'f', _, rfl, by decide⟩
  | number n =>
    rw [write]
    exact numberStart n
  | string t =>
    cases t with
    | none => cases depth <;> cases data
    | some t =>
      rw [write, writeTextOf]
      exact ⟨'"', _, rfl, by decide⟩
  | array items =>
    cases items with
    | nil => exact ⟨'[', _, arrayNil s level, by decide⟩
    | cons x xs => exact ⟨'[', _, arrayCons s level x xs, by decide⟩
  | object members =>
    cases members with
    | nil => exact ⟨'\x7b', _, objectNil s level, by decide⟩
    | cons m ms =>
      obtain ⟨key, value⟩ := m
      cases key with
      | none => cases depth <;> cases data
      | some key => exact ⟨'\x7b', _, objectCons s level key value ms, by decide⟩

theorem readBracket {c : Char} (opens : Opens c) (s : Style) (level fuel : Nat) (more : List Char) :
    readValue (fuel + 1) ('[' :: ((s.lineBreak level).toList ++ c :: more)) =
      (readItems fuel (c :: more)).map fun r => (.array r.1, r.2) := by
  rw [readValue, skipOpening (by decide)]
  simp only [skipBreak, skipOpening opens]
  split
  · rename_i own
    cases own
    exact absurd opens (by decide)
  · rfl

theorem readBrace (s : Style) (level fuel : Nat) (more : List Char) :
    readValue (fuel + 1) ('\x7b' :: ((s.lineBreak level).toList ++ '"' :: more)) =
      (readMembers fuel ('"' :: more)).map fun r => (.object r.1, r.2) := by
  rw [readValue, skipOpening (by decide)]
  simp only [skipBreak, skipOpening (show Opens '"' by decide)]
  rfl

section
variable {level fuel : Nat} {cs more value : List Char} {x : Json} {key next : String} {items : List String}

theorem followingNil {close : Char} (bracket : close = ']' ∨ close = '\x7d') :
    skipBlank (s.following level close [] ++ rest) = close :: rest := by
  rw [Style.following, List.append_assoc, skipBreak]
  obtain rfl | rfl := bracket <;> rfl

theorem followingCons {close : Char} : skipBlank (s.following level close (next :: items) ++ rest) =
    ',' :: ((s.lineBreak (level + 1)).toList ++ (next.toList ++ (s.following level close items ++ rest))) := by
  simp only [Style.following, List.cons_append, List.append_assoc]
  rfl

theorem readLastItem (read : readValue fuel cs = some (x, s.following level ']' [] ++ rest)) :
    readItems (fuel + 1) cs = some ([x], rest) := by
  simp only [readItems, read, Option.bind_eq_bind, Option.bind_some, followingNil (.inl rfl)]

theorem readNextItem {ys : List Json}
    (read : readValue fuel cs = some (x, s.following level ']' (next :: items) ++ rest))
    (later : readItems fuel ((s.lineBreak (level + 1)).toList ++
      (next.toList ++ (s.following level ']' items ++ rest))) = some (ys, rest)) :
    readItems (fuel + 1) cs = some (x :: ys, rest) := by
  simp only [readItems, read, Option.bind_eq_bind, Option.bind_some, followingCons, later]

variable (skipped : skipBlank cs = s.keyed key value) (colon : s.colon.toList ++ value = ':' :: more)
include skipped colon

theorem readLastMember (read : readValue fuel more = some (x, s.following level '\x7d' [] ++ rest)) :
    readMembers (fuel + 1) cs = some ([(some key, x)], rest) := by
  simp only [readMembers, skipped, Style.keyed, colon, readQuoted, Option.bind_eq_bind, Option.bind_some,
    skipOpening (show Opens ':' by decide), read, followingNil (.inr rfl)]

theorem readNextMember {ms : List (Option String × Json)}
    (read : readValue fuel more = some (x, s.following level '\x7d' (next :: items) ++ rest))
    (later : readMembers fuel ((s.lineBreak (level + 1)).toList ++
      (next.toList ++ (s.following level '\x7d' items ++ rest))) = some (ms, rest)) :
    readMembers (fuel + 1) cs = some ((some key, x) :: ms, rest) := by
  simp only [readMembers, skipped, Style.keyed, colon, readQuoted, Option.bind_eq_bind, Option.bind_some,
    skipOpening (show Opens ':' by decide), read, followingCons, later]

end

def ReadsValues (s : Style) (fuel : Nat) : Prop :=
  ∀ level depth j, j.isData depth = true → 2 * (write s level j).toList.length ≤ fuel →
    ∀ rest, Stops rest → ∀ cs, skipBlank cs = (write s level j).toList ++ rest → readValue fuel cs = some (j, rest)

def ReadsItems (s : Style) (fuel : Nat) : Prop :=
  ∀ level depth x xs, areData depth (x :: xs) = true →
    2 * ((write s (level + 1) x).toList ++ s.following level ']' (writeItems s (level + 1) xs)).length ≤ fuel →
      ∀ rest cs, skipBlank cs = (write s (level + 1) x).toList ++
          (s.following level ']' (writeItems s (level + 1) xs) ++ rest) →
        readItems fuel cs = some (x :: xs, rest)

def ReadsMembers (s : Style) (fuel : Nat) : Prop :=
  ∀ level depth key value ms, membersAreData depth ((some key, value) :: ms) = true →
    2 * (s.keyed key (write s (level + 1) value).toList ++
        s.following level '\x7d' (writeMembers s (level + 1) ms)).length ≤ fuel →
      ∀ rest cs, skipBlank cs = s.keyed key ((write s (level + 1) value).toList ++
          (s.following level '\x7d' (writeMembers s (level + 1) ms) ++ rest)) →
        readMembers fuel cs = some ((some key, value) :: ms, rest)

theorem keyedAppend (key : String) (value more : List Char) :
    s.keyed key value ++ more = s.keyed key (value ++ more) := by
  simp [Style.keyed]

theorem keyedLength (s : Style) (key : String) (value : List Char) : value.length < (s.keyed key value).length := by
  simp only [Style.keyed, List.length_cons, List.length_append]
  omega

theorem followingLength (s : Style) (level : Nat) (close : Char) (items : List String) :
    0 < (s.following level close items).length := by
  cases items <;> simp [Style.following]

section
variable {fuel : Nat}

theorem readsValues (ofItems : ReadsItems s fuel) (ofMembers : ReadsMembers s fuel) : ReadsValues s (fuel + 1) := by
  intro level depth j data enough rest stops cs skipped
  rw [← readValueBlank, skipped]
  cases j with
  | null =>
    rw [write]
    rfl
  | bool b =>
    rw [write]
    cases b <;> rfl
  | number n =>
    rw [write]
    exact readNumberText n stops fuel
  | string t =>
    cases t with
    | none => cases depth <;> cases data
    | some t =>
      rw [write]
      exact readText t fuel rest
  | array items =>
    cases items with
    | nil =>
      rw [arrayNil]
      rfl
    | cons x xs =>
      cases depth with
      | zero => cases data
      | succ depth =>
        rw [isData] at data
        obtain ⟨c, more, start, opens⟩ := writtenStart s (level + 1) (Bool.and_eq_true_iff.mp data).1
        rw [arrayCons] at enough ⊢
        have read := ofItems level depth x xs data (by
          simp only [List.length_cons, List.length_append] at enough ⊢
          omega) rest
        simp only [start, List.cons_append, List.append_assoc] at read ⊢
        rw [readBracket opens, read _ (skipOpening opens _)]
        rfl
  | object members =>
    cases members with
    | nil =>
      rw [objectNil]
      rfl
    | cons m ms =>
      cases depth with
      | zero => cases data
      | succ depth =>
        obtain ⟨key, value⟩ := m
        cases key with
        | none => cases data
        | some key =>
          rw [isData] at data
          rw [objectCons] at enough ⊢
          have read := ofMembers level depth key value ms data (by
            simp only [List.length_cons, List.length_append] at enough ⊢
            omega) rest
          rw [List.cons_append, List.append_assoc, List.append_assoc, keyedAppend]
          exact (readBrace s _ fuel _).trans (congrArg _ (read _ (skipOpening (by decide) _)))

theorem readsItems (ofValues : ReadsValues s fuel) (ofItems : ReadsItems s fuel) : ReadsItems s (fuel + 1) := by
  intro level depth x xs data enough rest cs skipped
  obtain ⟨own, others⟩ := Bool.and_eq_true_iff.mp data
  have behind := followingLength s level ']' (writeItems s (level + 1) xs)
  rw [List.length_append] at enough
  have read := ofValues (level + 1) depth x own (by omega) _ (followingStops (.inl rfl) s level _) cs skipped
  cases xs with
  | nil => exact readLastItem read
  | cons y ys =>
    rw [writeItems] at read enough
    obtain ⟨c, more, start, opens⟩ := writtenStart s (level + 1) (Bool.and_eq_true_iff.mp others).1
    refine readNextItem read (ofItems level depth y ys others ?_ rest _ ?_)
    · simp only [Style.following, List.length_cons, List.length_append] at enough ⊢
      omega
    · rw [skipBreak, start]
      exact skipOpening opens _

theorem readsMembers (ofValues : ReadsValues s fuel) (ofMembers : ReadsMembers s fuel) : ReadsMembers s (fuel + 1) := by
  intro level depth key value ms data enough rest cs skipped
  simp only [membersAreData, Bool.and_eq_true] at data
  obtain ⟨⟨-, own⟩, others⟩ := data
  obtain ⟨c, more, start, opens⟩ := writtenStart s (level + 1) own
  obtain ⟨behind, colon, clear⟩ := skipColon s ((write s (level + 1) value).toList ++
    (s.following level '\x7d' (writeMembers s (level + 1) ms) ++ rest))
  have shorter := keyedLength s key (write s (level + 1) value).toList
  rw [List.length_append] at enough
  have read := ofValues (level + 1) depth value own (by omega) _ (followingStops (.inr rfl) s level _) behind
    (clear.trans (by rw [start]; exact skipOpening opens _))
  cases ms with
  | nil => exact readLastMember skipped colon read
  | cons m ms =>
    obtain ⟨next, value'⟩ := m
    cases next with
    | none => cases others
    | some next =>
      rw [writeMembers] at read enough
      refine readNextMember skipped colon read (ofMembers level depth next value' ms others ?_ rest _ ?_)
      · simp only [Style.following, memberText, List.length_cons, List.length_append] at enough ⊢
        omega
      · rw [skipBreak, memberText, keyedAppend]
        exact skipOpening (by decide) _

end

theorem readsAll (s : Style) (fuel : Nat) : ReadsValues s fuel ∧ ReadsItems s fuel ∧ ReadsMembers s fuel := by
  -- the induction is on the fuel, as in the reader: values, items and members call each other with one less
  induction fuel with
  | zero =>
    refine ⟨fun level depth j data enough => ?_, fun level depth x xs data enough => ?_,
      fun level depth key value ms data enough => ?_⟩
    · obtain ⟨c, more, start, -⟩ := writtenStart s level data
      rw [start, List.length_cons] at enough
      omega
    · have long := followingLength s level ']' (writeItems s (level + 1) xs)
      rw [List.length_append] at enough
      omega
    · have long := followingLength s level '\x7d' (writeMembers s (level + 1) ms)
      rw [List.length_append] at enough
      omega
  | succ fuel ih =>
    obtain ⟨ofValues, ofItems, ofMembers⟩ := ih
    exact ⟨readsValues ofItems ofMembers, readsItems ofValues ofItems, readsMembers ofValues ofMembers⟩

end Reader

theorem parseWritten (s : Style) {depth : Nat} {j : Json} (data : j.isData depth = true) :
    parse? (write s 0 j) = some j := by
  have read := (Reader.readsAll s (2 * (write s 0 j).toList.length + 2)).1 0 depth j data (Nat.le_add_right _ 2) []
    Reader.stopsNil (write s 0 j).toList
  obtain ⟨c, more, start, opens⟩ := Reader.writtenStart s 0 data
  rw [List.append_nil, start] at read
  simp only [parse?, start, read (Reader.skipOpening opens _), Option.bind_eq_bind, Option.bind_some]
  rfl

end TensorPlan.Json
