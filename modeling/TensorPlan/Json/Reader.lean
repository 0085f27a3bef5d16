import TensorPlan.Json.Tree
/-! Reading JSON text. The grammar is strict: no byte order mark, no trailing text or commas, no leading
zeros, no raw control characters in strings. -/
namespace TensorPlan.Json.Reader

def skipBlank : List Char → List Char := List.dropWhile fun c => c == ' ' || c == '\n' || c == '\t' || c == '\r'

def dropWord : List Char → List Char → Option (List Char)
  | [], cs => some cs
  | w :: ws, c :: cs => if w = c then dropWord ws cs else none
  | _ :: _, [] => none

def isDigit (c : Char) : Bool := '0' ≤ c && c ≤ '9'

def digitValue (c : Char) : Nat := c.toNat - '0'.toNat

def decimalValue (ds : List Char) : Nat := ds.foldl (fun n c => n * 10 + digitValue c) 0

def hexValue? (c : Char) : Option Nat :=
  if isDigit c then some (digitValue c)
  else if 'a' ≤ c ∧ c ≤ 'f' then some (c.toNat - 'a'.toNat + 10)
  else if 'A' ≤ c ∧ c ≤ 'F' then some (c.toNat - 'A'.toNat + 10)
  else none

def readUnit : List Char → Option (Nat × List Char)
  | a :: b :: c :: d :: rest => do
    some (((← hexValue? a) * 4096 + (← hexValue? b) * 256 + (← hexValue? c) * 16 + (← hexValue? d)), rest)
  | _ => none

def isHighSurrogate (n : Nat) : Bool := 0xd800 ≤ n && n < 0xdc00
def isLowSurrogate (n : Nat) : Bool := 0xdc00 ≤ n && n < 0xe000

def readEscapedUnit (cs : List Char) : Option (Option Char × List Char) := do
  let (high, rest) ← readUnit cs
  if isHighSurrogate high then
    match rest with
    | '\\' :: 'u' :: more =>
      let (low, rest') ← readUnit more
      if isLowSurrogate low then
        some (some (Char.ofNat (0x10000 + (high - 0xd800) * 0x400 + (low - 0xdc00))), rest')
      else some (none, rest)
    | _ => some (none, rest)
  else if isLowSurrogate high then some (none, rest)
  else some (some (Char.ofNat high), rest)

def readEscape : List Char → Option (Option Char × List Char)
  | '"' :: cs => some (some '"', cs)
  | '\\' :: cs => some (some '\\', cs)
  | '/' :: cs => some (some '/', cs)
  | 'b' :: cs => some (some '\x08', cs)
  | 'f' :: cs => some (some '\x0c', cs)
  | 'n' :: cs => some (some '\n', cs)
  | 'r' :: cs => some (some '\r', cs)
  | 't' :: cs => some (some '\t', cs)
  | 'u' :: cs => readEscapedUnit cs
  | _ => none

def readString : Nat → Option (List Char) → List Char → Option (Option String × List Char)
  | 0, _, _ => none
  | _, _, [] => none
  | fuel + 1, done, c :: cs =>
    if c = '"' then some (done.map fun d => String.ofList d.reverse, cs)
    else if c = '\\' then do
      let (escaped, rest) ← readEscape cs
      readString fuel (do some ((← escaped) :: (← done))) rest
    else if c.toNat < 32 then none
    else readString fuel (done.map (c :: ·)) cs

def readDigits (cs : List Char) : Option (List Char × List Char) :=
  match cs.takeWhile isDigit with
  | [] => none
  | ds => some (ds, cs.dropWhile isDigit)

def readWhole : List Char → Option (List Char × List Char)
  | '0' :: cs => if (cs.head?).any isDigit then none else some (['0'], cs)
  | cs => readDigits cs

def readFraction : List Char → Option (Option (List Char) × List Char)
  | '.' :: cs => (readDigits cs).map fun r => (some r.1, r.2)
  | cs => some (none, cs)

def readExponent : List Char → Option (Option Int × List Char)
  | c :: cs =>
    if c = 'e' ∨ c = 'E' then
      match cs with
      | '-' :: rest => (readDigits rest).map fun r => (some (-(decimalValue r.1 : Int)), r.2)
      | '+' :: rest => (readDigits rest).map fun r => (some (decimalValue r.1 : Int), r.2)
      | rest => (readDigits rest).map fun r => (some (decimalValue r.1 : Int), r.2)
    else some (none, c :: cs)
  | [] => some (none, [])

def makeNumber (negative : Bool) (whole : List Char) (fraction : Option (List Char)) (exponent : Option Int) :
    JsonNumber :=
  match fraction, exponent with
  | none, none =>
    let n := decimalValue whole
    if negative then (if n = 0 then .decimal true 0 0 else .integer (-n)) else .integer n
  | _, _ =>
    let places := fraction.getD []
    .decimal negative (decimalValue (whole ++ places)) (exponent.getD 0 - places.length)

def readNumber (negative : Bool) (cs : List Char) : Option (Json × List Char) := do
  let (whole, cs) ← readWhole cs
  let (fraction, cs) ← readFraction cs
  let (exponent, cs) ← readExponent cs
  some (.number (makeNumber negative whole fraction exponent), cs)

mutual
def readValue : Nat → List Char → Option (Json × List Char)
  | 0, _ => none
  | fuel + 1, cs =>
    match skipBlank cs with
    | 'n' :: rest => (dropWord ['u', 'l', 'l'] rest).map fun r => (.null, r)
    | 't' :: rest => (dropWord ['r', 'u', 'e'] rest).map fun r => (.bool true, r)
    | 'f' :: rest => (dropWord ['a', 'l', 's', 'e'] rest).map fun r => (.bool false, r)
    | '"' :: rest => (readString (rest.length + 1) (some []) rest).map fun r => (.string r.1, r.2)
    | '-' :: rest => readNumber true rest
    | '[' :: rest =>
      match skipBlank rest with
      | ']' :: r => some (.array [], r)
      | r => (readItems fuel r).map fun r => (.array r.1, r.2)
    | '\x7b' :: rest =>
      match skipBlank rest with
      | '\x7d' :: r => some (.object [], r)
      | r => (readMembers fuel r).map fun r => (.object r.1, r.2)
    | rest => readNumber false rest

def readItems : Nat → List Char → Option (List Json × List Char)
  | 0, _ => none
  | fuel + 1, cs => do
    let (item, cs) ← readValue fuel cs
    match skipBlank cs with
    | ',' :: rest =>
      let (items, r) ← readItems fuel rest
      some (item :: items, r)
    | ']' :: r => some ([item], r)
    | _ => none

def readMembers : Nat → List Char → Option (List (Option String × Json) × List Char)
  | 0, _ => none
  | fuel + 1, cs =>
    match skipBlank cs with
    | '"' :: rest => do
      let (key, cs) ← readString (rest.length + 1) (some []) rest
      match skipBlank cs with
      | ':' :: cs =>
        let (value, cs) ← readValue fuel cs
        match skipBlank cs with
        | ',' :: more =>
          let (members, r) ← readMembers fuel more
          some ((key, value) :: members, r)
        | '\x7d' :: r => some ([(key, value)], r)
        | _ => none
      | _ => none
    | _ => none
end

end Reader

/-- The value of a text. Every step of the reader consumes a character, so twice the length suffices. -/
def parse? (s : String) : Option Json := do
  let cs := s.toList
  let (value, rest) ← Reader.readValue (2 * cs.length + 2) cs
  if (Reader.skipBlank rest).isEmpty then some value else none

end TensorPlan.Json
