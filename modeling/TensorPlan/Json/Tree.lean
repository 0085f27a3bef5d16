import TensorPlan.Tuning.Table
import TensorPlan.Numeric.Binary
import TensorPlan.Numeric.Decimal
/-! JSON values as they are written: members in order, repeated keys kept, numbers with the form in
which they were given. -/
namespace TensorPlan

inductive JsonNumber where
  | integer (value : Int)
  | decimal (negative : Bool) (digits : Nat) (exponent : Int)
  deriving DecidableEq, Repr

inductive Json where
  | null
  | bool (value : Bool)
  | number (value : JsonNumber)
  | string (value : Option String)
  | array (items : List Json)
  | object (members : List (Option String × Json))

namespace JsonNumber

def isFinite : JsonNumber → Bool
  | integer v => (Binary.ofInt .double v).value?.isSome
  | decimal _ digits exponent =>
    if digits = 0 then true
    else if (400 : Int) < exponent + Decimal.digitCount digits then false
    else if exponent + Decimal.digitCount digits < -400 then true
    else (Binary.ofRat .double (digits * Decimal.unit exponent)).value?.isSome

end JsonNumber

namespace Json

def text (s : String) : Json := string (some s)
def natural (n : Nat) : Json := number (.integer n)
def int (v : Int) : Json := number (.integer v)
def field (name : String) (value : Json) : Option String × Json := (some name, value)

mutual
def isData : Nat → Json → Bool
  | _, null => true
  | _, bool _ => true
  | _, number n => n.isFinite
  | _, string s => s.isSome
  | 0, array _ => false
  | depth + 1, array items => areData depth items
  | 0, object _ => false
  | depth + 1, object members => membersAreData depth members

def areData : Nat → List Json → Bool
  | _, [] => true
  | depth, x :: xs => isData depth x && areData depth xs

def membersAreData : Nat → List (Option String × Json) → Bool
  | _, [] => true
  | depth, m :: ms => m.1.isSome && isData depth m.2 && membersAreData depth ms
end

def maxDepth : Nat := 127

def namedMembers? (members : List (Option String × Json)) : Option (List (String × Json)) :=
  members.foldr (fun m rest => do
    let key ← m.1
    let others ← rest
    some ((key, m.2) :: others)) (some [])

def table? : Json → Option (Table Json)
  | object members => (namedMembers? members).map Table.ofList
  | _ => none

end Json
end TensorPlan
