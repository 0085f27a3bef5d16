/-! One-line descriptions of values: records with named fields, lists in brackets, optional values. -/
namespace TensorPlan.Text

def commas (items : List String) : String := String.intercalate ", " items

def listed (items : List String) : String := "[" ++ commas items ++ "]"

def list {α : Type} (describe : α → String) (xs : List α) : String := listed (xs.map describe)

def naturals (ns : List Nat) : String := list toString ns
def integers (ns : List Int) : String := list toString ns

def field (name value : String) : String := name ++ ": " ++ value

def record (name : String) (fields : List (String × String)) : String :=
  name ++ " \x7b " ++ commas (fields.map fun f => field f.1 f.2) ++ " \x7d"

def applied (name : String) (arguments : List String) : String :=
  name ++ "(" ++ commas arguments ++ ")"

def optional {α : Type} (describe : α → String) : Option α → String
  | none => "None"
  | some x => applied "Some" [describe x]

def truth (b : Bool) : String := if b then "true" else "false"

end TensorPlan.Text
