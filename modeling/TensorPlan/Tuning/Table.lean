/-! Tables: values under texts, in the order of the texts. -/
namespace TensorPlan

structure Table (α : Type) where
  entries : List (String × α)
  deriving DecidableEq, Repr

namespace Table
variable {α : Type}

def empty : Table α := ⟨[]⟩

def isEmpty (t : Table α) : Bool := t.entries.isEmpty

def get? (t : Table α) (key : String) : Option α := (t.entries.find? fun e => e.1 == key).map Prod.snd

def place (key : String) (value : α) : List (String × α) → List (String × α)
  | [] => [(key, value)]
  | e :: es =>
    if e.1 = key then (key, value) :: es
    else if key < e.1 then (key, value) :: e :: es
    else e :: place key value es

def insert (t : Table α) (key : String) (value : α) : Table α := ⟨place key value t.entries⟩

def erase (t : Table α) (key : String) : Table α := ⟨t.entries.filter fun e => e.1 != key⟩

def ofList (entries : List (String × α)) : Table α := entries.foldl (fun t e => t.insert e.1 e.2) empty

def insertUnlessEmpty (t : Table (Table α)) (key : String) (inner : Table α) : Table (Table α) :=
  if inner.isEmpty then t.erase key else t.insert key inner

end Table
end TensorPlan
