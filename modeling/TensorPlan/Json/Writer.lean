import TensorPlan.Json.Tree
import TensorPlan.Text.Quoted
/-! Writing JSON text, on one line or with every member and item on a line of its own. Only quotes,
backslashes and control characters are escaped. -/
namespace TensorPlan.Json

def hexPair (n : Nat) : String := (if n < 16 then "0" else "") ++ Text.hexDigits n

def escapeChar (c : Char) : String :=
  if c = '"' then "\\\""
  else if c = '\\' then "\\\\"
  else if c = '\x08' then "\\b"
  else if c = '\x0c' then "\\f"
  else if c = '\n' then "\\n"
  else if c = '\r' then "\\r"
  else if c = '\t' then "\\t"
  else if c.toNat < 32 then "\\u00" ++ hexPair c.toNat
  else c.toString

def writeString (s : String) : String := "\"" ++ String.join (s.toList.map escapeChar) ++ "\""

def writeText (s : Option String) : String := writeString (s.getD "")

def writeNumber : JsonNumber → String
  | .integer v => toString v
  | .decimal negative digits exponent => (if negative then "-" else "") ++ toString digits ++ "e" ++ toString exponent

structure Style where
  pretty : Bool
  deriving DecidableEq, Repr

namespace Style

def compact : Style := ⟨false⟩
def indented : Style := ⟨true⟩

def lineBreak (s : Style) (level : Nat) : String :=
  if s.pretty then "\n" ++ String.ofList (List.replicate (2 * level) ' ') else ""

def colon (s : Style) : String := if s.pretty then ": " else ":"

def enclose (s : Style) (level : Nat) (left right : String) (items : List String) : String :=
  if items.isEmpty then left ++ right
  else
    left ++ String.intercalate "," (items.map (s.lineBreak (level + 1) ++ ·)) ++ s.lineBreak level ++ right

end Style

mutual
def write (s : Style) : Nat → Json → String
  | _, null => "null"
  | _, bool b => if b then "true" else "false"
  | _, number n => writeNumber n
  | _, string t => writeText t
  | level, array items => s.enclose level "[" "]" (writeItems s (level + 1) items)
  | level, object members => s.enclose level "\x7b" "\x7d" (writeMembers s (level + 1) members)

def writeItems (s : Style) : Nat → List Json → List String
  | _, [] => []
  | level, x :: xs => write s level x :: writeItems s level xs

def writeMembers (s : Style) : Nat → List (Option String × Json) → List String
  | _, [] => []
  | level, m :: ms => (writeText m.1 ++ s.colon ++ write s level m.2) :: writeMembers s level ms
end

def compact (j : Json) : String := write .compact 0 j
def pretty (j : Json) : String := write .indented 0 j

end TensorPlan.Json
