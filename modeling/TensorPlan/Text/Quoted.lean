import TensorPlan.Text.Unprintable
/-! Quoted text as it stands in descriptions: double quotes around it, a backslash before a quote and
a backslash, letters for the common controls, and the code point in braces for what is not shown. -/
namespace TensorPlan.Text

def hexDigits (n : Nat) : String := String.ofList (Nat.toDigits 16 n)

def codePoint (c : Char) : String := "\\u\x7b" ++ hexDigits c.toNat ++ "\x7d"

def escape (c : Char) : String :=
  if c = '\x00' then "\\0"
  else if c = '\t' then "\\t"
  else if c = '\r' then "\\r"
  else if c = '\n' then "\\n"
  else if c = '\\' then "\\\\"
  else if c = '"' then "\\\""
  else if c.toNat < 127 ∧ 32 ≤ c.toNat then c.toString
  else if isUnprintable c then codePoint c
  else c.toString

def quoted (s : String) : String := s.toList.foldl (fun text c => text ++ escape c) "\"" ++ "\""

end TensorPlan.Text
