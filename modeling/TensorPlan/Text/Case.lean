/-! Lower case for names that are compared with ASCII words. Only the Latin capitals and the Kelvin
sign have an ASCII lower case; every other character stands for itself, which no ASCII word contains. -/
namespace TensorPlan.Text

def lowerChar (c : Char) : Char := if c = '\u212a' then 'k' else c.toLower

def lower (s : String) : String := s.map lowerChar

end TensorPlan.Text
