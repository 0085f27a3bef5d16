/-! Memory formats. Dimensions are always listed as batch, channels, spatial axes; the format says in
which order the elements lie in memory. -/
namespace TensorPlan

inductive MemoryFormat where
  | plain
  | channelsLast
  | blocked8
  | blocked16
  deriving DecidableEq, Repr

namespace MemoryFormat

def all : List MemoryFormat := [plain, channelsLast, blocked8, blocked16]

def text : MemoryFormat → String
  | plain => "ncsp"
  | channelsLast => "nspc"
  | blocked8 => "blocked8"
  | blocked16 => "blocked16"

def described : MemoryFormat → String
  | plain => "Ncsp"
  | channelsLast => "Nspc"
  | blocked8 => "Blocked8"
  | blocked16 => "Blocked16"

def ofText? (s : String) : Option MemoryFormat := all.find? fun f => f.text == s

def blockSize? : MemoryFormat → Option Nat
  | plain | channelsLast => none
  | blocked8 => some 8
  | blocked16 => some 16

def isBlocked (f : MemoryFormat) : Bool := f.blockSize?.isSome

def supportsRank (f : MemoryFormat) (rank : Nat) : Bool := f == .plain || decide (3 ≤ rank)

end MemoryFormat
end TensorPlan
