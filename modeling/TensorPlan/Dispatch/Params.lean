import TensorPlan.Dispatch.Key
import TensorPlan.Graph.Node
/-! Kernel parameters: all that is known of a node when a kernel is chosen for it, and their keys in
the tuning cache. A key is a hash of a text; the current one covers attributes and all slots, the
older one only the operator and the inputs. -/
namespace TensorPlan

structure KernelParams where
  attributes : Attributes
  inputs : List Slot
  outputs : List Slot
  deriving DecidableEq, Repr

def textHash (s : String) : UInt64 :=
  s.toUTF8.toList.foldl (fun h b => (h ^^^ b.toUInt64) * 0x100000001b3) 0xcbf29ce484222325

namespace KernelParams

def kind (p : KernelParams) : OperatorKind := p.attributes.kind

def mode (p : KernelParams) : ShapeMode :=
  if (p.inputs ++ p.outputs).all fun slot => slot.shape.isStatic then .allKnown else .someUnknown

def type? (p : KernelParams) : Option ElementType := p.inputs.head?.map Slot.type

def format? (p : KernelParams) : Option MemoryFormat := p.inputs.head?.map Slot.format

def slotsText (tag : String) (slots : List Slot) : String :=
  String.join (((List.range slots.length).zip slots).map fun p =>
    s!";{tag}{p.1}={p.2.type.text}:{p.2.format.text}:{p.2.shape.text}")

def normalized (p : KernelParams) : String :=
  p.kind.text ++ ";" ++ p.attributes.describe ++ slotsText "in" p.inputs ++ slotsText "out" p.outputs

def inputText (p : KernelParams) : String := p.kind.text ++ slotsText "in" p.inputs

def currentHash (p : KernelParams) : UInt64 := textHash p.normalized
def olderHash (p : KernelParams) : UInt64 := textHash p.inputText

end KernelParams
end TensorPlan
