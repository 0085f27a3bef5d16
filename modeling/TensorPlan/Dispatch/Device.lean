import TensorPlan.Layout.Format
import TensorPlan.Text.Description
/-! Devices: where a node is to run, and which memory formats are supported there. -/
namespace TensorPlan

inductive DeviceKind where
  | cpu
  | gpu
  deriving DecidableEq, Repr

namespace DeviceKind

def all : List DeviceKind := [cpu, gpu]

def text : DeviceKind → String
  | cpu => "cpu"
  | gpu => "gpu"

def described : DeviceKind → String
  | cpu => "Cpu"
  | gpu => "Gpu"

def ofText? (s : String) : Option DeviceKind := all.find? fun k => k.text == s

end DeviceKind

structure Device where
  id : Nat
  kind : DeviceKind
  units : Nat
  formats : List MemoryFormat
  deriving DecidableEq, Repr

namespace Device

def ofUnits (id : Nat) (kind : DeviceKind) (units : Nat) : Device := ⟨id, kind, units, MemoryFormat.all⟩

def cpu (workers : Nat) : Device := ofUnits 0 .cpu workers

def supports (d : Device) (f : MemoryFormat) : Bool := d.formats.contains f

def describe (d : Device) : String :=
  Text.record "DeviceInfo" [("id", toString d.id), ("kind", d.kind.described),
    ("compute_units", toString d.units), ("supported_formats", Text.list MemoryFormat.described d.formats)]

end Device
end TensorPlan
