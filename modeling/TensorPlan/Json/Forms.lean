import TensorPlan.Dispatch.Device
import TensorPlan.Dispatch.Key
import TensorPlan.Json.Tree
import TensorPlan.Session.Options
import TensorPlan.Tensor.Descriptor
import TensorPlan.Tuning.Cache
/-! JSON forms of values. A record is an object or the list of its fields in order; unknown members are
ignored, known ones must not be repeated. A constant is its name, or an object that holds null under
its name. Only numbers written as integers are integers. -/
namespace TensorPlan

namespace Json

def text? : Json → Option String
  | string s => s
  | _ => none

def bool? : Json → Option Bool
  | bool b => some b
  | _ => none

def integer? : Json → Option Int
  | number (.integer v) => some v
  | _ => none

def natural? (bits : Nat) (j : Json) : Option Nat := do
  let v ← j.integer?
  if 0 ≤ v ∧ v < (pow2 bits : Nat) then some v.toNat else none

def int64? (j : Json) : Option Int := do
  let v ← j.integer?
  if -(pow2 63 : Nat) ≤ v ∧ v < (pow2 63 : Nat) then some v else none

def items? : Json → Option (List Json)
  | array items => some items
  | _ => none

def constant? : Json → Option String
  | string s => s
  | object [(name, null)] => name
  | _ => none

structure Fields where
  named : Bool
  values : List (Option Json)

def fields? (names : List String) : Json → Option Fields
  | object members => do
    let members ← namedMembers? members
    let given (name : String) : List Json := (members.filter fun m => m.1 == name).map Prod.snd
    if names.all fun name => (given name).length ≤ 1 then
      some ⟨true, names.map fun name => (given name).head?⟩
    else none
  | array items =>
    if items.length ≤ names.length then
      some ⟨false, (List.range names.length).map fun i => items[i]?⟩
    else none
  | _ => none

namespace Fields

def required {α : Type} (f : Fields) (position : Nat) (read : Json → Option α) : Option α := do
  read (← (← f.values[position]?))

def withDefault {α : Type} (f : Fields) (position : Nat) (default : α) (read : Json → Option α) : Option α := do
  match ← f.values[position]? with
  | some j => read j
  | none => some default

def nullable {α : Type} (f : Fields) (position : Nat) (read : Json → Option α) : Option (Option α) := do
  match ← f.values[position]? with
  | some null => some none
  | some j => (read j).map some
  | none => if f.named then some none else none

end Fields
end Json

namespace ElementType

def toJson (t : ElementType) : Json := .text t.text
def ofJson? (j : Json) : Option ElementType := j.constant?.bind ofText?

end ElementType

namespace MemoryFormat

def toJson (f : MemoryFormat) : Json := .text f.text
def ofJson? (j : Json) : Option MemoryFormat := j.constant?.bind ofText?

end MemoryFormat

namespace OperatorKind

def toJson (k : OperatorKind) : Json := .text k.text
def ofJson? (j : Json) : Option OperatorKind := j.constant?.bind ofText?

end OperatorKind

namespace ShapeMode

def toJson (m : ShapeMode) : Json := .text m.described
def ofJson? (j : Json) : Option ShapeMode := j.constant?.bind fun s => all.find? fun m => m.described == s

end ShapeMode

namespace TuningMode

def toJson (m : TuningMode) : Json := .text m.text
def ofJson? (j : Json) : Option TuningMode := j.constant?.bind ofText?

end TuningMode

namespace DeviceKind

def toJson (k : DeviceKind) : Json := .text k.text
def ofJson? (j : Json) : Option DeviceKind := j.constant?.bind ofText?

end DeviceKind

namespace Dimension

def describe : Dimension → String
  | known n => Text.applied "Static" [toString n]
  | unknown => "Dynamic"

def toJson : Dimension → Json
  | known n => .object [Json.field "Static" (.natural n)]
  | unknown => .text "Dynamic"

def ofJson? : Json → Option Dimension
  | .object [(some "Static", n)] => (n.natural? 64).map known
  | j => do if (← j.constant?) = "Dynamic" then some unknown else none

end Dimension

namespace Shape

def describe (s : Shape) : String :=
  Text.record "PartialShape" [("dims", Text.optional (Text.list Dimension.describe) s.dims?)]

def toJson (s : Shape) : Json :=
  .object [Json.field "dims" (match s.dims? with
    | some dims => .array (dims.map Dimension.toJson)
    | none => .null)]

def ofJson? (j : Json) : Option Shape := do
  let fields ← j.fields? ["dims"]
  match ← fields.nullable 0 fun d => d.items?.bind (collect Dimension.ofJson?) with
  | some dims => some (ranked dims)
  | none => some unranked

end Shape

namespace Descriptor

def toJson (d : Descriptor) : Json :=
  .object [Json.field "dims" (.array (d.dims.map Json.natural)), Json.field "data_type" d.type.toJson,
    Json.field "format" d.format.toJson]

def ofJson? (j : Json) : Option Descriptor := do
  let fields ← j.fields? ["dims", "data_type", "format"]
  let dims ← fields.required 0 fun d => d.items?.bind (collect (Json.natural? 64))
  some ⟨dims, ← fields.required 1 ElementType.ofJson?, ← fields.required 2 MemoryFormat.ofJson?⟩

end Descriptor

namespace Device

def toJson (d : Device) : Json :=
  .object [Json.field "id" (.natural d.id), Json.field "kind" d.kind.toJson,
    Json.field "compute_units" (.natural d.units),
    Json.field "supported_formats" (.array (d.formats.map MemoryFormat.toJson))]

def ofJson? (j : Json) : Option Device := do
  let fields ← j.fields? ["id", "kind", "compute_units", "supported_formats"]
  let formats ← fields.required 3 fun f => f.items?.bind (collect MemoryFormat.ofJson?)
  some ⟨← fields.required 0 (Json.natural? 32), ← fields.required 1 DeviceKind.ofJson?,
    ← fields.required 2 (Json.natural? 32), formats⟩

end Device

namespace EngineOptions

def toJson (o : EngineOptions) : Json :=
  .object [Json.field "thread_count" (.natural o.threads), Json.field "tuning_mode" o.tuning.toJson,
    Json.field "tuning_cache_path" ((o.cachePath.map Json.text).getD .null),
    Json.field "enable_dynamic_shapes" (.bool o.dynamicShapes),
    Json.field "allow_reference_fallback" (.bool o.fallback)]

def ofJson? (j : Json) : Option EngineOptions := do
  let fields ← j.fields?
    ["thread_count", "tuning_mode", "tuning_cache_path", "enable_dynamic_shapes", "allow_reference_fallback"]
  let path (p : Json) : Option (Option String) :=
    match p with
    | .null => some none
    | p => p.text?.map some
  some ⟨← fields.withDefault 0 unset.threads (Json.natural? 64),
    ← fields.withDefault 1 unset.tuning TuningMode.ofJson?,
    ← fields.withDefault 2 unset.cachePath path,
    ← fields.withDefault 3 unset.dynamicShapes Json.bool?,
    ← fields.withDefault 4 unset.fallback Json.bool?⟩

end EngineOptions

namespace CacheEntry

def toJson (e : CacheEntry) : Json := .array [.text e.kernel, .int e.config]

def ofJson? : Json → Option CacheEntry
  | .array [kernel, config] => do some ⟨← kernel.text?, ← config.int64?⟩
  | _ => none

end CacheEntry

namespace Table

def toJson {α : Type} (write : α → Json) (t : Table α) : Json :=
  .object (t.entries.map fun e => Json.field e.1 (write e.2))

def ofJson? {α : Type} (read : Json → Option α) (j : Json) : Option (Table α) := do
  let entries ← collect (fun e => do some (e.1, ← read e.2)) (← j.table?).entries
  some ⟨entries⟩

end Table

namespace CacheDocument

def older? : Json → Option (Table (Table CacheEntry)) := Table.ofJson? (Table.ofJson? CacheEntry.ofJson?)

def current? : Json → Option (Table (Table (Table CacheEntry))) := Table.ofJson? older?

def toJson (d : CacheDocument) : Json :=
  let current := Json.field "version_2" (Table.toJson (Table.toJson (Table.toJson CacheEntry.toJson)) d.current)
  let older := Json.field "version_1" (Table.toJson (Table.toJson CacheEntry.toJson) d.older)
  .object ((if d.current.isEmpty then [] else [current]) ++ (if d.older.isEmpty then [] else [older]))

def partOf {α : Type} (read : Json → Option (Table α)) : Option Json → Option (Table α)
  | some j => read j
  | none => some .empty

def ofJson? (j : Json) : Option (CacheDocument × Bool) := do
  let members := (j.table?).getD .empty
  match members.get? "version_2", members.get? "version_1" with
  | none, none => some (⟨.empty, ← older? j⟩, false)
  | current, older => some (⟨← partOf current? current, ← partOf older? older⟩, true)

end CacheDocument
end TensorPlan
