import TensorPlan.Text.Description
import TensorPlan.Text.Quoted
/-! Options of an engine. -/
namespace TensorPlan

inductive TuningMode where
  | disabled
  | useExisting
  | useAndUpdate
  deriving DecidableEq, Repr

namespace TuningMode

def all : List TuningMode := [disabled, useExisting, useAndUpdate]

def text : TuningMode → String
  | disabled => "disabled"
  | useExisting => "use_existing"
  | useAndUpdate => "use_and_update"

def described : TuningMode → String
  | disabled => "Disabled"
  | useExisting => "UseExisting"
  | useAndUpdate => "UseAndUpdate"

def ofText? (s : String) : Option TuningMode := all.find? fun m => m.text == s

end TuningMode

structure EngineOptions where
  threads : Nat
  tuning : TuningMode
  cachePath : Option String
  dynamicShapes : Bool
  fallback : Bool
  deriving DecidableEq, Repr

namespace EngineOptions

def unset : EngineOptions := ⟨0, .useExisting, none, true, true⟩

def describe (o : EngineOptions) : String :=
  Text.record "ExecutionOptions" [("thread_count", toString o.threads), ("tuning_mode", o.tuning.described),
    ("tuning_cache_path", Text.optional Text.quoted o.cachePath),
    ("enable_dynamic_shapes", Text.truth o.dynamicShapes), ("allow_reference_fallback", Text.truth o.fallback)]

end EngineOptions
end TensorPlan
