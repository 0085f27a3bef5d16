import TensorPlan.Error
import TensorPlan.Json.Forms
import TensorPlan.Json.Reader
import TensorPlan.Json.Writer
/-! Tuning caches as text and in files. Saving replaces the text of a file and marks the cache as
unchanged; if the file cannot be written, both stay as they are. -/
namespace TensorPlan

structure File where
  text : Option String
  writable : Bool
  deriving DecidableEq, Repr

namespace File

def missing : File := ⟨none, true⟩
def ofText (s : String) : File := ⟨some s, true⟩

def read (f : File) : Result String := .ofOption (.io "") f.text

end File

def EngineOptions.ofFile (f : File) : Result EngineOptions := do
  let s ← f.read
  .ofOption (.serialization "") ((Json.parse? s).bind EngineOptions.ofJson?)

namespace TuningCache

def ofJson? (j : Json) : Option TuningCache := do
  if j.isData Json.maxDepth then
    let (document, present) ← CacheDocument.ofJson? j
    some ⟨document, !present, false⟩
  else none

def ofText (s : String) : Result TuningCache := .ofOption (.serialization "") ((Json.parse? s).bind ofJson?)

def toText (c : TuningCache) : String := c.document.toJson.pretty

def ofFile (f : File) : Result TuningCache := do
  match f.text with
  | none => return { empty with hasFile := true }
  | some s => return { ← ofText s with hasFile := true }

def saveTo (c : TuningCache) (f : File) : Result Unit × TuningCache × File :=
  if f.writable then (.ok (), { c with changed := false }, ⟨some c.toText, true⟩)
  else (.fail (.io ""), c, f)

def save (c : TuningCache) (f : File) : Result Unit × TuningCache × File :=
  if c.hasFile then c.saveTo f else (.fail .noCacheFile, c, f)

end TuningCache
end TensorPlan
