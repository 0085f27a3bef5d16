import TensorPlan.Dispatch.Key
import TensorPlan.Graph.Attribute
import TensorPlan.Operator.Attributes
import TensorPlan.Tensor.Descriptor
/-! Everything that can go wrong, by cause. Each cause belongs to one kind and has one message; a fault
is a step that leaves a list or divides by zero and is no error of its own. -/
namespace TensorPlan

inductive ErrorKind where
  | io
  | serialization
  | validation
  | configuration
  | unsupported
  | internal
  deriving DecidableEq, Repr

namespace ErrorKind

def label : ErrorKind → String
  | io => "I/O error"
  | serialization => "Serialization error"
  | validation => "Validation error"
  | configuration => "Configuration error"
  | unsupported => "Unsupported operation"
  | internal => "Internal error"

def isModelError : ErrorKind → Bool
  | validation | configuration | unsupported => true
  | io | serialization | internal => false

end ErrorKind

inductive Error where
  | unsupportedRank (format : MemoryFormat) (dims : List Nat)
  | bufferSize (size : Nat) (descriptor : Descriptor) (expected : Nat)
  | valueCount (count : Nat) (dims : List Nat)
  | typeMismatch (held requested : ElementType)
  | integersRequired (type : ElementType)
  | plainArrayRequired (format : MemoryFormat)
  | arrayTooLarge
  | truncateShape
  | truncateGrows (rows wanted : Nat)
  | attributeType (operator node name expected : String) (found : Attribute)
  | noInputs (kind : OperatorKind)
  | operatorTaken (name : String)
  | operatorUnknown (name : String)
  | inputCount (kind : OperatorKind) (least greatest count : Nat)
  | shapesConflict (kind : OperatorKind) (what : String) (left right : Shape)
  | rankMismatch (kind : OperatorKind) (what : String) (rank : Nat) (shape : Shape)
  | unknownName (what text : String)
  | noPlanData (kind : OperatorKind)
  | padValueCount (count : Nat)
  | padLength (what : String) (length : Nat) (data : Shape)
  | padsDiffer (before after : List Int)
  | padEntries (count : Nat) (data : Shape)
  | padNegativeSize (axis : Nat) (data : Shape) (before after : Int)
  | padRank (what : String) (count rank : Nat)
  | padNegative (what : String) (values : List Int)
  | padMissing (what : String)
  | padExceeds (mode : PadMode) (before after limit axis : Nat) (dims : List Nat)
  | padBlocked (before after channels : Nat) (format : MemoryFormat) (mode : PadMode)
  | axesNotConstant (node : String)
  | broadcastNegative (what : String) (values : List Int)
  | axisRange (axis : Nat) (output : List Nat)
  | cannotAlign (input output axes : List Nat)
  | axisNotOne (axis length : Nat) (input : List Nat)
  | emptyAxis (axis : Nat) (input : List Nat) (output : Nat)
  | notDivisible (output input axis : Nat)
  | targetMissing
  | targetNegative (values : List Int)
  | broadcastRank (format : MemoryFormat) (dims : List Nat) (rank : Nat)
  | blockCopyLayout (source target : MemoryFormat)
  | meanMissing (node : String) (mode : MeanMode)
  | formatCannotHold (format : MemoryFormat) (data : Shape)
  | meanCount (count : Nat) (data : Shape)
  | reorderRank (format : MemoryFormat) (dims : List Nat)
  | meanFormat (format : MemoryFormat)
  | meanFit (count : Nat) (dims : List Nat)
  | nmsIndexType (type : ElementType)
  | nmsBoxWidth (boxes : Shape)
  | nmsInputs (count : Nat)
  | nmsElements (what : String) (type : ElementType) (format : MemoryFormat)
  | nmsRank (what : String) (rank : Nat) (dims : List Nat)
  | nmsShapes (boxes scores : List Nat)
  | nmsView (what : String)
  | gatherInputs (count : Nat)
  | gatherFormat (format : MemoryFormat)
  | gatherShapes (steps parents lengths endToken : List Nat)
  | parentRange (parent : Double) (step batch width : Nat)
  | smallDestination (size items itemSize : Nat)
  | inputsDiffer (given planned : List Descriptor)
  | outputsDiffer (given planned : List Descriptor)
  | wrongPlan (executor needed : String)
  | wrongPadPlan (variant : Nat)
  | wrongAttributes (kernel : String) (kind : OperatorKind)
  | outputCount (node kernel : String) (produced expected : Nat)
  | outputMismatch (node : String) (dims : List Nat) (type : ElementType) (shape : Shape) (expected : ElementType)
  | emptyRun (node : String)
  | kernelKind (kernel : String) (implemented wanted : OperatorKind)
  | kernelTaken (kernel : String) (key : KernelKey)
  | fallbackTaken (kind : OperatorKind) (kernel : String)
  | noKernels (kind : OperatorKind)
  | fallbackDisabled (kind : OperatorKind) (type : Option ElementType) (format : Option MemoryFormat) (mode : ShapeMode)
  | noFallback (kind : OperatorKind)
  | noCacheFile
  | io (text : String)
  | serialization (text : String)
  | raised (kind : ErrorKind) (text : String)
  deriving DecidableEq, Repr

namespace Error

def kind : Error → ErrorKind
  | bufferSize .. | valueCount .. | typeMismatch .. | plainArrayRequired .. => .validation
  | unsupportedRank .. | integersRequired .. => .configuration
  | arrayTooLarge | truncateShape | truncateGrows .. => .internal
  | attributeType .. | noInputs .. | inputCount .. | shapesConflict .. | rankMismatch .. | unknownName .. => .validation
  | operatorTaken .. => .configuration
  | operatorUnknown .. => .unsupported
  | noPlanData .. => .internal
  | padLength .. | padsDiffer .. | padEntries .. | padNegativeSize .. => .validation
  | padValueCount .. | padRank .. | padNegative .. | padMissing .. | padExceeds .. | padBlocked .. => .configuration
  | axesNotConstant .. | broadcastNegative .. => .validation
  | axisRange .. | cannotAlign .. | axisNotOne .. | emptyAxis .. | notDivisible .. => .configuration
  | targetMissing | targetNegative .. | broadcastRank .. | blockCopyLayout .. => .configuration
  | meanMissing .. | formatCannotHold .. | meanCount .. => .validation
  | reorderRank .. | meanFormat .. | meanFit .. => .configuration
  | nmsIndexType .. | nmsBoxWidth .. => .validation
  | nmsElements .. | nmsRank .. | nmsShapes .. => .configuration
  | nmsInputs .. | nmsView .. | gatherInputs .. => .internal
  | gatherFormat .. | gatherShapes .. => .configuration
  | parentRange .. => .validation
  | smallDestination .. | inputsDiffer .. | outputsDiffer .. | wrongPlan .. | wrongPadPlan .. => .internal
  | wrongAttributes .. => .internal
  | outputCount .. | outputMismatch .. | emptyRun .. => .validation
  | kernelKind .. | kernelTaken .. | fallbackTaken .. | noCacheFile => .configuration
  | noKernels .. | fallbackDisabled .. | noFallback .. => .unsupported
  | io .. => .io
  | serialization .. => .serialization
  | raised kind _ => kind

def descriptors (ds : List Descriptor) : String := Text.list Descriptor.describe ds

def countRange (least greatest : Nat) : String :=
  if least = greatest then toString least else s!"{least}..={greatest}"

def message : Error → String
  | unsupportedRank f dims => s!"Memory format {f.text} requires rank >= 3, got dims {Text.naturals dims}"
  | bufferSize size d expected =>
    s!"Buffer of {size} bytes does not match {d.describe} ({expected} bytes expected)"
  | valueCount count dims => s!"{count} values do not fill shape {Text.naturals dims}"
  | typeMismatch held requested => s!"Tensor holds {held.text} but {requested.text} was requested"
  | integersRequired t => s!"Expected an integer tensor, got {t.text}"
  | plainArrayRequired f => s!"to_ndarray requires a plain tensor, got {f.text}"
  | arrayTooLarge => "Failed to build array: ShapeError/Overflow: arithmetic overflow"
  | truncateShape => "truncate_outer requires a plain tensor of rank >= 1"
  | truncateGrows rows wanted => s!"Cannot grow outer dimension from {rows} to {wanted}"
  | attributeType operator node name expected found =>
    s!"{operator} '{node}': attribute '{name}' should be {expected}, got {found.describe}"
  | noInputs k => s!"{k.text} requires at least one input"
  | operatorTaken name => s!"Operator {name} is already registered"
  | operatorUnknown name => s!"Operator {name} not found in registry"
  | inputCount k least greatest count => s!"{k.text} expects {countRange least greatest} inputs, got {count}"
  | shapesConflict k what left right => s!"{k.text}: {what} are not compatible: {left.text} vs {right.text}"
  | rankMismatch k what rank shape => s!"{k.text}: {what} must have rank {rank}, got {shape.text}"
  | unknownName what text => s!"Unknown {what}: {text}"
  | noPlanData k => s!"{k.text} plan without data input"
  | padValueCount count => s!"Pad value must be a scalar, got {count} elements"
  | padLength what length data => s!"Pad: {what} length {length} does not match data shape {data.text}"
  | padsDiffer before after =>
    s!"Pad: pads_begin {Text.integers before} and pads_end {Text.integers after} differ in length"
  | padEntries count data => s!"Pad: {count} pad entries for data shape {data.text}"
  | padNegativeSize axis data before after =>
    s!"Pad: axis {axis} of {data.text} becomes negative with pads {before} / {after}"
  | padRank what count rank => s!"Pad: {what} has {count} entries for a rank {rank} input"
  | padNegative what values => s!"Pad: {what} must be non-negative, got {Text.integers values}"
  | padMissing what => s!"Pad: {what} is neither an attribute nor an input"
  | padExceeds mode before after limit axis dims =>
    s!"Pad: {mode.text} pads {before}/{after} exceed {limit} on axis {axis} of {Text.naturals dims}"
  | padBlocked before after channels f mode =>
    s!"Pad: channel pads {before}/{after} on {channels} channels do not fit {f.text} layout in {mode.text} mode"
  | axesNotConstant node => s!"Broadcast '{node}': axes mapping must be constant"
  | broadcastNegative what values => s!"Broadcast {what} must be non-negative: {Text.integers values}"
  | axisRange axis output => s!"Broadcast axis {axis} is out of range for output shape {Text.naturals output}"
  | cannotAlign input output axes =>
    s!"Cannot align input shape {Text.naturals input} with output shape {Text.naturals output} (axes {Text.naturals axes})"
  | axisNotOne axis length input =>
    s!"Input size along broadcast axis {axis} must be 1, got {length} (input {Text.naturals input})"
  | emptyAxis axis input output => s!"Cannot broadcast empty axis {axis} of {Text.naturals input} to {output}"
  | notDivisible output input axis =>
    s!"Output size {output} is not dividable by input size {input} along axis {axis}"
  | targetMissing => "Broadcast: target shape is neither an attribute nor an input"
  | targetNegative values => s!"Broadcast: negative target shape {Text.integers values}"
  | broadcastRank f dims rank =>
    s!"Broadcast: {f.text} input {Text.naturals dims} must already have the output rank {rank}"
  | blockCopyLayout source target =>
    s!"Broadcast block copy needs plain layouts, got {source.text} -> {target.text}"
  | meanMissing node mode => s!"Reorder '{node}': mean mode {mode.text} needs mean_values or a mean input"
  | formatCannotHold f data => s!"Reorder: format {f.text} cannot hold shape {data.text}"
  | meanCount count data => s!"Reorder: {count} mean values do not match data shape {data.text}"
  | reorderRank f dims => s!"Reorder: {f.text} cannot hold dims {Text.naturals dims}"
  | meanFormat f => s!"Reorder: mean tensor must be plain, got {f.text}"
  | meanFit count dims => s!"Reorder: {count} mean values do not fit dims {Text.naturals dims}"
  | nmsIndexType t => s!"MatrixNms output_type must be i32 or i64, got {t.text}"
  | nmsBoxWidth boxes => s!"MatrixNms: last dimension of boxes must be 4, got {boxes.text}"
  | nmsInputs count => s!"MatrixNms plan needs boxes and scores, got {count} inputs"
  | nmsElements what t f => s!"MatrixNms: {what} must be plain f32, got {t.text}/{f.text}"
  | nmsRank what rank dims => s!"MatrixNms: {what} must have rank {rank}, got {Text.naturals dims}"
  | nmsShapes boxes scores =>
    s!"MatrixNms: incompatible boxes {Text.naturals boxes} and scores {Text.naturals scores}"
  | nmsView what => s!"MatrixNms {what}: ShapeError/IncompatibleShape: incompatible shapes"
  | gatherInputs count => s!"GatherTree plan needs 4 inputs, got {count}"
  | gatherFormat f => s!"GatherTree: inputs must be plain, got {f.text}"
  | gatherShapes steps parents lengths endToken =>
    s!"GatherTree: inconsistent inputs step_ids {Text.naturals steps}, parent_ids {Text.naturals parents}, max_seq_len {Text.naturals lengths}, end_token {Text.naturals endToken}"
  | parentRange parent step batch width =>
    s!"GatherTree: parent id {DecimalStyle.plain.render parent} at step {step}, batch {batch} is outside [0, {width})"
  | smallDestination size items itemSize =>
    s!"Destination of {size} bytes is smaller than {items} work items of {itemSize} bytes"
  | inputsDiffer given planned => s!"Inputs {descriptors given} do not match the plan ({descriptors planned})"
  | outputsDiffer given planned => s!"Outputs {descriptors given} do not match the plan ({descriptors planned})"
  | wrongPlan executor needed => s!"{executor} executor needs {needed} plan"
  | wrongPadPlan variant => s!"Pad executor got a Discriminant({variant}) plan"
  | wrongAttributes kernel k => s!"{kernel} got {k.text} attributes"
  | outputCount node kernel produced expected =>
    s!"{node}: kernel {kernel} produces {produced} outputs, shape inference expects {expected}"
  | outputMismatch node dims t shape expected =>
    s!"{node}: output {Text.naturals dims} {t.text} does not fit inferred {shape.text} {expected.text}"
  | emptyRun node => s!"Node '{node}' executed without inputs"
  | kernelKind kernel implemented wanted =>
    s!"Kernel {kernel} implements {implemented.text}, cannot register it for {wanted.text}"
  | kernelTaken kernel key => s!"Kernel {kernel} is already registered for {key.describe}"
  | fallbackTaken k kernel => s!"{k.text} already has fallback kernel {kernel}"
  | noKernels k => s!"No kernels registered for {k.text}"
  | fallbackDisabled k t f mode =>
    s!"No kernel for {k.text} ({Text.optional ElementType.described t}/{Text.optional MemoryFormat.described f}, {mode.text}) and reference fallback is disabled"
  | noFallback k => s!"No kernel or fallback for {k.text}"
  | noCacheFile => "Tuning cache has no file to save to"
  | io text => text
  | serialization text => text
  | raised _ text => text

def display (e : Error) : String := e.kind.label ++ ": " ++ e.message

end Error

inductive Halt where
  | error (e : Error)
  | fault
  deriving DecidableEq, Repr

abbrev Result (α : Type) := Except Halt α

namespace Result

def fail {α : Type} (e : Error) : Result α := Except.error (Halt.error e)
def fault {α : Type} : Result α := Except.error Halt.fault

def ofOption {α : Type} (e : Error) : Option α → Result α
  | some x => .ok x
  | none => fail e

def orFault {α : Type} : Option α → Result α
  | some x => .ok x
  | none => fault

def ensure (condition : Bool) (e : Error) : Result Unit := if condition then .ok () else fail e

def forEach {α β : Type} (f : α → Result β) : List α → Result (List β)
  | [] => .ok []
  | x :: xs => do
    let y ← f x
    let ys ← forEach f xs
    return y :: ys

end Result
end TensorPlan
