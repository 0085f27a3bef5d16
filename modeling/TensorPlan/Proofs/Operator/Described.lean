import TensorPlan.Operator.Attributes
import TensorPlan.Proofs.Encoding
import TensorPlan.Proofs.Numeric.Text
import TensorPlan.Proofs.Text.Separation
/-! Attributes that are described alike. A description tells the attributes of an operator apart, except that it shows no
difference between one NaN and another. -/
namespace TensorPlan
open Text (Word Names Tells)

theorem OperatorKind.textNames : Names OperatorKind.text :=
  .ofAll all (by intro k; cases k <;> decide) (by decide) (by decide)

theorem ElementType.describedNames : Names ElementType.described :=
  .ofAll all memberOfAll (by decide) (by decide)

theorem MemoryFormat.describedNames : Names MemoryFormat.described :=
  .ofAll all (by intro f; cases f <;> decide) (by decide) (by decide)

theorem PadMode.describedNames : Names PadMode.described :=
  .ofAll all (by intro m; cases m <;> decide) (by decide) (by decide)

theorem MeanMode.describedNames : Names MeanMode.described :=
  .ofAll all (by intro m; cases m <;> decide) (by decide) (by decide)

theorem SortResult.describedNames : Names SortResult.described :=
  .ofAll all (by intro r; cases r <;> decide) (by decide) (by decide)

theorem DecayFunction.describedNames : Names DecayFunction.described :=
  .ofAll all (by intro f; cases f <;> decide) (by decide) (by decide)

theorem Text.truthNames : Names Text.truth := .ofAll [false, true] (by decide) (by decide) (by decide)

namespace Binary
variable {f : BinaryFormat} {x : Binary f}

theorem Written.plain {negative : Bool} {body : List Char} (written : Written x negative body) :
    body ≠ [] ∧ Text.Plain body := by
  cases written with
  | nan => exact ⟨List.cons_ne_nil _ _, Text.plainOf rfl⟩
  | infinite => exact ⟨List.cons_ne_nil _ _, Text.plainOf rfl⟩
  | finite a =>
    obtain ⟨c, cs, text, _⟩ := a.textStart
    have others : Text.Plain ['-', '.', 'e'] := Text.plainOf rfl
    exact ⟨by simp [text], fun c member => (a.textCharacters member).elim Text.digitPlain (others c)⟩

theorem renderWord (upTo : f.UpToDouble) (x : Binary f) : Word (DecimalStyle.described.render x) := by
  obtain ⟨negative, body, text, written⟩ := renderWritten upTo (show DecimalStyle.described.keepsPoint = true from rfl) x
  have plain := written.plain
  refine ⟨by simp [text, plain.1], fun c member => ?_⟩
  rw [text] at member
  rcases List.mem_append.mp member with sign | own
  · cases negative <;> cases sign
    · rfl
    · contradiction
  · exact plain.2 c own

theorem renderTells (upTo : f.UpToDouble) (x y : Binary f) :
    Tells (DecimalStyle.described.render x) (DecimalStyle.described.render y) (x.Agree y) :=
  .word (renderWord upTo x) (renderWord upTo y) (renderInjective upTo rfl)

end Binary

namespace Text

theorem optionalLists {α : Type} {describe : α → String} (names : Names describe) (a b : Option (List α)) :
    Tells (optional (Text.list describe) a) (optional (Text.list describe) b) (a = b) :=
  (Tells.optional names.list a b).imp optionalEqual

end Text

structure PadAttributes.Agree (a b : PadAttributes) : Prop where
  mode : a.mode = b.mode
  before : a.before = b.before
  after : a.after = b.after
  value : Option.Rel Binary.Agree a.value b.value

theorem PadAttributes.describeTells (a b : PadAttributes) : Tells a.describe b.describe (a.Agree b) :=
  (Tells.record "PadAttrs" (.cons "mode" (PadMode.describedNames.tells a.mode b.mode)
    (.cons "pads_begin" (Text.optionalLists Text.integerNames a.before b.before)
      (.cons "pads_end" (Text.optionalLists Text.integerNames a.after b.after)
        (.cons "pad_value" (.optional (Binary.renderTells BinaryFormat.doubleUpToDouble) a.value b.value) .nil))))).imp
    ⟨fun ⟨mode, before, after, value, _⟩ => ⟨mode, before, after, value⟩,
      fun ⟨mode, before, after, value⟩ => ⟨mode, before, after, value, trivial⟩⟩

theorem BroadcastAttributes.describeTells (a b : BroadcastAttributes) : Tells a.describe b.describe (a = b) :=
  (Tells.record "BroadcastAttrs" (.cons "target_shape" (Text.optionalLists Text.naturalNames a.target b.target)
    (.cons "axes" (Text.optionalLists Text.naturalNames a.axes b.axes) .nil))).imp
    ⟨fun ⟨target, axes, _⟩ => by cases a; cases b; cases target; cases axes; rfl, fun same => by rw [same]; simp⟩

structure ReorderAttributes.Agree (a b : ReorderAttributes) : Prop where
  type : a.type = b.type
  format : a.format = b.format
  meanMode : a.meanMode = b.meanMode
  mean : List.Forall₂ Binary.Agree a.mean b.mean
  truncate : a.truncate = b.truncate

theorem ReorderAttributes.describeTells (a b : ReorderAttributes) : Tells a.describe b.describe (a.Agree b) :=
  (Tells.record "ReorderAttrs" (.cons "output_type" (ElementType.describedNames.tells a.type b.type)
    (.cons "output_format" (MemoryFormat.describedNames.tells a.format b.format)
      (.cons "mean_mode" (MeanMode.describedNames.tells a.meanMode b.meanMode)
        (.cons "mean_values" (.list (Binary.renderWord BinaryFormat.singleUpToDouble)
            (fun _ _ => Binary.renderInjective BinaryFormat.singleUpToDouble rfl) a.mean b.mean)
          (.cons "truncate" (Text.truthNames.tells a.truncate b.truncate) .nil)))))).imp
    ⟨fun ⟨type, format, mode, mean, truncate, _⟩ => ⟨type, format, mode, mean, truncate⟩,
      fun ⟨type, format, mode, mean, truncate⟩ => ⟨type, format, mode, mean, truncate, trivial⟩⟩

structure NmsAttributes.Agree (a b : NmsAttributes) : Prop where
  sortResult : a.sortResult = b.sortResult
  sortAcrossBatches : a.sortAcrossBatches = b.sortAcrossBatches
  indexType : a.indexType = b.indexType
  scoreThreshold : a.scoreThreshold.Agree b.scoreThreshold
  candidatesPerClass : a.candidatesPerClass = b.candidatesPerClass
  boxesPerBatch : a.boxesPerBatch = b.boxesPerBatch
  background : a.background = b.background
  decay : a.decay = b.decay
  sigma : a.sigma.Agree b.sigma
  postThreshold : a.postThreshold.Agree b.postThreshold
  normalized : a.normalized = b.normalized
  dynamicOutput : a.dynamicOutput = b.dynamicOutput

theorem NmsAttributes.describeTells (a b : NmsAttributes) : Tells a.describe b.describe (a.Agree b) :=
  (Tells.record "MatrixNmsAttrs" (.cons "sort_result_type" (SortResult.describedNames.tells a.sortResult b.sortResult)
    (.cons "sort_result_across_batch" (Text.truthNames.tells a.sortAcrossBatches b.sortAcrossBatches)
    (.cons "output_type" (ElementType.describedNames.tells a.indexType b.indexType)
    (.cons "score_threshold" (Binary.renderTells BinaryFormat.singleUpToDouble a.scoreThreshold b.scoreThreshold)
    (.cons "nms_top_k" (Text.integerNames.tells a.candidatesPerClass b.candidatesPerClass)
    (.cons "keep_top_k" (Text.integerNames.tells a.boxesPerBatch b.boxesPerBatch)
    (.cons "background_class" (Text.integerNames.tells a.background b.background)
    (.cons "decay_function" (DecayFunction.describedNames.tells a.decay b.decay)
    (.cons "gaussian_sigma" (Binary.renderTells BinaryFormat.singleUpToDouble a.sigma b.sigma)
    (.cons "post_threshold" (Binary.renderTells BinaryFormat.singleUpToDouble a.postThreshold b.postThreshold)
    (.cons "normalized" (Text.truthNames.tells a.normalized b.normalized)
    (.cons "dynamic_output" (Text.truthNames.tells a.dynamicOutput b.dynamicOutput) .nil))))))))))))).imp
    ⟨fun ⟨sort, across, type, score, perClass, perBatch, background, decay, sigma, post, normalized, dynamic, _⟩ =>
        ⟨sort, across, type, score, perClass, perBatch, background, decay, sigma, post, normalized, dynamic⟩,
      fun ⟨sort, across, type, score, perClass, perBatch, background, decay, sigma, post, normalized, dynamic⟩ =>
        ⟨sort, across, type, score, perClass, perBatch, background, decay, sigma, post, normalized, dynamic, trivial⟩⟩

namespace Attributes

inductive Agree : Attributes → Attributes → Prop where
  | gatherTree : Agree gatherTree gatherTree
  | pad {a b : PadAttributes} (own : a.Agree b) : Agree (pad a) (pad b)
  | broadcast (a : BroadcastAttributes) : Agree (broadcast a) (broadcast a)
  | reorder {a b : ReorderAttributes} (own : a.Agree b) : Agree (reorder a) (reorder b)
  | matrixNms {a b : NmsAttributes} (own : a.Agree b) : Agree (matrixNms a) (matrixNms b)

theorem Agree.kind {a b : Attributes} (agree : a.Agree b) : a.kind = b.kind := by
  cases agree <;> rfl

theorem describeTells {a b : Attributes} (kind : a.kind = b.kind) : Tells a.describe b.describe (a.Agree b) := by
  cases a <;> cases b <;> cases kind
  case gatherTree.gatherTree =>
    exact ⟨fun _ => rfl, fun _ _ same => ⟨.gatherTree, List.append_cancel_left same⟩⟩
  case pad.pad a b => exact ((a.describeTells b).applied "Pad").imp ⟨.pad, fun | .pad own => own⟩
  case broadcast.broadcast a b =>
    exact ((a.describeTells b).applied "Broadcast").imp ⟨fun same => same ▸ .broadcast a, fun | .broadcast _ => rfl⟩
  case reorder.reorder a b => exact ((a.describeTells b).applied "Reorder").imp ⟨.reorder, fun | .reorder own => own⟩
  case matrixNms.matrixNms a b =>
    exact ((a.describeTells b).applied "MatrixNms").imp ⟨.matrixNms, fun | .matrixNms own => own⟩

end Attributes
end TensorPlan
