import TensorPlan.Proofs.Tensor.Edits
import TensorPlan.Proofs.Tensor.Truncation
/-! Editing in place. The fields of a tensor change one after the other, and while they do nothing says that they belong
together: to cut a tensor its dimensions are set first and its buffer is shortened afterwards. -/
namespace TensorPlan

structure RawTensor where
  descriptor : Descriptor
  data : Bytes
  deriving DecidableEq, Repr

def Tensor.raw (t : Tensor) : RawTensor := ⟨t.descriptor, t.data⟩

def RawTensor.Fits (t : RawTensor) : Prop :=
  ∃ l, t.descriptor.layout = .ok l ∧ t.data.length = l.physicalSize * t.descriptor.type.size

inductive Descriptor.Cut : Descriptor → Descriptor → Prop where
  | same (d : Descriptor) : Cut d d
  | rows (ds : List Nat) (type : ElementType) {n rows : Nat} (fewer : rows ≤ n) :
      Cut ⟨n :: ds, type, .plain⟩ ⟨rows :: ds, type, .plain⟩

theorem Descriptor.Cut.trans {d e f : Descriptor} (first : Cut d e) (second : Cut e f) : Cut d f := by
  cases first with
  | same => exact second
  | rows ds type fewer =>
    cases second with
    | same => exact .rows ds type fewer
    | rows _ _ fewer' => exact .rows ds type (Nat.le_trans fewer' fewer)

namespace RawTensor
variable {s t u : RawTensor}

theorem fitsSize : t.Fits ↔ t.descriptor.byteSize? = some t.data.length := by
  rw [Descriptor.byteSize?, Option.map_eq_some_iff]
  exact exists_congr fun l => and_congr Result.ofOptionOk eq_comm

structure Follows (s t : RawTensor) : Prop where
  cut : s.descriptor.Cut t.descriptor
  fits : s.Fits → t.Fits

theorem Follows.refl (t : RawTensor) : Follows t t := ⟨.same _, id⟩

theorem Follows.trans (first : Follows s t) (second : Follows t u) : Follows s u :=
  ⟨first.cut.trans second.cut, second.fits ∘ first.fits⟩

end RawTensor

theorem Tensor.rawFits (t : Tensor) : t.raw.Fits := t.layoutFits

namespace Edit

def inPlace : Edit → ExceptT Halt (StateM RawTensor) Unit
  | overwrite f => do
    let t ← get
    let data ← liftExcept (f t.data)
    set { t with data }
  | truncate rows => do
    let t ← get
    match t.descriptor.format, t.descriptor.dims with
    | .plain, d :: ds =>
      liftExcept (Result.ensure (decide (rows ≤ d)) (.truncateGrows d rows))
      set { t with descriptor := { t.descriptor with dims := rows :: ds } }
      let t ← get
      liftExcept (Tensor.recount t.data t.descriptor)
      let size ← liftExcept
        (Result.ofOption (.unsupportedRank t.descriptor.format t.descriptor.dims) t.descriptor.byteSize?)
      set { t with data := t.data.take size }
    | _, _ => liftExcept (Result.fail .truncateShape)

theorem inPlaceOverwrite (f : Bytes → Result Bytes) (t : RawTensor) : (overwrite f).inPlace.run t =
    match f t.data with
    | .ok data => (.ok (), ⟨t.descriptor, data⟩)
    | .error h => (.error h, t) := by
  change ((liftExcept (f t.data) >>= fun data => set (RawTensor.mk t.descriptor data) :
    ExceptT Halt (StateM RawTensor) Unit)).run t = _
  cases f t.data <;> rfl

theorem inPlaceCut {d rows : Nat} (ds : List Nat) (type : ElementType) (data : Bytes) (fewer : rows ≤ d) :
    (truncate rows).inPlace.run ⟨.plain (d :: ds) type, data⟩ =
      match Tensor.recount data (.plain (rows :: ds) type) with
      | .ok _ => (.ok (), ⟨.plain (rows :: ds) type, data.take (rows * (volume ds * type.size))⟩)
      | .error h => (.error h, ⟨.plain (rows :: ds) type, data⟩) := by
  have size : (Descriptor.plain (rows :: ds) type).byteSize? = some (rows * (volume ds * type.size)) := by
    rw [Descriptor.plainSize, volumeCons, Nat.mul_assoc]
  change ((liftExcept (Result.ensure (decide (rows ≤ d)) (.truncateGrows d rows)) >>= fun _ =>
    set (RawTensor.mk (.plain (rows :: ds) type) data) >>= fun _ => _ : ExceptT Halt (StateM RawTensor) Unit)).run _ = _
  rw [decide_eq_true fewer]
  change ((liftExcept (Tensor.recount data (.plain (rows :: ds) type)) >>= fun _ =>
    liftExcept (Result.ofOption (.unsupportedRank .plain (rows :: ds)) (Descriptor.plain (rows :: ds) type).byteSize?) >>=
      fun size => set (RawTensor.mk (.plain (rows :: ds) type) (data.take size)) :
    ExceptT Halt (StateM RawTensor) Unit)).run _ = _
  rw [size]
  cases Tensor.recount data (.plain (rows :: ds) type) <;> rfl

theorem inPlaceGrows {d rows : Nat} (ds : List Nat) (type : ElementType) (data : Bytes) (more : d < rows) :
    (truncate rows).inPlace.run ⟨.plain (d :: ds) type, data⟩ =
      (Result.fail (.truncateGrows d rows), ⟨.plain (d :: ds) type, data⟩) := by
  change ((liftExcept (Result.ensure (decide (rows ≤ d)) (.truncateGrows d rows)) >>= fun _ => _ :
    ExceptT Halt (StateM RawTensor) Unit)).run _ = _
  rw [decide_eq_false (Nat.not_le.mpr more)]
  rfl

theorem inPlaceShape {t : RawTensor} (rows : Nat) (other : t.descriptor.format ≠ .plain ∨ t.descriptor.dims = []) :
    (truncate rows).inPlace.run t = (Result.fail .truncateShape, t) := by
  obtain ⟨⟨dims, type, format⟩, data⟩ := t
  cases format with
  | plain =>
    cases dims with
    | nil => rfl
    | cons d ds => simp at other
  | _ => rfl

end Edit

abbrev RawRun := ExceptT Halt (StateM (List RawTensor))

namespace RawRun

def check (plan : ExecutionPlan) (inputs : List Tensor) : RawRun Unit := do
  let given := inputs.map Tensor.descriptor
  liftExcept (Result.ensure (given == plan.inputs) (.inputsDiffer given plan.inputs))
  let outputs := (← get).map RawTensor.descriptor
  liftExcept (Result.ensure (outputs == plan.outputs) (.outputsDiffer outputs plan.outputs))

def edit (output : Nat) (e : Edit) : RawRun Unit := do
  let outputs ← get
  let t ← liftExcept (Result.orFault outputs[output]?)
  let (result, t) := e.inPlace.run t
  set (outputs.set output t)
  liftExcept result

def edits : List (Nat × Edit) → RawRun Unit
  | [] => pure ()
  | e :: es => do
    edit e.1 e.2
    edits es

theorem editRun (output : Nat) (e : Edit) (outputs : List RawTensor) : (edit output e).run outputs =
    match outputs[output]? with
    | none => (Result.fault, outputs)
    | some t => ((e.inPlace.run t).1, outputs.set output (e.inPlace.run t).2) := by
  change ((liftExcept (Result.orFault outputs[output]?) >>= fun t => _ : RawRun Unit)).run outputs = _
  cases outputs[output]? with
  | none => rfl
  | some t => exact Run.runLift (e.inPlace.run t).1 _

def execute [Widths] (k : BuiltinKernel) (s : Schedule) (plan : ExecutionPlan) (inputs : List Tensor) : RawRun Unit := do
  check plan inputs
  let es ← liftExcept (k.edits s plan inputs)
  edits es

end RawRun

namespace Edit

theorem inPlaceApply {e : Edit} (keeps : e.KeepsLength) (t : Tensor) :
    (∃ u, e.apply t = .ok u ∧ e.inPlace.run t.raw = (.ok (), u.raw)) ∨
      ∃ h held, e.apply t = .error h ∧ e.inPlace.run t.raw = (.error h, held) ∧ (h ≠ .fault → held = t.raw) := by
  cases e with
  | overwrite f =>
    rw [inPlaceOverwrite, apply, show t.raw.data = t.data from rfl]
    cases made : f t.data with
    | error h => exact .inr ⟨h, t.raw, rfl, rfl, fun _ => rfl⟩
    | ok new =>
      have fits : t.descriptor.byteSize? = some new.length := by rw [keeps _ _ made]; exact t.fits
      refine .inl ⟨⟨t.descriptor, new, fits⟩, ?_, rfl⟩
      simp only [Result.okBind, Tensor.withData?, Tensor.ofBytes?, dif_pos fits, Result.orFaultSome]
  | truncate rows =>
    obtain ⟨d, ds, type, described⟩ | other := t.descriptor.rowsOrNone
    · have raw : t.raw = ⟨.plain (d :: ds) type, t.data⟩ := by rw [Tensor.raw, described]
      rw [apply, raw]
      by_cases fewer : rows ≤ d
      · rw [inPlaceCut ds type t.data fewer]
        obtain counted | ⟨_, _, beyond⟩ := Tensor.recountEither t.data (rows :: ds) type
        · obtain ⟨u, made, cut, data⟩ := Tensor.truncateBytes described fewer counted
          exact .inl ⟨u, made, by rw [counted, Tensor.raw, cut, data]⟩
        · exact .inr ⟨.fault, ⟨.plain (rows :: ds) type, t.data⟩, Tensor.truncateBeyond described fewer beyond,
            by rw [beyond]; rfl, fun other => (other rfl).elim⟩
      · have more := Nat.not_le.mp fewer
        rw [inPlaceGrows ds type t.data more, Tensor.truncateGrows described more]
        exact .inr ⟨_, _, rfl, rfl, fun _ => rfl⟩
    · rw [apply, Tensor.truncateShape rows other, inPlaceShape rows other]
      exact .inr ⟨_, _, rfl, rfl, fun _ => rfl⟩

theorem inPlaceFollows {e : Edit} (keeps : e.KeepsLength) (t : RawTensor) : t.Follows (e.inPlace.run t).2 := by
  cases e with
  | overwrite f =>
    rw [inPlaceOverwrite]
    cases made : f t.data with
    | error h => exact .refl t
    | ok new =>
      refine ⟨.same _, fun fits => ?_⟩
      obtain ⟨l, layout, length⟩ := fits
      exact ⟨l, layout, (keeps _ _ made).trans length⟩
  | truncate rows =>
    obtain ⟨descriptor, data⟩ := t
    obtain ⟨d, ds, type, rfl⟩ | other := descriptor.rowsOrNone
    · by_cases fewer : rows ≤ d
      · have enough (fits : (RawTensor.mk (.plain (d :: ds) type) data).Fits) :
            rows * (volume ds * type.size) ≤ data.length := by
          have size := RawTensor.fitsSize.mp fits
          simp only [Descriptor.plainSize, volumeCons, Nat.mul_assoc, Option.some.injEq] at size
          rw [← size]
          exact Nat.mul_le_mul_right _ fewer
        rw [inPlaceCut ds type data fewer]
        obtain counted | ⟨empty, _, beyond⟩ := Tensor.recountEither data (rows :: ds) type
        · rw [counted]
          refine ⟨.rows ds type fewer, fun fits => RawTensor.fitsSize.mpr ?_⟩
          simp only [Descriptor.plainSize, volumeCons, Nat.mul_assoc, List.length_take, Nat.min_eq_left (enough fits)]
        · rw [beyond]
          refine ⟨.rows ds type fewer, fun fits => RawTensor.fitsSize.mpr ?_⟩
          have none := enough fits
          rw [empty, List.length_nil, Nat.le_zero] at none
          change (Descriptor.plain (rows :: ds) type).byteSize? = some data.length
          rw [Descriptor.plainSize, volumeCons, Nat.mul_assoc, none, empty, List.length_nil]
      · rw [inPlaceGrows ds type data (Nat.not_le.mp fewer)]
        exact .refl _
    · rw [inPlaceShape rows other]
      exact .refl _

end Edit

theorem Run.updateRun (output : Nat) (f : Tensor → Result Tensor) (outputs : List Tensor) : (update output f).run outputs =
    match outputs[output]? with
    | none => (Result.fault, outputs)
    | some t =>
      match f t with
      | .ok u => (.ok (), outputs.set output u)
      | .error h => (.error h, outputs) := by
  change ((ofResult (Result.orFault outputs[output]?) >>= fun t => ofResult (f t) >>= fun new =>
    set (outputs.set output new) : Run Unit)).run outputs = _
  cases outputs[output]? with
  | none => rfl
  | some t =>
    change ((ofResult (f t) >>= fun new => set (outputs.set output new) : Run Unit)).run outputs = _
    dsimp only
    cases f t <;> rfl

structure RawRun.Sound {α : Type} (raw : RawRun α) (run : Run α) : Prop where
  result (outputs : List Tensor) : (raw.run (outputs.map Tensor.raw)).1 = (run.run outputs).1
  same (outputs : List Tensor) (goes : (run.run outputs).1 ≠ Result.fault) :
    (raw.run (outputs.map Tensor.raw)).2 = (run.run outputs).2.map Tensor.raw
  follows {outputs : List RawTensor} {place : Nat} {t : RawTensor} (before : outputs[place]? = some t) :
    ∃ u, (raw.run outputs).2[place]? = some u ∧ t.Follows u

namespace RawRun.Sound
variable {α β : Type}

theorem bind {raw : RawRun α} {run : Run α} {f : α → RawRun β} {g : α → Run β} (first : Sound raw run)
    (rest : ∀ x, Sound (f x) (g x)) : Sound (raw >>= f) (run >>= g) where
  result outputs := by
    have result := first.result outputs
    have same := first.same outputs
    cases ran : run.run outputs with
    | mk found held =>
      cases ran' : raw.run (outputs.map Tensor.raw) with
      | mk found' held' =>
        rw [ran, ran'] at result same
        cases result
        cases found with
        | error h => rw [Run.bindError ran, Run.bindError ran']
        | ok x =>
          cases same fun failed => (nomatch failed)
          rw [Run.bindOk ran, Run.bindOk ran', (rest x).result]
  same outputs goes := by
    have result := first.result outputs
    have same := first.same outputs
    cases ran : run.run outputs with
    | mk found held =>
      cases ran' : raw.run (outputs.map Tensor.raw) with
      | mk found' held' =>
        rw [ran, ran'] at result same
        cases result
        cases found with
        | error h =>
          rw [Run.bindError ran] at goes ⊢
          rw [Run.bindError ran']
          exact same fun failed => goes (by cases failed; rfl)
        | ok x =>
          cases same fun failed => (nomatch failed)
          rw [Run.bindOk ran] at goes ⊢
          rw [Run.bindOk ran', (rest x).same held goes]
  follows {outputs place t} before := by
    obtain ⟨u, between, follows⟩ := first.follows before
    cases ran : raw.run outputs with
    | mk result held =>
      rw [ran] at between
      cases result with
      | error h => exact ⟨u, by rw [Run.bindError ran]; exact between, follows⟩
      | ok x =>
        obtain ⟨v, after, follows'⟩ := (rest x).follows between
        exact ⟨v, by rw [Run.bindOk ran]; exact after, follows.trans follows'⟩

theorem lift (r : Result α) : Sound (liftExcept r) (Run.ofResult r) where
  result outputs := by rw [Run.runLift, Run.runOfResult]
  same outputs _ := by rw [Run.runLift, Run.runOfResult]
  follows {outputs place t} before := ⟨t, by rw [Run.runLift]; exact before, .refl t⟩

theorem described (f : List Descriptor → Result α) :
    Sound (get >>= fun outputs => liftExcept (f (outputs.map RawTensor.descriptor)))
      (get >>= fun outputs => Run.ofResult (f (outputs.map Tensor.descriptor))) := by
  have alike (outputs : List Tensor) : (outputs.map Tensor.raw).map RawTensor.descriptor = outputs.map Tensor.descriptor :=
    List.map_map
  refine ⟨fun outputs => ?_, fun outputs goes => ?_, fun {outputs place t} before => ?_⟩
  · change ((liftExcept (f ((outputs.map Tensor.raw).map RawTensor.descriptor)) : RawRun α).run _).1 = _
    rw [alike]
    exact (lift (f (outputs.map Tensor.descriptor))).result outputs
  · change ((liftExcept (f ((outputs.map Tensor.raw).map RawTensor.descriptor)) : RawRun α).run _).2 = _
    rw [alike]
    exact (lift (f (outputs.map Tensor.descriptor))).same outputs goes
  · exact (lift (f (outputs.map RawTensor.descriptor))).follows before

theorem check (plan : ExecutionPlan) (inputs : List Tensor) : Sound (RawRun.check plan inputs) (Run.check plan inputs) :=
  bind (lift _) fun _ => described fun outputs => .ensure (outputs == plan.outputs) (.outputsDiffer outputs plan.outputs)

theorem edit (output : Nat) {e : Edit} (keeps : e.KeepsLength) :
    Sound (RawRun.edit output e) (Run.update output e.apply) := by
  have cases (outputs : List Tensor) : ((RawRun.edit output e).run (outputs.map Tensor.raw)).1 =
      ((Run.update output e.apply).run outputs).1 ∧ (((Run.update output e.apply).run outputs).1 ≠ Result.fault →
        ((RawRun.edit output e).run (outputs.map Tensor.raw)).2 =
          ((Run.update output e.apply).run outputs).2.map Tensor.raw) := by
    rw [RawRun.editRun, Run.updateRun, List.getElem?_map]
    cases found : outputs[output]? with
    | none => exact ⟨rfl, fun _ => rfl⟩
    | some t =>
      rw [Option.map_some]
      dsimp only
      obtain ⟨u, made, ran⟩ | ⟨h, held, failed, ran, stays⟩ := e.inPlaceApply keeps t
      · rw [made, ran]
        exact ⟨rfl, fun _ => (List.map_set).symm⟩
      · rw [failed, ran]
        refine ⟨rfl, fun goes => ?_⟩
        rw [stays fun ends => goes (by rw [ends]; rfl)]
        obtain ⟨inside, rfl⟩ := List.getElem?_eq_some_iff.mp found
        dsimp only
        rw [← List.map_set, List.set_getElem_self]
  refine ⟨fun outputs => (cases outputs).1, fun outputs => (cases outputs).2, fun {outputs place t} before => ?_⟩
  rw [RawRun.editRun]
  cases found : outputs[output]? with
  | none => exact ⟨t, before, .refl t⟩
  | some s =>
    by_cases same : output = place
    · cases same
      cases before.symm.trans found
      obtain ⟨inside, _⟩ := List.getElem?_eq_some_iff.mp before
      exact ⟨_, List.getElem?_set_self inside, e.inPlaceFollows keeps t⟩
    · exact ⟨t, by rw [List.getElem?_set_ne same]; exact before, .refl t⟩

theorem edits {es : List (Nat × Edit)} (keep : ∀ e ∈ es, e.2.KeepsLength) : Sound (RawRun.edits es) (Run.edits es) := by
  induction es with
  | nil => exact lift (.ok ())
  | cons e es ih =>
    exact bind (edit e.1 (keep e List.mem_cons_self)) fun _ => ih fun e member => keep e (List.mem_cons_of_mem _ member)

theorem execute [Widths] (k : BuiltinKernel) (s : Schedule) (plan : ExecutionPlan) (inputs : List Tensor) :
    Sound (RawRun.execute k s plan inputs) (k.execute s plan inputs) := by
  rw [k.executeEdits]
  refine bind (check plan inputs) fun _ => ?_
  cases made : k.edits s plan inputs with
  | error h => exact lift (.error h)
  | ok es => exact edits (BuiltinKernel.editsLength made)

end RawRun.Sound

end TensorPlan
