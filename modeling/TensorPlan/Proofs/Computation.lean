import TensorPlan.Run.Basic
/-! Rules for computations that can fail and for runs on output tensors. A proof takes a computation
apart at its binds, and a run is followed from one list of outputs to the next. -/
namespace TensorPlan

namespace Result
variable {α β : Type}

@[simp] theorem okBind (x : α) (f : α → Result β) : (Except.ok x : Result α) >>= f = f x := rfl

@[simp] theorem errorBind (h : Halt) (f : α → Result β) :
    (Except.error h : Result α) >>= f = .error h := rfl

@[simp] theorem pureOk (x : α) : (pure x : Result α) = .ok x := rfl

@[simp] theorem orFaultSome (x : α) : orFault (some x) = .ok x := rfl

@[simp] theorem ofOptionSome (e : Error) (x : α) : ofOption e (some x) = .ok x := rfl

theorem bindOk {x : Result α} {f : α → Result β} {y : β} :
    x >>= f = .ok y ↔ ∃ a, x = .ok a ∧ f a = .ok y := by
  cases x with
  | error h => simp
  | ok a => simp

theorem mapOk {x : Result α} {f : α → β} {y : β} : x.map f = .ok y ↔ ∃ a, x = .ok a ∧ f a = y := by
  cases x with
  | error h => simp [Except.map]
  | ok a => simp [Except.map]

theorem ensureOk {c : Bool} {e : Error} {u : Unit} : ensure c e = .ok u ↔ c = true := by
  cases c with
  | false => simp [ensure, fail]
  | true => simp [ensure]

theorem ofOptionOk {e : Error} {o : Option α} {x : α} : ofOption e o = .ok x ↔ o = some x := by
  cases o with
  | none => simp [ofOption, fail]
  | some y => simp

theorem orFaultOk {o : Option α} {x : α} : orFault o = .ok x ↔ o = some x := by
  cases o with
  | none => simp [orFault, fault]
  | some y => simp

theorem failNotOk {e : Error} {x : α} : fail e ≠ .ok x := by simp [fail]

theorem forEachOk {f : α → Result β} {g : α → β} {xs : List α} (each : ∀ x ∈ xs, f x = .ok (g x)) :
    forEach f xs = .ok (xs.map g) := by
  induction xs with
  | nil => rfl
  | cons x xs ih =>
    have rest := ih fun y member => each y (List.mem_cons_of_mem x member)
    simp [forEach, each x List.mem_cons_self, rest]

theorem forEachEither {f : α → Result β} {xs : List α} {fine : α → β → Prop} {bad : Halt → Prop}
    (each : ∀ x ∈ xs, (∃ y, f x = .ok y ∧ fine x y) ∨ ∃ h, f x = .error h ∧ bad h) :
    (∃ ys, forEach f xs = .ok ys ∧ ys.length = xs.length ∧
        ∀ (i : Nat) y, ys[i]? = some y → ∃ x, xs[i]? = some x ∧ fine x y) ∨
      ∃ h, forEach f xs = .error h ∧ bad h := by
  induction xs with
  | nil => exact .inl ⟨[], rfl, rfl, fun i y found => by simp at found⟩
  | cons x xs ih =>
    rcases each x List.mem_cons_self with ⟨y, ok, good⟩ | ⟨h, failed, sort⟩
    · rcases ih fun x member => each x (List.mem_cons_of_mem _ member) with ⟨ys, rest, length, all⟩ | ⟨h, failed, sort⟩
      · refine .inl ⟨y :: ys, by simp [forEach, ok, rest], by simp [length], fun i z found => ?_⟩
        cases i with
        | zero => cases found; exact ⟨x, rfl, good⟩
        | succ i => exact all i z found
      · exact .inr ⟨h, by simp [forEach, ok, failed], sort⟩
    · exact .inr ⟨h, by simp [forEach, failed], sort⟩

theorem forEachSome {f : α → Result β} {xs : List α} {fine : α → β → Prop}
    (each : ∀ x ∈ xs, ∃ y, f x = .ok y ∧ fine x y) :
    ∃ ys, forEach f xs = .ok ys ∧ ys.length = xs.length ∧
      ∀ (i : Nat) y, ys[i]? = some y → ∃ x, xs[i]? = some x ∧ fine x y := by
  rcases @forEachEither _ _ f xs fine (fun _ => False) fun x member => .inl (each x member) with
    found | ⟨_, _, impossible⟩
  · exact found
  · exact impossible.elim

theorem forEachMember {f : α → Result β} {xs : List α} {ys : List β} (ok : forEach f xs = .ok ys) :
    ∀ y ∈ ys, ∃ x ∈ xs, f x = .ok y := by
  induction xs generalizing ys with
  | nil => cases ok; exact fun y member => (List.not_mem_nil member).elim
  | cons x xs ih =>
    simp only [forEach, bindOk] at ok
    obtain ⟨y, first, rest, later, last⟩ := ok
    cases last
    intro z member
    rcases List.mem_cons.mp member with rfl | inside
    · exact ⟨x, List.mem_cons_self, first⟩
    · obtain ⟨x', place, made⟩ := ih later z inside
      exact ⟨x', List.mem_cons_of_mem x place, made⟩

theorem forEachEvery {f : α → Result β} {xs : List α} {ys : List β} (ok : forEach f xs = .ok ys) :
    ∀ x ∈ xs, ∃ y, f x = .ok y := by
  induction xs generalizing ys with
  | nil => exact fun x member => (List.not_mem_nil member).elim
  | cons x xs ih =>
    simp only [forEach, bindOk] at ok
    obtain ⟨y, first, rest, later, _⟩ := ok
    exact List.forall_mem_cons.mpr ⟨⟨y, first⟩, ih later⟩

theorem forEachAt {f : α → Result β} {xs : List α} {ys : List β} (ok : forEach f xs = .ok ys) :
    ys.length = xs.length ∧ ∀ (i : Nat) y, ys[i]? = some y → ∃ x, xs[i]? = some x ∧ f x = .ok y := by
  obtain ⟨own, found, length, all⟩ := @forEachSome _ _ f xs (fun x y => f x = .ok y) fun x member => by
    obtain ⟨y, made⟩ := forEachEvery ok x member
    exact ⟨y, made, made⟩
  cases ok.symm.trans found
  exact ⟨length, all⟩

theorem forEachRange {f : Nat → Result β} {n : Nat} {ys : List β} (ok : forEach f (List.range n) = .ok ys) :
    ys.length = n ∧ ∀ i y, ys[i]? = some y → f i = .ok y := by
  obtain ⟨count, each⟩ := forEachAt ok
  refine ⟨count.trans List.length_range, fun i y found => ?_⟩
  obtain ⟨m, place, made⟩ := each i y found
  have same := (List.getElem?_eq_some_iff.mp place).2
  rw [List.getElem_range] at same
  rwa [same]

theorem forEachInverse {f : α → Result β} {g : β → α} {xs : List α} {ys : List β}
    (each : ∀ x y, f x = .ok y → g y = x) (ok : forEach f xs = .ok ys) : ys.map g = xs := by
  induction xs generalizing ys with
  | nil => cases ok; rfl
  | cons x xs ih =>
    simp only [forEach, bindOk] at ok
    obtain ⟨y, first, rest, later, last⟩ := ok
    cases last
    rw [List.map_cons, each x y first, ih later]

theorem forEachError {f : Nat → Result β} {start n : Nat} {h : Halt} : forEach f (List.range' start n) = .error h ↔
    ∃ i, start ≤ i ∧ i < start + n ∧ f i = .error h ∧ ∀ j, start ≤ j → j < i → ∃ y, f j = .ok y := by
  induction n generalizing start with
  | zero =>
    constructor
    · intro failed; cases failed
    · rintro ⟨i, low, high, _⟩; omega
  | succ n ih =>
    rw [List.range'_succ, forEach]
    cases first : f start with
    | error own =>
      rw [Result.errorBind]
      constructor
      · intro failed
        cases failed
        exact ⟨start, Nat.le_refl _, by omega, first, fun j low high => by omega⟩
      · rintro ⟨i, low, _, failed, before⟩
        rcases Nat.lt_or_eq_of_le low with later | same
        · obtain ⟨y, fine⟩ := before start (Nat.le_refl _) later
          rw [first] at fine; cases fine
        · rw [same, failed] at first
          cases first
          rfl
    | ok y =>
      have step : forEach f (List.range' (start + 1) n) = .error h ↔
          (do return y :: (← forEach f (List.range' (start + 1) n)) : Result (List β)) = .error h := by
        cases forEach f (List.range' (start + 1) n) <;> simp
      rw [Result.okBind, ← step, ih]
      constructor
      · rintro ⟨i, low, high, failed, before⟩
        refine ⟨i, by omega, by omega, failed, fun j below above => ?_⟩
        rcases Nat.lt_or_eq_of_le below with later | same
        · exact before j later above
        · exact ⟨y, by rw [← same, first]⟩
      · rintro ⟨i, low, high, failed, before⟩
        have later : start ≠ i := fun same => by rw [← same, first] at failed; cases failed
        exact ⟨i, by omega, by omega, failed, fun j below above => before j (by omega) above⟩

inductive Agree (related : α → β → Prop) : Result α → Result β → Prop where
  | error (h : Halt) : Agree related (.error h) (.error h)
  | ok {x : α} {y : β} (results : related x y) : Agree related (.ok x) (.ok y)

theorem Agree.bind {γ : Type} {related : α → β → Prop} {r : Result γ} {f : γ → Result α} {g : γ → Result β}
    (rest : ∀ x, r = .ok x → Agree related (f x) (g x)) : Agree related (r >>= f) (r >>= g) := by
  cases r with
  | error h => exact .error h
  | ok x => exact rest x rfl

theorem Agree.either {related : α → β → Prop} {r : Result α} {s : Result β} (agree : Agree related r s) :
    (∃ h, r = .error h ∧ s = .error h) ∨ ∃ x y, r = .ok x ∧ s = .ok y ∧ related x y := by
  cases agree with
  | error h => exact .inl ⟨h, rfl, rfl⟩
  | ok results => exact .inr ⟨_, _, rfl, rfl, results⟩

theorem Agree.imp {related other : α → β → Prop} {r : Result α} {s : Result β} (agree : Agree related r s)
    (each : ∀ x y, r = .ok x → s = .ok y → related x y → other x y) : Agree other r s := by
  cases agree with
  | error h => exact .error h
  | ok results => exact .ok (each _ _ rfl rfl results)

end Result

theorem collectMapped {α β : Type} {f : α → Option β} {g : β → α} {ys : List β} (own : ∀ y ∈ ys, f (g y) = some y) :
    collect f (ys.map g) = some ys := by
  induction ys with
  | nil => rfl
  | cons y ys ih =>
    simp [collect, own y List.mem_cons_self, ih fun y member => own y (List.mem_cons_of_mem _ member)]

theorem Tensor.same {s t : Tensor} (descriptor : s.descriptor = t.descriptor) (data : s.data = t.data) : s = t := by
  cases s; cases t
  cases descriptor; cases data
  rfl

theorem Tensor.zerosMade {d : Descriptor} {t : Tensor} (made : Tensor.zeros d = .ok t) :
    t.descriptor = d ∧ t.data = Bytes.zeros t.data.length := by
  simp only [zeros, zeros?, Result.bindOk, Result.orFaultOk, Option.bind_eq_some_iff] at made
  obtain ⟨_, _, _, _, n, _, some⟩ := made
  unfold ofBytes? at some
  split at some
  · cases some
    exact ⟨rfl, by simp [Bytes.zeros]⟩
  · cases some

theorem Tensor.zerosDescribed {ds : List Descriptor} {ts : List Tensor} (ok : Result.forEach Tensor.zeros ds = .ok ts) :
    ts.map Tensor.descriptor = ds := Result.forEachInverse (fun _ _ made => (zerosMade made).1) ok

def Tensor.replaced (t : Tensor) (data : Bytes) (size : data.length = t.data.length) : Tensor :=
  ⟨t.descriptor, data, by rw [size]; exact t.fits⟩

namespace Run

section
variable {α β State : Type}

theorem bindOk {x : ExceptT Halt (StateM State) α} {f : α → ExceptT Halt (StateM State) β} {s t : State} {a : α}
    (first : x.run s = (Except.ok a, t)) : (x >>= f).run s = (f a).run t := by
  change (match x.run s with | (e, t) => (ExceptT.bindCont f e).run t) = _
  rw [first]
  rfl

theorem bindError {x : ExceptT Halt (StateM State) α} {f : α → ExceptT Halt (StateM State) β} {s t : State} {h : Halt}
    (first : x.run s = (Except.error h, t)) : (x >>= f).run s = (Except.error h, t) := by
  change (match x.run s with | (e, t) => (ExceptT.bindCont f e).run t) = _
  rw [first]
  rfl

theorem runLift (r : Result α) (s : State) : (liftExcept r : ExceptT Halt (StateM State) α).run s = (r, s) := by
  cases r <;> rfl

end

variable {α : Type}

theorem runOfResult (r : Result α) (s : List Tensor) : (ofResult r).run s = (r, s) := runLift r s

theorem runCheck {plan : ExecutionPlan} {inputs outputs : List Tensor}
    (given : inputs.map Tensor.descriptor = plan.inputs) (ready : outputs.map Tensor.descriptor = plan.outputs) :
    (check plan inputs).run outputs = (Except.ok (), outputs) := by
  have first : (ofResult (.ensure (inputs.map Tensor.descriptor == plan.inputs)
      (.inputsDiffer (inputs.map Tensor.descriptor) plan.inputs))).run outputs = (Except.ok (), outputs) := by
    rw [runOfResult, given]; simp [Result.ensure]
  rw [check, bindOk first]
  change (ofResult _).run outputs = _
  rw [runOfResult, ready]; simp [Result.ensure]

theorem runInput {inputs outputs : List Tensor} {i : Nat} {t : Tensor} (found : inputs[i]? = some t) :
    (input inputs i).run outputs = (Except.ok t, outputs) := by
  rw [input, runOfResult, found]; rfl

theorem runUpdate {outputs : List Tensor} {i : Nat} {t new : Tensor} {f : Tensor → Result Tensor}
    (found : outputs[i]? = some t) (made : f t = .ok new) :
    (update i f).run outputs = (Except.ok (), outputs.set i new) := by
  have first : (ofResult (.orFault outputs[i]?)).run outputs = (Except.ok t, outputs) := by
    rw [runOfResult, found]; rfl
  have second : (ofResult (f t)).run outputs = (Except.ok new, outputs) := by rw [runOfResult, made]
  change ((ofResult (.orFault outputs[i]?) >>= fun t => ofResult (f t) >>= fun new =>
    set (outputs.set i new) : Run Unit)).run outputs = _
  rw [bindOk first, bindOk second]
  rfl

theorem runOverwrite {outputs : List Tensor} {i : Nat} {t : Tensor} {f : Bytes → Result Bytes} {data : Bytes}
    (found : outputs[i]? = some t) (made : f t.data = .ok data) (size : data.length = t.data.length) :
    (overwrite i f).run outputs = (Except.ok (), outputs.set i (t.replaced data size)) := by
  apply runUpdate found
  have fits : t.descriptor.byteSize? = some data.length := by rw [size]; exact t.fits
  simp [made, Tensor.withData?, Tensor.ofBytes?, fits, Tensor.replaced]

theorem checkRefuses {plan : ExecutionPlan} {inputs : List Tensor} (differ : inputs.map Tensor.descriptor ≠ plan.inputs)
    (outputs : List Tensor) : (check plan inputs).run outputs =
      (Except.error (.error (.inputsDiffer (inputs.map Tensor.descriptor) plan.inputs)), outputs) := by
  rw [check]
  apply bindError
  rw [runOfResult]
  simp only [Result.ensure, beq_eq_false_iff_ne.mpr differ, Bool.false_eq_true, if_false]
  rfl

theorem checkSettled (plan : ExecutionPlan) (inputs outputs : List Tensor) :
    (inputs.map Tensor.descriptor = plan.inputs ∧ outputs.map Tensor.descriptor = plan.outputs) ∨
      ∃ e, (check plan inputs).run outputs = (Except.error (.error e), outputs) := by
  by_cases given : inputs.map Tensor.descriptor = plan.inputs
  · by_cases ready : outputs.map Tensor.descriptor = plan.outputs
    · exact .inl ⟨given, ready⟩
    · right
      have first : (ofResult (.ensure (inputs.map Tensor.descriptor == plan.inputs)
          (.inputsDiffer (inputs.map Tensor.descriptor) plan.inputs))).run outputs = (Except.ok (), outputs) := by
        rw [runOfResult, given]; simp [Result.ensure]
      refine ⟨.outputsDiffer (outputs.map Tensor.descriptor) plan.outputs, ?_⟩
      rw [check, bindOk first]
      change (ofResult _).run outputs = _
      rw [runOfResult]
      simp only [Result.ensure, beq_eq_false_iff_ne.mpr ready, Bool.false_eq_true, if_false]
      rfl
  · exact .inr ⟨_, checkRefuses given outputs⟩

theorem checkedAlike {plan plan' : ExecutionPlan} {given outputs : List Tensor} {rest rest' : Unit → Run Unit}
    (takes : plan'.inputs = plan.inputs) (makes : plan'.outputs = plan.outputs)
    (writes : given.map Tensor.descriptor = plan.inputs → outputs.map Tensor.descriptor = plan.outputs → ∃ written,
      (check plan given >>= rest).run outputs = (Except.ok (), written) ∧
        (check plan' given >>= rest').run outputs = (Except.ok (), written)) :
    (check plan given >>= rest).run outputs = (check plan' given >>= rest').run outputs ∧
      (given.map Tensor.descriptor = plan.inputs → outputs.map Tensor.descriptor = plan.outputs →
        ((check plan given >>= rest).run outputs).1 = .ok ()) := by
  refine ⟨?_, fun same ready => ?_⟩
  · obtain ⟨same, ready⟩ | ⟨e, stopped⟩ := checkSettled plan given outputs
    · obtain ⟨written, first, second⟩ := writes same ready
      rw [first, second]
    · have stopped' : (check plan' given).run outputs = (Except.error (.error e), outputs) := by
        rw [← stopped, check, check, takes, makes]
      rw [bindError stopped, bindError stopped']
  · obtain ⟨written, first, _⟩ := writes same ready
    rw [first]

end Run

theorem Tensor.single {outputs : List Tensor} {d : Descriptor} (described : outputs.map Tensor.descriptor = [d]) :
    ∃ t, outputs = [t] ∧ t.descriptor = d := by
  match outputs, described with
  | [t], described => exact ⟨t, rfl, by simpa using described⟩

theorem Tensor.triple {outputs : List Tensor} {a b c : Descriptor} (described : outputs.map Tensor.descriptor = [a, b, c]) :
    ∃ r s t, outputs = [r, s, t] ∧ r.descriptor = a ∧ s.descriptor = b ∧ t.descriptor = c := by
  match outputs, described with
  | [r, s, t], described => exact ⟨r, s, t, rfl, by simpa using described⟩

namespace Run

def Leaves (run : Run Unit) (ds : List Descriptor) (written : List Tensor) : Prop :=
  ∀ outputs, outputs.map Tensor.descriptor = ds → run.run outputs = (Except.ok (), written)

def Stops (run : Run Unit) (ds : List Descriptor) (h : Halt) : Prop :=
  ∀ outputs, outputs.map Tensor.descriptor = ds → run.run outputs = (Except.error h, outputs)

section
variable {d : Descriptor} {data : Bytes} (size : d.byteSize? = some data.length)

theorem overwriteLeaves {f : Bytes → Result Bytes} (made : ∀ bytes, bytes.length = data.length → f bytes = .ok data) :
    Leaves (overwrite 0 f) [d] [⟨d, data, size⟩] := by
  intro outputs ready
  obtain ⟨target, rfl, rfl⟩ := Tensor.single ready
  have room := Option.some.inj (target.fits.symm.trans size)
  exact @runOverwrite [target] 0 target f data rfl (made target.data room) room.symm

theorem transformLeaves {plan : ExecutionPlan} {inputs : List Tensor} {source : Tensor} {f : Bytes → Bytes → Result Bytes}
    (given : inputs.map Tensor.descriptor = plan.inputs) (makes : plan.outputs = [d]) (found : inputs[0]? = some source)
    (made : ∀ bytes, bytes.length = data.length → f source.data bytes = .ok data) :
    Leaves (do
        check plan inputs
        let source ← input inputs 0
        overwrite 0 (f source.data)) [d] [⟨d, data, size⟩] := by
  intro outputs ready
  rw [bindOk (runCheck given (ready.trans makes.symm)), bindOk (runInput found)]
  exact overwriteLeaves size made outputs ready

end

end Run
end TensorPlan
