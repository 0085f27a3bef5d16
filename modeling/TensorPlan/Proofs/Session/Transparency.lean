import TensorPlan.Element.UpperWord
import TensorPlan.Proofs.Dispatch.Selection
import TensorPlan.Proofs.Operator.Slots
import TensorPlan.Proofs.Session.Likeness
import TensorPlan.Proofs.Tails
import TensorPlan.Session.Engine
/-! Transparent engines. Options, cache, device and shape mode decide which kernel a compiled node is bound to, and the
binding has no influence on its results: on inputs that fit the slots of the node it runs as the fallback does, up to
which of several invalid parents is reported. -/
namespace TensorPlan

theorem BuiltinKernel.onlyReference {k : BuiltinKernel} {a : Attributes} (own : k.kind = a.kind) (several : ¬ a.Single) :
    k = reference a.kind := by
  cases a with
  | gatherTree => cases k <;> first | rfl | cases own
  | matrixNms a => cases k <;> first | rfl | cases own
  | pad a => exact absurd (.inl rfl) several
  | broadcast a => exact absurd (.inr (.inl rfl)) several
  | reorder a => exact absurd (.inr (.inr rfl)) several

namespace Engine

section
variable [Widths]

theorem createCases {shared : Nat} {options : EngineOptions} {kernels : KernelRegistry} {file : File} {e : Engine}
    (ok : create shared options kernels file = .ok e) : e.operators = .standard ∧ e.kernels = kernels ∧ e.options = options ∧
      (options.cachePath = none → e.cache = none) := by
  unfold create at ok
  split at ok
  · rename_i path
    obtain ⟨_, _, last⟩ := Result.bindOk.mp ok
    cases last
    exact ⟨rfl, rfl, rfl, fun alone => absurd (path.symm.trans alone) (Option.some_ne_none _)⟩
  · cases ok
    exact ⟨rfl, rfl, rfl, fun _ => rfl⟩

theorem createSome {options : EngineOptions} (alone : options.cachePath = none) (shared : Nat) (kernels : KernelRegistry)
    (file : File) : ∃ e, create shared options kernels file = .ok e := by
  rw [create, alone]
  exact ⟨_, rfl⟩

omit [Widths] in
theorem compileCases {e next : Engine} {n : Node} {device : Device} {executor : NodeExecutor}
    (ok : e.compile n device = (.ok executor, next)) : ∃ attributes expected selection,
      e.operators.create n = .ok attributes ∧ attributes.slots n.inputs = .ok expected ∧
      (e.selector.select e.cache ⟨attributes, n.inputs, expected⟩ device).1 = .ok selection ∧
      executor = .create n.name attributes selection expected e.threads := by
  unfold compile at ok
  cases analyzed : e.analyze n with
  | error h => rw [analyzed] at ok; cases ok
  | ok found =>
    obtain ⟨attributes, expected⟩ := found
    rw [analyzed] at ok
    simp only [analyze, Result.bindOk] at analyzed
    obtain ⟨_, created, _, inferred, last⟩ := analyzed
    cases last
    simp only [select, Prod.mk.injEq, Result.mapOk] at ok
    obtain ⟨⟨selection, selected, made⟩, _⟩ := ok
    exact ⟨attributes, expected, selection, created, inferred, selected, made.symm⟩

theorem compileSome {e : Engine} (kernels : e.kernels = .builtin) (allowed : e.options.fallback = true) {n : Node}
    {attributes : Attributes} {expected : List Slot} (analyzed : e.analyze n = .ok (attributes, expected)) (device : Device) :
    ∃ executor next, e.compile n device = (.ok executor, next) := by
  obtain ⟨selection, selected⟩ :=
    @Selector.selectSome e.selector ⟨attributes, n.inputs, expected⟩ device _ kernels allowed e.cache
  rw [compile, analyzed]
  simp only [select, selected]
  exact ⟨_, _, rfl⟩

/-- A compiled node has the results of the fallback of its operator kind. The engine has all operators and kernels that
come with the library, and any options and any cache. Other teams and schedules may report another invalid parent. -/
theorem runTransparent (e : Engine) (operators : e.operators = .standard) (kernels : e.kernels = .builtin) (n : Node)
    (device : Device) (executor : NodeExecutor) (next : Engine) (compiled : e.compile n device = (.ok executor, next))
    (inputs : List Tensor) (fit : List.Forall₂ Slot.Accepts n.inputs inputs) (tails : ∀ t ∈ inputs, t.ZeroTails) :
    ∃ attributes expected fallback, OperatorRegistry.standard.create n = .ok attributes ∧
      OperatorRegistry.standard.infer n = .ok expected ∧
      KernelRegistry.builtin.fallback? attributes.kind = some fallback ∧ ∀ config source threads s s',
        let result := (run executor s inputs).1
        let reference :=
          ((NodeExecutor.create n.name attributes ⟨fallback, config, source⟩ expected threads).execute s' inputs).1
        result = reference ∨
          attributes.Apart (.ofThreads executor.threads executor.selection.config) (.ofThreads threads config) s s' ∧
            GatherTreePlan.BothStray result reference := by
  obtain ⟨attributes, expected, selection, created, inferred, selected, made⟩ := compileCases compiled
  obtain ⟨k, bound, kind, supported, plain⟩ := Selector.builtinEligible kernels (Selector.selectEligible selected)
  rw [operators] at created
  refine ⟨attributes, expected, (BuiltinKernel.reference attributes.kind).kernel, created, ?_,
    KernelRegistry.builtinFallback _, fun config source threads s s' => ?_⟩
  · change (OperatorRegistry.standard.create n >>= fun a => a.slots n.inputs) = _
    rw [created, Result.okBind, inferred]
  · have filled : inputs.isEmpty = false := by
      cases inputs with
      | nil =>
        have none : n.inputs = [] := List.forall₂_nil_right_iff.mp fit
        exact absurd none (Attributes.slotsFilled inferred)
      | cons => rfl
    subst made
    rw [run, filled]
    simp only [Bool.false_eq_true, if_false]
    refine @NodeExecutor.executeAlike n.name attributes selection ⟨_, config, source⟩ expected e.threads threads inputs ?_ ?_ s s'
    · rw [bound]
      exact BuiltinKernel.alikeReference _ _ kind supported plain fit tails
    · by_cases single : attributes.Single
      · right
        intro plan ok
        rw [bound] at ok
        rw [Attributes.slotsSingle single inferred, (BuiltinKernel.planDescriptors ok).2 single]
      · left
        exact congrArg Kernel.name (bound.trans (congrArg BuiltinKernel.kernel (BuiltinKernel.onlyReference kind single)))

end

theorem runTransparentOfGroups :
    let n : Node := ⟨"n", "Pad", [("pads_begin", .ints [0, 8, 0]), ("pads_end", .ints [0, 0, 1])],
      [.ofShape (.ofDims [1, 8, 2]) .u8 .blocked8]⟩
    let t : Tensor := ⟨⟨[1, 8, 2], .u8, .blocked8⟩, [1, 2, 3, 4, 5, 6, 7, 8, 9, 10, 11, 12, 13, 14, 15, 16], rfl⟩
    ∃ e executor next attributes expected fallback, create 1 .unset .builtin .missing = .ok e ∧
      e.compile n (.cpu 1) = (.ok executor, next) ∧ OperatorRegistry.standard.create n = .ok attributes ∧
      OperatorRegistry.standard.infer n = .ok expected ∧
      KernelRegistry.builtin.fallback? attributes.kind = some fallback ∧ ∀ config source threads s s',
        (run executor s [t]).1 =
          ((NodeExecutor.create n.name attributes ⟨fallback, config, source⟩ expected threads).execute s' [t]).1 := by
  intro n t
  obtain ⟨e, created⟩ := @createSome _ .unset rfl 1 .builtin .missing
  obtain ⟨operators, kernels, options, _⟩ := createCases created
  have analyzed : ∃ attributes expected, e.analyze n = .ok (attributes, expected) := by
    rw [analyze, operators]
    exact ⟨_, _, rfl⟩
  obtain ⟨_, _, analyzed⟩ := analyzed
  obtain ⟨executor, next, compiled⟩ := compileSome kernels (by rw [options]; rfl) analyzed (.cpu 1)
  have fits : Slot.Accepts (.ofShape (.ofDims [1, 8, 2]) .u8 .blocked8) t := ⟨rfl, rfl, rfl⟩
  have tails : t.ZeroTails := by
    intro l layout
    cases layout
    decide
  obtain ⟨attributes, expected, fallback, made, inferred, standard, same⟩ := runTransparent e operators kernels n (.cpu 1) executor next compiled [t]
    (.cons fits .nil) fun s member => by rw [List.mem_singleton.mp member]; exact tails
  refine ⟨e, executor, next, attributes, expected, fallback, created, compiled, made, inferred, standard,
    fun config source threads s s' => (same config source threads s s').resolve_right ?_⟩
  rintro ⟨⟨gathers, _⟩, _⟩
  rw [gathers] at made
  cases made

/-- Two beams with invalid parents. The node is compiled for two workers, of which the second reports; the fallback has one. -/
theorem laterParentCompiled :
    let beams : Slot := .ofShape (.ofDims [1, 1, 2]) .i32 .plain
    let n : Node := ⟨"n", "GatherTree", [], [beams, beams, .ofShape (.ofDims [1]) .i32 .plain, .ofShape (.ofDims []) .i32 .plain]⟩
    let inputs : List Tensor := [⟨.plain [1, 1, 2] .i32, Bytes.zeros 8, rfl⟩,
      ⟨.plain [1, 1, 2] .i32, [5, 0, 0, 0, 7, 0, 0, 0], rfl⟩, ⟨.plain [1] .i32, [1, 0, 0, 0], rfl⟩,
      ⟨.plain [] .i32, Bytes.zeros 4, rfl⟩]
    ∃ e executor next attributes expected fallback s, create 1 ⟨2, .useExisting, none, true, true⟩ .builtin .missing = .ok e ∧
      e.compile n (.cpu 1) = (.ok executor, next) ∧ List.Forall₂ Slot.Accepts n.inputs inputs ∧
      (∀ t ∈ inputs, t.ZeroTails) ∧ OperatorRegistry.standard.create n = .ok attributes ∧
      OperatorRegistry.standard.infer n = .ok expected ∧
      KernelRegistry.builtin.fallback? attributes.kind = some fallback ∧
      (run executor s inputs).1 = .error (.error (.parentRange (Binary.ofInt .double 7) 0 0 2)) ∧
      ((NodeExecutor.create n.name attributes ⟨fallback, 0, .fallback⟩ expected 1).execute s inputs).1 =
        .error (.error (.parentRange (Binary.ofInt .double 5) 0 0 2)) := by
  intro beams n inputs
  obtain ⟨e, created⟩ := @createSome _ ⟨2, .useExisting, none, true, true⟩ rfl 1 .builtin .missing
  obtain ⟨operators, kernels, options, alone⟩ := createCases created
  have analyzed : e.analyze n = .ok (.gatherTree, [beams]) := by
    rw [analyze, operators]
    rfl
  obtain ⟨executor, next, compiled⟩ := compileSome kernels (by rw [options]) analyzed (.cpu 1)
  obtain ⟨attributes, expected, ⟨kernel, config, source⟩, made, inferred, selected, rfl⟩ := compileCases compiled
  rw [operators] at made
  have threads : e.threads = 2 := by
    rw [Engine.threads, options]
    rfl
  cases (show OperatorRegistry.standard.create n = .ok .gatherTree by rfl).symm.trans made
  cases (show Attributes.gatherTree.slots n.inputs = .ok [beams] by rfl).symm.trans inferred
  obtain ⟨k, bound, kind, _⟩ := Selector.builtinEligible kernels (Selector.selectEligible selected)
  rw [alone rfl] at selected
  obtain rfl : config = 0 := Selector.selectUncached selected
  obtain rfl : k = .gatherTree := by cases k <;> first | rfl | cases kind
  cases bound
  refine ⟨e, _, next, .gatherTree, [beams], _, ⟨fun _ => 1⟩, created, compiled,
    .cons ⟨rfl, rfl, rfl⟩ (.cons ⟨rfl, rfl, rfl⟩ (.cons ⟨rfl, rfl, rfl⟩ (.cons ⟨rfl, rfl, rfl⟩ .nil))), ?_, rfl, rfl,
    KernelRegistry.builtinFallback _, ?_, ?_⟩
  · intro t member
    refine Tensor.tailsUnblocked ?_
    simp only [inputs, List.mem_cons, List.not_mem_nil, or_false] at member
    rcases member with rfl | rfl | rfl | rfl <;> rfl
  · rw [threads]
    cases source <;> decide +kernel
  · decide +kernel

end Engine
end TensorPlan
