import TensorPlan.Dispatch.Builtin
import TensorPlan.Element.UpperWord
import TensorPlan.Proofs.GatherTree.Integers
import TensorPlan.Proofs.Pad.Continuation
/-! Integers that kernels carry as doubles: the step ids and the end token of a gathering, and the pad value. What comes out
is what the type carries them to, which is exact for all types but the one of 64 bits. -/
namespace TensorPlan
open Index (Within)
open Binary (spacing)

section
variable [Widths]

namespace PadAttributes
variable {a : PadAttributes} {inputs given : List Tensor} {context : PlanContext} {plan : ExecutionPlan} {scalar : Tensor}
  {k : BuiltinKernel}

inductive ValueFrom (scalar : Tensor) (a : PadAttributes) (inputs : List Tensor) : Prop where
  | input (unset : a.value = none) (there : inputs[3]? = some scalar)
  | constant (n : Node) (made : ofNode n = .ok a) (unset : n.float? "pad_value" = .ok none)
      (there : n.constant? 3 = some scalar)

omit [Widths] in
theorem singleOk {vs : List Double} {v : Double} : singleValue vs = .ok v ↔ vs = [v] := by
  unfold singleValue
  split
  · simp
  · rename_i several
    exact ⟨fun ok => (Result.failNotOk ok).elim, fun same => (several v same).elim⟩

theorem ofNodeValue {n : Node} (made : ofNode n = .ok a) (unset : n.float? "pad_value" = .ok none)
    (there : n.constant? 3 = some scalar) : ∃ v, a.value = some v ∧ scalar.doubles = [v] := by
  have several : ¬ n.inputs.length ≤ 3 := fun few => by
    rw [Node.constant?, List.getElem?_eq_none few] at there
    cases there
  simp only [ofNode, Result.bindOk] at made
  obtain ⟨_, _, _, _, _, _, value, found, last⟩ := made
  cases last
  simp only [valueOfNode, unset, Result.okBind, if_neg several, there, Result.bindOk] at found
  obtain ⟨v, single, last⟩ := found
  cases last
  exact ⟨v, rfl, singleOk.mp single⟩

theorem ValueFrom.resolved {r : PadRequest} (value : ValueFrom scalar a inputs)
    (request : PadRequest.ofInputs a inputs = .ok r) : scalar.doubles = [r.value] := by
  cases value with
  | input unset there =>
    simp only [PadRequest.ofInputs, unset, Result.bindOk] at request
    obtain ⟨_, _, _, _, _, _, _, found, _, single, _, _, _, _, last⟩ := request
    cases last
    cases there.symm.trans (Result.ofOptionOk.mp found)
    exact singleOk.mp single
  | constant n made unset there =>
    obtain ⟨v, own, doubles⟩ := ofNodeValue made unset there
    simp only [PadRequest.ofInputs, own, Result.bindOk] at request
    obtain ⟨_, _, _, _, _, _, _, same, _, _, _, _, last⟩ := request
    cases last
    cases same
    exact doubles

theorem kernelShows (kind : k.kind = .pad) (ok : k.plan (.pad a) inputs context = .ok plan)
    (same : given.map Tensor.descriptor = plan.inputs) : ∃ r source output, PadRequest.ofInputs a inputs = .ok r ∧
      given[0]? = some source ∧ source.descriptor = r.source ∧ plan.outputs = [r.target] ∧
      (∀ s, Run.Leaves (k.execute s plan given) plan.outputs [output]) ∧ r.Shows source output := by
  have shows' : ∀ r, PadRequest.ofInputs a inputs = .ok r →
      given.map Tensor.descriptor = inputs.map Tensor.descriptor → ∃ source output, given[0]? = some source ∧
        source.descriptor = r.source ∧ r.Leaves (inputs.map Tensor.descriptor) a.validity given output ∧ r.Shows source output := by
    intro r request like
    obtain ⟨sound, data, first, described⟩ := PadRequest.ofInputsSound request
    obtain ⟨source, l, m, size, found, sourceLayout, targetLayout, held, leaves⟩ := runsLeave request like a.validity
    obtain ⟨source', _, found', descriptor, _⟩ := Tensor.plannedSource first like
    cases found.symm.trans found'
    have tails := PadRequest.outputTails sound sourceLayout targetLayout held size
    exact ⟨source, _, found, descriptor.trans described, leaves,
      PadRequest.outputShows sound (descriptor.trans described) sourceLayout targetLayout held rfl rfl tails⟩
  cases k with
  | padRows =>
    obtain ⟨r, p, team, request, planned, rfl⟩ := planCases ok
    obtain ⟨source, output, found, described, leaves, shown⟩ := shows' r request same
    exact ⟨r, source, output, request, found, described, rfl, fun _ => leaves.rows p team planned, shown⟩
  | padElements =>
    obtain ⟨r, m, team, request, layout, rfl⟩ := planElementsCases ok
    obtain ⟨source, output, found, described, leaves, shown⟩ := shows' r request same
    exact ⟨r, source, output, request, found, described, rfl, fun _ => leaves.elements m team layout, shown⟩
  | broadcastBlocks | broadcastElements | reorderSpans | reorderElements | matrixNms | gatherTree => cases kind

theorem kernelFills (kind : k.kind = .pad) (mode : a.mode = .constant) (ok : k.plan (.pad a) inputs context = .ok plan)
    (same : given.map Tensor.descriptor = plan.inputs) (value : ValueFrom scalar a inputs) {data : Tensor} {v low high : Int}
    (first : inputs[0]? = some data) (type : scalar.type = data.type) (range : data.type.integerRange? = some (low, high))
    (own : scalar.integers? = some [v]) : ∃ r output, PadRequest.ofInputs a inputs = .ok r ∧
      (∀ s, Run.Leaves (k.execute s plan given) plan.outputs [output]) ∧ output.descriptor = r.target ∧
      ∀ coords, Within coords r.target.dims → ¬ PadRequest.Inside data.dims (PadRequest.fromSource coords r.before) →
        output.integer? coords = some (data.type.carried v) := by
  obtain ⟨r, source, output, request, _, _, _, leaves, shows'⟩ := kernelShows kind ok same
  obtain ⟨data', found, described, attributes, _, _, _, target, _⟩ := PadRequest.ofInputsParts request
  cases first.symm.trans found
  have double := value.resolved request
  obtain ⟨vs, integers, doubles, bounds⟩ := scalar.integersDoubles (by rw [type]; exact range)
  cases own.symm.trans integers
  obtain ⟨above, below⟩ := bounds v (List.mem_singleton_self v)
  rw [double] at doubles
  refine ⟨r, output, request, leaves, shows'.described, fun coords within outside => ?_⟩
  have sourceType : r.source.type = data.type := congrArg Descriptor.type described.symm
  have outType : output.type = data.type := by rw [Tensor.type, shows'.described, target]; exact sourceType
  have encodes := ElementType.ofIntEncodes range above below
  have shown := shows'.border coords within (by rw [← described]; exact outside) (.inl (attributes.trans mode))
  rw [List.cons.inj doubles |>.1, sourceType, ← encodes.double] at shown
  rw [Tensor.integer?, shown, Option.bind_some, outType]
  exact encodes.carried.read

end PadAttributes

namespace BuiltinKernel
open GatherTree (Astray Gathers)
open PadAttributes (ValueFrom)

structure Carries (t : ElementType) (carry : Int → Int) : Prop where
  gathers : ∀ inputs given context plan, gatherTree.plan .gatherTree inputs context = .ok plan →
    given.map Tensor.descriptor = plan.inputs → ∃ p steps parents lengths endToken,
      given = [steps, parents, lengths, endToken] ∧ steps.descriptor = .plain [p.steps, p.batches, p.beams] p.type ∧
      (steps.type = t → endToken.type = t → ∃ token, endToken.integers? = some [token] ∧
        ∀ s outputs, outputs.map Tensor.descriptor = plan.outputs →
          (∃ e, (gatherTree.execute s plan given).run outputs = (.error (.error e), outputs) ∧ Astray p parents lengths) ∨
          ∃ output, (gatherTree.execute s plan given).run outputs = (.ok (), [output]) ∧
            Gathers carry p steps parents lengths token output)
  fills : ∀ (k : BuiltinKernel) a inputs given context plan scalar data v, k.kind = .pad → a.mode = .constant →
    k.plan (.pad a) inputs context = .ok plan → given.map Tensor.descriptor = plan.inputs → ValueFrom scalar a inputs →
    inputs[0]? = some data → data.type = t → scalar.type = t → scalar.integers? = some [v] →
    ∃ r output, PadRequest.ofInputs a inputs = .ok r ∧ (∀ s, Run.Leaves (k.execute s plan given) plan.outputs [output]) ∧
      output.descriptor = r.target ∧ ∀ coords, Within coords r.target.dims →
        ¬ PadRequest.Inside data.dims (PadRequest.fromSource coords r.before) → output.integer? coords = some (carry v)

theorem carries {t : ElementType} {low high : Int} (range : t.integerRange? = some (low, high)) : Carries t t.carried := by
  constructor
  · intro inputs given context plan ok same
    obtain ⟨p, steps, parents, lengths, endToken, own, described, runs⟩ := GatherTree.runGathers ok same
    refine ⟨p, steps, parents, lengths, endToken, own, described, fun type alike => ?_⟩
    have type' : p.type = t := by
      rw [← type, Tensor.type, described]
      rfl
    subst type'
    obtain ⟨token, integers, _, outcome⟩ := runs low high range alike
    exact ⟨token, integers, outcome⟩
  · rintro k a inputs given context plan scalar data v kind mode ok same value first rfl type own
    exact PadAttributes.kernelFills kind mode ok same value first type range own

theorem Carries.exact {t : ElementType} {carry : Int → Int} {low high : Int} (carries : Carries t carry)
    (range : t.integerRange? = some (low, high)) (same : ∀ v, low ≤ v → v ≤ high → carry v = v) : Carries t id := by
  have kept : ∀ {scalar : Tensor} {v : Int}, scalar.type = t → scalar.integers? = some [v] → carry v = v := by
    rintro scalar v rfl own
    obtain ⟨_, integers, _, bounds⟩ := scalar.integersDoubles range
    cases own.symm.trans integers
    have inside := bounds v (List.mem_singleton_self v)
    exact same v inside.1 inside.2
  constructor
  · intro inputs given context plan ok alike
    obtain ⟨p, steps, parents, lengths, endToken, own, described, runs⟩ := carries.gathers inputs given context plan ok alike
    refine ⟨p, steps, parents, lengths, endToken, own, described, fun type type' => ?_⟩
    obtain ⟨token, integers, outcome⟩ := runs type type'
    refine ⟨token, integers, fun s outputs ready => (outcome s outputs ready).imp_right ?_⟩
    rintro ⟨output, ran, gathers⟩
    refine ⟨output, ran, gathers.exact (fun coords v found => ?_) (kept type' integers)⟩
    have inside := Tensor.integerInside (by rw [type]; exact range) found
    exact same v inside.1 inside.2
  · intro k a inputs given context plan scalar data v kind mode ok alike value first type type' own
    have fills := carries.fills k a inputs given context plan scalar data v kind mode ok alike value first type type' own
    rwa [kept type' own] at fills

/-- Integers of every type but the one of 64 bits are moved exactly. One of 64 bits is exact if the spacing of the doubles of
its size divides it or if it is the greatest. Any other comes out as the nearest multiple, and a column ends at the first
id that comes out as the end token does. -/
theorem integersCarried (t : ElementType) (low high : Int) (range : t.integerRange? = some (low, high)) :
    Carries t t.carried ∧ (t ≠ .i64 → Carries t id) ∧
      (∀ v, low ≤ v → v ≤ high → (t.carried v = v ↔ (spacing v.natAbs : Int) ∣ v ∨ v = high)) ∧
      ∀ p steps parents lengths token output, Gathers t.carried p steps parents lengths token output →
        (∀ coords v, steps.integer? coords = some v → t.carried v = v) → t.carried token = token →
        Gathers id p steps parents lengths token output :=
  ⟨carries range, fun narrow => (carries range).exact range fun _ above below => ElementType.carriedNarrow range above below narrow,
    fun _ above below => ElementType.carriedExact range above below, fun _ _ _ _ _ _ gathers => gathers.exact⟩

end BuiltinKernel
end

namespace BuiltinKernel
open GatherTree (Astray Gathers)
open PadAttributes (ValueFrom)

theorem integersCarriedOfGreatest :
    let line : Tensor := ⟨.plain [1] .i64, Bytes.ofInt 8 7, rfl⟩
    let scalar : Tensor := ⟨.plain [] .i64, Bytes.ofInt 8 9223372036854775807, rfl⟩
    let a : PadAttributes := ⟨.constant, some [1], some [0], none⟩
    ∃ plan output, padElements.plan (.pad a) [line, line, line, scalar] ⟨1, 0⟩ = .ok plan ∧
      (∀ s, Run.Leaves (padElements.execute s plan [line, line, line, scalar]) plan.outputs [output]) ∧
      output.integer? [0] = some 9223372036854775807 := by
  intro line scalar a
  have request : PadRequest.ofInputs a [line, line, line, scalar] = .ok ⟨.constant, [1], [0], .ofInt .double 9223372036854775807,
      line.descriptor, .plain [2] .i64⟩ := by decide +kernel
  obtain ⟨m, _, planned⟩ := PadAttributes.planElementsOk request ⟨1, 0⟩
  have integers : scalar.integers? = some [9223372036854775807] := by decide +kernel
  obtain ⟨carries, _, exact, _⟩ := integersCarried .i64 _ _ rfl
  obtain ⟨r', output, request', leaves, _, border⟩ := carries.fills padElements a _ _ _ _ scalar line _ rfl rfl planned rfl
    (.input rfl rfl) rfl rfl rfl integers
  cases request.symm.trans request'
  have shown := border [0] (.cons (by decide) .nil) (by decide)
  rw [(exact 9223372036854775807 (by decide) (by decide)).mpr (.inr rfl)] at shown
  exact ⟨_, output, planned, leaves, shown⟩

/-- The first step id is taken for the end token, which is one less. -/
theorem integersMerged :
    let steps : Tensor := ⟨.plain [2, 1, 1] .i64, [9007199254740993, 5].flatMap (Bytes.ofInt 8), rfl⟩
    let parents : Tensor := ⟨.plain [2, 1, 1] .i64, [0, 0].flatMap (Bytes.ofInt 8), rfl⟩
    let lengths : Tensor := ⟨.plain [1] .i64, Bytes.ofInt 8 2, rfl⟩
    let endToken : Tensor := ⟨.plain [] .i64, Bytes.ofInt 8 9007199254740992, rfl⟩
    let before : Tensor := ⟨.plain [2, 1, 1] .i64, Bytes.zeros 16, rfl⟩
    ∃ plan output, gatherTree.plan .gatherTree [steps, parents, lengths, endToken] ⟨1, 0⟩ = .ok plan ∧
      (gatherTree.execute .inOrder plan [steps, parents, lengths, endToken]).run [before] = (.ok (), [output]) ∧
      output.integers? = some [9007199254740992, 9007199254740992] ∧ ¬ Carries .i64 id := by
  intro steps parents lengths endToken before
  obtain ⟨plan, planned⟩ : ∃ plan, gatherTree.plan .gatherTree [steps, parents, lengths, endToken] ⟨1, 0⟩ = .ok plan := ⟨_, rfl⟩
  have same : [steps, parents, lengths, endToken].map Tensor.descriptor = plan.inputs := by cases planned; rfl
  have ready : [before].map Tensor.descriptor = plan.outputs := by cases planned; rfl
  have done : ((gatherTree.execute .inOrder plan [steps, parents, lengths, endToken]).run [before]).1 = .ok () := by
    cases planned
    decide +kernel
  have left : ((gatherTree.execute .inOrder plan [steps, parents, lengths, endToken]).run [before]).2.map (Tensor.integer? · [0, 0, 0]) =
      [some 9007199254740992] := by
    cases planned
    decide +kernel
  have whole : ((gatherTree.execute .inOrder plan [steps, parents, lengths, endToken]).run [before]).2.map Tensor.integers? =
      [some [9007199254740992, 9007199254740992]] := by
    cases planned
    decide +kernel
  obtain ⟨output, ran, first, integers⟩ : ∃ output,
      (gatherTree.execute .inOrder plan [steps, parents, lengths, endToken]).run [before] = (.ok (), [output]) ∧
        output.integer? [0, 0, 0] = some 9007199254740992 ∧
        output.integers? = some [9007199254740992, 9007199254740992] := by
    generalize (gatherTree.execute .inOrder plan [steps, parents, lengths, endToken]).run [before] = ran at *
    obtain ⟨result, outputs⟩ := ran
    obtain ⟨output, rfl, first⟩ := List.map_eq_singleton_iff.mp left
    cases done
    exact ⟨output, rfl, first, List.head_eq_of_cons_eq whole⟩
  refine ⟨plan, output, planned, ran, integers, fun carries => ?_⟩
  obtain ⟨p, _, _, _, _, own, described, runs⟩ := carries.gathers _ _ _ plan planned same
  cases own
  obtain ⟨token, value, outcome⟩ := runs rfl rfl
  have tokenIs : endToken.integers? = some [9007199254740992] := by decide +kernel
  cases value.symm.trans tokenIs
  obtain ⟨e, failed, _⟩ | ⟨output', ran', gathers⟩ := outcome .inOrder [before] ready
  · cases ran.symm.trans failed
  · cases ran.symm.trans ran'
    obtain ⟨_, _, _, _⟩ := p
    cases described
    obtain ⟨length, v, read, holds, shown⟩ := gathers.integer 0 0 0 (by decide) (by decide) (by decide)
    have two : lengths.double? [0] = some (Binary.ofInt .double 2) := by decide +kernel
    cases two.symm.trans read
    have own : steps.integer? [0, 0, 0] = some 9007199254740993 := by decide +kernel
    have only : ∀ place v length, GatherTree.Visits 1 parents 0 0 length 0 place → steps.integer? [0, 0, place] = some v →
        v = 9007199254740993 := by
      rintro place v length visits found
      cases Nat.lt_one_iff.mp (visits.within Nat.zero_lt_one)
      exact Option.some.inj (found.symm.trans own)
    have value := Option.some.inj (shown.symm.trans first)
    have running : ¬ GatherTree.EndedAt id 1 steps parents 9007199254740992 0 0 2 0 := by
      rintro ⟨_, earliest, place, v, visits, found, same⟩
      cases Nat.le_zero.mp earliest
      cases only place v _ visits found
      exact absurd same (by decide)
    have levels : (⟨2, 1, 1, .i64⟩ : GatherTreePlan).levels (Binary.ofInt .double 2) = 2 := by decide +kernel
    rw [levels] at holds
    cases holds with
    | step visits found =>
      cases only _ _ _ visits found
      exact absurd value (by decide)
    | done past => exact past.elim (by decide) running

end BuiltinKernel
end TensorPlan
