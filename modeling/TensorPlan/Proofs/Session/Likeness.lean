import TensorPlan.Proofs.Dispatch.Likeness
import TensorPlan.Session.Executor
/-! Executors alike. Two executors of one node whose kernels are alike have the same results, and an executor has the same
results under all schedules, except that gathering may report another invalid parent. -/
namespace TensorPlan.NodeExecutor
variable {name : String} {attributes : Attributes} {s s' : Selection} {expected : List Slot} {threads threads' : Nat}
  {inputs : List Tensor} {turns turns' : Schedule}

theorem executeFirst : ((create name attributes s expected threads).execute turns inputs).1 = (do
    (create name attributes s expected threads).runPlan turns
      (← (create name attributes s expected threads).newPlan inputs) inputs) := by
  have none : (create name attributes s expected threads).plan.filter (fun p => p.isReusableFor inputs) = none := rfl
  rw [execute, prepare, none]
  cases (create name attributes s expected threads).newPlan inputs <;> rfl

theorem checkOutputsSame {plan plan' : ExecutionPlan} (outputs : plan.outputs = plan'.outputs)
    (counted : s.kernel.name = s'.kernel.name ∨ expected.length = plan.outputs.length) :
    (create name attributes s expected threads).checkOutputs plan =
      (create name attributes s' expected threads').checkOutputs plan' := by
  rcases counted with named | counted
  · simp only [checkOutputs, create, kernel, outputs, named]
  · simp only [checkOutputs, create, ← outputs, counted, beq_self_eq_true, Bool.or_true, Result.ensure, if_true]

theorem runPlanSame {apart : Prop} {plan plan' : ExecutionPlan} (outputs : plan.outputs = plan'.outputs)
    (runs : ∀ outputs, outputs.map Tensor.descriptor = plan.outputs →
      (s.kernel.execute turns plan inputs).run outputs = (s'.kernel.execute turns' plan' inputs).run outputs ∨
        apart ∧ GatherTreePlan.BothStray ((s.kernel.execute turns plan inputs).run outputs).1
          ((s'.kernel.execute turns' plan' inputs).run outputs).1) :
    (create name attributes s expected threads).runPlan turns plan inputs =
        (create name attributes s' expected threads').runPlan turns' plan' inputs ∨
      apart ∧ GatherTreePlan.BothStray ((create name attributes s expected threads).runPlan turns plan inputs)
        ((create name attributes s' expected threads').runPlan turns' plan' inputs) := by
  unfold runPlan
  rw [← outputs]
  cases zeros : Result.forEach Tensor.zeros plan.outputs with
  | error h => exact .inl rfl
  | ok fresh =>
    have ran := runs fresh (Tensor.zerosDescribed zeros)
    simp only [Result.okBind, create, kernel]
    generalize (s.kernel.execute turns plan inputs).run fresh = first at ran
    generalize (s'.kernel.execute turns' plan' inputs).run fresh = second at ran
    obtain same | ⟨allowed, p, h, h', fails, fails', invalid, invalid'⟩ := ran
    · exact .inl (by rw [same])
    · obtain ⟨_, _⟩ := first
      obtain ⟨_, _⟩ := second
      cases fails
      cases fails'
      exact .inr ⟨allowed, p, h, h', rfl, rfl, invalid, invalid'⟩

theorem executeAlike
    (alike : s.kernel.Alike s'.kernel attributes inputs (.ofThreads threads s.config) (.ofThreads threads' s'.config))
    (counted : s.kernel.name = s'.kernel.name ∨ ∀ plan,
      s.kernel.plan attributes inputs (.ofThreads threads s.config) = .ok plan → expected.length = plan.outputs.length)
    (turns turns' : Schedule) :
    ((create name attributes s expected threads).execute turns inputs).1 =
        ((create name attributes s' expected threads').execute turns' inputs).1 ∨
      attributes.Apart (.ofThreads threads s.config) (.ofThreads threads' s'.config) turns turns' ∧
        GatherTreePlan.BothStray ((create name attributes s expected threads).execute turns inputs).1
          ((create name attributes s' expected threads').execute turns' inputs).1 := by
  rw [executeFirst, executeFirst]
  rcases alike with ⟨h, failed, failed'⟩ | ⟨plan, plan', made, made', outputs, runs⟩
  · simp only [newPlan, create, kernel, failed, failed', Result.errorBind, true_or]
  · have checks := @checkOutputsSame name attributes s s' expected threads threads' plan plan' outputs
      (counted.imp_right fun each => each plan made)
    have same := @runPlanSame name attributes s s' expected threads threads' inputs turns turns' _ plan plan' outputs
      (runs turns turns')
    have fresh : (create name attributes s expected threads).newPlan inputs = (do
        (create name attributes s expected threads).checkOutputs plan
        return plan) := by
      change (s.kernel.plan attributes inputs (.ofThreads threads s.config) >>= _ : Result ExecutionPlan) = _
      rw [made, Result.okBind]
    have fresh' : (create name attributes s' expected threads').newPlan inputs = (do
        (create name attributes s expected threads).checkOutputs plan
        return plan') := by
      change (s'.kernel.plan attributes inputs (.ofThreads threads' s'.config) >>= _ : Result ExecutionPlan) = _
      rw [made', Result.okBind, ← checks]
    rw [fresh, fresh']
    cases (create name attributes s expected threads).checkOutputs plan with
    | error h => exact .inl rfl
    | ok _ => exact same

end TensorPlan.NodeExecutor
