import TensorPlan.Layout.Index
/-! Work partitions: consecutive spans of work items, one for each worker that has work. The first
workers get one item more than the others. -/
namespace TensorPlan

structure Span where
  start : Nat
  stop : Nat
  deriving DecidableEq, Repr

namespace Span

def length (s : Span) : Nat := s.stop - s.start

def isEmpty (s : Span) : Bool := decide (s.stop ≤ s.start)

def items (s : Span) : List Nat := List.range' s.start s.length

def share (n team worker : Nat) : Span :=
  if team ≤ 1 ∨ n = 0 then if worker = 0 then ⟨0, n⟩ else ⟨n, n⟩
  else
    let larger := blocksFor n team
    let smaller := larger - 1
    let favoured := n - smaller * team
    let start :=
      if worker ≤ favoured then worker * larger else favoured * larger + (worker - favoured) * smaller
    ⟨start, start + if worker < favoured then larger else smaller⟩

end Span

structure Partition where
  work : Nat
  spans : List Span
  deriving DecidableEq, Repr

namespace Partition

def ofTeam (work team : Nat) : Partition :=
  let team := min (max team 1) (max work 1)
  ⟨work, ((List.range team).map (Span.share work team)).filter fun s => !s.isEmpty⟩

def single (work : Nat) : Partition := ofTeam work 1

def items (p : Partition) : List Nat := p.spans.flatMap Span.items

end Partition

structure PlanContext where
  threads : Nat
  config : Nat
  deriving DecidableEq, Repr

namespace PlanContext

def ofThreads (threads config : Nat) : PlanContext := ⟨max threads 1, config⟩

def team (c : PlanContext) : Nat := c.threads * (c.config + 1)

end PlanContext
end TensorPlan
