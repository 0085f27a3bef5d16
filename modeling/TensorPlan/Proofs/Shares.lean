import TensorPlan.Proofs.Tiling
/-! Shares of a team. The first workers take one item more than the others, as many of them as the division of the work
leaves over, so with enough work every worker has a share and the shares are even. -/
namespace TensorPlan

namespace Span
variable {n team worker : Nat}

theorem blocksForRemainder (positive : 0 < team) :
    blocksFor n team = n / team + if n % team = 0 then 0 else 1 := by
  have whole := Nat.div_add_mod n team
  have small := Nat.mod_lt n positive
  rw [blocksFor]
  generalize n / team = q at *
  generalize n % team = r at *
  have total : n + team - 1 = team * q + (r + team - 1) := by omega
  rw [total, Nat.mul_add_div positive]
  congr 1
  split
  · exact Nat.div_eq_of_lt (by omega)
  · exact Nat.div_eq_of_lt_le (by omega) (by omega)

theorem boundEven (positive : 0 < team) (inside : worker ≤ team) :
    bound n team worker = worker * (n / team) + min worker (n % team) := by
  have whole := Nat.div_add_mod n team
  have small := Nat.mod_lt n positive
  unfold bound
  rw [blocksForRemainder positive]
  split
  · rename_i few
    rcases few with alone | none
    · have one : team = 1 := by omega
      subst one
      split
      · simp_all
      · have last : worker = 1 := by omega
        simp [last, Nat.mod_one]
    · subst none
      simp
  · rename_i several
    have some : 0 < n := by omega
    generalize n / team = q at *
    generalize n % team = r at *
    rw [Nat.mul_comm] at whole
    by_cases even : r = 0
    · obtain ⟨smaller, rfl⟩ : ∃ smaller, q = smaller + 1 := Nat.exists_eq_succ_of_ne_zero fun none => by
        rw [none, even] at whole; omega
      have favoured : n - smaller * team = team := by rw [Nat.succ_mul] at whole; omega
      simp [even, favoured, inside]
    · have favoured : n - q * team = r := by omega
      simp only [even, if_false, Nat.add_sub_cancel, favoured]
      split
      · rename_i front
        rw [Nat.mul_succ, Nat.min_eq_left front]
      · rename_i behind
        obtain ⟨k, rfl⟩ := Nat.exists_eq_add_of_le (Nat.le_of_not_le behind)
        rw [Nat.add_sub_cancel_left, Nat.mul_succ, Nat.add_mul, Nat.min_eq_right (by omega)]
        omega

theorem shareEven (inside : worker < team) : share n team worker =
    ⟨worker * (n / team) + min worker (n % team), (worker + 1) * (n / team) + min (worker + 1) (n % team)⟩ := by
  have positive : 0 < team := by omega
  rw [shareBounds, boundEven positive (Nat.le_of_lt inside), boundEven positive inside]

theorem shareFilled (inside : worker < team) (enough : team ≤ n) :
    (share n team worker).start < (share n team worker).stop := by
  have one : 1 ≤ n / team := (Nat.one_le_div_iff (by omega)).mpr enough
  rw [shareEven inside]
  dsimp only
  rw [Nat.succ_mul]
  omega

theorem shareLength (inside : worker < team) :
    (share n team worker).length = n / team + if worker < n % team then 1 else 0 := by
  rw [shareEven inside, length]
  dsimp only
  rw [Nat.succ_mul]
  generalize n / team = q
  generalize n % team = r
  split <;> omega

end Span

namespace Partition
variable {n team : Nat}

theorem ofTeamShares (some : 1 ≤ team) (enough : team ≤ n) :
    (ofTeam n team).spans = (List.range team).map (Span.share n team) := by
  have members : min (max team 1) (max n 1) = team := by omega
  change ((List.range _).map (Span.share n _)).filter _ = _
  rw [members, List.filter_eq_self]
  intro s member
  obtain ⟨worker, inside, rfl⟩ := List.mem_map.mp member
  have filled := Span.shareFilled (List.mem_range.mp inside) enough
  simpa [Span.isEmpty] using filled

theorem ofTeamCapped (n team : Nat) : ofTeam n team = ofTeam n (min (max team 1) (max n 1)) := by
  have same : min (max (min (max team 1) (max n 1)) 1) (max n 1) = min (max team 1) (max n 1) := by omega
  simp only [ofTeam, same]

theorem spansSome (some : 0 < n) (team : Nat) : ∃ capped, 1 ≤ capped ∧ capped ≤ n ∧ capped = min (max team 1) n ∧
    (ofTeam n team).spans = (List.range capped).map (Span.share n capped) := by
  have members : min (max team 1) (max n 1) = min (max team 1) n := by omega
  refine ⟨min (max team 1) n, by omega, by omega, rfl, ?_⟩
  rw [ofTeamCapped, members, ofTeamShares (by omega) (by omega)]

theorem numberedAt {α : Type} {f : Nat → α} {i : Nat} {x : α} :
    ((List.range n).map f)[i]? = some x ↔ i < n ∧ f i = x := by
  simp [List.getElem?_eq_some_iff]

theorem spansNone (team : Nat) : (ofTeam 0 team).spans = [] := tilesNone (ofTeamTiles 0 team)

/-- The spans of a partition tile the work in shares that are filled and even, one for each worker that has work. -/
theorem spansBalance (n team : Nat) :
    (ofTeam n team).work = n ∧ (ofTeam n team).spans.length = min (max team 1) n ∧
    (∀ s ∈ (ofTeam n team).spans, s.start < s.stop) ∧
    (0 < n → (ofTeam n team).spans.head?.map Span.start = some 0 ∧ (ofTeam n team).spans.getLast?.map Span.stop = some n) ∧
    (∀ i s t, (ofTeam n team).spans[i]? = some s → (ofTeam n team).spans[i + 1]? = some t → t.start = s.stop) ∧
    (ofTeam n team).spans.Pairwise (fun s t => t.length ≤ s.length ∧ s.length ≤ t.length + 1) ∧
    (1 ≤ team → team ≤ n → (ofTeam n team).spans = (List.range team).map (Span.share n team)) := by
  refine ⟨rfl, ?_⟩
  rcases Nat.eq_zero_or_pos n with rfl | some
  · rw [spansNone]
    simp
  · obtain ⟨capped, one, enough, capping, spans⟩ := spansSome some team
    rw [spans]
    refine ⟨by rw [List.length_map, List.length_range, capping], ?_, fun _ => ⟨?_, ?_⟩, ?_, ?_, ?_⟩
    · intro s member
      obtain ⟨worker, inside, rfl⟩ := List.mem_map.mp member
      exact Span.shareFilled (List.mem_range.mp inside) enough
    · obtain ⟨others, rfl⟩ := Nat.exists_eq_add_of_le' one
      rw [List.range_succ_eq_map, List.map_cons, List.head?_cons, Option.map_some, Span.shareBounds, Span.boundZero]
    · obtain ⟨others, rfl⟩ := Nat.exists_eq_add_of_le' one
      rw [List.range_succ, List.map_append, List.map_singleton, List.getLast?_concat, Option.map_some, Span.shareBounds,
        Span.boundTeam one]
    · intro i s t here next
      rw [numberedAt] at here next
      obtain ⟨-, rfl⟩ := here
      obtain ⟨-, rfl⟩ := next
      rw [Span.shareBounds, Span.shareBounds]
    · rw [List.pairwise_map]
      refine List.Pairwise.imp_of_mem (fun {v w} first second order => ?_) List.pairwise_lt_range
      rw [Span.shareLength (List.mem_range.mp first), Span.shareLength (List.mem_range.mp second)]
      split <;> split <;> omega
    · intro one' enough'
      rw [← spans, ofTeamShares one' enough']

theorem spansBalanceOfRemainder :
    (ofTeam 10 4).spans = [⟨0, 3⟩, ⟨3, 6⟩, ⟨6, 8⟩, ⟨8, 10⟩] ∧ (⟨6, 8⟩ : Span).start < (⟨6, 8⟩ : Span).stop ∧
      (⟨6, 8⟩ : Span).start = (⟨3, 6⟩ : Span).stop ∧ (ofTeam 3 8).spans.length = 3 ∧
      (ofTeam 3 8).spans.head?.map Span.start = some 0 ∧ (ofTeam 3 8).spans.getLast?.map Span.stop = some 3 := by
  obtain ⟨_, _, filled, _, next, _, shares⟩ := spansBalance 10 4
  obtain ⟨_, count, _, ends, _⟩ := spansBalance 3 8
  have first := shares (by decide) (by decide)
  exact ⟨first.trans (by decide), filled ⟨6, 8⟩ (by rw [first]; decide), next 1 ⟨3, 6⟩ ⟨6, 8⟩ (by rw [first]; rfl)
    (by rw [first]; rfl), count, ends (by decide)⟩

end Partition
end TensorPlan
