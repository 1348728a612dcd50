import DisksGraph.Engine.Teardown
import DisksGraph.Engine.Outcome

/-!
# Engine — Replay

Runs of `simulate_action`, and the induction over them.

* `Reached`: the states that a replay passes through, the first and the last one included.
* `reached_of_steps`: what its steps keep holds in every state a replay passes through.
-/

namespace DisksGraph

open Support (except_bind_eq_ok)

/-- A state that a replay passes through. -/
def Reached (projection : Projection) (actions : List ProviderAction) (state : Projection) : Prop :=
  ∃ done rest, actions = done ++ rest ∧ simulateActions projection done = .ok state

section Replay

variable {projection state final : Projection} {action : ProviderAction}
  {actions : List ProviderAction}

/-- Simulating one more action. -/
theorem simulateActions_snoc :
    simulateActions projection (actions ++ [action]) = .ok final ↔
      ∃ before result, simulateActions projection actions = .ok before ∧
        simulateAction before action = .ok (result, final) := by
  rw [simulateActions, List.foldlM_append, except_bind_eq_ok]
  refine exists_congr fun before => ?_
  rw [exists_and_left, List.foldlM_cons]
  refine and_congr_right fun _ => ?_
  cases simulateAction before action with
  | error error => simp [Except.map, Bind.bind, Except.bind]
  | ok outcome => simp [Except.map, Bind.bind, Except.bind, Pure.pure, Except.pure, Prod.ext_iff]

/-- A replay that succeeds takes the step after each of its states. -/
theorem exists_step_of_replay {done rest : List ProviderAction} {before : Projection}
    (hreplay : simulateActions projection (done ++ action :: rest) = .ok final)
    (hbefore : simulateActions projection done = .ok before) :
    ∃ result after, simulateAction before action = .ok (result, after) := by
  rw [← List.singleton_append, ← List.append_assoc, simulateActions, List.foldlM_append,
    except_bind_eq_ok] at hreplay
  obtain ⟨after, hafter, -⟩ := hreplay
  obtain ⟨before', result, hbefore', hstep⟩ := simulateActions_snoc.mp hafter
  obtain rfl := Except.ok.inj (hbefore.symm.trans hbefore')
  exact ⟨result, after, hstep⟩

theorem Reached.start : Reached projection actions projection := ⟨[], actions, rfl, rfl⟩

/-- After a step the next state is reached. -/
theorem ReplayStep.reached_after {before after : Projection}
    (h : ReplayStep projection actions before action after) : Reached projection actions after := by
  obtain ⟨⟨done, rest, hactions, hbefore⟩, result, hafter⟩ := h
  refine ⟨done ++ [action], rest, ?_, simulateActions_snoc.mpr ⟨before, result, hbefore, hafter⟩⟩
  rw [hactions, List.append_assoc, List.singleton_append]

/-- **The induction over a replay.**  What holds at the start and is kept by every step of the
replay holds in every state it passes through. -/
theorem reached_of_steps {P : Projection → Prop} (hstart : P projection)
    (hstep : ∀ before action after, ReplayStep projection actions before action after →
      P before → P after) (hstate : Reached projection actions state) : P state := by
  obtain ⟨done, rest, hactions, hdone⟩ := hstate
  induction done using List.reverseRecOn generalizing rest state with
  | nil =>
      obtain rfl := Except.ok.inj hdone
      exact hstart
  | append_singleton done action ih =>
      obtain ⟨before, result, hbefore, hafter⟩ := simulateActions_snoc.mp hdone
      rw [List.append_assoc, List.singleton_append] at hactions
      refine hstep before action state ⟨⟨done, rest, hactions, hbefore⟩, result, hafter⟩ ?_
      exact ih (action :: rest) hactions hbefore

end Replay

end DisksGraph
