import DisksGraph.Engine.Consumers
import DisksGraph.Engine.Tracked

/-!
# Engine — Checked

The clean check that a filesystem has to pass before it shrinks.

The check is a token in the evidence.  One action grants it, and it is revoked along the edges that
carry content, in the graph as it is when the step is taken, and by the mounts that may write.

* `Disturbs`: the step may undo a clean check.
* `FreshlyChecked`: a forced check was replayed, and nothing disturbed the filesystem since.
* `shrink_needs_fresh_check`: every step that may shrink a filesystem finds it freshly checked, and
  no checked filesystem is mounted.
-/

namespace DisksGraph

/-! ### Disturbance -/

/-- One node backs or contains another. -/
def Carries (graph : NodeGraph) (a b : NodeId) : Prop :=
  ∃ edge ∈ graph.dependencies, edge.source = a ∧ edge.target = b ∧
    (edge.kind.isBacks ∨ edge.kind.isContains)

/-- The step makes the content, the geometry or the presence of the filesystem stale, or that of a
node the filesystem lies on, or it mounts the filesystem or an unresolved source. -/
def Disturbs (before : Projection) (action : ProviderAction) (filesystem : NodeId) : Prop :=
  (∃ fact ∈ (describeAction action before.graph).invalidatedFacts, ∃ node,
    (fact = ⟨.node node, .content⟩ ∨ fact = ⟨.node node, .geometry⟩ ∨
      fact = ⟨.node node, .presence⟩) ∧
    Relation.ReflTransGen (Carries before.graph) node filesystem) ∨
  ∃ source target options context, action = .mount (.mount source target options context) ∧
    (source = .filesystem filesystem ∨ source.isUnresolved = true)

section Scope

variable {graph : NodeGraph} {facts : List FactInvalidation} {filesystem node : NodeId}

theorem mem_backedConsumers {a b : NodeId} : b ∈ backedConsumers graph a ↔ Carries graph a b := by
  simp [backedConsumers, Carries, and_left_comm, and_comm]

theorem bounded_backedConsumers :
    Support.Bounded (backedConsumers graph) Dependency.source graph.dependencies := by
  intro node
  rw [backedConsumers, List.length_map, List.countP_eq_length_filter]
  refine (List.monotone_filter_right graph.dependencies fun edge hedge => ?_).length_le
  rw [Bool.and_eq_true, beq_iff_eq] at hedge
  exact decide_eq_true hedge.1

/-- The facts whose loss makes a check stale. -/
theorem uncheckedNode_eq_some {fact : FactInvalidation} :
    fact.uncheckedNode = some node ↔
      fact = ⟨.node node, .content⟩ ∨ fact = ⟨.node node, .geometry⟩ ∨
        fact = ⟨.node node, .presence⟩ := by
  obtain ⟨scope, kind⟩ := fact
  cases scope <;> cases kind <;> simp [FactInvalidation.uncheckedNode]

theorem mem_checkScope :
    filesystem ∈ checkScope graph facts ↔ ∃ fact ∈ facts, ∃ node,
      fact.uncheckedNode = some node ∧
        Relation.ReflTransGen (Carries graph) node filesystem := by
  have hreach : ∀ node, Support.Reachable (backedConsumers graph) node filesystem ↔
      Relation.ReflTransGen (Carries graph) node filesystem := by
    intro node
    rw [Support.Reachable]
    simp only [mem_backedConsumers]
  rw [checkScope, Support.mem_explore bounded_backedConsumers (by simp)]
  simp only [List.mem_reverse, List.mem_filterMap, hreach]
  constructor
  · rintro ⟨node, ⟨fact, hfact, hnode⟩, hreaches⟩
    exact ⟨fact, hfact, node, hnode, hreaches⟩
  · rintro ⟨fact, hfact, node, hnode, hreaches⟩
    exact ⟨node, ⟨fact, hfact, hnode⟩, hreaches⟩

end Scope

/-! ### One step -/

section Step

variable {projection next : Projection} {action : ProviderAction} {result : SimulatedAction}
  {filesystem : NodeId}

/-- Only a forced check grants a clean check. -/
theorem check_of_output
    (h : .filesystemCheckPassed filesystem ∈
      (describeAction action projection.graph).providedOutputs) :
    action = .filesystem (.check filesystem true) := by
  have heffect : ∀ effect : PredictedEffect,
      .filesystemCheckPassed filesystem ∉ outputsFromEffect effect := by
    intro effect hmem
    rcases List.mem_append.mp hmem with hmem | hmem
    · obtain ⟨change, -, hchange⟩ := List.mem_filterMap.mp hmem
      split at hchange <;> cases hchange
    · obtain ⟨change, -, hchange⟩ := List.mem_filterMap.mp hmem
      split at hchange <;> cases hchange
  rw [describeAction_outputs] at h
  rcases List.mem_append.mp h with h | h
  · exact absurd h (heffect _)
  · unfold ProviderAction.guarantees at h
    split at h
    · cases List.mem_singleton.mp h
    · split at h
      · cases List.mem_singleton.mp h
      · cases h
    · next target force =>
      split at h
      · next hforce =>
        cases List.mem_singleton.mp h
        rw [Bool.and_eq_true] at hforce
        rw [hforce.1]
      · cases h
    · cases h

/-- A filesystem that is checked after a step was checked by it, or before it and not disturbed. -/
theorem checked_origin (h : simulateAction projection action = .ok (result, next))
    (hchecked : filesystem ∈ next.evidence.checkedFilesystems) :
    action = .filesystem (.check filesystem true) ∨
      filesystem ∈ projection.evidence.checkedFilesystems ∧
        ¬Disturbs projection action filesystem := by
  rcases (simulateAction_checkedFilesystems h).mp hchecked with houtput | ⟨hbefore, hscope, hmount⟩
  · exact .inl (check_of_output houtput)
  · refine .inr ⟨hbefore, ?_⟩
    rintro (⟨fact, hfact, node, hkind, hreaches⟩ | ⟨source, target, options, context, rfl, hsource⟩)
    · exact hscope (mem_checkScope.mpr
        ⟨fact, hfact, node, uncheckedNode_eq_some.mpr hkind, hreaches⟩)
    · exact hmount _ (List.mem_singleton_self _)
        ⟨source, target, options, context, rfl, hsource⟩

/-- No runtime mount comes from a checked filesystem. -/
def CheckedUnmounted (projection : Projection) : Prop :=
  ∀ filesystem ∈ projection.evidence.checkedFilesystems,
    ∀ entry ∈ projection.desired.mounts.runtime, entry.source ≠ .filesystem filesystem

/-- A check is granted for a filesystem that is not mounted. -/
theorem unmounted_of_check
    (h : simulateAction projection (.filesystem (.check filesystem true)) = .ok (result, next)) :
    ∀ entry ∈ projection.desired.mounts.runtime, entry.source ≠ .filesystem filesystem := by
  intro entry hentry hsource
  have hrequires : (describeAction (.filesystem (.check filesystem true))
      projection.graph).Requires (.filesystemUnmounted filesystem) :=
    requires_filesystemUnmounted rfl
  have hchecked := simulateAction_requires h hrequires
  rw [evaluatePrerequisite] at hchecked
  split at hchecked
  · cases hchecked
  · split at hchecked
    · cases hchecked
    · next hunmounted =>
      exact hunmounted (List.any_eq_true.mpr ⟨entry, hentry, beq_iff_eq.mpr hsource⟩)

/-- A runtime mount after a step was there before it or is the one it mounts. -/
theorem runtime_origin (h : simulateAction projection action = .ok (result, next))
    {entry : MountEntry} (hentry : entry ∈ next.desired.mounts.runtime) :
    entry ∈ projection.desired.mounts.runtime ∨ action =
      .mount (.mount entry.source entry.target entry.options entry.context) := by
  cases action with
  | mount action =>
      have hstep := simulateAction_mount h
      generalize next.desired = after at hstep hentry
      cases action with
      | mount source target options context =>
          cases hstep with
          | addRuntime =>
              rcases List.mem_append.mp hentry with hentry | hentry
              · exact .inl hentry
              · obtain rfl := List.mem_singleton.mp hentry
                exact .inr rfl
      | unmount target context =>
          cases hstep with
          | removeRuntime => exact .inl (List.mem_filter.mp hentry).1
      | persist entry' =>
          cases hstep with
          | setPersistent => exact .inl hentry
      | removePersistent target context =>
          cases hstep with
          | removePersistent => exact .inl hentry
  | _ =>
      rw [(simulateAction_graph h rfl).1] at hentry
      exact .inl hentry

theorem CheckedUnmounted.step (h : simulateAction projection action = .ok (result, next))
    (hbefore : CheckedUnmounted projection) : CheckedUnmounted next := by
  intro filesystem hchecked entry hentry hsource
  rcases checked_origin h hchecked with rfl | ⟨hold, hundisturbed⟩
  · rw [(simulateAction_graph h rfl).1] at hentry
    exact unmounted_of_check h entry hentry hsource
  · rcases runtime_origin h hentry with hentry | rfl
    · exact hbefore filesystem hold entry hentry hsource
    · exact hundisturbed (.inr ⟨_, _, _, _, rfl, .inl hsource⟩)

end Step

/-! ### Replays -/

/-- A forced check of the filesystem was replayed, and no later step disturbed the filesystem. -/
def FreshlyChecked (start : Projection) (done : List ProviderAction) (filesystem : NodeId) : Prop :=
  ∃ earlier between, done = earlier ++ .filesystem (.check filesystem true) :: between ∧
    ∀ head action tail state, between = head ++ action :: tail →
      simulateActions start (earlier ++ .filesystem (.check filesystem true) :: head) = .ok state →
      ¬Disturbs state action filesystem

section Replay

variable {start state : Projection} {done : List ProviderAction} {action : ProviderAction}
  {filesystem : NodeId}

/-- A check stays fresh over an action that does not disturb it. -/
theorem FreshlyChecked.snoc (h : FreshlyChecked start done filesystem)
    (hdone : simulateActions start done = .ok state) (hkept : ¬Disturbs state action filesystem) :
    FreshlyChecked start (done ++ [action]) filesystem := by
  obtain ⟨earlier, between, rfl, hbetween⟩ := h
  refine ⟨earlier, between ++ [action], by simp, fun head action' tail state' hsplit hstate' => ?_⟩
  rcases List.eq_nil_or_concat tail with rfl | ⟨tail, last, rfl⟩
  · -- The new step is the last one in between.
    obtain ⟨rfl, hlast⟩ := List.append_inj' hsplit rfl
    obtain rfl : action = action' := (List.cons.inj hlast).1
    obtain rfl := Except.ok.inj (hdone.symm.trans hstate')
    exact hkept
  · rw [List.concat_eq_append, ← List.cons_append, ← List.append_assoc] at hsplit
    obtain ⟨rfl, -⟩ := List.append_inj' hsplit rfl
    exact hbetween head action' tail state' rfl hstate'

/-- What is checked in a state of a replay was checked on the way, and not disturbed since. -/
theorem freshlyChecked_of_checked (hstart : start.evidence.checkedFilesystems = ∅)
    (hdone : simulateActions start done = .ok state)
    (hchecked : filesystem ∈ state.evidence.checkedFilesystems) :
    FreshlyChecked start done filesystem := by
  induction done using List.reverseRecOn generalizing state with
  | nil =>
      obtain rfl := Except.ok.inj hdone
      rw [hstart] at hchecked
      exact absurd hchecked (Finset.notMem_empty _)
  | append_singleton done action ih =>
      obtain ⟨before, result, hbefore, hstep⟩ := simulateActions_snoc.mp hdone
      rcases checked_origin hstep hchecked with rfl | ⟨hold, hundisturbed⟩
      · refine ⟨done, [], rfl, fun head action tail state hsplit => ?_⟩
        cases (List.append_eq_nil_iff.mp hsplit.symm).2
      · exact (ih hbefore hold).snoc hbefore hundisturbed

/-- Fresh evidence has no checked filesystem. -/
theorem checkedFilesystems_new {capacity : List CapacityEvidence} {evidence : SimulationEvidence}
    (h : SimulationEvidence.new capacity = .ok evidence) : evidence.checkedFilesystems = ∅ := by
  rw [SimulationEvidence.eq_of_new h]

end Replay

/-- The resize may shrink the filesystem: its size is unknown or larger. -/
def MayShrink (graph : NodeGraph) (filesystem : NodeId) (newSize : Bytes) : Prop :=
  (knownSize graph filesystem).all (· > newSize) = true

/-- A resize that may shrink asks for a passed check. -/
theorem requires_filesystemCheckPassed {graph : NodeGraph} {filesystem : NodeId} {newSize : Bytes}
    (h : MayShrink graph filesystem newSize) :
    (describeAction (.filesystem (.resize filesystem newSize)) graph).Requires
      (.filesystemCheckPassed filesystem) := by
  rw [requires_describeAction, describeTechnology, describeFilesystem]
  refine requires_accessFilesystemBacking ?_
  rw [MayShrink] at h
  rw [if_pos h]
  simp

/-- **A shrink needs a fresh forced check.**  In every successful replay from evidence without
projections, a step that may shrink a filesystem finds it freshly checked, and no state that the
replay passes through has a checked filesystem mounted. -/
theorem shrink_needs_fresh_check {desired : DesiredState} {capacity : List CapacityEvidence}
    {evidence : SimulationEvidence} (hevidence : SimulationEvidence.new capacity = .ok evidence)
    {actions : List ProviderAction} {final : Projection}
    (hreplay : simulateActions ⟨desired, evidence⟩ actions = .ok final) :
    (∀ done rest filesystem newSize before,
      actions = done ++ .filesystem (.resize filesystem newSize) :: rest →
      simulateActions ⟨desired, evidence⟩ done = .ok before →
      MayShrink before.graph filesystem newSize →
      FreshlyChecked ⟨desired, evidence⟩ done filesystem) ∧
    ∀ state, Reached ⟨desired, evidence⟩ actions state → CheckedUnmounted state := by
  have hnew := checkedFilesystems_new hevidence
  constructor
  · intro done rest filesystem newSize before hactions hbefore hshrinks
    -- The replay goes on after the step, so the check of its contract was not violated.
    subst hactions
    obtain ⟨result, after, hstep⟩ := exists_step_of_replay hreplay hbefore
    have hpassed := simulateAction_requires hstep (requires_filesystemCheckPassed hshrinks)
    rw [evaluatePrerequisite] at hpassed
    split at hpassed
    · next hchecked => exact freshlyChecked_of_checked hnew hbefore hchecked
    · cases hpassed
  · intro state hstate
    refine reached_of_steps (P := CheckedUnmounted) ?_ (fun before action after hstep hbefore => ?_)
      hstate
    · intro filesystem hchecked
      rw [show (Projection.mk desired evidence).evidence.checkedFilesystems = ∅ from hnew]
        at hchecked
      exact absurd hchecked (Finset.notMem_empty _)
    · obtain ⟨result, hsimulated⟩ := hstep.simulated
      exact hbefore.step hsimulated

/-- An ext4 filesystem that is checked and then shrunk. -/
def shrunkFilesystem : NodeId := ⟨1#128⟩

/-- A state with one unmounted ext4 filesystem. -/
def shrunkState : DesiredState where
  graph := NodeGraph.empty.setNode shrunkFilesystem ⟨⟨.filesystem .ext4 none, some 100⟩, {}⟩
  mounts := {}
  boot := .unmanaged
  intents := []

/-- A forced check, a mount of something else, and the shrink. -/
def shrinkActions : List ProviderAction :=
  [.filesystem (.check shrunkFilesystem true),
    .mount (.mount .tmpfs ⟨[.rootDir, .normal "data"]⟩ [] .host),
    .filesystem (.resize shrunkFilesystem 50)]

/-- The mount leaves the check fresh, and the shrink is admitted. -/
theorem shrink_after_check :
    ∃ final, simulateActions ⟨shrunkState, {}⟩ shrinkActions = .ok final ∧
      FreshlyChecked ⟨shrunkState, {}⟩ (shrinkActions.take 2) shrunkFilesystem ∧
      CheckedUnmounted final := by
  obtain ⟨final, hreplay⟩ : ∃ final, simulateActions ⟨shrunkState, {}⟩ shrinkActions = .ok final :=
    ⟨_, rfl⟩
  have hnew : SimulationEvidence.new [] = .ok {} := rfl
  obtain ⟨hfresh, hunmounted⟩ := shrink_needs_fresh_check hnew hreplay
  have hend : Reached ⟨shrunkState, {}⟩ shrinkActions final := ⟨shrinkActions, [], rfl, hreplay⟩
  exact ⟨final, hreplay, hfresh (shrinkActions.take 2) [] shrunkFilesystem 50 _ rfl rfl rfl,
    hunmounted final hend⟩

end DisksGraph
