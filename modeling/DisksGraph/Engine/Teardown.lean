import DisksGraph.Engine.Invariant

/-!
# Engine — Teardown

What a replay does to the storage under a mount that stays.

A contract only checks the direct consumers of its own target.  That is enough for a removal and for
a destructive format: an ancestor of a mounted node has a consumer, its neighbour on the way up.  It
is not what a deactivation checks.

* `simulateActions`: a replay, one action after the other.
* `SpareLive`: one step leaves the storage under every mount that stays alone.
* `replay_spares_live_mounts`: a replay does exactly when it deactivates nothing under a mount.
-/

namespace DisksGraph

/-- Replays actions through `simulate_action`. -/
def simulateActions (projection : Projection) (actions : List ProviderAction) :
    Except ActionSimulationError Projection :=
  actions.foldlM (fun projection action => (simulateAction projection action).map (·.2)) projection

/-- A step of a replay: the state before the action, the action, and the state after it. -/
structure ReplayStep (projection : Projection) (actions : List ProviderAction)
    (before : Projection) (action : ProviderAction) (after : Projection) : Prop where
  at_step : ∃ done rest, actions = done ++ action :: rest ∧
    simulateActions projection done = .ok before
  simulated : ∃ result, simulateAction before action = .ok (result, after)

/-- The node itself or one of its dependency ancestors. -/
def Underlies (graph : NodeGraph) (below node : NodeId) : Prop :=
  below = node ∨ below ∈ graph.ancestors node

instance (graph : NodeGraph) (below node : NodeId) : Decidable (Underlies graph below node) :=
  inferInstanceAs (Decidable (_ ∨ _))

/-- The action removes the node, overwrites it by a new format or deactivates it. -/
def ProviderAction.TearsDown (action : ProviderAction) (node : NodeId) : Prop :=
  action.removed = some node ∨ node ∈ action.formatted ∨ action.deactivated = some node

/-- Nothing under a mount that is there before and after the step is torn down. -/
def SpareLive (before : Projection) (action : ProviderAction) (after : Projection) : Prop :=
  ∀ entry ∈ before.desired.mounts.runtime, entry ∈ after.desired.mounts.runtime →
    ∀ node, entry.source.node = some node → ∀ below, Underlies before.graph below node →
      ¬action.TearsDown below

/-- The action does not deactivate a node under a runtime mount. -/
def DeactivatesUnmounted (before : Projection) (action : ProviderAction) : Prop :=
  ∀ target, action = .lvm (.setActivation target false) →
    ∀ entry ∈ before.desired.mounts.runtime, ∀ node, entry.source.node = some node →
      ¬Underlies before.graph target node

/-! ### Consumers of what lies under a mount -/

section Consumers

variable {projection next : Projection} {action : ProviderAction} {result : SimulatedAction}
  {entry : MountEntry} {node below : NodeId}

/-- A proper ancestor has an edge that leads up. -/
theorem exists_edge_of_mem_ancestors {graph : NodeGraph} (h : below ∈ graph.ancestors node) :
    ∃ edge ∈ graph.dependencies, edge.source = below := by
  obtain ⟨hne, hreach⟩ := NodeGraph.mem_ancestors.mp h
  rcases Relation.ReflTransGen.cases_head hreach with heq | ⟨next, ⟨edge, hedge, hsource, -⟩, -⟩
  · exact absurd heq hne
  · exact ⟨edge, hedge, hsource⟩

/-- What is required to have no consumer does not lie under a mount. -/
theorem not_underlies_of_requires (h : simulateAction projection action = .ok (result, next))
    (hrequires : (describeAction action projection.graph).Requires (.noUnexpectedConsumers below))
    (hentry : entry ∈ projection.desired.mounts.runtime) (hnode : entry.source.node = some node) :
    ¬Underlies projection.graph below node := by
  obtain ⟨hedges, hmounts⟩ := unused_of_noUnexpectedConsumers (simulateAction_requires h hrequires)
  rintro (rfl | hancestor)
  · exact hmounts entry hentry hnode
  · obtain ⟨edge, hedge, hsource⟩ := exists_edge_of_mem_ancestors hancestor
    exact hedges edge hedge hsource

theorem deactivated_eq_some : action.deactivated = some node ↔
    action = .lvm (.setActivation node false) := by
  constructor
  · intro h
    unfold ProviderAction.deactivated at h
    split at h
    · rw [Option.some.inj h]
    · cases h
  · rintro rfl
    rfl

/-- One step leaves the storage under its mounts alone exactly when it is no deactivation there. -/
theorem spareLive_iff (h : simulateAction projection action = .ok (result, next)) :
    SpareLive projection action next ↔ DeactivatesUnmounted projection action := by
  constructor
  · rintro hspare target rfl entry hentry node hnode hunder
    obtain ⟨hmounts, -⟩ := simulateAction_graph h rfl
    exact hspare entry hentry (hmounts ▸ hentry) node hnode target hunder (.inr (.inr rfl))
  · intro hunmounted entry hentry _ node hnode below hunder
    rintro (hremoved | hformatted | hdeactivated)
    · exact not_underlies_of_requires h (describeAction_removed hremoved) hentry hnode hunder
    · exact not_underlies_of_requires h (describeAction_formatted hformatted) hentry hnode hunder
    · exact hunmounted below (deactivated_eq_some.mp hdeactivated) entry hentry node hnode hunder

end Consumers

/-- **Storage under a live mount.**  A replay tears down nothing under a mount that stays, at any of
its steps, exactly when none of them deactivates a node under a runtime mount. -/
theorem replay_spares_live_mounts (projection : Projection) (actions : List ProviderAction) :
    (∀ before action after, ReplayStep projection actions before action after →
      SpareLive before action after) ↔
    ∀ before action after, ReplayStep projection actions before action after →
      DeactivatesUnmounted before action := by
  constructor
  · intro hspare before action after hstep
    obtain ⟨result, hsimulated⟩ := hstep.simulated
    exact (spareLive_iff hsimulated).mp (hspare before action after hstep)
  · intro hunmounted before action after hstep
    obtain ⟨result, hsimulated⟩ := hstep.simulated
    exact (spareLive_iff hsimulated).mpr (hunmounted before action after hstep)

/-- The logical volume under a mounted filesystem is deactivated, and the mount stays. -/
theorem deactivation_under_live_mount :
    ¬∀ projection actions final, simulateActions projection actions = .ok final →
      ∀ before action after, ReplayStep projection actions before action after →
        SpareLive before action after := by
  intro hspare
  have hstep : ReplayStep ⟨sampleMounted, {}⟩ [.lvm (.setActivation sampleVolume false)]
      ⟨sampleMounted, {}⟩ (.lvm (.setActivation sampleVolume false)) _ :=
    ⟨⟨[], [], rfl, rfl⟩, ⟨_, rfl⟩⟩
  refine hspare _ _ _ rfl _ _ _ hstep
    ⟨.filesystem sampleFilesystem, sampleMountPoint, [], .host⟩ ?_ ?_
    sampleFilesystem rfl sampleVolume (.inr (by decide)) (.inr (.inr rfl))
  · exact List.mem_singleton.mpr rfl
  · exact List.mem_singleton.mpr rfl

end DisksGraph
