import DisksGraph.Engine.Effects
import DisksGraph.Provider.Changes
import DisksGraph.Support.Stateful

/-!
# Engine — Invariant

`simulate_action` as the source calls it, on the caller's own configuration and evidence, and what
it keeps of a projected state.

* `simulateActionInPlace`: the call; `simulateAction` is what it publishes.
* `simulateAction_desired`: the configuration after an action, from its predicted changes alone.
* `StateInvariant`: a valid graph, one mount per target, one persistent entry per target, and no
  mount of a node that is not there.
* `simulate_action_atomic`: an error changes nothing, and a success keeps the invariant.
-/

namespace DisksGraph

open Support (Stateful foldlM_invariant foldlM_view)
open Support.Stateful (Atomic call reject)

/-! ### The call -/

/-- `apply_effect_with_invalidations`: both values are replaced after the last check. -/
def applyEffectWithInvalidations (effect : PredictedEffect)
    (invalidations : List FactInvalidation) :
    Stateful EffectApplicationError Projection (List FactInvalidation) := do
  let projection ← get
  match projection.applyEffect effect invalidations with
  | .error error => throw error
  | .ok (invalidatedFacts, next) =>
      set next
      return invalidatedFacts

/-- `simulate_action`. -/
def simulateActionInPlace (action : ProviderAction) :
    Stateful ActionSimulationError Projection SimulatedAction := do
  let projection ← get
  let diagnostics := validateProviderAction action projection.graph
  reject (diagnostics.any (·.severity == .error)) (.validation diagnostics)
  let contract := describeAction action projection.graph
  let checks := evaluatePrerequisites projection.desired projection.evidence contract.prerequisites
  reject (checks.any (·.status.isViolated)) (.prerequisitesViolated checks)
  let invalidatedFacts ← ExceptT.adapt ActionSimulationError.effect
    (applyEffectWithInvalidations contract.predictedEffect contract.invalidatedFacts)
  modify fun next => { next with evidence := next.evidence.applyOutputs contract.providedOutputs }
  return ⟨contract, checks, invalidatedFacts⟩

/-- An effect is applied as a whole or not at all. -/
theorem applyEffectWithInvalidations_atomic {effect : PredictedEffect}
    {invalidations : List FactInvalidation} {projection : Projection} :
    Atomic (applyEffectWithInvalidations effect invalidations) projection fun facts next =>
      projection.applyEffect effect invalidations = .ok (facts, next) := by
  refine .bind_get ?_
  cases happly : projection.applyEffect effect invalidations with
  | error error => exact .of_throw error
  | ok result => exact .inr ⟨result.1, result.2, rfl, rfl⟩

/-- The call publishes what `simulateAction` computes, and nothing on an error. -/
theorem simulateActionInPlace_atomic {action : ProviderAction} {projection : Projection} :
    Atomic (simulateActionInPlace action) projection fun result next =>
      simulateAction projection action = .ok (result, next) := by
  refine .bind_get (.bind_guard .of_reject fun _ hvalid => ?_)
  refine .bind_guard .of_reject fun _ hchecks => ?_
  refine .bind_completes (.adapt applyEffectWithInvalidations_atomic) fun facts next happly => ?_
  refine .bind .of_modify fun _ published hpublished => .of_pure ?_
  subst hpublished
  unfold simulateAction
  dsimp only
  rw [if_neg hvalid, if_neg hchecks, happly]

/-! ### The configuration after an action -/

section Desired

variable {projection next : Projection} {action : ProviderAction} {result : SimulatedAction}

/-- No prerequisite of an action that succeeds is violated. -/
theorem simulateAction_requires (h : simulateAction projection action = .ok (result, next))
    {condition : ActionPrerequisite}
    (hrequires : (describeAction action projection.graph).Requires condition) :
    (evaluatePrerequisite projection.desired projection.evidence condition).isViolated = false := by
  obtain ⟨hcontract, hchecks, hsatisfied, -⟩ := simulateAction_ok h
  refine hsatisfied ⟨condition, _⟩ ?_
  rw [hchecks, hcontract]
  exact List.mem_map_of_mem hrequires

/-- The configuration after an action comes from its predicted changes, and its graph is valid. -/
theorem simulateAction_desired (h : simulateAction projection action = .ok (result, next)) :
    ∃ start changed mounted : Projection, start.desired = projection.desired ∧
      (action.graphChanges projection.graph).foldlM Projection.applyGraphEffect start =
        .ok changed ∧
      action.mountChanges.foldlM Projection.applyMountEffect changed = .ok mounted ∧
      next.desired = mounted.desired ∧ next.graph.validateStructure = .ok () := by
  obtain ⟨hcontract, -, -, applied, happly, rfl⟩ := simulateAction_ok h
  obtain ⟨-, changed, mounted, evidence, hchanged, hmounted, -, hstructure, rfl⟩ :=
    Projection.applyEffect_ok happly
  rw [hcontract, describeAction_graph] at hchanged
  rw [hcontract, describeAction_mounts] at hmounted
  refine ⟨_, changed, mounted, ?_, hchanged, hmounted, rfl, hstructure⟩
  rfl

/-- A mount action changes the mounts by one effect and leaves the graph alone. -/
theorem simulateAction_mount {action : MountAction}
    (h : simulateAction projection (.mount action) = .ok (result, next)) :
    Projection.MountStep projection.desired action.mountChange next.desired := by
  obtain ⟨start, changed, mounted, hstart, hchanged, hmounted, hnext, -⟩ := simulateAction_desired h
  obtain rfl := Except.ok.inj hchanged
  obtain ⟨once, honce, hrest⟩ := Support.except_bind_eq_ok.mp hmounted
  obtain rfl := Except.ok.inj hrest
  rw [hnext, ← hstart]
  exact Projection.applyMountEffect_step honce

/-- An action other than a mount leaves the mounts alone. -/
theorem simulateAction_graph (h : simulateAction projection action = .ok (result, next))
    (hmount : action.mountChanges = []) :
    next.desired.mounts = projection.desired.mounts ∧ ∃ start changed : Projection,
      start.desired = projection.desired ∧ next.desired = changed.desired ∧
      (action.graphChanges projection.graph).foldlM Projection.applyGraphEffect start =
        .ok changed := by
  obtain ⟨start, changed, mounted, hstart, hchanged, hmounted, hnext, -⟩ := simulateAction_desired h
  rw [hmount] at hmounted
  obtain rfl := Except.ok.inj hmounted
  have hmounts := foldlM_view (fun projection : Projection => projection.desired.mounts)
    (fun effect _ _ _ => Projection.applyGraphEffect_mounts) hchanged
  exact ⟨by rw [hnext, hmounts, hstart], start, changed, hstart, hnext, hchanged⟩

end Desired

/-! ### Nodes that stay -/

/-- Only a removal takes a node away. -/
theorem applyGraphEffect_contains {projection projection' : Projection} {effect : GraphEffect}
    {node : NodeId} (h : projection.applyGraphEffect effect = .ok projection')
    (hremove : effect ≠ .removeNode node) (hnode : projection.graph.contains node = true) :
    projection'.graph.contains node = true := by
  have hset : ∀ {graph : NodeGraph} {id : NodeId} {value : Node}, graph.contains node = true →
      (graph.setNode id value).contains node = true := by
    intro graph id value hnode
    rw [NodeGraph.contains, NodeGraph.node_setNode]
    split
    · rfl
    · exact hnode
  cases Projection.applyGraphEffect_step h with
  | insertNode _ => exact hset hnode
  | @removeNode id _ =>
      have hne : node ≠ id := fun heq => hremove (by rw [heq])
      rw [NodeGraph.contains, show (projection.removeNode id).graph = projection.graph.removeNode id
        from rfl, NodeGraph.node_removeNode_ne hne]
      exact hnode
  | update _ =>
      rw [Projection.graph, Projection.desired_markProjected]
      exact hset hnode
  | _ => exact hnode

theorem not_mem_creation {id node : NodeId} {spec : NodeSpec} {edges : List Dependency} :
    .removeNode node ∉ creation id spec edges := by
  simp [creation]

theorem mem_removal {graph : NodeGraph} {id node : NodeId}
    (h : .removeNode node ∈ removal graph id) :
    node = id := by
  simpa [removal] using h

/-- The only node that an action takes away is the one it removes. -/
theorem removed_of_removeNode {action : ProviderAction} {graph : NodeGraph} {node : NodeId}
    (h : .removeNode node ∈ action.graphChanges graph) : action.removed = some node := by
  cases action with
  | partition action =>
      cases action with
      | createTable | create => exact absurd h not_mem_creation
      | delete partition => rw [mem_removal h]; rfl
      | resize | setAttributes =>
          simp [ProviderAction.graphChanges, PartitionAction.graphChanges] at h
  | luks action =>
      cases action with
      | format | «open» => exact absurd h not_mem_creation
      | close mapping => rw [mem_removal h]; rfl
      | resize mapping size =>
          cases size <;> simp [ProviderAction.graphChanges, LuksAction.graphChanges] at h
  | lvm action =>
      cases action with
      | createPv | createVg | createLv => exact absurd h not_mem_creation
      | removeLv lv => rw [mem_removal h]; rfl
      | resizeLv | setActivation => simp [ProviderAction.graphChanges, LvmAction.graphChanges] at h
  | filesystem action =>
      cases action with
      | create => exact absurd h not_mem_creation
      | _ => simp [ProviderAction.graphChanges, FilesystemAction.graphChanges] at h
  | btrfs action =>
      cases action with
      | create | createSubvolume => exact absurd h not_mem_creation
      | _ => simp [ProviderAction.graphChanges, BtrfsAction.graphChanges] at h
  | mount action => cases h

/-! ### The invariant -/

/-- The target of a mount, in its context. -/
def MountEntry.place (entry : MountEntry) : PathBuf × MountContext := (entry.target, entry.context)

/-- What every projected state keeps. -/
structure StateInvariant (desired : DesiredState) : Prop where
  structure_ok : desired.graph.validateStructure = .ok ()
  runtime_unique : (desired.mounts.runtime.map MountEntry.place).Nodup
  persistent_unique : (desired.mounts.persistent.map MountEntry.place).Nodup
  sources_exist : ∀ entry ∈ desired.mounts.runtime, ∀ node, entry.source.node = some node →
    desired.graph.contains node = true

/-- No runtime mount appears or goes at a target above an active one. -/
structure CoversNone (desired next : DesiredState) : Prop where
  added : ∀ entry ∈ next.mounts.runtime, entry ∉ desired.mounts.runtime →
    hasMountedDescendant desired entry.target entry.context = false
  removed : ∀ entry ∈ desired.mounts.runtime, entry ∉ next.mounts.runtime →
    hasMountedDescendant desired entry.target entry.context = false

section Mounts

variable {desired next : DesiredState} {effect : MountEffect} {entries : List MountEntry}
  {target : PathBuf} {context : MountContext}

theorem elsewhere_eq_false {entry : MountEntry} :
    Projection.elsewhere target context entry = false ↔ entry.place = (target, context) := by
  simp [Projection.elsewhere, MountEntry.place]

theorem place_not_mem_filter :
    (target, context) ∉
    (entries.filter (Projection.elsewhere target context)).map MountEntry.place := by
  intro hmem
  obtain ⟨entry, hentry, hplace⟩ := List.mem_map.mp hmem
  have helsewhere := List.of_mem_filter hentry
  rw [elsewhere_eq_false.mpr hplace] at helsewhere
  cases helsewhere

theorem filter_place_nodup (h : (entries.map MountEntry.place).Nodup) :
    ((entries.filter (Projection.elsewhere target context)).map MountEntry.place).Nodup :=
  h.sublist (List.filter_sublist.map _)

/-- One more entry, at a place that is free. -/
theorem append_place_nodup {entry : MountEntry} (h : (entries.map MountEntry.place).Nodup)
    (hfree : entry.place ∉ entries.map MountEntry.place) :
    ((entries ++ [entry]).map MountEntry.place).Nodup := by
  rw [List.map_append, List.nodup_append']
  refine ⟨h, List.nodup_singleton _, ?_⟩
  exact List.disjoint_singleton.mpr hfree

theorem mountAt_eq_none : mountAt desired target context = none ↔
    (target, context) ∉ desired.mounts.runtime.map MountEntry.place := by
  simp [mountAt, MountEntry.place]

/-- A mount effect keeps the invariant, given the node that it mounts. -/
theorem Projection.MountStep.keeps (hstep : MountStep desired effect next)
    (h : StateInvariant desired)
    (hsource : ∀ source target options context, effect = .addRuntime source target options context →
      ∀ node, source.node = some node → desired.graph.contains node = true) :
    StateInvariant next ∧ CoversNone desired next := by
  cases hstep with
  | @addRuntime source target options context hfree hdescendants =>
      refine ⟨⟨h.structure_ok, append_place_nodup h.runtime_unique (mountAt_eq_none.mp hfree),
        h.persistent_unique, fun entry hentry node hnode => ?_⟩, ⟨fun entry hentry hnew => ?_, ?_⟩⟩
      · rcases List.mem_append.mp hentry with hentry | hentry
        · exact h.sources_exist entry hentry node hnode
        · rw [List.mem_singleton.mp hentry] at hnode
          exact hsource _ _ _ _ rfl node hnode
      · rcases List.mem_append.mp hentry with hentry | hentry
        · exact absurd hentry hnew
        · rw [List.mem_singleton.mp hentry]
          exact hdescendants
      · intro entry hentry hgone
        exact absurd (List.mem_append_left _ hentry) hgone
  | @removeRuntime target context hdescendants =>
      refine ⟨⟨h.structure_ok, filter_place_nodup h.runtime_unique, h.persistent_unique,
        fun entry hentry => h.sources_exist entry (List.mem_of_mem_filter hentry)⟩,
        ⟨fun entry hentry hnew => absurd (List.mem_of_mem_filter hentry) hnew, ?_⟩⟩
      intro entry hentry hgone
      have hplace : entry.place = (target, context) := by
        rw [← elsewhere_eq_false, ← Bool.not_eq_true]
        exact fun helsewhere => hgone (List.mem_filter.mpr ⟨hentry, helsewhere⟩)
      obtain ⟨rfl, rfl⟩ := Prod.mk.inj hplace
      exact hdescendants
  | setPersistent =>
      refine ⟨⟨h.structure_ok, h.runtime_unique,
        append_place_nodup (filter_place_nodup h.persistent_unique) place_not_mem_filter,
        h.sources_exist⟩, ⟨fun entry hentry hnew => absurd hentry hnew,
        fun entry hentry hgone => absurd hentry hgone⟩⟩
  | removePersistent =>
      exact ⟨⟨h.structure_ok, h.runtime_unique, filter_place_nodup h.persistent_unique,
        h.sources_exist⟩, ⟨fun entry hentry hnew => absurd hentry hnew,
        fun entry hentry hgone => absurd hentry hgone⟩⟩

end Mounts

section Actions

variable {projection next : Projection} {action : ProviderAction} {result : SimulatedAction}

/-- An action other than a mount keeps every node that is mounted. -/
theorem simulateAction_keeps_graph (h : simulateAction projection action = .ok (result, next))
    (hmount : action.mountChanges = []) (hinvariant : StateInvariant projection.desired) :
    StateInvariant next.desired ∧ CoversNone projection.desired next.desired := by
  obtain ⟨hmounts, start, changed, hstart, hnext, hchanged⟩ := simulateAction_graph h hmount
  obtain ⟨_, _, _, -, -, -, -, hstructure⟩ := simulateAction_desired h
  refine ⟨⟨hstructure, hmounts ▸ hinvariant.runtime_unique, hmounts ▸ hinvariant.persistent_unique,
    ?_⟩, ?_⟩
  · rw [hmounts]
    intro entry hentry node hnode
    have hkept : changed.graph.contains node = true := by
      refine foldlM_invariant (P := fun projection => projection.graph.contains node = true)
        ?_ (fun effect heffect s s' hs hstep => ?_) hchanged
      · rw [Projection.graph, hstart]
        exact hinvariant.sources_exist entry hentry node hnode
      · refine applyGraphEffect_contains hstep (fun heq => ?_) hs
        -- A node that is still mounted has a consumer, so its removal was refused.
        have hremoved := removed_of_removeNode (heq ▸ heffect)
        have hunused := simulateAction_requires h (describeAction_removed hremoved)
        exact (unused_of_noUnexpectedConsumers hunused).2 entry hentry hnode
    rw [hnext]
    exact hkept
  · refine ⟨fun entry hentry hnew => ?_, fun entry hentry hgone => ?_⟩
    · rw [hmounts] at hentry
      exact absurd hentry hnew
    · rw [hmounts] at hgone
      exact absurd hentry hgone

/-- A mount action keeps the invariant and hides no mount. -/
theorem simulateAction_keeps_mount {action : MountAction}
    (h : simulateAction projection (.mount action) = .ok (result, next))
    (hinvariant : StateInvariant projection.desired) :
    StateInvariant next.desired ∧ CoversNone projection.desired next.desired := by
  refine (simulateAction_mount h).keeps hinvariant ?_
  intro source target options context heffect node hnode
  cases action with
  | mount source' target' options' context' =>
      cases heffect
      exact exists_of_nodeExists (simulateAction_requires h (describeAction_mountSource hnode))
  | unmount | persist | removePersistent => cases heffect

/-- An action keeps the invariant and hides no mount. -/
theorem simulateAction_keeps (h : simulateAction projection action = .ok (result, next))
    (hinvariant : StateInvariant projection.desired) :
    StateInvariant next.desired ∧ CoversNone projection.desired next.desired := by
  cases action with
  | mount action => exact simulateAction_keeps_mount h hinvariant
  | _ => exact simulateAction_keeps_graph h rfl hinvariant

/-- **`simulate_action` is atomic and keeps the state invariant.**  An error leaves configuration
and evidence as they were.  A success keeps the graph valid, the mounts unique and their nodes
present, and neither covers nor uncovers an active mount. -/
theorem simulate_action_atomic {projection : Projection} (action : ProviderAction)
    (hinvariant : StateInvariant projection.desired) :
    Atomic (simulateActionInPlace action) projection fun _ next =>
      StateInvariant next.desired ∧ CoversNone projection.desired next.desired :=
  simulateActionInPlace_atomic.mono fun _ _ h => simulateAction_keeps h hinvariant

end Actions

/-- A logical volume of 4 KiB. -/
def sampleVolume : NodeId := ⟨1#128⟩

/-- An ext4 filesystem on it. -/
def sampleFilesystem : NodeId := ⟨2#128⟩

/-- A filesystem on a linear logical volume. -/
def sampleStack : NodeGraph :=
  ((NodeGraph.empty.setNode sampleVolume ⟨⟨.lvmLv ⟨"data", .linear⟩, some 4096⟩, {}⟩).setNode
    sampleFilesystem ⟨⟨.filesystem .ext4 none, none⟩, {}⟩).insertDependency
    ⟨sampleVolume, sampleFilesystem, .backs⟩

/-- `/srv`. -/
def sampleMountPoint : PathBuf := ⟨[.rootDir, .normal "srv"]⟩

/-- The filesystem is mounted at `/srv`. -/
def sampleMounted : DesiredState where
  graph := sampleStack
  mounts := { runtime := [⟨.filesystem sampleFilesystem, sampleMountPoint, [], .host⟩] }
  boot := .unmanaged
  intents := []

theorem sampleMounted_invariant : StateInvariant sampleMounted where
  structure_ok := by decide
  runtime_unique := by decide
  persistent_unique := by decide
  sources_exist entry hentry node hnode := by
    rw [List.mem_singleton.mp hentry] at hnode
    cases hnode
    rfl

/-- Unmounting it keeps the invariant. -/
theorem sample_unmount_atomic :
    StateInvariant sampleMounted ∧ ∃ result next,
      call (simulateActionInPlace (.mount (.unmount sampleMountPoint .host))) ⟨sampleMounted, {}⟩ =
        some (.ok result, next) ∧
      StateInvariant next.desired ∧ next.desired.mounts.runtime = [] := by
  have hatomic := @simulate_action_atomic ⟨sampleMounted, {}⟩
    (.mount (.unmount sampleMountPoint .host)) sampleMounted_invariant
  exact ⟨sampleMounted_invariant, _, _, rfl, (hatomic.ok rfl).1, rfl⟩

end DisksGraph
