import DisksGraph.Engine.Consumers
import DisksGraph.Engine.Tracked
import DisksGraph.Engine.Protect

/-!
# Engine — Provenance

Where the evidence behind a satisfied check comes from.

A check names its origin: the baseline snapshot or an earlier effect.  The markers behind that
answer follow the nodes that an effect inserts or updates, the runtime mounts and the allocations.
They do not follow what an effect takes away.

* `Provenance`: what the markers of a projection say about the baseline, kept by every step.
* `StillObserved`: the part of the baseline that no marker follows is still there.
* `observed_check_iff`: a check reported as observed was satisfied in the baseline exactly then.
-/

namespace DisksGraph

open Support (foldlM_invariant foldlM_view)

/-- The edges by which a node is backed. -/
def backedBy (graph : NodeGraph) (node : NodeId) : List Dependency :=
  graph.dependencies.filter fun edge => edge.target == node && edge.kind.isBacks

/-- What a projection says about the baseline it was reached from. -/
structure Provenance (baseline : DesiredState) (ledger : SimulationEvidence)
    (projection : Projection) : Prop where
  /-- A node without a marker is the one of the baseline, with the same backing. -/
  unprojected : ∀ node value, projection.graph.node node = some value →
    node ∉ projection.evidence.projectedGraphNodes →
    baseline.graph.node node = some value ∧
      backedBy projection.graph node = backedBy baseline.graph node
  /-- A node with an observed endpoint was in the baseline, and of its kind. -/
  observed : ∀ node value, projection.graph.node node = some value → value.size.block ≠ none →
    ∃ old, baseline.graph.node node = some old ∧ old.size = value.size ∧
      ∀ expected, matchesKind value.kind.kind expected = matchesKind old.kind.kind expected
  /-- No filesystem of the baseline goes, and none changes its backing. -/
  filesystems : ∀ node old, baseline.graph.node node = some old →
    matchesKind old.kind.kind .filesystem = true →
    ∃ value, projection.graph.node node = some value ∧
      (∀ expected, matchesKind value.kind.kind expected = matchesKind old.kind.kind expected) ∧
      backedBy projection.graph node = backedBy baseline.graph node
  relations : projection.graph.relations = baseline.graph.relations
  runtime : projection.evidence.projectedRuntimeMounts = false →
    projection.desired.mounts.runtime = baseline.mounts.runtime
  capacity : ∀ domain, domain ∉ projection.evidence.projectedAllocations →
    projection.evidence.availableCapacity domain = ledger.availableCapacity domain

/-! ### One step -/

section Step

variable {projection next : Projection} {action : ProviderAction} {result : SimulatedAction}
  {node : NodeId}

/-- The ledger of a revocation keeps the markers. -/
theorem revoked_markers {graph : NodeGraph} {evidence : SimulationEvidence}
    {facts : List FactInvalidation} :
    (evidence.revoked graph facts).projectedGraphNodes = evidence.projectedGraphNodes ∧
      (evidence.revoked graph facts).projectedRuntimeMounts = evidence.projectedRuntimeMounts ∧
      (evidence.revoked graph facts).projectedAllocations = evidence.projectedAllocations ∧
      (evidence.revoked graph facts).availableCapacity = evidence.availableCapacity := by
  obtain ⟨_, _, _, hfold⟩ := @foldl_revoke_evidence evidence (expandInvalidations graph facts)
  rw [SimulationEvidence.revoked, SimulationEvidence.invalidateObservations,
    SimulationEvidence.invalidateFilesystemChecks, hfold]
  exact ⟨rfl, rfl, rfl, rfl⟩

/-- A graph effect marks the node that it inserts or updates. -/
theorem applyGraphEffect_unprojected {state state' : Projection} {effect : GraphEffect}
    (h : state.applyGraphEffect effect = .ok state') {value : Node}
    (hvalue : state'.graph.node node = some value)
    (hmarker : node ∉ state'.evidence.projectedGraphNodes) :
    state.graph.node node = some value ∧ node ∉ state.evidence.projectedGraphNodes := by
  cases Projection.applyGraphEffect_step h with
  | @insertNode id spec _ =>
      obtain ⟨hold, hnew⟩ := not_or.mp (mt List.mem_append.mpr hmarker)
      refine ⟨?_, hold⟩
      rwa [Projection.graph, Projection.withGraph,
        NodeGraph.node_setNode_ne (mt List.mem_singleton.mpr hnew)] at hvalue
  | @removeNode removed _ =>
      have hne : node ≠ removed := by
        rintro rfl
        rw [Projection.graph, Projection.removeNode, NodeGraph.node_removeNode,
          if_pos rfl] at hvalue
        cases hvalue
      refine ⟨?_, fun hold => hmarker (List.mem_filter.mpr ⟨hold, by simpa using hne⟩)⟩
      rwa [Projection.graph, Projection.removeNode, NodeGraph.node_removeNode_ne hne] at hvalue
  | @update _ id new _ =>
      rw [Projection.graph, Projection.desired_markProjected] at hvalue
      rw [Projection.markProjected] at hmarker
      split at hmarker
      · next hmarked =>
        have hne : node ≠ id := by
          rintro rfl
          exact hmarker hmarked
        refine ⟨?_, hmarker⟩
        rwa [Projection.withGraph, NodeGraph.node_setNode_ne hne] at hvalue
      · obtain ⟨hold, hnew⟩ := not_or.mp (mt List.mem_append.mpr hmarker)
        refine ⟨?_, hold⟩
        rwa [Projection.withGraph, NodeGraph.node_setNode_ne (mt List.mem_singleton.mpr hnew)]
          at hvalue
  | _ => exact ⟨hvalue, hmarker⟩

/-- The stages after the graph changes leave the graph and its markers alone. -/
theorem markers_of_stages {changed mounted : Projection} {evidence : SimulationEvidence}
    {mounts : List MountEffect} {allocations : List AllocationEffect} {outputs : List ActionOutput}
    (hmounted : mounts.foldlM Projection.applyMountEffect changed = .ok mounted)
    (hallocated : mounted.evidence.applyAllocationEffects allocations = .ok evidence) :
    mounted.graph = changed.graph ∧
      (evidence.applyOutputs outputs).projectedGraphNodes =
        changed.evidence.projectedGraphNodes := by
  obtain ⟨_, _, _, hmounts⟩ := foldlM_applyMountEffect_evidence hmounted
  obtain ⟨_, _, hallocations⟩ := foldlM_applyAllocationEffect_evidence hallocated
  obtain ⟨_, _, houtputs⟩ := @applyOutputs_evidence evidence outputs
  refine ⟨?_, by rw [houtputs, hallocations, hmounts]⟩
  exact foldlM_view Projection.graph
    (fun _ _ _ _ hstep => (Projection.applyMountEffect_step hstep).graph_eq) hmounted

/-- A node without a marker after a step had none before it, and is the same. -/
theorem simulateAction_unprojected (h : simulateAction projection action = .ok (result, next))
    {value : Node} (hvalue : next.graph.node node = some value)
    (hmarker : node ∉ next.evidence.projectedGraphNodes) :
    projection.graph.node node = some value ∧
      node ∉ projection.evidence.projectedGraphNodes := by
  obtain ⟨changed, mounted, evidence, hchanged, hmounted, hallocated, rfl⟩ :=
    simulateAction_stages h
  obtain ⟨hgraph, hmarkers⟩ := markers_of_stages hmounted hallocated
  rw [Projection.graph, show mounted.desired.graph = changed.graph from hgraph] at hvalue
  rw [hmarkers] at hmarker
  refine foldlM_invariant (P := fun state : Projection => ∀ value,
    state.graph.node node = some value → node ∉ state.evidence.projectedGraphNodes →
    projection.graph.node node = some value ∧ node ∉ projection.evidence.projectedGraphNodes)
    ?_ ?_ hchanged value hvalue hmarker
  · intro value hvalue hmarker
    rw [revoked_markers.1] at hmarker
    exact ⟨hvalue, hmarker⟩
  · intro effect _ state state' hstate hstep value hvalue hmarker
    obtain ⟨hvalue, hmarker⟩ := applyGraphEffect_unprojected hstep hvalue hmarker
    exact hstate value hvalue hmarker

/-- The edges of a kind that a step neither inserts nor removes stay as they are. -/
theorem simulateAction_filter (h : simulateAction projection action = .ok (result, next))
    {p : Dependency → Bool}
    (hinsert : ∀ edge, .insertDependency edge ∈ action.graphChanges projection.graph →
      p edge = false)
    (hremove : ∀ edge, .removeDependency edge ∈ action.graphChanges projection.graph →
      p edge = false) :
    next.graph.dependencies.filter p = projection.graph.dependencies.filter p := by
  obtain ⟨changed, mounted, evidence, hchanged, hmounted, hallocated, rfl⟩ :=
    simulateAction_stages h
  rw [Projection.graph, show mounted.desired.graph = changed.graph from
    (@markers_of_stages changed mounted evidence _ _ [] hmounted hallocated).1]
  have hview := foldlM_view (fun state : Projection => state.graph.dependencies.filter p)
    (fun effect heffect state state' hstep => ?_) hchanged
  · exact hview
  · cases Projection.applyGraphEffect_step hstep with
    | insertDependency => exact filter_insert_of_false (hinsert _ heffect)
    | removeDependency _ => exact filter_erase_of_false (hremove _ heffect)
    | update _ =>
        rw [Projection.graph, Projection.desired_markProjected]
        rfl
    | _ => rfl

/-- A node that stays keeps its backing. -/
theorem simulateAction_backedBy (h : simulateAction projection action = .ok (result, next))
    {old value : Node} (hold : projection.graph.node node = some old)
    (hvalue : next.graph.node node = some value) :
    backedBy next.graph node = backedBy projection.graph node := by
  refine simulateAction_filter h (fun edge hinsert => ?_) fun edge hremove => ?_
  · by_contra hbacks
    rw [Bool.not_eq_false, Bool.and_eq_true, beq_iff_eq, isBacks_iff] at hbacks
    -- A new backing edge leads to a new node.
    obtain ⟨spec, hnew⟩ := inserted_target hinsert (by rw [hbacks.2]; rfl)
    have habsent := ((simulateAction_outcome h).of_insertNode hnew).1
    rw [hbacks.1, hold] at habsent
    cases habsent
  · by_contra hbacks
    rw [Bool.not_eq_false, Bool.and_eq_true, beq_iff_eq, isBacks_iff] at hbacks
    rcases removed_of_removeDependency hremove with ⟨gone, hgone, hincident⟩ |
      ⟨filesystem, device, -, rfl⟩
    · obtain ⟨hedge, hends⟩ := mem_incidentDependencies.mp hincident
      have hunused := simulateAction_requires h (describeAction_removed hgone)
      have hsource := (unused_of_noUnexpectedConsumers hunused).1 edge hedge
      have habsent := (simulateAction_outcome h).of_removeNode (removeNode_of_removed hgone) node
      rw [if_pos (hbacks.1.symm.trans (hends.resolve_left hsource)), hvalue] at habsent
      cases habsent
    · obtain ⟨-, -, hmember⟩ := @removedMembership_ends projection.graph filesystem device
      rw [hbacks.2] at hmember
      cases hmember

/-- No action changes a relation. -/
theorem simulateAction_relations (h : simulateAction projection action = .ok (result, next)) :
    next.graph.relations = projection.graph.relations := by
  have hnone : ∀ link, .insertRelation link ∉ action.graphChanges projection.graph ∧
      .removeRelation link ∉ action.graphChanges projection.graph := by
    intro link
    have hshape := action.changeShape projection.graph
    generalize action.graphChanges projection.graph = effects at hshape
    cases hshape with
    | @updated effect _ _ hupdate =>
        constructor
        · rintro hmem
          obtain rfl := List.mem_singleton.mp hmem
          cases hupdate
        · rintro hmem
          obtain rfl := List.mem_singleton.mp hmem
          cases hupdate
    | _ => simp [creation, removal]
  obtain ⟨changed, mounted, evidence, hchanged, hmounted, hallocated, rfl⟩ :=
    simulateAction_stages h
  rw [Projection.graph, show mounted.desired.graph = changed.graph from
    (@markers_of_stages changed mounted evidence _ _ [] hmounted hallocated).1]
  have hview := foldlM_view (fun state : Projection => state.graph.relations)
    (fun effect heffect state state' hstep => ?_) hchanged
  · exact hview
  · cases Projection.applyGraphEffect_step hstep with
    | insertRelation => exact absurd heffect (hnone _).1
    | removeRelation _ => exact absurd heffect (hnone _).2
    | update _ =>
        rw [Projection.graph, Projection.desired_markProjected]
        rfl
    | _ => rfl

/-- A mount effect that leaves no marker leaves the runtime mounts alone. -/
theorem applyMountEffect_runtime {state state' : Projection} {effect : MountEffect}
    (h : state.applyMountEffect effect = .ok state')
    (hmarker : state'.evidence.projectedRuntimeMounts = false) :
    state.evidence.projectedRuntimeMounts = false ∧
      state'.desired.mounts.runtime = state.desired.mounts.runtime := by
  have hpersistent : ∀ target context,
      (state.evidence.markPersistentTarget target context).projectedRuntimeMounts =
        state.evidence.projectedRuntimeMounts := by
    intro target context
    rw [SimulationEvidence.markPersistentTarget]
    split <;> rfl
  cases effect with
  | addRuntime source target options context =>
      rw [Projection.applyMountEffect] at h
      split at h
      · cases h
      · split at h
        · cases h
        · cases h
          cases hmarker
  | removeRuntime target context =>
      rw [Projection.applyMountEffect] at h
      split at h
      · cases h
      · cases h
        cases hmarker
  | setPersistent entry =>
      cases h
      exact ⟨(hpersistent _ _).symm.trans hmarker, rfl⟩
  | removePersistent target context =>
      cases h
      exact ⟨(hpersistent _ _).symm.trans hmarker, rfl⟩

/-- The runtime mounts of a step without the marker are those before it. -/
theorem simulateAction_runtime (h : simulateAction projection action = .ok (result, next))
    (hmarker : next.evidence.projectedRuntimeMounts = false) :
    projection.evidence.projectedRuntimeMounts = false ∧
      next.desired.mounts.runtime = projection.desired.mounts.runtime := by
  obtain ⟨changed, mounted, evidence, hchanged, hmounted, hallocated, rfl⟩ :=
    simulateAction_stages h
  obtain ⟨_, _, hallocations⟩ := foldlM_applyAllocationEffect_evidence hallocated
  obtain ⟨_, _, houtputs⟩ := @applyOutputs_evidence evidence
    (describeAction action projection.graph).providedOutputs
  obtain ⟨_, _, _, hgraph⟩ := foldlM_applyGraphEffect_evidence hchanged
  have hmounts := foldlM_view (·.desired.mounts)
    (fun _ _ _ _ => Projection.applyGraphEffect_mounts) hchanged
  rw [houtputs, hallocations] at hmarker
  have hchanged' : changed.evidence.projectedRuntimeMounts = false ∧
      mounted.desired.mounts.runtime = changed.desired.mounts.runtime := by
    refine foldlM_invariant (P := fun state : Projection =>
      state.evidence.projectedRuntimeMounts = false →
      changed.evidence.projectedRuntimeMounts = false ∧
        state.desired.mounts.runtime = changed.desired.mounts.runtime)
      (fun hmarker => ⟨hmarker, rfl⟩) ?_ hmounted hmarker
    intro effect _ state state' hstate hstep hmarker
    obtain ⟨hmarker, hruntime⟩ := applyMountEffect_runtime hstep hmarker
    obtain ⟨hstart, hstate⟩ := hstate hmarker
    exact ⟨hstart, hruntime.trans hstate⟩
  refine ⟨?_, hchanged'.2.trans (congrArg MountSpec.runtime hmounts)⟩
  have hkept := hchanged'.1
  rwa [hgraph, revoked_markers.2.1] at hkept

/-- An allocation effect marks its domain when it changes what is known of it. -/
theorem applyAllocationEffect_unallocated {evidence evidence' : SimulationEvidence}
    {effect : AllocationEffect} {domain : AllocationDomain}
    (h : evidence.applyAllocationEffect effect = .ok evidence')
    (hmarker : domain ∉ evidence'.projectedAllocations) :
    domain ∉ evidence.projectedAllocations ∧
      evidence'.availableCapacity domain = evidence.availableCapacity domain := by
  have hinsert : ∀ {other : AllocationDomain} {amount : Option AllocationQuantity},
      domain ∉ insert other evidence.projectedAllocations →
      domain ∉ evidence.projectedAllocations ∧
        Function.update evidence.availableCapacity other amount domain =
          evidence.availableCapacity domain := by
    intro other amount hmarker
    obtain ⟨hne, hold⟩ := not_or.mp (mt Finset.mem_insert.mpr hmarker)
    exact ⟨hold, Function.update_of_ne hne _ _⟩
  unfold SimulationEvidence.applyAllocationEffect at h
  split at h
  · cases h
    exact hinsert hmarker
  · split at h
    · cases h
      exact ⟨hmarker, rfl⟩
    · split at h
      · cases h
      · cases h
        exact hinsert hmarker
  · split at h
    · cases h
      exact ⟨hmarker, rfl⟩
    · split at h
      · cases h
      · cases h
        exact hinsert hmarker

/-- The capacity of a domain without a marker is the one before the step. -/
theorem simulateAction_unallocated (h : simulateAction projection action = .ok (result, next))
    {domain : AllocationDomain} (hmarker : domain ∉ next.evidence.projectedAllocations) :
    domain ∉ projection.evidence.projectedAllocations ∧
      next.evidence.availableCapacity domain = projection.evidence.availableCapacity domain := by
  obtain ⟨changed, mounted, evidence, hchanged, hmounted, hallocated, rfl⟩ :=
    simulateAction_stages h
  obtain ⟨_, _, houtputs⟩ := @applyOutputs_evidence evidence
    (describeAction action projection.graph).providedOutputs
  obtain ⟨_, _, _, hmounts⟩ := foldlM_applyMountEffect_evidence hmounted
  obtain ⟨_, _, _, hgraph⟩ := foldlM_applyGraphEffect_evidence hchanged
  rw [houtputs] at hmarker ⊢
  have hallocations : domain ∉ mounted.evidence.projectedAllocations ∧
      evidence.availableCapacity domain = mounted.evidence.availableCapacity domain := by
    refine foldlM_invariant (P := fun ledger : SimulationEvidence =>
      domain ∉ ledger.projectedAllocations → domain ∉ mounted.evidence.projectedAllocations ∧
        ledger.availableCapacity domain = mounted.evidence.availableCapacity domain)
      (fun hmarker => ⟨hmarker, rfl⟩) ?_ hallocated hmarker
    intro effect _ ledger ledger' hledger hstep hmarker
    obtain ⟨hmarker, hcapacity⟩ := applyAllocationEffect_unallocated hstep hmarker
    obtain ⟨hstart, hledger⟩ := hledger hmarker
    exact ⟨hstart, hcapacity.trans hledger⟩
  rw [hmounts, hgraph] at hallocations
  rwa [revoked_markers.2.2.1, revoked_markers.2.2.2] at hallocations

end Step

/-! ### Every run -/

section Run

variable {baseline : DesiredState} {ledger : SimulationEvidence} {projection next : Projection}
  {action : ProviderAction} {result : SimulatedAction}

theorem Provenance.start : Provenance baseline ledger ⟨baseline, ledger⟩ where
  unprojected _ _ hvalue _ := ⟨hvalue, rfl⟩
  observed _ value hvalue _ := ⟨value, hvalue, rfl, fun _ => rfl⟩
  filesystems _ old hold _ := ⟨old, hold, fun _ => rfl, rfl⟩
  relations := rfl
  runtime _ := rfl
  capacity _ _ := rfl

/-- No step removes a filesystem. -/
theorem filesystem_stays (h : simulateAction projection action = .ok (result, next))
    {node : NodeId} {old : Node} (hold : projection.graph.node node = some old)
    (hkind : matchesKind old.kind.kind .filesystem = true) :
    ∃ value, next.graph.node node = some value := by
  refine (simulateAction_outcome h).stays hold fun hremove => ?_
  have hremoved := removed_of_removeNode hremove
  have hother : ∀ {expected : NodeKindClass}, action.subject = some (node, expected) →
      matchesKind old.kind.kind expected = true := by
    intro expected hsubject
    obtain ⟨kind, hkind', hmatches⟩ :=
      kind_of_nodeKind (simulateAction_requires h (describeAction_subject hsubject))
    rw [NodeGraph.kindOf, show projection.desired.graph.node node = some old from hold] at hkind'
    obtain rfl := Option.some.inj hkind'
    exact hmatches
  unfold ProviderAction.removed at hremoved
  split at hremoved
  all_goals cases hremoved
  all_goals
    have hremovable := hother rfl
    cases hkind' : old.kind.kind <;> simp [hkind', matchesKind] at hkind hremovable

/-- **A step keeps the provenance.** -/
theorem Provenance.step (hprovenance : Provenance baseline ledger projection)
    (h : simulateAction projection action = .ok (result, next)) :
    Provenance baseline ledger next where
  unprojected node value hvalue hmarker := by
    obtain ⟨hold, hmarker⟩ := simulateAction_unprojected h hvalue hmarker
    obtain ⟨hbaseline, hbacked⟩ := hprovenance.unprojected node value hold hmarker
    exact ⟨hbaseline, (simulateAction_backedBy h hold hvalue).trans hbacked⟩
  observed node value hvalue hblock := by
    cases hold : projection.graph.node node with
    | none =>
        obtain ⟨spec, -, rfl⟩ := (simulateAction_outcome h).inserted_of_appears hold hvalue
        exact absurd rfl hblock
    | some old =>
        have hsize := (simulateAction_outcome h).size_of_stays hold hvalue
        rw [hsize] at hblock ⊢
        obtain ⟨first, hfirst, hsame, hkind⟩ := hprovenance.observed node old hold hblock
        refine ⟨first, hfirst, hsame, fun expected => ?_⟩
        exact ((simulateAction_outcome h).matches_of_stays hold hvalue expected).trans
          (hkind expected)
  filesystems node first hfirst hfilesystem := by
    obtain ⟨old, hold, hkind, hbacked⟩ := hprovenance.filesystems node first hfirst hfilesystem
    obtain ⟨value, hvalue⟩ := filesystem_stays h hold ((hkind .filesystem).trans hfilesystem)
    refine ⟨value, hvalue, fun expected => ?_,
      (simulateAction_backedBy h hold hvalue).trans hbacked⟩
    exact ((simulateAction_outcome h).matches_of_stays hold hvalue expected).trans (hkind expected)
  relations := (simulateAction_relations h).trans hprovenance.relations
  runtime hmarker := by
    obtain ⟨hmarker, hruntime⟩ := simulateAction_runtime h hmarker
    exact hruntime.trans (hprovenance.runtime hmarker)
  capacity domain hmarker := by
    obtain ⟨hmarker, hcapacity⟩ := simulateAction_unallocated h hmarker
    exact hcapacity.trans (hprovenance.capacity domain hmarker)

/-- **Every state of a run has its provenance.** -/
theorem provenance_of_run {done : List ProviderAction} {before : Projection}
    (h : simulateActions ⟨baseline, ledger⟩ done = .ok before) :
    Provenance baseline ledger before := by
  refine reached_of_steps (P := Provenance baseline ledger) .start
    (fun _ _ _ hstep hbefore => ?_) ⟨done, [], (List.append_nil done).symm, h⟩
  obtain ⟨result, hsimulated⟩ := hstep.simulated
  exact hbefore.step hsimulated

end Run

/-! ### What a check reports -/

/-- What of the baseline no marker follows is still there before the step: the consumers of a node
that is to be unused, the consumers of a node that do not fit, and the node of a mount. -/
def StillObserved (baseline before : DesiredState) : ActionPrerequisite → Prop
  | .noUnexpectedConsumers node =>
      (∀ edge ∈ baseline.graph.dependencies, edge.source = node →
        edge ∈ before.graph.dependencies) ∧
      ∀ entry ∈ baseline.mounts.runtime,
        entry.source.node = some node ∨ entry.source.isUnresolved = true →
        entry ∈ before.mounts.runtime
  | .dependentsFitWithin node size =>
      ∀ edge ∈ baseline.graph.dependencies, edge.source = node → edge.kind = .backs →
        edge ∉ before.graph.dependencies →
        ∃ used, knownSize baseline.graph edge.target = some used ∧ used ≤ size
  | .mountSourceAvailable source =>
      ∃ node kind, source.node = some node ∧ baseline.graph.kindOf node = some kind ∧
        source.compatible kind = true
  | .filesystemUnmounted filesystem => baseline.graph.contains filesystem = true
  | _ => True

/-- The check is satisfied, whatever its evidence. -/
def SatisfiedIn (desired : DesiredState) (evidence : SimulationEvidence)
    (prerequisite : ActionPrerequisite) : Prop :=
  ∃ source, evaluatePrerequisite desired evidence prerequisite = .satisfied source

section Checks

variable {baseline : DesiredState} {capacity : List CapacityEvidence} {ledger : SimulationEvidence}
  {before : Projection} {node : NodeId}

/-- The evidence of a node without a marker is the snapshot. -/
theorem unprojected_of_observed (h : nodeEvidence before.evidence node = .observedSnapshot) :
    node ∉ before.evidence.projectedGraphNodes := by
  intro hmarked
  rw [nodeEvidence, if_pos hmarked] at h
  cases h

theorem unmarked_of_observed (h : mountEvidence before.evidence = .observedSnapshot) :
    before.evidence.projectedRuntimeMounts = false := by
  rw [mountEvidence] at h
  split at h
  · cases h
  · next hmarker => exact Bool.eq_false_iff.mpr hmarker

theorem node_of_observed (hprovenance : Provenance baseline ledger before)
    (hcontains : before.graph.contains node = true)
    (h : nodeEvidence before.evidence node = .observedSnapshot) :
    baseline.graph.node node = before.graph.node node := by
  obtain ⟨value, hvalue⟩ := Option.isSome_iff_exists.mp hcontains
  rw [hvalue]
  exact (hprovenance.unprojected node value hvalue (unprojected_of_observed h)).1

theorem satisfied_nodeExists {desired : DesiredState} {evidence : SimulationEvidence}
    {source : CheckEvidence} :
    evaluatePrerequisite desired evidence (.nodeExists node) = .satisfied source ↔
      desired.graph.contains node = true ∧ nodeEvidence evidence node = source := by
  rw [evaluatePrerequisite]
  split
  · next hcontains => simp [satisfiedForNode, hcontains]
  · next hcontains => simp [hcontains]

theorem satisfied_nodeKind {desired : DesiredState} {evidence : SimulationEvidence}
    {source : CheckEvidence} {expected : NodeKindClass} :
    evaluatePrerequisite desired evidence (.nodeKind node expected) = .satisfied source ↔
      (∃ value, desired.graph.node node = some value ∧
        matchesKind value.kind.kind expected = true) ∧ nodeEvidence evidence node = source := by
  rw [evaluatePrerequisite, NodeGraph.kindOf]
  cases desired.graph.node node with
  | none => simp
  | some value =>
      dsimp only [Option.map_some]
      split
      · next hmatches => simp [satisfiedForNode, hmatches]
      · next hmatches => simp [hmatches]

/-- When and from what `NoUnexpectedConsumers` holds. -/
theorem satisfied_noUnexpectedConsumers {desired : DesiredState} {evidence : SimulationEvidence}
    {source : CheckEvidence} :
    evaluatePrerequisite desired evidence (.noUnexpectedConsumers node) = .satisfied source ↔
      desired.graph.contains node = true ∧
      (∀ edge ∈ desired.graph.dependencies, edge.source ≠ node) ∧
      (∀ entry ∈ desired.mounts.runtime, entry.source.node ≠ some node ∧
        entry.source.isUnresolved = false) ∧ nodeEvidence evidence node = source := by
  rw [evaluatePrerequisite]
  by_cases hcontains : desired.graph.contains node = true
  · rw [hcontains, Bool.not_true, if_neg Bool.false_ne_true]
    by_cases hused : desired.graph.dependencies.any (·.source == node) ||
        desired.mounts.runtime.any (·.source.node == some node)
    · rw [if_pos hused]
      simp only [Bool.or_eq_true, List.any_eq_true, beq_iff_eq] at hused
      simp only [reduceCtorEq, false_iff]
      rintro ⟨-, hedges, hmounts, -⟩
      rcases hused with ⟨edge, hedge, hsource⟩ | ⟨entry, hentry, hsource⟩
      · exact hedges edge hedge hsource
      · exact (hmounts entry hentry).1 hsource
    · rw [if_neg hused]
      by_cases hunresolved : hasUnresolvedMount desired
      · rw [if_pos hunresolved]
        obtain ⟨entry, hentry, hsource⟩ := List.any_eq_true.mp hunresolved
        simp only [reduceCtorEq, false_iff]
        rintro ⟨-, -, hmounts, -⟩
        rw [(hmounts entry hentry).2] at hsource
        cases hsource
      · rw [if_neg hunresolved]
        simp only [Bool.or_eq_true, List.any_eq_true, beq_iff_eq, not_or, not_exists, not_and]
          at hused
        simp only [hasUnresolvedMount, List.any_eq_true, not_exists, not_and, Bool.not_eq_true]
          at hunresolved
        simp only [satisfiedForNode, CheckStatus.satisfied.injEq, true_and]
        refine ⟨fun hsource => ⟨hused.1, fun entry hentry => ?_, hsource⟩, fun h => h.2.2⟩
        exact ⟨hused.2 entry hentry, hunresolved entry hentry⟩
  · simp [hcontains]

theorem satisfied_noUnexpectedRelations {desired : DesiredState} {evidence : SimulationEvidence}
    {source : CheckEvidence} :
    evaluatePrerequisite desired evidence (.noUnexpectedRelations node) = .satisfied source ↔
      desired.graph.contains node = true ∧
      (∀ link ∈ desired.graph.relations, link.source ≠ node ∧ link.target ≠ node) ∧
      nodeEvidence evidence node = source := by
  rw [evaluatePrerequisite]
  by_cases hcontains : desired.graph.contains node = true
  · rw [hcontains, Bool.not_true, if_neg Bool.false_ne_true]
    by_cases hlinked : desired.graph.relations.any fun link =>
        link.source == node || link.target == node
    · rw [if_pos hlinked]
      simp only [List.any_eq_true, Bool.or_eq_true, beq_iff_eq] at hlinked
      obtain ⟨link, hlink, hends⟩ := hlinked
      simp only [reduceCtorEq, false_iff]
      rintro ⟨-, hfree, -⟩
      exact hends.elim (hfree link hlink).1 (hfree link hlink).2
    · rw [if_neg hlinked]
      simp only [List.any_eq_true, Bool.or_eq_true, beq_iff_eq, not_exists, not_and, not_or]
        at hlinked
      simp only [satisfiedForNode, CheckStatus.satisfied.injEq, true_and]
      exact ⟨fun hsource => ⟨hlinked, hsource⟩, fun h => h.2⟩
  · simp [hcontains]

/-- What an endpoint check observes. -/
theorem observed_endpoint {desired : DesiredState} {evidence : SimulationEvidence}
    {writable : Bool}
    (h : evaluateEndpoint desired evidence node writable = .satisfied .observedSnapshot) :
    ∃ value, desired.graph.node node = some value ∧ value.size.block ≠ none ∧
      (writable = true → value.size.block.bind (·.readOnly) = some false) := by
  unfold evaluateEndpoint at h
  split at h
  · cases h
  · next value hvalue =>
    refine ⟨value, hvalue, ?_⟩
    split at h
    · cases h
    · split at h
      · cases h
      · split at h <;> cases h
      · split at h
        · cases h
        · cases writable with
          | false =>
              rw [Bool.not_false, if_pos rfl] at h
              split at h
              · next hblock => exact ⟨Option.isSome_iff_ne_none.mp hblock, nofun⟩
              · cases h
          | true =>
              rw [Bool.not_true, if_neg Bool.false_ne_true] at h
              split at h
              · next hwritable =>
                refine ⟨fun hnone => ?_, fun _ => hwritable⟩
                rw [hnone] at hwritable
                cases hwritable
              · cases h
              · cases h

/-- In a baseline an observed endpoint is enough. -/
theorem endpoint_of_new (hnew : SimulationEvidence.new capacity = .ok ledger) {writable : Bool}
    {value : Node} (hvalue : baseline.graph.node node = some value)
    (hblock : value.size.block ≠ none)
    (hwritable : writable = true → value.size.block.bind (·.readOnly) = some false) :
    evaluateEndpoint baseline ledger node writable = .satisfied .observedSnapshot := by
  rw [SimulationEvidence.eq_of_new hnew, evaluateEndpoint, hvalue]
  cases writable with
  | false => simp [SimulationEvidence.isObservationStale, Option.isSome_iff_ne_none.mpr hblock]
  | true => simp [SimulationEvidence.isObservationStale, hwritable rfl]

/-- When the source of a mount is available. -/
theorem satisfied_mountSource {desired : DesiredState} {evidence : SimulationEvidence}
    {source : MountSource} {origin : CheckEvidence} :
    evaluatePrerequisite desired evidence (.mountSourceAvailable source) = .satisfied origin ↔
      ∃ node kind backing, source.node = some node ∧ desired.graph.kindOf node = some kind ∧
        source.compatible kind = true ∧ kind.isSimpleFilesystem = true ∧
        backingNodes desired.graph node = [backing] ∧
        ((desired.graph.kindOf backing).any fun kind => matchesKind kind .block) = true ∧
        evaluateEndpoint desired evidence backing false = .satisfied origin := by
  rw [evaluatePrerequisite, evaluateMountSource]
  constructor
  · intro h
    split at h
    · cases h
    · next node hnode =>
      split at h
      · cases h
      · next kind hkind =>
        split at h
        · cases h
        · next hcompatible =>
          dsimp only at h
          split at h
          · next hsimple =>
            split at h
            · next backing hbacking =>
              split at h
              · next hblock =>
                exact ⟨node, kind, backing, hnode, hkind, by simpa using hcompatible, hsimple,
                  hbacking, hblock, h⟩
              · cases h
            · cases h
          · cases h
  · rintro ⟨node, kind, backing, hnode, hkind, hcompatible, hsimple, hbacking, hblock, h⟩
    simp [hnode, hkind, hcompatible, hsimple, hbacking, hblock, h]

/-- A simple filesystem is one that is not Btrfs. -/
theorem isSimpleFilesystem_eq (kind : NodeKind) :
    kind.isSimpleFilesystem =
      (matchesKind kind .filesystem && !matchesKind kind .btrfsFilesystem) := by
  cases kind with
  | filesystem kind label => cases kind <;> rfl
  | _ => rfl

/-- What a simple filesystem is mounted from is a filesystem. -/
theorem filesystem_of_compatible {source : MountSource} {kind kind' : NodeKind}
    (h : source.compatible kind = true) (h' : source.compatible kind' = true)
    (hsimple : kind'.isSimpleFilesystem = true) : matchesKind kind .filesystem = true := by
  cases source with
  | filesystem node => cases kind <;> first | rfl | cases h
  | btrfsSubvolume node =>
      cases kind' <;> simp [MountSource.compatible] at h'
      cases hsimple
  | zfsDataset node =>
      cases kind' <;> simp [MountSource.compatible] at h'
      cases hsimple
  | _ => cases h

/-- When the backing of a node is large enough. -/
theorem satisfied_backingSize {desired : DesiredState} {evidence : SimulationEvidence}
    {size : Bytes} {origin : CheckEvidence} :
    evaluatePrerequisite desired evidence (.backingSizeAtLeast node size) = .satisfied origin ↔
      desired.graph.contains node = true ∧ ∃ backing value available,
        backingNodes desired.graph node = [backing] ∧
        desired.graph.node backing = some value ∧ value.kind.size = some available ∧
        size ≤ available ∧ origin = (if node ∈ evidence.projectedGraphNodes ∨
          backing ∈ evidence.projectedGraphNodes then .predictedEffect else .observedSnapshot) := by
  rw [evaluatePrerequisite, evaluateBackingSize]
  by_cases hcontains : desired.graph.contains node = true
  · rw [hcontains, Bool.not_true, if_neg Bool.false_ne_true]
    cases backingNodes desired.graph node with
    | nil => simp
    | cons backing rest =>
        cases rest with
        | cons second rest => simp
        | nil =>
            dsimp only
            rw [List.isEmpty_nil, Bool.not_true, if_neg Bool.false_ne_true]
            cases hvalue : desired.graph.node backing with
            | none => simp [hvalue]
            | some value =>
                dsimp only
                cases hsize : value.kind.size with
                | none => simp [hvalue, hsize]
                | some available =>
                    dsimp only
                    by_cases hsmall : available < size
                    · have hnot : ¬size ≤ available := Nat.not_le.mpr hsmall
                      simp [hvalue, hsize, hsmall, hnot]
                    · have hlarge : size ≤ available := Nat.not_lt.mp hsmall
                      rw [if_neg hsmall]
                      simp only [Bool.or_eq_true, decide_eq_true_eq]
                      split
                      · next hmarked => simp [hvalue, hsize, hlarge, hmarked, eq_comm]
                      · next hmarked => simp [hvalue, hsize, hlarge, hmarked, eq_comm]
  · simp [hcontains]

/-- A scan that reports the snapshot met no marker. -/
theorem observed_scanDependents {desired : DesiredState} {evidence : SimulationEvidence}
    {size : Bytes} {edges : List Dependency} {found unknown predicted : Bool}
    (h : scanDependents desired evidence node size edges found unknown predicted =
      .satisfied .observedSnapshot) :
    (∀ edge ∈ edges, edge.target ∉ evidence.projectedGraphNodes) ∧
      (predicted = false ∨ found = false ∧ nodeEvidence evidence node = .observedSnapshot) := by
  induction edges generalizing found unknown predicted with
  | nil =>
      refine ⟨nofun, ?_⟩
      rw [scanDependents] at h
      split at h
      · cases h
      · cases found with
        | true =>
            rw [if_pos rfl] at h
            split at h
            · cases h
            · next hpredicted => exact .inl (Bool.eq_false_iff.mpr hpredicted)
        | false => exact .inr ⟨rfl, CheckStatus.satisfied.inj h⟩
  | cons edge rest ih =>
      rw [scanDependents] at h
      -- The scan goes on with the marker of this dependent added.
      have hgoes : ∃ unknown', scanDependents desired evidence node size rest true unknown'
          (predicted || edge.target ∈ evidence.projectedGraphNodes) =
          .satisfied .observedSnapshot := by
        split at h
        · cases h
        · split at h
          · exact ⟨_, h⟩
          · split at h
            · cases h
            · exact ⟨_, h⟩
      obtain ⟨_, hgoes⟩ := hgoes
      obtain ⟨hrest, hmarker | ⟨hfound, -⟩⟩ := ih hgoes
      · obtain ⟨hpredicted, htarget⟩ := Bool.or_eq_false_iff.mp hmarker
        refine ⟨fun other hother => ?_, .inl hpredicted⟩
        rcases List.mem_cons.mp hother with rfl | hother
        · exact of_decide_eq_false htarget
        · exact hrest other hother
      · cases hfound

section Observed

variable (hnew : SimulationEvidence.new capacity = .ok ledger)
  (hprovenance : Provenance baseline ledger before)

include hprovenance

theorem observed_noUnexpectedConsumers
    (h : evaluatePrerequisite before.desired before.evidence (.noUnexpectedConsumers node) =
      .satisfied .observedSnapshot) :
    SatisfiedIn baseline ledger (.noUnexpectedConsumers node) ↔
      StillObserved baseline before.desired (.noUnexpectedConsumers node) := by
  obtain ⟨hcontains, hedges, hmounts, hevidence⟩ := satisfied_noUnexpectedConsumers.mp h
  have hnode := node_of_observed hprovenance hcontains hevidence
  simp only [SatisfiedIn, satisfied_noUnexpectedConsumers, StillObserved]
  constructor
  · rintro ⟨source, -, hfree, hunmounted, -⟩
    refine ⟨fun edge hedge hsource => absurd hsource (hfree edge hedge), ?_⟩
    rintro entry hentry (hsource | hunresolved)
    · exact absurd hsource (hunmounted entry hentry).1
    · exact absurd ((hunmounted entry hentry).2.symm.trans hunresolved) nofun
  · rintro ⟨hkept, hmounted⟩
    refine ⟨_, ?_, fun edge hedge hsource => ?_, fun entry hentry => ?_, rfl⟩
    · rwa [NodeGraph.contains, hnode]
    · exact hedges edge (hkept edge hedge hsource) hsource
    · by_contra hconcerned
      have hsource : entry.source.node = some node ∨ entry.source.isUnresolved = true := by
        by_contra hneither
        obtain ⟨hother, hresolved⟩ := not_or.mp hneither
        exact hconcerned ⟨hother, Bool.eq_false_iff.mpr hresolved⟩
      exact hconcerned (hmounts entry (hmounted entry hentry hsource))

theorem observed_dependentsFitWithin {size : Bytes}
    (h : evaluatePrerequisite before.desired before.evidence (.dependentsFitWithin node size) =
      .satisfied .observedSnapshot) :
    SatisfiedIn baseline ledger (.dependentsFitWithin node size) ↔
      StillObserved baseline before.desired (.dependentsFitWithin node size) := by
  obtain ⟨hcontains, hfit⟩ := evaluateDependentSizes_satisfied.mp ⟨_, h⟩
  rw [evaluatePrerequisite, evaluateDependentSizes, hcontains, Bool.not_true,
    if_neg Bool.false_ne_true] at h
  obtain ⟨htargets, hmarker⟩ := observed_scanDependents h
  have hunmarked : node ∉ before.evidence.projectedGraphNodes := by
    rcases hmarker with hmarker | ⟨-, hevidence⟩
    · exact of_decide_eq_false hmarker
    · exact unprojected_of_observed hevidence
  rw [SatisfiedIn, evaluateDependentSizes_satisfied]
  constructor
  · intro hbaseline edge hedge hsource hbacks _
    exact hbaseline.2 edge hedge hsource hbacks
  · intro hstill
    obtain ⟨value, hvalue⟩ := Option.isSome_iff_exists.mp hcontains
    refine ⟨?_, fun edge hedge hsource hbacks => ?_⟩
    · rw [NodeGraph.contains, (hprovenance.unprojected node value hvalue hunmarked).1]
      rfl
    · by_cases hkept : edge ∈ before.desired.graph.dependencies
      · -- The consumer is still there and carries no marker, so it is the one of the baseline.
        obtain ⟨used, hused, hsmall⟩ := hfit edge hkept hsource hbacks
        have htarget := htargets edge (List.mem_filter.mpr ⟨hkept, by simp [hsource, hbacks,
          DependencyKind.isBacks]⟩)
        refine ⟨used, ?_, hsmall⟩
        rw [knownSize, Option.bind_eq_some_iff] at hused ⊢
        obtain ⟨consumer, hconsumer, hsize⟩ := hused
        exact ⟨consumer, (hprovenance.unprojected _ consumer hconsumer htarget).1, hsize⟩
      · exact hstill edge hedge hsource hbacks hkept

theorem observed_filesystemUnmounted
    (h : evaluatePrerequisite before.desired before.evidence (.filesystemUnmounted node) =
      .satisfied .observedSnapshot) :
    SatisfiedIn baseline ledger (.filesystemUnmounted node) ↔
      StillObserved baseline before.desired (.filesystemUnmounted node) := by
  obtain ⟨-, hunseen⟩ := filesystemUnmounted_satisfied.mp ⟨_, h⟩
  have hmarker : mountEvidence before.evidence = .observedSnapshot := by
    rw [evaluatePrerequisite] at h
    split at h
    · cases h
    · split at h
      · cases h
      · split at h
        · cases h
        · exact CheckStatus.satisfied.inj h
  have hruntime := hprovenance.runtime (unmarked_of_observed hmarker)
  rw [SatisfiedIn, filesystemUnmounted_satisfied, StillObserved]
  refine ⟨fun h => h.1, fun hcontains => ⟨hcontains, fun hseen => hunseen ?_⟩⟩
  rwa [SeenMounted, hruntime]

/-- An observed mount source is available in the baseline. -/
theorem observed_mountSourceAvailable (hnew : SimulationEvidence.new capacity = .ok ledger)
    {source : MountSource}
    (h : evaluatePrerequisite before.desired before.evidence (.mountSourceAvailable source) =
      .satisfied .observedSnapshot) :
    SatisfiedIn baseline ledger (.mountSourceAvailable source) ↔
      StillObserved baseline before.desired (.mountSourceAvailable source) := by
  simp only [SatisfiedIn, StillObserved, satisfied_mountSource]
  constructor
  · rintro ⟨origin, node, kind, backing, hnode, hkind, hcompatible, -⟩
    exact ⟨node, kind, hnode, hkind, hcompatible⟩
  · rintro ⟨node, kind, hnode, hkind, hcompatible⟩
    obtain ⟨node', kind', backing, hnode', hkind', hcompatible', hsimple, hbacking, hblock,
      hendpoint⟩ := satisfied_mountSource.mp h
    obtain rfl := Option.some.inj (hnode.symm.trans hnode')
    obtain ⟨old, hold, rfl⟩ := Option.map_eq_some_iff.mp hkind
    -- The mounted node is a filesystem, and those of the baseline stay.
    have hfilesystem := filesystem_of_compatible hcompatible hcompatible' hsimple
    obtain ⟨value, hvalue, hclass, hbacked⟩ := hprovenance.filesystems node old hold hfilesystem
    obtain ⟨endpoint, hend, hobserved, -⟩ := observed_endpoint hendpoint
    obtain ⟨first, hfirst, hsize, hfirstclass⟩ :=
      hprovenance.observed backing endpoint hend hobserved
    refine ⟨.observedSnapshot, node, old.kind.kind, backing, hnode, hkind, hcompatible, ?_, ?_, ?_,
      ?_⟩
    · rw [NodeGraph.kindOf, show before.desired.graph.node node = some value from hvalue] at hkind'
      obtain rfl := Option.some.inj hkind'
      rwa [isSimpleFilesystem_eq, ← hclass, ← hclass, ← isSimpleFilesystem_eq]
    · rw [← hbacking]
      exact (congrArg (List.map Dependency.source) hbacked).symm
    · rw [NodeGraph.kindOf, hend] at hblock
      rw [NodeGraph.kindOf, hfirst]
      exact (hfirstclass .block).symm.trans hblock
    · exact endpoint_of_new hnew hfirst (by rwa [hsize]) nofun

theorem observed_backingSizeAtLeast {size : Bytes}
    (h : evaluatePrerequisite before.desired before.evidence (.backingSizeAtLeast node size) =
      .satisfied .observedSnapshot) :
    SatisfiedIn baseline ledger (.backingSizeAtLeast node size) := by
  obtain ⟨hcontains, backing, value, available, hbacking, hvalue, hsize, hlarge, horigin⟩ :=
    satisfied_backingSize.mp h
  split at horigin
  · cases horigin
  · next hmarkers =>
    obtain ⟨hunmarked, hbackingUnmarked⟩ := not_or.mp hmarkers
    obtain ⟨old, hold⟩ := Option.isSome_iff_exists.mp hcontains
    obtain ⟨hbaseline, hbacked⟩ := hprovenance.unprojected node old hold hunmarked
    refine ⟨_, satisfied_backingSize.mpr
      ⟨?_, backing, value, available, ?_, ?_, hsize, hlarge, rfl⟩⟩
    · rw [NodeGraph.contains, hbaseline]
      rfl
    · rw [← hbacking]
      exact (congrArg (List.map Dependency.source) hbacked).symm
    · exact (hprovenance.unprojected backing value hvalue hbackingUnmarked).1

theorem observed_capacityAvailable {domain : AllocationDomain} {amount : Option AllocationQuantity}
    (h : evaluatePrerequisite before.desired before.evidence (.capacityAvailable domain amount) =
      .satisfied .observedSnapshot) :
    SatisfiedIn baseline ledger (.capacityAvailable domain amount) := by
  cases amount with
  | none => cases h
  | some amount =>
      rw [evaluatePrerequisite, evaluateCapacity] at h
      split at h
      · cases h
      · next available havailable =>
        split at h
        · cases h
        · next henough =>
          split at h
          · cases h
          · next hmarker =>
            rw [hprovenance.capacity domain hmarker] at havailable
            rw [SatisfiedIn, evaluatePrerequisite, evaluateCapacity]
            rw [havailable]
            dsimp only
            rw [if_neg henough]
            split <;> exact ⟨_, rfl⟩

theorem observed_mountTargetAvailable {target : PathBuf} {context : MountContext}
    (h : evaluatePrerequisite before.desired before.evidence
      (.mountTargetAvailable target context) =
      .satisfied .observedSnapshot) :
    SatisfiedIn baseline ledger (.mountTargetAvailable target context) := by
  rw [evaluatePrerequisite, mountAt] at h
  split at h
  · cases h
  · next hfree =>
    have hruntime := hprovenance.runtime (unmarked_of_observed (CheckStatus.satisfied.inj h))
    rw [hruntime] at hfree
    rw [SatisfiedIn, evaluatePrerequisite, mountAt, if_neg hfree]
    exact ⟨_, rfl⟩

theorem observed_mountDescendantsAbsent {target : PathBuf} {context : MountContext}
    (h : evaluatePrerequisite before.desired before.evidence
      (.mountDescendantsAbsent target context) = .satisfied .observedSnapshot) :
    SatisfiedIn baseline ledger (.mountDescendantsAbsent target context) := by
  rw [evaluatePrerequisite, hasMountedDescendant] at h
  split at h
  · cases h
  · next hfree =>
    have hruntime := hprovenance.runtime (unmarked_of_observed (CheckStatus.satisfied.inj h))
    rw [hruntime] at hfree
    rw [SatisfiedIn, evaluatePrerequisite, hasMountedDescendant, if_neg hfree]
    exact ⟨_, rfl⟩

end Observed

end Checks

/-- **The origin of a check.**  In every run from a baseline, a check that a step reports as
satisfied by the observed snapshot is satisfied in the baseline exactly when the part of the
baseline that no marker follows is still there before the step. -/
theorem observed_check_iff {baseline : DesiredState} {capacity : List CapacityEvidence}
    {ledger : SimulationEvidence} (hnew : SimulationEvidence.new capacity = .ok ledger)
    {done : List ProviderAction} {before after : Projection} {action : ProviderAction}
    {result : SimulatedAction} (hrun : simulateActions ⟨baseline, ledger⟩ done = .ok before)
    (hstep : simulateAction before action = .ok (result, after)) {check : PrerequisiteCheck}
    (hcheck : check ∈ result.checks) (hobserved : check.status = .satisfied .observedSnapshot) :
    SatisfiedIn baseline ledger check.prerequisite ↔
      StillObserved baseline before.desired check.prerequisite := by
  have hprovenance := provenance_of_run hrun
  obtain ⟨-, hchecks, -⟩ := simulateAction_ok hstep
  rw [hchecks] at hcheck
  obtain ⟨condition, -, rfl⟩ := List.mem_map.mp hcheck
  -- What the graph markers follow still holds in the baseline; the rest has a lemma of its own.
  cases condition with
  | nodeExists node =>
      obtain ⟨hcontains, hevidence⟩ := satisfied_nodeExists.mp hobserved
      refine iff_of_true ⟨_, satisfied_nodeExists.mpr ⟨?_, rfl⟩⟩ trivial
      rwa [NodeGraph.contains, node_of_observed hprovenance hcontains hevidence]
  | nodeKind node expected =>
      obtain ⟨⟨value, hvalue, hmatches⟩, hevidence⟩ := satisfied_nodeKind.mp hobserved
      have hold := hprovenance.unprojected node value hvalue (unprojected_of_observed hevidence)
      exact iff_of_true ⟨_, satisfied_nodeKind.mpr ⟨⟨value, hold.1, hmatches⟩, rfl⟩⟩ trivial
  | noUnexpectedConsumers node => exact observed_noUnexpectedConsumers hprovenance hobserved
  | noUnexpectedRelations node =>
      obtain ⟨hcontains, hfree, hevidence⟩ := satisfied_noUnexpectedRelations.mp hobserved
      refine iff_of_true ⟨_, satisfied_noUnexpectedRelations.mpr ⟨?_, ?_, rfl⟩⟩ trivial
      · rwa [NodeGraph.contains, node_of_observed hprovenance hcontains hevidence]
      · rw [← hprovenance.relations]
        exact hfree
  | writable node =>
      obtain ⟨value, hvalue, hblock, hwritable⟩ := observed_endpoint hobserved
      obtain ⟨old, hold, hsize, -⟩ := hprovenance.observed node value hvalue hblock
      rw [← hsize] at hblock hwritable
      exact iff_of_true ⟨_, endpoint_of_new hnew hold hblock hwritable⟩ trivial
  | mountSourceAvailable source => exact observed_mountSourceAvailable hprovenance hnew hobserved
  | filesystemUnmounted filesystem => exact observed_filesystemUnmounted hprovenance hobserved
  -- No observation ever answers these.
  | filesystemCheckPassed filesystem =>
      rw [evaluatePrerequisite] at hobserved
      split at hobserved <;> cases hobserved
  | distinctNodes nodes =>
      rw [evaluatePrerequisite] at hobserved
      split at hobserved <;> cases hobserved
  | dependentsFitWithin node size => exact observed_dependentsFitWithin hprovenance hobserved
  | backingSizeAtLeast node size =>
      exact iff_of_true (observed_backingSizeAtLeast hprovenance hobserved) trivial
  | capacityAvailable domain amount =>
      exact iff_of_true (observed_capacityAvailable hprovenance hobserved) trivial
  | mountTargetAvailable target context =>
      exact iff_of_true (observed_mountTargetAvailable hprovenance hobserved) trivial
  | mountDescendantsAbsent target context =>
      exact iff_of_true (observed_mountDescendantsAbsent hprovenance hobserved) trivial
  | filesystemMinimumSize | destructiveApproval | credentialAvailable | extentAvailable =>
      cases hobserved

/-- A disk that is formatted, and its filesystem checked. -/
def formattedDisk : NodeId := ⟨1#128⟩

/-- The filesystem made on the disk. -/
def formattedFilesystem : NodeId := ⟨2#128⟩

/-- A second disk, and its filesystem. -/
def spareDisk : NodeId := ⟨3#128⟩

/-- The filesystem made on the spare disk. -/
def spareFilesystem : NodeId := ⟨4#128⟩

/-- Two free disks. -/
def formattedBaseline : DesiredState where
  graph := (NodeGraph.empty.setNode formattedDisk ⟨⟨.disk, some 100⟩, {}⟩).setNode spareDisk
    ⟨⟨.disk, some 100⟩, {}⟩
  mounts := {}
  boot := .unmanaged
  intents := []

/-- Formats the disk. -/
def formatDisk : ProviderAction :=
  .filesystem (.create formattedDisk formattedFilesystem .ext4 none)

/-- Formats the spare disk. -/
def formatSpare : ProviderAction :=
  .filesystem (.create spareDisk spareFilesystem .ext4 none)

/-- After the first disk is formatted, that the second is free is observed, and was so in the
baseline. -/
theorem free_disk_observed :
    ∃ before result after,
      simulateActions ⟨formattedBaseline, {}⟩ [formatDisk] = .ok before ∧
      simulateAction before formatSpare = .ok (result, after) ∧
      ⟨.noUnexpectedConsumers spareDisk, .satisfied .observedSnapshot⟩ ∈ result.checks ∧
      SatisfiedIn formattedBaseline {} (.noUnexpectedConsumers spareDisk) := by
  obtain ⟨before, result, after, hrun, hstep, hcheck⟩ : ∃ before result after,
      simulateActions ⟨formattedBaseline, {}⟩ [formatDisk] = .ok before ∧
      simulateAction before formatSpare = .ok (result, after) ∧
      ⟨.noUnexpectedConsumers spareDisk, .satisfied .observedSnapshot⟩ ∈ result.checks :=
    ⟨_, _, _, rfl, rfl, by decide +kernel⟩
  have hnew : SimulationEvidence.new [] = .ok {} := rfl
  refine ⟨before, result, after, hrun, hstep, hcheck,
    (observed_check_iff hnew hrun hstep hcheck rfl).mpr ?_⟩
  -- The baseline has no edge and no mount that could have gone.
  constructor
  · intro edge hedge
    cases hedge
  · intro entry hentry
    cases hentry

/-- That a filesystem created by the plan is unmounted is reported as observed, though the baseline
does not have it. -/
theorem created_filesystem_observed :
    ∃ before result after, simulateActions ⟨formattedBaseline, {}⟩ [formatDisk] = .ok before ∧
      simulateAction before (.filesystem (.check formattedFilesystem false)) =
        .ok (result, after) ∧
      ⟨.filesystemUnmounted formattedFilesystem, .satisfied .observedSnapshot⟩ ∈ result.checks ∧
      ¬SatisfiedIn formattedBaseline {} (.filesystemUnmounted formattedFilesystem) := by
  refine ⟨_, _, _, rfl, rfl, by decide +kernel, ?_⟩
  rintro ⟨source, hsatisfied⟩
  cases hsatisfied

end DisksGraph
