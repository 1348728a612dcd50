import DisksGraph.Engine.Prerequisites
import DisksGraph.Support.Returns

/-!
# Engine — Effects

`simulate_action` (`effects.rs`): describe, check and conditionally project one typed action onto a
`DesiredState` and its evidence.

The source works on clones and publishes both only after every effect and the representation check
succeeded, so the model returns the new pair in `Except`: on an error nothing is published.
-/

namespace DisksGraph

/-- The configuration under simulation together with its temporary evidence. -/
structure Projection where
  desired : DesiredState
  evidence : SimulationEvidence

namespace Projection

/-- The projected graph. -/
def graph (projection : Projection) : NodeGraph := projection.desired.graph

/-- The projection with another graph. -/
def withGraph (projection : Projection) (graph : NodeGraph) : Projection :=
  { projection with desired := { projection.desired with graph } }

/-- Marks a node's properties as projected, once. -/
def markProjected (projection : Projection) (id : NodeId) : Projection :=
  if id ∈ projection.evidence.projectedGraphNodes then projection
  else { projection with
    evidence := { projection.evidence with
      projectedGraphNodes := projection.evidence.projectedGraphNodes ++ [id] } }

theorem desired_markProjected {projection : Projection} {id : NodeId} :
    (projection.markProjected id).desired = projection.desired := by
  unfold markProjected
  split <;> rfl

/-! ### Graph effects -/

/-- Replaces one node only after a type-specific update succeeds. -/
def updateNode (projection : Projection) (id : NodeId) (effect : String)
    (update : Node → Option Node) : Except EffectApplicationError Projection :=
  match projection.graph.node id with
  | none => .error (.missingNode id)
  | some node =>
      match update node with
      | none => .error (.wrongNodeKind id effect)
      | some node =>
          match projection.graph.replaceExisting id node with
          | .error error => .error (.structure error)
          | .ok graph => .ok ((projection.withGraph graph).markProjected id)

/-- An update that succeeds replaces the stored node by the updated one. -/
theorem updateNode_ok {projection projection' : Projection} {id : NodeId} {effect : String}
    {update : Node → Option Node} (h : projection.updateNode id effect update = .ok projection') :
    ∃ old value, projection.graph.node id = some old ∧ update old = some value ∧
      projection' =
        (projection.withGraph (projection.graph.setNode id value)).markProjected id := by
  unfold updateNode at h
  split at h
  · cases h
  · next old hold =>
    split at h
    · cases h
    · next value hvalue =>
      unfold NodeGraph.replaceExisting at h
      split at h
      · cases h
      · next graph hgraph =>
        split at hgraph
        · obtain rfl := Except.ok.inj hgraph
          exact ⟨old, value, hold, hvalue, (Except.ok.inj h).symm⟩
        · cases hgraph

/-- `value.kind.size = size`. -/
def setSize (size : Option Bytes) (node : Node) : Option Node :=
  some { node with kind := { node.kind with size } }

/-- Replaces the attributes of a partition. -/
def setAttributes (attributes : PartitionAttributes) (node : Node) : Option Node :=
  match node.kind.kind with
  | .partition number offset role _ =>
      some { node with kind := { node.kind with kind := .partition number offset role attributes } }
  | _ => none

/-- Replaces the label of a filesystem. -/
def setLabel (label : Option String) (node : Node) : Option Node :=
  match node.kind.kind with
  | .filesystem kind _ =>
      some { node with kind := { node.kind with kind := .filesystem kind label } }
  | _ => none

/-- Replaces the profiles of a Btrfs filesystem. -/
def setAllocation (allocation : BtrfsAllocation) (node : Node) : Option Node :=
  match node.kind.kind with
  | .filesystem (.btrfs _) label =>
      some { node with kind := { node.kind with kind := .filesystem (.btrfs allocation) label } }
  | _ => none

/-- Removes a node and the evidence about it. -/
def removeNode (projection : Projection) (node : NodeId) : Projection where
  desired := { projection.desired with graph := projection.graph.removeNode node }
  evidence := { projection.evidence with
    projectedGraphNodes := projection.evidence.projectedGraphNodes.filter (· ≠ node)
    activations := Function.update projection.evidence.activations node none
    blockInterfaces := Function.update projection.evidence.blockInterfaces node none }

/-- Records an activation; a deactivation also revokes the node's endpoint. -/
def setActivation (projection : Projection) (node : NodeId) (active : Bool) : Projection :=
  { projection with
    evidence := { projection.evidence with
      activations := Function.update projection.evidence.activations node (some active)
      blockInterfaces :=
        if active then projection.evidence.blockInterfaces
        else Function.update projection.evidence.blockInterfaces node none } }

/-- Applies one graph change to an unpublished candidate. -/
def applyGraphEffect (projection : Projection) :
    GraphEffect → Except EffectApplicationError Projection
  | .insertNode id spec =>
      if projection.graph.contains id then .error (.duplicateNode id)
      else match projection.graph.insertNew id { kind := spec, size := {} } with
        | .error error => .error (.structure error)
        | .ok graph =>
            .ok { (projection.withGraph graph) with
              evidence := { projection.evidence with
                projectedGraphNodes := projection.evidence.projectedGraphNodes ++ [id] } }
  | .removeNode node =>
      if !projection.graph.contains node then .error (.missingNode node)
      else .ok (projection.removeNode node)
  | .setNodeSize node size => projection.updateNode node "set node size" (setSize (some size))
  | .invalidateNodeSize node => projection.updateNode node "invalidate node size" (setSize none)
  | .setPartitionAttributes partition attributes =>
      projection.updateNode partition "set partition attributes" (setAttributes attributes)
  | .setFilesystemLabel filesystem label =>
      projection.updateNode filesystem "set filesystem label" (setLabel label)
  | .setBtrfsAllocation filesystem allocation =>
      projection.updateNode filesystem "set Btrfs allocation" (setAllocation allocation)
  | .insertDependency dependency =>
      .ok (projection.withGraph (projection.graph.insertDependency dependency))
  | .removeDependency dependency =>
      if dependency ∈ projection.graph.dependencies then
        .ok (projection.withGraph (projection.graph.removeDependency dependency))
      else .error .missingDependency
  | .insertRelation relation =>
      .ok (projection.withGraph (projection.graph.insertRelation relation))
  | .removeRelation relation =>
      if relation ∈ projection.graph.relations then
        .ok (projection.withGraph (projection.graph.removeRelation relation))
      else .error .missingRelation
  | .setActivation node active =>
      if !projection.graph.contains node then .error (.missingNode node)
      else .ok (projection.setActivation node active)

/-- The node whose properties an effect replaces. -/
def updatedNode : GraphEffect → Option NodeId
  | .setNodeSize node _ | .invalidateNodeSize node => some node
  | .setPartitionAttributes partition _ => some partition
  | .setFilesystemLabel filesystem _ | .setBtrfsAllocation filesystem _ => some filesystem
  | _ => none

/-- Everything that one graph effect can do. -/
inductive GraphStep (projection : Projection) : GraphEffect → Projection → Prop where
  | insertNode {id : NodeId} {spec : NodeSpec} (h : projection.graph.contains id = false) :
      GraphStep projection (.insertNode id spec)
        { (projection.withGraph (projection.graph.setNode id { kind := spec, size := {} })) with
          evidence := { projection.evidence with
            projectedGraphNodes := projection.evidence.projectedGraphNodes ++ [id] } }
  | removeNode {node : NodeId} (h : projection.graph.contains node = true) :
      GraphStep projection (.removeNode node) (projection.removeNode node)
  | update {effect : GraphEffect} {id : NodeId} {value : Node} (h : updatedNode effect = some id) :
      GraphStep projection effect
        ((projection.withGraph (projection.graph.setNode id value)).markProjected id)
  | insertDependency {dependency : Dependency} :
      GraphStep projection (.insertDependency dependency)
        (projection.withGraph (projection.graph.insertDependency dependency))
  | removeDependency {dependency : Dependency}
      (h : dependency ∈ projection.graph.dependencies) :
      GraphStep projection (.removeDependency dependency)
        (projection.withGraph (projection.graph.removeDependency dependency))
  | insertRelation {relation : Relation} :
      GraphStep projection (.insertRelation relation)
        (projection.withGraph (projection.graph.insertRelation relation))
  | removeRelation {relation : Relation} (h : relation ∈ projection.graph.relations) :
      GraphStep projection (.removeRelation relation)
        (projection.withGraph (projection.graph.removeRelation relation))
  | setActivation {node : NodeId} {active : Bool} (h : projection.graph.contains node = true) :
      GraphStep projection (.setActivation node active) (projection.setActivation node active)

theorem applyGraphEffect_step {projection projection' : Projection} {effect : GraphEffect}
    (h : projection.applyGraphEffect effect = .ok projection') :
    GraphStep projection effect projection' := by
  -- The five property effects share `update_node`.
  have hupdate : ∀ {id : NodeId} {name : String} {update : Node → Option Node},
      projection.updateNode id name update = .ok projection' → updatedNode effect = some id →
      GraphStep projection effect projection' := by
    intro id name update h hid
    obtain ⟨_, value, _, _, rfl⟩ := updateNode_ok h
    exact .update hid
  unfold applyGraphEffect at h
  cases effect with
  | insertNode id spec =>
      dsimp only at h
      split at h
      · cases h
      · next hcontains =>
        rw [NodeGraph.insertNew, if_neg hcontains] at h
        cases h
        exact .insertNode (Bool.eq_false_iff.mpr hcontains)
  | removeNode node =>
      dsimp only at h
      split at h
      · cases h
      · next hcontains =>
        cases h
        exact .removeNode (by simpa using hcontains)
  | setNodeSize node size => exact hupdate h rfl
  | invalidateNodeSize node => exact hupdate h rfl
  | setPartitionAttributes partition attributes => exact hupdate h rfl
  | setFilesystemLabel filesystem label => exact hupdate h rfl
  | setBtrfsAllocation filesystem allocation => exact hupdate h rfl
  | insertDependency dependency =>
      cases h
      exact .insertDependency
  | removeDependency dependency =>
      dsimp only at h
      split at h
      · next hmem =>
        cases h
        exact .removeDependency hmem
      · cases h
  | insertRelation relation =>
      cases h
      exact .insertRelation
  | removeRelation relation =>
      dsimp only at h
      split at h
      · next hmem =>
        cases h
        exact .removeRelation hmem
      · cases h
  | setActivation node active =>
      dsimp only at h
      split at h
      · cases h
      · next hcontains =>
        cases h
        exact .setActivation (by simpa using hcontains)

/-- How an effect replaces the properties of its node. -/
def nodeUpdate : GraphEffect → Option (NodeId × (Node → Option Node))
  | .setNodeSize node size => some (node, setSize (some size))
  | .invalidateNodeSize node => some (node, setSize none)
  | .setPartitionAttributes partition attributes => some (partition, setAttributes attributes)
  | .setFilesystemLabel filesystem label => some (filesystem, setLabel label)
  | .setBtrfsAllocation filesystem allocation => some (filesystem, setAllocation allocation)
  | _ => none

/-- The value that an update stores comes from the one that was there. -/
theorem applyGraphEffect_update {projection projection' : Projection} {effect : GraphEffect}
    {id : NodeId} {update : Node → Option Node}
    (h : projection.applyGraphEffect effect = .ok projection')
    (hupdate : nodeUpdate effect = some (id, update)) :
    ∃ old value, projection.graph.node id = some old ∧ update old = some value ∧
      projection'.graph = projection.graph.setNode id value := by
  have hvalue : ∀ {name : String}, projection.updateNode id name update = .ok projection' →
      ∃ old value, projection.graph.node id = some old ∧ update old = some value ∧
        projection'.graph = projection.graph.setNode id value := by
    intro name h
    obtain ⟨old, value, hold, hvalue, rfl⟩ := updateNode_ok h
    refine ⟨old, value, hold, hvalue, ?_⟩
    rw [graph, desired_markProjected]
    rfl
  unfold nodeUpdate at hupdate
  split at hupdate
  all_goals cases hupdate
  all_goals
    unfold applyGraphEffect at h
    exact hvalue h

/-- No graph effect changes a mount. -/
theorem applyGraphEffect_mounts {projection projection' : Projection} {effect : GraphEffect}
    (h : projection.applyGraphEffect effect = .ok projection') :
    projection'.desired.mounts = projection.desired.mounts := by
  cases applyGraphEffect_step h with
  | update _ =>
      rw [desired_markProjected]
      rfl
  | _ => rfl

/-! ### Mount effects -/

/-- A new runtime mount revokes the clean checks its source may undo. -/
def uncheckSource (source : MountSource) (evidence : SimulationEvidence) : SimulationEvidence :=
  match source with
  | .filesystem filesystem =>
      { evidence with checkedFilesystems := evidence.checkedFilesystems.erase filesystem }
  | .bind _ | .other _ => { evidence with checkedFilesystems := ∅ }
  | _ => evidence

/-- The entry is at neither the target nor the context. -/
def elsewhere (target : PathBuf) (context : MountContext) (entry : MountEntry) : Bool :=
  entry.target != target || entry.context != context

/-- Applies one mount change without conflating runtime and persistent state. -/
def applyMountEffect (projection : Projection) :
    MountEffect → Except EffectApplicationError Projection
  | .addRuntime source target options context =>
      if (mountAt projection.desired target context).isSome then
        .error (.occupiedMountTarget target)
      else if hasMountedDescendant projection.desired target context then
        .error (.mountedDescendant target)
      else
        let mounts := projection.desired.mounts
        .ok
          { desired := { projection.desired with
              mounts := { mounts with
                runtime := mounts.runtime ++ [⟨source, target, options, context⟩] } }
            evidence := { uncheckSource source projection.evidence with
              projectedRuntimeMounts := true } }
  | .removeRuntime target context =>
      if hasMountedDescendant projection.desired target context then
        .error (.mountedDescendant target)
      else
        let mounts := projection.desired.mounts
        .ok
          { desired := { projection.desired with
              mounts := { mounts with
                runtime := mounts.runtime.filter (elsewhere target context) } }
            evidence := { projection.evidence with projectedRuntimeMounts := true } }
  | .setPersistent entry =>
      let mounts := projection.desired.mounts
      .ok
        { desired := { projection.desired with
            mounts := { mounts with
              persistent :=
                mounts.persistent.filter (elsewhere entry.target entry.context) ++ [entry] } }
          evidence := projection.evidence.markPersistentTarget entry.target entry.context }
  | .removePersistent target context =>
      let mounts := projection.desired.mounts
      .ok
        { desired := { projection.desired with
            mounts := { mounts with
              persistent := mounts.persistent.filter (elsewhere target context) } }
          evidence := projection.evidence.markPersistentTarget target context }

/-- Everything that one mount effect can do to the configuration. -/
inductive MountStep (desired : DesiredState) : MountEffect → DesiredState → Prop where
  | addRuntime {source : MountSource} {target : PathBuf} {options : List String}
      {context : MountContext} (hfree : mountAt desired target context = none)
      (hdescendants : hasMountedDescendant desired target context = false) :
      MountStep desired (.addRuntime source target options context)
        { desired with mounts := { desired.mounts with
            runtime := desired.mounts.runtime ++ [⟨source, target, options, context⟩] } }
  | removeRuntime {target : PathBuf} {context : MountContext}
      (hdescendants : hasMountedDescendant desired target context = false) :
      MountStep desired (.removeRuntime target context)
        { desired with mounts := { desired.mounts with
            runtime := desired.mounts.runtime.filter (elsewhere target context) } }
  | setPersistent {entry : MountEntry} :
      MountStep desired (.setPersistent entry)
        { desired with mounts := { desired.mounts with
            persistent := desired.mounts.persistent.filter
              (elsewhere entry.target entry.context) ++ [entry] } }
  | removePersistent {target : PathBuf} {context : MountContext} :
      MountStep desired (.removePersistent target context)
        { desired with mounts := { desired.mounts with
            persistent := desired.mounts.persistent.filter (elsewhere target context) } }

/-- No mount effect changes the graph. -/
theorem MountStep.graph_eq {desired next : DesiredState} {effect : MountEffect}
    (h : MountStep desired effect next) : next.graph = desired.graph := by
  cases h <;> rfl

theorem applyMountEffect_step {projection projection' : Projection} {effect : MountEffect}
    (h : projection.applyMountEffect effect = .ok projection') :
    MountStep projection.desired effect projection'.desired := by
  cases effect with
  | addRuntime source target options context =>
      rw [applyMountEffect] at h
      split at h
      · cases h
      · next hfree =>
        split at h
        · cases h
        · next hdescendants =>
          cases h
          exact .addRuntime (by simpa using hfree) (Bool.eq_false_iff.mpr hdescendants)
  | removeRuntime target context =>
      rw [applyMountEffect] at h
      split at h
      · cases h
      · next hdescendants =>
        cases h
        exact .removeRuntime (Bool.eq_false_iff.mpr hdescendants)
  | setPersistent entry =>
      cases h
      exact .setPersistent
  | removePersistent target context =>
      cases h
      exact .removePersistent

/-! ### One action -/

/-- `apply_effect_with_invalidations`: publishes configuration and evidence only after every effect
and invariant succeeds. -/
def applyEffect (projection : Projection) (effect : PredictedEffect)
    (invalidations : List FactInvalidation) :
    Except EffectApplicationError (List FactInvalidation × Projection) := do
  let (invalidatedFacts, evidence) :=
    SimulationEvidence.invalidateObservations projection.graph projection.evidence invalidations
  let evidence :=
    SimulationEvidence.invalidateFilesystemChecks projection.graph evidence invalidations
  let next ← effect.graph.foldlM applyGraphEffect { projection with evidence }
  let next ← effect.mounts.foldlM applyMountEffect next
  let evidence ← next.evidence.applyAllocationEffects effect.allocations
  match next.graph.validateStructure with
  | .error error => throw (.structure error)
  | .ok () => return (invalidatedFacts, { next with evidence })

/-- The stages of an effect that succeeds. -/
theorem applyEffect_ok {projection next : Projection} {effect : PredictedEffect}
    {invalidations facts : List FactInvalidation}
    (h : projection.applyEffect effect invalidations = .ok (facts, next)) :
    facts = expandInvalidations projection.graph invalidations ∧ ∃ changed mounted evidence,
      effect.graph.foldlM applyGraphEffect { projection with
        evidence := SimulationEvidence.invalidateFilesystemChecks projection.graph
          (SimulationEvidence.invalidateObservations projection.graph projection.evidence
            invalidations).2 invalidations } = .ok changed ∧
      effect.mounts.foldlM applyMountEffect changed = .ok mounted ∧
      mounted.evidence.applyAllocationEffects effect.allocations = .ok evidence ∧
      mounted.graph.validateStructure = .ok () ∧ next = { mounted with evidence } := by
  obtain ⟨changed, hchanged, h⟩ := Support.except_bind_eq_ok.mp h
  obtain ⟨mounted, hmounted, h⟩ := Support.except_bind_eq_ok.mp h
  obtain ⟨evidence, hevidence, h⟩ := Support.except_bind_eq_ok.mp h
  cases hstructure : mounted.graph.validateStructure with
  | error error =>
      rw [hstructure] at h
      cases h
  | ok _ =>
      rw [hstructure] at h
      obtain ⟨rfl, rfl⟩ := Prod.mk.inj (Except.ok.inj h)
      exact ⟨rfl, changed, mounted, evidence, hchanged, hmounted, hevidence, hstructure, rfl⟩

end Projection

/-- Trusted contract and checks produced while simulating one action. -/
structure SimulatedAction where
  contract : ActionContract
  checks : List PrerequisiteCheck
  invalidatedFacts : List FactInvalidation
deriving DecidableEq

/-- Describes, checks, and conditionally projects one typed provider action. -/
def simulateAction (projection : Projection) (action : ProviderAction) :
    Except ActionSimulationError (SimulatedAction × Projection) :=
  let diagnostics := validateProviderAction action projection.graph
  if diagnostics.any (·.severity == .error) then .error (.validation diagnostics)
  else
    let contract := describeAction action projection.graph
    let checks :=
      evaluatePrerequisites projection.desired projection.evidence contract.prerequisites
    if checks.any (·.status.isViolated) then .error (.prerequisitesViolated checks)
    else match projection.applyEffect contract.predictedEffect contract.invalidatedFacts with
      | .error error => .error (.effect error)
      | .ok (invalidatedFacts, next) =>
          .ok (⟨contract, checks, invalidatedFacts⟩,
            { next with evidence := next.evidence.applyOutputs contract.providedOutputs })

/-- An action that succeeds passed the technology checks. -/
theorem simulateAction_valid {projection next : Projection} {action : ProviderAction}
    {result : SimulatedAction} (h : simulateAction projection action = .ok (result, next)) :
    ∀ diagnostic ∈ validateProviderAction action projection.graph,
      diagnostic.severity ≠ .error := by
  unfold simulateAction at h
  dsimp only at h
  split at h
  · cases h
  · next hvalid =>
    intro diagnostic hdiagnostic herror
    exact hvalid (List.any_eq_true.mpr ⟨diagnostic, hdiagnostic, beq_iff_eq.mpr herror⟩)

/-- The stages of an action that succeeds. -/
theorem simulateAction_ok {projection next : Projection} {action : ProviderAction}
    {result : SimulatedAction} (h : simulateAction projection action = .ok (result, next)) :
    result.contract = describeAction action projection.graph ∧
    result.checks = evaluatePrerequisites projection.desired projection.evidence
      result.contract.prerequisites ∧
    (∀ check ∈ result.checks, check.status.isViolated = false) ∧
    ∃ applied, projection.applyEffect result.contract.predictedEffect
        result.contract.invalidatedFacts = .ok (result.invalidatedFacts, applied) ∧
      next = { applied with
        evidence := applied.evidence.applyOutputs result.contract.providedOutputs } := by
  unfold simulateAction at h
  dsimp only at h
  split at h
  · cases h
  · split at h
    · cases h
    · next hchecks =>
      split at h
      · cases h
      · next facts applied happly =>
        obtain ⟨rfl, rfl⟩ := Prod.mk.inj (Except.ok.inj h)
        refine ⟨rfl, rfl, fun check hmem => ?_, applied, happly, rfl⟩
        exact Bool.eq_false_iff.mpr fun hviolated =>
          hchecks (List.any_eq_true.mpr ⟨check, hmem, hviolated⟩)

end DisksGraph
