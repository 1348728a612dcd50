import DisksGraph.Model.Reorder
import DisksGraph.Provider.Canonical
import DisksGraph.Provider.Logical

/-!
# Provider — Reorder

The trusted contract of an action, computed from one graph in two iteration orders.

Whatever a describer or a technology check asks of the graph has one answer: a lookup, the only edge
of a kind, or all edges of a kind.  Only the last leaves a trace in the contract, as the order of
its locks, prerequisites and postconditions and of the edges that a removal takes with it, and the
canonical form of `contract.rs` forgets that order.

* `describeAction_reorders`: the two contracts differ in the order of sets.
* `ActionContract.Reorders.canonicalizeContract`: so their canonical forms are equal, however the
  values are held.
* `validateProviderAction_reorders`: an action is rejected in both orders or in none.
-/

namespace DisksGraph

/-! ### Contracts up to order -/

/-- Two sequences of graph effects that differ in the order of one run of edge removals. -/
def EffectsReorder (effects others : List GraphEffect) : Prop :=
  ∃ (before : List GraphEffect) (removed removed' : List Dependency) (after : List GraphEffect),
    effects = before ++ (removed.map .removeDependency ++ after) ∧
    others = before ++ (removed'.map .removeDependency ++ after) ∧ removed.Perm removed'

theorem isEdgeRemoval_of_mem {removed : List Dependency} {effect : GraphEffect}
    (h : effect ∈ removed.map GraphEffect.removeDependency) : isEdgeRemoval effect = true := by
  obtain ⟨edge, -, rfl⟩ := List.mem_map.mp h
  rfl

/-- Reordered effects differ inside one run of removals. -/
theorem EffectsReorder.runReorder {effects others : List GraphEffect}
    (h : EffectsReorder effects others) : RunReorder isEdgeRemoval effects others := by
  obtain ⟨before, removed, removed', after, rfl, rfl, hperm⟩ := h
  exact ⟨before, _, _, after, rfl, rfl, hperm.map _, fun _ => isEdgeRemoval_of_mem⟩

/-- Two contracts that differ in the order of what is a set. -/
structure ActionContract.Reorders (contract other : ActionContract) : Prop where
  prerequisites : contract.prerequisites.Perm other.prerequisites
  outputs : contract.providedOutputs = other.providedOutputs
  resources : contract.affectedResources.Perm other.affectedResources
  facts : contract.invalidatedFacts = other.invalidatedFacts
  postconditions : contract.postconditions.Perm other.postconditions
  graph : EffectsReorder contract.predictedEffect.graph other.predictedEffect.graph
  mounts : contract.predictedEffect.mounts = other.predictedEffect.mounts
  allocations : contract.predictedEffect.allocations = other.predictedEffect.allocations
  restartPolicy : contract.restartPolicy = other.restartPolicy

/-- What holds the values of a list holds them in another order too. -/
theorem exists_perm_map {α β : Type} {f : α → β} {held : List α} {values : List β}
    (h : (held.map f).Perm values) : ∃ held', held'.map f = values ∧ held.Perm held' := by
  have hvalues : List.Forall₂ (fun value held => f held = value) (held.map f) held := by
    clear h
    induction held with
    | nil => exact .nil
    | cons first rest ih => exact List.forall₂_cons.mpr ⟨rfl, ih⟩
  obtain ⟨held', hsame, hperm⟩ := List.perm_comp_forall₂ h.symm hvalues
  refine ⟨held', ?_, hperm.symm⟩
  clear hperm hvalues h
  induction hsame with
  | nil => rfl
  | cons hfirst _ ih => rw [List.map_cons, hfirst, ih]

/-- Effects held in the order of one of two reordered sequences are held in the other. -/
theorem EffectsReorder.held {spelling : ContractSpelling} {effects others : List GraphEffect}
    (h : EffectsReorder effects others) {held : List spelling.effect.Held}
    (hheld : held.map spelling.effect.value = effects) :
    ∃ held', held'.map spelling.effect.value = others ∧
      RunReorder spelling.removal held held' := by
  obtain ⟨before, removed, removed', after, rfl, rfl, hperm⟩ := h
  obtain ⟨first, rest, rfl, hfirst, hrest⟩ := List.map_eq_append_iff.mp hheld
  obtain ⟨removals, last, rfl, hremovals, hlast⟩ := List.map_eq_append_iff.mp hrest
  obtain ⟨removals', hremovals', hheldPerm⟩ :=
    exists_perm_map (hremovals ▸ hperm.map GraphEffect.removeDependency)
  refine ⟨first ++ (removals' ++ last), by simp [hfirst, hremovals', hlast],
    first, removals, removals', last, rfl, rfl, hheldPerm, fun effect heffect => ?_⟩
  exact isEdgeRemoval_of_mem (hremovals ▸ List.mem_map_of_mem heffect)

/-- **Two such contracts have one canonical form**: whichever way the first one is held, the second
can be held with the same values. -/
theorem ActionContract.Reorders.canonicalizeContract {spelling : ContractSpelling}
    {contract other : ActionContract} (h : contract.Reorders other) {held : HeldContract spelling}
    (hheld : held.value = contract) :
    ∃ held' : HeldContract spelling, held'.value = other ∧
      DisksGraph.canonicalizeContract held = DisksGraph.canonicalizeContract held' := by
  subst hheld
  obtain ⟨prerequisites, hprerequisites, hprerequisitesPerm⟩ := exists_perm_map h.prerequisites
  obtain ⟨resources, hresources, hresourcesPerm⟩ := exists_perm_map h.resources
  obtain ⟨postconditions, hpostconditions, hpostconditionsPerm⟩ :=
    exists_perm_map h.postconditions
  obtain ⟨graph, hgraph, hreorder⟩ := h.graph.held rfl
  have hsame : held.SameSets { held with
      prerequisites, affectedResources := resources, graph, postconditions } := {
    prerequisites := fun _ => hprerequisitesPerm.mem_iff
    outputs := fun _ => Iff.rfl
    resources := fun _ => hresourcesPerm.mem_iff
    facts := fun _ => Iff.rfl
    postconditions := fun _ => hpostconditionsPerm.mem_iff
    graph := .single hreorder
    mounts := rfl
    allocations := rfl
    restartPolicy := rfl }
  refine ⟨_, ?_, hsame.canonicalizeContract⟩
  have houtputs : held.providedOutputs.map spelling.output.value = other.providedOutputs :=
    h.outputs
  have hfacts : held.invalidatedFacts.map spelling.fact.value = other.invalidatedFacts := h.facts
  have hmounts : held.mounts = other.predictedEffect.mounts := h.mounts
  have hallocations : held.allocations = other.predictedEffect.allocations := h.allocations
  have hrestart : held.restartPolicy = other.restartPolicy := h.restartPolicy
  simp [HeldContract.value, hprerequisites, houtputs, hresources, hgraph, hmounts, hallocations,
    hfacts, hpostconditions, hrestart]

namespace ActionContract.Reorders

variable {contract other : ActionContract}

theorem effects_refl (effects : List GraphEffect) : EffectsReorder effects effects :=
  ⟨effects, [], [], [], by simp, by simp, .refl _⟩

theorem refl (contract : ActionContract) : contract.Reorders contract :=
  ⟨.refl _, rfl, .refl _, rfl, .refl _, effects_refl _, rfl, rfl, rfl⟩

theorem symm {contract other : ActionContract} (h : contract.Reorders other) :
    other.Reorders contract where
  prerequisites := h.prerequisites.symm
  outputs := h.outputs.symm
  resources := h.resources.symm
  facts := h.facts.symm
  postconditions := h.postconditions.symm
  graph := by
    obtain ⟨before, removed, removed', after, hgraph, hgraph', hperm⟩ := h.graph
    exact ⟨before, removed', removed, after, hgraph', hgraph, hperm.symm⟩
  mounts := h.mounts.symm
  allocations := h.allocations.symm
  restartPolicy := h.restartPolicy.symm

theorem of_eq (h : contract = other) : contract.Reorders other := h ▸ refl contract

variable (h : contract.Reorders other)
include h

/-- Requiring the same conditions in another order. -/
theorem require_same {conditions conditions' : List ActionPrerequisite}
    (hsame : conditions.Perm conditions') :
    (contract.require conditions).Reorders (other.require conditions') :=
  { h with prerequisites := h.prerequisites.append hsame }

theorem require (conditions : List ActionPrerequisite) :
    (contract.require conditions).Reorders (other.require conditions) :=
  h.require_same (.refl _)

theorem access (resource : ActionResource) (mode : ResourceAccessMode) :
    (contract.access resource mode).Reorders (other.access resource mode) :=
  { h with resources := h.resources.append_right _ }

theorem invalidate (node : NodeId) (kind : FactKind) :
    (contract.invalidate node kind).Reorders (other.invalidate node kind) :=
  { h with facts := congrArg (· ++ [_]) h.facts }

theorem provide (output : ActionOutput) :
    (contract.provide output).Reorders (other.provide output) :=
  { h with outputs := congrArg (· ++ [output]) h.outputs }

theorem changeAllocation (effect : AllocationEffect) :
    (contract.changeAllocation effect).Reorders (other.changeAllocation effect) :=
  { h with allocations := congrArg (· ++ [effect]) h.allocations }

theorem changeMounts (effect : MountEffect) :
    (contract.changeMounts effect).Reorders (other.changeMounts effect) :=
  { h with mounts := congrArg (· ++ [effect]) h.mounts }

theorem changeGraph (effects : List GraphEffect) :
    (contract.changeGraph effects).Reorders (other.changeGraph effects) :=
  { h with
    graph := by
      obtain ⟨before, removed, removed', after, hgraph, hgraph', hperm⟩ := h.graph
      refine ⟨before, removed, removed', after ++ effects, ?_, ?_, hperm⟩
      · simp [ActionContract.changeGraph, hgraph]
      · simp [ActionContract.changeGraph, hgraph'] }

theorem establish (conditions : List Postcondition) :
    (contract.establish conditions).Reorders (other.establish conditions) :=
  { h with postconditions := h.postconditions.append_right _ }

theorem invalidateScope (scope : FactScope) (kind : FactKind) :
    (contract.invalidateScope scope kind).Reorders (other.invalidateScope scope kind) :=
  { h with facts := congrArg (· ++ [_]) h.facts }

end ActionContract.Reorders

/-! ### Closed forms of the loops -/

/-- Access through a filesystem adds to prerequisites and resources alone. -/
theorem accessFilesystemBacking_eq {contract : ActionContract} {graph : NodeGraph}
    {filesystem : NodeId} {mode : ResourceAccessMode} :
    accessFilesystemBacking contract graph filesystem mode =
      { contract with
        prerequisites := contract.prerequisites ++ (backingNodes graph filesystem).flatMap
          fun backing => if mode = .write then [.writable backing] else []
        affectedResources := contract.affectedResources ++
          (backingNodes graph filesystem).map fun backing => ⟨.node backing, mode⟩ } := by
  unfold accessFilesystemBacking
  generalize backingNodes graph filesystem = backings
  induction backings generalizing contract with
  | nil => simp
  | cons backing rest ih =>
      rw [List.foldl_cons, ih]
      simp [ActionContract.access, ActionContract.require]

/-- Reading nodes adds their accesses. -/
theorem readAll_eq {contract : ActionContract} {nodes : List NodeId} :
    nodes.foldl (fun result node => result.read (.node node)) contract =
      { contract with
        affectedResources := contract.affectedResources ++
          nodes.map fun node => ⟨.node node, .read⟩ } := by
  induction nodes generalizing contract with
  | nil => simp
  | cons node rest ih =>
      rw [List.foldl_cons, ih]
      simp [ActionContract.read, ActionContract.access]

/-! ### Queries of the describers -/

namespace NodeGraph.Reorders

variable {graph other : NodeGraph} (h : graph.Reorders other)
include h

theorem knownSize : DisksGraph.knownSize other = DisksGraph.knownSize graph := by
  funext node
  rw [DisksGraph.knownSize, DisksGraph.knownSize, h.node]

/-- Whether a filesystem is of the ext family does not see the order. -/
theorem isExtFilesystem : DisksGraph.isExtFilesystem other = DisksGraph.isExtFilesystem graph := by
  funext node
  rw [DisksGraph.isExtFilesystem, DisksGraph.isExtFilesystem, h.kindOf]

/-- The extents of a size do not see the order. -/
theorem lvmAllocation : DisksGraph.lvmAllocation other = DisksGraph.lvmAllocation graph := by
  funext vg size layout
  rw [DisksGraph.lvmAllocation, DisksGraph.lvmAllocation, h.kindOf]

/-- The extents of a volume do not see the order. -/
theorem lvmLvAllocation : DisksGraph.lvmLvAllocation other = DisksGraph.lvmLvAllocation graph := by
  funext vg lv size
  rw [DisksGraph.lvmLvAllocation, DisksGraph.lvmLvAllocation, h.kindOf, h.lvmAllocation]

/-- An owner is only accepted when there is no other. -/
theorem lvmVolumeGroup : DisksGraph.lvmVolumeGroup other = DisksGraph.lvmVolumeGroup graph := by
  funext lv
  unfold DisksGraph.lvmVolumeGroup
  rcases perm_cases (h.dependencies.filter fun edge => edge.target == lv && edge.kind == .provides)
    with ⟨hgraph, hother⟩ | ⟨owner, hgraph, hother⟩ | ⟨_, _, _, _, _, _, hgraph, hother⟩
  · rw [hgraph, hother]
  · rw [hgraph, hother]
    dsimp only
    rw [h.kindOf]
  · rw [hgraph, hother]

/-- The table of a partition does not see the order. -/
theorem partitionTable : DisksGraph.partitionTable other = DisksGraph.partitionTable graph := by
  funext partition
  unfold DisksGraph.partitionTable
  rcases perm_cases (h.dependencies.filter fun edge =>
      edge.target == partition && edge.kind.isContains)
    with ⟨hgraph, hother⟩ | ⟨owner, hgraph, hother⟩ | ⟨_, _, _, _, _, _, hgraph, hother⟩
  · rw [hgraph, hother]
  · rw [hgraph, hother]
    dsimp only
    rw [h.kindOf]
  · rw [hgraph, hother]

/-- The nodes behind a filesystem are the same. -/
theorem backingNodes (filesystem : NodeId) :
    (DisksGraph.backingNodes graph filesystem).Perm (DisksGraph.backingNodes other filesystem) :=
  (h.dependencies.filter _).map _

/-- The edges at a node are the same. -/
theorem incidentDependencies (node : NodeId) :
    (DisksGraph.incidentDependencies graph node).Perm
    (DisksGraph.incidentDependencies other node) :=
  h.dependencies.filter _

/-! ### Shared contract shapes -/

/-- The contract of a resize does not see the order. -/
theorem resizeContract : DisksGraph.resizeContract other = DisksGraph.resizeContract graph := by
  funext node size expected safety
  rw [DisksGraph.resizeContract, DisksGraph.resizeContract, h.knownSize]

/-- A removal takes the incident edges with it, in the order it meets them. -/
theorem removeNodeContract (node : NodeId) (expected : NodeKindClass) (requireNoConsumers : Bool) :
    (DisksGraph.removeNodeContract graph node expected requireNoConsumers).Reorders
      (DisksGraph.removeNodeContract other node expected requireNoConsumers) := by
  have hperm := h.incidentDependencies node
  refine ⟨.refl _, rfl, .refl _, rfl, ?_, ?_, rfl, rfl, rfl⟩
  · simp [DisksGraph.removeNodeContract, ActionContract.establish, ActionContract.invalidate,
      ActionContract.invalidateScope, ActionContract.changeGraph, ActionContract.write,
      ActionContract.access, ActionContract.require, ActionContract.requireKind,
      List.perm_append_left_iff, List.perm_append_right_iff, hperm.map]
  · refine ⟨[.removeNode node], _, _, [], ?_, ?_, hperm⟩
    · simp [DisksGraph.removeNodeContract, ActionContract.establish, ActionContract.invalidate,
        ActionContract.invalidateScope, ActionContract.changeGraph, ActionContract.write,
        ActionContract.access, ActionContract.require, ActionContract.requireKind,
          ActionContract.new]
    · simp [DisksGraph.removeNodeContract, ActionContract.establish, ActionContract.invalidate,
        ActionContract.invalidateScope, ActionContract.changeGraph, ActionContract.write,
        ActionContract.access, ActionContract.require, ActionContract.requireKind,
          ActionContract.new]

/-- The locks of the backing nodes, in the order they are met. -/
theorem accessFilesystemBacking {contract contract' : ActionContract}
    (hcontract : contract.Reorders contract') (filesystem : NodeId) (mode : ResourceAccessMode) :
    (DisksGraph.accessFilesystemBacking contract graph filesystem mode).Reorders
      (DisksGraph.accessFilesystemBacking contract' other filesystem mode) := by
  have hperm := h.backingNodes filesystem
  rw [accessFilesystemBacking_eq, accessFilesystemBacking_eq]
  exact { hcontract with
    prerequisites := hcontract.prerequisites.append (hperm.flatMap_right _)
    resources := hcontract.resources.append (hperm.map _) }

/-- Requiring a mount source reorders. -/
theorem requireMountSource {contract contract' : ActionContract}
    (hcontract : contract.Reorders contract') (source : MountSource) :
    (DisksGraph.requireMountSource contract graph source).Reorders
      (DisksGraph.requireMountSource contract' other source) := by
  unfold DisksGraph.requireMountSource
  cases source.node with
  | none => exact hcontract
  | some node =>
      dsimp only
      rw [readAll_eq, readAll_eq]
      have hresources := (hcontract.resources.append_right
        [⟨.node node, ResourceAccessMode.read⟩]).append
        ((h.ancestors node).map fun node => ⟨.node node, ResourceAccessMode.read⟩)
      exact { hcontract with
        prerequisites := hcontract.prerequisites.append_right _
        resources := (List.perm_insertionSort _ _).trans
          (hresources.trans (List.perm_insertionSort _ _).symm) }

/-! ### One describer per technology -/

/-- Partition contracts reorder. -/
theorem describePartition (action : PartitionAction) :
    (DisksGraph.describePartition graph action).Reorders
      (DisksGraph.describePartition other action) := by
  have haction : (describePartitionAction graph action).Reorders
      (describePartitionAction other action) := by
    cases action with
    | createTable disk plannedNodeId table =>
        rw [describePartitionAction, describePartitionAction, h.knownSize]
        exact .refl _
    | create | setAttributes => exact .refl _
    | resize partition newSize =>
        rw [describePartitionAction, describePartitionAction, h.resizeContract]
        exact .refl _
    | delete partition =>
        rw [describePartitionAction, describePartitionAction, h.partitionTable]
        exact ((h.removeNodeContract _ _ _).require _).require _
  unfold DisksGraph.describePartition
  rw [h.partitionTable]
  split
  · exact (haction.access _ _).invalidate _ _
  · exact haction

/-- LUKS contracts reorder. -/
theorem describeLuks (action : LuksAction) :
    (DisksGraph.describeLuks graph action).Reorders (DisksGraph.describeLuks other action) := by
  cases action with
  | format | close =>
      first
      | exact .refl _
      | exact h.removeNodeContract _ _ _
  | «open» container plannedNodeId mappingName credential readOnly =>
      rw [DisksGraph.describeLuks, DisksGraph.describeLuks, h.knownSize]
      exact .refl _
  | resize mapping newSize =>
      cases newSize with
      | none => exact .refl _
      | some size =>
          rw [DisksGraph.describeLuks, DisksGraph.describeLuks, h.resizeContract]
          exact .refl _

/-- LVM contracts reorder. -/
theorem describeLvm (action : LvmAction) :
    (DisksGraph.describeLvm graph action).Reorders (DisksGraph.describeLvm other action) := by
  cases action with
  | createPv | createVg => exact .refl _
  | createLv vg plannedNodeId name size layout =>
      rw [DisksGraph.describeLvm, DisksGraph.describeLvm, h.lvmAllocation]
      exact .refl _
  | resizeLv lv newSize =>
      rw [DisksGraph.describeLvm, DisksGraph.describeLvm, h.resizeContract, h.lvmVolumeGroup,
        h.knownSize, h.lvmLvAllocation]
      exact .refl _
  | removeLv lv =>
      rw [DisksGraph.describeLvm, DisksGraph.describeLvm, h.lvmVolumeGroup, h.knownSize,
        h.lvmLvAllocation]
      have hremoved := (h.removeNodeContract lv .lvmLv true).require [.destructiveApproval lv]
      split
      · exact hremoved
      · exact (((hremoved.access _ _).changeAllocation _).invalidate _ _).invalidate _ _
  | setActivation target active =>
      unfold DisksGraph.describeLvm
      dsimp only
      rw [h.kindOf]
      exact .refl _

/-- Filesystem contracts reorder. -/
theorem describeFilesystem (action : FilesystemAction) :
    (DisksGraph.describeFilesystem graph action).Reorders
      (DisksGraph.describeFilesystem other action) := by
  have hinspection : ∀ node, (inspectionContract graph node).Reorders
      (inspectionContract other node) := fun node =>
    ((h.accessFilesystemBacking (.refl _) node .read).invalidate _ _).establish _
  cases action with
  | create => exact .refl _
  | resize filesystem newSize =>
      rw [DisksGraph.describeFilesystem, DisksGraph.describeFilesystem, h.knownSize, h.kindOf,
        h.resizeContract]
      exact h.accessFilesystemBacking (.refl _) _ _
  | check filesystem force =>
      rw [DisksGraph.describeFilesystem, DisksGraph.describeFilesystem, h.isExtFilesystem]
      split
      · exact ((hinspection filesystem).provide _).establish _
      · exact hinspection filesystem
  | repair filesystem force =>
      exact ((h.accessFilesystemBacking (.refl _) filesystem .write).invalidate _ _).establish _
  | setLabel filesystem label =>
      exact (((h.accessFilesystemBacking (.refl _) filesystem .write).changeGraph _).invalidate _ _)
        |>.establish _

/-- A device has one membership edge in a valid graph. -/
theorem describeBtrfs (hvalid : graph.validateStructure = .ok ()) (action : BtrfsAction) :
    (DisksGraph.describeBtrfs graph action).Reorders (DisksGraph.describeBtrfs other action) := by
  cases action with
  | removeDevice filesystem device =>
      have hfind : (other.dependencies.find? fun edge =>
          edge.source == device && edge.target == filesystem && edge.kind.isBtrfsMember) =
          graph.dependencies.find? fun edge =>
            edge.source == device && edge.target == filesystem && edge.kind.isBtrfsMember := by
        refine (find?_perm h.dependencies fun edge hedge other hother hmember hmember' => ?_).symm
        simp only [Bool.and_eq_true, beq_iff_eq] at hmember hmember'
        have hkind : ∀ {kind : DependencyKind}, kind.isBtrfsMember = true →
            kind.discriminant = .memberOf ∧ kind.cacheRole = none := by
          intro kind hkind
          unfold DependencyKind.isBtrfsMember at hkind
          split at hkind
          · exact ⟨rfl, rfl⟩
          · cases hkind
        refine logicalEdge_unique hvalid hedge hother (hmember.1.1.trans hmember'.1.1.symm)
          (hmember.1.2.trans hmember'.1.2.symm) ?_ ?_
        · rw [(hkind hmember.2).1, (hkind hmember'.2).1]
        · rw [(hkind hmember.2).2, (hkind hmember'.2).2]
      rw [DisksGraph.describeBtrfs, DisksGraph.describeBtrfs, hfind]
      exact .refl _
  | create | addDevice | convertProfiles | createSubvolume => exact .refl _

/-- Mount contracts reorder. -/
theorem describeMount (action : MountAction) :
    (DisksGraph.describeMount graph action).Reorders (DisksGraph.describeMount other action) := by
  cases action with
  | mount source target options context =>
      exact ((((h.requireMountSource (.refl _) source).require _).access _ _).changeMounts _
        |>.invalidateScope _ _).establish _
  | unmount | persist | removePersistent => exact .refl _

/-- Every technology's contracts reorder, in a valid graph. -/
theorem describeTechnology (hvalid : graph.validateStructure = .ok ()) (action : ProviderAction) :
    (DisksGraph.describeTechnology graph action).Reorders
      (DisksGraph.describeTechnology other action) := by
  cases action with
  | partition action => exact h.describePartition action
  | luks action => exact h.describeLuks action
  | lvm action => exact h.describeLvm action
  | filesystem action => exact h.describeFilesystem action
  | btrfs action => exact h.describeBtrfs hvalid action
  | mount action => exact h.describeMount action

end NodeGraph.Reorders

/-! ### The trusted contract -/

namespace ActionContract.Reorders

variable {contract other : ActionContract} (h : contract.Reorders other)
include h

theorem readConsumerMounts :
    (DisksGraph.readConsumerMounts contract).Reorders (DisksGraph.readConsumerMounts other) := by
  have hexclusive : contract.prerequisites.any ActionPrerequisite.isNoUnexpectedConsumers =
      other.prerequisites.any ActionPrerequisite.isNoUnexpectedConsumers := by
    rw [Bool.eq_iff_iff, List.any_eq_true, List.any_eq_true]
    simp only [h.prerequisites.mem_iff]
  have hlocked : contract.affectedResources.any (·.resource == .runtimeMountState) =
      other.affectedResources.any (·.resource == .runtimeMountState) := by
    rw [Bool.eq_iff_iff, List.any_eq_true, List.any_eq_true]
    simp only [h.resources.mem_iff]
  unfold DisksGraph.readConsumerMounts
  rw [hexclusive, hlocked]
  split
  · exact h.access _ _
  · exact h

theorem addOutputResources :
    (DisksGraph.addOutputResources contract).Reorders (DisksGraph.addOutputResources other) := by
  unfold DisksGraph.addOutputResources
  rw [h.outputs]
  generalize other.providedOutputs.filterMap ActionOutput.lockedNode = nodes
  induction nodes generalizing contract other with
  | nil => exact h
  | cons node rest ih =>
      rw [List.foldl_cons, List.foldl_cons]
      refine ih ?_
      by_cases hlocked : ⟨.node node, .write⟩ ∈ contract.affectedResources
      · rw [if_pos hlocked, if_pos (h.resources.mem_iff.mp hlocked)]
        exact h
      · rw [if_neg hlocked, if_neg (mt h.resources.mem_iff.mpr hlocked)]
        exact h.access _ _

end ActionContract.Reorders

/-- An edge removal declares no output, so the outputs do not depend on its place. -/
theorem ActionContract.Reorders.outputsFromEffect {contract other : ActionContract}
    (h : contract.Reorders other) :
    DisksGraph.outputsFromEffect contract.predictedEffect =
      DisksGraph.outputsFromEffect other.predictedEffect := by
  have hremovals : ∀ {f : GraphEffect → Option ActionOutput},
      (∀ effect, isEdgeRemoval effect = true → f effect = none) → ∀ removed : List Dependency,
      (removed.map GraphEffect.removeDependency).filterMap f = [] :=
    fun hf removed => List.filterMap_eq_nil_iff.mpr fun effect heffect =>
      hf effect (isEdgeRemoval_of_mem heffect)
  obtain ⟨before, removed, removed', after, hgraph, hgraph', -⟩ := h.graph
  unfold DisksGraph.outputsFromEffect
  rw [hgraph, hgraph', h.mounts, List.filterMap_append, List.filterMap_append,
    List.filterMap_append,
    List.filterMap_append, hremovals ?_ removed, hremovals ?_ removed']
  all_goals
    intro effect hremoval
    cases effect <;> first | rfl | cases hremoval

/-- **`describeAction_reorders`** — the trusted contract of an action does not depend on the order
in which a valid graph is iterated, up to the order of its sets. -/
theorem describeAction_reorders {graph other : NodeGraph} (h : graph.Reorders other)
    (hvalid : graph.validateStructure = .ok ()) (action : ProviderAction) :
    (describeAction action graph).Reorders (describeAction action other) := by
  have htechnology := (h.describeTechnology hvalid action).readConsumerMounts
  unfold describeAction
  refine ActionContract.Reorders.addOutputResources { htechnology with outputs := ?_ }
  dsimp only
  rw [htechnology.outputsFromEffect, htechnology.outputs]

/-! ### Technology checks -/

/-- The partition an edge leads to has the number or overlaps the range of a new one. -/
def partitionConflict (graph : NodeGraph) (number : NonZero 32) (offset «end» : Bytes)
    (edge : Dependency) : Bool :=
  match graph.node edge.target with
  | none => false
  | some node =>
      match node.kind.kind with
      | .partition occupiedNumber occupiedOffset _ _ =>
          number = occupiedNumber ||
            match node.kind.size with
            | none => false
            | some occupiedSize =>
                (checkedAdd occupiedOffset occupiedSize).all fun occupiedEnd =>
                  offset < occupiedEnd && occupiedOffset < «end»
      | _ => false

/-- Whether the scan finds an error does not depend on its order. -/
theorem any_scanPartitions {graph : NodeGraph} {table : NodeId} {number : NonZero 32}
    {offset «end» : Bytes} {edges : List Dependency} {overlaps : Bool} :
    (scanPartitions graph table number offset «end» edges overlaps).any (·.severity == .error) =
      (overlaps || edges.any (partitionConflict graph number offset «end»)) := by
  induction edges generalizing overlaps with
  | nil => cases overlaps <;> rfl
  | cons edge rest ih =>
      rw [scanPartitions, List.any_cons]
      split
      · next hnode =>
        have hedge : partitionConflict graph number offset «end» edge = false := by
          rw [partitionConflict, hnode]
        rw [ih, hedge, Bool.false_or]
      · next node hnode =>
        split
        · next occupiedNumber occupiedOffset _ _ hkind =>
          have hedge : partitionConflict graph number offset «end» edge =
              (number = occupiedNumber || match node.kind.size with
                | none => false
                | some occupiedSize =>
                    (checkedAdd occupiedOffset occupiedSize).all fun occupiedEnd =>
                      offset < occupiedEnd && occupiedOffset < «end») := by
            rw [partitionConflict, hnode]
            dsimp only
            rw [hkind]
          rw [hedge]
          split
          · next hnumber => simp [actionDiagnostic, hnumber]
          · next hnumber =>
            rw [ih, decide_eq_false hnumber, Bool.false_or]
            exact Bool.or_assoc _ _ _
        · next hkind =>
          have hedge : partitionConflict graph number offset «end» edge = false := by
            rw [partitionConflict, hnode]
            dsimp only
            split
            · next hpartition => exact absurd hpartition (hkind _ _ _ _)
            · rfl
          rw [ih, hedge, Bool.false_or]

namespace NodeGraph.Reorders

variable {graph other : NodeGraph} (h : graph.Reorders other)
include h

/-- The check of a kind does not see the order. -/
theorem validateKind : DisksGraph.validateKind other = DisksGraph.validateKind graph := by
  funext node code message accepted
  rw [DisksGraph.validateKind, DisksGraph.validateKind, h.kindOf]

/-- The check of a LUKS action does not see the order. -/
theorem validateLuksAction (action : LuksAction) :
    DisksGraph.validateLuksAction other action = DisksGraph.validateLuksAction graph action := by
  have hname : mappingNameInUse other = mappingNameInUse graph := by
    funext name
    exact h.any_nodeList _
  unfold DisksGraph.validateLuksAction
  cases action <;> simp only [validateMapping, h.validateKind, hname]

/-- The check of an LVM action does not see the order. -/
theorem validateLvmAction (action : LvmAction) :
    DisksGraph.validateLvmAction other action = DisksGraph.validateLvmAction graph action := by
  have hsize : validateLvSize other = validateLvSize graph := by
    funext subject vg size linear
    rw [validateLvSize, validateLvSize, h.kindOf]
  have hlinear : isLinearLv other = isLinearLv graph := by
    funext lv
    rw [isLinearLv, isLinearLv, h.kindOf]
  unfold DisksGraph.validateLvmAction
  rw [h.lvmVolumeGroup, hsize, hlinear]

/-- The check of a mount action does not see the order. -/
theorem validateMountAction (action : MountAction) :
    DisksGraph.validateMountAction other action = DisksGraph.validateMountAction graph action := by
  have hsource : incompatiblePersistentSource other = incompatiblePersistentSource graph := by
    funext source
    unfold incompatiblePersistentSource
    cases source.node with
    | none => rfl
    | some node =>
        dsimp only
        rw [h.kindOf]
  unfold DisksGraph.validateMountAction
  rw [hsource]

/-- The check of a filesystem resize does not see the order. -/
theorem validateFilesystemResize (filesystem : NodeId) (newSize : Bytes) :
    DisksGraph.validateFilesystemResize other filesystem newSize =
      DisksGraph.validateFilesystemResize graph filesystem newSize := by
  unfold DisksGraph.validateFilesystemResize
  rw [h.isExtFilesystem, (h.dependencies.filter fun edge =>
    edge.target == filesystem && edge.kind.isBacks).length_eq]

/-- A scan stops at the first duplicate number, but finds something in every order or in none. -/
theorem validatePartitionCreate (table : NodeId) (number : NonZero 32) (offset size : Bytes) :
    (DisksGraph.validatePartitionCreate other table number offset size).any (·.severity == .error) =
      (DisksGraph.validatePartitionCreate graph table number offset size).any
        (·.severity == .error) := by
  unfold DisksGraph.validatePartitionCreate
  rw [h.knownSize]
  split
  · rfl
  · next «end» _ =>
    split
    · rfl
    · have hconflict : partitionConflict other number offset «end» =
          partitionConflict graph number offset «end» := by
        funext edge
        rw [partitionConflict, partitionConflict, h.node]
      rw [any_scanPartitions, any_scanPartitions, hconflict, any_perm (h.dependencies.filter _)]

/-- Whether a partition action is wrong does not depend on the order. -/
theorem validatePartitionAction (action : PartitionAction) :
    (DisksGraph.validatePartitionAction other action).any (·.severity == .error) =
      (DisksGraph.validatePartitionAction graph action).any (·.severity == .error) := by
  have howner : validatePartitionOwner other = validatePartitionOwner graph := by
    funext partition
    rw [validatePartitionOwner, validatePartitionOwner, h.partitionTable]
  cases action with
  | createTable => rfl
  | create table plannedNodeId number offset size role attributes =>
      exact h.validatePartitionCreate table number offset size
  | resize partition newSize =>
      simp only [DisksGraph.validatePartitionAction, howner]
  | delete partition =>
      simp only [DisksGraph.validatePartitionAction, howner]
  | setAttributes partition attributes =>
      simp only [DisksGraph.validatePartitionAction, howner]

end NodeGraph.Reorders

/-- **`validateProviderAction_reorders`** — the technology checks reject an action in every order or
in none. -/
theorem validateProviderAction_reorders {graph other : NodeGraph} (h : graph.Reorders other)
    (action : ProviderAction) :
    (validateProviderAction action other).any (·.severity == .error) =
      (validateProviderAction action graph).any (·.severity == .error) := by
  cases action with
  | partition action => exact h.validatePartitionAction action
  | luks action => exact congrArg (List.any · _) (h.validateLuksAction action)
  | lvm action => exact congrArg (List.any · _) (h.validateLvmAction action)
  | mount action => exact congrArg (List.any · _) (h.validateMountAction action)
  | btrfs action => rfl
  | filesystem action =>
      cases action with
      | resize filesystem newSize =>
          exact congrArg (List.any · _) (h.validateFilesystemResize filesystem newSize)
      | create | check | repair | setLabel => rfl

end DisksGraph
