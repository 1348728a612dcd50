import DisksGraph.Provider.Describe

/-!
# Provider — Changes

The effects of every trusted contract in closed form, and the nodes that it requires to be unused.

A contract is built by a chain of updates and a few loops.  Its predicted changes are all that the
simulator applies, so they are computed once here and cited by everything about projected states.

* `ProviderAction.graphChanges` and `mountChanges`: the predicted changes of an action.
* `describeAction_graph`, `describeAction_mounts`: the trusted contract predicts exactly these.
* `ProviderAction.guarantees`, `staleFacts`: what an action promises and what it makes stale, with
  `describeAction_outputs` and `describeAction_facts`.
* `describeAction_removed`, `describeAction_formatted`: what is removed or overwritten is required
  to have no consumer.
-/

namespace DisksGraph

/-! ### Predicted changes -/

/-- A new node and the edges it comes with. -/
def creation (id : NodeId) (spec : NodeSpec) (edges : List Dependency) : List GraphEffect :=
  .insertNode id spec :: edges.map .insertDependency

/-- A node and its incident edges go. -/
def removal (graph : NodeGraph) (node : NodeId) : List GraphEffect :=
  .removeNode node :: (incidentDependencies graph node).map .removeDependency

/-- What the contract of a partition action does to the graph. -/
def PartitionAction.graphChanges (graph : NodeGraph) : PartitionAction → List GraphEffect
  | .createTable disk plannedNodeId table =>
      creation plannedNodeId ⟨.partitionTable table, knownSize graph disk⟩
        [⟨disk, plannedNodeId, .backs⟩]
  | .create table plannedNodeId number offset size role attributes =>
      creation plannedNodeId ⟨.partition number offset role attributes, some size⟩
        [⟨table, plannedNodeId, .contains offset⟩]
  | .resize partition newSize => [.setNodeSize partition newSize]
  | .delete partition => removal graph partition
  | .setAttributes partition attributes => [.setPartitionAttributes partition attributes]

/-- What the contract of a LUKS action does to the graph. -/
def LuksAction.graphChanges (graph : NodeGraph) : LuksAction → List GraphEffect
  | .format target plannedNodeId version _ =>
      creation plannedNodeId ⟨.luksContainer version, none⟩ [⟨target, plannedNodeId, .backs⟩]
  | .open container plannedNodeId mappingName _ _ =>
      creation plannedNodeId ⟨.dmCryptMapping mappingName, knownSize graph container⟩
        [⟨container, plannedNodeId, .backs⟩]
  | .close mapping => removal graph mapping
  | .resize mapping (some size) => [.setNodeSize mapping size]
  | .resize mapping none => [.invalidateNodeSize mapping]

/-- What the contract of an LVM action does to the graph. -/
def LvmAction.graphChanges (graph : NodeGraph) : LvmAction → List GraphEffect
  | .createPv backing plannedNodeId =>
      creation plannedNodeId ⟨.lvmPv, none⟩ [⟨backing, plannedNodeId, .backs⟩]
  | .createVg plannedNodeId name pvs =>
      creation plannedNodeId ⟨.lvmVg name none, none⟩
        (pvs.map fun pv => ⟨pv, plannedNodeId, .memberOf .lvmPv⟩)
  | .createLv vg plannedNodeId name size layout =>
      creation plannedNodeId ⟨.lvmLv ⟨name, layout⟩, some size⟩ [⟨vg, plannedNodeId, .provides⟩]
  | .resizeLv lv newSize => [.setNodeSize lv newSize]
  | .removeLv lv => removal graph lv
  | .setActivation target active => [.setActivation target active]

/-- What the contract of a filesystem action does to the graph. -/
def FilesystemAction.graphChanges : FilesystemAction → List GraphEffect
  | .create backing plannedNodeId filesystem label =>
      creation plannedNodeId ⟨.filesystem filesystem label, none⟩
        [⟨backing, plannedNodeId, .backs⟩]
  | .resize filesystem newSize => [.setNodeSize filesystem newSize]
  | .check .. | .repair .. => []
  | .setLabel filesystem label => [.setFilesystemLabel filesystem label]

/-- What the contract of a Btrfs action does to the graph. -/
def BtrfsAction.graphChanges (graph : NodeGraph) : BtrfsAction → List GraphEffect
  | .create members plannedNodeId label allocation =>
      creation plannedNodeId ⟨.filesystem (.btrfs allocation) label, none⟩
        (members.map fun member => btrfsMembership member plannedNodeId)
  | .addDevice filesystem device => [.insertDependency (btrfsMembership device filesystem)]
  | .removeDevice filesystem device =>
      [.removeDependency ((graph.dependencies.find? fun edge =>
        edge.source == device && edge.target == filesystem && edge.kind.isBtrfsMember).getD
          (btrfsMembership device filesystem))]
  | .convertProfiles filesystem target => [.setBtrfsAllocation filesystem target]
  | .createSubvolume filesystem plannedNodeId name readOnly =>
      creation plannedNodeId ⟨.btrfsSubvolume name readOnly false, none⟩
        [⟨filesystem, plannedNodeId, .provides⟩]

/-- The one mount effect of a mount action. -/
def MountAction.mountChange : MountAction → MountEffect
  | .mount source target options context => .addRuntime source target options context
  | .unmount target context => .removeRuntime target context
  | .persist entry => .setPersistent entry
  | .removePersistent target context => .removePersistent target context

/-- The topology of the table around a partition goes stale with the partition. -/
def staleTable (graph : NodeGraph) (partition : NodeId) : List FactInvalidation :=
  (partitionTable graph partition).toList.map fun table => ⟨.node table, .topology⟩

namespace ProviderAction

/-- The graph changes an action predicts. -/
def graphChanges (graph : NodeGraph) : ProviderAction → List GraphEffect
  | .partition action => action.graphChanges graph
  | .luks action => action.graphChanges graph
  | .lvm action => action.graphChanges graph
  | .filesystem action => action.graphChanges
  | .btrfs action => action.graphChanges graph
  | .mount _ => []

/-- The mount changes an action predicts. -/
def mountChanges : ProviderAction → List MountEffect
  | .mount action => [action.mountChange]
  | _ => []

/-- The runtime guarantees an action gives, besides its changes. -/
def guarantees (graph : NodeGraph) : ProviderAction → List ActionOutput
  | .luks (.open _ plannedNodeId _ _ readOnly) =>
      [.blockInterface plannedNodeId (if readOnly then .readOnly else .readWrite)]
  | .lvm (.setActivation target true) =>
      match graph.kindOf target with
      | some (.lvmLv _) => [.blockInterface target .readWrite]
      | _ => []
  | .filesystem (.check target force) =>
      if force && isExtFilesystem graph target then [.filesystemCheckPassed target] else []
  | _ => []

/-- The changes to the capacity of an allocation domain that an action predicts. -/
def allocationChanges (graph : NodeGraph) : ProviderAction → List AllocationEffect
  | .lvm (.createLv vg _ _ size layout) =>
      match lvmAllocation graph vg size layout with
      | some amount => [.reserve (.lvmVolumeGroup vg) amount]
      | none => [.invalidate (.lvmVolumeGroup vg)]
  | .lvm (.resizeLv lv newSize) =>
      match lvmVolumeGroup graph lv with
      | none => []
      | some vg =>
          match (knownSize graph lv).bind (lvmLvAllocation graph vg lv),
              lvmLvAllocation graph vg lv newSize with
          | some old, some new =>
              if new > old then [.reserve (.lvmVolumeGroup vg) (new - old)]
              else if new < old then [.release (.lvmVolumeGroup vg) (old - new)]
              else []
          | _, _ => [.invalidate (.lvmVolumeGroup vg)]
  | .lvm (.removeLv lv) =>
      match lvmVolumeGroup graph lv with
      | none => []
      | some vg =>
          match (knownSize graph lv).bind (lvmLvAllocation graph vg lv) with
          | some amount => [.release (.lvmVolumeGroup vg) amount]
          | none => [.invalidate (.lvmVolumeGroup vg)]
  | _ => []

/-- The observations an action makes stale. -/
def staleFacts (graph : NodeGraph) : ProviderAction → List FactInvalidation
  | .partition (.createTable disk _ _) => [⟨.node disk, .topology⟩]
  | .partition (.create table ..) => [⟨.node table, .topology⟩]
  | .partition (.resize node _) => ⟨.node node, .geometry⟩ :: staleTable graph node
  | .partition (.delete node) => ⟨.node node, .presence⟩ :: staleTable graph node
  | .partition (.setAttributes node _) => ⟨.node node, .identity⟩ :: staleTable graph node
  | .luks (.format target ..) => [⟨.node target, .content⟩, ⟨.node target, .identity⟩]
  | .luks (.open container ..) => [⟨.node container, .topology⟩]
  | .luks (.close mapping) => [⟨.node mapping, .presence⟩]
  | .luks (.resize mapping _) => [⟨.node mapping, .geometry⟩]
  | .lvm (.createPv backing _) => [⟨.node backing, .content⟩]
  | .lvm (.createVg _ _ pvs) => pvs.map fun pv => ⟨.node pv, .topology⟩
  | .lvm (.createLv vg ..) => [⟨.node vg, .geometry⟩, ⟨.node vg, .topology⟩]
  | .lvm (.resizeLv lv _) =>
      ⟨.node lv, .geometry⟩ ::
        (lvmVolumeGroup graph lv).toList.map fun vg => ⟨.node vg, .geometry⟩
  | .lvm (.removeLv lv) =>
      ⟨.node lv, .presence⟩ :: (lvmVolumeGroup graph lv).toList.flatMap fun vg =>
        [⟨.node vg, .geometry⟩, ⟨.node vg, .topology⟩]
  | .lvm (.setActivation target _) => [⟨.node target, .activation⟩]
  | .filesystem (.create backing ..) => [⟨.node backing, .content⟩, ⟨.node backing, .identity⟩]
  | .filesystem (.resize node _) => [⟨.node node, .geometry⟩]
  | .filesystem (.check node _) | .filesystem (.repair node _) => [⟨.node node, .content⟩]
  | .filesystem (.setLabel node _) => [⟨.node node, .identity⟩]
  | .btrfs (.create members ..) => members.map fun member => ⟨.node member, .content⟩
  | .btrfs (.addDevice target device) | .btrfs (.removeDevice target device) =>
      [⟨.node target, .topology⟩, ⟨.node device, .topology⟩]
  | .btrfs (.convertProfiles target _) => [⟨.node target, .geometry⟩]
  | .btrfs (.createSubvolume target ..) => [⟨.node target, .topology⟩]
  | .mount (.mount _ target _ context) | .mount (.unmount target context) =>
      [⟨.mountTarget target context, .mount⟩]
  | .mount (.persist entry) => [⟨.persistentMountConfig entry.context, .mount⟩]
  | .mount (.removePersistent _ context) => [⟨.persistentMountConfig context, .mount⟩]

/-- The existing node that an action updates or removes, and the kind it has to have. -/
def subject : ProviderAction → Option (NodeId × NodeKindClass)
  | .partition (.resize node _) | .partition (.delete node) | .partition (.setAttributes node _) =>
      some (node, .partition)
  | .luks (.close mapping) | .luks (.resize mapping _) => some (mapping, .dmCryptMapping)
  | .lvm (.resizeLv lv _) | .lvm (.removeLv lv) => some (lv, .lvmLv)
  | .filesystem (.resize node _) | .filesystem (.setLabel node _) => some (node, .filesystem)
  | .btrfs (.convertProfiles node _) => some (node, .btrfsFilesystem)
  | _ => none

/-- The node an action removes. -/
def removed : ProviderAction → Option NodeId
  | .partition (.delete node) => some node
  | .luks (.close mapping) => some mapping
  | .lvm (.removeLv lv) => some lv
  | _ => none

/-- The nodes whose content an action replaces by a new format. -/
def formatted : ProviderAction → List NodeId
  | .partition (.createTable disk _ _) => [disk]
  | .luks (.format target _ _ _) => [target]
  | .lvm (.createPv backing _) => [backing]
  | .filesystem (.create backing _ _ _) => [backing]
  | .btrfs (.create members _ _ _) => members
  | _ => []

/-- The node an action deactivates. -/
def deactivated : ProviderAction → Option NodeId
  | .lvm (.setActivation target false) => some target
  | _ => none

/-- The node whose capacity an action sets or forgets, and the kind it has to have. -/
def resized : ProviderAction → Option (NodeId × NodeKindClass)
  | .partition (.resize node _) => some (node, .partition)
  | .luks (.resize mapping _) => some (mapping, .dmCryptMapping)
  | .lvm (.resizeLv lv _) => some (lv, .lvmLv)
  | .filesystem (.resize node _) => some (node, .filesystem)
  | _ => none

end ProviderAction

/-! ### The contract predicts exactly these -/

section Loops

variable {α V : Type} {f : ActionContract → α → ActionContract}

/-- A loop that leaves a field alone at each round leaves it alone. -/
theorem foldl_field (field : ActionContract → V)
    (hf : ∀ contract item, field (f contract item) = field contract) (items : List α)
    (contract : ActionContract) : field (items.foldl f contract) = field contract := by
  induction items generalizing contract with
  | nil => rfl
  | cons item rest ih => exact (ih (f contract item)).trans (hf contract item)

/-- A loop that appends one value at each round. -/
theorem foldl_append_field (field : ActionContract → List V) (value : α → V)
    (hf : ∀ contract item, field (f contract item) = field contract ++ [value item])
    (items : List α) (contract : ActionContract) :
    field (items.foldl f contract) = field contract ++ items.map value := by
  induction items generalizing contract with
  | nil => exact (List.append_nil _).symm
  | cons item rest ih =>
      rw [List.foldl_cons, ih, hf, List.map_cons, List.append_assoc, List.singleton_append]

end Loops

section Describe

variable {graph : NodeGraph} {contract : ActionContract}

theorem accessFilesystemBacking_effect {filesystem : NodeId} {mode : ResourceAccessMode} :
    (accessFilesystemBacking contract graph filesystem mode).predictedEffect =
      contract.predictedEffect := by
  refine foldl_field ActionContract.predictedEffect ?_ (backingNodes graph filesystem) contract
  intro contract backing
  rfl

theorem resizeLvAllocation_graph {domain : AllocationDomain}
    {old new : Option AllocationQuantity} :
    (resizeLvAllocation contract domain old new).predictedEffect.graph =
        contract.predictedEffect.graph ∧
      (resizeLvAllocation contract domain old new).predictedEffect.mounts =
        contract.predictedEffect.mounts := by
  unfold resizeLvAllocation
  split
  · split
    · exact ⟨rfl, rfl⟩
    · split
      · exact ⟨rfl, rfl⟩
      · exact ⟨rfl, rfl⟩
  · exact ⟨rfl, rfl⟩

theorem requireMountSource_effect {source : MountSource} :
    (requireMountSource contract graph source).predictedEffect = contract.predictedEffect := by
  rw [requireMountSource]
  split
  · rfl
  · next node _ =>
    refine foldl_field ActionContract.predictedEffect ?_ (graph.ancestors node) _
    intro contract ancestor
    rfl

/-- A partition action's contract has its changes to the graph and none to the mounts. -/
theorem describePartition_graph (action : PartitionAction) :
    (describePartition graph action).predictedEffect.graph = action.graphChanges graph ∧
      (describePartition graph action).predictedEffect.mounts = [] := by
  have haction : (describePartitionAction graph action).predictedEffect.graph =
      action.graphChanges graph ∧
      (describePartitionAction graph action).predictedEffect.mounts = [] := by
    cases action <;> exact ⟨rfl, rfl⟩
  rw [describePartition]
  split <;> exact haction

/-- A LUKS action's contract has its changes to the graph and none to the mounts. -/
theorem describeLuks_graph (action : LuksAction) :
    (describeLuks graph action).predictedEffect.graph = action.graphChanges graph ∧
      (describeLuks graph action).predictedEffect.mounts = [] := by
  cases action with
  | resize mapping size => cases size <;> exact ⟨rfl, rfl⟩
  | _ => exact ⟨rfl, rfl⟩

/-- An LVM action's contract has its changes to the graph and none to the mounts. -/
theorem describeLvm_graph (action : LvmAction) :
    (describeLvm graph action).predictedEffect.graph = action.graphChanges graph ∧
      (describeLvm graph action).predictedEffect.mounts = [] := by
  cases action with
  | createVg plannedNodeId name pvs =>
      have hmembers : ∀ contract : ActionContract, (pvs.foldl (fun result pv =>
          (result.requireKind pv .lvmPv).write (.node pv)) contract).predictedEffect =
          contract.predictedEffect := by
        refine foldl_field ActionContract.predictedEffect ?_ pvs
        intro contract pv
        rfl
      refine ⟨?_, ?_⟩
      · rw [describeLvm]
        refine (foldl_append_field (fun result => result.predictedEffect.graph)
          (fun pv => .insertDependency ⟨pv, plannedNodeId, .memberOf .lvmPv⟩)
          (fun contract pv => by rfl) pvs _).trans ?_
        change (ActionContract.predictedEffect (pvs.foldl _ _)).graph ++ [_] ++ _ = _
        rw [hmembers, LvmAction.graphChanges, creation, List.map_map]
        rfl
      · rw [describeLvm]
        refine (foldl_field (fun result => result.predictedEffect.mounts)
          (fun contract pv => by rfl) pvs _).trans ?_
        exact congrArg PredictedEffect.mounts (hmembers _)
  | resizeLv lv newSize =>
      rw [describeLvm]
      split
      · exact ⟨rfl, rfl⟩
      · exact ⟨resizeLvAllocation_graph.1, resizeLvAllocation_graph.2⟩
  | removeLv lv =>
      rw [describeLvm]
      split <;> exact ⟨rfl, rfl⟩
  | setActivation target active =>
      unfold describeLvm
      dsimp only
      split <;> exact ⟨rfl, rfl⟩
  | _ => exact ⟨rfl, rfl⟩

/-- An inspection has no effect. -/
theorem inspectionContract_effect {filesystem : NodeId} :
    (inspectionContract graph filesystem).predictedEffect = {} :=
  accessFilesystemBacking_effect

/-- A filesystem action's contract has its changes to the graph as its effect. -/
theorem describeFilesystem_effect (action : FilesystemAction) :
    (describeFilesystem graph action).predictedEffect = { graph := action.graphChanges } := by
  cases action with
  | create backing plannedNodeId filesystem label => rfl
  | resize filesystem newSize =>
      rw [describeFilesystem, accessFilesystemBacking_effect]
      have hresize : ∀ {p : Prop} [Decidable p],
          (if p then ((resizeContract graph filesystem newSize .filesystem .BACKING).require
            [.filesystemUnmounted filesystem]).read .runtimeMountState
          else resizeContract graph filesystem newSize .filesystem .BACKING).predictedEffect =
          { graph := [.setNodeSize filesystem newSize] } := by
        intro p _
        split <;> rfl
      split
      · exact hresize
      · exact hresize
  | check filesystem force =>
      rw [describeFilesystem]
      split
      · exact inspectionContract_effect
      · exact inspectionContract_effect
  | repair filesystem force => exact accessFilesystemBacking_effect
  | setLabel filesystem label =>
      rw [describeFilesystem, ActionContract.establish, ActionContract.invalidate,
        ActionContract.invalidateScope, ActionContract.changeGraph,
        accessFilesystemBacking_effect]
      rfl

/-- A Btrfs action's contract has its changes to the graph and none to the mounts. -/
theorem describeBtrfs_graph (action : BtrfsAction) :
    (describeBtrfs graph action).predictedEffect.graph = action.graphChanges graph ∧
      (describeBtrfs graph action).predictedEffect.mounts = [] := by
  cases action with
  | create members plannedNodeId label allocation =>
      have hmembers : ∀ contract : ActionContract, (members.foldl (fun result member =>
          result
            |>.require [.nodeExists member, .nodeKind member .block, .writable member,
                .noUnexpectedConsumers member, .destructiveApproval member]
            |>.write (.node member)
            |>.invalidate member .content) contract).predictedEffect =
          contract.predictedEffect := by
        refine foldl_field ActionContract.predictedEffect ?_ members
        intro contract member
        rfl
      refine ⟨?_, ?_⟩
      · rw [describeBtrfs]
        refine (foldl_append_field (fun result => result.predictedEffect.graph)
          (fun member => .insertDependency (btrfsMembership member plannedNodeId))
          (fun contract member => by rfl) members _).trans ?_
        change (ActionContract.predictedEffect (members.foldl _ _)).graph ++ [_] ++ _ = _
        rw [hmembers, BtrfsAction.graphChanges, creation, List.map_map]
        rfl
      · rw [describeBtrfs]
        refine (foldl_field (fun result => result.predictedEffect.mounts)
          (fun contract member => by rfl) members _).trans ?_
        exact congrArg PredictedEffect.mounts (hmembers _)
  | _ => exact ⟨rfl, rfl⟩

/-- A mount action's contract has its change of the mounts as its effect. -/
theorem describeMount_effect (action : MountAction) :
    (describeMount graph action).predictedEffect = { mounts := [action.mountChange] } := by
  cases action with
  | mount source target options context =>
      have hsource := @requireMountSource_effect graph ((ActionContract.new .idempotent
        |>.write .runtimeMountState |>.require [.mountDescendantsAbsent target context])) source
      rw [describeMount, ActionContract.establish, ActionContract.invalidateMount,
        ActionContract.invalidateScope, ActionContract.changeMounts]
      dsimp only
      rw [ActionContract.write, ActionContract.access, ActionContract.require]
      dsimp only
      rw [hsource]
      rfl
  | unmount target context => rfl
  | persist entry =>
      rw [describeMount]
      cases entry.source.node <;> rfl
  | removePersistent target context => rfl

/-- Every contract has the changes of its action. -/
theorem describeTechnology_changes (action : ProviderAction) :
    (describeTechnology graph action).predictedEffect.graph = action.graphChanges graph ∧
      (describeTechnology graph action).predictedEffect.mounts = action.mountChanges := by
  cases action with
  | partition action => exact describePartition_graph action
  | luks action => exact describeLuks_graph action
  | lvm action => exact describeLvm_graph action
  | filesystem action =>
      rw [describeTechnology, describeFilesystem_effect]
      exact ⟨rfl, rfl⟩
  | btrfs action => exact describeBtrfs_graph action
  | mount action =>
      rw [describeTechnology, describeMount_effect]
      exact ⟨rfl, rfl⟩

end Describe

theorem addOutputResources_effect {contract : ActionContract} :
    (addOutputResources contract).predictedEffect = contract.predictedEffect := by
  refine foldl_field ActionContract.predictedEffect (fun contract node => ?_) _ contract
  split <;> rfl

theorem addOutputResources_prerequisites {contract : ActionContract} :
    (addOutputResources contract).prerequisites = contract.prerequisites := by
  refine foldl_field ActionContract.prerequisites (fun contract node => ?_) _ contract
  split <;> rfl

section Trusted

variable (action : ProviderAction) (graph : NodeGraph)

/-- The resources of the outputs change no effect. -/
theorem describeAction_effect :
    (describeAction action graph).predictedEffect =
      (describeTechnology graph action).predictedEffect := by
  rw [describeAction, addOutputResources_effect, readConsumerMounts]
  split <;> rfl

/-- The resources of the outputs change no prerequisite. -/
theorem describeAction_prerequisites :
    (describeAction action graph).prerequisites =
      (describeTechnology graph action).prerequisites := by
  rw [describeAction, addOutputResources_prerequisites, readConsumerMounts]
  split <;> rfl

/-- The graph changes of the trusted contract. -/
theorem describeAction_graph :
    (describeAction action graph).predictedEffect.graph = action.graphChanges graph := by
  rw [describeAction_effect]
  exact (describeTechnology_changes action).1

/-- The mount changes of the trusted contract. -/
theorem describeAction_mounts :
    (describeAction action graph).predictedEffect.mounts = action.mountChanges := by
  rw [describeAction_effect]
  exact (describeTechnology_changes action).2

end Trusted

section Allocations

variable {graph : NodeGraph}

theorem describePartition_allocations (action : PartitionAction) :
    (describePartition graph action).predictedEffect.allocations = [] := by
  have haction : (describePartitionAction graph action).predictedEffect.allocations = [] := by
    cases action <;> rfl
  rw [describePartition]
  split <;> exact haction

theorem describeLuks_allocations (action : LuksAction) :
    (describeLuks graph action).predictedEffect.allocations = [] := by
  cases action with
  | resize mapping size => cases size <;> rfl
  | _ => rfl

/-- An LVM contract charges what its action allocates. -/
theorem describeLvm_allocations (action : LvmAction) :
    (describeLvm graph action).predictedEffect.allocations =
      ProviderAction.allocationChanges graph (.lvm action) := by
  cases action with
  | createVg plannedNodeId name pvs =>
      rw [describeLvm]
      refine (foldl_field (fun result => result.predictedEffect.allocations)
        (fun _ _ => by rfl) pvs _).trans ?_
      change (ActionContract.predictedEffect (List.foldl _ _ pvs)).allocations = []
      exact foldl_field (fun result => result.predictedEffect.allocations)
        (fun _ _ => by rfl) pvs _
  | createLv vg plannedNodeId name size layout =>
      simp only [describeLvm, ProviderAction.allocationChanges]
      cases lvmAllocation graph vg size layout <;> rfl
  | resizeLv lv newSize =>
      rw [describeLvm, ProviderAction.allocationChanges]
      cases lvmVolumeGroup graph lv with
      | none => rfl
      | some vg =>
          dsimp only
          cases (knownSize graph lv).bind (lvmLvAllocation graph vg lv) with
          | none => rfl
          | some old =>
              cases lvmLvAllocation graph vg lv newSize with
              | none => rfl
              | some new =>
                  dsimp only [resizeLvAllocation]
                  split
                  · rfl
                  · split <;> rfl
  | removeLv lv =>
      rw [describeLvm, ProviderAction.allocationChanges]
      cases lvmVolumeGroup graph lv with
      | none => rfl
      | some vg =>
          dsimp only
          cases (knownSize graph lv).bind (lvmLvAllocation graph vg lv) <;> rfl
  | setActivation target active =>
      unfold describeLvm
      dsimp only
      split <;> rfl
  | _ => rfl

/-- A Btrfs contract charges nothing. -/
theorem describeBtrfs_allocations (action : BtrfsAction) :
    (describeBtrfs graph action).predictedEffect.allocations =
      ProviderAction.allocationChanges graph (.btrfs action) := by
  cases action with
  | create members plannedNodeId label allocation =>
      rw [describeBtrfs]
      refine (foldl_field (fun result => result.predictedEffect.allocations)
        (fun _ _ => by rfl) members _).trans ?_
      change (ActionContract.predictedEffect (List.foldl _ _ members)).allocations = []
      exact foldl_field (fun result => result.predictedEffect.allocations)
        (fun _ _ => by rfl) members _
  | _ => rfl

/-- The allocation changes of the trusted contract. -/
theorem describeAction_allocations (action : ProviderAction) (graph : NodeGraph) :
    (describeAction action graph).predictedEffect.allocations = action.allocationChanges graph := by
  rw [describeAction_effect]
  cases action with
  | partition action => exact describePartition_allocations action
  | luks action => exact describeLuks_allocations action
  | lvm action => exact describeLvm_allocations action
  | filesystem action =>
      rw [describeTechnology, describeFilesystem_effect]
      rfl
  | btrfs action => exact describeBtrfs_allocations action
  | mount action =>
      rw [describeTechnology, describeMount_effect]
      rfl

end Allocations

/-! ### What the contract provides -/

section Outputs

variable {graph : NodeGraph} {contract : ActionContract}

theorem accessFilesystemBacking_outputs {filesystem : NodeId} {mode : ResourceAccessMode} :
    (accessFilesystemBacking contract graph filesystem mode).providedOutputs =
      contract.providedOutputs := by
  refine foldl_field ActionContract.providedOutputs ?_ (backingNodes graph filesystem) contract
  intro contract backing
  rfl

theorem inspectionContract_outputs {filesystem : NodeId} :
    (inspectionContract graph filesystem).providedOutputs = [] :=
  accessFilesystemBacking_outputs

theorem resizeLvAllocation_outputs {domain : AllocationDomain}
    {old new : Option AllocationQuantity} :
    (resizeLvAllocation contract domain old new).providedOutputs = contract.providedOutputs := by
  unfold resizeLvAllocation
  split
  · split
    · rfl
    · split <;> rfl
  · rfl

/-- A partition contract provides what its action guarantees. -/
theorem describePartition_outputs (action : PartitionAction) :
    (describePartition graph action).providedOutputs =
      ProviderAction.guarantees graph (.partition action) := by
  have haction : (describePartitionAction graph action).providedOutputs = [] := by
    cases action <;> rfl
  rw [describePartition]
  split <;> exact haction

/-- A LUKS contract provides what its action guarantees. -/
theorem describeLuks_outputs (action : LuksAction) :
    (describeLuks graph action).providedOutputs = ProviderAction.guarantees graph
    (.luks action) := by
  cases action with
  | resize mapping size => cases size <;> rfl
  | _ => rfl

/-- An LVM contract provides what its action guarantees. -/
theorem describeLvm_outputs (action : LvmAction) :
    (describeLvm graph action).providedOutputs = ProviderAction.guarantees graph (.lvm action) := by
  cases action with
  | createVg plannedNodeId name pvs =>
      rw [describeLvm]
      refine (foldl_field ActionContract.providedOutputs (fun _ _ => ?_) pvs _).trans ?_
      · rfl
      · change ActionContract.providedOutputs (List.foldl _ _ pvs) = []
        exact foldl_field ActionContract.providedOutputs (fun _ _ => by rfl) pvs _
  | resizeLv lv newSize =>
      rw [describeLvm]
      split
      · rfl
      · exact resizeLvAllocation_outputs
  | removeLv lv =>
      rw [describeLvm]
      split <;> rfl
  | setActivation target active =>
      unfold describeLvm
      dsimp only
      cases active with
      | false => rfl
      | true =>
          rw [ProviderAction.guarantees]
          cases graph.kindOf target with
          | none => rfl
          | some kind => cases kind <;> rfl
  | _ => rfl

/-- A filesystem contract provides what its action guarantees. -/
theorem describeFilesystem_outputs (action : FilesystemAction) :
    (describeFilesystem graph action).providedOutputs =
      ProviderAction.guarantees graph (.filesystem action) := by
  cases action with
  | create => rfl
  | resize filesystem newSize =>
      have hresize : ∀ {p : Prop} [Decidable p],
          (if p then ((resizeContract graph filesystem newSize .filesystem .BACKING).require
            [.filesystemUnmounted filesystem]).read .runtimeMountState
          else resizeContract graph filesystem newSize .filesystem .BACKING).providedOutputs =
          [] := by
        intro p _
        split <;> rfl
      rw [describeFilesystem, accessFilesystemBacking_outputs]
      split
      · exact hresize
      · exact hresize
  | check filesystem force =>
      -- Only a forced check of an ext filesystem promises that it passed; the others inspect.
      rw [describeFilesystem, ProviderAction.guarantees]
      split
      · rw [ActionContract.establish, ActionContract.provide, inspectionContract_outputs]
        rfl
      · exact inspectionContract_outputs
  | repair => exact accessFilesystemBacking_outputs
  | setLabel => exact accessFilesystemBacking_outputs

/-- A Btrfs contract provides what its action guarantees. -/
theorem describeBtrfs_outputs (action : BtrfsAction) :
    (describeBtrfs graph action).providedOutputs =
      ProviderAction.guarantees graph (.btrfs action) := by
  cases action with
  | create members plannedNodeId label allocation =>
      rw [describeBtrfs]
      refine (foldl_field ActionContract.providedOutputs (fun _ _ => ?_) members _).trans ?_
      · rfl
      · change ActionContract.providedOutputs (List.foldl _ _ members) = []
        exact foldl_field ActionContract.providedOutputs (fun _ _ => by rfl) members _
  | _ => rfl

/-- A mount contract provides what its action guarantees. -/
theorem describeMount_outputs (action : MountAction) :
    (describeMount graph action).providedOutputs =
      ProviderAction.guarantees graph (.mount action) := by
  cases action with
  | mount source target options context =>
      rw [describeMount]
      change (requireMountSource _ graph source).providedOutputs = []
      rw [requireMountSource]
      split
      · rfl
      · exact foldl_field ActionContract.providedOutputs (fun _ _ => by rfl) _ _
  | persist entry =>
      rw [describeMount]
      cases entry.source.node <;> rfl
  | _ => rfl

/-- Every contract provides what its action guarantees. -/
theorem describeTechnology_outputs (action : ProviderAction) :
    (describeTechnology graph action).providedOutputs = action.guarantees graph := by
  cases action with
  | partition action => exact describePartition_outputs action
  | luks action => exact describeLuks_outputs action
  | lvm action => exact describeLvm_outputs action
  | filesystem action => exact describeFilesystem_outputs action
  | btrfs action => exact describeBtrfs_outputs action
  | mount action => exact describeMount_outputs action

theorem addOutputResources_outputs : (addOutputResources contract).providedOutputs =
    contract.providedOutputs := by
  refine foldl_field ActionContract.providedOutputs (fun contract node => ?_) _ contract
  split <;> rfl

/-- The outputs of the trusted contract. -/
theorem describeAction_outputs (action : ProviderAction) (graph : NodeGraph) :
    (describeAction action graph).providedOutputs =
      outputsFromEffect (describeAction action graph).predictedEffect ++
        action.guarantees graph := by
  rw [describeAction_effect, describeAction, addOutputResources_outputs, readConsumerMounts]
  split <;> exact congrArg _ (describeTechnology_outputs action)

end Outputs

/-! ### What the contract makes stale -/

section Facts

variable {graph : NodeGraph} {contract : ActionContract}

theorem accessFilesystemBacking_facts {filesystem : NodeId} {mode : ResourceAccessMode} :
    (accessFilesystemBacking contract graph filesystem mode).invalidatedFacts =
      contract.invalidatedFacts := by
  refine foldl_field ActionContract.invalidatedFacts ?_ (backingNodes graph filesystem) contract
  intro contract backing
  rfl

theorem inspectionContract_facts {filesystem : NodeId} :
    (inspectionContract graph filesystem).invalidatedFacts = [⟨.node filesystem, .content⟩] :=
  congrArg (· ++ _) accessFilesystemBacking_facts

theorem resizeLvAllocation_facts {domain : AllocationDomain}
    {old new : Option AllocationQuantity} :
    (resizeLvAllocation contract domain old new).invalidatedFacts = contract.invalidatedFacts := by
  unfold resizeLvAllocation
  split
  · split
    · rfl
    · split <;> rfl
  · rfl

theorem requireMountSource_facts {source : MountSource} :
    (requireMountSource contract graph source).invalidatedFacts = contract.invalidatedFacts := by
  rw [requireMountSource]
  split
  · rfl
  · next node _ =>
    refine foldl_field ActionContract.invalidatedFacts ?_ (graph.ancestors node) _
    intro contract ancestor
    rfl

/-- A partition contract invalidates the facts its action makes stale. -/
theorem describePartition_facts (action : PartitionAction) :
    (describePartition graph action).invalidatedFacts =
      ProviderAction.staleFacts graph (.partition action) := by
  have hmutated : ∀ partition, action.mutated = some partition →
      (describePartition graph action).invalidatedFacts =
        (describePartitionAction graph action).invalidatedFacts ++ staleTable graph partition := by
    intro partition hpartition
    rw [describePartition, staleTable, hpartition, Option.bind_some]
    cases partitionTable graph partition with
    | none => exact (List.append_nil _).symm
    | some table => rfl
  cases action with
  | createTable | create => rfl
  | resize partition | delete partition | setAttributes partition => exact hmutated partition rfl

/-- An LVM contract invalidates the facts its action makes stale. -/
theorem describeLvm_facts (action : LvmAction) :
    (describeLvm graph action).invalidatedFacts =
      ProviderAction.staleFacts graph (.lvm action) := by
  cases action with
  | createPv | createLv => rfl
  | createVg plannedNodeId name pvs =>
      rw [describeLvm]
      refine (foldl_append_field ActionContract.invalidatedFacts (fun pv => ⟨.node pv, .topology⟩)
        (fun _ _ => by rfl) pvs _).trans ?_
      change ActionContract.invalidatedFacts (List.foldl _ _ pvs) ++ _ = _
      rw [foldl_field ActionContract.invalidatedFacts (fun _ _ => by rfl) pvs]
      rfl
  | resizeLv lv newSize =>
      rw [describeLvm, ProviderAction.staleFacts]
      cases lvmVolumeGroup graph lv with
      | none => rfl
      | some vg => exact congrArg (· ++ _) resizeLvAllocation_facts
  | removeLv lv =>
      rw [describeLvm, ProviderAction.staleFacts]
      cases lvmVolumeGroup graph lv <;> rfl
  | setActivation target active =>
      unfold describeLvm
      dsimp only
      split <;> rfl

/-- A filesystem contract invalidates the facts its action makes stale. -/
theorem describeFilesystem_facts (action : FilesystemAction) :
    (describeFilesystem graph action).invalidatedFacts =
      ProviderAction.staleFacts graph (.filesystem action) := by
  cases action with
  | create => rfl
  | resize filesystem newSize =>
      have hresize : ∀ {p : Prop} [Decidable p],
          (if p then ((resizeContract graph filesystem newSize .filesystem .BACKING).require
            [.filesystemUnmounted filesystem]).read .runtimeMountState
          else resizeContract graph filesystem newSize .filesystem .BACKING).invalidatedFacts =
          [⟨.node filesystem, .geometry⟩] := by
        intro p _
        split <;> rfl
      rw [describeFilesystem, accessFilesystemBacking_facts]
      split
      · exact hresize
      · exact hresize
  | check filesystem force =>
      rw [describeFilesystem]
      split
      · exact inspectionContract_facts
      · exact inspectionContract_facts
  | repair | setLabel => exact congrArg (· ++ _) accessFilesystemBacking_facts

/-- A Btrfs contract invalidates the facts its action makes stale. -/
theorem describeBtrfs_facts (action : BtrfsAction) :
    (describeBtrfs graph action).invalidatedFacts =
      ProviderAction.staleFacts graph (.btrfs action) := by
  cases action with
  | create members plannedNodeId label allocation =>
      rw [describeBtrfs]
      refine (foldl_field ActionContract.invalidatedFacts (fun _ _ => by rfl) members _).trans ?_
      change ActionContract.invalidatedFacts (List.foldl _ _ members) = _
      rw [foldl_append_field ActionContract.invalidatedFacts
        (fun member => ⟨.node member, .content⟩)
        (fun _ _ => by rfl) members]
      rfl
  | _ => rfl

/-- A mount contract invalidates the facts its action makes stale. -/
theorem describeMount_facts (action : MountAction) :
    (describeMount graph action).invalidatedFacts =
      ProviderAction.staleFacts graph (.mount action) := by
  cases action with
  | mount source target options context => exact congrArg (· ++ _) requireMountSource_facts
  | persist entry =>
      rw [describeMount]
      cases entry.source.node <;> rfl
  | unmount | removePersistent => rfl

/-- The observations that the trusted contract makes stale. -/
theorem describeAction_facts (action : ProviderAction) (graph : NodeGraph) :
    (describeAction action graph).invalidatedFacts = action.staleFacts graph := by
  have htechnology : (describeTechnology graph action).invalidatedFacts =
      action.staleFacts graph := by
    cases action with
    | partition action => exact describePartition_facts action
    | luks action =>
        cases action with
        | resize mapping size => cases size <;> rfl
        | _ => rfl
    | lvm action => exact describeLvm_facts action
    | filesystem action => exact describeFilesystem_facts action
    | btrfs action => exact describeBtrfs_facts action
    | mount action => exact describeMount_facts action
  rw [describeAction, addOutputResources]
  refine (foldl_field ActionContract.invalidatedFacts (fun _ _ => ?_) _ _).trans ?_
  · split <;> rfl
  · rw [readConsumerMounts]
    split <;> exact htechnology

end Facts

/-! ### What the contract requires -/

namespace ActionContract

/-- The contract has the prerequisite. -/
def Requires (contract : ActionContract) (condition : ActionPrerequisite) : Prop :=
  condition ∈ contract.prerequisites

section Updates

variable {contract : ActionContract} {condition : ActionPrerequisite} {node : NodeId}

/-- The prerequisites after more are added. -/
@[simp] theorem requires_require {conditions : List ActionPrerequisite} :
    (contract.require conditions).Requires condition ↔
      contract.Requires condition ∨ condition ∈ conditions :=
  List.mem_append

/-- A kind is required together with its node. -/
@[simp] theorem requires_requireKind {expected : NodeKindClass} :
    (contract.requireKind node expected).Requires condition ↔
      contract.Requires condition ∨ condition = .nodeExists node ∨
        condition = .nodeKind node expected := by
  simp [requireKind]

@[simp] theorem requires_access {resource : ActionResource} {mode : ResourceAccessMode} :
    (contract.access resource mode).Requires condition ↔ contract.Requires condition :=
  Iff.rfl

@[simp] theorem requires_write {resource : ActionResource} :
    (contract.write resource).Requires condition ↔ contract.Requires condition :=
  Iff.rfl

@[simp] theorem requires_read {resource : ActionResource} :
    (contract.read resource).Requires condition ↔ contract.Requires condition :=
  Iff.rfl

@[simp] theorem requires_invalidate {kind : FactKind} :
    (contract.invalidate node kind).Requires condition ↔ contract.Requires condition :=
  Iff.rfl

@[simp] theorem requires_invalidateMount {target : PathBuf} {context : MountContext} :
    (contract.invalidateMount target context).Requires condition ↔ contract.Requires condition :=
  Iff.rfl

@[simp] theorem requires_changeGraph {effects : List GraphEffect} :
    (contract.changeGraph effects).Requires condition ↔ contract.Requires condition :=
  Iff.rfl

@[simp] theorem requires_changeMounts {effect : MountEffect} :
    (contract.changeMounts effect).Requires condition ↔ contract.Requires condition :=
  Iff.rfl

@[simp] theorem requires_changeAllocation {effect : AllocationEffect} :
    (contract.changeAllocation effect).Requires condition ↔ contract.Requires condition :=
  Iff.rfl

@[simp] theorem requires_establish {conditions : List Postcondition} :
    (contract.establish conditions).Requires condition ↔ contract.Requires condition :=
  Iff.rfl

@[simp] theorem requires_provide {output : ActionOutput} :
    (contract.provide output).Requires condition ↔ contract.Requires condition :=
  Iff.rfl

@[simp] theorem requires_insertNodeWithDependency {spec : NodeSpec} {dependency : Dependency} :
    (contract.insertNodeWithDependency node spec dependency).Requires condition ↔
      contract.Requires condition :=
  Iff.rfl

@[simp] theorem requires_addDependency {dependency : Dependency} :
    (contract.addDependency dependency).Requires condition ↔ contract.Requires condition :=
  Iff.rfl

theorem Requires.ite {p : Prop} [Decidable p] {left right : ActionContract}
    (hleft : left.Requires condition) (hright : right.Requires condition) :
    (if p then left else right).Requires condition := by
  split
  · exact hleft
  · exact hright

/-- A loop that only adds prerequisites keeps those that were there. -/
theorem Requires.foldl {α : Type} {f : ActionContract → α → ActionContract}
    (h : contract.Requires condition) (items : List α)
    (hf : ∀ contract item, contract.Requires condition → (f contract item).Requires condition) :
    (items.foldl f contract).Requires condition := by
  induction items generalizing contract with
  | nil => exact h
  | cons item rest ih => exact ih (hf contract item h)

/-- A round of a loop leaves its own prerequisite behind. -/
theorem requires_foldl_of_mem {α : Type} {f : ActionContract → α → ActionContract}
    {items : List α} {item : α} (hitem : item ∈ items)
    (hself : ∀ contract, (f contract item).Requires condition)
    (hf : ∀ contract item, contract.Requires condition → (f contract item).Requires condition)
    (contract : ActionContract) : (items.foldl f contract).Requires condition := by
  induction items generalizing contract with
  | nil => cases hitem
  | cons first rest ih =>
      rcases List.mem_cons.mp hitem with rfl | hitem
      · exact (hself contract).foldl rest hf
      · exact ih hitem (f contract first)

end Updates

end ActionContract

open ActionContract (Requires)

section Requires

variable {action : ProviderAction} {graph : NodeGraph} {node : NodeId} {contract : ActionContract}
  {condition : ActionPrerequisite}

/-- The resources of the outputs add no prerequisite. -/
theorem requires_describeAction :
    (describeAction action graph).Requires condition ↔
      (describeTechnology graph action).Requires condition := by
  rw [Requires, describeAction_prerequisites, Requires]

/-- The lock of the table adds no prerequisite. -/
theorem requires_describePartition {action : PartitionAction} :
    (describePartition graph action).Requires condition ↔
      (describePartitionAction graph action).Requires condition := by
  rw [describePartition]
  split <;> rfl

theorem requires_accessFilesystemBacking {filesystem : NodeId} {mode : ResourceAccessMode}
    (h : contract.Requires condition) :
    (accessFilesystemBacking contract graph filesystem mode).Requires condition :=
  h.foldl _ fun _ _ h => by simp [h]

theorem requires_resizeLvAllocation {domain : AllocationDomain}
    {old new : Option AllocationQuantity} (h : contract.Requires condition) :
    (resizeLvAllocation contract domain old new).Requires condition := by
  unfold resizeLvAllocation
  split
  · split
    · simp [h]
    · split
      · exact h
      · exact h
  · simp [h]

/-- Each device of a new Btrfs filesystem has to be free. -/
theorem requires_describeBtrfs_create {members : List NodeId} {plannedNodeId : NodeId}
    {label : Option String} {allocation : BtrfsAllocation} (h : node ∈ members) :
    (describeBtrfs graph (.create members plannedNodeId label allocation)).Requires
      (.noUnexpectedConsumers node) := by
  rw [describeBtrfs]
  refine Requires.foldl ?_ members fun contract member h => h
  rw [ActionContract.requires_establish, ActionContract.requires_changeGraph]
  refine ActionContract.requires_foldl_of_mem h (fun contract => ?_) (fun contract member h => ?_) _
  · simp
  · simp [h]

/-- Each member of a new group has to be a physical volume. -/
theorem requires_describeLvm_createVg {plannedNodeId : NodeId} {name : String} {pvs : List NodeId}
    (h : node ∈ pvs) :
    (describeLvm graph (.createVg plannedNodeId name pvs)).Requires (.nodeKind node .lvmPv) := by
  rw [describeLvm]
  refine Requires.foldl ?_ pvs fun contract pv h => h
  rw [ActionContract.requires_establish, ActionContract.requires_changeGraph,
    ActionContract.requires_write]
  refine ActionContract.requires_foldl_of_mem h (fun contract => ?_) (fun contract pv h => ?_) _
  · simp
  · simp [h]

/-- What is removed must have no consumer. -/
theorem requires_removeNodeContract {expected : NodeKindClass} :
    (removeNodeContract graph node expected true).Requires (.noUnexpectedConsumers node) := by
  simp [removeNodeContract]

/-- What is overwritten must have no consumer. -/
theorem requires_destructiveContract {policy : RestartPolicy} :
    (destructiveContract node policy).Requires (.noUnexpectedConsumers node) := by
  simp [destructiveContract]

/-- What an action removes is required to have no consumer. -/
theorem describeAction_removed (h : action.removed = some node) :
    (describeAction action graph).Requires (.noUnexpectedConsumers node) := by
  rw [requires_describeAction]
  unfold ProviderAction.removed at h
  split at h
  · cases h
    rw [describeTechnology, requires_describePartition, describePartitionAction]
    simp [requires_removeNodeContract]
  · cases h
    exact requires_removeNodeContract
  · cases h
    rw [describeTechnology, describeLvm]
    split <;> simp [requires_removeNodeContract]
  · cases h

/-- What an action overwrites is required to have no consumer. -/
theorem describeAction_formatted (h : node ∈ action.formatted) :
    (describeAction action graph).Requires (.noUnexpectedConsumers node) := by
  rw [requires_describeAction]
  unfold ProviderAction.formatted at h
  split at h
  · rw [List.mem_singleton] at h
    subst h
    rw [describeTechnology, requires_describePartition, describePartitionAction]
    simp [requires_destructiveContract]
  · rw [List.mem_singleton] at h
    subst h
    simp [describeTechnology, describeLuks, requires_destructiveContract]
  · rw [List.mem_singleton] at h
    subst h
    simp [describeTechnology, describeLvm, requires_destructiveContract]
  · rw [List.mem_singleton] at h
    subst h
    simp [describeTechnology, describeFilesystem, requires_destructiveContract]
  · rw [describeTechnology]
    exact requires_describeBtrfs_create h
  · cases h

/-- What is resized has to be of its kind. -/
theorem requires_resizeContract {size : Bytes} {expected : NodeKindClass} {safety : ResizeSafety} :
    (resizeContract graph node size expected safety).Requires (.nodeKind node expected) := by
  simp [resizeContract]

/-- What an action resizes is required to have its kind. -/
theorem describeAction_resized {expected : NodeKindClass}
    (h : action.resized = some (node, expected)) :
    (describeAction action graph).Requires (.nodeKind node expected) := by
  rw [requires_describeAction]
  unfold ProviderAction.resized at h
  split at h
  · cases h
    rw [describeTechnology, requires_describePartition]
    exact requires_resizeContract
  · next mapping size =>
    cases h
    cases size with
    | none => simp [describeTechnology, describeLuks]
    | some size => exact requires_resizeContract
  · cases h
    rw [describeTechnology, describeLvm]
    split
    · exact requires_resizeContract
    · rw [ActionContract.requires_invalidate]
      exact requires_resizeLvAllocation requires_resizeContract
  · cases h
    rw [describeTechnology, describeFilesystem]
    refine requires_accessFilesystemBacking (.ite ?_ ?_)
    · rw [ActionContract.requires_require]
      exact .inl (.ite (by simp [requires_resizeContract]) requires_resizeContract)
    · exact .ite (by simp [requires_resizeContract]) requires_resizeContract
  · cases h

/-- What is removed has to be of its kind. -/
theorem kind_removeNodeContract {expected : NodeKindClass} :
    (removeNodeContract graph node expected true).Requires (.nodeKind node expected) := by
  simp [removeNodeContract]

/-- What an action updates or removes is required to have its kind. -/
theorem describeAction_subject {expected : NodeKindClass}
    (h : action.subject = some (node, expected)) :
    (describeAction action graph).Requires (.nodeKind node expected) := by
  cases hresized : action.resized with
  | some resized =>
      have hsubject : some resized = some (node, expected) := by
        rw [← hresized, ← h]
        unfold ProviderAction.resized at hresized ⊢
        split at hresized
        all_goals first | rfl | cases hresized
      rw [hsubject] at hresized
      exact describeAction_resized hresized
  | none =>
      rw [requires_describeAction]
      unfold ProviderAction.subject at h
      split at h
      · cases hresized
      · cases h
        rw [describeTechnology, requires_describePartition, describePartitionAction]
        simp [kind_removeNodeContract]
      · cases h
        rw [describeTechnology, requires_describePartition, describePartitionAction]
        simp
      · cases h
        exact kind_removeNodeContract
      · cases hresized
      · cases hresized
      · cases h
        rw [describeTechnology, describeLvm]
        split <;> simp [kind_removeNodeContract]
      · cases hresized
      · cases h
        rw [describeTechnology, describeFilesystem]
        simp only [ActionContract.requires_establish, ActionContract.requires_invalidate,
          ActionContract.requires_changeGraph]
        exact requires_accessFilesystemBacking (by simp)
      · cases h
        rw [describeTechnology, describeBtrfs]
        simp
      · cases h

/-- The node a runtime mount comes from is required to exist. -/
theorem describeAction_mountSource {source : MountSource} {target : PathBuf}
    {options : List String} {context : MountContext} (h : source.node = some node) :
    (describeAction (.mount (.mount source target options context)) graph).Requires
      (.nodeExists node) := by
  rw [requires_describeAction, describeTechnology, describeMount, requireMountSource, h]
  have hancestors : ∀ contract : ActionContract, contract.Requires (.nodeExists node) →
      ((graph.ancestors node).foldl (fun result ancestor => result.read (.node ancestor))
        contract).Requires (.nodeExists node) :=
    fun contract h => h.foldl _ fun _ _ h => h
  rw [ActionContract.requires_establish, ActionContract.requires_invalidateMount,
    ActionContract.requires_changeMounts, ActionContract.requires_write,
    ActionContract.requires_require]
  refine .inl (hancestors _ ?_)
  simp

end Requires

end DisksGraph
