import DisksGraph.Provider.Contract
import Mathlib.Data.List.Sort

/-!
# Provider — Describe

`describe_action` (`contract.rs`): the only trusted contract of a typed action, computed from the
action and the graph visible before it.
-/

namespace DisksGraph

/-! ### Graph queries -/

/-- Resolves predictable current capacity without inventing future facts. -/
def knownSize (graph : NodeGraph) (node : NodeId) : Option Bytes :=
  (graph.node node).bind fun value => value.kind.size

/-- Identifies the filesystem family covered by the current resize and check recipe. -/
def isExtFilesystem (graph : NodeGraph) (node : NodeId) : Bool :=
  match graph.kindOf node with
  | some (.filesystem .ext2 _) | some (.filesystem .ext3 _) | some (.filesystem .ext4 _) => true
  | _ => false

/-- Calculates exact linear-LV allocation only for known, extent-aligned capacity. -/
def lvmAllocation (graph : NodeGraph) (vg : NodeId) (size : Bytes) (layout : LvmLvKind) :
    Option AllocationQuantity :=
  if layout ≠ .linear then none
  else match graph.kindOf vg with
    | some (.lvmVg _ (some extentSize)) =>
        if extentSize = 0 then none
        else if size = 0 || size % extentSize ≠ 0 then none
        else some (size / extentSize)
    | _ => none

/-- Calculates allocation for the layout of an existing or previously created LV. -/
def lvmLvAllocation (graph : NodeGraph) (vg lv : NodeId) (size : Bytes) :
    Option AllocationQuantity :=
  match graph.kindOf lv with
  | some (.lvmLv value) => lvmAllocation graph vg size value.kind
  | _ => none

/-- Returns exactly one owning VG metadata domain, rejecting missing or ambiguous ownership. -/
def lvmVolumeGroup (graph : NodeGraph) (lv : NodeId) : Option NodeId :=
  match graph.dependencies.filter fun edge => edge.target == lv && edge.kind == .provides with
  | [owner] =>
      match graph.kindOf owner.source with
      | some (.lvmVg _ _) => some owner.source
      | _ => none
  | _ => none

/-- Resolves exactly one containing partition table without choosing a hash iteration order. -/
def partitionTable (graph : NodeGraph) (partition : NodeId) : Option NodeId :=
  match graph.dependencies.filter fun edge => edge.target == partition && edge.kind.isContains with
  | [owner] =>
      match graph.kindOf owner.source with
      | some (.partitionTable _) => some owner.source
      | _ => none
  | _ => none

/-! ### Shared contract shapes -/

/-- Builds a contract for destructive content replacement. -/
def destructiveContract (node : NodeId) (restartPolicy : RestartPolicy) : ActionContract :=
  ActionContract.new restartPolicy
    |>.require [.nodeExists node, .nodeKind node .block, .writable node,
        .noUnexpectedConsumers node, .destructiveApproval node]
    |>.write (.node node)

/-- Capacity relationships that must hold around one resize action. -/
structure ResizeSafety where
  dependents : Bool
  backing : Bool

namespace ResizeSafety

/-- What stands on the node must still fit. -/
def DEPENDENTS : ResizeSafety := ⟨true, false⟩

/-- What the node stands on must be large enough. -/
def BACKING : ResizeSafety := ⟨false, true⟩

/-- Both sides must fit. -/
def BOTH : ResizeSafety := ⟨true, true⟩

end ResizeSafety

/-- Builds a contract for a predictable size change. -/
def resizeContract (graph : NodeGraph) (node : NodeId) (size : Bytes) (expected : NodeKindClass)
    (safety : ResizeSafety) : ActionContract :=
  let currentSize := knownSize graph node
  ActionContract.new .reprobeThenRetry
    |>.requireKind node expected
    |>.require (if safety.dependents && currentSize.all (· > size)
        then [.dependentsFitWithin node size] else [])
    |>.require (if safety.backing && currentSize.all (· < size)
        then [.backingSizeAtLeast node size] else [])
    |>.write (.node node)
    |>.changeGraph [.setNodeSize node size]
    |>.invalidate node .geometry
    |>.establish [.nodeSize node size]

/-- The dependencies that start or end at a node. -/
def incidentDependencies (graph : NodeGraph) (node : NodeId) : List Dependency :=
  graph.dependencies.filter fun edge => edge.source == node || edge.target == node

/-- Builds a contract for removing a graph node. -/
def removeNodeContract (graph : NodeGraph) (node : NodeId) (expected : NodeKindClass)
    (requireNoConsumers : Bool) : ActionContract :=
  let incident := incidentDependencies graph node
  ActionContract.new .reprobeThenRetry
    |>.requireKind node expected
    |>.require (if requireNoConsumers
        then [.noUnexpectedConsumers node, .noUnexpectedRelations node] else [])
    |>.write (.node node)
    |>.changeGraph (.removeNode node :: incident.map .removeDependency)
    |>.establish (incident.map .dependencyAbsent)
    |>.invalidate node .presence
    |>.establish [.nodeAbsent node]

/-- The direct backing endpoints of a filesystem. -/
def backingNodes (graph : NodeGraph) (filesystem : NodeId) : List NodeId :=
  (graph.dependencies.filter fun edge => edge.target == filesystem && edge.kind.isBacks).map
    (·.source)

/-- Locks the direct backing endpoint and requires write access for filesystem mutations. -/
def accessFilesystemBacking (result : ActionContract) (graph : NodeGraph) (filesystem : NodeId)
    (mode : ResourceAccessMode) : ActionContract :=
  (backingNodes graph filesystem).foldl (fun result backing =>
    (result.access (.node backing) mode).require
      (if mode = .write then [.writable backing] else [])) result

/-- Builds a read-only filesystem inspection contract. -/
def inspectionContract (graph : NodeGraph) (node : NodeId) : ActionContract :=
  let result := ActionContract.new .idempotent
    |>.requireKind node .filesystem
    |>.require [.filesystemUnmounted node]
    |>.read .runtimeMountState
    |>.read (.node node)
  accessFilesystemBacking result graph node .read
    |>.invalidate node .content
    |>.establish [.nodeReprobed node]

/-- Builds common Btrfs membership prerequisites and resource locks. -/
def btrfsMembershipContract (filesystem device : NodeId) : ActionContract :=
  ActionContract.new .reprobeThenRetry
    |>.requireKind filesystem .btrfsFilesystem
    |>.requireKind device .block
    |>.write (.node filesystem)
    |>.write (.node device)
    |>.invalidate filesystem .topology
    |>.invalidate device .topology

/-! ### One describer per technology -/

/-- Describes partition actions before the shared table accesses. -/
def describePartitionAction (graph : NodeGraph) : PartitionAction → ActionContract
  | .createTable disk plannedNodeId table =>
      let spec : NodeSpec := ⟨.partitionTable table, knownSize graph disk⟩
      destructiveContract disk .manualRecovery
        |>.write (.partitionTable plannedNodeId)
        |>.insertNodeWithDependency plannedNodeId spec ⟨disk, plannedNodeId, .backs⟩
        |>.invalidate disk .topology
  | .create table plannedNodeId number offset size role attributes =>
      let spec : NodeSpec := ⟨.partition number offset role attributes, some size⟩
      ActionContract.new .reprobeThenRetry
        |>.requireKind table .partitionTable
        |>.require [.writable table, .extentAvailable table offset size]
        |>.write (.partitionTable table)
        |>.insertNodeWithDependency plannedNodeId spec ⟨table, plannedNodeId, .contains offset⟩
        |>.invalidate table .topology
  | .resize partition newSize => resizeContract graph partition newSize .partition .DEPENDENTS
  | .delete partition =>
      removeNodeContract graph partition .partition true
        |>.require [.destructiveApproval partition]
        |>.require ((partitionTable graph partition).toList.map .writable)
  | .setAttributes partition attributes =>
      ActionContract.new .reprobeThenRetry
        |>.requireKind partition .partition
        |>.write (.node partition)
        |>.changeGraph [.setPartitionAttributes partition attributes]
        |>.invalidate partition .identity
        |>.establish [.partitionAttributes partition attributes]

/-- The partition whose containing table a mutation also touches. -/
def PartitionAction.mutated : PartitionAction → Option NodeId
  | .resize partition _ | .delete partition | .setAttributes partition _ => some partition
  | .createTable .. | .create .. => none

/-- Describes partition actions. -/
def describePartition (graph : NodeGraph) (action : PartitionAction) : ActionContract :=
  match action.mutated.bind (partitionTable graph) with
  | some table =>
      describePartitionAction graph action
        |>.write (.partitionTable table)
        |>.invalidate table .topology
  | none => describePartitionAction graph action

/-- Describes LUKS actions. -/
def describeLuks (graph : NodeGraph) : LuksAction → ActionContract
  | .format target plannedNodeId version credential =>
      destructiveContract target .verifyThenRetry
        |>.require [.credentialAvailable credential]
        |>.insertNodeWithDependency plannedNodeId ⟨.luksContainer version, none⟩
            ⟨target, plannedNodeId, .backs⟩
        |>.invalidate target .content
        |>.invalidate target .identity
  | .open container plannedNodeId mappingName credential readOnly =>
      ActionContract.new .reprobeThenRetry
        |>.requireKind container .luksContainer
        |>.require (if readOnly then [] else [.writable container])
        |>.read (.node container)
        |>.require [.credentialAvailable credential]
        |>.insertNodeWithDependency plannedNodeId
            ⟨.dmCryptMapping mappingName, knownSize graph container⟩
            ⟨container, plannedNodeId, .backs⟩
        |>.provide (.blockInterface plannedNodeId (if readOnly then .readOnly else .readWrite))
        |>.invalidate container .topology
  | .close mapping => removeNodeContract graph mapping .dmCryptMapping true
  | .resize mapping (some size) => resizeContract graph mapping size .dmCryptMapping .BOTH
  | .resize mapping none =>
      ActionContract.new .reprobeThenRetry
        |>.requireKind mapping .dmCryptMapping
        |>.write (.node mapping)
        |>.changeGraph [.invalidateNodeSize mapping]
        |>.invalidate mapping .geometry
        |>.establish [.nodeReprobed mapping]

/-- The allocation part of an LV resize inside its volume group. -/
def resizeLvAllocation (result : ActionContract) (domain : AllocationDomain) :
    Option AllocationQuantity → Option AllocationQuantity → ActionContract
  | some old, some new =>
      if new > old then
        result
          |>.require [.capacityAvailable domain (some (new - old))]
          |>.changeAllocation (.reserve domain (new - old))
      else if new < old then result.changeAllocation (.release domain (old - new))
      else result
  | _, _ =>
      result
        |>.require [.capacityAvailable domain none]
        |>.changeAllocation (.invalidate domain)

/-- Describes LVM actions. -/
def describeLvm (graph : NodeGraph) : LvmAction → ActionContract
  | .createPv backing plannedNodeId =>
      destructiveContract backing .verifyThenRetry
        |>.insertNodeWithDependency plannedNodeId ⟨.lvmPv, none⟩ ⟨backing, plannedNodeId, .backs⟩
        |>.invalidate backing .content
  | .createVg plannedNodeId name pvs =>
      let result := ActionContract.new .reprobeThenRetry |>.require [.distinctNodes pvs]
      let result := pvs.foldl
        (fun result pv => (result.requireKind pv .lvmPv).write (.node pv)) result
      let spec : NodeSpec := ⟨.lvmVg name none, none⟩
      let result := result
        |>.write (.lvmMetadata plannedNodeId)
        |>.changeGraph [.insertNode plannedNodeId spec]
        |>.establish [.nodeMatches plannedNodeId spec]
      pvs.foldl (fun result pv =>
        (result.addDependency ⟨pv, plannedNodeId, .memberOf .lvmPv⟩).invalidate pv .topology) result
  | .createLv vg plannedNodeId name size layout =>
      let domain : AllocationDomain := .lvmVolumeGroup vg
      let allocation := lvmAllocation graph vg size layout
      ActionContract.new .reprobeThenRetry
        |>.requireKind vg .lvmVg
        |>.require [.capacityAvailable domain allocation]
        |>.write (.lvmMetadata vg)
        |>.insertNodeWithDependency plannedNodeId ⟨.lvmLv ⟨name, layout⟩, some size⟩
            ⟨vg, plannedNodeId, .provides⟩
        |>.changeAllocation (match allocation with
            | some amount => .reserve domain amount
            | none => .invalidate domain)
        |>.invalidate vg .geometry
        |>.invalidate vg .topology
  | .resizeLv lv newSize =>
      let result := resizeContract graph lv newSize .lvmLv .DEPENDENTS
      match lvmVolumeGroup graph lv with
      | none => result
      | some vg =>
          let old := (knownSize graph lv).bind (lvmLvAllocation graph vg lv)
          let new := lvmLvAllocation graph vg lv newSize
          resizeLvAllocation (result.write (.lvmMetadata vg)) (.lvmVolumeGroup vg) old new
            |>.invalidate vg .geometry
  | .removeLv lv =>
      let result := removeNodeContract graph lv .lvmLv true |>.require [.destructiveApproval lv]
      match lvmVolumeGroup graph lv with
      | none => result
      | some vg =>
          let domain : AllocationDomain := .lvmVolumeGroup vg
          result
            |>.write (.lvmMetadata vg)
            |>.changeAllocation
                (match (knownSize graph lv).bind (lvmLvAllocation graph vg lv) with
                | some amount => .release domain amount
                | none => .invalidate domain)
            |>.invalidate vg .geometry
            |>.invalidate vg .topology
  | .setActivation target active =>
      let result := ActionContract.new .idempotent
        |>.require [.nodeExists target]
        |>.write (.node target)
        |>.changeGraph [.setActivation target active]
        |>.invalidate target .activation
        |>.establish [.activation target active]
      match active, graph.kindOf target with
      | true, some (.lvmLv _) => result.provide (.blockInterface target .readWrite)
      | _, _ => result

/-- Describes ordinary filesystem actions. -/
def describeFilesystem (graph : NodeGraph) : FilesystemAction → ActionContract
  | .create backing plannedNodeId filesystem label =>
      destructiveContract backing .verifyThenRetry
        |>.insertNodeWithDependency plannedNodeId ⟨.filesystem filesystem label, none⟩
            ⟨backing, plannedNodeId, .backs⟩
        |>.invalidate backing .content
        |>.invalidate backing .identity
  | .resize filesystem newSize =>
      let mayShrink := (knownSize graph filesystem).all (· > newSize)
      let isExt2 := match graph.kindOf filesystem with
        | some (.filesystem .ext2 _) => true
        | _ => false
      let result := resizeContract graph filesystem newSize .filesystem .BACKING
      let result := if mayShrink || isExt2
        then (result.require [.filesystemUnmounted filesystem]).read .runtimeMountState
        else result
      let result := if mayShrink
        then result.require
          [.filesystemCheckPassed filesystem, .filesystemMinimumSize filesystem newSize]
        else result
      accessFilesystemBacking result graph filesystem .write
  | .check filesystem force =>
      let result := inspectionContract graph filesystem
      if force && isExtFilesystem graph filesystem then
        result
          |>.provide (.filesystemCheckPassed filesystem)
          |>.establish [.filesystemCheckPassed filesystem]
      else result
  | .repair filesystem _ =>
      let result := ActionContract.new .manualRecovery
        |>.requireKind filesystem .filesystem
        |>.require [.filesystemUnmounted filesystem]
        |>.read .runtimeMountState
        |>.require [.noUnexpectedConsumers filesystem]
        |>.write (.node filesystem)
      accessFilesystemBacking result graph filesystem .write
        |>.invalidate filesystem .content
        |>.establish [.nodeReprobed filesystem]
  | .setLabel filesystem label =>
      let result := ActionContract.new .reprobeThenRetry
        |>.requireKind filesystem .filesystem
        |>.write (.node filesystem)
      accessFilesystemBacking result graph filesystem .write
        |>.changeGraph [.setFilesystemLabel filesystem label]
        |>.invalidate filesystem .identity
        |>.establish [.filesystemLabel filesystem label]

/-- The membership edge of a Btrfs device whose `devid` is not known yet. -/
def btrfsMembership (device filesystem : NodeId) : Dependency :=
  ⟨device, filesystem, .memberOf (.btrfs ⟨none⟩)⟩

/-- Describes Btrfs actions. -/
def describeBtrfs (graph : NodeGraph) : BtrfsAction → ActionContract
  | .create members plannedNodeId label allocation =>
      let result := ActionContract.new .verifyThenRetry |>.require [.distinctNodes members]
      let result := members.foldl (fun result member =>
        result
          |>.require [.nodeExists member, .nodeKind member .block, .writable member,
              .noUnexpectedConsumers member, .destructiveApproval member]
          |>.write (.node member)
          |>.invalidate member .content) result
      let spec : NodeSpec := ⟨.filesystem (.btrfs allocation) label, none⟩
      let result := result
        |>.changeGraph [.insertNode plannedNodeId spec]
        |>.establish [.nodeMatches plannedNodeId spec]
      members.foldl (fun result member =>
        result.addDependency (btrfsMembership member plannedNodeId)) result
  | .addDevice filesystem device =>
      btrfsMembershipContract filesystem device
        |>.addDependency (btrfsMembership device filesystem)
  | .removeDevice filesystem device =>
      let dependency := (graph.dependencies.find? fun edge =>
        edge.source == device && edge.target == filesystem && edge.kind.isBtrfsMember).getD
          (btrfsMembership device filesystem)
      btrfsMembershipContract filesystem device
        |>.changeGraph [.removeDependency dependency]
        |>.establish [.dependencyAbsent dependency]
  | .convertProfiles filesystem target =>
      ActionContract.new .reprobeThenRetry
        |>.requireKind filesystem .btrfsFilesystem
        |>.write (.node filesystem)
        |>.changeGraph [.setBtrfsAllocation filesystem target]
        |>.invalidate filesystem .geometry
        |>.establish [.btrfsAllocation filesystem target]
  | .createSubvolume filesystem plannedNodeId name readOnly =>
      ActionContract.new .reprobeThenRetry
        |>.requireKind filesystem .btrfsFilesystem
        |>.write (.node filesystem)
        |>.insertNodeWithDependency plannedNodeId ⟨.btrfsSubvolume name readOnly false, none⟩
            ⟨filesystem, plannedNodeId, .provides⟩
        |>.invalidate filesystem .topology

/-- The key by which a mount contract sorts its resource locks: no node first, then by UUID. -/
def ResourceAccess.sortKey (access : ResourceAccess) : Option Nat :=
  match access.resource with
  | .node id => some id.asUuid.toNat
  | _ => none

/-- `Option`'s order: `None` before every `Some`. -/
def ResourceAccess.sortLe (left right : ResourceAccess) : Prop :=
  match left.sortKey, right.sortKey with
  | none, _ => True
  | some _, none => False
  | some a, some b => a ≤ b

instance : DecidableRel ResourceAccess.sortLe := fun left right => by
  unfold ResourceAccess.sortLe
  cases left.sortKey <;> cases right.sortKey <;> infer_instance

/-- The prerequisites and read locks of a mount's graph-backed source. -/
def requireMountSource (result : ActionContract) (graph : NodeGraph) (source : MountSource) :
    ActionContract :=
  match source.node with
  | none => result
  | some node =>
      let result := result
        |>.require [.nodeExists node, .mountSourceAvailable source]
        |>.read (.node node)
      let result := (graph.ancestors node).foldl
        (fun result ancestor => result.read (.node ancestor)) result
      { result with
        affectedResources := result.affectedResources.insertionSort ResourceAccess.sortLe }

/-- Describes mount actions. -/
def describeMount (graph : NodeGraph) : MountAction → ActionContract
  | .mount source target options context =>
      let result := ActionContract.new .idempotent
        |>.write .runtimeMountState
        |>.require [.mountDescendantsAbsent target context]
      requireMountSource result graph source
        |>.require [.mountTargetAvailable target context]
        |>.write (.mountTarget target context)
        |>.changeMounts (.addRuntime source target options context)
        |>.invalidateMount target context
        |>.establish [.runtimeMountPresent source target context]
  | .unmount target context =>
      ActionContract.new .idempotent
        |>.write .runtimeMountState
        |>.require [.mountDescendantsAbsent target context]
        |>.write (.mountTarget target context)
        |>.changeMounts (.removeRuntime target context)
        |>.invalidateMount target context
        |>.establish [.runtimeMountAbsent target context]
  | .persist entry =>
      let result := ActionContract.new .reprobeThenRetry
      let result := match entry.source.node with
        | some node => (result.require [.nodeExists node]).read (.node node)
        | none => result
      result
        |>.write (.persistentMountConfig entry.context)
        |>.changeMounts (.setPersistent entry)
        |>.invalidatePersistentMount entry.context
        |>.establish [.persistentMountMatches entry]
  | .removePersistent target context =>
      ActionContract.new .reprobeThenRetry
        |>.write (.persistentMountConfig context)
        |>.changeMounts (.removePersistent target context)
        |>.invalidatePersistentMount context
        |>.establish [.persistentMountAbsent target context]

/-! ### The trusted contract -/

/-- Derives declared outputs directly from the shared predicted effect. -/
def outputsFromEffect (effect : PredictedEffect) : List ActionOutput :=
  (effect.graph.filterMap fun
    | .insertNode id spec => some (.node id spec)
    | _ => none) ++
  effect.mounts.filterMap fun
    | .addRuntime source target _ context => some (.mount source target context)
    | .setPersistent entry => some (.persistentMount entry)
    | .removeRuntime .. | .removePersistent .. => none

/-- The node an output reserves for locking. -/
def ActionOutput.lockedNode : ActionOutput → Option NodeId
  | .node id _ | .blockInterface id _ => some id
  | .mount .. | .persistentMount _ | .filesystemCheckPassed _ => none

/-- Adds planned outputs to the affected-resource set used for locking. -/
def addOutputResources (result : ActionContract) : ActionContract :=
  (result.providedOutputs.filterMap ActionOutput.lockedNode).foldl (fun result node =>
    if ⟨.node node, .write⟩ ∈ result.affectedResources then result
    else result.write (.node node)) result

/-- `matches!(condition, NoUnexpectedConsumers(_))`. -/
def ActionPrerequisite.isNoUnexpectedConsumers : ActionPrerequisite → Bool
  | .noUnexpectedConsumers _ => true
  | _ => false

/-- Dispatches an action to the describer of its technology. -/
def describeTechnology (graph : NodeGraph) : ProviderAction → ActionContract
  | .partition action => describePartition graph action
  | .luks action => describeLuks graph action
  | .lvm action => describeLvm graph action
  | .filesystem action => describeFilesystem graph action
  | .btrfs action => describeBtrfs graph action
  | .mount action => describeMount graph action

/-- Exclusivity checks read the runtime mounts, so they lock them. -/
def readConsumerMounts (result : ActionContract) : ActionContract :=
  if result.prerequisites.any ActionPrerequisite.isNoUnexpectedConsumers &&
      !result.affectedResources.any (·.resource == .runtimeMountState)
  then result.read .runtimeMountState else result

/-- Computes the only trusted semantic contract for a typed action. -/
def describeAction (action : ProviderAction) (graph : NodeGraph) : ActionContract :=
  let result := readConsumerMounts (describeTechnology graph action)
  addOutputResources { result with
    providedOutputs := outputsFromEffect result.predictedEffect ++ result.providedOutputs }

end DisksGraph
