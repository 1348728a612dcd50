import DisksGraph.Model.State

/-!
# Provider — Action

The closed set of typed provider operations (`action.rs`, `luks.rs`).
-/

namespace DisksGraph

/-- Opaque identity of credential material held outside serializable plans. -/
structure CredentialRef where
  asUuid : Uuid
deriving DecidableEq, Repr

/-- Changes to a partition table. -/
inductive PartitionAction where
  | createTable (disk plannedNodeId : NodeId) (table : PartitionTable)
  | create (table plannedNodeId : NodeId) (number : NonZero 32) (offset size : Bytes)
      (role : Option UsageRole) (attributes : PartitionAttributes)
  | resize (partition : NodeId) (newSize : Bytes)
  | delete (partition : NodeId)
  | setAttributes (partition : NodeId) (attributes : PartitionAttributes)
deriving DecidableEq

/-- Changes to an encrypted container. -/
inductive LuksAction where
  | format (target plannedNodeId : NodeId) (version : LuksVersion) (credential : CredentialRef)
  | «open» (container plannedNodeId : NodeId) (mappingName : String) (credential : CredentialRef)
      (readOnly : Bool)
  | close (mapping : NodeId)
  | resize (mapping : NodeId) (newSize : Option Bytes)
deriving DecidableEq

/-- Changes to LVM objects. -/
inductive LvmAction where
  | createPv (backing plannedNodeId : NodeId)
  | createVg (plannedNodeId : NodeId) (name : String) (pvs : List NodeId)
  | createLv (vg plannedNodeId : NodeId) (name : String) (size : Bytes) (layout : LvmLvKind)
  | resizeLv (lv : NodeId) (newSize : Bytes)
  | removeLv (lv : NodeId)
  | setActivation (target : NodeId) (active : Bool)
deriving DecidableEq

/-- Changes to a filesystem on one device. -/
inductive FilesystemAction where
  | create (backing plannedNodeId : NodeId) (filesystem : FilesystemKind) (label : Option String)
  | resize (filesystem : NodeId) (newSize : Bytes)
  | check (filesystem : NodeId) (force : Bool)
  | repair (filesystem : NodeId) (force : Bool)
  | setLabel (filesystem : NodeId) (label : Option String)
deriving DecidableEq

/-- Changes to a Btrfs filesystem. -/
inductive BtrfsAction where
  | create (members : List NodeId) (plannedNodeId : NodeId) (label : Option String)
      (allocation : BtrfsAllocation)
  | addDevice (filesystem device : NodeId)
  | removeDevice (filesystem device : NodeId)
  | convertProfiles (filesystem : NodeId) (target : BtrfsAllocation)
  | createSubvolume (filesystem plannedNodeId : NodeId) (name : String) (readOnly : Bool)
deriving DecidableEq

/-- Changes to what is mounted, and to what is configured to be. -/
inductive MountAction where
  | mount (source : MountSource) (target : PathBuf) (options : List String)
      (context : MountContext)
  | unmount (target : PathBuf) (context : MountContext)
  | persist (entry : MountEntry)
  | removePersistent (target : PathBuf) (context : MountContext)
deriving DecidableEq

/-- Typed operation dispatched by its logical technology provider. -/
inductive ProviderAction where
  | partition (action : PartitionAction)
  | luks (action : LuksAction)
  | lvm (action : LvmAction)
  | filesystem (action : FilesystemAction)
  | btrfs (action : BtrfsAction)
  | mount (action : MountAction)
deriving DecidableEq

end DisksGraph
