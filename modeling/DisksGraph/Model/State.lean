import DisksGraph.Model.Graph

/-!
# Model — State

Observed and requested storage configuration (`model/state.rs`): mounts, diagnostics, boot and
explicit operation intents around a `NodeGraph`.
-/

namespace DisksGraph

/-! ### Mounts -/

/-- A share mounted over the network. -/
inductive NetworkMountSource where
  | nfs (server «export» : String)
  | cifs (server share : String)
deriving DecidableEq, Repr

/-- Source of an observed or requested mount. -/
inductive MountSource where
  | filesystem (node : NodeId)
  | btrfsSubvolume (node : NodeId)
  | zfsDataset (node : NodeId)
  | bind (path : PathBuf)
  | tmpfs
  | network (source : NetworkMountSource)
  | other (description : String)
deriving DecidableEq, Repr

/-- Filesystem namespace used to interpret a mount target. -/
inductive MountContext where
  | host
  | targetRoot (root : PathBuf)
  | namespaced (name : String)
deriving DecidableEq, Repr

/-- Mount configuration shared by runtime goals and persistent configuration. -/
structure MountEntry where
  source : MountSource
  target : PathBuf
  options : List String
  context : MountContext
deriving DecidableEq, Repr

/-- A runtime mount observed in a particular mount context. -/
structure ObservedMount where
  source : MountSource
  target : PathBuf
  options : List String
  context : MountContext
deriving DecidableEq, Repr

/-! ### Paths in JSON

serde writes a path as a string, and fails when a component is not UTF-8. -/

/-- Whether the component is UTF-8. -/
def Component.isUtf8 : Component → Bool
  | .nonUtf8 _ => false
  | _ => true

/-- `Path::to_str` is `Some`. -/
def PathBuf.isUtf8 (path : PathBuf) : Bool := path.components.all (·.isUtf8)

/-- Whether every path of the source is UTF-8. -/
def MountSource.isUtf8 : MountSource → Bool
  | .bind path => path.isUtf8
  | _ => true

/-- Whether every path of the context is UTF-8. -/
def MountContext.isUtf8 : MountContext → Bool
  | .targetRoot root => root.isUtf8
  | _ => true

/-- The mount has a JSON form. -/
def MountEntry.isUtf8 (entry : MountEntry) : Bool :=
  entry.source.isUtf8 && entry.target.isUtf8 && entry.context.isUtf8

@[inherit_doc MountEntry.isUtf8]
def ObservedMount.isUtf8 (mount : ObservedMount) : Bool :=
  mount.source.isUtf8 && mount.target.isUtf8 && mount.context.isUtf8

/-- The mounts a plan asks for, now and across reboots. -/
structure MountSpec where
  runtime : List MountEntry := []
  persistent : List MountEntry := []
deriving DecidableEq, Repr

namespace MountSource

/-- `mount_source_node`: the graph node carried by a typed mount source. -/
def node : MountSource → Option NodeId
  | .filesystem node | .btrfsSubvolume node | .zfsDataset node => some node
  | .bind _ | .tmpfs | .network _ | .other _ => none

/-- `matches!(source, Bind(_) | Other(_))`. -/
def isUnresolved : MountSource → Bool
  | .bind _ | .other _ => true
  | _ => false

/-- A typed source names a node of its own kind. -/
def compatible : MountSource → NodeKind → Bool
  | .filesystem _, .filesystem _ _ => true
  | .btrfsSubvolume _, .btrfsSubvolume _ _ _ => true
  | .zfsDataset _, .zfsDataset _ => true
  | _, _ => false

end MountSource

/-! ### Diagnostics -/

/-- How much a diagnostic stands in the way. -/
inductive DiagnosticSeverity where
  | error
  | warning
  | requiresConfirmation
  | missingInformation
deriving DecidableEq, Repr

/-- What a diagnostic is about. -/
inductive DiagnosticSubject where
  | node (id : NodeId)
  | mount (path : PathBuf)
  | field (name : String)
  | environment
deriving DecidableEq, Repr

/-- A finding with its code, subjects and text. -/
structure Diagnostic where
  code : String
  severity : DiagnosticSeverity
  subjects : List DiagnosticSubject
  message : String
  evidence : Option String := none
  suggestedRemedy : Option String := none
deriving DecidableEq, Repr

/-! ### States -/

/-- Requested boot configuration.  The engine distinguishes only whether boot is managed and by
which firmware, so the parameters of the two managed forms are left out. -/
inductive BootSpec where
  | unmanaged
  | uefi
  | bios
deriving DecidableEq, Repr

/-- Explicit operation that cannot be derived from the requested final state. -/
inductive OperationIntent where
  | reformat (target : NodeId) (filesystem : FilesystemKind)
  | replaceMember (group old new : NodeId)
  | convertBtrfsProfiles (filesystem : NodeId) (target : BtrfsAllocation)
  | check (target : NodeId) (force : Bool)
  | repair (target : NodeId) (force : Bool)
  | setActivation (target : NodeId) (active : Bool)
deriving DecidableEq

/-- Storage-relevant operating-system facts.  A `BTreeSet` of names is a `Finset`. -/
structure SystemEnvironment where
  osRelease : Option String := none
  architecture : Option String := none
  kernelRelease : Option String := none
  tools : Finset String := ∅
  kernelModules : Finset String := ∅
deriving DecidableEq

/-- Installed target-system environment. -/
structure TargetEnvironment where
  root : PathBuf
  system : SystemEnvironment
deriving DecidableEq

/-- Storage-relevant facts about the live host and an optional installed target. -/
structure Environment where
  host : SystemEnvironment := {}
  target : Option TargetEnvironment := none
deriving DecidableEq

/-- Observed storage state assembled by probing. -/
structure CurrentState where
  graph : NodeGraph
  mounts : List ObservedMount
  environment : Environment := {}
  diagnostics : List Diagnostic

/-- Requested or simulated future storage configuration. -/
structure DesiredState where
  graph : NodeGraph
  mounts : MountSpec
  boot : BootSpec
  intents : List OperationIntent

/-- Copies observed configuration without claiming knowledge of persistent mounts or boot. -/
def DesiredState.fromCurrent (current : CurrentState) : DesiredState where
  graph := current.graph
  mounts :=
    { runtime := current.mounts.map fun entry =>
        { source := entry.source, target := entry.target, options := entry.options,
          context := entry.context }
      persistent := [] }
  boot := .unmanaged
  intents := []

end DisksGraph
