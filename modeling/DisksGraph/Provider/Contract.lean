import DisksGraph.Provider.Action

/-!
# Provider — Contract

The data of a trusted action contract (`contract.rs`): what an action requires, provides, touches,
changes, invalidates and has to establish.  `Describe` computes the contract of an action.

The last section has the fragments in which a provider proposes its actions (`planning.rs`).
-/

namespace DisksGraph

/-- Coarse node-kind requirement used by provider contracts. -/
inductive NodeKindClass where
  | block
  | partitionTable
  | partition
  | luksContainer
  | dmCryptMapping
  | lvmPv
  | lvmVg
  | lvmLv
  | filesystem
  | btrfsFilesystem
deriving DecidableEq, Repr

/-- Provider-owned domain whose free capacity is tracked during planning. -/
inductive AllocationDomain where
  | lvmVolumeGroup (vg : NodeId)
deriving DecidableEq, Repr

/-- Count of allocation units within one domain (`u64`). -/
abbrev AllocationQuantity : Type := Nat

/-- Condition that must be freshly enforced before dispatch. -/
inductive ActionPrerequisite where
  | nodeExists (node : NodeId)
  | nodeKind (node : NodeId) (expected : NodeKindClass)
  | noUnexpectedConsumers (node : NodeId)
  | noUnexpectedRelations (node : NodeId)
  | writable (node : NodeId)
  | mountSourceAvailable (source : MountSource)
  | filesystemUnmounted (filesystem : NodeId)
  | filesystemCheckPassed (filesystem : NodeId)
  | filesystemMinimumSize (filesystem : NodeId) (target : Bytes)
  | destructiveApproval (node : NodeId)
  | credentialAvailable (credential : CredentialRef)
  | extentAvailable (table : NodeId) (offset size : Bytes)
  | distinctNodes (nodes : List NodeId)
  | dependentsFitWithin (node : NodeId) (size : Bytes)
  | backingSizeAtLeast (node : NodeId) (size : Bytes)
  | capacityAvailable (domain : AllocationDomain) (amount : Option AllocationQuantity)
  | mountTargetAvailable (target : PathBuf) (context : MountContext)
  | mountDescendantsAbsent (target : PathBuf) (context : MountContext)
deriving DecidableEq, Repr

/-- Access mode guaranteed by a projected runtime block interface. -/
inductive BlockInterfaceAccess where
  | readOnly
  | readWrite
deriving DecidableEq, Repr

/-- Output made available by successful action verification. -/
inductive ActionOutput where
  | node (id : NodeId) (spec : NodeSpec)
  | blockInterface (node : NodeId) (access : BlockInterfaceAccess)
  | mount (source : MountSource) (target : PathBuf) (context : MountContext)
  | persistentMount (entry : MountEntry)
  | filesystemCheckPassed (filesystem : NodeId)
deriving DecidableEq

/-- Resource identity relevant to plan ordering and locking. -/
inductive ActionResource where
  | runtimeMountState
  | node (id : NodeId)
  | partitionTable (id : NodeId)
  | lvmMetadata (id : NodeId)
  | mountTarget (target : PathBuf) (context : MountContext)
  | persistentMountConfig (context : MountContext)
deriving DecidableEq, Repr

/-- Whether a resource is changed. -/
inductive ResourceAccessMode where
  | read
  | write
deriving DecidableEq, Repr

/-- One resource touched by an action. -/
structure ResourceAccess where
  resource : ActionResource
  mode : ResourceAccessMode
deriving DecidableEq, Repr

/-- One predicted change to planning-only resource accounting. -/
inductive AllocationEffect where
  | invalidate (domain : AllocationDomain)
  | reserve (domain : AllocationDomain) (amount : AllocationQuantity)
  | release (domain : AllocationDomain) (amount : AllocationQuantity)
deriving DecidableEq, Repr

/-- One predicted canonical-graph change. -/
inductive GraphEffect where
  | invalidateNodeSize (node : NodeId)
  | insertNode (id : NodeId) (spec : NodeSpec)
  | removeNode (node : NodeId)
  | setNodeSize (node : NodeId) (size : Bytes)
  | setPartitionAttributes (partition : NodeId) (attributes : PartitionAttributes)
  | setFilesystemLabel (filesystem : NodeId) (label : Option String)
  | setBtrfsAllocation (filesystem : NodeId) (allocation : BtrfsAllocation)
  | insertDependency (dependency : Dependency)
  | removeDependency (dependency : Dependency)
  | insertRelation (relation : Relation)
  | removeRelation (relation : Relation)
  | setActivation (node : NodeId) (active : Bool)
deriving DecidableEq

/-- One predicted runtime or persistent mount change. -/
inductive MountEffect where
  | addRuntime (source : MountSource) (target : PathBuf) (options : List String)
      (context : MountContext)
  | removeRuntime (target : PathBuf) (context : MountContext)
  | setPersistent (entry : MountEntry)
  | removePersistent (target : PathBuf) (context : MountContext)
deriving DecidableEq, Repr

/-- Model and configuration changes predicted from an action. -/
structure PredictedEffect where
  graph : List GraphEffect := []
  mounts : List MountEffect := []
  allocations : List AllocationEffect := []
deriving DecidableEq

/-- Scope whose observed facts become stale. -/
inductive FactScope where
  | node (id : NodeId)
  | mountTarget (target : PathBuf) (context : MountContext)
  | persistentMountConfig (context : MountContext)
deriving DecidableEq, Repr

/-- Category of evidence that must be reprobed. -/
inductive FactKind where
  | presence
  | geometry
  | identity
  | topology
  | content
  | activation
  | mount
deriving DecidableEq, Repr

/-- Observation invalidated by dispatching an action. -/
structure FactInvalidation where
  scope : FactScope
  kind : FactKind
deriving DecidableEq, Repr

/-- Evidence that must be observed after backend completion. -/
inductive Postcondition where
  | filesystemCheckPassed (filesystem : NodeId)
  | nodeMatches (id : NodeId) (spec : NodeSpec)
  | nodeAbsent (node : NodeId)
  | nodeSize (node : NodeId) (size : Bytes)
  | partitionAttributes (partition : NodeId) (attributes : PartitionAttributes)
  | filesystemLabel (filesystem : NodeId) (label : Option String)
  | btrfsAllocation (filesystem : NodeId) (allocation : BtrfsAllocation)
  | dependencyPresent (dependency : Dependency)
  | dependencyAbsent (dependency : Dependency)
  | activation (node : NodeId) (active : Bool)
  | runtimeMountPresent (source : MountSource) (target : PathBuf) (context : MountContext)
  | runtimeMountAbsent (target : PathBuf) (context : MountContext)
  | persistentMountMatches (entry : MountEntry)
  | persistentMountAbsent (target : PathBuf) (context : MountContext)
  | nodeReprobed (node : NodeId)
deriving DecidableEq

/-- Recovery permitted after interruption or an unknown backend result. -/
inductive RestartPolicy where
  | idempotent
  | reprobeThenRetry
  | verifyThenRetry
  | manualRecovery
deriving DecidableEq, Repr

/-- Complete semantic contract derived from one typed action. -/
structure ActionContract where
  prerequisites : List ActionPrerequisite := []
  providedOutputs : List ActionOutput := []
  affectedResources : List ResourceAccess := []
  predictedEffect : PredictedEffect := {}
  invalidatedFacts : List FactInvalidation := []
  postconditions : List Postcondition := []
  restartPolicy : RestartPolicy
deriving DecidableEq

/-! ### Building a contract

The source mutates a contract under construction; each `push` is one of these updates. -/

namespace ActionContract

/-- `contract(restart_policy)`: an empty contract with a selected recovery policy. -/
def new (restartPolicy : RestartPolicy) : ActionContract := { restartPolicy }

/-- Adds prerequisites. -/
def require (result : ActionContract) (conditions : List ActionPrerequisite) : ActionContract :=
  { result with prerequisites := result.prerequisites ++ conditions }

/-- `require_kind`: adds node-kind prerequisites. -/
def requireKind (result : ActionContract) (node : NodeId) (expected : NodeKindClass) :
    ActionContract :=
  result.require [.nodeExists node, .nodeKind node expected]

/-- Adds an access to a resource. -/
def access (result : ActionContract) (resource : ActionResource) (mode : ResourceAccessMode) :
    ActionContract :=
  { result with affectedResources := result.affectedResources ++ [⟨resource, mode⟩] }

/-- Adds a read access. -/
def read (result : ActionContract) (resource : ActionResource) : ActionContract :=
  result.access resource .read

/-- Adds a write access. -/
def write (result : ActionContract) (resource : ActionResource) : ActionContract :=
  result.access resource .write

/-- Adds a fact that no longer holds afterwards. -/
def invalidateScope (result : ActionContract) (scope : FactScope) (kind : FactKind) :
    ActionContract :=
  { result with invalidatedFacts := result.invalidatedFacts ++ [⟨scope, kind⟩] }

/-- `invalidate`: one category of node evidence. -/
def invalidate (result : ActionContract) (node : NodeId) (kind : FactKind) : ActionContract :=
  result.invalidateScope (.node node) kind

/-- `invalidate_mount`. -/
def invalidateMount (result : ActionContract) (target : PathBuf) (context : MountContext) :
    ActionContract :=
  result.invalidateScope (.mountTarget target context) .mount

/-- `invalidate_persistent_mount`. -/
def invalidatePersistentMount (result : ActionContract) (context : MountContext) :
    ActionContract :=
  result.invalidateScope (.persistentMountConfig context) .mount

/-- Adds an output. -/
def provide (result : ActionContract) (output : ActionOutput) : ActionContract :=
  { result with providedOutputs := result.providedOutputs ++ [output] }

/-- Adds effects on the graph. -/
def changeGraph (result : ActionContract) (effects : List GraphEffect) : ActionContract :=
  { result with
    predictedEffect :=
      { result.predictedEffect with graph := result.predictedEffect.graph ++ effects } }

/-- Adds an effect on the mounts. -/
def changeMounts (result : ActionContract) (effect : MountEffect) : ActionContract :=
  { result with
    predictedEffect :=
      { result.predictedEffect with mounts := result.predictedEffect.mounts ++ [effect] } }

/-- Adds an effect on a domain's free space. -/
def changeAllocation (result : ActionContract) (effect : AllocationEffect) : ActionContract :=
  { result with
    predictedEffect :=
      { result.predictedEffect with
        allocations := result.predictedEffect.allocations ++ [effect] } }

/-- Adds postconditions. -/
def establish (result : ActionContract) (conditions : List Postcondition) : ActionContract :=
  { result with postconditions := result.postconditions ++ conditions }

/-- `insert_node_with_dependency`: one predictable node and its backing/membership edge. -/
def insertNodeWithDependency (result : ActionContract) (id : NodeId) (spec : NodeSpec)
    (dependency : Dependency) : ActionContract :=
  result
    |>.changeGraph [.insertNode id spec, .insertDependency dependency]
    |>.establish [.nodeMatches id spec, .dependencyPresent dependency]

/-- `add_dependency`: one dependency effect and matching postcondition. -/
def addDependency (result : ActionContract) (dependency : Dependency) : ActionContract :=
  result
    |>.changeGraph [.insertDependency dependency]
    |>.establish [.dependencyPresent dependency]

end ActionContract

/-! ### Plan fragments -/

/-- Action identity scoped to one plan fragment (`u32`). -/
structure LocalActionId where
  get : Nat
deriving DecidableEq, Repr

/-- An action of a fragment under its local number. -/
structure FragmentAction where
  id : LocalActionId
  operation : ProviderAction
deriving DecidableEq

/-- Stable categories explaining an action dependency. -/
inductive DependencyReason where
  | inputCreation
  | interfacePreparation
  | resizeSafety
  | mountOrder
  | resourceCoordination
  | requestedOrder
deriving DecidableEq, Repr

/-- An ordering inside a fragment, and why it is there. -/
structure FragmentDependency where
  before : LocalActionId
  after : LocalActionId
  reason : DependencyReason
deriving DecidableEq, Repr

/-- Prerequisite owned by one local action but supplied outside its fragment. -/
structure ExternalRequirement where
  action : LocalActionId
  prerequisite : ActionPrerequisite
deriving DecidableEq, Repr

/-- User request from which a provider fragment was derived. -/
inductive FragmentOrigin where
  | change (subject : NodeId) (description : String)
  | mount (target : PathBuf) (context : MountContext)
  | intent (index : Nat)
deriving DecidableEq, Repr

/-- Provider proposal for one concrete change in a larger execution plan. -/
structure PlanFragment where
  actions : List FragmentAction
  dependencies : List FragmentDependency
  externalRequirements : List ExternalRequirement
  origin : FragmentOrigin
  diagnostics : List Diagnostic
deriving DecidableEq

end DisksGraph
