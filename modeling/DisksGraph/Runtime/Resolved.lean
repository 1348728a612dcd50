import DisksGraph.Engine.Execution
import DisksGraph.Engine.Observed
import DisksGraph.Provider.LvmWrite

/-!
# Runtime — Resolved

Operations bound to stable endpoints of one provider publication (`storage-runtime/targets.rs`,
`probe.rs`), and the comparison of the reviewed scope with the observed one.
-/

namespace DisksGraph

/-- Stable identity of a concrete system backend integration. -/
structure BackendId where
  asStr : String
deriving DecidableEq, Repr

/-! ### Probe publications -/

/-- One provider pass, collected directly rather than imported from saved JSON. -/
structure ProbedObservation where
  observation : LiveObservation
  capacity : List CapacityEvidence
  vgMembers : List (NodeId × Nat)

namespace ProbedObservation

/-- The only PV identity of a member node. -/
def pvIdentity (node : Node) : Option ExternalId :=
  match node.size.identities.filter fun id => id.discriminant == (ExternalId.lvmPvUuid "").discriminant
    with
  | [identity] => some identity
  | _ => none

/-- One member edge of the VG: a present PV with a unique UUID, one membership and a physical disk
below it. -/
def checkMember (graph : NodeGraph) (edge : Dependency) : Bool :=
  match graph.node edge.source with
  | none => false
  | some node =>
      if node.size.presence != .present || node.kind.kind != .lvmPv ||
          !node.kind.size.any (· ≠ 0) then false
      else match pvIdentity node with
        | some (.lvmPvUuid uuid) =>
            isTrimmedText uuid &&
              (graph.carriers (.lvmPvUuid uuid)).length == 1 &&
              graph.dependencies.countP (fun other =>
                other.source == edge.source && other.kind == .memberOf .lvmPv) == 1 &&
              (graph.ancestors edge.source).any fun id =>
                (graph.kindOf id).any NodeKind.isPhysicalDisk
        | _ => false

/-- Requires a complete UUID-qualified PV membership consistent with same-pass VG measurements. -/
def checkVgMembership (probed : ProbedObservation) (vg : NodeId) : LiveCheckStatus :=
  let unknown : LiveCheckStatus := .unknown
    "complete, present PV membership and physical backing consistent with the measured VG count"
  let graph := probed.observation.snapshot.graph
  let members := graph.dependencies.filter fun edge =>
    edge.target == vg && edge.kind == .memberOf .lvmPv
  if !probed.capacity.any fun item => item.domain == .lvmVolumeGroup vg then unknown
  else match probed.vgMembers.filter fun entry => entry.1 == vg with
    | [(_, expected)] =>
        if expected = 0 || members.length ≠ expected then unknown
        else if members.all (checkMember graph) then .satisfied else unknown
    | _ => unknown

end ProbedObservation

/-! ### Resolved operations -/

/-- A stable VG UUID and its currently observed native name. -/
structure ResolvedTarget where
  plannedId : NodeId
  observedId : NodeId
  vgUuid : String
  vgName : String
deriving DecidableEq

/-- UUID-qualified LV endpoint from a verified output and this exact provider publication. -/
structure ResolvedLvTarget where
  plannedId : NodeId
  observedId : NodeId
  lvUuid : String
  lvName : String
  size : Bytes
  block : Option BlockFacts
deriving DecidableEq

/-- Ext4 identity correlated from this run's verified output. -/
structure ResolvedFilesystemTarget where
  plannedId : NodeId
  observedId : NodeId
  uuid : String
deriving DecidableEq

/-- An operation bound to one run, action, probe publication, and concrete backend. -/
structure ResolvedAction where
  runId : Uuid
  actionId : ActionId
  operation : ProviderAction
  backend : BackendId
  observation : ObservationReference
  target : ResolvedTarget
  lvTarget : Option ResolvedLvTarget
  filesystemTarget : Option ResolvedFilesystemTarget
deriving DecidableEq

/-- Stable identity observed before dispatch; paths and device numbers are insufficient. -/
structure TargetFingerprint where
  plannedId : NodeId
  externalIds : List ExternalId
deriving DecidableEq

/-- The minimal non-secret pre-dispatch fingerprint for the checkpoint. -/
def ResolvedAction.fingerprints (action : ResolvedAction) : List TargetFingerprint :=
  [⟨action.target.plannedId, [.lvmVgUuid action.target.vgUuid]⟩] ++
    (action.lvTarget.toList.map fun lv => ⟨lv.plannedId, [.lvmLvUuid lv.lvUuid]⟩) ++
    (action.filesystemTarget.toList.map fun fs => ⟨fs.plannedId, [.filesystem "ext4" fs.uuid]⟩)

/-- Resolution failures never fall back to a display name, path, or reused transient identity. -/
inductive TargetError where
  | observation (error : ObservationError)
  | correlation (error : CorrelationError)
  | run (error : ExecutionRunError)
  | unsupportedAction
  | filesystemEndpoint
  | unverifiedOutput
  | nativeRequest (error : LvmWriteError)
  | scopeChanged
  | nameConflict
  | json
deriving DecidableEq

/-! ### Scope -/

/-- Extends the selection over one undirected edge. -/
def selectAcross (selected : List NodeId) (edge : NodeId × NodeId) : List NodeId :=
  let selected :=
    if edge.1 ∈ selected && edge.2 ∉ selected then selected ++ [edge.2] else selected
  if edge.2 ∈ selected && edge.1 ∉ selected then selected ++ [edge.1] else selected

/-- Repeats the passes over the edges until one adds nothing.  Each pass but the last adds an
endpoint, so `fuel` is more than enough when it exceeds twice the number of edges. -/
def connectedComponent (edges : List (NodeId × NodeId)) : Nat → List NodeId → List NodeId
  | 0, selected => selected
  | fuel + 1, selected =>
      let next := edges.foldl selectAcross selected
      if next.length = selected.length then selected else connectedComponent edges fuel next

/-- Every edge of a graph without its kind, dependencies first. -/
def NodeGraph.undirectedEdges (graph : NodeGraph) : List (NodeId × NodeId) :=
  graph.dependencies.map (fun edge => (edge.source, edge.target)) ++
    graph.relations.map fun edge => (edge.source, edge.target)

/-- A block device of the scope keeps its geometry and stays writable. -/
def sameBlockDevice (original current : Node) : Bool :=
  match original.kind.kind with
  | .disk | .nvmeNamespace _ | .partition .. =>
      match original.size.block, current.size.block with
      | some before, some after =>
          original.kind.size.any (· ≠ 0) && before.geometry.isSome &&
            after.geometry == before.geometry && after.readOnly == some false
      | _, _ => false
  | _ => true

/-- One correlated pair keeps its specification and its block device. -/
def sameNode (baseline current : NodeGraph) (pair : NodeCorrelation) : Bool :=
  match baseline.node pair.source, current.node pair.target with
  | some original, some actual => original.kind == actual.kind && sameBlockDevice original actual
  | _, _ => false

/-- The correlated identity of a node; the source indexes the map without a check. -/
def renamed (ids : List NodeCorrelation) (id : NodeId) : Option NodeId :=
  (ids.find? fun pair => pair.source == id).map (·.target)

/-- The edges of the baseline component under the correlation are those that touch it now. -/
def sameEdges {α : Type} [DecidableEq α] (ids : List NodeCorrelation)
    (ends : α → NodeId × NodeId) (withEnds : α → NodeId → NodeId → α) (before after : List α) :
    Option Bool :=
  let kept := before.filter fun edge =>
    (renamed ids (ends edge).1).isSome || (renamed ids (ends edge).2).isSome
  let actual := after.filter fun edge =>
    ids.any fun pair => pair.target == (ends edge).1 || pair.target == (ends edge).2
  let rename (edge : α) : Option α := do
    let source ← renamed ids (ends edge).1
    let target ← renamed ids (ends edge).2
    return withEnds edge source target
  (kept.mapM rename).map fun expected =>
    expected.length == actual.length && expected.all (· ∈ actual)

/-- Two mounts of a list occupy one target. -/
def hasRepeatedTarget (mounts : List ObservedMount) : Bool :=
  mounts.zipIdx.any fun entry =>
    (mounts.take entry.2).any fun other =>
      other.target == entry.1.target && other.context == entry.1.context

/-- A reviewed mount with its source correlated and its options sorted. -/
def correlateMount (baseline current : CurrentState) (mount : ObservedMount) :
    Except TargetError ObservedMount :=
  let sorted := { mount with options := mount.options.insertionSort (· ≤ ·) }
  let withSource (id : NodeId) (source : NodeId → MountSource) : Except TargetError ObservedMount :=
    match correlateNodes baseline current [id] with
    | .error error => .error (.correlation error)
    | .ok [] => .error .scopeChanged
    | .ok (first :: _) => .ok { sorted with source := source first.target }
  match mount.source with
  | .filesystem id => withSource id .filesystem
  | .btrfsSubvolume id => withSource id .btrfsSubvolume
  | .zfsDataset id => withSource id .zfsDataset
  | _ => .ok sorted

/-- The reviewed mounts are the observed ones, up to order.  The source compares sorted JSON texts,
and a mount with a path that is not UTF-8 has none. -/
def checkMounts (baseline current : CurrentState) : Except TargetError Unit := do
  if hasRepeatedTarget baseline.mounts || hasRepeatedTarget current.mounts then .error .scopeChanged
  else do
    let expected ← baseline.mounts.mapM (correlateMount baseline current)
    let actual := current.mounts.map fun mount =>
      { mount with options := mount.options.insertionSort (· ≤ ·) }
    if !(expected ++ actual).all (·.isUtf8) then .error .json
    else if expected.isPerm actual then .ok () else .error .scopeChanged

/-- Conservatively compares the whole connected component, including existing LV consumers.  `none`
is the panic of a correlation map without one of the endpoints. -/
def Targets.checkScope (baseline current : CurrentState) (source : NodeId) :
    Support.Returns TargetError Unit :=
  let edges := baseline.graph.undirectedEdges
  let selected := connectedComponent edges (2 * edges.length + 1) [source]
  match correlateNodes baseline current selected with
  | .error error => throw (.correlation error)
  | .ok ids =>
      if !ids.all (sameNode baseline.graph current.graph) then throw .scopeChanged
      else
        match sameEdges ids (fun edge => (edge.source, edge.target))
            (fun edge source target => { edge with source, target })
            baseline.graph.dependencies current.graph.dependencies,
          sameEdges ids (fun edge => (edge.source, edge.target))
            (fun edge source target => { edge with source, target })
            baseline.graph.relations current.graph.relations with
        | some true, some true => Support.Returns.lift (checkMounts baseline current)
        | some false, _ | some true, some false => throw .scopeChanged
        | _, _ => Support.Returns.never

end DisksGraph
