import DisksGraph.Probe.Assemble
import DisksGraph.Support.Iteration

/-!
# Probe — Content

The last passes of a probe: Btrfs filesystems over several devices, the sources of mounts, and the
subvolumes of mounted filesystems (`linux.rs`).

These passes search the hash tables of the graph and take the first entry that matches.  `HashOrder`
is the order in which one run of the process meets the entries of its tables.
-/

namespace DisksGraph

open Support (Iteration)

/-- The iteration orders of a graph's tables, in one run of the process. -/
structure HashOrder where
  nodes : Iteration (NodeId × Node)
  dependencies : Iteration Dependency

/-- Whether the kind is a Btrfs filesystem. -/
def NodeKind.isBtrfs : NodeKind → Bool
  | .filesystem (.btrfs _) _ => true
  | _ => false

/-- One of the node's block paths. -/
def Node.onPath (node : Node) (path : PathBuf) : Bool :=
  node.size.block.any fun block => block.paths.contains path

/-- The first node that is met on a block path. -/
def NodeGraph.nodeAt (order : HashOrder) (graph : NodeGraph) (path : PathBuf) : Option NodeId :=
  order.nodes.findMap (fun entry => if entry.2.onPath path then some entry.1 else none)
    graph.nodeList

/-! ### Btrfs filesystems -/

namespace BtrfsFilesystemEntry

/-- What an edge says about the node of the filesystem: Btrfs content on one of its devices. -/
def contentOf (graph : NodeGraph) (filesystem : BtrfsFilesystemEntry) (dependency : Dependency) :
    Option NodeId :=
  if dependency.kind ≠ .backs then none
  else do
    let backing ← graph.node dependency.source
    let isMember := filesystem.devices.any fun device =>
      backing.onPath (PathBuf.ofString device.path)
    let content ← graph.node dependency.target
    if isMember && content.kind.kind.isBtrfs then some dependency.target else none

/-- The content node that one of the devices backs, or that of the seed device. -/
def nodeId (order : HashOrder) (graph : NodeGraph) (filesystem : BtrfsFilesystemEntry) : NodeId :=
  (order.dependencies.findMap (filesystem.contentOf graph) graph.dependencies).getD
    (contentNodeId filesystem.seedDevice)

/-- The node with the label and the identity of the filesystem. -/
def describe (filesystem : BtrfsFilesystemEntry) (node : Node) : Node where
  kind := { node.kind with
    kind := match node.kind.kind with
      | .filesystem kind _ => .filesystem kind filesystem.label
      | kind => kind }
  size := { node.size with
    identities := match Uuid.parseStr filesystem.uuid with
      | none => node.size.identities
      | some uuid => withIdentity node.size.identities (.btrfsFsid uuid) }

end BtrfsFilesystemEntry

/-- The membership of one device, when a node is on its path. -/
def insertBtrfsMember (order : HashOrder) (filesystem : NodeId) (graph : NodeGraph)
    (device : BtrfsDeviceEntry) : NodeGraph :=
  match graph.nodeAt order (PathBuf.ofString device.path) with
  | none => graph
  | some member =>
      graph.insertDependency
        ⟨member, filesystem, .memberOf (.btrfs ⟨NonZero.new 64 device.id⟩)⟩

/-- The label and the identity, when the node is there. -/
def nameFilesystem (graph : NodeGraph) (id : NodeId) (filesystem : BtrfsFilesystemEntry) :
    NodeGraph :=
  match graph.node id with
  | none => graph
  | some node => graph.upsertObservation id (filesystem.describe node)

/-- Names the filesystem and joins its devices to it. -/
def enrichBtrfsFilesystem (order : HashOrder) (graph : NodeGraph)
    (filesystem : BtrfsFilesystemEntry) : NodeGraph :=
  let id := filesystem.nodeId order graph
  filesystem.devices.foldl (insertBtrfsMember order id) (nameFilesystem graph id filesystem)

/-- Adds Btrfs filesystem identity and multi-device membership. -/
def enrichBtrfsFilesystems (order : HashOrder) (graph : NodeGraph)
    (filesystems : List BtrfsFilesystemEntry) : NodeGraph :=
  filesystems.foldl (enrichBtrfsFilesystem order) graph

/-! ### Mounts -/

/-- The content a block node backs. -/
def backedContent (block : NodeId) (dependency : Dependency) : Option NodeId :=
  if dependency.source == block && dependency.kind == .backs then some dependency.target else none

/-- Resolves a mount path through block aliases before creating a content ID. -/
def mountFilesystemSource (order : HashOrder) (source : String) (graph : NodeGraph) : MountSource :=
  let direct := contentNodeId source
  if graph.contains direct then .filesystem direct
  else match graph.nodeAt order (PathBuf.ofString source) with
    | none => .filesystem direct
    | some block =>
        .filesystem ((order.dependencies.findMap
          (backedContent block) graph.dependencies).getD direct)

/-- Converts one native libmount record into the canonical mount model, over a graph. -/
def HashOrder.observedMount (order : HashOrder) (entry : LibmountEntry) (graph : NodeGraph) :
    ObservedMount where
  source :=
    if entry.source.startsWith "/dev/" then mountFilesystemSource order entry.source graph
    else externalMountSource entry.source entry.filesystemType
  target := PathBuf.ofString entry.target
  options := entry.options
  context := .host

/-- A mount of a filesystem that the graph does not hold. -/
def unresolvedSource (entry : LibmountEntry) : Diagnostic where
  code := "mount.unresolved_source"
  severity := .error
  subjects := [.environment]
  message := "native mount source is absent from the observed storage graph"
  evidence := some ("source=" ++ entry.source ++ "; target=" ++ entry.target)
  suggestedRemedy := some
    "inspect device visibility and filesystem probe diagnostics in this namespace"

/-- One mount, and what there is to say about it. -/
def collectSystemMount (order : HashOrder) (graph : NodeGraph) (entry : LibmountEntry) :
    ObservedMount × Option Diagnostic :=
  let mount := order.observedMount entry graph
  match mount.source with
  | .filesystem id =>
      if graph.contains id then (mount, none)
      else ({ mount with source := .other entry.source }, some (unresolvedSource entry))
  | _ => (mount, none)

/-- Keeps unresolved native mount paths as evidence, without inventing graph nodes or coverage. -/
def collectSystemMounts (order : HashOrder) (state : ProviderState) (entries : List LibmountEntry) :
    ProviderState :=
  let mounts := entries.map (collectSystemMount order state.graph)
  { state with
    mounts := mounts.map (·.1)
    diagnostics := state.diagnostics ++ mounts.filterMap (·.2) }

/-! ### Subvolumes -/

/-- The filesystem that is mounted at a path. -/
def mountedFilesystem (mounts : List ObservedMount) (mountpoint : PathBuf) : Option NodeId :=
  mounts.findSome? fun mount =>
    if mount.target == mountpoint then
      match mount.source with
      | .filesystem id => some id
      | _ => none
    else none

/-- A subvolume is known by its filesystem and its number. -/
def BtrfsSubvolumeEntry.nodeId (filesystem : NodeId) (subvolume : BtrfsSubvolumeEntry) : NodeId :=
  stableNodeId "btrfs-subvolume" (Uuid.display filesystem.asUuid ++ ":" ++ toString subvolume.id)

/-- Records a subvolume under its filesystem. -/
def insertSubvolume (filesystem : NodeId) (graph : NodeGraph) (subvolume : BtrfsSubvolumeEntry) :
    NodeGraph :=
  (graph.upsertObservation (subvolume.nodeId filesystem)
    ⟨⟨.btrfsSubvolume subvolume.path subvolume.readOnly subvolume.isDefault, none⟩,
      { presence := .present }⟩).insertDependency
    ⟨filesystem, subvolume.nodeId filesystem, .provides⟩

/-- Adds Btrfs subvolumes below their mounted filesystem nodes. -/
def enrichBtrfs (graph : NodeGraph) (mounts : List ObservedMount) (filesystems : List BtrfsEntry) :
    NodeGraph :=
  filesystems.foldl (fun graph filesystem =>
    match mountedFilesystem mounts (PathBuf.ofString filesystem.mountpoint) with
    | none => graph
    | some id => filesystem.subvolumes.foldl (insertSubvolume id) graph) graph

/-- The three passes, in the order of a probe. -/
def enrichContent (order : HashOrder) (state : ProviderState)
    (filesystems : List BtrfsFilesystemEntry) (entries : List LibmountEntry)
    (btrfs : List BtrfsEntry) : ProviderState :=
  let state := { state with graph := enrichBtrfsFilesystems order state.graph filesystems }
  let state := collectSystemMounts order state entries
  { state with graph := enrichBtrfs state.graph state.mounts btrfs }

end DisksGraph
