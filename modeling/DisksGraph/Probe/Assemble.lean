import DisksGraph.Probe.Records

/-!
# Probe — Assemble

How `linux.rs` joins the native records into one graph: the block layer
(`assembleNativeBlockState`), then device-mapper, MD and LVM, each enriching what the passes
before it left.

Each pass is a fold of one step per record.  A `HashMap` collected from records keeps the last
record of a key, so its lookup searches the records from the end.
-/

namespace DisksGraph

/-- Successful read-only contribution from one provider. -/
structure ProviderState where
  graph : NodeGraph := .empty
  mounts : List ObservedMount := []
  lvmVgs : List LvmVgObservation := []
  environment : Option Environment := none
  diagnostics : List Diagnostic := []

namespace NodeGraph

/-- Creates or enriches one native observation. -/
def upsertObservation (graph : NodeGraph) (id : NodeId) (node : Node) : NodeGraph :=
  let result :=
    if graph.contains id then graph.replaceExisting id node else graph.insertNew id node
  match result with
  | .ok graph => graph
  | .error _ => graph

/-- The `unreachable!` of `upsert_observation` is not reached. -/
@[simp] theorem upsertObservation_eq (graph : NodeGraph) (id : NodeId) (node : Node) :
    graph.upsertObservation id node = graph.setNode id node := by
  cases h : graph.contains id <;> simp [upsertObservation, replaceExisting, insertNew, h]

end NodeGraph

/-! ### The block layer -/

/-- `by_path.get(path)`. -/
def endpointAt (endpoints : List UdevBlockEntry) (path : String) : Option UdevBlockEntry :=
  endpoints.reverse.find? fun endpoint =>
    PathBuf.ofString endpoint.devnode == PathBuf.ofString path

/-- The `HashMap` from device numbers to device nodes. -/
def pathOf (endpoints : List UdevBlockEntry) (devno : DeviceNumber) : Option String :=
  (endpoints.reverse.find? fun endpoint =>
    endpoint.major == devno.major && endpoint.minor == devno.minor).map (·.devnode)

/-- Inserts one endpoint and its udev-backed runtime facts. -/
def insertNativeEndpoint (graph : NodeGraph) (endpoint : UdevBlockEntry) (kind : NodeKind) :
    NodeGraph :=
  graph.upsertObservation (blockNodeId endpoint.devnode)
    ⟨⟨kind, endpoint.sizeSectors.map (saturatingMul · 512)⟩, nativeBlockFacts endpoint⟩

/-- A partition table is known by the device that carries it. -/
def FdiskTable.nodeId (table : FdiskTable) : NodeId :=
  stableNodeId "partition-table-path" table.device

/-- The kind of a table the probe models; other labels are skipped. -/
def FdiskTable.kind (table : FdiskTable) : Option PartitionTable :=
  table.label.bind nativePartitionTable

/-- The first byte of a partition, in the table's own sector size. -/
def FdiskTable.offset (table : FdiskTable) (partition : FdiskPartition) : Bytes :=
  saturatingMul partition.startSectors table.sectorSize

/-- The node of one partition record, over the facts of its endpoint. -/
def partitionNode (endpoints : List UdevBlockEntry) (table : FdiskTable)
    (partition : FdiskPartition) (number : NonZero 32) : Node :=
  let facts := ((endpointAt endpoints (partitionPath table.device partition.number)).map
    nativeBlockFacts).getD {}
  let named := (partition.uuid.bind Uuid.parseStr).map ExternalId.gptPartitionUuid
  { kind :=
      { kind := .partition number (table.offset partition) none
          { gpt := none, bootable := some partition.bootable }
        size := some (saturatingMul partition.sizeSectors table.sectorSize) }
    size :=
      { facts with
        presence := .present
        identities := facts.identities ++ named.toList } }

/-- One partition record of a modelled table. -/
def insertPartition (endpoints : List UdevBlockEntry) (table : FdiskTable) (graph : NodeGraph)
    (partition : FdiskPartition) : NodeGraph :=
  match NonZero.new 32 partition.number with
  | none => graph
  | some number =>
      let id := blockNodeId (partitionPath table.device partition.number)
      (graph.upsertObservation id (partitionNode endpoints table partition number)).insertDependency
        ⟨table.nodeId, id, .contains (table.offset partition)⟩

/-- One fdisk table and its partitions. -/
def insertTable (endpoints : List UdevBlockEntry) (graph : NodeGraph) (table : FdiskTable) :
    NodeGraph :=
  match table.kind with
  | none => graph
  | some kind =>
      let graph := graph.upsertObservation table.nodeId
        ⟨⟨.partitionTable kind, none⟩, { presence := .present }⟩
      let graph := graph.insertDependency ⟨blockNodeId table.device, table.nodeId, .backs⟩
      table.partitions.foldl (insertPartition endpoints table) graph

/-- The paths the endpoint loop and the table loop have given a node. -/
def represented (endpoints : List UdevBlockEntry) (tables : List FdiskTable) : List PathBuf :=
  (endpoints.filter (·.devtype ≠ some "partition")).map (PathBuf.ofString ·.devnode) ++
    (tables.filter (·.kind.isSome)).flatMap fun table =>
      (table.partitions.filter fun partition =>
          (NonZero.new 32 partition.number).isSome).map fun partition =>
        PathBuf.ofString (partitionPath table.device partition.number)

/-- The kind of the content behind a blkid signature. -/
def contentKind (signatureType : String) (label : Option String) : NodeKind :=
  match signatureType with
  | "swap" => .swap
  | "LVM2_member" => .lvmPv
  | "crypto_LUKS" => .unknown "signature:crypto_LUKS"
  | "linux_raid_member" => .unknown "signature:linux_raid_member"
  | other => .filesystem (filesystemKind other) label

/-- The node of the content behind one signature. -/
def contentNode (signature : BlkidEntry) (signatureType : String)
    (endpoint : Option UdevBlockEntry) : Node where
  kind :=
    { kind := contentKind signatureType signature.label
      size := (endpoint.bind (·.sizeSectors)).map (saturatingMul · 512) }
  size :=
    { presence := .present
      identities := (signature.uuid.map (ExternalId.filesystem signatureType)).toList }

/-- Adds content identified by libblkid above its backing endpoint. -/
def addNativeContent (graph : NodeGraph) (signature : BlkidEntry)
    (endpoint : Option UdevBlockEntry) : NodeGraph :=
  match signature.signatureType with
  | none => graph
  | some signatureType =>
      (graph.upsertObservation (contentNodeId signature.device)
          (contentNode signature signatureType endpoint)).insertDependency
        ⟨blockNodeId signature.device, contentNodeId signature.device, .backs⟩

/-- A signature of a device without a node is dropped. -/
def addSignature (endpoints : List UdevBlockEntry) (graph : NodeGraph) (signature : BlkidEntry) :
    NodeGraph :=
  if graph.contains (blockNodeId signature.device) then
    addNativeContent graph signature (endpointAt endpoints signature.device)
  else graph

/-- The endpoints that are not partitions. -/
def insertWholeDevices (endpoints : List UdevBlockEntry) : NodeGraph :=
  (endpoints.filter (·.devtype ≠ some "partition")).foldl
    (fun graph endpoint => insertNativeEndpoint graph endpoint (nativeEndpointKind endpoint))
    NodeGraph.empty

/-- The whole devices, and then every table. -/
def insertTables (endpoints : List UdevBlockEntry) (tables : List FdiskTable) : NodeGraph :=
  tables.foldl (insertTable endpoints) (insertWholeDevices endpoints)

/-- The endpoints no table accounts for. -/
def insertRemaining (endpoints : List UdevBlockEntry) (tables : List FdiskTable) : NodeGraph :=
  (endpoints.filter fun endpoint =>
      PathBuf.ofString endpoint.devnode ∉ represented endpoints tables).foldl
    (fun graph endpoint =>
      insertNativeEndpoint graph endpoint (.unknown "block endpoint without fdisk topology"))
    (insertTables endpoints tables)

/-- Joins complementary native observations into one non-conflicting graph. -/
def assembleNativeBlockState (endpoints : List UdevBlockEntry) (tables : List FdiskTable)
    (signatures : List BlkidEntry) : ProviderState :=
  { graph := signatures.foldl (addSignature endpoints) (insertRemaining endpoints tables) }

/-! ### Device-mapper -/

/-- Where a live mapping is: at its endpoint, else at the kernel's own name. -/
def DevmapperEntry.path (endpoints : List UdevBlockEntry) (entry : DevmapperEntry) : String :=
  (pathOf endpoints entry.devno).getD ("/dev/dm-" ++ toString entry.devno.minor)

/-- `PathBuf::from("/dev/mapper").join(name)`: an absolute name replaces the directory. -/
def DevmapperEntry.mapperAlias (entry : DevmapperEntry) : PathBuf :=
  if (PathBuf.ofString entry.name).isAbsolute then PathBuf.ofString entry.name
  else PathBuf.ofString ("/dev/mapper/" ++ entry.name)

/-- A mapping udev did not report. -/
def unseenMapping (path : String) (entry : DevmapperEntry) : Node where
  kind := ⟨.unknown "device-mapper endpoint", none⟩
  size :=
    { presence := .present
      block := some
        { paths := [PathBuf.ofString path]
          devno := entry.devno
          geometry := none
          readOnly := some entry.readOnly } }

/-- The mapping's own node, over what is known of the endpoint. -/
def mappingNode (endpoints : List UdevBlockEntry) (graph : NodeGraph) (entry : DevmapperEntry) :
    Node :=
  let path := entry.path endpoints
  let node := (graph.node (blockNodeId path)).getD (unseenMapping path entry)
  { kind := { node.kind with kind := devmapperKind entry }
    size :=
      { node.size with
        block := node.size.block.map fun block =>
          { block with
            paths := if entry.mapperAlias ∈ block.paths then block.paths
              else block.paths ++ [entry.mapperAlias]
            readOnly := some entry.readOnly } } }

/-- What backs a mapping through one of its dependencies: the LUKS container of a `crypt` target,
else the block device. -/
def dependencySource (graph : NodeGraph) (entry : DevmapperEntry) (path : String) : NodeId :=
  if "crypt" ∈ entry.targets ∧
      (graph.kindOf (contentNodeId path)).any (fun | .luksContainer _ => true | _ => false) then
    contentNodeId path
  else blockNodeId path

/-- A multipath map reaches its devices through paths. -/
def DevmapperEntry.edgeKind (entry : DevmapperEntry) : DependencyKind :=
  if "multipath" ∈ entry.targets then .path else .backs

/-- A dependency on an endpoint udev did not report is dropped. -/
def linkDependency (endpoints : List UdevBlockEntry) (entry : DevmapperEntry) (graph : NodeGraph)
    (dependency : DeviceNumber) : NodeGraph :=
  match pathOf endpoints dependency with
  | none => graph
  | some path =>
      graph.insertDependency
        ⟨dependencySource graph entry path, blockNodeId (entry.path endpoints), entry.edgeKind⟩

/-- The mapping's node and an edge from each device it depends on. -/
def insertMapping (endpoints : List UdevBlockEntry) (graph : NodeGraph) (entry : DevmapperEntry) :
    NodeGraph :=
  entry.dependencies.foldl (linkDependency endpoints entry)
    (graph.upsertObservation (blockNodeId (entry.path endpoints))
      (mappingNode endpoints graph entry))

/-- Adds device-mapper kinds, aliases, and backing edges to the block graph. -/
def enrichDevmapper (graph : NodeGraph) (endpoints : List UdevBlockEntry)
    (entries : List DevmapperEntry) : NodeGraph :=
  entries.foldl (insertMapping endpoints) graph

/-! ### MD RAID -/

/-- Appends an identity a node does not have yet. -/
def withIdentity (identities : List ExternalId) (identity : ExternalId) : List ExternalId :=
  if identity ∈ identities then identities else identities ++ [identity]

/-- An array keeps the block facts of the device it is. -/
def arrayNode (members : List MdraidMemberEntry) (graph : NodeGraph) (array : MdraidArrayEntry) :
    Node :=
  let node := (graph.node (blockNodeId array.device)).getD
    ⟨⟨.unknown "md array", some array.size⟩, { presence := .present }⟩
  { kind := ⟨mdraidKind array members, some array.size⟩
    size :=
      { node.size with
        identities := match array.uuid with
          | none => node.size.identities
          | some uuid => withIdentity node.size.identities (.mdUuid uuid) } }

/-- Records an array under its device. -/
def insertArray (members : List MdraidMemberEntry) (graph : NodeGraph) (array : MdraidArrayEntry) :
    NodeGraph :=
  graph.upsertObservation (blockNodeId array.device) (arrayNode members graph array)

/-- The warning for an array with failed or missing members. -/
def MdraidArrayEntry.degraded (array : MdraidArrayEntry) : Option Diagnostic :=
  if array.failedDevices > 0 ∨ array.activeDevices < array.raidDevices then
    some
      { code := "mdraid.array_degraded"
        severity := .warning
        subjects := [.node (blockNodeId array.device)]
        message := "MD array " ++ array.device ++ " has " ++ toString array.activeDevices ++ "/" ++
          toString array.raidDevices ++ " active devices and " ++
          toString array.failedDevices ++ " failed devices"
        evidence := array.status
        suggestedRemedy :=
          some "inspect member state and complete recovery before destructive changes" }
  else none

/-- The array whose UUID a member's superblock names. -/
def MdraidMemberEntry.array (arrays : List MdraidArrayEntry) (member : MdraidMemberEntry) :
    Option MdraidArrayEntry :=
  member.arrayUuid.bind fun arrayUuid => arrays.find? fun array =>
    array.uuid.any fun uuid => normalizedNativeUuid uuid == normalizedNativeUuid arrayUuid

/-- The edge from a member to its array, when the array is known. -/
def linkMember (arrays : List MdraidArrayEntry) (graph : NodeGraph) (member : MdraidMemberEntry) :
    NodeGraph :=
  match member.array arrays with
  | none => graph
  | some array =>
      graph.insertDependency ⟨blockNodeId member.device, blockNodeId array.device,
        .memberOf (.md ⟨.data, none, none⟩)⟩

/-- Adds MD array kinds, identities, and member edges. -/
def enrichMdraid (graph : NodeGraph) (topology : MdraidEntry) : NodeGraph × List Diagnostic :=
  let graph := topology.arrays.foldl (insertArray topology.members) graph
  (topology.members.foldl (linkMember topology.arrays) graph,
    topology.arrays.filterMap MdraidArrayEntry.degraded)

/-! ### LVM -/

/-- A volume group is known by its UUID. -/
def LvmVgEntry.nodeId (vg : LvmVgEntry) : NodeId := stableNodeId "lvm-vg" vg.uuid

/-- `vg_ids.get(name)`. -/
def LvmEntry.vgNamed (topology : LvmEntry) (name : String) : Option LvmVgEntry :=
  topology.vgs.reverse.find? (·.name == name)

/-- The node of a volume group. -/
def vgNode (vg : LvmVgEntry) : Node where
  kind :=
    { kind := .lvmVg vg.name (if vg.extentSize > 0 then some vg.extentSize else none)
      size := some vg.size }
  size := { presence := .present, identities := [.lvmVgUuid vg.uuid] }

/-- Records a volume group. -/
def insertVg (graph : NodeGraph) (vg : LvmVgEntry) : NodeGraph :=
  graph.upsertObservation vg.nodeId (vgNode vg)

/-- A physical volume keeps the facts of the content node it was found as. -/
def pvNode (graph : NodeGraph) (pv : LvmPvEntry) : Node :=
  let node := (graph.node (contentNodeId pv.device)).getD
    ⟨⟨.lvmPv, some pv.size⟩, { presence := .present }⟩
  { kind := { node.kind with kind := .lvmPv }
    size :=
      { node.size with
        presence := if pv.missing then .missing else .present
        identities := withIdentity node.size.identities (.lvmPvUuid pv.uuid) } }

/-- One physical volume, and its membership in the group of its name. -/
def insertPv (topology : LvmEntry) (graph : NodeGraph) (pv : LvmPvEntry) : NodeGraph :=
  let graph := graph.upsertObservation (contentNodeId pv.device) (pvNode graph pv)
  match pv.vgName.bind topology.vgNamed with
  | none => graph
  | some vg => graph.insertDependency ⟨contentNodeId pv.device, vg.nodeId, .memberOf .lvmPv⟩

/-- The warning for a physical volume that LVM reports missing. -/
def LvmPvEntry.missingDiagnostic (pv : LvmPvEntry) : Option Diagnostic :=
  if pv.missing then
    some
      { code := "lvm.pv_missing"
        severity := .warning
        subjects := [.node (contentNodeId pv.device)]
        message := "LVM physical volume " ++ pv.device ++ " is missing"
        evidence := pv.vgName
        suggestedRemedy :=
          some "restore or replace the missing PV before modifying the volume group" }
  else none

/-- The device-mapper UUID of a mapping names this logical volume. -/
def LvmLvEntry.mappedBy (lv : LvmLvEntry) (mapping : DevmapperEntry) : Bool :=
  mapping.uuid.any fun uuid =>
    uuid.startsWith "LVM-" &&
      (normalizedNativeUuid lv.uuid).isSuffixOf (normalizedNativeUuid uuid)

/-- The endpoint of the volume's live mapping. -/
def LvmLvEntry.activePath (endpoints : List UdevBlockEntry) (mappings : List DevmapperEntry)
    (lv : LvmLvEntry) : Option String :=
  (mappings.find? lv.mappedBy).bind fun mapping => pathOf endpoints mapping.devno

/-- An active logical volume is its mapped device; another is known by its UUID. -/
def LvmLvEntry.nodeId (endpoints : List UdevBlockEntry) (mappings : List DevmapperEntry)
    (lv : LvmLvEntry) : NodeId :=
  match lv.activePath endpoints mappings with
  | none => stableNodeId "lvm-lv" lv.uuid
  | some path => blockNodeId path

/-- A logical volume keeps the block facts of its mapped device. -/
def lvNode (endpoints : List UdevBlockEntry) (mappings : List DevmapperEntry) (graph : NodeGraph)
    (lv : LvmLvEntry) : Node :=
  let facts := ((graph.node (lv.nodeId endpoints mappings)).map (·.size)).getD
    { presence := .present }
  { kind := ⟨.lvmLv ⟨lv.name, lvmLvKind lv.segmentType⟩, some lv.size⟩
    size :=
      { facts with
        lvmActive := lv.activation
        identities := withIdentity facts.identities (.lvmLvUuid lv.uuid) } }

/-- One logical volume, provided by the group of its name. -/
def insertLv (endpoints : List UdevBlockEntry) (mappings : List DevmapperEntry)
    (topology : LvmEntry) (graph : NodeGraph) (lv : LvmLvEntry) : NodeGraph :=
  let id := lv.nodeId endpoints mappings
  let graph := graph.upsertObservation id (lvNode endpoints mappings graph lv)
  match topology.vgNamed lv.vgName with
  | none => graph
  | some vg => graph.insertDependency ⟨vg.nodeId, id, .provides⟩

/-- `lv_ids.get((vg_name, name))`. -/
def LvmEntry.lvNamed (topology : LvmEntry) (vgName name : String) : Option LvmLvEntry :=
  topology.lvs.reverse.find? fun lv => lv.vgName == vgName && lv.name == name

/-- The origin relation and the pool edge of one logical volume. -/
def linkLv (endpoints : List UdevBlockEntry) (mappings : List DevmapperEntry)
    (topology : LvmEntry) (graph : NodeGraph) (lv : LvmLvEntry) : NodeGraph :=
  match topology.lvNamed lv.vgName lv.name with
  | none => graph
  | some named =>
      let id := named.nodeId endpoints mappings
      let graph := match lv.origin.bind (topology.lvNamed lv.vgName) with
        | none => graph
        | some origin => graph.insertRelation ⟨id, origin.nodeId endpoints mappings, .snapshotOf⟩
      match lv.pool.bind (topology.lvNamed lv.vgName) with
      | none => graph
      | some pool => graph.insertDependency ⟨pool.nodeId endpoints mappings, id, .provides⟩

/-- The graph part of `enrich_lvm`: groups, physical volumes, logical volumes, then what relates
logical volumes to each other. -/
def lvmGraph (graph : NodeGraph) (endpoints : List UdevBlockEntry)
    (mappings : List DevmapperEntry) (topology : LvmEntry) : NodeGraph :=
  let graph := topology.vgs.foldl insertVg graph
  let graph := topology.pvs.foldl (insertPv topology) graph
  let graph := topology.lvs.foldl (insertLv endpoints mappings topology) graph
  topology.lvs.foldl (linkLv endpoints mappings topology) graph

/-- Adds LVM topology and retains the same raw VG records with their assigned graph identities. -/
def enrichLvm (state : ProviderState) (endpoints : List UdevBlockEntry)
    (mappings : List DevmapperEntry) (topology : LvmEntry) : ProviderState × List Diagnostic :=
  ({ state with
      graph := lvmGraph state.graph endpoints mappings topology
      lvmVgs := state.lvmVgs ++ topology.vgs.map fun vg => ⟨vg.nodeId, vg⟩ },
    topology.pvs.filterMap LvmPvEntry.missingDiagnostic)

/-! ### One probe -/

/-- Everything the native libraries report to one probe. -/
structure NativeRecords where
  endpoints : List UdevBlockEntry := []
  tables : List FdiskTable := []
  signatures : List BlkidEntry := []
  mappings : List DevmapperEntry := []
  mdraid : MdraidEntry := {}
  lvm : LvmEntry := {}
  btrfsFilesystems : List BtrfsFilesystemEntry := []
  mounts : List LibmountEntry := []
  btrfs : List BtrfsEntry := []
deriving DecidableEq

namespace NativeRecords

/-- The graph after the block devices, tables and signatures. -/
def blockGraph (records : NativeRecords) : NodeGraph :=
  (assembleNativeBlockState records.endpoints records.tables records.signatures).graph

/-- The graph after the device mapper. -/
def mappedGraph (records : NativeRecords) : NodeGraph :=
  enrichDevmapper records.blockGraph records.endpoints records.mappings

/-- The block layer, device-mapper and LVM, in this order. -/
def volumeGraph (records : NativeRecords) : NodeGraph :=
  (enrichLvm { graph := records.mappedGraph } records.endpoints records.mappings
    records.lvm).1.graph

/-- The block layer, device-mapper, MD and LVM: what the passes over content start from. -/
def deviceGraph (records : NativeRecords) : NodeGraph :=
  (enrichLvm { graph := (enrichMdraid records.mappedGraph records.mdraid).1 } records.endpoints
    records.mappings records.lvm).1.graph

end NativeRecords

end DisksGraph
