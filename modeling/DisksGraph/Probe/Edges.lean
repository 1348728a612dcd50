import DisksGraph.Probe.Assemble
import DisksGraph.Support.Folds

/-!
# Probe — Edges

The dependency edges of an assembled graph, record by record.

* `mem_insertTable`, `mem_enrichMdraid`, `mem_lvmGraph`: these passes insert exactly the edges
  their records declare, whatever the graph holds.
* `addSignature_shows`: a signature's edge is inserted only above a node that is there.
* `enrichDevmapper_shows`, `exists_enrichDevmapper`: a dependency of a mapping on an observed
  endpoint always becomes an edge; only its source depends on the graph.
-/

namespace DisksGraph

open Support

/-! ### The block layer -/

@[simp] theorem dependencies_insertNativeEndpoint (graph : NodeGraph) (endpoint : UdevBlockEntry)
    (kind : NodeKind) :
    (insertNativeEndpoint graph endpoint kind).dependencies = graph.dependencies := by
  simp [insertNativeEndpoint]

theorem dependencies_foldl_insertNativeEndpoint (endpoints : List UdevBlockEntry)
    (kind : UdevBlockEntry → NodeKind) (graph : NodeGraph) :
    (endpoints.foldl (fun graph endpoint => insertNativeEndpoint graph endpoint (kind endpoint))
      graph).dependencies = graph.dependencies := by
  refine List.foldlRecOn
    (motive := fun g : NodeGraph => g.dependencies = graph.dependencies) endpoints _ rfl
    fun g hg endpoint _ => ?_
  rw [dependencies_insertNativeEndpoint, hg]

/-- `NonZeroU32::new(partition.number)` succeeds. -/
def FdiskPartition.numbered (partition : FdiskPartition) : Bool :=
  (NonZero.new 32 partition.number).isSome

/-- The device backs its table. -/
def FdiskTable.diskEdge (table : FdiskTable) : Dependency :=
  ⟨blockNodeId table.device, table.nodeId, .backs⟩

/-- The table contains the partition. -/
def FdiskTable.partitionEdge (table : FdiskTable) (partition : FdiskPartition) : Dependency :=
  ⟨table.nodeId, blockNodeId (partitionPath table.device partition.number),
    .contains (table.offset partition)⟩

/-- The edges of one fdisk table. -/
def FdiskTable.Declares (table : FdiskTable) (edge : Dependency) : Prop :=
  table.kind.isSome ∧ (edge = table.diskEdge ∨
    ∃ partition ∈ table.partitions, partition.numbered ∧ edge = table.partitionEdge partition)

/-- A partition adds the edge from its table. -/
theorem mem_insertPartition (endpoints : List UdevBlockEntry) (table : FdiskTable)
    (graph : NodeGraph) (partition : FdiskPartition) (edge : Dependency) :
    edge ∈ (insertPartition endpoints table graph partition).dependencies ↔
      edge ∈ graph.dependencies ∨ (partition.numbered ∧ edge = table.partitionEdge partition) := by
  unfold insertPartition FdiskPartition.numbered
  cases NonZero.new 32 partition.number with
  | none => simp
  | some number => simp [FdiskTable.partitionEdge, or_comm]

/-- A table adds the edges it declares. -/
theorem mem_insertTable (endpoints : List UdevBlockEntry) (graph : NodeGraph) (table : FdiskTable)
    (edge : Dependency) :
    edge ∈ (insertTable endpoints graph table).dependencies ↔
      edge ∈ graph.dependencies ∨ table.Declares edge := by
  unfold insertTable FdiskTable.Declares
  cases table.kind with
  | none => simp
  | some kind =>
      dsimp only
      rw [foldl_view (V := fun (g : NodeGraph) e => e ∈ g.dependencies)
        (mem_insertPartition endpoints table)]
      simp [FdiskTable.diskEdge, or_left_comm, or_assoc]

/-- The device backs its content. -/
def BlkidEntry.contentEdge (signature : BlkidEntry) : Dependency :=
  ⟨blockNodeId signature.device, contentNodeId signature.device, .backs⟩

/-- A signature adds the edge to its content alone. -/
theorem addSignature_shows {endpoints : List UdevBlockEntry} {graph : NodeGraph}
    {signature : BlkidEntry} {edge : Dependency}
    (h : edge ∈ (addSignature endpoints graph signature).dependencies) :
    edge ∈ graph.dependencies ∨
      (graph.contains (blockNodeId signature.device) ∧ edge = signature.contentEdge) := by
  unfold addSignature at h
  split at h
  next hc =>
    unfold addNativeContent at h
    split at h
    · exact .inl h
    · rw [NodeGraph.mem_insertDependency, NodeGraph.upsertObservation_eq,
        NodeGraph.dependencies_setNode] at h
      exact h.elim (fun he => .inr ⟨hc, he⟩) .inl
  next => exact .inl h

theorem subset_addSignature {endpoints : List UdevBlockEntry} {graph : NodeGraph}
    {signature : BlkidEntry} {edge : Dependency} (h : edge ∈ graph.dependencies) :
    edge ∈ (addSignature endpoints graph signature).dependencies := by
  unfold addSignature addNativeContent
  split
  · split
    · exact h
    · simp [h]
  · exact h

theorem mem_insertRemaining {endpoints : List UdevBlockEntry} {tables : List FdiskTable}
    {edge : Dependency} :
    edge ∈ (insertRemaining endpoints tables).dependencies ↔
      ∃ table ∈ tables, table.Declares edge := by
  unfold insertRemaining insertTables insertWholeDevices
  rw [dependencies_foldl_insertNativeEndpoint _ fun _ => _,
    foldl_view (V := fun (g : NodeGraph) e => e ∈ g.dependencies) (mem_insertTable endpoints),
    dependencies_foldl_insertNativeEndpoint]
  simp [NodeGraph.empty]

/-- Every edge of the block layer is declared by a table or leads from a device to its content. -/
theorem assemble_shows {endpoints : List UdevBlockEntry} {tables : List FdiskTable}
    {signatures : List BlkidEntry} {edge : Dependency}
    (h : edge ∈ (assembleNativeBlockState endpoints tables signatures).graph.dependencies) :
    (∃ table ∈ tables, table.Declares edge) ∨
      ∃ signature ∈ signatures, edge = signature.contentEdge := by
  rcases foldl_shows (V := fun (g : NodeGraph) e => e ∈ g.dependencies)
    (E := fun signature edge => edge = BlkidEntry.contentEdge signature)
    (fun g s _ e he => (addSignature_shows he).imp id And.right) h with h | h
  · exact .inl (mem_insertRemaining.mp h)
  · exact .inr h

/-- What a table declares is assembled. -/
theorem mem_assemble_of_declares {endpoints : List UdevBlockEntry} {tables : List FdiskTable}
    {signatures : List BlkidEntry} {table : FdiskTable} {edge : Dependency} (ht : table ∈ tables)
    (h : table.Declares edge) :
    edge ∈ (assembleNativeBlockState endpoints tables signatures).graph.dependencies := by
  exact List.foldlRecOn (motive := fun g : NodeGraph => edge ∈ g.dependencies) signatures _
    (mem_insertRemaining.mpr ⟨table, ht, h⟩) fun g hg signature _ => subset_addSignature hg

/-! ### Device-mapper -/

/-- A dependency of a mapping on an observed endpoint. -/
def DevmapperEntry.Links (endpoints : List UdevBlockEntry) (entry : DevmapperEntry)
    (edge : Dependency) : Prop :=
  ∃ dependency ∈ entry.dependencies, ∃ path, pathOf endpoints dependency = some path ∧
    (edge.source = blockNodeId path ∨ edge.source = contentNodeId path) ∧
    edge.target = blockNodeId (entry.path endpoints) ∧ edge.kind = entry.edgeKind

theorem dependencySource_cases (graph : NodeGraph) (entry : DevmapperEntry) (path : String) :
    dependencySource graph entry path = blockNodeId path ∨
      dependencySource graph entry path = contentNodeId path := by
  unfold dependencySource
  split
  · exact .inr rfl
  · exact .inl rfl

/-- A dependency adds the edge it links alone. -/
theorem linkDependency_shows {endpoints : List UdevBlockEntry} {entry : DevmapperEntry}
    {graph : NodeGraph} {dependency : DeviceNumber} {edge : Dependency}
    (h : edge ∈ (linkDependency endpoints entry graph dependency).dependencies) :
    edge ∈ graph.dependencies ∨ ∃ path, pathOf endpoints dependency = some path ∧
      (edge.source = blockNodeId path ∨ edge.source = contentNodeId path) ∧
      edge.target = blockNodeId (entry.path endpoints) ∧ edge.kind = entry.edgeKind := by
  unfold linkDependency at h
  split at h
  · exact .inl h
  next path hp =>
    rcases NodeGraph.mem_insertDependency.mp h with rfl | h
    · exact .inr ⟨path, hp, dependencySource_cases graph entry path, rfl, rfl⟩
    · exact .inl h

theorem subset_linkDependency {endpoints : List UdevBlockEntry} {entry : DevmapperEntry}
    {graph : NodeGraph} {dependency : DeviceNumber} {edge : Dependency}
    (h : edge ∈ graph.dependencies) :
    edge ∈ (linkDependency endpoints entry graph dependency).dependencies := by
  unfold linkDependency
  split
  · exact h
  · exact NodeGraph.mem_insertDependency.mpr (.inr h)

/-- A mapping adds the edges it links alone. -/
theorem insertMapping_shows {endpoints : List UdevBlockEntry} {graph : NodeGraph}
    {entry : DevmapperEntry} {edge : Dependency}
    (h : edge ∈ (insertMapping endpoints graph entry).dependencies) :
    edge ∈ graph.dependencies ∨ entry.Links endpoints edge := by
  rcases foldl_shows (V := fun (g : NodeGraph) e => e ∈ g.dependencies)
    (E := fun dependency edge => ∃ path, pathOf endpoints dependency = some path ∧
      (edge.source = blockNodeId path ∨ edge.source = contentNodeId path) ∧
      edge.target = blockNodeId (entry.path endpoints) ∧ edge.kind = entry.edgeKind)
    (fun g d _ e he => linkDependency_shows he) h with h | h
  · rw [NodeGraph.upsertObservation_eq, NodeGraph.dependencies_setNode] at h
    exact .inl h
  · exact .inr h

/-- Edges are never removed by the device-mapper pass. -/
theorem subset_insertMapping {endpoints : List UdevBlockEntry} {graph : NodeGraph}
    {entry : DevmapperEntry} {edge : Dependency} (h : edge ∈ graph.dependencies) :
    edge ∈ (insertMapping endpoints graph entry).dependencies := by
  refine List.foldlRecOn
    (motive := fun g : NodeGraph => edge ∈ g.dependencies) entry.dependencies _ ?_
    fun g hg d _ => subset_linkDependency hg
  rw [NodeGraph.upsertObservation_eq, NodeGraph.dependencies_setNode]
  exact h

/-- The device mapper adds the edges its entries link alone. -/
theorem enrichDevmapper_shows {endpoints : List UdevBlockEntry} {graph : NodeGraph}
    {entries : List DevmapperEntry} {edge : Dependency}
    (h : edge ∈ (enrichDevmapper graph endpoints entries).dependencies) :
    edge ∈ graph.dependencies ∨ ∃ entry ∈ entries, entry.Links endpoints edge :=
  foldl_shows (V := fun (g : NodeGraph) e => e ∈ g.dependencies)
    (E := fun entry edge => DevmapperEntry.Links endpoints entry edge)
    (fun _ _ _ _ he => insertMapping_shows he) h

/-- The device mapper removes no edge. -/
theorem subset_enrichDevmapper {endpoints : List UdevBlockEntry} {graph : NodeGraph}
    {entries : List DevmapperEntry} {edge : Dependency} (h : edge ∈ graph.dependencies) :
    edge ∈ (enrichDevmapper graph endpoints entries).dependencies :=
  List.foldlRecOn (motive := fun g : NodeGraph => edge ∈ g.dependencies) entries _ h
    fun _ hg _ _ => subset_insertMapping hg

/-- An observed dependency of a mapping is an edge into the mapping's node. -/
theorem exists_enrichDevmapper {endpoints : List UdevBlockEntry} {graph : NodeGraph}
    {entries : List DevmapperEntry} {entry : DevmapperEntry} {dependency : DeviceNumber}
    {path : String} (he : entry ∈ entries) (hd : dependency ∈ entry.dependencies)
    (hp : pathOf endpoints dependency = some path) :
    ∃ edge ∈ (enrichDevmapper graph endpoints entries).dependencies,
      edge.target = blockNodeId (entry.path endpoints) ∧ edge.kind = entry.edgeKind := by
  refine foldl_establishes (P := fun g => ∃ edge ∈ NodeGraph.dependencies g,
    edge.target = blockNodeId (entry.path endpoints) ∧ edge.kind = entry.edgeKind) he ?_ ?_ graph
  · intro g
    refine foldl_establishes (P := fun g => ∃ edge ∈ NodeGraph.dependencies g,
      edge.target = blockNodeId (entry.path endpoints) ∧ edge.kind = entry.edgeKind) hd ?_ ?_ _
    · intro g
      rw [linkDependency, hp]
      exact ⟨_, NodeGraph.mem_insertDependency.mpr (.inl rfl), rfl, rfl⟩
    · rintro g d - ⟨edge, hm, ht⟩
      exact ⟨edge, subset_linkDependency hm, ht⟩
  · rintro g other - ⟨edge, hm, ht⟩
    exact ⟨edge, subset_insertMapping hm, ht⟩

/-! ### MD -/

/-- The edges of the MD records. -/
def MdraidEntry.Declares (topology : MdraidEntry) (edge : Dependency) : Prop :=
  ∃ member ∈ topology.members, ∃ array, member.array topology.arrays = some array ∧
    edge = ⟨blockNodeId member.device, blockNodeId array.device,
      .memberOf (.md ⟨.data, none, none⟩)⟩

/-- A member adds the edge to its array. -/
theorem mem_linkMember (arrays : List MdraidArrayEntry) (graph : NodeGraph)
    (member : MdraidMemberEntry) (edge : Dependency) :
    edge ∈ (linkMember arrays graph member).dependencies ↔ edge ∈ graph.dependencies ∨
      ∃ array, member.array arrays = some array ∧
        edge = ⟨blockNodeId member.device, blockNodeId array.device,
          .memberOf (.md ⟨.data, none, none⟩)⟩ := by
  rw [linkMember]
  cases member.array arrays with
  | none => simp
  | some array => simp [or_comm]

/-- The MD pass inserts exactly the edges its records declare. -/
theorem mem_enrichMdraid {graph : NodeGraph} {topology : MdraidEntry} {edge : Dependency} :
    edge ∈ (enrichMdraid graph topology).1.dependencies ↔
      edge ∈ graph.dependencies ∨ topology.Declares edge := by
  have harrays : (topology.arrays.foldl (insertArray topology.members) graph).dependencies =
      graph.dependencies := by
    refine List.foldlRecOn (motive := fun g : NodeGraph => g.dependencies = graph.dependencies)
      topology.arrays _ rfl fun g hg array _ => ?_
    rw [insertArray, NodeGraph.upsertObservation_eq, NodeGraph.dependencies_setNode, hg]
  rw [enrichMdraid, foldl_view (V := fun (g : NodeGraph) e => e ∈ g.dependencies)
    (mem_linkMember topology.arrays), harrays, MdraidEntry.Declares]

/-! ### LVM -/

/-- The edges of the LVM records. -/
inductive LvmEntry.Declares (endpoints : List UdevBlockEntry) (mappings : List DevmapperEntry)
    (topology : LvmEntry) : Dependency → Prop
  | member {pv : LvmPvEntry} {vg : LvmVgEntry} (hpv : pv ∈ topology.pvs)
      (hvg : pv.vgName.bind topology.vgNamed = some vg) :
      Declares endpoints mappings topology
        ⟨contentNodeId pv.device, vg.nodeId, .memberOf .lvmPv⟩
  | volume {lv : LvmLvEntry} {vg : LvmVgEntry} (hlv : lv ∈ topology.lvs)
      (hvg : topology.vgNamed lv.vgName = some vg) :
      Declares endpoints mappings topology
        ⟨vg.nodeId, lv.nodeId endpoints mappings, .provides⟩
  | pooled {lv named pool : LvmLvEntry} (hlv : lv ∈ topology.lvs)
      (hnamed : topology.lvNamed lv.vgName lv.name = some named)
      (hpool : lv.pool.bind (topology.lvNamed lv.vgName) = some pool) :
      Declares endpoints mappings topology
        ⟨pool.nodeId endpoints mappings, named.nodeId endpoints mappings, .provides⟩

/-- A physical volume adds the edge to its group. -/
theorem mem_insertPv (topology : LvmEntry) (graph : NodeGraph) (pv : LvmPvEntry)
    (edge : Dependency) :
    edge ∈ (insertPv topology graph pv).dependencies ↔ edge ∈ graph.dependencies ∨
      ∃ vg, pv.vgName.bind topology.vgNamed = some vg ∧
        edge = ⟨contentNodeId pv.device, vg.nodeId, .memberOf .lvmPv⟩ := by
  unfold insertPv
  cases pv.vgName.bind topology.vgNamed with
  | none => simp
  | some vg => simp [or_comm]

/-- A logical volume adds its edges. -/
theorem mem_insertLv (endpoints : List UdevBlockEntry) (mappings : List DevmapperEntry)
    (topology : LvmEntry) (graph : NodeGraph) (lv : LvmLvEntry) (edge : Dependency) :
    edge ∈ (insertLv endpoints mappings topology graph lv).dependencies ↔
      edge ∈ graph.dependencies ∨ ∃ vg, topology.vgNamed lv.vgName = some vg ∧
        edge = ⟨vg.nodeId, lv.nodeId endpoints mappings, .provides⟩ := by
  unfold insertLv
  cases topology.vgNamed lv.vgName with
  | none => simp
  | some vg => simp [or_comm]

/-- A logical volume is linked to its group. -/
theorem mem_linkLv (endpoints : List UdevBlockEntry) (mappings : List DevmapperEntry)
    (topology : LvmEntry) (graph : NodeGraph) (lv : LvmLvEntry) (edge : Dependency) :
    edge ∈ (linkLv endpoints mappings topology graph lv).dependencies ↔
      edge ∈ graph.dependencies ∨ ∃ named, topology.lvNamed lv.vgName lv.name = some named ∧
        ∃ pool, lv.pool.bind (topology.lvNamed lv.vgName) = some pool ∧
          edge = ⟨pool.nodeId endpoints mappings, named.nodeId endpoints mappings, .provides⟩ := by
  unfold linkLv
  cases topology.lvNamed lv.vgName lv.name with
  | none => simp
  | some named =>
      cases lv.origin.bind (topology.lvNamed lv.vgName) <;>
        cases lv.pool.bind (topology.lvNamed lv.vgName) <;> simp [or_comm]

theorem dependencies_foldl_insertVg (vgs : List LvmVgEntry) (graph : NodeGraph) :
    (vgs.foldl insertVg graph).dependencies = graph.dependencies := by
  refine List.foldlRecOn
    (motive := fun g : NodeGraph => g.dependencies = graph.dependencies) vgs _ rfl
    fun g hg vg _ => ?_
  rw [insertVg, NodeGraph.upsertObservation_eq, NodeGraph.dependencies_setNode, hg]

/-- **The LVM pass inserts exactly the edges its records declare.** -/
theorem mem_lvmGraph {endpoints : List UdevBlockEntry} {mappings : List DevmapperEntry}
    {topology : LvmEntry} {graph : NodeGraph} {edge : Dependency} :
    edge ∈ (lvmGraph graph endpoints mappings topology).dependencies ↔
      edge ∈ graph.dependencies ∨ topology.Declares endpoints mappings edge := by
  unfold lvmGraph
  dsimp only
  rw [foldl_view (V := fun (g : NodeGraph) e => e ∈ g.dependencies)
      (mem_linkLv endpoints mappings topology),
    foldl_view (V := fun (g : NodeGraph) e => e ∈ g.dependencies)
      (mem_insertLv endpoints mappings topology),
    foldl_view (V := fun (g : NodeGraph) e => e ∈ g.dependencies) (mem_insertPv topology),
    dependencies_foldl_insertVg]
  constructor
  · rintro (((h | ⟨pv, hpv, vg, hvg, rfl⟩) | ⟨lv, hlv, vg, hvg, rfl⟩) |
      ⟨lv, hlv, named, hn, pool, hp, rfl⟩)
    · exact .inl h
    · exact .inr (.member hpv hvg)
    · exact .inr (.volume hlv hvg)
    · exact .inr (.pooled hlv hn hp)
  · rintro (h | h)
    · exact .inl (.inl (.inl h))
    cases h with
    | member hpv hvg => exact .inl (.inl (.inr ⟨_, hpv, _, hvg, rfl⟩))
    | volume hlv hvg => exact .inl (.inr ⟨_, hlv, _, hvg, rfl⟩)
    | pooled hlv hn hp => exact .inr ⟨_, hlv, _, hn, _, hp, rfl⟩

end DisksGraph
