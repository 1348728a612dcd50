import DisksGraph.Probe.Edges
import DisksGraph.Runtime.Bindings

/-!
# Probe — Volumes

Whether the runtime's resolver (`findLv`) finds the logical volumes the observer puts into its
graph.

* `Node.Native`, `LvmNode`: what the block passes and the LVM pass leave true of every node.
* `NativeRecords.Consistent`: records that agree with each other, and on whose keys
  `stable_node_id` does not collide.
* `NativeRecords.SoleProvider`: no record but that of its group leads to the node of a volume.
* `find_lv_iff_soleProvider`: on consistent records the resolver finds a volume exactly then.  The
  device-mapper pass links every observed dependency of a mapping, so an active volume of a group
  on observed devices has a second parent and is not found (`Maps.not_soleProvider`).
-/

namespace DisksGraph

open Support

/-! ### Node invariants -/

namespace NodeGraph

/-- A property of every stored node. -/
def Everywhere (Q : NodeId → Node → Prop) (graph : NodeGraph) : Prop :=
  ∀ id node, graph.node id = some node → Q id node

namespace Everywhere

variable {Q R : NodeId → Node → Prop} {graph : NodeGraph}

theorem empty : Everywhere Q NodeGraph.empty := fun id node h => by
  rw [NodeGraph.node, NodeGraph.empty, AList.lookup_empty] at h
  cases h

theorem setNode {id : NodeId} {value : Node} (hg : graph.Everywhere Q) (hv : Q id value) :
    (graph.setNode id value).Everywhere Q := by
  intro other node h
  rw [node_setNode] at h
  split at h
  next he =>
    cases h
    exact he ▸ hv
  next => exact hg other node h

theorem insertDependency {edge : Dependency} (hg : graph.Everywhere Q) :
    (graph.insertDependency edge).Everywhere Q := hg

theorem imp (hg : graph.Everywhere Q) (h : ∀ id node, Q id node → R id node) :
    graph.Everywhere R := fun id node hn => h id node (hg id node hn)

/-- What holds of the stored node or of the one written in its absence. -/
theorem getD {id : NodeId} {value : Node} (hg : graph.Everywhere Q) (hv : Q id value) :
    Q id ((graph.node id).getD value) := by
  cases h : graph.node id with
  | none => exact hv
  | some node => exact hg id node h

end Everywhere

end NodeGraph

open NodeGraph (Everywhere)

/-- An identity no LVM group or volume is found by. -/
def ExternalId.Plain (identity : ExternalId) : Prop :=
  identity.discriminant ≠ 7 ∧ identity.discriminant ≠ 8

/-- A node of the block layer: present, and without an identity of a group or volume. -/
structure Node.Native (node : Node) : Prop where
  present : node.size.presence = .present
  plain : ∀ identity ∈ node.size.identities, identity.Plain

/-- Block facts identify no LVM object. -/
theorem nativeBlockFacts_plain {endpoint : UdevBlockEntry} {identity : ExternalId}
    (h : identity ∈ (nativeBlockFacts endpoint).identities) : identity.Plain := by
  dsimp only [nativeBlockFacts] at h
  rw [List.mem_append, Option.mem_toList, Option.mem_toList, Option.map_eq_some_iff,
    Option.map_eq_some_iff] at h
  rcases h with ⟨wwn, -, rfl⟩ | ⟨serial, -, rfl⟩ <;>
    simp [ExternalId.Plain, ExternalId.discriminant]

/-- The identities after one is added. -/
theorem mem_withIdentity {identities : List ExternalId} {identity other : ExternalId} :
    other ∈ withIdentity identities identity ↔ other ∈ identities ∨ other = identity := by
  unfold withIdentity
  split
  next h => exact ⟨.inl, fun ho => ho.elim id fun he => he ▸ h⟩
  next => rw [List.mem_append, List.mem_singleton]

/-- A device is a native node. -/
theorem insertNativeEndpoint_native {graph : NodeGraph} {endpoint : UdevBlockEntry}
    {kind : NodeKind} (h : graph.Everywhere fun _ => Node.Native) :
    (insertNativeEndpoint graph endpoint kind).Everywhere fun _ => Node.Native := by
  rw [insertNativeEndpoint, NodeGraph.upsertObservation_eq]
  exact h.setNode ⟨rfl, fun _ => nativeBlockFacts_plain⟩

theorem partitionNode_native (endpoints : List UdevBlockEntry) (table : FdiskTable)
    (partition : FdiskPartition) (number : NonZero 32) :
    (partitionNode endpoints table partition number).Native := by
  refine ⟨rfl, fun identity h => ?_⟩
  rcases List.mem_append.mp h with h | h
  · cases he : endpointAt endpoints (partitionPath table.device partition.number) with
    | none => rw [he] at h; cases h
    | some endpoint => rw [he] at h; exact nativeBlockFacts_plain h
  · rw [Option.mem_toList, Option.map_eq_some_iff] at h
    obtain ⟨uuid, -, rfl⟩ := h
    simp [ExternalId.Plain, ExternalId.discriminant]

/-- A table adds native nodes. -/
theorem insertTable_native {endpoints : List UdevBlockEntry} {table : FdiskTable}
    {graph : NodeGraph} (h : graph.Everywhere fun _ => Node.Native) :
    (insertTable endpoints graph table).Everywhere fun _ => Node.Native := by
  unfold insertTable
  split
  · exact h
  · refine List.foldlRecOn (motive := Everywhere fun _ => Node.Native) table.partitions _ ?_
      fun g hg partition _ => ?_
    · rw [NodeGraph.upsertObservation_eq]
      exact (h.setNode ⟨rfl, fun _ hm => absurd hm List.not_mem_nil⟩).insertDependency
    · unfold insertPartition
      split
      · exact hg
      · dsimp only
        rw [NodeGraph.upsertObservation_eq]
        exact (hg.setNode (partitionNode_native ..)).insertDependency

/-- A signature adds native nodes. -/
theorem addSignature_native {endpoints : List UdevBlockEntry} {signature : BlkidEntry}
    {graph : NodeGraph} (h : graph.Everywhere fun _ => Node.Native) :
    (addSignature endpoints graph signature).Everywhere fun _ => Node.Native := by
  unfold addSignature addNativeContent
  split
  · split
    · exact h
    · rw [NodeGraph.upsertObservation_eq]
      refine (h.setNode ⟨rfl, fun identity hm => ?_⟩).insertDependency
      rw [contentNode, Option.mem_toList, Option.map_eq_some_iff] at hm
      obtain ⟨uuid, -, rfl⟩ := hm
      simp [ExternalId.Plain, ExternalId.discriminant]
  · exact h

/-- A mapping adds native nodes. -/
theorem insertMapping_native {endpoints : List UdevBlockEntry} {graph : NodeGraph}
    {entry : DevmapperEntry} (h : graph.Everywhere fun _ => Node.Native) :
    (insertMapping endpoints graph entry).Everywhere fun _ => Node.Native := by
  refine List.foldlRecOn (motive := Everywhere fun _ => Node.Native) entry.dependencies _ ?_
    fun g hg dependency _ => ?_
  · rw [NodeGraph.upsertObservation_eq]
    have hd : Node.Native ((graph.node (blockNodeId (entry.path endpoints))).getD
        (unseenMapping (entry.path endpoints) entry)) :=
      h.getD ⟨rfl, fun _ hm => absurd hm List.not_mem_nil⟩
    exact h.setNode ⟨hd.present, hd.plain⟩
  · unfold linkDependency
    split
    · exact hg
    · exact hg.insertDependency

namespace NativeRecords

theorem blockGraph_native (records : NativeRecords) :
    records.blockGraph.Everywhere fun _ => Node.Native := by
  refine List.foldlRecOn (motive := Everywhere fun _ => Node.Native) records.signatures _ ?_
    fun g hg signature _ => addSignature_native hg
  refine List.foldlRecOn (motive := Everywhere fun _ => Node.Native) (List.filter _ _) _ ?_
    fun g hg endpoint _ => insertNativeEndpoint_native hg
  refine List.foldlRecOn (motive := Everywhere fun _ => Node.Native) records.tables _ ?_
    fun g hg table _ => insertTable_native hg
  exact List.foldlRecOn (motive := Everywhere fun _ => Node.Native) (List.filter _ _) _
    Everywhere.empty fun g hg endpoint _ => insertNativeEndpoint_native hg

theorem mappedGraph_native (records : NativeRecords) :
    records.mappedGraph.Everywhere fun _ => Node.Native :=
  List.foldlRecOn (motive := Everywhere fun _ => Node.Native) records.mappings _
    records.blockGraph_native fun _ hg _ _ => insertMapping_native hg

end NativeRecords

/-! ### The nodes of the LVM pass -/

/-- What the LVM pass leaves true of every node: the identities of groups and volumes sit where
the records put them, and only a physical volume can be missing. -/
structure LvmNode (endpoints : List UdevBlockEntry) (mappings : List DevmapperEntry)
    (topology : LvmEntry) (id : NodeId) (node : Node) : Prop where
  group : ∀ uuid, .lvmVgUuid uuid ∈ node.size.identities → id = stableNodeId "lvm-vg" uuid
  volume : ∀ uuid, .lvmLvUuid uuid ∈ node.size.identities →
    ∃ lv ∈ topology.lvs, lv.uuid = uuid ∧ lv.nodeId endpoints mappings = id
  once : (node.size.identities.filter fun identity => identity.discriminant == 8).Nodup
  present : node.size.presence = .present ∨ ∃ pv ∈ topology.pvs, id = contentNodeId pv.device

section

variable {endpoints : List UdevBlockEntry} {mappings : List DevmapperEntry} {topology : LvmEntry}

/-- A native node is as LVM leaves it. -/
theorem Node.Native.lvmNode {id : NodeId} {node : Node} (h : node.Native) :
    LvmNode endpoints mappings topology id node where
  group := fun uuid hm => absurd rfl (h.plain _ hm).1
  volume := fun uuid hm => absurd rfl (h.plain _ hm).2
  once := by
    rw [List.filter_eq_nil_iff.mpr fun identity hm => by simpa using (h.plain identity hm).2]
    exact List.nodup_nil
  present := .inl h.present

theorem nodup_filter_withIdentity {identities : List ExternalId} {identity : ExternalId}
    {p : ExternalId → Bool} (h : (identities.filter p).Nodup) :
    ((withIdentity identities identity).filter p).Nodup := by
  unfold withIdentity
  split
  · exact h
  next hn =>
    rw [List.filter_append]
    refine h.append ((List.nodup_singleton identity).filter p) fun other ho hs => hn ?_
    cases List.mem_singleton.mp (List.mem_of_mem_filter hs)
    exact List.mem_of_mem_filter ho

/-- A group leaves the nodes as LVM does. -/
theorem insertVg_lvmNode {graph : NodeGraph} {vg : LvmVgEntry}
    (h : graph.Everywhere (LvmNode endpoints mappings topology)) :
    (insertVg graph vg).Everywhere (LvmNode endpoints mappings topology) := by
  rw [insertVg, NodeGraph.upsertObservation_eq]
  refine h.setNode ⟨fun uuid hm => ?_, fun uuid hm => ?_, ?_, .inl rfl⟩
  · cases List.mem_singleton.mp hm
    rfl
  · cases List.mem_singleton.mp hm
  · exact (List.nodup_singleton _).filter _

/-- A physical volume leaves the nodes as LVM does. -/
theorem insertPv_lvmNode {graph : NodeGraph} {pv : LvmPvEntry} (hpv : pv ∈ topology.pvs)
    (h : graph.Everywhere (LvmNode endpoints mappings topology)) :
    (insertPv topology graph pv).Everywhere (LvmNode endpoints mappings topology) := by
  have hd : LvmNode endpoints mappings topology (contentNodeId pv.device)
      ((graph.node (contentNodeId pv.device)).getD
        ⟨⟨.lvmPv, some pv.size⟩, { presence := .present }⟩) :=
    h.getD (Node.Native.lvmNode ⟨rfl, fun _ hm => absurd hm List.not_mem_nil⟩)
  have hnode : LvmNode endpoints mappings topology (contentNodeId pv.device) (pvNode graph pv) := by
    refine ⟨fun uuid hm => ?_, fun uuid hm => ?_, nodup_filter_withIdentity hd.once,
      .inr ⟨pv, hpv, rfl⟩⟩
    · rcases mem_withIdentity.mp hm with hm | hm
      · exact hd.group uuid hm
      · cases hm
    · rcases mem_withIdentity.mp hm with hm | hm
      · exact hd.volume uuid hm
      · cases hm
  unfold insertPv
  rw [NodeGraph.upsertObservation_eq]
  split
  · exact h.setNode hnode
  · exact (h.setNode hnode).insertDependency

/-- A logical volume leaves the nodes as LVM does. -/
theorem insertLv_lvmNode {graph : NodeGraph} {lv : LvmLvEntry} (hlv : lv ∈ topology.lvs)
    (h : graph.Everywhere (LvmNode endpoints mappings topology)) :
    (insertLv endpoints mappings topology graph lv).Everywhere
      (LvmNode endpoints mappings topology) := by
  have hd : LvmNode endpoints mappings topology (lv.nodeId endpoints mappings)
      ⟨⟨.zram, none⟩, ((graph.node (lv.nodeId endpoints mappings)).map (·.size)).getD
        { presence := .present }⟩ := by
    cases hn : graph.node (lv.nodeId endpoints mappings) with
    | none => exact Node.Native.lvmNode ⟨rfl, fun _ hm => absurd hm List.not_mem_nil⟩
    | some node => exact ⟨(h _ _ hn).group, (h _ _ hn).volume, (h _ _ hn).once, (h _ _ hn).present⟩
  have hnode : LvmNode endpoints mappings topology (lv.nodeId endpoints mappings)
      (lvNode endpoints mappings graph lv) := by
    refine ⟨fun uuid hm => ?_, fun uuid hm => ?_, nodup_filter_withIdentity hd.once, hd.present⟩
    · rcases mem_withIdentity.mp hm with hm | hm
      · exact hd.group uuid hm
      · cases hm
    · rcases mem_withIdentity.mp hm with hm | hm
      · exact hd.volume uuid hm
      · cases hm
        exact ⟨lv, hlv, rfl, rfl⟩
  unfold insertLv
  dsimp only
  rw [NodeGraph.upsertObservation_eq]
  split
  · exact h.setNode hnode
  · exact (h.setNode hnode).insertDependency

/-- The last loop relates volumes without touching a node. -/
theorem node_linkLv (graph : NodeGraph) (lv : LvmLvEntry) (id : NodeId) :
    (linkLv endpoints mappings topology graph lv).node id = graph.node id := by
  unfold linkLv
  split
  · rfl
  · split <;> split <;> rfl

/-- Linking volumes changes no node. -/
theorem node_foldl_linkLv (lvs : List LvmLvEntry) (graph : NodeGraph) (id : NodeId) :
    (lvs.foldl (linkLv endpoints mappings topology) graph).node id = graph.node id :=
  List.foldlRecOn (motive := fun g : NodeGraph => g.node id = graph.node id) lvs _ rfl
    fun g hg lv _ => (node_linkLv g lv id).trans hg

/-- Every node is as LVM leaves it. -/
theorem lvmGraph_lvmNode {graph : NodeGraph} (h : graph.Everywhere fun _ => Node.Native) :
    (lvmGraph graph endpoints mappings topology).Everywhere
      (LvmNode endpoints mappings topology) := by
  have hvgs : (topology.vgs.foldl insertVg graph).Everywhere
      (LvmNode endpoints mappings topology) :=
    List.foldlRecOn (motive := Everywhere (LvmNode endpoints mappings topology)) topology.vgs _
      (h.imp fun _ _ => Node.Native.lvmNode) fun _ hg _ _ => insertVg_lvmNode hg
  have hpvs := List.foldlRecOn (motive := Everywhere (LvmNode endpoints mappings topology))
    topology.pvs (insertPv topology) hvgs fun _ hg _ hm => insertPv_lvmNode hm hg
  have hlvs := List.foldlRecOn (motive := Everywhere (LvmNode endpoints mappings topology))
    topology.lvs (insertLv endpoints mappings topology) hpvs fun _ hg _ hm => insertLv_lvmNode hm hg
  intro id node hn
  rw [lvmGraph, node_foldl_linkLv] at hn
  exact hlvs id node hn

/-- What a write to another node leaves in place. -/
theorem node_insertPv_ne {graph : NodeGraph} {pv : LvmPvEntry} {id : NodeId}
    (h : id ≠ contentNodeId pv.device) : (insertPv topology graph pv).node id = graph.node id := by
  unfold insertPv
  rw [NodeGraph.upsertObservation_eq]
  split <;> exact NodeGraph.node_setNode_ne h

/-- The nodes after a logical volume is recorded. -/
theorem node_insertLv (graph : NodeGraph) (lv : LvmLvEntry) (id : NodeId) :
    (insertLv endpoints mappings topology graph lv).node id =
      if id = lv.nodeId endpoints mappings then some (lvNode endpoints mappings graph lv)
      else graph.node id := by
  unfold insertLv
  dsimp only
  rw [NodeGraph.upsertObservation_eq]
  split <;> exact NodeGraph.node_setNode

/-- A group is where its records put it. -/
def HasVg (vg : LvmVgEntry) (graph : NodeGraph) : Prop :=
  ∃ node, graph.node vg.nodeId = some node ∧ node.kind.kind.isLvmVg ∧
    node.size.presence = .present ∧ node.size.identities = [.lvmVgUuid vg.uuid]

/-- A group's node, when no other record writes to it. -/
theorem hasVg_lvmGraph {graph : NodeGraph} {vg : LvmVgEntry} (hvg : vg ∈ topology.vgs)
    (hvgs : ∀ other ∈ topology.vgs, other.nodeId = vg.nodeId → other.uuid = vg.uuid)
    (hpvs : ∀ pv ∈ topology.pvs, vg.nodeId ≠ contentNodeId pv.device)
    (hlvs : ∀ lv ∈ topology.lvs, vg.nodeId ≠ lv.nodeId endpoints mappings) :
    HasVg vg (lvmGraph graph endpoints mappings topology) := by
  have hgroups : HasVg vg (topology.vgs.foldl insertVg graph) := by
    refine foldl_establishes hvg (fun g => ?_) (fun g other ho hg => ?_) graph
    · rw [HasVg, insertVg, NodeGraph.upsertObservation_eq, NodeGraph.node_setNode_self]
      exact ⟨_, rfl, rfl, rfl, rfl⟩
    · rw [HasVg, insertVg, NodeGraph.upsertObservation_eq, NodeGraph.node_setNode]
      split
      next he =>
        refine ⟨_, rfl, rfl, rfl, ?_⟩
        rw [vgNode, hvgs other ho he.symm]
      next => exact hg
  have hmembers := List.foldlRecOn (motive := HasVg vg) topology.pvs (insertPv topology) hgroups
    fun g hg pv hpv => by
      rw [HasVg, node_insertPv_ne (hpvs pv hpv)]
      exact hg
  have hvolumes := List.foldlRecOn (motive := HasVg vg) topology.lvs
    (insertLv endpoints mappings topology) hmembers fun g hg lv hlv => by
      rw [HasVg, node_insertLv, if_neg (hlvs lv hlv)]
      exact hg
  rw [HasVg, lvmGraph, node_foldl_linkLv]
  exact hvolumes

/-- A volume's node carries its UUID and is named by one of the volumes that share it. -/
theorem exists_lvNode {graph : NodeGraph} {lv : LvmLvEntry} (hlv : lv ∈ topology.lvs) :
    ∃ node, (lvmGraph graph endpoints mappings topology).node (lv.nodeId endpoints mappings) =
        some node ∧ .lvmLvUuid lv.uuid ∈ node.size.identities ∧
      ∃ named ∈ topology.lvs, named.nodeId endpoints mappings = lv.nodeId endpoints mappings ∧
        node.kind.kind = .lvmLv ⟨named.name, lvmLvKind named.segmentType⟩ := by
  rw [lvmGraph, node_foldl_linkLv]
  refine foldl_establishes (P := fun g : NodeGraph => ∃ node,
    g.node (lv.nodeId endpoints mappings) = some node ∧ .lvmLvUuid lv.uuid ∈ node.size.identities ∧
    ∃ named ∈ topology.lvs, named.nodeId endpoints mappings = lv.nodeId endpoints mappings ∧
      node.kind.kind = .lvmLv ⟨named.name, lvmLvKind named.segmentType⟩) hlv ?_ ?_ _
  · intro g
    rw [node_insertLv, if_pos rfl]
    exact ⟨_, rfl, mem_withIdentity.mpr (.inr rfl), lv, hlv, rfl, rfl⟩
  · rintro g other ho ⟨node, hn, hid, hkind⟩
    rw [node_insertLv]
    split
    next he =>
      refine ⟨_, rfl, mem_withIdentity.mpr (.inl ?_), other, ho, he.symm, rfl⟩
      rw [← he, hn]
      exact hid
    next => exact ⟨node, hn, hid, hkind⟩

end

/-! ### Consistent records -/

namespace NativeRecords

/-- The keys `stable_node_id` is given by the three passes. -/
def volumeKeys (records : NativeRecords) : List (String × String) :=
  records.endpoints.flatMap (fun endpoint =>
    [("block-path", endpoint.devnode), ("content-path", endpoint.devnode)]) ++
  records.tables.flatMap (fun table =>
    ("partition-table-path", table.device) :: ("block-path", table.device) ::
      table.partitions.map fun partition =>
        ("block-path", partitionPath table.device partition.number)) ++
  records.signatures.flatMap (fun signature =>
    [("block-path", signature.device), ("content-path", signature.device)]) ++
  records.mappings.map (fun mapping => ("block-path", mapping.path records.endpoints)) ++
  records.lvm.vgs.map (fun vg => ("lvm-vg", vg.uuid)) ++
  records.lvm.pvs.map (fun pv => ("content-path", pv.device)) ++
  records.lvm.lvs.map (fun lv => ("lvm-lv", lv.uuid))

/-- `stable_node_id` does not collide on these keys. -/
def Separated (keys : List (String × String)) : Prop :=
  ∀ a ∈ keys, ∀ b ∈ keys, stableNodeId a.1 a.2 = stableNodeId b.1 b.2 → a = b

/-- The mapping of a linear volume: the only one that names it, under the UUIDs of group and volume,
on the endpoints of the group's physical volumes. -/
structure Maps (records : NativeRecords) (vg : LvmVgEntry) (lv : LvmLvEntry)
    (mapping : DevmapperEntry) : Prop where
  listed : mapping ∈ records.mappings
  unique : ∀ other ∈ records.mappings, lv.mappedBy other → other = mapping
  named : ∃ uuid, mapping.uuid = some uuid ∧ uuid.startsWith "LVM-" ∧
    normalizedNativeUuid uuid = normalizedNativeUuid ("LVM-" ++ vg.uuid ++ lv.uuid)
  members : ∀ devno, devno ∈ mapping.dependencies ↔ ∃ pv ∈ records.lvm.pvs,
    pv.vgName = some vg.name ∧ ∃ endpoint ∈ records.endpoints,
      PathBuf.ofString endpoint.devnode = PathBuf.ofString pv.device ∧
      devno = ⟨endpoint.major, endpoint.minor⟩

/-- Records that do not contradict each other. -/
structure Consistent (records : NativeRecords) : Prop where
  paths : (records.endpoints.map fun endpoint => PathBuf.ofString endpoint.devnode).Nodup
  numbers : (records.endpoints.map fun endpoint => (endpoint.major, endpoint.minor)).Nodup
  mappingNumbers : (records.mappings.map (·.devno)).Nodup
  vgUuids : (records.lvm.vgs.map (·.uuid)).Nodup
  pvUuids : (records.lvm.pvs.map (·.uuid)).Nodup
  lvUuids : (records.lvm.lvs.map (·.uuid)).Nodup
  vgNames : (records.lvm.vgs.map (·.name)).Nodup
  groups : ∀ lv ∈ records.lvm.lvs, ∃ vg ∈ records.lvm.vgs, vg.name = lv.vgName
  mapped : ∀ lv ∈ records.lvm.lvs, lvmLvKind lv.segmentType = .linear →
    ∀ vg ∈ records.lvm.vgs, vg.name = lv.vgName → ∃ mapping, records.Maps vg lv mapping
  separated : Separated records.volumeKeys

/-- No record but that of its group leads to the node of a logical volume. -/
structure SoleProvider (records : NativeRecords) (lv : LvmLvEntry) : Prop where
  named : isTrimmedText lv.uuid
  unshared : ∀ other ∈ records.lvm.lvs, ∀ path,
    lv.activePath records.endpoints records.mappings = some path →
    other.activePath records.endpoints records.mappings = some path → other = lv
  unbacked : ∀ path, lv.activePath records.endpoints records.mappings = some path →
    ∀ mapping ∈ records.mappings, mapping.path records.endpoints = path →
    ∀ devno ∈ mapping.dependencies, pathOf records.endpoints devno = none
  unpartitioned : ∀ path, lv.activePath records.endpoints records.mappings = some path →
    ∀ table ∈ records.tables, table.kind.isSome → ∀ partition ∈ table.partitions,
    partition.numbered → partitionPath table.device partition.number ≠ path
  unpooled : records.lvm.lvNamed lv.vgName lv.name = some lv →
    ∀ other ∈ records.lvm.lvs, other.vgName = lv.vgName → other.name = lv.name →
    other.pool.bind (records.lvm.lvNamed lv.vgName) = none

end NativeRecords

/-- The key of a logical volume's node. -/
def LvmLvEntry.key (endpoints : List UdevBlockEntry) (mappings : List DevmapperEntry)
    (lv : LvmLvEntry) : String × String :=
  match lv.activePath endpoints mappings with
  | none => ("lvm-lv", lv.uuid)
  | some path => ("block-path", path)

/-- A volume's id is made from its key. -/
theorem LvmLvEntry.nodeId_eq {endpoints : List UdevBlockEntry} {mappings : List DevmapperEntry}
    (lv : LvmLvEntry) : lv.nodeId endpoints mappings =
      stableNodeId (lv.key endpoints mappings).1 (lv.key endpoints mappings).2 := by
  rw [LvmLvEntry.nodeId, LvmLvEntry.key]
  cases lv.activePath endpoints mappings with
  | none => rfl
  | some path => exact blockNodeId.eq_1 path

/-- A path that was found belongs to an endpoint of the number. -/
theorem exists_of_pathOf {endpoints : List UdevBlockEntry} {devno : DeviceNumber} {path : String}
    (h : pathOf endpoints devno = some path) :
    ∃ endpoint ∈ endpoints, endpoint.devnode = path ∧ endpoint.major = devno.major ∧
      endpoint.minor = devno.minor := by
  obtain ⟨endpoint, hf, rfl⟩ := Option.map_eq_some_iff.mp h
  have hp := List.find?_some hf
  rw [Bool.and_eq_true, beq_iff_eq, beq_iff_eq] at hp
  exact ⟨endpoint, List.mem_reverse.mp (List.mem_of_find?_eq_some hf), rfl, hp⟩

namespace NativeRecords

variable {records : NativeRecords}

/-- The path of a device is one of the keys. -/
theorem blockPath_mem_keys {devno : DeviceNumber} {path : String}
    (h : pathOf records.endpoints devno = some path) :
    ("block-path", path) ∈ records.volumeKeys := by
  obtain ⟨endpoint, he, rfl, -⟩ := exists_of_pathOf h
  simp only [volumeKeys, List.mem_append, List.mem_flatMap]
  exact .inl (.inl (.inl (.inl (.inl (.inl ⟨endpoint, he, List.mem_cons_self⟩)))))

theorem lvKey_mem_keys {lv : LvmLvEntry} (h : lv ∈ records.lvm.lvs) :
    lv.key records.endpoints records.mappings ∈ records.volumeKeys := by
  unfold LvmLvEntry.key
  split
  · simp only [volumeKeys, List.mem_append, List.mem_map]
    exact .inr ⟨lv, h, rfl⟩
  next path hp =>
    obtain ⟨mapping, -, hm⟩ := Option.bind_eq_some_iff.mp hp
    exact blockPath_mem_keys hm

theorem vgKey_mem_keys {vg : LvmVgEntry} (h : vg ∈ records.lvm.vgs) :
    ("lvm-vg", vg.uuid) ∈ records.volumeKeys := by
  simp only [volumeKeys, List.mem_append, List.mem_map]
  exact .inl (.inl (.inr ⟨vg, h, rfl⟩))

theorem pvKey_mem_keys {pv : LvmPvEntry} (h : pv ∈ records.lvm.pvs) :
    ("content-path", pv.device) ∈ records.volumeKeys := by
  simp only [volumeKeys, List.mem_append, List.mem_map]
  exact .inl (.inr ⟨pv, h, rfl⟩)

/-- The key of a mapping is one of the keys. -/
theorem mappingKey_mem_keys {mapping : DevmapperEntry} (h : mapping ∈ records.mappings) :
    ("block-path", mapping.path records.endpoints) ∈ records.volumeKeys := by
  simp only [volumeKeys, List.mem_append, List.mem_map]
  exact .inl (.inl (.inl (.inr ⟨mapping, h, rfl⟩)))

theorem signatureKey_mem_keys {signature : BlkidEntry} (h : signature ∈ records.signatures) :
    ("content-path", signature.device) ∈ records.volumeKeys := by
  simp only [volumeKeys, List.mem_append, List.mem_flatMap]
  exact .inl (.inl (.inl (.inl (.inr ⟨signature, h, List.mem_cons_of_mem _ List.mem_cons_self⟩))))

theorem tableKeys_subset {table : FdiskTable} (h : table ∈ records.tables)
    {key : String × String}
    (hk : key ∈ ("partition-table-path", table.device) :: ("block-path", table.device) ::
      table.partitions.map fun partition =>
        ("block-path", partitionPath table.device partition.number)) :
    key ∈ records.volumeKeys := by
  simp only [volumeKeys, List.mem_append, List.mem_flatMap]
  exact .inl (.inl (.inl (.inl (.inl (.inr ⟨table, h, hk⟩)))))

/-! ### The node of a volume -/

namespace Consistent

variable {lv other : LvmLvEntry} {vg : LvmVgEntry}

/-- A volume is known by its UUID. -/
theorem lv_ext (hc : records.Consistent) (hlv : lv ∈ records.lvm.lvs)
    (hother : other ∈ records.lvm.lvs) (h : other.uuid = lv.uuid) : other = lv :=
  List.inj_on_of_nodup_map hc.lvUuids hother hlv h

/-- A volume sits on a block path only when its mapping is an endpoint there. -/
theorem activePath_eq (hc : records.Consistent) (hlv : lv ∈ records.lvm.lvs) {path : String}
    (hkey : ("block-path", path) ∈ records.volumeKeys)
    (h : blockNodeId path = lv.nodeId records.endpoints records.mappings) :
    lv.activePath records.endpoints records.mappings = some path := by
  rw [blockNodeId, LvmLvEntry.nodeId_eq] at h
  have hkeys := hc.separated _ hkey _ (lvKey_mem_keys hlv) h
  unfold LvmLvEntry.key at hkeys
  cases hp : lv.activePath records.endpoints records.mappings with
  | none =>
      rw [hp] at hkeys
      exact absurd (congrArg Prod.fst hkeys) (show "block-path" ≠ "lvm-lv" by decide)
  | some found =>
      rw [hp] at hkeys
      rw [(Prod.mk.inj hkeys).2]

/-- No content, table or group has the node of a volume. -/
theorem nodeId_ne (hc : records.Consistent) (hlv : lv ∈ records.lvm.lvs) {kind identity : String}
    (hkey : (kind, identity) ∈ records.volumeKeys) (hblock : kind ≠ "block-path")
    (hvolume : kind ≠ "lvm-lv") :
    stableNodeId kind identity ≠ lv.nodeId records.endpoints records.mappings := by
  intro h
  rw [LvmLvEntry.nodeId_eq] at h
  have hkeys := congrArg Prod.fst (hc.separated _ hkey _ (lvKey_mem_keys hlv) h)
  unfold LvmLvEntry.key at hkeys
  split at hkeys
  · exact hvolume hkeys
  · exact hblock hkeys

theorem vgNamed_eq (hc : records.Consistent) (hvg : vg ∈ records.lvm.vgs) :
    records.lvm.vgNamed vg.name = some vg := by
  unfold LvmEntry.vgNamed
  cases hf : records.lvm.vgs.reverse.find? (·.name == vg.name) with
  | none =>
      have hnone := List.find?_eq_none.mp hf vg (List.mem_reverse.mpr hvg)
      exact absurd (beq_self_eq_true vg.name) hnone
  | some found =>
      have hname : found.name = vg.name := by simpa using List.find?_some hf
      rw [List.inj_on_of_nodup_map hc.vgNames
        (List.mem_reverse.mp (List.mem_of_find?_eq_some hf)) hvg hname]

theorem hasVg (hc : records.Consistent) (hvg : vg ∈ records.lvm.vgs) :
    HasVg vg records.volumeGraph := by
  refine hasVg_lvmGraph hvg (fun other ho h => ?_) (fun pv hpv h => ?_) (fun lv hlv h => ?_)
  · exact (Prod.mk.inj (hc.separated _ (vgKey_mem_keys ho) _ (vgKey_mem_keys hvg) h)).2
  · have hkeys := hc.separated _ (vgKey_mem_keys hvg) _ (pvKey_mem_keys hpv) h
    exact absurd (congrArg Prod.fst hkeys) (show "lvm-vg" ≠ "content-path" by decide)
  · exact hc.nodeId_ne hlv (vgKey_mem_keys hvg) (by decide) (by decide) h

end Consistent

theorem volumeGraph_lvmNode (records : NativeRecords) :
    records.volumeGraph.Everywhere
      (LvmNode records.endpoints records.mappings records.lvm) :=
  lvmGraph_lvmNode records.mappedGraph_native

/-- A mapping links each device it depends on. -/
theorem exists_mappedGraph (records : NativeRecords) {mapping : DevmapperEntry}
    {devno : DeviceNumber} {path : String} (hm : mapping ∈ records.mappings)
    (hd : devno ∈ mapping.dependencies) (hp : pathOf records.endpoints devno = some path) :
    ∃ edge ∈ records.mappedGraph.dependencies,
      edge.target = blockNodeId (mapping.path records.endpoints) ∧
      edge.kind = mapping.edgeKind :=
  exists_enrichDevmapper hm hd hp

/-- The node of a volume carries its UUID. -/
theorem node_volumeGraph (records : NativeRecords) {lv : LvmLvEntry}
    (hlv : lv ∈ records.lvm.lvs) :
    ∃ node, records.volumeGraph.node (lv.nodeId records.endpoints records.mappings) = some node ∧
      .lvmLvUuid lv.uuid ∈ node.size.identities ∧
      ∃ named ∈ records.lvm.lvs, named.nodeId records.endpoints records.mappings =
          lv.nodeId records.endpoints records.mappings ∧
        node.kind.kind = .lvmLv ⟨named.name, lvmLvKind named.segmentType⟩ :=
  exists_lvNode hlv

namespace SoleProvider

variable {lv other : LvmLvEntry} {vg : LvmVgEntry}

/-- A volume with a sole provider shares its node with no other. -/
theorem eq_of_nodeId (hs : records.SoleProvider lv) (hc : records.Consistent)
    (hlv : lv ∈ records.lvm.lvs) (hother : other ∈ records.lvm.lvs)
    (h : other.nodeId records.endpoints records.mappings =
      lv.nodeId records.endpoints records.mappings) : other = lv := by
  cases hp : lv.activePath records.endpoints records.mappings with
  | some path =>
      have hnode : lv.nodeId records.endpoints records.mappings = blockNodeId path := by
        rw [LvmLvEntry.nodeId, hp]
      have hkey : ("block-path", path) ∈ records.volumeKeys := by
        have := lvKey_mem_keys hlv
        rwa [LvmLvEntry.key, hp] at this
      exact hs.unshared other hother path hp
        (hc.activePath_eq hother hkey (hnode.symm.trans h.symm))
  | none =>
      rw [LvmLvEntry.nodeId_eq, LvmLvEntry.nodeId_eq] at h
      have hkeys := hc.separated _ (lvKey_mem_keys hother) _ (lvKey_mem_keys hlv) h
      unfold LvmLvEntry.key at hkeys
      rw [hp] at hkeys
      split at hkeys
      · exact hc.lv_ext hlv hother (Prod.mk.inj hkeys).2
      · exact absurd (congrArg Prod.fst hkeys) (show "block-path" ≠ "lvm-lv" by decide)

/-- Then the group's edge is the only one into the volume. -/
theorem incoming (hs : records.SoleProvider lv) (hc : records.Consistent)
    (hlv : lv ∈ records.lvm.lvs) (hvg : vg ∈ records.lvm.vgs) (hname : vg.name = lv.vgName)
    {edge : Dependency} (he : edge ∈ records.volumeGraph.dependencies)
    (ht : edge.target = lv.nodeId records.endpoints records.mappings) :
    edge = ⟨vg.nodeId, lv.nodeId records.endpoints records.mappings, .provides⟩ := by
  rcases mem_lvmGraph.mp he with he | he
  · rcases enrichDevmapper_shows he with he | ⟨mapping, hm, devno, hd, path, hp, -, htarget, -⟩
    · exfalso
      rcases assemble_shows he with ⟨table, htable, hkind, rfl | ⟨partition, hpart, hn, rfl⟩⟩ |
        ⟨signature, hsig, rfl⟩
      · exact hc.nodeId_ne hlv (tableKeys_subset htable List.mem_cons_self) (by decide)
          (by decide) ht
      · have hkey : ("block-path", partitionPath table.device partition.number) ∈
            records.volumeKeys :=
          tableKeys_subset htable (List.mem_cons_of_mem _ (List.mem_cons_of_mem _
            (List.mem_map_of_mem hpart)))
        exact hs.unpartitioned _ (hc.activePath_eq hlv hkey ht) table htable hkind partition hpart
          hn rfl
      · exact hc.nodeId_ne hlv (signatureKey_mem_keys hsig) (by decide) (by decide) ht
    · have hactive := hc.activePath_eq hlv (mappingKey_mem_keys hm) (htarget.symm.trans ht)
      rw [hs.unbacked _ hactive mapping hm rfl devno hd] at hp
      cases hp
  · cases he with
    | member hpv hvg' =>
        rename_i pv group
        obtain ⟨name, -, hf⟩ := Option.bind_eq_some_iff.mp hvg'
        have hgroup := List.mem_reverse.mp (List.mem_of_find?_eq_some hf)
        exact absurd ht (hc.nodeId_ne hlv (vgKey_mem_keys hgroup) (by decide) (by decide))
    | volume hother hvg' =>
        cases hs.eq_of_nodeId hc hlv hother ht
        rw [← hname, hc.vgNamed_eq hvg] at hvg'
        cases hvg'
        rfl
    | pooled hother hnamed hpool =>
        rename_i other named pool
        have hmem := List.mem_reverse.mp (List.mem_of_find?_eq_some hnamed)
        cases hs.eq_of_nodeId hc hlv hmem ht
        have hkey := List.find?_some hnamed
        rw [Bool.and_eq_true, beq_iff_eq, beq_iff_eq] at hkey
        rw [← hkey.1, ← hkey.2] at hnamed
        rw [← hkey.1, hs.unpooled hnamed other hother hkey.1.symm hkey.2.symm] at hpool
        cases hpool

end SoleProvider

/-! ### The resolver and the observer -/

end NativeRecords

/-- A node whose identities of a variant are one identity. -/
theorem Node.countLike_eq_one {node : Node} {identity : ExternalId}
    (hm : identity ∈ node.size.identities)
    (hd : (node.size.identities.filter
      fun item => item.discriminant == identity.discriminant).Nodup) :
    node.countLike identity = 1 ↔ ∀ other ∈ node.size.identities,
      other.discriminant = identity.discriminant → other = identity := by
  have hin : identity ∈ node.size.identities.filter
      fun item => item.discriminant == identity.discriminant :=
    List.mem_filter.mpr ⟨hm, beq_self_eq_true _⟩
  rw [Node.countLike, List.countP_eq_length_filter]
  constructor
  · intro h other ho hdisc
    obtain ⟨x, hx⟩ := List.length_eq_one_iff.mp h
    have hother : other ∈ node.size.identities.filter
        fun item => item.discriminant == identity.discriminant :=
      List.mem_filter.mpr ⟨ho, beq_iff_eq.mpr hdisc⟩
    rw [hx, List.mem_singleton] at hin hother
    rw [hin, hother]
  · intro h
    have hsingle : node.size.identities.filter
        (fun item => item.discriminant == identity.discriminant) = [identity] := by
      refine List.perm_singleton.mp ((List.perm_ext_iff_of_nodup hd
        (List.nodup_singleton identity)).mpr fun other => ?_)
      rw [List.mem_filter, beq_iff_eq, List.mem_singleton]
      refine ⟨fun ho => h other ho.1 ho.2, fun ho => ?_⟩
      rw [ho]
      exact ⟨hm, rfl⟩
    rw [hsingle]
    rfl

namespace NativeRecords

variable {records : NativeRecords} {lv : LvmLvEntry} {vg : LvmVgEntry}

/-- The edge from the group is there in any case. -/
theorem Consistent.provided (hc : records.Consistent) (hlv : lv ∈ records.lvm.lvs)
    (hvg : vg ∈ records.lvm.vgs) (hname : vg.name = lv.vgName) :
    ⟨vg.nodeId, lv.nodeId records.endpoints records.mappings, .provides⟩ ∈
      records.volumeGraph.dependencies :=
  mem_lvmGraph.mpr (.inr (.volume hlv (hname ▸ hc.vgNamed_eq hvg)))

/-- The volume's UUID is carried by its node and no other. -/
theorem Consistent.carriers_lv (hc : records.Consistent) (hlv : lv ∈ records.lvm.lvs) {node : Node}
    (hnode : records.volumeGraph.node (lv.nodeId records.endpoints records.mappings) = some node)
    (hid : .lvmLvUuid lv.uuid ∈ node.size.identities) :
    records.volumeGraph.carriers (.lvmLvUuid lv.uuid) =
      [(lv.nodeId records.endpoints records.mappings, node)] := by
  refine NodeGraph.carriers_eq_singleton.mpr ⟨hnode, hid, fun other value hv hm => ?_⟩
  obtain ⟨found, hfound, huuid, rfl⟩ :=
    (records.volumeGraph_lvmNode other value hv).volume lv.uuid hm
  rw [hc.lv_ext hlv hfound huuid]

/-- One node carries the group's UUID. -/
theorem Consistent.carriers_vg (hc : records.Consistent) (hvg : vg ∈ records.lvm.vgs) :
    (records.volumeGraph.carriers (.lvmVgUuid vg.uuid)).length = 1 := by
  obtain ⟨node, hn, -, -, hids⟩ := hc.hasVg hvg
  have hone := NodeGraph.carriers_eq_singleton.mpr ⟨hn, hids ▸ List.mem_singleton_self _,
    fun other value hv hm => (records.volumeGraph_lvmNode other value hv).group vg.uuid hm⟩
  rw [hone]
  rfl

/-- A sole provider is found. -/
theorem Consistent.find_of_soleProvider (hc : records.Consistent) (hlv : lv ∈ records.lvm.lvs)
    (hvg : vg ∈ records.lvm.vgs) (hname : vg.name = lv.vgName) (hs : records.SoleProvider lv)
    {observed : LiveObservation} (hobs : observed.snapshot.graph = records.volumeGraph) :
    ∃ node, findLv observed lv.uuid vg.uuid =
        .ok (lv.nodeId records.endpoints records.mappings) ∧
      records.volumeGraph.node (lv.nodeId records.endpoints records.mappings) = some node ∧
      .lvmLvUuid lv.uuid ∈ node.size.identities ∧
      node.kind.kind = .lvmLv ⟨lv.name, lvmLvKind lv.segmentType⟩ := by
  obtain ⟨node, hnode, hid, named, hnamed, hshare, hkind⟩ :=
    records.node_volumeGraph hlv
  cases hs.eq_of_nodeId hc hlv hnamed hshare
  obtain ⟨group, hgroup, hisvg, hpres, hids⟩ := hc.hasVg hvg
  have hlvm := records.volumeGraph_lvmNode _ node hnode
  refine ⟨node, findLv_eq_ok.mpr ⟨hs.named, node, ?_, ?_, ?_, ?_, ?_⟩, hnode, hid, hkind⟩
  · rw [hobs]
    exact hc.carriers_lv hlv hnode hid
  · rcases hlvm.present with h | ⟨pv, hpv, h⟩
    · exact h
    · exact absurd h.symm (hc.nodeId_ne hlv (pvKey_mem_keys hpv) (by decide) (by decide))
  · rw [hkind]
    rfl
  · refine (Node.countLike_eq_one hid hlvm.once).mpr fun other ho hdisc => ?_
    cases other with
    | lvmLvUuid uuid =>
        obtain ⟨found, hfound, rfl, hshare'⟩ := hlvm.volume uuid ho
        rw [hs.eq_of_nodeId hc hlv hfound hshare']
    | _ => cases hdisc
  · refine ⟨⟨vg.nodeId, lv.nodeId records.endpoints records.mappings, .provides⟩, ?_, rfl, group, ?_,
      hisvg, hpres, ?_, ?_, ?_⟩
    · rw [hobs, Support.filter_eq_singleton records.volumeGraph.nodup_dependencies]
      refine ⟨hc.provided hlv hvg hname, beq_self_eq_true _, fun edge he ht => ?_⟩
      exact hs.incoming hc hlv hvg hname he (beq_iff_eq.mp ht)
    · rw [hobs]
      exact hgroup
    · rw [Node.countLike, hids]
      rfl
    · rw [hids]
      exact List.mem_singleton_self _
    · rw [hobs]
      exact hc.carriers_vg hvg

/-- What is found is the sole provider. -/
theorem Consistent.soleProvider_of_find (hc : records.Consistent) (hlv : lv ∈ records.lvm.lvs)
    (hvg : vg ∈ records.lvm.vgs) (hname : vg.name = lv.vgName) {observed : LiveObservation}
    (hobs : observed.snapshot.graph = records.volumeGraph) {id : NodeId}
    (h : findLv observed lv.uuid vg.uuid = .ok id) : records.SoleProvider lv := by
  obtain ⟨htext, node, hcar, -, -, hcount, parent, hparent, hkind, -⟩ := findLv_eq_ok.mp h
  rw [hobs] at hcar hparent
  obtain ⟨hnode, hid, -⟩ := NodeGraph.carriers_eq_singleton.mp hcar
  obtain ⟨found, hfound, huuid, rfl⟩ := (records.volumeGraph_lvmNode id node hnode).volume _ hid
  cases hc.lv_ext hlv hfound huuid
  rw [Support.filter_eq_singleton records.volumeGraph.nodup_dependencies] at hparent
  -- A search that answers has seen one edge into the volume, and the group's is one.
  have honly : ∀ edge ∈ records.volumeGraph.dependencies,
      edge.target = lv.nodeId records.endpoints records.mappings →
      edge = ⟨vg.nodeId, lv.nodeId records.endpoints records.mappings, .provides⟩ := by
    intro edge he ht
    rw [hparent.2.2 edge he (beq_iff_eq.mpr ht),
      hparent.2.2 _ (hc.provided hlv hvg hname) (beq_self_eq_true _)]
  have hat : ∀ {path}, lv.activePath records.endpoints records.mappings = some path →
      blockNodeId path = lv.nodeId records.endpoints records.mappings := by
    intro path hp
    rw [LvmLvEntry.nodeId, hp]
  refine ⟨htext, fun other hother path hp hp' => ?_, fun path hp mapping hm hpath devno hd => ?_,
    fun path hp table ht hk partition hpart hn hpath => ?_,
    fun hlast other hother hgroup hname' => ?_⟩
  · obtain ⟨shared, hshared, hid', -⟩ := records.node_volumeGraph hother
    have hsame : other.nodeId records.endpoints records.mappings =
        lv.nodeId records.endpoints records.mappings := by
      rw [← hat hp, LvmLvEntry.nodeId, hp']
    rw [hsame] at hshared
    cases hshared.symm.trans hnode
    have heq := (Node.countLike_eq_one hid (records.volumeGraph_lvmNode _ node hnode).once).mp
      hcount _ hid' rfl
    exact hc.lv_ext hlv hother (ExternalId.lvmLvUuid.inj heq)
  · cases hdev : pathOf records.endpoints devno with
    | none => rfl
    | some source =>
        obtain ⟨edge, he, ht, hk⟩ := records.exists_mappedGraph hm hd hdev
        rw [hpath, hat hp] at ht
        have hprovides := congrArg Dependency.kind (honly edge (mem_lvmGraph.mpr (.inl he)) ht)
        rw [hk, DevmapperEntry.edgeKind] at hprovides
        split at hprovides <;> cases hprovides
  · have hin : table.partitionEdge partition ∈ records.volumeGraph.dependencies :=
      mem_lvmGraph.mpr (.inl (subset_enrichDevmapper (mem_assemble_of_declares ht
        ⟨hk, .inr ⟨partition, hpart, hn, rfl⟩⟩)))
    rw [← hpath] at hp
    cases congrArg Dependency.kind (honly _ hin (hat hp))
  · cases hpool : other.pool.bind (records.lvm.lvNamed lv.vgName) with
    | none => rfl
    | some pool =>
        rw [← hgroup] at hpool
        rw [← hgroup, ← hname'] at hlast
        have hin : ⟨pool.nodeId records.endpoints records.mappings,
            lv.nodeId records.endpoints records.mappings, .provides⟩ ∈
              records.volumeGraph.dependencies :=
          mem_lvmGraph.mpr (.inr (.pooled hother hlast hpool))
        have hmem := List.mem_reverse.mp (List.mem_of_find?_eq_some
          (Option.bind_eq_some_iff.mp hpool).choose_spec.2)
        have hsource := congrArg Dependency.source (honly _ hin rfl)
        exact absurd hsource.symm (hc.nodeId_ne hmem (vgKey_mem_keys hvg) (by decide) (by decide))

end NativeRecords

/-- **The resolver finds a volume of consistent records exactly when nothing but its group leads to
the volume's node.**  The device-mapper pass draws an edge from every observed physical volume of
the group, so an active volume on observed devices is not found. -/
theorem find_lv_iff_soleProvider {records : NativeRecords} (hc : records.Consistent)
    {lv : LvmLvEntry} {vg : LvmVgEntry} (hlv : lv ∈ records.lvm.lvs)
    (hlinear : lvmLvKind lv.segmentType = .linear) (hvg : vg ∈ records.lvm.vgs)
    (hname : vg.name = lv.vgName) {observed : LiveObservation}
    (hobs : observed.snapshot.graph = records.volumeGraph) :
    (∃ id node, findLv observed lv.uuid vg.uuid = .ok id ∧
      observed.snapshot.graph.node id = some node ∧ .lvmLvUuid lv.uuid ∈ node.size.identities ∧
      node.kind.kind = .lvmLv ⟨lv.name, .linear⟩) ↔ records.SoleProvider lv := by
  constructor
  · rintro ⟨id, node, hfind, -⟩
    exact hc.soleProvider_of_find hlv hvg hname hobs hfind
  · intro hs
    obtain ⟨node, hfind, hnode, hid, hkind⟩ := hc.find_of_soleProvider hlv hvg hname hs hobs
    exact ⟨_, node, hfind, hobs ▸ hnode, hid, hlinear ▸ hkind⟩

/-- An active volume whose group has an observed physical volume is backed by it. -/
theorem NativeRecords.Maps.not_soleProvider {records : NativeRecords} {lv : LvmLvEntry}
    {vg : LvmVgEntry} {mapping : DevmapperEntry} (hm : records.Maps vg lv mapping)
    (hmap : lv.mappedBy mapping) {path : String}
    (hactive : pathOf records.endpoints mapping.devno = some path) {pv : LvmPvEntry}
    (hpv : pv ∈ records.lvm.pvs) (hgroup : pv.vgName = some vg.name) {endpoint : UdevBlockEntry}
    (he : endpoint ∈ records.endpoints)
    (hdevice : PathBuf.ofString endpoint.devnode = PathBuf.ofString pv.device) :
    ¬records.SoleProvider lv := by
  intro hs
  have hfind : records.mappings.find? lv.mappedBy = some mapping := by
    cases hf : records.mappings.find? lv.mappedBy with
    | none => exact absurd hmap (List.find?_eq_none.mp hf mapping hm.listed)
    | some found =>
        rw [hm.unique found (List.mem_of_find?_eq_some hf) (List.find?_some hf)]
  have hpath : lv.activePath records.endpoints records.mappings = some path := by
    rw [LvmLvEntry.activePath, hfind]
    exact hactive
  have hdep : (⟨endpoint.major, endpoint.minor⟩ : DeviceNumber) ∈ mapping.dependencies :=
    (hm.members _).mpr ⟨pv, hpv, hgroup, endpoint, he, hdevice, rfl⟩
  have hnone := hs.unbacked path hpath mapping hm.listed (by rw [DevmapperEntry.path, hactive]; rfl)
    _ hdep
  have hfound := List.find?_eq_none.mp (Option.map_eq_none_iff.mp hnone) endpoint
    (List.mem_reverse.mpr he)
  simp at hfound

/-! ### One volume before and after udev reports its device -/

/-- The disk of the volume group. -/
def probedDisk : UdevBlockEntry where
  devnode := "/dev/vdb"
  sysname := "vdb"
  devtype := some "disk"
  major := 252
  minor := 16
  sizeSectors := some 2097152

/-- The mapped device of the volume. -/
def probedMapper : UdevBlockEntry where
  devnode := "/dev/dm-0"
  sysname := "dm-0"
  devtype := some "disk"
  major := 253
  minor := 0

/-- The volume group. -/
def probedVg : LvmVgEntry where
  name := "data"
  uuid := "vgA000-0000-0000-0000-0000-0000-00000A"

/-- A linear volume of the group. -/
def probedLv : LvmLvEntry where
  name := "home"
  vgName := "data"
  uuid := "lvB000-0000-0000-0000-0000-0000-00000B"
  segmentType := some "linear"

/-- The volume's entry in the device mapper. -/
def probedMapping : DevmapperEntry where
  name := "data-home"
  uuid := some "LVM-vgA0000000000000000000000000000AlvB0000000000000000000000000000B"
  devno := ⟨253, 0⟩
  targets := ["linear"]
  dependencies := [⟨252, 16⟩]

/-- One group on `/dev/vdb` with one linear volume; `settled` says whether udev has reported the
volume's own device. -/
def probedRecords (settled : Bool) : NativeRecords where
  endpoints := probedDisk :: if settled then [probedMapper] else []
  mappings := [probedMapping]
  lvm :=
    { pvs := [{ device := "/dev/vdb", uuid := "pvC000-0000-0000-0000-0000-0000-00000C",
                vgName := some "data" }]
      vgs := [probedVg]
      lvs := [probedLv] }

/-- The graph that the records of the volume give. -/
def probedVolumes (settled : Bool) : LiveObservation where
  reference := ⟨1, 1⟩
  snapshot := ⟨(probedRecords settled).volumeGraph, [], {}, []⟩

/-- The mapping is that of the volume. -/
theorem probedMapping_maps (settled : Bool) :
    (probedRecords settled).Maps probedVg probedLv probedMapping where
  listed := List.mem_singleton_self _
  unique := fun other h _ => List.mem_singleton.mp h
  named := ⟨_, rfl, by decide +kernel, by decide +kernel⟩
  members := by
    intro devno
    constructor
    · intro h
      cases List.mem_singleton.mp h
      exact ⟨_, List.mem_singleton_self _, rfl, probedDisk, List.mem_cons_self, rfl, rfl⟩
    · rintro ⟨pv, hpv, -, endpoint, he, hdevice, rfl⟩
      cases List.mem_singleton.mp hpv
      cases settled with
      | false =>
          cases List.mem_singleton.mp he
          exact List.mem_singleton_self _
      | true =>
          rcases List.mem_cons.mp he with rfl | he
          · exact List.mem_singleton_self _
          · cases List.mem_singleton.mp he
            exact absurd hdevice (by decide +kernel)

theorem probedRecords_consistent (settled : Bool) : (probedRecords settled).Consistent where
  paths := by cases settled <;> decide +kernel
  numbers := by cases settled <;> decide +kernel
  mappingNumbers := List.nodup_singleton _
  vgUuids := List.nodup_singleton _
  pvUuids := List.nodup_singleton _
  lvUuids := List.nodup_singleton _
  vgNames := List.nodup_singleton _
  groups := by
    intro lv hlv
    cases List.mem_singleton.mp hlv
    exact ⟨probedVg, List.mem_singleton_self _, rfl⟩
  mapped := by
    intro lv hlv _ vg hvg _
    cases List.mem_singleton.mp hlv
    cases List.mem_singleton.mp hvg
    exact ⟨probedMapping, probedMapping_maps settled⟩
  separated := by
    unfold NativeRecords.Separated
    cases settled <;> decide +kernel

theorem probedRecords_soleProvider : (probedRecords false).SoleProvider probedLv := by
  have hinactive : probedLv.activePath (probedRecords false).endpoints
      (probedRecords false).mappings = none := by decide +kernel
  refine ⟨by decide +kernel, fun _ _ path hp => ?_, fun path hp => ?_, fun path hp => ?_,
    fun _ other ho _ _ => ?_⟩
  · cases hinactive.symm.trans hp
  · cases hinactive.symm.trans hp
  · cases hinactive.symm.trans hp
  · cases List.mem_singleton.mp ho
    rfl

/-- While udev has not reported the device, the volume is found. -/
theorem sample_volume_found :
    ∃ id node, findLv (probedVolumes false) probedLv.uuid probedVg.uuid = .ok id ∧
      (probedVolumes false).snapshot.graph.node id = some node ∧
      .lvmLvUuid probedLv.uuid ∈ node.size.identities ∧
      node.kind.kind = .lvmLv ⟨probedLv.name, .linear⟩ := by
  have hlinear : lvmLvKind probedLv.segmentType = .linear := by decide +kernel
  have hobs : (probedVolumes false).snapshot.graph = (probedRecords false).volumeGraph := by
    rw [probedVolumes]
  exact (find_lv_iff_soleProvider (probedRecords_consistent false)
    (List.mem_singleton_self probedLv) hlinear (List.mem_singleton_self probedVg) rfl hobs).mpr
    probedRecords_soleProvider

/-- Once it has, the records are as consistent as before and the volume is lost: the edge from
`/dev/vdb` comes beside the one from the group. -/
theorem active_volume_not_found :
    (probedRecords true).Consistent ∧ probedLv ∈ (probedRecords true).lvm.lvs ∧
      lvmLvKind probedLv.segmentType = .linear ∧ probedVg ∈ (probedRecords true).lvm.vgs ∧
      probedVg.name = probedLv.vgName ∧
      findLv (probedVolumes true) probedLv.uuid probedVg.uuid = .error .identity :=
  ⟨probedRecords_consistent true, List.mem_singleton_self _, by decide +kernel,
    List.mem_singleton_self _, rfl, by decide +kernel⟩

end DisksGraph
