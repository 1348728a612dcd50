import DisksGraph.Model.Reorder
import DisksGraph.Probe.Content
import DisksGraph.Probe.Membership

/-!
# Probe — Order

When the last passes of a probe give one result, whatever the order of the hash tables (`linux.rs`).

A search takes the first match, so its result can be any match.  Nothing the passes write changes
what matches: `Searches` is kept by every step, and all searches can be told from the graph before.

* `Behind`, `Leads`: the nodes that can be taken for a Btrfs filesystem.
* `Possible`, `Certain`: the memberships that some order, and that every order inserts.
* `enrichContent_same_iff`: the passes are a function of the records exactly when what is possible
  is certain and all that a mount can resolve to is one source.
-/

namespace DisksGraph

open Support (Iteration)

section Searches

variable {base graph : NodeGraph} {path : PathBuf} {id other : NodeId} {edge : Dependency}
  {filesystem : BtrfsFilesystemEntry} {order : HashOrder}

/-! ### What can be found -/

/-- The node is on a block path. -/
def NodeGraph.OnPath (graph : NodeGraph) (path : PathBuf) (id : NodeId) : Prop :=
  ∃ node, graph.node id = some node ∧ node.onPath path = true

theorem onPath_iff_mem : graph.OnPath path id ↔
    id ∈ (graph.nodeList.filter (·.2.onPath path)).map (·.1) := by
  simp only [NodeGraph.OnPath, List.mem_map, List.mem_filter, Prod.exists, NodeGraph.mem_nodeList]
  constructor
  · rintro ⟨node, hnode, hpath⟩
    exact ⟨id, node, ⟨hnode, hpath⟩, rfl⟩
  · rintro ⟨found, node, ⟨hnode, hpath⟩, rfl⟩
    exact ⟨node, hnode, hpath⟩

/-- The node is a Btrfs filesystem. -/
def NodeGraph.IsBtrfs (graph : NodeGraph) (id : NodeId) : Prop :=
  ∃ node, graph.node id = some node ∧ node.kind.kind.isBtrfs = true

/-- Btrfs content on one of the devices of the filesystem. -/
def Behind (graph : NodeGraph) (filesystem : BtrfsFilesystemEntry) (id : NodeId) : Prop :=
  ∃ edge ∈ graph.dependencies, edge.kind = .backs ∧ edge.target = id ∧
    (∃ device ∈ filesystem.devices, graph.OnPath (PathBuf.ofString device.path) edge.source) ∧
    graph.IsBtrfs id

/-- A node that some order takes for the filesystem. -/
def Leads (graph : NodeGraph) (filesystem : BtrfsFilesystemEntry) (id : NodeId) : Prop :=
  Behind graph filesystem id ∨
    id = contentNodeId filesystem.seedDevice ∧ ∀ other, ¬Behind graph filesystem other

/-- The edge leads from a device of the filesystem to a Btrfs node. -/
theorem contentOf_eq_some : filesystem.contentOf graph edge = some id ↔
    edge.kind = .backs ∧ edge.target = id ∧
      (∃ device ∈ filesystem.devices,
        graph.OnPath (PathBuf.ofString device.path) edge.source) ∧ graph.IsBtrfs id := by
  rw [BtrfsFilesystemEntry.contentOf]
  by_cases hkind : edge.kind = .backs
  · rw [if_neg (not_not_intro hkind)]
    constructor
    · intro h
      obtain ⟨backing, hbacking, h⟩ := Option.bind_eq_some_iff.mp h
      obtain ⟨content, hcontent, h⟩ := Option.bind_eq_some_iff.mp h
      split at h
      next hboth =>
        obtain rfl := Option.some.inj h
        obtain ⟨hmember, hbtrfs⟩ := Bool.and_eq_true_iff.mp hboth
        obtain ⟨device, hdevice, hpath⟩ := List.any_eq_true.mp hmember
        exact ⟨hkind, rfl, ⟨device, hdevice, backing, hbacking, hpath⟩, content, hcontent, hbtrfs⟩
      · cases h
    · rintro ⟨-, rfl, ⟨device, hdevice, backing, hbacking, hpath⟩, content, hcontent, hbtrfs⟩
      simp only [hbacking, hcontent, Option.bind_eq_bind, Option.bind_some]
      rw [if_pos]
      exact Bool.and_eq_true_iff.mpr ⟨List.any_eq_true.mpr ⟨device, hdevice, hpath⟩, hbtrfs⟩
  · rw [if_pos hkind]
    exact ⟨nofun, fun h => absurd h.1 hkind⟩

theorem behind_iff : Behind graph filesystem id ↔
    ∃ edge ∈ graph.dependencies, filesystem.contentOf graph edge = some id := by
  simp only [Behind, contentOf_eq_some]

/-- Every order takes a node that can be taken. -/
theorem leads_nodeId : Leads graph filesystem (filesystem.nodeId order graph) := by
  rw [BtrfsFilesystemEntry.nodeId]
  cases h : order.dependencies.findMap (filesystem.contentOf graph) graph.dependencies with
  | none =>
      refine .inr ⟨rfl, fun other hother => ?_⟩
      obtain ⟨edge, hedge, hcontent⟩ := behind_iff.mp hother
      rw [order.dependencies.findMap_eq_none.mp h edge hedge] at hcontent
      cases hcontent
  | some found => exact .inl (behind_iff.mpr (order.dependencies.exists_of_findMap h))

theorem onPath_of_nodeAt (h : graph.nodeAt order path = some id) : graph.OnPath path id := by
  obtain ⟨⟨found, node⟩, hmem, hfound⟩ := order.nodes.exists_of_findMap h
  split at hfound
  next hpath =>
    cases hfound
    exact ⟨node, NodeGraph.mem_nodeList.mp hmem, hpath⟩
  · cases hfound

theorem nodeAt_eq_none : graph.nodeAt order path = none ↔ ∀ id, ¬graph.OnPath path id := by
  rw [NodeGraph.nodeAt, Iteration.findMap_eq_none]
  constructor
  · rintro h id ⟨node, hnode, hpath⟩
    have hnone := h (id, node) (NodeGraph.mem_nodeList.mpr hnode)
    simp [hpath] at hnone
  · rintro h ⟨id, node⟩ hmem
    have hnot : ¬node.onPath path = true := fun hpath =>
      h id ⟨node, NodeGraph.mem_nodeList.mp hmem, hpath⟩
    simp [hnot]

/-! ### Orders that prefer a node -/

/-- The order that meets a node, and the edges into a node, before the others. -/
def preferring (member content : NodeId) : HashOrder where
  nodes := .first fun entry => entry.1 == member
  dependencies := .first fun edge => edge.target == content

/-- The order that meets them after the others. -/
def avoiding (member content : NodeId) : HashOrder where
  nodes := .first fun entry => !(entry.1 == member)
  dependencies := .first fun edge => !(edge.target == content)

theorem nodeAt_preferring {content : NodeId} (h : graph.OnPath path id) :
    graph.nodeAt (preferring id content) path = some id := by
  obtain ⟨node, hnode, hpath⟩ := h
  refine Iteration.findMap_first (a := (id, node)) (NodeGraph.mem_nodeList.mpr hnode) (by simp)
    (by simp [hpath]) ?_
  rintro ⟨found, value⟩ - hfound b hb
  split at hb
  · cases hb
    simpa using hfound
  · cases hb

/-- An order that avoids a node finds it only if no other is on the path. -/
theorem nodeAt_avoiding {content : NodeId} (h : graph.nodeAt (avoiding id content) path = some id) :
    graph.OnPath path other → other = id := by
  rintro ⟨node, hnode, hpath⟩
  by_contra hne
  have hnone := Iteration.findMap_last h (fun entry _ hentry => ?_) (other, node)
    (NodeGraph.mem_nodeList.mpr hnode) (by simp [hne])
  · simp [hpath] at hnone
  · split
    · intro hsame
      simp [Option.some.inj hsame] at hentry
    · exact nofun

theorem nodeId_preferring {member : NodeId} (h : Leads graph filesystem id) :
    filesystem.nodeId (preferring member id) graph = id := by
  rcases h with hbehind | ⟨rfl, hnone⟩
  · obtain ⟨edge, hedge, hcontent⟩ := behind_iff.mp hbehind
    have hfound : (preferring member id).dependencies.findMap (filesystem.contentOf graph)
        graph.dependencies = some id := by
      refine Iteration.findMap_first hedge ?_ hcontent fun other _ hother found hfound => ?_
      · simpa using (contentOf_eq_some.mp hcontent).2.1
      · rw [← (contentOf_eq_some.mp hfound).2.1]
        simpa using hother
    rw [BtrfsFilesystemEntry.nodeId, hfound, Option.getD_some]
  · rcases @leads_nodeId graph filesystem (preferring member (contentNodeId filesystem.seedDevice))
      with hbehind | ⟨hdefault, -⟩
    · exact absurd hbehind (hnone _)
    · exact hdefault

/-- An order that avoids a node leads to it only if there is no other. -/
theorem nodeId_avoiding {member : NodeId} (h : filesystem.nodeId (avoiding member id) graph = id)
    (hother : Leads graph filesystem other) : other = id := by
  rcases hother with hbehind | ⟨rfl, hnone⟩
  · by_contra hne
    obtain ⟨edge, hedge, hcontent⟩ := behind_iff.mp hbehind
    obtain ⟨found, hfound⟩ :=
      (avoiding member id).dependencies.exists_findMap hedge hcontent
    rw [BtrfsFilesystemEntry.nodeId, hfound, Option.getD_some] at h
    subst h
    have hnone := Iteration.findMap_last hfound (fun edge' _ hedge' hsame => ?_) edge hedge ?_
    · rw [hcontent] at hnone
      cases hnone
    · simp [(contentOf_eq_some.mp hsame).2.1] at hedge'
    · simp [(contentOf_eq_some.mp hcontent).2.1, hne]
  · rcases @leads_nodeId graph filesystem (avoiding member id) with hbehind | ⟨hdefault, -⟩
    · exact absurd hbehind (hnone _)
    · rw [← hdefault, h]

/-! ### The passes do not change what is found -/

/-- The two graphs answer every search alike. -/
structure Searches (base graph : NodeGraph) : Prop where
  contains : ∀ id, graph.contains id = base.contains id
  onPath : ∀ path id, graph.OnPath path id ↔ base.OnPath path id
  isBtrfs : ∀ id, graph.IsBtrfs id ↔ base.IsBtrfs id
  backs : ∀ edge : Dependency, edge.kind = .backs →
    (edge ∈ graph.dependencies ↔ edge ∈ base.dependencies)

theorem Searches.refl (base : NodeGraph) : Searches base base :=
  ⟨fun _ => rfl, fun _ _ => Iff.rfl, fun _ => Iff.rfl, fun _ _ => Iff.rfl⟩

theorem Searches.behind (h : Searches base graph) :
    Behind graph filesystem id ↔ Behind base filesystem id := by
  rw [Behind, Behind]
  refine exists_congr fun edge => ?_
  constructor
  · rintro ⟨hedge, hkind, htarget, ⟨device, hdevice, hpath⟩, hbtrfs⟩
    exact ⟨(h.backs edge hkind).mp hedge, hkind, htarget,
      ⟨device, hdevice, (h.onPath _ _).mp hpath⟩, (h.isBtrfs id).mp hbtrfs⟩
  · rintro ⟨hedge, hkind, htarget, ⟨device, hdevice, hpath⟩, hbtrfs⟩
    exact ⟨(h.backs edge hkind).mpr hedge, hkind, htarget,
      ⟨device, hdevice, (h.onPath _ _).mpr hpath⟩, (h.isBtrfs id).mpr hbtrfs⟩

theorem Searches.leads (h : Searches base graph) :
    Leads graph filesystem id ↔ Leads base filesystem id := by
  simp only [Leads, h.behind]

/-- An edge of another kind changes no answer. -/
theorem Searches.insertDependency (h : Searches base graph) (hkind : edge.kind ≠ .backs) :
    Searches base (graph.insertDependency edge) where
  contains := h.contains
  onPath := h.onPath
  isBtrfs := h.isBtrfs
  backs other hother := by
    rw [NodeGraph.mem_insertDependency, h.backs other hother]
    constructor
    · rintro (rfl | hmem)
      · exact absurd hother hkind
      · exact hmem
    · exact .inr

/-- Neither does a node that is replaced by one with the same paths and the same kind. -/
theorem Searches.setNode (h : Searches base graph) {node value : Node}
    (hnode : graph.node id = some node) (hpaths : value.size.block = node.size.block)
    (hbtrfs : value.kind.kind.isBtrfs = node.kind.kind.isBtrfs) :
    Searches base (graph.setNode id value) where
  contains other := by
    rw [← h.contains, NodeGraph.contains, NodeGraph.contains, NodeGraph.node_setNode]
    split
    next hsame => rw [hsame, hnode, Option.isSome_some, Option.isSome_some]
    · rfl
  onPath path other := by
    rw [← h.onPath, NodeGraph.OnPath, NodeGraph.OnPath, NodeGraph.node_setNode]
    split
    next hsame =>
      rw [hsame, hnode]
      simp [Node.onPath, hpaths]
    · rfl
  isBtrfs other := by
    rw [← h.isBtrfs, NodeGraph.IsBtrfs, NodeGraph.IsBtrfs, NodeGraph.node_setNode]
    split
    next hsame =>
      rw [hsame, hnode]
      simp [hbtrfs]
    · rfl
  backs := h.backs

theorem isBtrfs_describe (node : Node) :
    (filesystem.describe node).kind.kind.isBtrfs = node.kind.kind.isBtrfs := by
  rw [BtrfsFilesystemEntry.describe]
  cases hkind : node.kind.kind with
  | filesystem kind label => cases kind <;> rfl
  | _ => rfl

theorem Searches.nameFilesystem (h : Searches base graph) :
    Searches base (DisksGraph.nameFilesystem graph id filesystem) := by
  rw [DisksGraph.nameFilesystem]
  cases hnode : graph.node id with
  | none => exact h
  | some node =>
      simp only [NodeGraph.upsertObservation_eq]
      exact h.setNode hnode rfl (isBtrfs_describe node)

/-- The membership of a device, on a node and in a filesystem. -/
def BtrfsDeviceEntry.memberEdge (device : BtrfsDeviceEntry) (member filesystem : NodeId) :
    Dependency :=
  ⟨member, filesystem, .memberOf (.btrfs ⟨NonZero.new 64 device.id⟩)⟩

/-- Joining a device changes nothing the searches see. -/
theorem Searches.insertBtrfsMember (h : Searches base graph) (device : BtrfsDeviceEntry) :
    Searches base (DisksGraph.insertBtrfsMember order id graph device) := by
  rw [DisksGraph.insertBtrfsMember]
  cases graph.nodeAt order (PathBuf.ofString device.path) with
  | none => exact h
  | some member => exact h.insertDependency (by simp)

theorem node_insertBtrfsMember (device : BtrfsDeviceEntry) :
    (insertBtrfsMember order id graph device).node other = graph.node other := by
  rw [insertBtrfsMember]
  cases graph.nodeAt order (PathBuf.ofString device.path) <;> rfl

/-- A device adds the edge to its filesystem. -/
theorem mem_insertBtrfsMember {device : BtrfsDeviceEntry} :
    edge ∈ (insertBtrfsMember order id graph device).dependencies ↔ edge ∈ graph.dependencies ∨
      ∃ member, graph.nodeAt order (PathBuf.ofString device.path) = some member ∧
        edge = device.memberEdge member id := by
  rw [insertBtrfsMember]
  cases graph.nodeAt order (PathBuf.ofString device.path) with
  | none => simp
  | some member => simp [BtrfsDeviceEntry.memberEdge, or_comm]

/-- A filesystem changes nothing the searches see. -/
theorem Searches.enrichBtrfsFilesystem (h : Searches base graph) :
    Searches base (DisksGraph.enrichBtrfsFilesystem order graph filesystem) :=
  List.foldlRecOn (motive := Searches base) filesystem.devices _ h.nameFilesystem
    fun _ hg device _ => hg.insertBtrfsMember device

/-- The filesystems change nothing the searches see. -/
theorem Searches.enrichBtrfsFilesystems (h : Searches base graph)
    (filesystems : List BtrfsFilesystemEntry) :
    Searches base (DisksGraph.enrichBtrfsFilesystems order graph filesystems) :=
  List.foldlRecOn (motive := Searches base) filesystems _ h
    fun _ hg _ _ => hg.enrichBtrfsFilesystem

/-! ### The memberships that are inserted -/

theorem mem_foldl_insertBtrfsMember {devices : List BtrfsDeviceEntry} :
    edge ∈ (devices.foldl (insertBtrfsMember order id) graph).dependencies ↔
      edge ∈ graph.dependencies ∨ ∃ device ∈ devices, ∃ member,
        graph.nodeAt order (PathBuf.ofString device.path) = some member ∧
          edge = device.memberEdge member id := by
  induction devices generalizing graph with
  | nil => simp
  | cons device rest ih =>
      -- The insertion of an edge leaves the table of nodes, and so the order it is met in.
      have hnodes : ∀ path, (insertBtrfsMember order id graph device).nodeAt order path =
          graph.nodeAt order path := by
        intro path
        rw [insertBtrfsMember]
        cases graph.nodeAt order (PathBuf.ofString device.path) <;> rfl
      rw [List.foldl_cons, ih, mem_insertBtrfsMember]
      simp only [hnodes, List.exists_mem_cons_iff, or_assoc]

/-- The edges after a filesystem. -/
theorem mem_enrichBtrfsFilesystem :
    edge ∈ (enrichBtrfsFilesystem order graph filesystem).dependencies ↔
      edge ∈ graph.dependencies ∨ ∃ device ∈ filesystem.devices, ∃ member,
        (nameFilesystem graph (filesystem.nodeId order graph) filesystem).nodeAt order
            (PathBuf.ofString device.path) = some member ∧
          edge = device.memberEdge member (filesystem.nodeId order graph) := by
  have hname : (nameFilesystem graph (filesystem.nodeId order graph) filesystem).dependencies =
      graph.dependencies := by
    rw [nameFilesystem]
    cases graph.node (filesystem.nodeId order graph) with
    | none => rfl
    | some node => simp
  rw [enrichBtrfsFilesystem, mem_foldl_insertBtrfsMember, hname]

variable {filesystems : List BtrfsFilesystemEntry}

/-- What holds of every edge that a step can insert holds of every edge that is inserted. -/
theorem inserted_of_mem {P : Dependency → Prop}
    (hstep : ∀ filesystem ∈ filesystems, ∀ device ∈ filesystem.devices, ∀ g g' member,
      Searches base g → Searches base g' →
      g'.nodeAt order (PathBuf.ofString device.path) = some member →
      P (device.memberEdge member (filesystem.nodeId order g)))
    (hsearches : Searches base graph)
    (h : edge ∈ (enrichBtrfsFilesystems order graph filesystems).dependencies) :
    edge ∈ graph.dependencies ∨ P edge := by
  induction filesystems generalizing graph with
  | nil => exact .inl h
  | cons filesystem rest ih =>
      obtain ⟨hfirst, hrest⟩ := List.forall_mem_cons.mp hstep
      rcases ih hrest hsearches.enrichBtrfsFilesystem h with hmem | hP
      · rcases mem_enrichBtrfsFilesystem.mp hmem with hold | ⟨device, hdevice, member, hmember, rfl⟩
        · exact .inl hold
        · exact .inr (hfirst device hdevice graph _ member hsearches hsearches.nameFilesystem hmember)
      · exact .inr hP

theorem mem_of_mem_graph (h : edge ∈ graph.dependencies) :
    edge ∈ (enrichBtrfsFilesystems order graph filesystems).dependencies :=
  List.foldlRecOn (motive := fun g : NodeGraph => edge ∈ g.dependencies) filesystems _ h
    fun _ hg _ _ => mem_enrichBtrfsFilesystem.mpr (.inl hg)

/-- An edge that a step cannot avoid is inserted. -/
theorem mem_of_inserted {device : BtrfsDeviceEntry} (hfilesystem : filesystem ∈ filesystems)
    (hdevice : device ∈ filesystem.devices)
    (hstep : ∀ g g', Searches base g → Searches base g' →
      ∃ member, g'.nodeAt order (PathBuf.ofString device.path) = some member ∧
        edge = device.memberEdge member (filesystem.nodeId order g))
    (hsearches : Searches base graph) :
    edge ∈ (enrichBtrfsFilesystems order graph filesystems).dependencies := by
  induction filesystems generalizing graph with
  | nil => cases hfilesystem
  | cons first rest ih =>
      rcases List.mem_cons.mp hfilesystem with rfl | hrest
      · obtain ⟨member, hmember, hedge⟩ := hstep graph _ hsearches hsearches.nameFilesystem
        have hmem := mem_enrichBtrfsFilesystem.mpr (.inr ⟨device, hdevice, member, hmember, hedge⟩)
        have hlast := @mem_of_mem_graph _ _ order rest hmem
        exact hlast
      · exact ih hrest hsearches.enrichBtrfsFilesystem

/-- Some order inserts the edge. -/
def Possible (base : NodeGraph) (filesystems : List BtrfsFilesystemEntry) (edge : Dependency) :
    Prop :=
  ∃ filesystem ∈ filesystems, ∃ device ∈ filesystem.devices,
    base.OnPath (PathBuf.ofString device.path) edge.source ∧ Leads base filesystem edge.target ∧
      edge = device.memberEdge edge.source edge.target

/-- Every order inserts the edge: its device has no other node, and its filesystem no other. -/
def Certain (base : NodeGraph) (filesystems : List BtrfsFilesystemEntry) (edge : Dependency) :
    Prop :=
  ∃ filesystem ∈ filesystems, ∃ device ∈ filesystem.devices,
    (∀ id, base.OnPath (PathBuf.ofString device.path) id ↔ id = edge.source) ∧
      (∀ id, Leads base filesystem id ↔ id = edge.target) ∧
      edge = device.memberEdge edge.source edge.target

/-- A new edge is a possible one. -/
theorem possible_of_mem (hsearches : Searches base graph)
    (h : edge ∈ (enrichBtrfsFilesystems order graph filesystems).dependencies) :
    edge ∈ graph.dependencies ∨ Possible base filesystems edge := by
  refine inserted_of_mem
    (fun filesystem hfilesystem device hdevice g g' member hg hg' hmember => ?_)
    hsearches h
  exact ⟨filesystem, hfilesystem, device, hdevice, (hg'.onPath _ _).mp (onPath_of_nodeAt hmember),
    hg.leads.mp leads_nodeId, rfl⟩

/-- A certain edge is there in every order. -/
theorem mem_of_certain (hsearches : Searches base graph) (h : Certain base filesystems edge) :
    edge ∈ (enrichBtrfsFilesystems order graph filesystems).dependencies := by
  obtain ⟨filesystem, hfilesystem, device, hdevice, hpath, hleads, hedge⟩ := h
  refine mem_of_inserted hfilesystem hdevice (fun g g' hg hg' => ?_) hsearches
  have htarget : filesystem.nodeId order g = edge.target :=
    (hleads _).mp (hg.leads.mp leads_nodeId)
  cases hmember : g'.nodeAt order (PathBuf.ofString device.path) with
  | none =>
      have hsource := (hg'.onPath _ _).mpr ((hpath edge.source).mpr rfl)
      exact absurd hsource (nodeAt_eq_none.mp hmember edge.source)
  | some member =>
      have hsource := (hpath member).mp ((hg'.onPath _ _).mp (onPath_of_nodeAt hmember))
      exact ⟨member, rfl, by rw [hsource, htarget, ← hedge]⟩

/-- The order that prefers the ends of a possible edge inserts it. -/
theorem mem_preferring (hsearches : Searches base graph) (h : Possible base filesystems edge) :
    edge ∈ (enrichBtrfsFilesystems (preferring edge.source edge.target) graph
      filesystems).dependencies := by
  obtain ⟨filesystem, hfilesystem, device, hdevice, hpath, hleads, hedge⟩ := h
  refine mem_of_inserted hfilesystem hdevice (fun g g' hg hg' => ?_) hsearches
  exact ⟨edge.source, nodeAt_preferring ((hg'.onPath _ _).mpr hpath),
    by rw [nodeId_preferring (hg.leads.mpr hleads), ← hedge]⟩

/-- The order that avoids them inserts it only when it is certain. -/
theorem certain_of_avoiding (hsearches : Searches base graph)
    (h : edge ∈ (enrichBtrfsFilesystems (avoiding edge.source edge.target) graph
      filesystems).dependencies) :
    edge ∈ graph.dependencies ∨ Certain base filesystems edge := by
  have hcases := inserted_of_mem (P := fun other => other = edge → Certain base filesystems edge)
    (fun filesystem hfilesystem device hdevice g g' member hg hg' hmember hsame => ?_) hsearches h
  · exact hcases.imp_right fun hcertain => hcertain rfl
  · have hsource : member = edge.source := by rw [← hsame]; rfl
    have htarget : filesystem.nodeId (avoiding edge.source edge.target) g = edge.target := by
      conv_rhs => rw [← hsame]
      rfl
    rw [hsource] at hmember hsame
    rw [htarget] at hsame
    refine ⟨filesystem, hfilesystem, device, hdevice, fun id => ⟨fun hid => ?_, ?_⟩,
      fun id => ⟨fun hid => nodeId_avoiding htarget (hg.leads.mpr hid), ?_⟩, hsame.symm⟩
    · exact nodeAt_avoiding hmember ((hg'.onPath _ _).mpr hid)
    · rintro rfl
      exact (hg'.onPath _ _).mp (onPath_of_nodeAt hmember)
    · rintro rfl
      rw [← htarget]
      exact hg.leads.mp leads_nodeId

/-- Where all possible memberships are certain, no filesystem has two nodes to choose from. -/
theorem leads_unique (h : ∀ edge, Possible base filesystems edge → Certain base filesystems edge)
    (hfilesystem : filesystem ∈ filesystems) (hid : Leads base filesystem id)
    (hother : Leads base filesystem other) : id = other := by
  rcases hid with hbehind | ⟨rfl, hnone⟩
  · rcases hother with hother | ⟨rfl, hnone⟩
    · -- The device that backs the one content would be a member of the other.
      obtain ⟨edge, hedge, hkind, htarget, ⟨device, hdevice, hpath⟩, hbtrfs⟩ := hbehind
      obtain ⟨witness, -, device', hdevice', hcertain, hleads, -⟩ :=
        h (device.memberEdge edge.source other)
          ⟨filesystem, hfilesystem, device, hdevice, hpath, .inl hother, rfl⟩
      refine (hleads id).mp (.inl ⟨edge, hedge, hkind, htarget, ⟨device', hdevice', ?_⟩, hbtrfs⟩)
      exact (hcertain edge.source).mpr rfl
    · exact absurd hbehind (hnone _)
  · rcases hother with hother | ⟨rfl, -⟩
    · exact absurd hother (hnone _)
    · rfl

/-! ### The nodes of the filesystems -/

/-- Naming a filesystem describes its node. -/
theorem node_nameFilesystem : (nameFilesystem graph id filesystem).node other =
    if other = id then (graph.node id).map filesystem.describe else graph.node other := by
  by_cases hsame : other = id
  · rw [nameFilesystem, if_pos hsame, hsame]
    cases hnode : graph.node id <;> simp [hnode]
  · rw [nameFilesystem, if_neg hsame]
    cases graph.node id with
    | none => rfl
    | some node => simp [NodeGraph.node_setNode, hsame]

/-- Only the filesystem's own node changes. -/
theorem node_enrichBtrfsFilesystem : (enrichBtrfsFilesystem order graph filesystem).node other =
    (nameFilesystem graph (filesystem.nodeId order graph) filesystem).node other := by
  rw [enrichBtrfsFilesystem]
  exact List.foldlRecOn (motive := fun g : NodeGraph => g.node other = _) filesystem.devices _ rfl
    fun _ hg device _ => (node_insertBtrfsMember device).trans hg

/-- Two orders that take the same nodes describe them alike. -/
theorem node_enrichBtrfsFilesystems_same {order' : HashOrder} {graph' : NodeGraph}
    (hunique : ∀ filesystem ∈ filesystems, ∀ a b, Leads base filesystem a →
      Leads base filesystem b → a = b)
    (hgraph : Searches base graph) (hgraph' : Searches base graph')
    (hsame : ∀ id, graph.node id = graph'.node id) :
    ∀ id, (enrichBtrfsFilesystems order graph filesystems).node id =
      (enrichBtrfsFilesystems order' graph' filesystems).node id := by
  induction filesystems generalizing graph graph' with
  | nil => exact hsame
  | cons filesystem rest ih =>
      obtain ⟨hfirst, hrest⟩ := List.forall_mem_cons.mp hunique
      refine ih hrest hgraph.enrichBtrfsFilesystem hgraph'.enrichBtrfsFilesystem fun id => ?_
      have hid : filesystem.nodeId order graph = filesystem.nodeId order' graph' :=
        hfirst _ _ (hgraph.leads.mp leads_nodeId) (hgraph'.leads.mp leads_nodeId)
      rw [node_enrichBtrfsFilesystem, node_enrichBtrfsFilesystem, node_nameFilesystem,
        node_nameFilesystem, hid, hsame, hsame]

theorem relations_enrichBtrfsFilesystems :
    (enrichBtrfsFilesystems order graph filesystems).relations = graph.relations := by
  refine List.foldlRecOn (motive := fun g : NodeGraph => g.relations = graph.relations) filesystems
    _ rfl fun g hg filesystem _ => ?_
  refine List.foldlRecOn (motive := fun g : NodeGraph => g.relations = graph.relations)
    filesystem.devices _ ?_ fun g hg device _ => ?_
  · rw [nameFilesystem]
    cases g.node (filesystem.nodeId order g) with
    | none => exact hg
    | some node => simpa using hg
  · rw [insertBtrfsMember]
    cases g.nodeAt order (PathBuf.ofString device.path) <;> exact hg

/-! ### The sources of mounts -/

/-- What a block path can resolve to, when there is no content of that path. -/
inductive Resolves (graph : NodeGraph) (source : String) : MountSource → Prop where
  | absent (h : ∀ id, ¬graph.OnPath (PathBuf.ofString source) id) :
      Resolves graph source (.other source)
  | bare {block : NodeId} (h : graph.OnPath (PathBuf.ofString source) block)
      (hbare : ∀ edge ∈ graph.dependencies, edge.kind = .backs → edge.source ≠ block) :
      Resolves graph source (.other source)
  | content {block : NodeId} {edge : Dependency}
      (h : graph.OnPath (PathBuf.ofString source) block) (hedge : edge ∈ graph.dependencies)
      (hkind : edge.kind = .backs) (hsource : edge.source = block) :
      Resolves graph source
        (if graph.contains edge.target then .filesystem edge.target else .other source)

/-- The source of a mount depends on what the searches see. -/
theorem Searches.resolves (h : Searches base graph) {source : String} {found : MountSource} :
    Resolves graph source found ↔ Resolves base source found := by
  constructor
  · rintro (habsent | ⟨hpath, hbare⟩ | ⟨hpath, hedge, hkind, hsource⟩)
    · exact .absent fun id hid => habsent id ((h.onPath _ _).mpr hid)
    · exact .bare ((h.onPath _ _).mp hpath) fun edge hedge hkind =>
        hbare edge ((h.backs edge hkind).mpr hedge) hkind
    · rw [h.contains]
      exact .content ((h.onPath _ _).mp hpath) ((h.backs _ hkind).mp hedge) hkind hsource
  · rintro (habsent | ⟨hpath, hbare⟩ | ⟨hpath, hedge, hkind, hsource⟩)
    · exact .absent fun id hid => habsent id ((h.onPath _ _).mp hid)
    · exact .bare ((h.onPath _ _).mpr hpath) fun edge hedge hkind =>
        hbare edge ((h.backs edge hkind).mp hedge) hkind
    · rw [← h.contains]
      exact .content ((h.onPath _ _).mpr hpath) ((h.backs _ hkind).mpr hedge) hkind hsource

/-- The content of a device is what it backs. -/
theorem backedContent_eq_some {block : NodeId} : backedContent block edge = some id ↔
    edge.source = block ∧ edge.kind = .backs ∧ edge.target = id := by
  rw [backedContent]
  by_cases h : edge.source = block ∧ edge.kind = .backs
  · simp [h]
  · rw [if_neg (by simpa using h)]
    exact ⟨nofun, fun hall => absurd ⟨hall.1, hall.2.1⟩ h⟩

/-- The source of a mount on a block device that has no content of its own path. -/
theorem source_collectSystemMount {entry : LibmountEntry}
    (hdevice : entry.source.startsWith "/dev/" = true)
    (hdirect : graph.contains (contentNodeId entry.source) = false) :
    (collectSystemMount order graph entry).1.source =
      match graph.nodeAt order (PathBuf.ofString entry.source) with
      | none => .other entry.source
      | some block =>
          match order.dependencies.findMap (backedContent block) graph.dependencies with
          | none => .other entry.source
          | some id => if graph.contains id then .filesystem id else .other entry.source := by
  rw [collectSystemMount, HashOrder.observedMount, if_pos hdevice, mountFilesystemSource,
    if_neg (by simp [hdirect])]
  cases graph.nodeAt order (PathBuf.ofString entry.source) with
  | none => simp [hdirect]
  | some block =>
      simp only
      generalize order.dependencies.findMap (backedContent block) graph.dependencies = found
      cases found with
      | none => simp [hdirect]
      | some id => by_cases hid : graph.contains id = true <;> simp [hid]

/-- Every order resolves the path to something it can resolve to. -/
theorem resolves_collectSystemMount {entry : LibmountEntry}
    (hdevice : entry.source.startsWith "/dev/" = true)
    (hdirect : graph.contains (contentNodeId entry.source) = false) :
    Resolves graph entry.source (collectSystemMount order graph entry).1.source := by
  rw [source_collectSystemMount hdevice hdirect]
  cases hblock : graph.nodeAt order (PathBuf.ofString entry.source) with
  | none => exact .absent (nodeAt_eq_none.mp hblock)
  | some block =>
      have hpath := onPath_of_nodeAt hblock
      dsimp only
      cases hfound : order.dependencies.findMap (backedContent block) graph.dependencies with
      | none =>
          refine .bare hpath fun edge hedge hkind hsource => ?_
          have hnone := order.dependencies.findMap_eq_none.mp hfound edge hedge
          rw [backedContent_eq_some.mpr ⟨hsource, hkind, rfl⟩] at hnone
          cases hnone
      | some id =>
          obtain ⟨edge, hedge, hcontent⟩ := order.dependencies.exists_of_findMap hfound
          obtain ⟨hsource, hkind, rfl⟩ := backedContent_eq_some.mp hcontent
          exact .content hpath hedge hkind hsource

/-- And some order resolves it to each of these. -/
theorem exists_order_of_resolves {entry : LibmountEntry} {found : MountSource}
    (hdevice : entry.source.startsWith "/dev/" = true)
    (hdirect : base.contains (contentNodeId entry.source) = false)
    (h : Resolves base entry.source found) :
    ∃ order : HashOrder, ∀ graph, Searches base graph →
      (collectSystemMount order graph entry).1.source = found := by
  cases h with
  | absent habsent =>
      refine ⟨preferring ⟨0⟩ ⟨0⟩, fun graph hgraph => ?_⟩
      rw [source_collectSystemMount hdevice ((hgraph.contains _).trans hdirect),
        nodeAt_eq_none.mpr fun id hid => habsent id ((hgraph.onPath _ _).mp hid)]
  | @bare block hpath hbare =>
      refine ⟨preferring block ⟨0⟩, fun graph hgraph => ?_⟩
      have hnone : (preferring block ⟨0⟩).dependencies.findMap (backedContent block)
          graph.dependencies = none := by
        refine (Iteration.findMap_eq_none _).mpr fun edge hedge => ?_
        rw [Option.eq_none_iff_forall_ne_some]
        intro id hid
        obtain ⟨hsource, hkind, -⟩ := backedContent_eq_some.mp hid
        exact hbare edge ((hgraph.backs edge hkind).mp hedge) hkind hsource
      rw [source_collectSystemMount hdevice ((hgraph.contains _).trans hdirect),
        nodeAt_preferring ((hgraph.onPath _ _).mpr hpath)]
      simp only [hnone]
  | @content block edge hpath hedge hkind hsource =>
      refine ⟨preferring block edge.target, fun graph hgraph => ?_⟩
      have hfound : (preferring block edge.target).dependencies.findMap (backedContent block)
          graph.dependencies = some edge.target := by
        refine Iteration.findMap_first ((hgraph.backs edge hkind).mpr hedge) (by simp)
          (backedContent_eq_some.mpr ⟨hsource, hkind, rfl⟩) fun other _ hother id hid => ?_
        rw [← (backedContent_eq_some.mp hid).2.2]
        simpa using hother
      rw [source_collectSystemMount hdevice ((hgraph.contains _).trans hdirect),
        nodeAt_preferring ((hgraph.onPath _ _).mpr hpath)]
      simp only [hfound, hgraph.contains]

/-- What else a mount says does not depend on the order. -/
theorem collectSystemMount_eq {order' : HashOrder} {graph' : NodeGraph} {entry : LibmountEntry}
    (hsource : (collectSystemMount order graph entry).1.source =
      (collectSystemMount order' graph' entry).1.source) :
    (collectSystemMount order graph entry).1 = (collectSystemMount order' graph' entry).1 := by
  have hfields : ∀ (o : HashOrder) (g : NodeGraph), (collectSystemMount o g entry).1 =
      ⟨(collectSystemMount o g entry).1.source, PathBuf.ofString entry.target, entry.options,
        .host⟩ := by
    intro o g
    rw [collectSystemMount]
    split
    · split <;> rfl
    · rfl
  rw [hfields order graph, hfields order' graph', hsource]

/-- A mount of anything but a block device, or of content with its own path, is not searched for. -/
theorem source_collectSystemMount_same {order' : HashOrder} {graph' : NodeGraph}
    {entry : LibmountEntry} (hgraph : Searches base graph) (hgraph' : Searches base graph')
    (h : ¬(entry.source.startsWith "/dev/" = true ∧
      base.contains (contentNodeId entry.source) = false)) :
    (collectSystemMount order graph entry).1.source =
      (collectSystemMount order' graph' entry).1.source := by
  have hcontains : graph.contains = graph'.contains := by
    funext id
    rw [hgraph.contains, hgraph'.contains]
  have hsource : (order.observedMount entry graph).source =
      (order'.observedMount entry graph').source := by
    rw [HashOrder.observedMount, HashOrder.observedMount]
    by_cases hdevice : entry.source.startsWith "/dev/" = true
    · have hdirect : base.contains (contentNodeId entry.source) = true := by
        simpa [hdevice] using h
      simp only [hdevice, if_pos, mountFilesystemSource, hgraph.contains, hgraph'.contains, hdirect]
    · simp only [if_neg hdevice]
  rw [collectSystemMount, collectSystemMount]
  simp only [hsource, hcontains]
  split
  · split
    · exact hsource
    · rfl
  · exact hsource

/-! ### Subvolumes -/

theorem NodeGraph.Reorders.insertSubvolume {other : NodeGraph} (h : graph.Reorders other)
    (subvolume : BtrfsSubvolumeEntry) :
    (DisksGraph.insertSubvolume id graph subvolume).Reorders
      (DisksGraph.insertSubvolume id other subvolume) := by
  rw [DisksGraph.insertSubvolume, DisksGraph.insertSubvolume, upsertObservation_eq,
    upsertObservation_eq]
  exact (h.setNode _ _).insertDependency _

theorem NodeGraph.Reorders.enrichBtrfs {mounts : List ObservedMount} {btrfs : List BtrfsEntry}
    {other : NodeGraph} (h : graph.Reorders other) :
    (DisksGraph.enrichBtrfs graph mounts btrfs).Reorders
      (DisksGraph.enrichBtrfs other mounts btrfs) := by
  refine List.foldl_rel h fun filesystem _ g g' hg => ?_
  cases mountedFilesystem mounts (PathBuf.ofString filesystem.mountpoint) with
  | none => exact hg
  | some id => exact List.foldl_rel hg fun subvolume _ _ _ hg => hg.insertSubvolume subvolume

/-- Subvolumes are provided: every other edge is from before. -/
theorem mem_enrichBtrfs {mounts : List ObservedMount} {btrfs : List BtrfsEntry}
    (hkind : edge.kind ≠ .provides) :
    edge ∈ (enrichBtrfs graph mounts btrfs).dependencies ↔ edge ∈ graph.dependencies := by
  refine List.foldlRecOn
    (motive := fun g : NodeGraph => edge ∈ g.dependencies ↔ edge ∈ graph.dependencies) btrfs _
    Iff.rfl fun g hg filesystem _ => ?_
  cases mountedFilesystem mounts (PathBuf.ofString filesystem.mountpoint) with
  | none => exact hg
  | some id =>
      refine List.foldlRecOn
        (motive := fun g : NodeGraph => edge ∈ g.dependencies ↔ edge ∈ graph.dependencies)
        filesystem.subvolumes _ hg fun g hg subvolume _ => ?_
      rw [insertSubvolume, NodeGraph.mem_insertDependency, NodeGraph.upsertObservation_eq,
        NodeGraph.dependencies_setNode, hg, or_iff_right]
      rintro rfl
      exact hkind rfl

end Searches

/-! ### The passes -/

/-- The same nodes, the same edges and the same mounts. -/
structure SameContent (state other : ProviderState) : Prop where
  graph : state.graph.Reorders other.graph
  mounts : state.mounts = other.mounts

/-- The records leave no choice: a device or a filesystem that can be found at two nodes is no
member of a Btrfs filesystem, and a path resolves to one source. -/
structure Settled (base : NodeGraph) (filesystems : List BtrfsFilesystemEntry)
    (entries : List LibmountEntry) : Prop where
  members : ∀ edge, Possible base filesystems edge → Certain base filesystems edge
  mounts : ∀ entry ∈ entries, entry.source.startsWith "/dev/" = true →
    base.contains (contentNodeId entry.source) = false →
    ∀ found found', Resolves base entry.source found → Resolves base entry.source found' →
      found = found'

section Passes

variable {state : ProviderState} {filesystems : List BtrfsFilesystemEntry}
  {entries : List LibmountEntry} {btrfs : List BtrfsEntry}

/-- Settled filesystems give reordered graphs in every order. -/
theorem Settled.reorders (h : Settled state.graph filesystems entries) (order order' : HashOrder) :
    (enrichBtrfsFilesystems order state.graph filesystems).Reorders
      (enrichBtrfsFilesystems order' state.graph filesystems) where
  node id := (node_enrichBtrfsFilesystems_same
    (fun _ hfilesystem _ _ ha hb => leads_unique h.members hfilesystem ha hb) (.refl _) (.refl _)
    (fun _ => rfl) id).symm
  dependencies := by
    have hsubset : ∀ (o o' : HashOrder) edge,
        edge ∈ (enrichBtrfsFilesystems o state.graph filesystems).dependencies →
        edge ∈ (enrichBtrfsFilesystems o' state.graph filesystems).dependencies := by
      intro o o' edge hedge
      rcases possible_of_mem (.refl _) hedge with hmem | hpossible
      · exact mem_of_mem_graph hmem
      · exact mem_of_certain (.refl _) (h.members edge hpossible)
    exact (List.perm_ext_iff_of_nodup (NodeGraph.nodup_dependencies _)
      (NodeGraph.nodup_dependencies _)).mpr fun edge => ⟨hsubset _ _ edge, hsubset _ _ edge⟩
  relations := by rw [relations_enrichBtrfsFilesystems, relations_enrichBtrfsFilesystems]

/-- Settled mounts are collected alike in every order. -/
theorem Settled.collectSystemMount (h : Settled state.graph filesystems entries)
    (order order' : HashOrder) {entry : LibmountEntry} (hentry : entry ∈ entries) :
    (DisksGraph.collectSystemMount order
        (enrichBtrfsFilesystems order state.graph filesystems) entry).1 =
      (DisksGraph.collectSystemMount order'
        (enrichBtrfsFilesystems order' state.graph filesystems) entry).1 := by
  have hsearches : ∀ o : HashOrder,
      Searches state.graph (enrichBtrfsFilesystems o state.graph filesystems) := fun o =>
    (Searches.refl state.graph).enrichBtrfsFilesystems filesystems
  apply collectSystemMount_eq
  by_cases hsearched : entry.source.startsWith "/dev/" = true ∧
      state.graph.contains (contentNodeId entry.source) = false
  · obtain ⟨hdevice, hdirect⟩ := hsearched
    refine h.mounts entry hentry hdevice hdirect _ _ ?_ ?_
    · exact (hsearches order).resolves.mp (resolves_collectSystemMount hdevice
        (((hsearches order).contains _).trans hdirect))
    · exact (hsearches order').resolves.mp (resolves_collectSystemMount hdevice
        (((hsearches order').contains _).trans hdirect))
  · exact source_collectSystemMount_same (hsearches order) (hsearches order') hsearched

/-- The graph after content enrichment. -/
theorem graph_enrichContent (order : HashOrder) :
    (enrichContent order state filesystems entries btrfs).graph =
      enrichBtrfs (enrichBtrfsFilesystems order state.graph filesystems)
        (enrichContent order state filesystems entries btrfs).mounts btrfs := rfl

/-- The passes over devices make no Btrfs membership. -/
theorem NativeRecords.isBtrfsMember_deviceGraph (records : NativeRecords) :
    ∀ edge ∈ records.deviceGraph.dependencies, edge.kind.isBtrfsMember = false := by
  intro edge hedge
  rcases mem_lvmGraph.mp hedge with hedge | hdeclared
  · rcases mem_enrichMdraid.mp hedge with hedge | ⟨member, -, array, -, rfl⟩
    · rcases enrichDevmapper_shows hedge with hedge | ⟨entry, -, -, -, -, -, -, -, hkind⟩
      · rcases assemble_shows hedge with ⟨table, -, -, rfl | ⟨partition, -, -, rfl⟩⟩ |
          ⟨signature, -, rfl⟩ <;> rfl
      · rw [hkind, DevmapperEntry.edgeKind]
        split <;> rfl
    · rfl
  · cases hdeclared <;> rfl

/-- **The last passes are a function of the records exactly when the records leave no choice.**

No pass before them makes a Btrfs membership (`isBtrfsMember_deviceGraph`). -/
theorem enrichContent_same_iff {state : ProviderState} {filesystems : List BtrfsFilesystemEntry}
    {entries : List LibmountEntry} {btrfs : List BtrfsEntry}
    (hfresh : ∀ edge ∈ state.graph.dependencies, edge.kind.isBtrfsMember = false) :
    (∀ order order', SameContent (enrichContent order state filesystems entries btrfs)
      (enrichContent order' state filesystems entries btrfs)) ↔
    Settled state.graph filesystems entries := by
  constructor
  · intro hsame
    constructor
    · intro edge hpossible
      have hrole : edge.kind.isBtrfsMember = true ∧ edge.kind ≠ .provides := by
        obtain ⟨-, -, device, -, -, -, hedge⟩ := hpossible
        rw [hedge]
        exact ⟨rfl, nofun⟩
      have hmem := mem_preferring (.refl _) hpossible
      have hgraph := (hsame (preferring edge.source edge.target)
        (avoiding edge.source edge.target)).graph
      have havoided : edge ∈ (enrichBtrfsFilesystems (avoiding edge.source edge.target) state.graph
          filesystems).dependencies := by
        rw [← mem_enrichBtrfs hrole.2]
        exact hgraph.mem_dependencies.mpr ((mem_enrichBtrfs hrole.2).mpr hmem)
      rcases certain_of_avoiding (.refl _) havoided with hold | hcertain
      · rw [hfresh edge hold] at hrole
        cases hrole.1
      · exact hcertain
    · intro entry hentry hdevice hdirect found found' hfound hfound'
      obtain ⟨order, horder⟩ := exists_order_of_resolves hdevice hdirect hfound
      obtain ⟨order', horder'⟩ := exists_order_of_resolves hdevice hdirect hfound'
      have hmounts := (hsame order order').mounts
      simp only [enrichContent, collectSystemMounts, List.map_map] at hmounts
      have hmount := List.map_inj_left.mp hmounts entry hentry
      have hsource := congrArg ObservedMount.source hmount
      rwa [Function.comp, Function.comp, horder _ ((Searches.refl _).enrichBtrfsFilesystems _),
        horder' _ ((Searches.refl _).enrichBtrfsFilesystems _)] at hsource
  · intro hsettled order order'
    have hmounts : (enrichContent order state filesystems entries btrfs).mounts =
        (enrichContent order' state filesystems entries btrfs).mounts := by
      simp only [enrichContent, collectSystemMounts, List.map_map]
      exact List.map_inj_left.mpr fun entry hentry =>
        hsettled.collectSystemMount order order' hentry
    refine ⟨?_, hmounts⟩
    rw [graph_enrichContent, graph_enrichContent, hmounts]
    exact (hsettled.reorders order order').enrichBtrfs

end Passes

/-! ### Two devices with one filesystem -/

/-- A whole disk. -/
def btrfsDisk (name : String) (minor : Nat) : UdevBlockEntry where
  devnode := "/dev/" ++ name
  sysname := name
  devtype := some "disk"
  major := 8
  minor := minor

/-- Disks with a Btrfs signature each, as the block layer assembles them. -/
def btrfsDisks (disks : List UdevBlockEntry) : ProviderState :=
  assembleNativeBlockState disks []
    (disks.map fun disk => { device := disk.devnode, signatureType := some "btrfs" })

/-- A Btrfs filesystem on two devices. -/
def mirroredBtrfs : BtrfsFilesystemEntry where
  seedDevice := "/dev/sda"
  uuid := "5d1e5c3a-0000-4000-8000-000000000001"
  devices := [⟨1, "/dev/sda"⟩, ⟨2, "/dev/sdb"⟩]

/-- Every set in the order it is listed. -/
def HashOrder.listed : HashOrder := ⟨⟨id, .refl⟩, ⟨id, .refl⟩⟩

/-- Every set the other way round. -/
def HashOrder.reversed : HashOrder :=
  ⟨⟨List.reverse, List.reverse_perm⟩, ⟨List.reverse, List.reverse_perm⟩⟩

/-- Either content can be taken for the filesystem of both devices. -/
theorem filesystem_follows_hash_order :
    ¬ ∀ (state : ProviderState) (filesystems : List BtrfsFilesystemEntry)
      (entries : List LibmountEntry) (btrfs : List BtrfsEntry) (order order' : HashOrder),
      SameContent (enrichContent order state filesystems entries btrfs)
        (enrichContent order' state filesystems entries btrfs) := by
  intro h
  have hgraph := (h (btrfsDisks [btrfsDisk "sda" 0, btrfsDisk "sdb" 16]) [mirroredBtrfs] [] []
    .listed .reversed).graph
  have hmem := @NodeGraph.Reorders.mem_dependencies _ _ hgraph
    ⟨blockNodeId "/dev/sda", contentNodeId "/dev/sda", .memberOf (.btrfs ⟨NonZero.new 64 1⟩)⟩
  revert hmem
  decide +kernel

/-- A Btrfs filesystem on one device. -/
def singleBtrfs : BtrfsFilesystemEntry where
  seedDevice := "/dev/sda"
  uuid := "5d1e5c3a-0000-4000-8000-000000000001"
  devices := [⟨1, "/dev/sda"⟩]

theorem singleBtrfs_onPath {id : NodeId} :
    (btrfsDisks [btrfsDisk "sda" 0]).graph.OnPath (PathBuf.ofString "/dev/sda") id ↔
      id = blockNodeId "/dev/sda" := by
  have honly : ((btrfsDisks [btrfsDisk "sda" 0]).graph.nodeList.filter
      (·.2.onPath (PathBuf.ofString "/dev/sda"))).map (·.1) = [blockNodeId "/dev/sda"] := by
    decide +kernel
  rw [onPath_iff_mem, honly, List.mem_singleton]

/-- The single device leads to its content. -/
theorem singleBtrfs_leads {id : NodeId} :
    Leads (btrfsDisks [btrfsDisk "sda" 0]).graph singleBtrfs id ↔
      id = contentNodeId "/dev/sda" := by
  have hfound : ((btrfsDisks [btrfsDisk "sda" 0]).graph.dependencies.filterMap
      (singleBtrfs.contentOf (btrfsDisks [btrfsDisk "sda" 0]).graph)) =
        [contentNodeId "/dev/sda"] := by decide +kernel
  have hbehind : ∀ other, Behind (btrfsDisks [btrfsDisk "sda" 0]).graph singleBtrfs other ↔
      other = contentNodeId "/dev/sda" := by
    intro other
    rw [behind_iff, ← List.mem_filterMap, hfound, List.mem_singleton]
  constructor
  · rintro (hid | ⟨-, hnone⟩)
    · exact (hbehind id).mp hid
    · exact absurd ((hbehind _).mpr rfl) (hnone _)
  · exact fun hid => .inl ((hbehind id).mpr hid)

/-- One device leaves no choice, whatever is mounted from it. -/
theorem singleBtrfs_settled :
    Settled (btrfsDisks [btrfsDisk "sda" 0]).graph [singleBtrfs]
      [{ source := "/dev/sda", target := "/mnt", filesystemType := "btrfs" }] where
  members edge hpossible := by
    obtain ⟨filesystem, hfilesystem, device, hdevice, hpath, hleads, hedge⟩ := hpossible
    obtain rfl := List.mem_singleton.mp hfilesystem
    obtain rfl := List.mem_singleton.mp hdevice
    refine ⟨singleBtrfs, hfilesystem, _, hdevice, fun id => ?_, fun id => ?_, hedge⟩
    · rw [singleBtrfs_onPath, singleBtrfs_onPath.mp hpath]
    · rw [singleBtrfs_leads, singleBtrfs_leads.mp hleads]
  mounts entry hentry _ hdirect := by
    obtain rfl := List.mem_singleton.mp hentry
    exact absurd hdirect (by decide +kernel)

/-- The single filesystem gives the same content in both orders. -/
theorem enrichContent_same_single :
    SameContent
      (enrichContent .listed (btrfsDisks [btrfsDisk "sda" 0]) [singleBtrfs]
        [{ source := "/dev/sda", target := "/mnt", filesystemType := "btrfs" }]
        [{ mountpoint := "/mnt", subvolumes := [⟨256, "home", false, false⟩] }])
      (enrichContent .reversed (btrfsDisks [btrfsDisk "sda" 0]) [singleBtrfs]
        [{ source := "/dev/sda", target := "/mnt", filesystemType := "btrfs" }]
        [{ mountpoint := "/mnt", subvolumes := [⟨256, "home", false, false⟩] }]) :=
  (enrichContent_same_iff (by decide +kernel)).mpr singleBtrfs_settled .listed .reversed

end DisksGraph
