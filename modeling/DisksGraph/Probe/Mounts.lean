import DisksGraph.Engine.Correlate
import DisksGraph.Probe.Order

/-!
# Probe — Mounts

Which node a mount is published on (`collect_system_mounts`, `mount_filesystem_source` in
`linux.rs`).

* `Mounted`: the node is a filesystem on a block device with the mounted path.
* `SourcesKept`: every mount of a filesystem names such a node, and every other mount from `/dev` is
  published by its path, with a diagnostic.
* `mounts_name_filesystems_iff`: the resolution takes the content of the path, or what the block
  node of the path backs, whatever kind of node it is; so this holds in every iteration order
  exactly when nothing but a filesystem can be met there.
-/

namespace DisksGraph

/-- The node is a filesystem. -/
def NodeGraph.IsFilesystem (graph : NodeGraph) (id : NodeId) : Prop :=
  ∃ node, graph.node id = some node ∧ node.kind.kind.isFilesystem = true

/-- A filesystem that a block node on the path backs, or is a member of. -/
structure Mounted (graph : NodeGraph) (source : String) (id : NodeId) : Prop where
  filesystem : graph.IsFilesystem id
  block : ∃ edge ∈ graph.dependencies, edge.target = id ∧
    (edge.kind = .backs ∨ ∃ membership, edge.kind = .memberOf membership) ∧
    graph.OnPath (PathBuf.ofString source) edge.source

/-- What one published mount says of its record. -/
structure SourceKept (graph : NodeGraph) (diagnostics : List Diagnostic) (entry : LibmountEntry)
    (mount : ObservedMount) : Prop where
  mounted : ∀ id, mount.source = .filesystem id → Mounted graph entry.source id
  unresolved : entry.source.startsWith "/dev/" = true → (∀ id, mount.source ≠ .filesystem id) →
    mount.source = .other entry.source ∧ unresolvedSource entry ∈ diagnostics

/-- One mount for each record, in order. -/
def SourcesKept (graph : NodeGraph) (entries : List LibmountEntry) (published : ProviderState) :
    Prop :=
  List.Forall₂ (SourceKept graph published.diagnostics) entries published.mounts

/-- Nothing but filesystems is met on the way from the path of a record. -/
structure LeadsToFilesystem (graph : NodeGraph) (source : String) : Prop where
  direct : graph.contains (contentNodeId source) = true →
    Mounted graph source (contentNodeId source)
  backed : graph.contains (contentNodeId source) = false → ∀ edge ∈ graph.dependencies,
    edge.kind = .backs → graph.OnPath (PathBuf.ofString source) edge.source →
      graph.contains edge.target = true → graph.IsFilesystem edge.target

section Sources

variable {order : HashOrder} {graph : NodeGraph} {entry : LibmountEntry}

/-- A source outside `/dev` is never taken for a filesystem of the graph. -/
theorem externalMountSource_ne {source fstype : String} (id : NodeId) :
    externalMountSource source fstype ≠ .filesystem id := by
  unfold externalMountSource
  split
  · exact nofun
  · split <;> exact nofun
  · split <;> exact nofun
  · split
    · split <;> exact nofun
    · exact nofun
  · exact nofun

/-- The resolution always names a node; one the graph does not hold is replaced by the path. -/
theorem collectSystemMount_device (hdevice : entry.source.startsWith "/dev/" = true) :
    ∃ id, (mountFilesystemSource order entry.source graph = .filesystem id) ∧
      (graph.contains id = true →
        (collectSystemMount order graph entry).1.source = .filesystem id) ∧
      (graph.contains id = false →
        (collectSystemMount order graph entry).1.source = .other entry.source ∧
        (collectSystemMount order graph entry).2 = some (unresolvedSource entry)) := by
  obtain ⟨id, hid⟩ : ∃ id, mountFilesystemSource order entry.source graph = .filesystem id := by
    rw [mountFilesystemSource]
    split
    · exact ⟨_, rfl⟩
    · split
      · exact ⟨_, rfl⟩
      · exact ⟨_, rfl⟩
  refine ⟨id, hid, fun hcontains => ?_, fun hcontains => ?_⟩
  · simp [collectSystemMount, HashOrder.observedMount, hdevice, hid, hcontains]
  · simp [collectSystemMount, HashOrder.observedMount, hdevice, hid, hcontains]

theorem source_collectSystemMount_direct (hdevice : entry.source.startsWith "/dev/" = true)
    (hdirect : graph.contains (contentNodeId entry.source) = true) :
    (collectSystemMount order graph entry).1.source =
      .filesystem (contentNodeId entry.source) := by
  obtain ⟨id, hid, hcontained, -⟩ := collectSystemMount_device hdevice
  rw [mountFilesystemSource, if_pos hdirect] at hid
  obtain rfl := MountSource.filesystem.inj hid
  exact hcontained hdirect

/-- A `/dev` source that is not published as a filesystem has its diagnostic. -/
theorem collectSystemMount_unresolved (hdevice : entry.source.startsWith "/dev/" = true)
    (hsource : ∀ id, (collectSystemMount order graph entry).1.source ≠ .filesystem id) :
    (collectSystemMount order graph entry).1.source = .other entry.source ∧
      (collectSystemMount order graph entry).2 = some (unresolvedSource entry) := by
  obtain ⟨id, -, hcontained, habsent⟩ := @collectSystemMount_device order graph entry hdevice
  by_cases hid : graph.contains id = true
  · exact absurd (hcontained hid) (hsource id)
  · exact habsent (Bool.not_eq_true _ ▸ hid)

/-- Where nothing but filesystems is met, the mount is on one. -/
theorem LeadsToFilesystem.mounted (h : LeadsToFilesystem graph entry.source) {id : NodeId}
    (hdevice : entry.source.startsWith "/dev/" = true)
    (hsource : (collectSystemMount order graph entry).1.source = .filesystem id) :
    Mounted graph entry.source id := by
  by_cases hdirect : graph.contains (contentNodeId entry.source) = true
  · rw [source_collectSystemMount_direct hdevice hdirect] at hsource
    obtain rfl := MountSource.filesystem.inj hsource
    exact h.direct hdirect
  · rw [Bool.not_eq_true] at hdirect
    have hresolves := @resolves_collectSystemMount graph order entry hdevice hdirect
    rw [hsource] at hresolves
    generalize hfound : MountSource.filesystem id = found at hresolves
    cases hresolves with
    | absent => cases hfound
    | bare => cases hfound
    | @content block edge hpath hedge hkind hblock =>
        by_cases htarget : graph.contains edge.target = true
        · rw [if_pos htarget] at hfound
          obtain rfl := MountSource.filesystem.inj hfound
          have hpath' : graph.OnPath (PathBuf.ofString entry.source) edge.source := hblock ▸ hpath
          exact ⟨h.backed hdirect edge hedge hkind hpath' htarget,
            edge, hedge, rfl, .inl hkind, hpath'⟩
        · rw [if_neg htarget] at hfound
          cases hfound

/-- Whatever is met on the way is published by some order. -/
theorem leadsToFilesystem_of_mounted (hdevice : entry.source.startsWith "/dev/" = true)
    (h : ∀ (order : HashOrder) (id : NodeId),
      (collectSystemMount order graph entry).1.source = .filesystem id →
        Mounted graph entry.source id) :
    LeadsToFilesystem graph entry.source where
  direct hdirect := h .listed _ (source_collectSystemMount_direct hdevice hdirect)
  backed hdirect edge hedge hkind hpath htarget := by
    have hresolves := Resolves.content hpath hedge hkind rfl
    rw [if_pos htarget] at hresolves
    obtain ⟨order, hfound⟩ := exists_order_of_resolves hdevice hdirect hresolves
    exact (h order _ (hfound graph (.refl graph))).filesystem

end Sources

/-- **Mount sources resolve to filesystems exactly where nothing else can be met.**  Every mount is
published on a filesystem of its device, or by its path with a diagnostic, in every iteration order
of the graph, exactly when for each record from `/dev` the content node of its path is a filesystem
of that device, and, when there is no such node, every content in the graph of a block node on the
path is a filesystem. -/
theorem mounts_name_filesystems_iff (state : ProviderState) (entries : List LibmountEntry) :
    (∀ order, SourcesKept state.graph entries (collectSystemMounts order state entries)) ↔
      ∀ entry ∈ entries, entry.source.startsWith "/dev/" = true →
        LeadsToFilesystem state.graph entry.source := by
  have hmounts : ∀ order, (collectSystemMounts order state entries).mounts =
      entries.map fun entry => (collectSystemMount order state.graph entry).1 := fun order => by
    simp [collectSystemMounts, Function.comp_def]
  constructor
  · intro h entry hentry hdevice
    refine leadsToFilesystem_of_mounted hdevice fun order id hsource => ?_
    have hkept := h order
    rw [SourcesKept, hmounts, List.forall₂_map_right_iff, List.forall₂_same] at hkept
    exact (hkept entry hentry).mounted id hsource
  · intro h order
    rw [SourcesKept, hmounts, List.forall₂_map_right_iff, List.forall₂_same]
    intro entry hentry
    refine ⟨fun id hsource => ?_, fun hdevice hother => ?_⟩
    · by_cases hdevice : entry.source.startsWith "/dev/" = true
      · exact (h entry hentry hdevice).mounted hdevice hsource
      · rw [collectSystemMount, HashOrder.observedMount, if_neg hdevice] at hsource
        split at hsource
        next id' hid' => exact absurd hid' (externalMountSource_ne id')
        next => exact absurd hsource (externalMountSource_ne id)
    · obtain ⟨hsource, hdiagnostic⟩ := collectSystemMount_unresolved hdevice hother
      refine ⟨hsource, List.mem_append_right _ (List.mem_filterMap.mpr ?_)⟩
      exact ⟨_, List.mem_map_of_mem hentry, hdiagnostic⟩

/-! ### A whole disk is mounted -/

/-- An installer image on a whole disk, as the block layer sees it: a partition table, and no
signature. -/
def installerDisk : ProviderState :=
  assembleNativeBlockState [btrfsDisk "sda" 0]
    [{ device := "/dev/sda", label := some "dos", sectorSize := 512, partitions := [] }] []

/-- A mount of a disk whose only content is a partition table. -/
def installerMount : LibmountEntry where
  source := "/dev/sda"
  target := "/media/installer"
  filesystemType := "iso9660"

/-- The mount of the disk is published on its partition table. -/
theorem mount_on_partition_table :
    ¬ ∀ (state : ProviderState) (entries : List LibmountEntry) (order : HashOrder),
      SourcesKept state.graph entries (collectSystemMounts order state entries) := by
  intro h
  obtain ⟨hkept, -⟩ := List.forall₂_cons.mp (h installerDisk [installerMount] .listed)
  have hsource : (collectSystemMount .listed installerDisk.graph installerMount).1.source =
      .filesystem (stableNodeId "partition-table-path" "/dev/sda") := by
    decide +kernel
  obtain ⟨node, hnode, hkind⟩ := (hkept.mounted _ hsource).filesystem
  have htable : (installerDisk.graph.node (stableNodeId "partition-table-path" "/dev/sda")).any
      (·.kind.kind.isFilesystem) = false := by
    decide +kernel
  rw [hnode, Option.any_some, hkind] at htable
  cases htable

end DisksGraph
