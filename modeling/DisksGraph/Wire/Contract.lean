import DisksGraph.Provider.Canonical
import DisksGraph.Support.JsonRoundTrip
import DisksGraph.Wire.Action
import DisksGraph.Wire.Graph

/-!
# Wire — Contract

The JSON form of the values in a contract (`contract.rs`).

* `Codec.spelling`: a value is held as its codec stores it, and its text is the JSON that is
  written; equal texts are written of one stored value.
* `ContractSpelling.serde`: the texts that `canonicalize_contract` sorts by.
-/

namespace DisksGraph

open Support (Codec Fields JsonValue Variant)

/-! ### Parts -/

/-- The classes of nodes in snake case. -/
def NodeKindClass.codec : Codec NodeKindClass :=
  .choice [
    .unit "block" .block,
    .unit "partition_table" .partitionTable,
    .unit "partition" .partition,
    .unit "luks_container" .luksContainer,
    .unit "dm_crypt_mapping" .dmCryptMapping,
    .unit "lvm_pv" .lvmPv,
    .unit "lvm_vg" .lvmVg,
    .unit "lvm_lv" .lvmLv,
    .unit "filesystem" .filesystem,
    .unit "btrfs_filesystem" .btrfsFilesystem] (by decide)

/-- The two accesses in snake case. -/
def BlockInterfaceAccess.codec : Codec BlockInterfaceAccess :=
  .choice [.unit "read_only" .readOnly, .unit "read_write" .readWrite] (by decide)

/-- The domain and the node it is about. -/
def AllocationDomain.codec : Codec AllocationDomain :=
  .choice [.holding "lvm_volume_group" .lvmVolumeGroup NodeId.codec] (by decide)

/-- A `u64` on its own. -/
def AllocationQuantity.codec : Codec AllocationQuantity := u64

/-- A resource: its name, with the node or the path it is about. -/
def ActionResource.codec : Codec ActionResource :=
  .choice [
    .unit "runtime_mount_state" .runtimeMountState,
    .holding "node" .node NodeId.codec,
    .holding "partition_table" .partitionTable NodeId.codec,
    .holding "lvm_metadata" .lvmMetadata NodeId.codec,
    .record false "mount_target" (Fields.of ActionResource.mountTarget
      |>.field "target" PathBuf.codec
      |>.field "context" MountContext.codec) (by decide),
    .holding "persistent_mount_config" .persistentMountConfig MountContext.codec] (by decide)

/-- `read` or `write`. -/
def ResourceAccessMode.codec : Codec ResourceAccessMode :=
  .choice [.unit "read" .read, .unit "write" .write] (by decide)

/-- What a fact is about. -/
def FactScope.codec : Codec FactScope :=
  .choice [
    .holding "node" .node NodeId.codec,
    .record false "mount_target" (Fields.of FactScope.mountTarget
      |>.field "target" PathBuf.codec
      |>.field "context" MountContext.codec) (by decide),
    .holding "persistent_mount_config" .persistentMountConfig MountContext.codec] (by decide)

/-- The kinds of facts in snake case. -/
def FactKind.codec : Codec FactKind :=
  .choice [
    .unit "presence" .presence,
    .unit "geometry" .geometry,
    .unit "identity" .identity,
    .unit "topology" .topology,
    .unit "content" .content,
    .unit "activation" .activation,
    .unit "mount" .mount] (by decide)

/-! ### Values of the sorted fields -/

/-- A prerequisite: its name with its arguments. -/
def ActionPrerequisite.codec : Codec ActionPrerequisite :=
  .choice [
    .holding "node_exists" .nodeExists NodeId.codec,
    .record false "node_kind" (Fields.of ActionPrerequisite.nodeKind
      |>.field "node" NodeId.codec
      |>.field "expected" NodeKindClass.codec) (by decide),
    .holding "no_unexpected_consumers" .noUnexpectedConsumers NodeId.codec,
    .holding "no_unexpected_relations" .noUnexpectedRelations NodeId.codec,
    .holding "writable" .writable NodeId.codec,
    .holding "mount_source_available" .mountSourceAvailable MountSource.codec,
    .holding "filesystem_unmounted" .filesystemUnmounted NodeId.codec,
    .holding "filesystem_check_passed" .filesystemCheckPassed NodeId.codec,
    .record false "filesystem_minimum_size" (Fields.of ActionPrerequisite.filesystemMinimumSize
      |>.field "filesystem" NodeId.codec
      |>.field "target" Bytes.codec) (by decide),
    .holding "destructive_approval" .destructiveApproval NodeId.codec,
    .holding "credential_available" .credentialAvailable CredentialRef.codec,
    .record false "extent_available" (Fields.of ActionPrerequisite.extentAvailable
      |>.field "table" NodeId.codec
      |>.field "offset" Bytes.codec
      |>.field "size" Bytes.codec) (by decide),
    .holding "distinct_nodes" .distinctNodes NodeId.codec.list,
    .record false "dependents_fit_within" (Fields.of ActionPrerequisite.dependentsFitWithin
      |>.field "node" NodeId.codec
      |>.field "size" Bytes.codec) (by decide),
    .record false "backing_size_at_least" (Fields.of ActionPrerequisite.backingSizeAtLeast
      |>.field "node" NodeId.codec
      |>.field "size" Bytes.codec) (by decide),
    .record false "capacity_available" (Fields.of ActionPrerequisite.capacityAvailable
      |>.field "domain" AllocationDomain.codec
      |>.field "amount" AllocationQuantity.codec.option) (by decide),
    .record false "mount_target_available" (Fields.of ActionPrerequisite.mountTargetAvailable
      |>.field "target" PathBuf.codec
      |>.field "context" MountContext.codec) (by decide),
    .record false "mount_descendants_absent" (Fields.of ActionPrerequisite.mountDescendantsAbsent
      |>.field "target" PathBuf.codec
      |>.field "context" MountContext.codec) (by decide)] (by decide)

/-- An output: its name with its arguments. -/
def ActionOutput.codec : Codec ActionOutput :=
  .choice [
    .record false "node" (Fields.of ActionOutput.node
      |>.field "id" NodeId.codec
      |>.field "spec" NodeSpec.codec) (by decide),
    .record false "block_interface" (Fields.of ActionOutput.blockInterface
      |>.field "node" NodeId.codec
      |>.field "access" BlockInterfaceAccess.codec) (by decide),
    .record false "mount" (Fields.of ActionOutput.mount
      |>.field "source" MountSource.codec
      |>.field "target" PathBuf.codec
      |>.field "context" MountContext.codec) (by decide),
    .holding "persistent_mount" .persistentMount MountEntry.codec,
    .holding "filesystem_check_passed" .filesystemCheckPassed NodeId.codec] (by decide)

/-- A resource and its mode. -/
def ResourceAccess.codec : Codec ResourceAccess :=
  .record false (Fields.of ResourceAccess.mk
    |>.field "resource" ActionResource.codec
    |>.field "mode" ResourceAccessMode.codec) (by decide)

/-- A scope and a kind of fact. -/
def FactInvalidation.codec : Codec FactInvalidation :=
  .record false (Fields.of FactInvalidation.mk
    |>.field "scope" FactScope.codec
    |>.field "kind" FactKind.codec) (by decide)

/-- A postcondition: its name with its arguments. -/
def Postcondition.codec : Codec Postcondition :=
  .choice [
    .holding "filesystem_check_passed" .filesystemCheckPassed NodeId.codec,
    .record false "node_matches" (Fields.of Postcondition.nodeMatches
      |>.field "id" NodeId.codec
      |>.field "spec" NodeSpec.codec) (by decide),
    .holding "node_absent" .nodeAbsent NodeId.codec,
    .record false "node_size" (Fields.of Postcondition.nodeSize
      |>.field "node" NodeId.codec
      |>.field "size" Bytes.codec) (by decide),
    .record false "partition_attributes" (Fields.of Postcondition.partitionAttributes
      |>.field "partition" NodeId.codec
      |>.field "attributes" PartitionAttributes.codec) (by decide),
    .record false "filesystem_label" (Fields.of Postcondition.filesystemLabel
      |>.field "filesystem" NodeId.codec
      |>.field "label" Codec.string.option) (by decide),
    .record false "btrfs_allocation" (Fields.of Postcondition.btrfsAllocation
      |>.field "filesystem" NodeId.codec
      |>.field "allocation" BtrfsAllocation.codec) (by decide),
    .holding "dependency_present" .dependencyPresent Dependency.codec,
    .holding "dependency_absent" .dependencyAbsent Dependency.codec,
    .record false "activation" (Fields.of Postcondition.activation
      |>.field "node" NodeId.codec
      |>.field "active" .bool) (by decide),
    .record false "runtime_mount_present" (Fields.of Postcondition.runtimeMountPresent
      |>.field "source" MountSource.codec
      |>.field "target" PathBuf.codec
      |>.field "context" MountContext.codec) (by decide),
    .record false "runtime_mount_absent" (Fields.of Postcondition.runtimeMountAbsent
      |>.field "target" PathBuf.codec
      |>.field "context" MountContext.codec) (by decide),
    .holding "persistent_mount_matches" .persistentMountMatches MountEntry.codec,
    .record false "persistent_mount_absent" (Fields.of Postcondition.persistentMountAbsent
      |>.field "target" PathBuf.codec
      |>.field "context" MountContext.codec) (by decide),
    .holding "node_reprobed" .nodeReprobed NodeId.codec] (by decide)

/-- An effect on the graph: its name with its arguments. -/
def GraphEffect.codec : Codec GraphEffect :=
  .choice [
    .holding "invalidate_node_size" .invalidateNodeSize NodeId.codec,
    .record false "insert_node" (Fields.of GraphEffect.insertNode
      |>.field "id" NodeId.codec
      |>.field "spec" NodeSpec.codec) (by decide),
    .holding "remove_node" .removeNode NodeId.codec,
    .record false "set_node_size" (Fields.of GraphEffect.setNodeSize
      |>.field "node" NodeId.codec
      |>.field "size" Bytes.codec) (by decide),
    .record false "set_partition_attributes" (Fields.of GraphEffect.setPartitionAttributes
      |>.field "partition" NodeId.codec
      |>.field "attributes" PartitionAttributes.codec) (by decide),
    .record false "set_filesystem_label" (Fields.of GraphEffect.setFilesystemLabel
      |>.field "filesystem" NodeId.codec
      |>.field "label" Codec.string.option) (by decide),
    .record false "set_btrfs_allocation" (Fields.of GraphEffect.setBtrfsAllocation
      |>.field "filesystem" NodeId.codec
      |>.field "allocation" BtrfsAllocation.codec) (by decide),
    .holding "insert_dependency" .insertDependency Dependency.codec,
    .holding "remove_dependency" .removeDependency Dependency.codec,
    .holding "insert_relation" .insertRelation Relation.codec,
    .holding "remove_relation" .removeRelation Relation.codec,
    .record false "set_activation" (Fields.of GraphEffect.setActivation
      |>.field "node" NodeId.codec
      |>.field "active" .bool) (by decide)] (by decide)

/-! ### Spelling -/

/-- The text of a stored value (`serde_json::to_string`). -/
def codecText {α : Type} (c : Codec α) (stored : c.Stored) : Option String :=
  (c.encode stored).map JsonValue.print

/-- **Equal texts are written of one stored value**: the text is read back. -/
theorem codecText_inj {α : Type} {c : Codec α} (htotal : c.total = true) {a b : c.Stored}
    (h : codecText c a = codecText c b) (hsome : (codecText c a).isSome) : a = b := by
  obtain ⟨text, ha⟩ := Option.isSome_iff_exists.mp hsome
  have hb := h.symm.trans ha
  obtain ⟨ja, hja, hprint⟩ := Option.map_eq_some_iff.mp ha
  obtain ⟨jb, hjb, hprint'⟩ := Option.map_eq_some_iff.mp hb
  -- Both texts are parsed to the value that is read back.
  obtain rfl : ja = jb := by
    have hparse := JsonValue.parse_print (c.plain hja)
    have hparse' := JsonValue.parse_print (c.plain hjb)
    rw [hprint] at hparse
    rw [hprint', hparse] at hparse'
    exact Option.some.inj hparse'
  have hread := (c.decode_encode hja).mpr (c.accepts_all htotal a)
  have hread' := (c.decode_encode hjb).mpr (c.accepts_all htotal b)
  exact Option.some.inj (hread.symm.trans hread')

/-- The values of a type as its codec stores them. -/
def codecSpelling {α : Type} (c : Codec α) (htotal : c.total = true) : Spelling α where
  Held := c.Stored
  value := c.value
  text := codecText c
  faithful _ _ := codecText_inj htotal

/-- The JSON texts of a contract. -/
def ContractSpelling.serde : ContractSpelling where
  prerequisite := codecSpelling ActionPrerequisite.codec rfl
  output := codecSpelling ActionOutput.codec rfl
  resource := codecSpelling ResourceAccess.codec rfl
  fact := codecSpelling FactInvalidation.codec rfl
  postcondition := codecSpelling Postcondition.codec rfl
  effect := codecSpelling GraphEffect.codec rfl

end DisksGraph
