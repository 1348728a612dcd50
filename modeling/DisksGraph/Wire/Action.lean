import DisksGraph.Provider.Action
import DisksGraph.Wire.Node

/-!
# Wire — Action

The JSON form of a provider operation (`action.rs`, `luks.rs`, and the mounts of `model/state.rs`).

* `ProviderAction` is adjacently tagged: the provider and the operation are members of one object.
* Only `LuksAction` and `MountEntry` deny the fields they do not know.
-/

namespace DisksGraph

open Support (Codec Fields Variant)

/-! ### Mounts -/

/-- A network share: its protocol with its server and path. -/
def NetworkMountSource.codec : Codec NetworkMountSource :=
  .choice [
    .record false "nfs" (Fields.of NetworkMountSource.nfs
      |>.field "server" .string
      |>.field "export" .string) (by decide),
    .record false "cifs" (Fields.of NetworkMountSource.cifs
      |>.field "server" .string
      |>.field "share" .string) (by decide)] (by decide)

/-- A mount source: its name, with what is mounted. -/
def MountSource.codec : Codec MountSource :=
  .choice [
    .holding "filesystem" .filesystem NodeId.codec,
    .holding "btrfs_subvolume" .btrfsSubvolume NodeId.codec,
    .holding "zfs_dataset" .zfsDataset NodeId.codec,
    .holding "bind" .bind PathBuf.codec,
    .unit "tmpfs" .tmpfs,
    .holding "network" .network NetworkMountSource.codec,
    .holding "other" .other .string] (by decide)

/-- The namespace or the root that a mount stands in. -/
def MountContext.codec : Codec MountContext :=
  .choice [
    .unit "host" .host,
    .holding "target_root" .targetRoot PathBuf.codec,
    .holding "namespace" .namespaced .string] (by decide)

/-- A configured mount, with `deny_unknown_fields`. -/
def MountEntry.codec : Codec MountEntry :=
  .record true (Fields.of MountEntry.mk
    |>.field "source" MountSource.codec
    |>.field "target" PathBuf.codec
    |>.field "options" Codec.string.list
    |>.field "context" MountContext.codec) (by decide)

/-! ### Operations -/

/-- A partition action: its name with its arguments. -/
def PartitionAction.codec : Codec PartitionAction :=
  .choice [
    .record false "create_table" (Fields.of PartitionAction.createTable
      |>.field "disk" NodeId.codec
      |>.field "planned_node_id" NodeId.codec
      |>.field "table" PartitionTable.codec) (by decide),
    .record false "create" (Fields.of PartitionAction.create
      |>.field "table" NodeId.codec
      |>.field "planned_node_id" NodeId.codec
      |>.field "number" nonZeroU32
      |>.field "offset" Bytes.codec
      |>.field "size" Bytes.codec
      |>.field "role" UsageRole.codec.option
      |>.field "attributes" PartitionAttributes.codec) (by decide),
    .record false "resize" (Fields.of PartitionAction.resize
      |>.field "partition" NodeId.codec
      |>.field "new_size" Bytes.codec) (by decide),
    .record false "delete" (Fields.of PartitionAction.delete
      |>.field "partition" NodeId.codec) (by decide),
    .record false "set_attributes" (Fields.of PartitionAction.setAttributes
      |>.field "partition" NodeId.codec
      |>.field "attributes" PartitionAttributes.codec) (by decide)] (by decide)

/-- A newtype: the UUID inside. -/
def CredentialRef.codec : Codec CredentialRef := Uuid.codec.map CredentialRef.mk

/-- A LUKS action, with `deny_unknown_fields` in each variant. -/
def LuksAction.codec : Codec LuksAction :=
  .choice [
    .record true "format" (Fields.of LuksAction.format
      |>.field "target" NodeId.codec
      |>.field "planned_node_id" NodeId.codec
      |>.field "version" LuksVersion.codec
      |>.field "credential" CredentialRef.codec) (by decide),
    .record true "open" (Fields.of LuksAction.open
      |>.field "container" NodeId.codec
      |>.field "planned_node_id" NodeId.codec
      |>.field "mapping_name" .string
      |>.field "credential" CredentialRef.codec
      |>.field "read_only" .bool) (by decide),
    .record true "close" (Fields.of LuksAction.close
      |>.field "mapping" NodeId.codec) (by decide),
    .record true "resize" (Fields.of LuksAction.resize
      |>.field "mapping" NodeId.codec
      |>.field "new_size" Bytes.codec.option) (by decide)] (by decide)

/-- An LVM action: its name with its arguments. -/
def LvmAction.codec : Codec LvmAction :=
  .choice [
    .record false "create_pv" (Fields.of LvmAction.createPv
      |>.field "backing" NodeId.codec
      |>.field "planned_node_id" NodeId.codec) (by decide),
    .record false "create_vg" (Fields.of LvmAction.createVg
      |>.field "planned_node_id" NodeId.codec
      |>.field "name" .string
      |>.field "pvs" NodeId.codec.list) (by decide),
    .record false "create_lv" (Fields.of LvmAction.createLv
      |>.field "vg" NodeId.codec
      |>.field "planned_node_id" NodeId.codec
      |>.field "name" .string
      |>.field "size" Bytes.codec
      |>.field "layout" LvmLvKind.codec) (by decide),
    .record false "resize_lv" (Fields.of LvmAction.resizeLv
      |>.field "lv" NodeId.codec
      |>.field "new_size" Bytes.codec) (by decide),
    .record false "remove_lv" (Fields.of LvmAction.removeLv
      |>.field "lv" NodeId.codec) (by decide),
    .record false "set_activation" (Fields.of LvmAction.setActivation
      |>.field "target" NodeId.codec
      |>.field "active" .bool) (by decide)] (by decide)

/-- A filesystem action: its name with its arguments. -/
def FilesystemAction.codec : Codec FilesystemAction :=
  .choice [
    .record false "create" (Fields.of FilesystemAction.create
      |>.field "backing" NodeId.codec
      |>.field "planned_node_id" NodeId.codec
      |>.field "filesystem" FilesystemKind.codec
      |>.field "label" Codec.string.option) (by decide),
    .record false "resize" (Fields.of FilesystemAction.resize
      |>.field "filesystem" NodeId.codec
      |>.field "new_size" Bytes.codec) (by decide),
    .record false "check" (Fields.of FilesystemAction.check
      |>.field "filesystem" NodeId.codec
      |>.field "force" .bool) (by decide),
    .record false "repair" (Fields.of FilesystemAction.repair
      |>.field "filesystem" NodeId.codec
      |>.field "force" .bool) (by decide),
    .record false "set_label" (Fields.of FilesystemAction.setLabel
      |>.field "filesystem" NodeId.codec
      |>.field "label" Codec.string.option) (by decide)] (by decide)

/-- A Btrfs action: its name with its arguments. -/
def BtrfsAction.codec : Codec BtrfsAction :=
  .choice [
    .record false "create" (Fields.of BtrfsAction.create
      |>.field "members" NodeId.codec.list
      |>.field "planned_node_id" NodeId.codec
      |>.field "label" Codec.string.option
      |>.field "allocation" BtrfsAllocation.codec) (by decide),
    .record false "add_device" (Fields.of BtrfsAction.addDevice
      |>.field "filesystem" NodeId.codec
      |>.field "device" NodeId.codec) (by decide),
    .record false "remove_device" (Fields.of BtrfsAction.removeDevice
      |>.field "filesystem" NodeId.codec
      |>.field "device" NodeId.codec) (by decide),
    .record false "convert_profiles" (Fields.of BtrfsAction.convertProfiles
      |>.field "filesystem" NodeId.codec
      |>.field "target" BtrfsAllocation.codec) (by decide),
    .record false "create_subvolume" (Fields.of BtrfsAction.createSubvolume
      |>.field "filesystem" NodeId.codec
      |>.field "planned_node_id" NodeId.codec
      |>.field "name" .string
      |>.field "read_only" .bool) (by decide)] (by decide)

/-- A mount action: its name with its arguments. -/
def MountAction.codec : Codec MountAction :=
  .choice [
    .record false "mount" (Fields.of MountAction.mount
      |>.field "source" MountSource.codec
      |>.field "target" PathBuf.codec
      |>.field "options" Codec.string.list
      |>.field "context" MountContext.codec) (by decide),
    .record false "unmount" (Fields.of MountAction.unmount
      |>.field "target" PathBuf.codec
      |>.field "context" MountContext.codec) (by decide),
    .record false "persist" (Fields.of MountAction.persist
      |>.field "entry" MountEntry.codec) (by decide),
    .record false "remove_persistent" (Fields.of MountAction.removePersistent
      |>.field "target" PathBuf.codec
      |>.field "context" MountContext.codec) (by decide)] (by decide)

/-- An action as a struct of the `provider` and its `operation`. -/
def ProviderAction.codec : Codec ProviderAction :=
  .adjacent "provider" "operation" [
    .holding "partition" .partition PartitionAction.codec,
    .holding "luks" .luks LuksAction.codec,
    .holding "lvm" .lvm LvmAction.codec,
    .holding "filesystem" .filesystem FilesystemAction.codec,
    .holding "btrfs" .btrfs BtrfsAction.codec,
    .holding "mount" .mount MountAction.codec] (by decide) (by decide)

end DisksGraph
