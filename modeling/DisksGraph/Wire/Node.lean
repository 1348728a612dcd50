import DisksGraph.Model.State
import DisksGraph.Wire.Value

/-!
# Wire — Node

The derived JSON form of a node (`model/mod.rs`, `model/raid.rs`, `model/block.rs`,
`model/node.rs`), one codec for each type, with the names that serde writes.

* A field is found by its name or by its position; an unknown one is passed over.
* `CopyCount` is `serde(transparent)`: its codec is the one of the number inside, which does not
  ask `CopyCount::new`.
-/

namespace DisksGraph

open Support (Codec Fields Variant)

/-! ### RAID and LVM layouts -/

/-- The variants under their names. -/
def LvmRaid0Variant.codec : Codec LvmRaid0Variant :=
  .choice [.unit "Raid0" .raid0, .unit "Raid0Meta" .raid0Meta] (by decide)

/-- The rotations under their names. -/
def ParityRotation.codec : Codec ParityRotation :=
  .choice [.unit "LeftSymmetric" .leftSymmetric, .unit "LeftAsymmetric" .leftAsymmetric,
    .unit "RightSymmetric" .rightSymmetric, .unit "RightAsymmetric" .rightAsymmetric] (by decide)

/-- A raid5 layout, with its rotation. -/
def LvmRaid5Layout.codec : Codec LvmRaid5Layout :=
  .choice [.holding "Rotating" .rotating ParityRotation.codec,
    .unit "ParityN" .parityN] (by decide)

/-- A raid6 layout, with its rotation. -/
def LvmRaid6Layout.codec : Codec LvmRaid6Layout :=
  .choice [.unit "ZeroRestart" .zeroRestart, .unit "NRestart" .nRestart,
    .unit "NContinue" .nContinue, .unit "DedicatedParity" .dedicatedParity,
    .holding "Raid5Compatible" .raid5Compatible ParityRotation.codec] (by decide)

/-- `serde(transparent)`: any `NonZeroU16`, one included. -/
def CopyCount.codec : Codec CopyCount := nonZeroU16

/-- `serde(transparent)`: a `NonZeroU16`. -/
def DataStripeCount.codec : Codec DataStripeCount := nonZeroU16

/-- An LVM raid level with its geometry. -/
def LvmRaid.codec : Codec LvmRaid :=
  .choice [
    .record false "Raid0" (Fields.of LvmRaid.raid0
      |>.field "variant" LvmRaid0Variant.codec
      |>.field "data_width" DataStripeCount.codec
      |>.field "stripe_size" Bytes.codec) (by decide),
    .record false "Raid1" (Fields.of LvmRaid.raid1
      |>.field "copies" CopyCount.codec) (by decide),
    .record false "Raid4" (Fields.of LvmRaid.raid4
      |>.field "data_width" DataStripeCount.codec
      |>.field "stripe_size" Bytes.codec) (by decide),
    .record false "Raid5" (Fields.of LvmRaid.raid5
      |>.field "layout" LvmRaid5Layout.codec
      |>.field "data_width" DataStripeCount.codec
      |>.field "stripe_size" Bytes.codec) (by decide),
    .record false "Raid6" (Fields.of LvmRaid.raid6
      |>.field "layout" LvmRaid6Layout.codec
      |>.field "data_width" DataStripeCount.codec
      |>.field "stripe_size" Bytes.codec) (by decide),
    .record false "Raid10" (Fields.of LvmRaid.raid10
      |>.field "copies" CopyCount.codec
      |>.field "data_width" DataStripeCount.codec
      |>.field "stripe_size" Bytes.codec) (by decide)] (by decide)

/-- How a volume maps its extents. -/
def LvmLvKind.codec : Codec LvmLvKind :=
  .choice [
    .unit "Linear" .linear,
    .record false "Striped" (Fields.of LvmLvKind.striped
      |>.field "stripes" DataStripeCount.codec) (by decide),
    .holding "Raid" .raid LvmRaid.codec,
    .record false "Mirror" (Fields.of LvmLvKind.mirror
      |>.field "copies" CopyCount.codec) (by decide),
    .unit "ThinPool" .thinPool,
    .unit "Thin" .thin,
    .unit "Snapshot" .snapshot,
    .unit "CachePool" .cachePool,
    .unit "Cache" .cache,
    .unit "WriteCache" .writeCache,
    .holding "Other" .other .string] (by decide)

/-- A logical volume. -/
def LvmLv.codec : Codec LvmLv :=
  .record false (Fields.of LvmLv.mk
    |>.field "name" .string
    |>.field "kind" LvmLvKind.codec) (by decide)

/-- The raid0 layouts under their names. -/
def MdRaid0Layout.codec : Codec MdRaid0Layout :=
  .choice [.unit "Original" .original, .unit "Alternate" .alternate,
    .unit "Unspecified" .unspecified] (by decide)

/-- A parity layout, with its rotation. -/
def MdParityLayout.codec : Codec MdParityLayout :=
  .choice [.holding "Rotating" .rotating ParityRotation.codec, .unit "ParityFirst" .parityFirst,
    .unit "ParityLast" .parityLast, .unit "DdfZeroRestart" .ddfZeroRestart,
    .unit "DdfNRestart" .ddfNRestart, .unit "DdfNContinue" .ddfNContinue] (by decide)

/-- The layouts under their names. -/
def MdRaid6DedicatedQ.codec : Codec MdRaid6DedicatedQ :=
  .choice [.unit "LeftSymmetric6" .leftSymmetric6, .unit "RightSymmetric6" .rightSymmetric6,
    .unit "LeftAsymmetric6" .leftAsymmetric6, .unit "RightAsymmetric6" .rightAsymmetric6,
    .unit "ParityFirst6" .parityFirst6] (by decide)

/-- A raid6 layout of either family. -/
def MdRaid6Layout.codec : Codec MdRaid6Layout :=
  .choice [.holding "Standard" .standard MdParityLayout.codec,
    .holding "DedicatedQ" .dedicatedQ MdRaid6DedicatedQ.codec] (by decide)

/-- The modes under their names. -/
def MdRaid10Mode.codec : Codec MdRaid10Mode :=
  .choice [.unit "Near" .near, .unit "Offset" .offset, .unit "Far" .far] (by decide)

/-- A raid10 layout. -/
def MdRaid10Layout.codec : Codec MdRaid10Layout :=
  .record false (Fields.of MdRaid10Layout.mk
    |>.field "mode" MdRaid10Mode.codec
    |>.field "copies" CopyCount.codec) (by decide)

/-- An MD raid level with its geometry. -/
def MdRaid.codec : Codec MdRaid :=
  .choice [
    .record false "Raid0" (Fields.of MdRaid.raid0
      |>.field "layout" MdRaid0Layout.codec
      |>.field "chunk_size" Bytes.codec) (by decide),
    .unit "Raid1" .raid1,
    .record false "Raid4" (Fields.of MdRaid.raid4
      |>.field "chunk_size" Bytes.codec) (by decide),
    .record false "Raid5" (Fields.of MdRaid.raid5
      |>.field "layout" MdParityLayout.codec
      |>.field "chunk_size" Bytes.codec) (by decide),
    .record false "Raid6" (Fields.of MdRaid.raid6
      |>.field "layout" MdRaid6Layout.codec
      |>.field "chunk_size" Bytes.codec) (by decide),
    .record false "Raid10" (Fields.of MdRaid.raid10
      |>.field "layout" MdRaid10Layout.codec
      |>.field "chunk_size" Bytes.codec) (by decide)] (by decide)

/-- A personality with its data. -/
def MdPersonality.codec : Codec MdPersonality :=
  .choice [
    .holding "Raid" .raid MdRaid.codec,
    .record false "Linear" (Fields.of MdPersonality.linear
      |>.field "rounding" Bytes.codec.option) (by decide),
    .unit "Multipath" .multipath,
    .unit "Faulty" .faulty,
    .unit "Container" .container] (by decide)

/-- The versions under their names. -/
def MdNativeMetadata.codec : Codec MdNativeMetadata :=
  .choice [.unit "V0_90" .v0_90, .unit "V1_0" .v1_0, .unit "V1_1" .v1_1,
    .unit "V1_2" .v1_2] (by decide)

/-- The formats under their names. -/
def MdExternalMetadata.codec : Codec MdExternalMetadata :=
  .choice [.unit "Ddf" .ddf, .unit "Imsm" .imsm] (by decide)

/-- The metadata with its version or format. -/
def MdMetadata.codec : Codec MdMetadata :=
  .choice [.unit "None" .none, .holding "Native" .native MdNativeMetadata.codec,
    .holding "External" .external MdExternalMetadata.codec] (by decide)

/-- An MD array. -/
def MdArray.codec : Codec MdArray :=
  .record false (Fields.of MdArray.mk
    |>.field "personality" MdPersonality.codec
    |>.field "metadata" MdMetadata.codec) (by decide)

/-- The profiles under their names. -/
def BtrfsProfile.codec : Codec BtrfsProfile :=
  .choice [.unit "single" .single, .unit "dup" .dup, .unit "raid0" .raid0, .unit "raid1" .raid1,
    .unit "raid1c3" .raid1C3, .unit "raid1c4" .raid1C4, .unit "raid10" .raid10,
    .unit "raid5" .raid5, .unit "raid6" .raid6] (by decide)

/-- A `HashSet` of profiles. -/
def BtrfsProfile.setCodec : Codec (Finset BtrfsProfile) :=
  (BtrfsProfile.codec.hashSet).map List.toFinset

/-- The profiles of data, metadata and system groups. -/
def BtrfsAllocation.codec : Codec BtrfsAllocation :=
  .record false (Fields.of BtrfsAllocation.mk
    |>.field "data" BtrfsProfile.setCodec
    |>.field "metadata" BtrfsProfile.setCodec
    |>.field "system" BtrfsProfile.setCodec) (by decide)

/-! ### Node kinds -/

/-- The modes under their names. -/
def DmCacheMode.codec : Codec DmCacheMode :=
  .choice [.unit "writeback" .writeback, .unit "writethrough" .writethrough,
    .unit "passthrough" .passthrough] (by decide)

/-- The modes under their names. -/
def BcacheMode.codec : Codec BcacheMode :=
  .choice [.unit "writeback" .writeback, .unit "writethrough" .writethrough,
    .unit "writearound" .writearound, .unit "none" .none] (by decide)

/-- The versions under their names. -/
def LuksVersion.codec : Codec LuksVersion :=
  .choice [.unit "Luks1" .luks1, .unit "Luks2" .luks2] (by decide)

/-- A filesystem's kind; Btrfs has its profiles with it. -/
def FilesystemKind.codec : Codec FilesystemKind :=
  .choice [.unit "Ext2" .ext2, .unit "Ext3" .ext3, .unit "Ext4" .ext4, .unit "Xfs" .xfs,
    .holding "Btrfs" .btrfs BtrfsAllocation.codec, .unit "Jfs" .jfs, .unit "Reiserfs" .reiserfs,
    .unit "Vfat" .vfat, .unit "Ntfs" .ntfs, .unit "Exfat" .exfat, .unit "F2fs" .f2fs,
    .unit "Ocfs2" .ocfs2, .unit "Gfs2" .gfs2, .unit "Apfs" .apfs,
    .holding "Other" .other .string] (by decide)

/-- A newtype: the `NonZeroU32` inside. -/
def BlockSize.codec : Codec (NonZero 32) := nonZeroU32

/-- A newtype: the `NonZeroU32` inside. -/
def NvmeNamespaceId.codec : Codec (NonZero 32) := nonZeroU32

/-- A namespace's block format. -/
def NvmeLbaFormat.codec : Codec NvmeLbaFormat :=
  .record false (Fields.of NvmeLbaFormat.mk
    |>.field "data_size" BlockSize.codec
    |>.field "metadata_size" u16) (by decide)

/-- A namespace. -/
def NvmeNamespace.codec : Codec NvmeNamespace :=
  .record false (Fields.of NvmeNamespace.mk
    |>.field "nsid" NvmeNamespaceId.codec
    |>.field "format" NvmeLbaFormat.codec) (by decide)

/-- The GPT attribute bits and the boot flag. -/
def PartitionAttributes.codec : Codec PartitionAttributes :=
  .record false (Fields.of PartitionAttributes.mk
    |>.field "gpt" u64.option
    |>.field "bootable" Codec.bool.option) (by decide)

/-- The roles under their names. -/
def UsageRole.codec : Codec UsageRole :=
  .choice [.unit "boot" .boot, .unit "root" .root, .unit "home" .home,
    .unit "data" .data] (by decide)

/-- The tables under their names. -/
def PartitionTable.codec : Codec PartitionTable :=
  .choice [.unit "GPT" .gpt, .unit "MBR" .mbr] (by decide)

/-- The classes under their names. -/
def ZfsVdevClass.codec : Codec ZfsVdevClass :=
  .choice [.unit "data" .data, .unit "log" .log, .unit "special" .special, .unit "dedup" .dedup,
    .unit "cache" .cache, .unit "spare" .spare] (by decide)

/-- A vdev's place in its pool. -/
def ZfsMember.codec : Codec ZfsMember :=
  .choice [.unit "Child" .child, .holding "TopLevel" .topLevel ZfsVdevClass.codec] (by decide)

/-- The parities under their names. -/
def ZfsParity.codec : Codec ZfsParity :=
  .choice [.unit "one" .one, .unit "two" .two, .unit "three" .three] (by decide)

/-- A vdev's kind with its geometry. -/
def ZfsVdevKind.codec : Codec ZfsVdevKind :=
  .choice [
    .unit "leaf" .leaf,
    .unit "mirror" .mirror,
    .record false "raid_z" (Fields.of ZfsVdevKind.raidZ
      |>.field "parity" ZfsParity.codec) (by decide),
    .record false "d_raid" (Fields.of ZfsVdevKind.dRaid
      |>.field "parity" ZfsParity.codec
      |>.field "data_width" DataStripeCount.codec
      |>.field "distributed_spares" u16) (by decide),
    .holding "other" .other .string] (by decide)

/-- A node's kind with its data. -/
def NodeKind.codec : Codec NodeKind :=
  .choice [
    .unit "Disk" .disk,
    .record false "NvmeSubsystem" (Fields.of NodeKind.nvmeSubsystem
      |>.field "nqn" .string) (by decide),
    .unit "NvmeController" .nvmeController,
    .holding "NvmeNamespace" .nvmeNamespace NvmeNamespace.codec,
    .record false "Loop" (Fields.of NodeKind.loop
      |>.field "backing_file" PathBuf.codec.option) (by decide),
    .unit "Zram" .zram,
    .unit "DmMultipath" .dmMultipath,
    .holding "PartitionTable" .partitionTable PartitionTable.codec,
    .record false "Partition" (Fields.of NodeKind.partition
      |>.field "number" nonZeroU32
      |>.field "offset" Bytes.codec
      |>.field "role" UsageRole.codec.option
      |>.field "attributes" PartitionAttributes.codec) (by decide),
    .record false "LuksContainer" (Fields.of NodeKind.luksContainer
      |>.field "version" LuksVersion.codec) (by decide),
    .record false "DmCryptMapping" (Fields.of NodeKind.dmCryptMapping
      |>.field "name" .string) (by decide),
    .record false "DmIntegrity" (Fields.of NodeKind.dmIntegrity
      |>.field "name" .string) (by decide),
    .record false "DmVerity" (Fields.of NodeKind.dmVerity
      |>.field "name" .string) (by decide),
    .holding "MdArray" .mdArray MdArray.codec,
    .unit "LvmPv" .lvmPv,
    .record false "LvmVg" (Fields.of NodeKind.lvmVg
      |>.field "name" .string
      |>.field "extent_size" Bytes.codec.option) (by decide),
    .holding "LvmLv" .lvmLv LvmLv.codec,
    .record false "Bcache" (Fields.of NodeKind.bcache
      |>.field "name" .string
      |>.field "mode" BcacheMode.codec) (by decide),
    .record false "DmCache" (Fields.of NodeKind.dmCache
      |>.field "name" .string
      |>.field "mode" DmCacheMode.codec) (by decide),
    .record false "DmWritecache" (Fields.of NodeKind.dmWritecache
      |>.field "name" .string) (by decide),
    .record false "Filesystem" (Fields.of NodeKind.filesystem
      |>.field "kind" FilesystemKind.codec
      |>.field "label" Codec.string.option) (by decide),
    .unit "Swap" .swap,
    .record false "BtrfsSubvolume" (Fields.of NodeKind.btrfsSubvolume
      |>.field "name" .string
      |>.field "read_only" .bool
      |>.field "is_default" .bool) (by decide),
    .record false "ZfsPool" (Fields.of NodeKind.zfsPool
      |>.field "name" .string) (by decide),
    .holding "ZfsVdev" .zfsVdev ZfsVdevKind.codec,
    .record false "ZfsDataset" (Fields.of NodeKind.zfsDataset
      |>.field "name" .string) (by decide),
    .record false "ZfsVolume" (Fields.of NodeKind.zfsVolume
      |>.field "name" .string) (by decide),
    .record false "Drbd" (Fields.of NodeKind.drbd
      |>.field "name" .string) (by decide),
    .holding "Unknown" .unknown .string] (by decide)

/-- A kind and a size. -/
def NodeSpec.codec : Codec NodeSpec :=
  .record false (Fields.of NodeSpec.mk
    |>.field "kind" NodeKind.codec
    |>.field "size" Bytes.codec.option) (by decide)

/-! ### Observed facts -/

/-- A device number. -/
def DeviceNumber.codec : Codec DeviceNumber :=
  .record false (Fields.of DeviceNumber.mk
    |>.field "major" u32
    |>.field "minor" u32) (by decide)

/-- The block sizes and the alignment. -/
def BlockGeometry.codec : Codec BlockGeometry :=
  .record false (Fields.of BlockGeometry.mk
    |>.field "logical_block_size" BlockSize.codec
    |>.field "physical_block_size" BlockSize.codec.option
    |>.field "alignment_offset" Bytes.codec.option
    |>.field "minimum_io_size" Bytes.codec.option
    |>.field "optimal_io_size" Bytes.codec.option) (by decide)

/-- The kernel's facts of a block device. -/
def BlockFacts.codec : Codec BlockFacts :=
  .record false (Fields.of BlockFacts.mk
    |>.field "paths" PathBuf.codec.list
    |>.field "devno" DeviceNumber.codec
    |>.field "geometry" BlockGeometry.codec.option
    |>.field "read_only" Codec.bool.option) (by decide)

/-- The network protocols in snake case. -/
def NetworkBacking.codec : Codec NetworkBacking :=
  .choice [.unit "rbd" .rbd, .unit "nbd" .nbd] (by decide)

/-- The zoned models under their names. -/
def ZonedModel.codec : Codec ZonedModel :=
  .choice [.unit "host_aware" .hostAware, .unit "host_managed" .hostManaged,
    .unit "none" .none] (by decide)

/-- The transports in snake case. -/
def Transport.codec : Codec Transport :=
  .choice [.unit "nvme" .nvme, .unit "nvme_of" .nvmeOf, .unit "sata" .sata, .unit "sas" .sas,
    .unit "scsi" .scsi, .unit "usb" .usb, .unit "virtio" .virtio, .unit "mmc" .mmc,
    .unit "fibre_channel" .fibreChannel, .unit "iscsi" .iscsi] (by decide)

/-- The hardware facts of a device. -/
def DeviceInfo.codec : Codec DeviceInfo :=
  .record false (Fields.of DeviceInfo.mk
    |>.field "model" Codec.string.option
    |>.field "vendor" Codec.string.option
    |>.field "transport" Transport.codec.option
    |>.field "network_backing" NetworkBacking.codec.option
    |>.field "rotational" Codec.bool.option
    |>.field "removable" Codec.bool.option
    |>.field "zoned" ZonedModel.codec.option) (by decide)

/-- The bits of an array of bytes, the first byte highest. -/
def bytesValue (width : Nat) (bytes : List Nat) : BitVec width :=
  .ofNat width (bytes.foldl (fun value byte => 256 * value + byte) 0)

/-- An identity: its kind and its text or number. -/
def ExternalId.codec : Codec ExternalId :=
  .choice [
    .holding "Wwn" .wwn .string,
    .record false "Serial" (Fields.of ExternalId.serial
      |>.field "vendor" Codec.string.option
      |>.field "value" .string) (by decide),
    .holding "GptPartitionUuid" .gptPartitionUuid Uuid.codec,
    .record false "MbrPartitionId" (Fields.of ExternalId.mbrPartitionId
      |>.field "disk_signature" u32
      |>.field "number" nonZeroU32) (by decide),
    .holding "LuksUuid" .luksUuid Uuid.codec,
    .holding "MdUuid" .mdUuid .string,
    .holding "LvmPvUuid" .lvmPvUuid .string,
    .holding "LvmVgUuid" .lvmVgUuid .string,
    .holding "LvmLvUuid" .lvmLvUuid .string,
    .record false "Filesystem" (Fields.of ExternalId.filesystem
      |>.field "fs_type" .string
      |>.field "value" .string) (by decide),
    .holding "BtrfsFsid" .btrfsFsid Uuid.codec,
    .holding "BtrfsSubvolumeUuid" .btrfsSubvolumeUuid Uuid.codec,
    .holding "ZfsGuid" .zfsGuid u64,
    .holding "NvmeNguid" .nvmeNguid ((u8.array 16).map (bytesValue 128)),
    .holding "NvmeEui64" .nvmeEui64 ((u8.array 8).map (bytesValue 64)),
    .holding "NvmeUuid" .nvmeUuid Uuid.codec,
    .record false "Iscsi" (Fields.of ExternalId.iscsi
      |>.field "target_iqn" .string
      |>.field "lun" u64) (by decide),
    .record false "NvmeOf" (Fields.of ExternalId.nvmeOf
      |>.field "subsystem_nqn" .string
      |>.field "namespace" nonZeroU32) (by decide)] (by decide)

/-- The three answers under their names. -/
def Presence.codec : Codec Presence :=
  .choice [.unit "Unknown" .unknown, .unit "Present" .present,
    .unit "Missing" .missing] (by decide)

/-- The activation is left out when it is unknown. -/
def NodeFacts.codec : Codec NodeFacts :=
  .record false (Fields.of NodeFacts.mk
    |>.skipped "lvm_active" .bool
    |>.field "observed_in" u64.option
    |>.field "presence" Presence.codec
    |>.field "identities" ExternalId.codec.list
    |>.field "block" BlockFacts.codec.option
    |>.field "device" DeviceInfo.codec.option) (by decide)

/-- A node: its specification and its facts. -/
def Node.codec : Codec Node :=
  .record false (Fields.of Node.mk
    |>.field "kind" NodeSpec.codec
    |>.field "size" NodeFacts.codec) (by decide)

end DisksGraph
