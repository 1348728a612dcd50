import Mathlib.Algebra.Group.Nat.Defs
import Mathlib.Data.Finset.Basic

/-!
# Model — Node

`storage-core`'s value types: identities, sizes, paths, node kinds, and the facts an observation
attaches to a node (`model/node.rs`, `model/block.rs`, `model/raid.rs`, `model/mod.rs`).

* A `Uuid` is its 128 bits; a `u64` is a `Nat`, and every operation of the code that can leave the
  range of `u64` says so where it is modelled.
* A `PathBuf` is the list of its `components()`.  Rust defines `==`, `starts_with`, `is_absolute`
  and `components` of a path through that list.  Its spelling shows in JSON alone, where
  `PathBuf.codec` keeps it.
* A `HashSet` of profiles is a `Finset`.
-/

namespace DisksGraph

/-! ### Identities, sizes and paths -/

/-- The 128 bits of a UUID. -/
abbrev Uuid : Type := BitVec 128

/-- `Uuid::is_nil`. -/
def Uuid.isNil (id : Uuid) : Bool := id == 0#128

/-- Identity of a storage node. -/
structure NodeId where
  asUuid : Uuid
deriving DecidableEq, Repr

/-- A byte count (`Bytes(u64)`). -/
abbrev Bytes : Type := Nat

/-- `u64::MAX + 1`. -/
def u64Bound : Nat := 2 ^ 64

/-- `u64::checked_add`. -/
def checkedAdd (a b : Nat) : Option Nat := if a + b < u64Bound then some (a + b) else none

/-- `u64::checked_sub`. -/
def checkedSub (a b : Nat) : Option Nat := if b ≤ a then some (a - b) else none

/-- `NonZeroU16`, `NonZeroU32` and `NonZeroU64`, at their widths. -/
def NonZero (width : Nat) : Type := { n : Nat // 0 < n ∧ n < 2 ^ width }

instance (width : Nat) : DecidableEq (NonZero width) :=
  inferInstanceAs (DecidableEq { n : Nat // 0 < n ∧ n < 2 ^ width })

/-- The block size that most devices report. -/
theorem nonZero_512 : 0 < 512 ∧ 512 < 2 ^ 32 := by decide

/-- The bytes of a file name that is not UTF-8. -/
def NonUtf8 : Type := { bytes : List UInt8 // ¬ByteArray.IsValidUTF8 ⟨bytes.toArray⟩ }

instance : DecidableEq NonUtf8 :=
  inferInstanceAs (DecidableEq { bytes : List UInt8 // ¬ByteArray.IsValidUTF8 ⟨bytes.toArray⟩ })

instance : Repr NonUtf8 :=
  inferInstanceAs (Repr { bytes : List UInt8 // ¬ByteArray.IsValidUTF8 ⟨bytes.toArray⟩ })

/-- No text has the byte `ff`. -/
theorem not_isValidUTF8_ff : ¬ByteArray.IsValidUTF8 ⟨[(0xff : UInt8)].toArray⟩ := by decide

/-- `std::path::Component` on Linux.  `Normal` is `normal` for a name that is text, and `nonUtf8`
for one that is not. -/
inductive Component where
  | rootDir
  | curDir
  | parentDir
  | normal (name : String)
  | nonUtf8 (name : NonUtf8)
deriving DecidableEq, Repr

/-- A path, as its components. -/
structure PathBuf where
  components : List Component
deriving DecidableEq, Repr

namespace PathBuf

/-- `Path::is_absolute`. -/
def isAbsolute (path : PathBuf) : Bool := path.components.head? == some .rootDir

/-- `Path::starts_with`, component by component. -/
def startsWith (path base : PathBuf) : Bool := base.components.isPrefixOf path.components

/-- `path.as_os_str().as_encoded_bytes().contains(&0)`. -/
def containsNul (path : PathBuf) : Bool :=
  path.components.any fun
    | .normal name => name.toList.any (· == '\x00')
    | .nonUtf8 name => name.1.any (· == 0)
    | _ => false

end PathBuf

/-! ### RAID and LVM layouts -/

/-- LVM striping, with or without raid metadata. -/
inductive LvmRaid0Variant where
  | raid0
  | raid0Meta
deriving DecidableEq, Repr

/-- The ways parity rotates over the members. -/
inductive ParityRotation where
  | leftSymmetric
  | leftAsymmetric
  | rightSymmetric
  | rightAsymmetric
deriving DecidableEq, Repr

/-- Where LVM puts the parity of a raid5 volume. -/
inductive LvmRaid5Layout where
  | rotating (rotation : ParityRotation)
  | parityN
deriving DecidableEq, Repr

/-- Where LVM puts the two parities of a raid6 volume. -/
inductive LvmRaid6Layout where
  | zeroRestart
  | nRestart
  | nContinue
  | dedicatedParity
  | raid5Compatible (rotation : ParityRotation)
deriving DecidableEq, Repr

/-- Number of complete data copies in a mirrored RAID layout. -/
abbrev CopyCount : Type := NonZero 16

/-- Values below two are not RAID replication. -/
def CopyCount.new (value : Nat) : Option CopyCount :=
  if h : 2 ≤ value ∧ value < 2 ^ 16 then some ⟨value, Nat.zero_lt_of_lt h.1, h.2⟩ else none

/-- A number of data stripes: a nonzero `u16`. -/
abbrev DataStripeCount : Type := NonZero 16

/-- The raid geometry of a logical volume. -/
inductive LvmRaid where
  | raid0 (variant : LvmRaid0Variant) (dataWidth : DataStripeCount) (stripeSize : Bytes)
  | raid1 (copies : CopyCount)
  | raid4 (dataWidth : DataStripeCount) (stripeSize : Bytes)
  | raid5 (layout : LvmRaid5Layout) (dataWidth : DataStripeCount) (stripeSize : Bytes)
  | raid6 (layout : LvmRaid6Layout) (dataWidth : DataStripeCount) (stripeSize : Bytes)
  | raid10 (copies : CopyCount) (dataWidth : DataStripeCount) (stripeSize : Bytes)
deriving DecidableEq

/-- LVM logical volume layout or role. -/
inductive LvmLvKind where
  | linear
  | striped (stripes : DataStripeCount)
  | raid (layout : LvmRaid)
  | mirror (copies : CopyCount)
  | thinPool
  | thin
  | snapshot
  | cachePool
  | cache
  | writeCache
  | other (name : String)
deriving DecidableEq

/-- A logical volume: its name and how it maps its extents. -/
structure LvmLv where
  name : String
  kind : LvmLvKind
deriving DecidableEq

/-- Layouts of a raid0 array whose members differ in size. -/
inductive MdRaid0Layout where
  | original
  | alternate
  | unspecified
deriving DecidableEq, Repr

/-- Where an MD array puts its parity. -/
inductive MdParityLayout where
  | rotating (rotation : ParityRotation)
  | parityFirst
  | parityLast
  | ddfZeroRestart
  | ddfNRestart
  | ddfNContinue
deriving DecidableEq, Repr

/-- The raid6 layouts that keep Q on the last member. -/
inductive MdRaid6DedicatedQ where
  | leftSymmetric6
  | rightSymmetric6
  | leftAsymmetric6
  | rightAsymmetric6
  | parityFirst6
deriving DecidableEq, Repr

/-- Where an MD array puts the two parities of raid6. -/
inductive MdRaid6Layout where
  | standard (layout : MdParityLayout)
  | dedicatedQ (layout : MdRaid6DedicatedQ)
deriving DecidableEq, Repr

/-- How copies spread over the members of a raid10 array. -/
inductive MdRaid10Mode where
  | near
  | offset
  | far
deriving DecidableEq, Repr

/-- A raid10 layout: its mode and the number of copies. -/
structure MdRaid10Layout where
  mode : MdRaid10Mode
  copies : CopyCount
deriving DecidableEq

/-- The raid geometry of an MD array. -/
inductive MdRaid where
  | raid0 (layout : MdRaid0Layout) (chunkSize : Bytes)
  | raid1
  | raid4 (chunkSize : Bytes)
  | raid5 (layout : MdParityLayout) (chunkSize : Bytes)
  | raid6 (layout : MdRaid6Layout) (chunkSize : Bytes)
  | raid10 (layout : MdRaid10Layout) (chunkSize : Bytes)
deriving DecidableEq

/-- What an MD array does with its members. -/
inductive MdPersonality where
  | raid (layout : MdRaid)
  | linear (rounding : Option Bytes)
  | multipath
  | faulty
  | container
deriving DecidableEq

/-- The versions of MD's own metadata. -/
inductive MdNativeMetadata where
  | v0_90
  | v1_0
  | v1_1
  | v1_2
deriving DecidableEq, Repr

/-- The foreign metadata formats MD reads. -/
inductive MdExternalMetadata where
  | ddf
  | imsm
deriving DecidableEq, Repr

/-- The metadata an MD array keeps. -/
inductive MdMetadata where
  | none
  | native (version : MdNativeMetadata)
  | external (format : MdExternalMetadata)
deriving DecidableEq, Repr

/-- An MD array: its personality and its metadata. -/
structure MdArray where
  personality : MdPersonality
  metadata : MdMetadata
deriving DecidableEq

/-- The redundancy profiles of Btrfs block groups. -/
inductive BtrfsProfile where
  | single
  | dup
  | raid0
  | raid1
  | raid1C3
  | raid1C4
  | raid10
  | raid5
  | raid6
deriving DecidableEq, Repr

/-- Btrfs allocation profiles used by each chunk class. -/
structure BtrfsAllocation where
  data : Finset BtrfsProfile
  metadata : Finset BtrfsProfile
  system : Finset BtrfsProfile
deriving DecidableEq

/-! ### Node kinds -/

/-- When dm-cache writes through to the origin. -/
inductive DmCacheMode where
  | writeback
  | writethrough
  | passthrough
deriving DecidableEq, Repr

/-- When bcache writes through to the backing device. -/
inductive BcacheMode where
  | writeback
  | writethrough
  | writearound
  | none
deriving DecidableEq, Repr

/-- The two LUKS header versions. -/
inductive LuksVersion where
  | luks1
  | luks2
deriving DecidableEq, Repr

/-- Filesystem implementation and implementation-specific allocation data. -/
inductive FilesystemKind where
  | ext2
  | ext3
  | ext4
  | xfs
  | btrfs (allocation : BtrfsAllocation)
  | jfs
  | reiserfs
  | vfat
  | ntfs
  | exfat
  | f2fs
  | ocfs2
  | gfs2
  | apfs
  | other (name : String)
deriving DecidableEq

/-- The sizes of a namespace's data and metadata blocks. -/
structure NvmeLbaFormat where
  dataSize : NonZero 32
  metadataSize : Nat
deriving DecidableEq

/-- A namespace: its number and its block format. -/
structure NvmeNamespace where
  nsid : NonZero 32
  format : NvmeLbaFormat
deriving DecidableEq

/-- Native partition attribute bits and legacy boot flag. -/
structure PartitionAttributes where
  gpt : Option Nat := none
  bootable : Option Bool := none
deriving DecidableEq, Repr

/-- What the user keeps on a filesystem. -/
inductive UsageRole where
  | boot
  | root
  | home
  | data
deriving DecidableEq, Repr

/-- The partition tables the program writes. -/
inductive PartitionTable where
  | gpt
  | mbr
deriving DecidableEq, Repr

/-- The allocation class of a top-level vdev. -/
inductive ZfsVdevClass where
  | data
  | log
  | special
  | dedup
  | cache
  | spare
deriving DecidableEq, Repr

/-- A vdev inside another one, or at the top of its pool. -/
inductive ZfsMember where
  | child
  | topLevel (allocationClass : ZfsVdevClass)
deriving DecidableEq, Repr

/-- The number of parity devices of a raidz or draid vdev. -/
inductive ZfsParity where
  | one
  | two
  | three
deriving DecidableEq, Repr

/-- What a vdev does with its children. -/
inductive ZfsVdevKind where
  | leaf
  | mirror
  | raidZ (parity : ZfsParity)
  | dRaid (parity : ZfsParity) (dataWidth : DataStripeCount) (distributedSpares : Nat)
  | other (name : String)
deriving DecidableEq

/-- Intrinsic semantic kind and properties of a storage node. -/
inductive NodeKind where
  | disk
  | nvmeSubsystem (nqn : String)
  | nvmeController
  | nvmeNamespace (namespace_ : NvmeNamespace)
  | loop (backingFile : Option PathBuf)
  | zram
  | dmMultipath
  | partitionTable (table : PartitionTable)
  | partition (number : NonZero 32) (offset : Bytes) (role : Option UsageRole)
      (attributes : PartitionAttributes)
  | luksContainer (version : LuksVersion)
  | dmCryptMapping (name : String)
  | dmIntegrity (name : String)
  | dmVerity (name : String)
  | mdArray (array : MdArray)
  | lvmPv
  | lvmVg (name : String) (extentSize : Option Bytes)
  | lvmLv (lv : LvmLv)
  | bcache (name : String) (mode : BcacheMode)
  | dmCache (name : String) (mode : DmCacheMode)
  | dmWritecache (name : String)
  | filesystem (kind : FilesystemKind) (label : Option String)
  | swap
  | btrfsSubvolume (name : String) (readOnly : Bool) (isDefault : Bool)
  | zfsPool (name : String)
  | zfsVdev (kind : ZfsVdevKind)
  | zfsDataset (name : String)
  | zfsVolume (name : String)
  | drbd (name : String)
  | unknown (description : String)
deriving DecidableEq

/-- A node's kind and the capacity it exposes, when known. -/
structure NodeSpec where
  kind : NodeKind
  size : Option Bytes
deriving DecidableEq

/-! ### Observed facts -/

/-- Publication generation of a probe (`ProbeEpoch(u64)`). -/
abbrev ProbeEpoch : Type := Nat

/-- A kernel device number. -/
structure DeviceNumber where
  major : Nat
  minor : Nat
deriving DecidableEq, Repr

/-- The block sizes and alignment the kernel reports. -/
structure BlockGeometry where
  logicalBlockSize : NonZero 32
  physicalBlockSize : Option (NonZero 32)
  alignmentOffset : Option Bytes
  minimumIoSize : Option Bytes
  optimalIoSize : Option Bytes
deriving DecidableEq

/-- What the kernel says about a block device. -/
structure BlockFacts where
  paths : List PathBuf
  devno : DeviceNumber
  geometry : Option BlockGeometry
  readOnly : Option Bool
deriving DecidableEq

/-- Network protocol backing an already mapped virtual block device. -/
inductive NetworkBacking where
  | rbd
  | nbd
deriving DecidableEq, Repr

/-- Zoned block-device behavior. -/
inductive ZonedModel where
  | hostAware
  | hostManaged
  | none
deriving DecidableEq, Repr

/-- How a device is reached. -/
inductive Transport where
  | nvme
  | nvmeOf
  | sata
  | sas
  | scsi
  | usb
  | virtio
  | mmc
  | fibreChannel
  | iscsi
deriving DecidableEq, Repr

/-- Descriptive facts about a device. -/
structure DeviceInfo where
  model : Option String
  vendor : Option String
  transport : Option Transport
  networkBacking : Option NetworkBacking
  rotational : Option Bool
  removable : Option Bool
  zoned : Option ZonedModel
deriving DecidableEq, Repr

/-- A stable identity read from a device. -/
inductive ExternalId where
  | wwn (value : String)
  | serial (vendor : Option String) (value : String)
  | gptPartitionUuid (uuid : Uuid)
  | mbrPartitionId (diskSignature : Nat) (number : NonZero 32)
  | luksUuid (uuid : Uuid)
  | mdUuid (value : String)
  | lvmPvUuid (value : String)
  | lvmVgUuid (value : String)
  | lvmLvUuid (value : String)
  | filesystem (fsType : String) (value : String)
  | btrfsFsid (uuid : Uuid)
  | btrfsSubvolumeUuid (uuid : Uuid)
  | zfsGuid (value : Nat)
  | nvmeNguid (value : BitVec 128)
  | nvmeEui64 (value : BitVec 64)
  | nvmeUuid (uuid : Uuid)
  | iscsi (targetIqn : String) (lun : Nat)
  | nvmeOf (subsystemNqn : String) (namespace_ : NonZero 32)
deriving DecidableEq

/-- Whether the object was there when it was last looked for. -/
inductive Presence where
  | unknown
  | present
  | missing
deriving DecidableEq, Repr

/-- Runtime observations of a node. -/
structure NodeFacts where
  lvmActive : Option Bool := none
  observedIn : Option ProbeEpoch := none
  presence : Presence := .unknown
  identities : List ExternalId := []
  block : Option BlockFacts := none
  device : Option DeviceInfo := none
deriving DecidableEq

/-- A storage object.  The field names are the source's: `kind` holds the specification and
`size` the observed facts. -/
structure Node where
  kind : NodeSpec
  size : NodeFacts
deriving DecidableEq

end DisksGraph
