import DisksGraph.Model.State

/-!
# Probe — Records

What the native libraries report to `storage-probe`, one structure per record of
`storage-provider/src/lib.rs`, and the identities and kinds `linux.rs` derives from a record
without looking at a graph.

* A path of a record is kept as the text it is spelled with: `to_string_lossy` feeds that text to
  `stableNodeId`, while `==`, `contains` and hashing see only its components
  (`PathBuf.ofString`).  Paths are UTF-8.
* An integer is a `Nat`; what multiplies two of them saturates at `u64::MAX`.
* Fields no modelled function reads are left out (usage counters, segments).
-/

namespace DisksGraph

/-! ### Text -/

/-- `PathBuf::from(text)` up to `==`: repeated separators and inner `.` components vanish. -/
def PathBuf.ofString (text : String) : PathBuf :=
  let rooted := text.toList.head? == some '/'
  let pieces := (text.toList.splitOn '/').map String.ofList
  let named := pieces.filterMap fun
    | "" => none
    | "." => none
    | ".." => some Component.parentDir
    | name => some (.normal name)
  if rooted then ⟨.rootDir :: named⟩
  else if pieces.head? == some "." then ⟨.curDir :: named⟩
  else ⟨named⟩

/-- `u64::saturating_mul`. -/
def saturatingMul (a b : Nat) : Nat := min (a * b) (u64Bound - 1)

/-- `NonZeroU16::new`, `NonZeroU32::new` and `NonZeroU64::new`. -/
def NonZero.new (width n : Nat) : Option (NonZero width) :=
  if h : 0 < n ∧ n < 2 ^ width then some ⟨n, h⟩ else none

/-- `str::split_once` at a character. -/
def splitOnce (text : String) (separator : Char) : Option (String × String) :=
  match text.toList.span (· ≠ separator) with
  | (_, []) => none
  | (before, _ :: after) => some (String.ofList before, String.ofList after)

/-- The value of a hexadecimal digit. -/
def hexDigit (c : Char) : Option Nat :=
  if '0' ≤ c ∧ c ≤ '9' then some (c.toNat - '0'.toNat)
  else if 'a' ≤ c ∧ c ≤ 'f' then some (c.toNat - 'a'.toNat + 10)
  else if 'A' ≤ c ∧ c ≤ 'F' then some (c.toNat - 'A'.toNat + 10)
  else none

/-- The value of a run of hexadecimal digits, the most significant first. -/
def hexValue (digits : List Char) : Option Nat :=
  (digits.mapM hexDigit).map (·.foldl (fun value digit => 16 * value + digit) 0)

namespace Uuid

/-- A UUID without hyphens. -/
def parseSimple (text : List Char) : Option Uuid := (hexValue text).map (BitVec.ofNat 128)

/-- Five groups of eight, four, four, four and twelve digits. -/
def parseHyphenated (text : List Char) : Option Uuid :=
  let groups := text.splitOn '-'
  if groups.map List.length = [8, 4, 4, 4, 12] then parseSimple groups.flatten else none

/-- `Uuid::parse_str`: simple, hyphenated, braced and URN spellings, told apart by length. -/
def parseStr (text : String) : Option Uuid :=
  let chars := text.toList
  let urn := "urn:uuid:".toList
  if chars.length = 32 then parseSimple chars
  else if chars.length = 36 then parseHyphenated chars
  else if chars.length = 38 ∧ chars.head? = some '\x7b' ∧ chars.getLast? = some '\x7d' then
    parseHyphenated (chars.drop 1).dropLast
  else if chars.length = 45 ∧ chars.take urn.length = urn then
    parseHyphenated (chars.drop urn.length)
  else none

/-- `Display`: lower-case hexadecimal with hyphens. -/
def display (uuid : Uuid) : String :=
  let digits := (List.range 32).map fun i =>
    Nat.digitChar (uuid.toNat / 16 ^ (31 - i) % 16)
  let group := fun start count => String.ofList ((digits.drop start).take count)
  group 0 8 ++ "-" ++ group 8 4 ++ "-" ++ group 12 4 ++ "-" ++ group 16 4 ++ "-" ++ group 20 12

end Uuid

/-! ### Stable identities -/

/-- One round of `fnv1a`: `hash ^= byte`, then a wrapping multiplication. -/
def fnv1a (hash : BitVec 64) (bytes : List UInt8) : BitVec 64 :=
  bytes.foldl (fun hash byte => (hash ^^^ byte.toBitVec.setWidth 64) * 0x00000100000001b3#64) hash

/-- `str::as_bytes`. -/
def asBytes (text : String) : List UInt8 := text.toList.flatMap String.utf8EncodeChar

/-- Returns a deterministic graph identity for provider-observed objects. -/
def stableNodeId (kind identity : String) : NodeId :=
  let value := asBytes ("disksgraph:" ++ kind ++ ":" ++ identity)
  ⟨fnv1a 0xcbf29ce484222325#64 value ++ fnv1a 0x84222325cbf29ce4#64 value⟩

/-- Returns the shared cross-provider identity for a Linux block path. -/
def blockNodeId (path : String) : NodeId := stableNodeId "block-path" path

/-- Returns the shared cross-provider identity for content on a Linux block path. -/
def contentNodeId (path : String) : NodeId := stableNodeId "content-path" path

/-- `/dev/sda` and 1 give `/dev/sda1`; a device that ends in a digit takes a `p` first. -/
def partitionPath (device : String) (number : Nat) : String :=
  if (asBytes device).getLast?.any (fun byte => 48 ≤ byte ∧ byte ≤ 57) then
    device ++ "p" ++ toString number
  else device ++ toString number

/-- Normalizes provider UUID punctuation for cross-library comparison. -/
def normalizedNativeUuid (value : String) : List Char :=
  (value.toList.filter Char.isAlphanum).map Char.toLower

/-! ### Records -/

/-- One Linux block endpoint returned by libudev. -/
structure UdevBlockEntry where
  devnode : String
  aliases : List String := []
  sysname : String := ""
  devtype : Option String := none
  major : Nat
  minor : Nat
  sizeSectors : Option Nat := none
  logicalBlockSize : Option Nat := none
  physicalBlockSize : Option Nat := none
  alignmentOffset : Option Nat := none
  minimumIoSize : Option Nat := none
  optimalIoSize : Option Nat := none
  model : Option String := none
  vendor : Option String := none
  transport : Option String := none
  serial : Option String := none
  wwn : Option String := none
  readOnly : Option Bool := none
  rotational : Option Bool := none
  removable : Option Bool := none
  zoned : Option String := none
deriving DecidableEq

/-- One partition returned by libfdisk. -/
structure FdiskPartition where
  number : Nat
  startSectors : Nat
  sizeSectors : Nat
  uuid : Option String := none
  bootable : Bool := false
deriving DecidableEq

/-- One partition table returned by libfdisk. -/
structure FdiskTable where
  device : String
  label : Option String
  sectorSize : Nat
  partitions : List FdiskPartition
deriving DecidableEq

/-- One block-content signature returned by libblkid. -/
structure BlkidEntry where
  device : String
  signatureType : Option String
  uuid : Option String := none
  label : Option String := none
deriving DecidableEq

/-- One active device-mapper mapping returned by libdevmapper. -/
structure DevmapperEntry where
  name : String
  uuid : Option String
  devno : DeviceNumber
  targets : List String
  dependencies : List DeviceNumber
  readOnly : Bool := false
deriving DecidableEq

/-- One active MD array. -/
structure MdraidArrayEntry where
  device : String
  level : String
  metadata : Option String := none
  uuid : Option String
  size : Nat := 0
  raidDevices : Nat := 0
  activeDevices : Nat := 0
  failedDevices : Nat := 0
  status : Option String := none
deriving DecidableEq

/-- One block device carrying an MD member superblock. -/
structure MdraidMemberEntry where
  device : String
  arrayUuid : Option String
  chunkSize : Nat := 0
deriving DecidableEq

/-- MD topology returned by the libblockdev mdraid plugin. -/
structure MdraidEntry where
  arrays : List MdraidArrayEntry := []
  members : List MdraidMemberEntry := []
deriving DecidableEq

/-- One LVM physical volume. -/
structure LvmPvEntry where
  device : String
  uuid : String
  vgName : Option String
  vgUuid : Option String := none
  size : Nat := 0
  free : Nat := 0
  missing : Bool := false
deriving DecidableEq

/-- One LVM volume group. -/
structure LvmVgEntry where
  name : String
  uuid : String
  size : Nat := 0
  extentSize : Nat := 0
  free : Nat := 0
  pvCount : Nat := 0
  exported : Bool := false
deriving DecidableEq

/-- One LVM logical volume. -/
structure LvmLvEntry where
  name : String
  vgName : String
  uuid : String
  size : Nat := 0
  segmentType : Option String := none
  attributes : Option String := none
  origin : Option String := none
  pool : Option String := none
deriving DecidableEq

/-- LVM topology returned by the libblockdev LVM plugin. -/
structure LvmEntry where
  pvs : List LvmPvEntry := []
  vgs : List LvmVgEntry := []
  lvs : List LvmLvEntry := []
deriving DecidableEq

/-- Raw VG capacity bound to the canonical node assembled during the same provider pass. -/
structure LvmVgObservation where
  node : NodeId
  vg : LvmVgEntry
deriving DecidableEq

/-- One device participating in a Btrfs filesystem. -/
structure BtrfsDeviceEntry where
  id : Nat
  path : String
deriving DecidableEq

/-- Btrfs filesystem metadata returned by libblockdev-btrfs. -/
structure BtrfsFilesystemEntry where
  seedDevice : String
  uuid : String
  label : Option String := none
  devices : List BtrfsDeviceEntry
deriving DecidableEq

/-- One Btrfs subvolume returned by libbtrfsutil. -/
structure BtrfsSubvolumeEntry where
  id : Nat
  path : String
  readOnly : Bool := false
  isDefault : Bool := false
deriving DecidableEq

/-- Subvolumes observed below one mounted Btrfs filesystem. -/
structure BtrfsEntry where
  mountpoint : String
  subvolumes : List BtrfsSubvolumeEntry
deriving DecidableEq

/-- One runtime mount entry returned by the native libmount adapter. -/
structure LibmountEntry where
  source : String
  target : String
  filesystemType : String
  options : List String := []
deriving DecidableEq

/-- Reads the native `lv_attr` state column; suspended, malformed and unsupported states stay
unknown. -/
def LvmLvEntry.activation (lv : LvmLvEntry) : Option Bool :=
  match lv.attributes.map asBytes with
  | none => none
  | some attributes =>
      let expected := fun byte : UInt8 =>
        (48 ≤ byte && byte ≤ 57) || (65 ≤ byte && byte ≤ 90) || (97 ≤ byte && byte ≤ 122) ||
          byte == 45
      if attributes.length ≠ 10 || !attributes.all expected then none
      else match (attributes[4]? : Option UInt8) with
        | some 97 => some true
        | some 45 => some false
        | _ => none

/-! ### Kinds read off one record -/

/-- Maps libfdisk label names to the canonical table kind. -/
def nativePartitionTable : String → Option PartitionTable
  | "gpt" => some .gpt
  | "dos" => some .mbr
  | _ => none

/-- The kind that a filesystem's name stands for. -/
def filesystemKind : String → FilesystemKind
  | "ext2" => .ext2
  | "ext3" => .ext3
  | "ext4" => .ext4
  | "xfs" => .xfs
  | "btrfs" => .btrfs ⟨∅, ∅, ∅⟩
  | "jfs" => .jfs
  | "reiserfs" => .reiserfs
  | "vfat" | "fat16" | "fat32" => .vfat
  | "ntfs" => .ntfs
  | "exfat" => .exfat
  | "f2fs" => .f2fs
  | "ocfs2" => .ocfs2
  | "gfs2" => .gfs2
  | "apfs" => .apfs
  | other => .other other

/-- Maps a native endpoint to the most specific kind owned by the block layer. -/
def nativeEndpointKind (endpoint : UdevBlockEntry) : NodeKind :=
  if endpoint.sysname.startsWith "loop" then .loop none
  else if endpoint.sysname.startsWith "zram" then .zram
  else if endpoint.devtype = some "disk" then .disk
  else .unknown "udev block endpoint"

/-- Classifies a live mapping from its kernel target types. -/
def devmapperKind (entry : DevmapperEntry) : NodeKind :=
  if "crypt" ∈ entry.targets then .dmCryptMapping entry.name
  else if "integrity" ∈ entry.targets then .dmIntegrity entry.name
  else if "verity" ∈ entry.targets then .dmVerity entry.name
  else if "multipath" ∈ entry.targets then .dmMultipath
  else if "writecache" ∈ entry.targets then .dmWritecache entry.name
  else .unknown ("device-mapper:" ++ "+".intercalate entry.targets)

/-- Maps LVM segment names that do not require missing geometry fields. -/
def lvmLvKind (segmentType : Option String) : LvmLvKind :=
  match segmentType.getD "linear" with
  | "linear" => .linear
  | "thin-pool" => .thinPool
  | "thin" => .thin
  | "snapshot" => .snapshot
  | "cache-pool" => .cachePool
  | "cache" => .cache
  | "writecache" => .writeCache
  | other => .other other

/-- Maps MD superblock names without guessing unknown formats. -/
def mdMetadata (metadata : Option String) : MdMetadata :=
  match (metadata.getD "").toLower with
  | "0.90" => .native .v0_90
  | "1.0" => .native .v1_0
  | "1.1" => .native .v1_1
  | "1.2" => .native .v1_2
  | "ddf" => .external .ddf
  | "imsm" => .external .imsm
  | _ => .none

/-- Builds the strongest MD kind supported by the available metadata. -/
def mdraidKind (array : MdraidArrayEntry) (members : List MdraidMemberEntry) : NodeKind :=
  let metadata := mdMetadata array.metadata
  let chunkSize := ((array.uuid.bind fun uuid => members.find? fun member =>
    member.arrayUuid.any fun memberUuid =>
      normalizedNativeUuid memberUuid == normalizedNativeUuid uuid).map (·.chunkSize)).getD 0
  let personality : Option MdPersonality := match array.level.toLower with
    | "raid0" => some (.raid (.raid0 .unspecified chunkSize))
    | "raid1" => some (.raid .raid1)
    | "raid4" => some (.raid (.raid4 chunkSize))
    | "linear" => some (.linear none)
    | "multipath" => some .multipath
    | "faulty" => some .faulty
    | "container" => some .container
    | _ => none
  match personality with
  | none => .unknown ("md:" ++ array.level)
  | some personality => .mdArray ⟨personality, metadata⟩

/-- Maps udev's bus names into canonical transport values. -/
def udevTransport : String → Option Transport
  | "ata" => some .sata
  | "scsi" => some .scsi
  | "usb" => some .usb
  | "nvme" => some .nvme
  | "virtio" => some .virtio
  | "mmc" => some .mmc
  | "fc" => some .fibreChannel
  | "iscsi" => some .iscsi
  | _ => none

/-- The transport that a kernel device name stands for. -/
def deviceTransport (name : String) : Option Transport :=
  if name.startsWith "nvme" then some .nvme
  else if name.startsWith "sd" then some .scsi
  else if name.startsWith "vd" then some .virtio
  else if name.startsWith "mmcblk" then some .mmc
  else none

/-- The zoned model that sysfs reports. -/
def zonedModel : String → Option ZonedModel
  | "host-aware" => some .hostAware
  | "host-managed" => some .hostManaged
  | "none" => some .none
  | _ => none

/-- Builds canonical runtime facts from one libudev endpoint.  Only a whole disk is described. -/
def nativeBlockFacts (endpoint : UdevBlockEntry) : NodeFacts where
  presence := .present
  identities := (endpoint.wwn.map ExternalId.wwn).toList ++
    (endpoint.serial.map (ExternalId.serial endpoint.vendor)).toList
  block := some
    { paths := (endpoint.devnode :: endpoint.aliases).map PathBuf.ofString
      devno := ⟨endpoint.major, endpoint.minor⟩
      geometry := (endpoint.logicalBlockSize.bind (NonZero.new 32)).map fun logicalBlockSize =>
        { logicalBlockSize
          physicalBlockSize := endpoint.physicalBlockSize.bind (NonZero.new 32)
          alignmentOffset := endpoint.alignmentOffset
          minimumIoSize := endpoint.minimumIoSize
          optimalIoSize := endpoint.optimalIoSize }
      readOnly := endpoint.readOnly }
  device := if endpoint.devtype = some "disk" then some
      { model := endpoint.model
        vendor := endpoint.vendor
        transport := (endpoint.transport.bind udevTransport).or (deviceTransport endpoint.sysname)
        networkBacking := none
        rotational := endpoint.rotational
        removable := endpoint.removable
        zoned := endpoint.zoned.bind zonedModel }
    else none

/-- Converts a non-block mount source into its typed representation. -/
def externalMountSource (source fstype : String) : MountSource :=
  match fstype with
  | "tmpfs" => .tmpfs
  | "nfs" | "nfs4" =>
      match splitOnce source ':' with
      | none => .other source
      | some (server, «export») => .network (.nfs server «export»)
  | "cifs" =>
      if source.startsWith "//" then
        match splitOnce (String.ofList (source.toList.drop 2)) '/' with
        | none => .other source
        | some (server, share) => .network (.cifs server share)
      else .other source
  | _ => .other source

end DisksGraph
