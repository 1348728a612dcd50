import DisksGraph.Provider.Describe

/-!
# Provider — Logical

Backend-independent technology checks of an action against the graph visible before it
(`logical.rs`, and `validate_action` of `luks.rs`).  Every diagnostic carries the source's own code
and message.
-/

namespace DisksGraph

/-- `action_diagnostic` and `lvm_action_diagnostic`: a stable node-scoped error. -/
def actionDiagnostic (node : NodeId) (code message : String) : Diagnostic where
  code := code
  severity := .error
  subjects := [.node node]
  message := message

/-! ### LUKS -/

/-- `char::is_whitespace`: the Unicode property `White_Space`. -/
def isWhiteSpace (c : Char) : Bool :=
  let n := c.toNat
  (0x9 ≤ n && n ≤ 0xD) || n == 0x20 || n == 0x85 || n == 0xA0 || n == 0x1680 ||
    (0x2000 ≤ n && n ≤ 0x200A) || n == 0x2028 || n == 0x2029 || n == 0x202F || n == 0x205F ||
    n == 0x3000

/-- Returns whether the current model kind can provide block storage to LUKS. -/
def isFormatTarget : NodeKind → Bool
  | .disk | .nvmeNamespace _ | .loop _ | .dmMultipath | .partition .. | .mdArray _ | .lvmLv _
  | .zfsVolume _ => true
  | _ => false

/-- Whether the kind is a LUKS container. -/
def NodeKind.isLuksContainer : NodeKind → Bool
  | .luksContainer _ => true
  | _ => false

/-- Whether the kind is an open LUKS mapping. -/
def NodeKind.isDmCryptMapping : NodeKind → Bool
  | .dmCryptMapping _ => true
  | _ => false

/-- Checks that a node exists and has an accepted semantic kind. -/
def validateKind (graph : NodeGraph) (node : NodeId) (code message : String)
    (accepted : NodeKind → Bool) : List Diagnostic :=
  match graph.kindOf node with
  | none =>
      [actionDiagnostic node "luks.action.missing_target"
        "LUKS action target is absent from the graph"]
  | some kind => if accepted kind then [] else [actionDiagnostic node code message]

/-- Checks an operation that requires an open dm-crypt mapping. -/
def validateMapping (graph : NodeGraph) (mapping : NodeId) (code : String) : List Diagnostic :=
  validateKind graph mapping code "LUKS operation requires an open dm-crypt mapping"
    NodeKind.isDmCryptMapping

/-- The device-mapper name of an `Open` cannot be used as a file name. -/
def invalidMappingName (name : String) : Bool :=
  name.toList.all isWhiteSpace || name == "." || name == ".." ||
    name.toList.any fun c => c == '/' || c == '\x00'

/-- Some dm-crypt mapping of the graph already has this device-mapper name. -/
def mappingNameInUse (graph : NodeGraph) (name : String) : Bool :=
  graph.nodeList.any fun entry => entry.2.kind.kind == .dmCryptMapping name

/-- The check of the credential reference shared by `Format` and `Open`. -/
def validateCredential (node : NodeId) (credential : CredentialRef) : List Diagnostic :=
  if credential.asUuid.isNil then
    [actionDiagnostic node "luks.action.invalid_credential"
      "credential reference must identify an external credential store entry"]
  else []

/-- `luks::validate_action`: checks one LUKS action against the canonical graph. -/
def validateLuksAction (graph : NodeGraph) : LuksAction → List Diagnostic
  | .format target _ _ credential =>
      validateKind graph target "luks.format.unsupported_target"
        "LUKS format requires a block-providing target" isFormatTarget ++
      validateCredential target credential
  | .open container _ mappingName credential _ =>
      validateKind graph container "luks.open.not_container"
        "LUKS open requires a LUKS container" NodeKind.isLuksContainer ++
      (if invalidMappingName mappingName then
        [actionDiagnostic container "luks.open.invalid_mapping_name"
          "device-mapper name must not be blank, dot, dot-dot, or contain slash or NUL"]
      else []) ++
      (if mappingNameInUse graph mappingName then
        [actionDiagnostic container "luks.open.mapping_name_in_use"
          "device-mapper name is already used by a known dm-crypt mapping"]
      else []) ++
      validateCredential container credential
  | .close mapping => validateMapping graph mapping "luks.close.not_mapping"
  | .resize mapping newSize =>
      validateMapping graph mapping "luks.resize.not_mapping" ++
      (if newSize == some 0 then
        [actionDiagnostic mapping "luks.resize.zero_size"
          "LUKS mapping size must be greater than zero"]
      else [])

/-! ### LVM -/

/-- The error for a volume without exactly one group. -/
def invalidVgOwnership (lv : NodeId) : Diagnostic :=
  actionDiagnostic lv "lvm.action.invalid_vg_ownership"
    "LV mutation requires exactly one owning volume group"

/-- The size checks shared by LV creation and resize. -/
def validateLvSize (graph : NodeGraph) (subject vg : NodeId) (size : Bytes) (linear : Bool) :
    List Diagnostic :=
  if size = 0 then
    [actionDiagnostic subject "lvm.action.zero_size" "LV capacity must be greater than zero"]
  else match graph.kindOf vg with
    | some (.lvmVg _ (some extent)) =>
        if extent = 0 then
          [actionDiagnostic subject "lvm.action.invalid_extent_size"
            "VG extent size must be greater than zero"]
        else if linear && size % extent ≠ 0 then
          [actionDiagnostic subject "lvm.action.unaligned_size"
            "requested linear LV capacity must be an exact multiple of the VG extent size"]
        else []
    | _ => []

/-- The node is a linear LV. -/
def isLinearLv (graph : NodeGraph) (lv : NodeId) : Bool :=
  match graph.kindOf lv with
  | some (.lvmLv value) => value.kind == .linear
  | _ => false

/-- Rejects ambiguous allocation domains and sizes that cannot be represented exactly by
extents. -/
def validateLvmAction (graph : NodeGraph) : LvmAction → List Diagnostic
  | .createLv vg _ _ size layout => validateLvSize graph vg vg size (layout == .linear)
  | .resizeLv lv newSize =>
      match lvmVolumeGroup graph lv with
      | none => [invalidVgOwnership lv]
      | some vg => validateLvSize graph lv vg newSize (isLinearLv graph lv)
  | .removeLv lv =>
      if (lvmVolumeGroup graph lv).isSome then [] else [invalidVgOwnership lv]
  | .createPv .. | .createVg .. | .setActivation .. => []

/-! ### Mounts -/

/-- Keeps mount resource identity independent of cwd, parent traversal, and invalid OS paths. -/
def validMountPath (path : PathBuf) : Bool :=
  path.isAbsolute && !path.components.any (· == .parentDir) && !path.containsNul

namespace MountAction

/-- The target, the context and, where there is one, the source of a mount action. -/
def subject : MountAction → PathBuf × MountContext × Option MountSource
  | .mount source target _ context => (target, context, some source)
  | .persist entry => (entry.target, entry.context, some entry.source)
  | .unmount target context | .removePersistent target context => (target, context, none)

/-- The paths a mount action names, each with the field it comes from. -/
def paths (action : MountAction) : List (PathBuf × String) :=
  let (target, context, source) := action.subject
  [(target, "mount.target")] ++
  (match context with
    | .targetRoot root => [(root, "mount.context.target_root")]
    | _ => []) ++
  (match source with
    | some (.bind path) => [(path, "mount.source.bind")]
    | _ => [])

end MountAction

/-- The error for a path that is relative or has `..` or NUL. -/
def invalidMountPath (entry : PathBuf × String) : Diagnostic where
  code := "mount.action.invalid_path"
  severity := .error
  subjects := [.mount entry.1, .field entry.2]
  message := "mount paths must be absolute and contain neither '..' components nor NUL"

/-- Persistent entries need a compatible object, but do not require runtime activation. -/
def incompatiblePersistentSource (graph : NodeGraph) (source : MountSource) : List Diagnostic :=
  match source.node with
  | none => []
  | some node =>
      match graph.kindOf node with
      | none => []
      | some kind =>
          if source.compatible kind then []
          else [actionDiagnostic node "mount.action.incompatible_source"
            "persistent mount source has an incompatible node kind"]

/-- Rejects ambiguous lexical paths without resolving filesystem state or symbolic links. -/
def validateMountAction (graph : NodeGraph) (action : MountAction) : List Diagnostic :=
  (action.paths.filter fun entry => !validMountPath entry.1).map invalidMountPath ++
  match action with
  | .persist entry => incompatiblePersistentSource graph entry.source
  | _ => []

/-! ### Partitions and filesystems -/

/-- Scans the partitions of a table for the number and the byte range of a new one.  The duplicate
number is reported where it is met; an overlap is reported after the whole scan. -/
def scanPartitions (graph : NodeGraph) (table : NodeId) (number : NonZero 32)
    (offset «end» : Bytes) : List Dependency → Bool → List Diagnostic
  | [], overlaps =>
      if overlaps then
        [actionDiagnostic table "partition.create.overlap"
          "partition overlaps a known occupied or overflowing byte range"]
      else []
  | edge :: rest, overlaps =>
      match graph.node edge.target with
      | none => scanPartitions graph table number offset «end» rest overlaps
      | some node =>
          match node.kind.kind with
          | .partition occupiedNumber occupiedOffset _ _ =>
              if number = occupiedNumber then
                [actionDiagnostic table "partition.create.duplicate_number"
                  "partition number is already used in this table"]
              else
                let overlap := match node.kind.size with
                  | none => false
                  | some occupiedSize =>
                      (checkedAdd occupiedOffset occupiedSize).all fun occupiedEnd =>
                        offset < occupiedEnd && occupiedOffset < «end»
                scanPartitions graph table number offset «end» rest (overlaps || overlap)
          | _ => scanPartitions graph table number offset «end» rest overlaps

/-- Rejects provably invalid extents; backend allocation/alignment evidence remains required. -/
def validatePartitionCreate (graph : NodeGraph) (table : NodeId) (number : NonZero 32)
    (offset size : Bytes) : List Diagnostic :=
  match checkedAdd offset size with
  | none =>
      [actionDiagnostic table "partition.create.invalid_extent" "partition byte range overflows"]
  | some «end» =>
      if size = 0 || (knownSize graph table).any fun capacity => «end» > capacity then
        [actionDiagnostic table "partition.create.invalid_extent"
          "partition must have nonzero size and fit within known table capacity"]
      else
        scanPartitions graph table number offset «end»
          (graph.dependencies.filter fun edge => edge.source == table && edge.kind.isContains) false

/-- A partition mutation needs exactly one containing partition table. -/
def validatePartitionOwner (graph : NodeGraph) (partition : NodeId) : List Diagnostic :=
  if (partitionTable graph partition).isSome then []
  else [actionDiagnostic partition "partition.action.invalid_table_ownership"
    "partition mutation requires exactly one containing partition table"]

/-- What is wrong with a partition action. -/
def validatePartitionAction (graph : NodeGraph) : PartitionAction → List Diagnostic
  | .resize partition _ | .delete partition | .setAttributes partition _ =>
      validatePartitionOwner graph partition
  | .create table _ number offset size _ _ => validatePartitionCreate graph table number offset size
  | .createTable .. => []

/-- The checks of an ext resize. -/
def validateFilesystemResize (graph : NodeGraph) (filesystem : NodeId) (newSize : Bytes) :
    List Diagnostic :=
  if newSize = 0 then
    [actionDiagnostic filesystem "filesystem.resize.zero_size"
      "filesystem capacity must be greater than zero"]
  else if !isExtFilesystem graph filesystem then
    [actionDiagnostic filesystem "filesystem.resize.unsupported"
      "filesystem resize currently supports only the ext2/ext3/ext4 recipe"]
  else if (graph.dependencies.filter fun edge =>
      edge.target == filesystem && edge.kind.isBacks).length > 1 then
    [actionDiagnostic filesystem "filesystem.resize.ambiguous_backing"
      "ext resize requires at most one direct backing node"]
  else []

/-- Runs backend-independent technology checks against the effective graph. -/
def validateProviderAction (action : ProviderAction) (graph : NodeGraph) : List Diagnostic :=
  match action with
  | .luks action => validateLuksAction graph action
  | .lvm action => validateLvmAction graph action
  | .mount action => validateMountAction graph action
  | .filesystem (.resize filesystem newSize) => validateFilesystemResize graph filesystem newSize
  | .partition action => validatePartitionAction graph action
  | .filesystem _ | .btrfs _ => []

end DisksGraph
