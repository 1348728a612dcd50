import DisksGraph.Engine.Wire
import DisksGraph.Support.Folds

/-!
# Engine — Correlate

Conservative correlation of selected storage identities and uniquely backed partition tables
(`editing/correlate.rs`).  Only a durable identity that is unique in both graphs matches; node
identities, paths and names never do.
-/

namespace DisksGraph

/-- `FilesystemKind::as_str`. -/
def FilesystemKind.asStr : FilesystemKind → String
  | .ext2 => "ext2"
  | .ext3 => "ext3"
  | .ext4 => "ext4"
  | .xfs => "xfs"
  | .btrfs _ => "btrfs"
  | .jfs => "jfs"
  | .reiserfs => "reiserfs"
  | .vfat => "vfat"
  | .ntfs => "ntfs"
  | .exfat => "exfat"
  | .f2fs => "f2fs"
  | .ocfs2 => "ocfs2"
  | .gfs2 => "gfs2"
  | .apfs => "apfs"
  | .other name => name

/-- `!value.trim().is_empty() && value.trim() == value`. -/
def isTrimmedText (value : String) : Bool :=
  !value.toList.isEmpty && !(value.toList.head?.any isWhiteSpace) &&
    !(value.toList.getLast?.any isWhiteSpace)

/-- The position of an identity's variant, for `std::mem::discriminant`. -/
def ExternalId.discriminant : ExternalId → Nat
  | .wwn _ => 0
  | .serial .. => 1
  | .gptPartitionUuid _ => 2
  | .mbrPartitionId .. => 3
  | .luksUuid _ => 4
  | .mdUuid _ => 5
  | .lvmPvUuid _ => 6
  | .lvmVgUuid _ => 7
  | .lvmLvUuid _ => 8
  | .filesystem .. => 9
  | .btrfsFsid _ => 10
  | .btrfsSubvolumeUuid _ => 11
  | .zfsGuid _ => 12
  | .nvmeNguid _ => 13
  | .nvmeEui64 _ => 14
  | .nvmeUuid _ => 15
  | .iscsi .. => 16
  | .nvmeOf .. => 17

/-- `matches!(identity, ExternalId::LvmVgUuid(_))`. -/
def ExternalId.isLvmVgUuid : ExternalId → Bool
  | .lvmVgUuid _ => true
  | _ => false

namespace NodeKind

/-- Whether the node is a volume group. -/
def isLvmVg : NodeKind → Bool
  | .lvmVg .. => true
  | _ => false

/-- Whether the node is a logical volume. -/
def isLvmLv : NodeKind → Bool
  | .lvmLv _ => true
  | _ => false

/-- Whether the node is a partition table. -/
def isPartitionTable : NodeKind → Bool
  | .partitionTable _ => true
  | _ => false

/-- Whether the node is a filesystem. -/
def isFilesystem : NodeKind → Bool
  | .filesystem .. => true
  | _ => false

/-- `matches!(kind, Disk | NvmeNamespace(_))`. -/
def isPhysicalDisk : NodeKind → Bool
  | .disk | .nvmeNamespace _ => true
  | _ => false

end NodeKind

/-- One stable match from an original or planned object to an actual observed object. -/
structure NodeCorrelation where
  source : NodeId
  target : NodeId
  identity : ExternalId
deriving DecidableEq

/-- A correlation failure leaves the original plan and both snapshots unchanged. -/
inductive CorrelationError where
  | structure (error : GraphError)
  | missingSource (node : NodeId)
  | notPresent (node : NodeId)
  | noIdentity (node : NodeId)
  | ambiguousSource (node : NodeId)
  | missingTarget (node : NodeId)
  | ambiguousTarget (node : NodeId)
  | kindChanged (sourceNode target : NodeId)
deriving DecidableEq

/-! ### Texts -/

/-- The `{:?}` text of a UUID: its 32 lowercase hexadecimal digits in five groups. -/
def Uuid.hyphenated (id : Uuid) : String :=
  let digits := (List.range 32).map fun i =>
    (Nat.digitChar ((id.toNat / 16 ^ (31 - i)) % 16))
  let group (start length : Nat) := String.ofList ((digits.drop start).take length)
  group 0 8 ++ "-" ++ group 8 4 ++ "-" ++ group 12 4 ++ "-" ++ group 16 4 ++ "-" ++ group 20 12

/-- The `{:?}` text of a node identity. -/
def NodeId.debugText (id : NodeId) : String := "NodeId(" ++ id.asUuid.hyphenated ++ ")"

/-- The text of a graph error. -/
def GraphError.text : GraphError → String
  | .duplicateNode id => "node " ++ id.debugText ++ " already exists"
  | .missingNode id => "node " ++ id.debugText ++ " is absent"
  | .selfDependency id => "node " ++ id.debugText ++ " depends on itself"
  | .dependencyCycle => "storage dependencies contain a cycle"
  | .conflictingOwner id => "node " ++ id.debugText ++ " has conflicting containing edges"
  | .conflictingRole id => "node " ++ id.debugText ++ " has conflicting dependency roles"
  | .partitionOffset id => "partition " ++ id.debugText ++ " disagrees with its containing offset"

/-- The text of a correlation error. -/
def CorrelationError.text : CorrelationError → String
  | .structure error => error.text
  | .missingSource id => "source node " ++ id.debugText ++ " is absent"
  | .notPresent id => "node " ++ id.debugText ++ " is not a present, non-nil observed object"
  | .noIdentity id => "node " ++ id.debugText ++ " has no supported stable identity"
  | .ambiguousSource id => "source identity for node " ++ id.debugText ++ " is ambiguous"
  | .missingTarget id => "node " ++ id.debugText ++ " has no matching target identity"
  | .ambiguousTarget id => "target identity for node " ++ id.debugText ++ " is ambiguous"
  | .kindChanged sourceNode target =>
      "node " ++ sourceNode.debugText ++ " changed kind at " ++ target.debugText

/-! ### Matching -/

namespace NodeGraph

/-- The nodes that carry an identity. -/
def carriers (graph : NodeGraph) (identity : ExternalId) : List (NodeId × Node) :=
  graph.nodeList.filter fun entry => identity ∈ entry.2.size.identities

end NodeGraph

/-- An identity has one carrier. -/
theorem NodeGraph.carriers_eq_singleton {graph : NodeGraph} {identity : ExternalId} {id : NodeId}
    {node : Node} :
    graph.carriers identity = [(id, node)] ↔
      graph.node id = some node ∧ identity ∈ node.size.identities ∧
        ∀ other value, graph.node other = some value → identity ∈ value.size.identities →
          other = id := by
  rw [NodeGraph.carriers, Support.filter_eq_singleton graph.nodup_nodeList, NodeGraph.mem_nodeList]
  simp only [decide_eq_true_eq]
  refine and_congr_right fun hn => and_congr_right fun _ => ⟨fun h other value hv hm => ?_,
    fun h entry he hm => ?_⟩
  · exact congrArg Prod.fst (h (other, value) (NodeGraph.mem_nodeList.mpr hv) hm)
  · obtain ⟨other, value⟩ := entry
    have hv := NodeGraph.mem_nodeList.mp he
    cases h other value hv hm
    rw [hn] at hv
    cases hv
    rfl

/-- How many identities of a node have the variant of the given one. -/
def Node.countLike (node : Node) (identity : ExternalId) : Nat :=
  node.size.identities.countP fun item => item.discriminant == identity.discriminant

/-- Accepts only durable UUID or WWN identities appropriate to the observed storage kind. -/
def supportedIdentity : NodeKind → ExternalId → Bool
  | .lvmVg .., .lvmVgUuid value | .lvmLv _, .lvmLvUuid value | .lvmPv, .lvmPvUuid value
  | .disk, .wwn value => isTrimmedText value
  | .partition .., .gptPartitionUuid uuid | .nvmeNamespace _, .nvmeUuid uuid => !uuid.isNil
  | .nvmeNamespace _, .nvmeNguid value => value != 0
  | .nvmeNamespace _, .nvmeEui64 value => value != 0
  | .filesystem kind _, .filesystem fsType value => fsType == kind.asStr && isTrimmedText value
  | _, _ => false

/-- The identity survived and the storage kind and layout are compatible. -/
def compatibleKind : NodeKind → NodeKind → Bool
  | .lvmVg .., .lvmVg .. | .lvmPv, .lvmPv | .disk, .disk | .partition .., .partition .. => true
  | .nvmeNamespace left, .nvmeNamespace right => left.format == right.format
  | .lvmLv left, .lvmLv right => left.kind == right.kind
  | .filesystem left _, .filesystem right _ => left == right
  | _, _ => false

/-- Rejects placeholders and nil identities even when they carry matching UUID text. -/
def checkPresent (id : NodeId) (node : Node) : Except CorrelationError Unit :=
  if id.asUuid.isNil || node.size.presence != .present then .error (.notPresent id) else .ok ()

/-- The only supported identity of a selected node. -/
def soleIdentity (source : NodeId) (node : Node) : Except CorrelationError ExternalId :=
  match node.size.identities.filter (supportedIdentity node.kind.kind) with
  | [] => .error (.noIdentity source)
  | [identity] => .ok identity
  | _ => .error (.ambiguousSource source)

/-- Matches one node that is not a partition table, `targets` being the nodes matched before. -/
def correlateIdentity (current next : CurrentState) (targets : List NodeId) (source : NodeId)
    (node : Node) : Except CorrelationError NodeCorrelation := do
  let identity ← soleIdentity source node
  if node.countLike identity ≠ 1 then .error (.ambiguousSource source)
  else if (current.graph.carriers identity).length ≠ 1 then .error (.ambiguousSource source)
  else match next.graph.carriers identity with
    | [] => .error (.missingTarget source)
    | (target, candidate) :: others =>
        if !others.isEmpty || target ∈ targets then .error (.ambiguousTarget source)
        else do
          checkPresent target candidate
          if !compatibleKind node.kind.kind candidate.kind.kind then
            .error (.kindChanged source target)
          else if candidate.countLike identity ≠ 1 then .error (.ambiguousTarget source)
          else .ok ⟨source, target, identity⟩

/-- The physical disk behind a partition table, if the table is its only one. -/
def tableParent (graph : NodeGraph) (source : NodeId) : Except CorrelationError NodeId :=
  match graph.dependencies.filter fun edge => edge.target == source with
  | [] => .error (.noIdentity source)
  | parent :: others =>
      let tables := graph.dependencies.countP fun edge =>
        edge.source == parent.source && edge.kind == .backs &&
          (graph.kindOf edge.target).any NodeKind.isPartitionTable
      if !others.isEmpty || parent.kind ≠ .backs ||
          !(graph.kindOf parent.source).any NodeKind.isPhysicalDisk || tables ≠ 1 then
        .error (.ambiguousSource source)
      else .ok parent.source

/-- `correlate_nodes(current, next, &[parent])` for a physical disk, whose structure checks the
caller has made. -/
def correlateDisk (current next : CurrentState) (source parent : NodeId) :
    Except CorrelationError NodeCorrelation :=
  match current.graph.node parent with
  | none => .error (.missingSource parent)
  | some node =>
      match checkPresent parent node *> correlateIdentity current next [] parent node with
      | .error (.noIdentity _) => .error (.noIdentity source)
      | result => result

/-- A table has no UUID in this model, so requires one table of the same type on a uniquely matched
disk. -/
def correlatePartitionTable (current next : CurrentState) (source : NodeId) :
    Except CorrelationError NodeCorrelation := do
  let parent ← tableParent current.graph source
  let matched ← correlateDisk current next source parent
  let tables := (next.graph.dependencies.filter fun edge =>
    edge.source == matched.target && edge.kind == .backs).filterMap fun edge =>
      (next.graph.node edge.target).map fun node => (edge.target, node)
  match tables.filter fun entry => entry.2.kind.kind.isPartitionTable with
  | [] => .error (.missingTarget source)
  | (target, node) :: others =>
      if !others.isEmpty || next.graph.dependencies.countP (·.target == target) ≠ 1 then
        .error (.ambiguousTarget source)
      else do
        checkPresent target node
        if current.graph.kindOf source ≠ some node.kind.kind then
          .error (.kindChanged source target)
        else .ok ⟨source, target, matched.identity⟩

/-- One selected node, against the matches made so far. -/
def correlateNode (current next : CurrentState) (found : List NodeCorrelation) (source : NodeId) :
    Except CorrelationError (List NodeCorrelation) :=
  if source ∈ found.map (·.source) then .ok found
  else match current.graph.node source with
    | none => .error (.missingSource source)
    | some node => do
        checkPresent source node
        if node.kind.kind.isPartitionTable then do
          let binding ← correlatePartitionTable current next source
          if binding.target ∈ found.map (·.target) then .error (.ambiguousTarget source)
          else .ok (found ++ [binding])
        else do
          let binding ← correlateIdentity current next (found.map (·.target)) source node
          .ok (found ++ [binding])

/-- `validate_structure` with its error as a correlation error. -/
def correlationStructure (graph : NodeGraph) : Except CorrelationError Unit :=
  match graph.validateStructure with
  | .error error => .error (.structure error)
  | .ok () => .ok ()

/-- Matches only selected nodes with one supported identity unique in both complete graphs. -/
def correlateNodes (current next : CurrentState) (selected : List NodeId) :
    Except CorrelationError (List NodeCorrelation) := do
  correlationStructure current.graph
  correlationStructure next.graph
  selected.foldlM (correlateNode current next) []

end DisksGraph
