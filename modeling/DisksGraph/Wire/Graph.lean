import DisksGraph.Model.Reorder
import DisksGraph.Support.JsonRoundTrip
import DisksGraph.Support.Walk
import DisksGraph.Wire.Node

/-!
# Wire — Graph

The JSON form of a graph (`model/graph.rs`).

* `NodeGraphDto` is the derived form: the node entries under their identities, and the edges as
  vectors.  `NodeGraph.codec` is what `TryFrom<NodeGraphDto>` makes of it.
* `NodeGraph.copiesIn` finds the copy counts in the JSON of a graph, `NodeGraph.copyCounts` in a
  graph.
* `NodeGraph.paths` are the paths of a graph; `NodeGraph.writes`: a graph has a JSON form exactly
  when they are UTF-8.
* `wire_exact`: a graph whose paths are UTF-8 is read back exactly when `validate_structure` accepts
  it, no repetition is read, and a graph that is read holds values of the constructors alone exactly
  when no copy count in the JSON is one.
-/

namespace DisksGraph

open Support (Codec Fields JsonValue ReadAs Variant Walk)

/-! ### Edges -/

/-- The roles under their names. -/
def MdMemberRole.codec : Codec MdMemberRole :=
  .choice [.unit "Data" .data, .unit "Spare" .spare, .unit "Replacement" .replacement,
    .unit "Journal" .journal] (by decide)

/-- A member of an MD array. -/
def MdMember.codec : Codec MdMember :=
  .record false (Fields.of MdMember.mk
    |>.field "role" MdMemberRole.codec
    |>.field "slot" u16.option
    |>.field "data_offset" Bytes.codec.option) (by decide)

/-- A device of a Btrfs filesystem. -/
def BtrfsMember.codec : Codec BtrfsMember :=
  .record false (Fields.of BtrfsMember.mk
    |>.field "devid" nonZeroU64.option) (by decide)

/-- A role: its name, with the member's place. -/
def MemberRole.codec : Codec MemberRole :=
  .choice [.unit "LvmPv" .lvmPv, .holding "Md" .md MdMember.codec,
    .holding "Btrfs" .btrfs BtrfsMember.codec, .holding "Zfs" .zfs ZfsMember.codec] (by decide)

/-- The two roles under their names. -/
def CacheRole.codec : Codec CacheRole :=
  .choice [.unit "Data" .data, .unit "Metadata" .metadata] (by decide)

/-- A kind of dependency: its name with its data. -/
def DependencyKind.codec : Codec DependencyKind :=
  .choice [
    .unit "Backs" .backs,
    .record false "Contains" (Fields.of DependencyKind.contains
      |>.field "offset" Bytes.codec) (by decide),
    .unit "Provides" .provides,
    .holding "MemberOf" .memberOf MemberRole.codec,
    .holding "Caches" .caches CacheRole.codec,
    .unit "Path" .path] (by decide)

/-- The relations under their names. -/
def RelationKind.codec : Codec RelationKind :=
  .choice [.unit "SnapshotOf" .snapshotOf, .unit "NvmeAttachedTo" .nvmeAttachedTo,
    .unit "Replicates" .replicates] (by decide)

/-- A dependency edge. -/
def Dependency.codec : Codec Dependency :=
  .record false (Fields.of Dependency.mk
    |>.field "from" NodeId.codec
    |>.field "to" NodeId.codec
    |>.field "kind" DependencyKind.codec) (by decide)

/-- A relation edge. -/
def Relation.codec : Codec Relation :=
  .record false (Fields.of Relation.mk
    |>.field "from" NodeId.codec
    |>.field "to" NodeId.codec
    |>.field "kind" RelationKind.codec) (by decide)

/-! ### The graph -/

/-- The key of a node entry, in any spelling of the identity. -/
def NodeId.ofKey (key : String) : Option NodeId := (Uuid.parseStr key).map NodeId.mk

/-- A node's identity as the key of a JSON object. -/
def NodeId.toKey (id : NodeId) : String := id.asUuid.display

theorem NodeId.ofKey_toKey (id : NodeId) : ofKey id.toKey = some id := by
  rw [ofKey, toKey, Uuid.parseStr_display, Option.map_some]

/-- Untrusted wire fields preserve arrays until duplicates have been checked. -/
structure NodeGraphDto where
  nodes : List (NodeId × Node)
  dependencies : List Dependency
  relations : List Relation

/-- `deserialize_nodes`: an object of node entries without a repeated identity. -/
def NodeGraphDto.nodesCodec : Codec (List (NodeId × Node)) :=
  Node.codec.keyed NodeId.ofKey NodeId.toKey NodeId.ofKey_toKey

/-- The derived form of a graph. -/
def NodeGraphDto.codec : Codec NodeGraphDto :=
  .record false (Fields.of NodeGraphDto.mk
    |>.field "nodes" nodesCodec
    |>.field "dependencies" Dependency.codec.list
    |>.field "relations" Relation.codec.list) (by decide)

theorem nodupKeys_of_nodup {entries : List (NodeId × Node)} (h : (entries.map Prod.fst).Nodup) :
    (entries.map fun entry => (⟨entry.1, entry.2⟩ : Sigma fun _ : NodeId => Node)).NodupKeys := by
  rw [List.NodupKeys, List.keys, List.map_map]
  exact h

/-- The collections of a graph, without the structural check: an edge that is inserted twice is an
error. -/
def NodeGraphDto.collect (dto : NodeGraphDto) : Option NodeGraph :=
  if h : (dto.nodes.map Prod.fst).Nodup ∧ dto.dependencies.Nodup ∧ dto.relations.Nodup then
    some ⟨⟨dto.nodes.map fun entry => ⟨entry.1, entry.2⟩, nodupKeys_of_nodup h.1⟩,
      dto.dependencies, dto.relations, h.2.1, h.2.2⟩
  else none

/-- `TryFrom<NodeGraphDto>`: a graph is published only after duplicates and structural checks
pass. -/
def NodeGraph.codec : Codec NodeGraph :=
  NodeGraphDto.codec.tryFrom NodeGraphDto.collect fun graph => graph.validateStructure.isOk

theorem isOk_iff {ε : Type} {result : Except ε Unit} : result.isOk = true ↔ result = .ok () := by
  cases result with
  | ok u => exact iff_of_true rfl rfl
  | error e =>
      have herror : (Except.error e : Except ε Unit) ≠ .ok () := by
        rintro ⟨⟩
      exact iff_of_false Bool.false_ne_true herror

/-! ### Values that a constructor has to make -/

/-- The copy count of an LVM raid layout. -/
def LvmRaid.copyCounts : LvmRaid → List CopyCount
  | .raid1 copies => [copies]
  | .raid10 copies _ _ => [copies]
  | _ => []

/-- The copy count of a logical volume. -/
def LvmLvKind.copyCounts : LvmLvKind → List CopyCount
  | .raid layout => layout.copyCounts
  | .mirror copies => [copies]
  | _ => []

/-- The copy count of an MD raid layout. -/
def MdRaid.copyCounts : MdRaid → List CopyCount
  | .raid10 layout _ => [layout.copies]
  | _ => []

/-- The copy count of an MD array. -/
def MdPersonality.copyCounts : MdPersonality → List CopyCount
  | .raid layout => layout.copyCounts
  | _ => []

/-- The copy counts of a kind. -/
def NodeKind.copyCounts : NodeKind → List CopyCount
  | .mdArray array => array.personality.copyCounts
  | .lvmLv lv => lv.kind.copyCounts
  | _ => []

/-- A number with the width it is held at. -/
abbrev Number : Type := Σ width : Nat, NonZero width

/-- The stripe count of an LVM raid layout. -/
def LvmRaid.numbers : LvmRaid → List Number
  | .raid0 _ dataWidth _ => [⟨16, dataWidth⟩]
  | .raid1 _ => []
  | .raid4 dataWidth _ => [⟨16, dataWidth⟩]
  | .raid5 _ dataWidth _ => [⟨16, dataWidth⟩]
  | .raid6 _ dataWidth _ => [⟨16, dataWidth⟩]
  | .raid10 _ dataWidth _ => [⟨16, dataWidth⟩]

/-- The stripe counts, block sizes, namespaces and partition numbers of a kind. -/
def NodeKind.numbers : NodeKind → List Number
  | .nvmeNamespace namespace_ => [⟨32, namespace_.nsid⟩, ⟨32, namespace_.format.dataSize⟩]
  | .partition number _ _ _ => [⟨32, number⟩]
  | .lvmLv ⟨_, .striped stripes⟩ => [⟨16, stripes⟩]
  | .lvmLv ⟨_, .raid layout⟩ => layout.numbers
  | .zfsVdev (.dRaid _ dataWidth _) => [⟨16, dataWidth⟩]
  | _ => []

/-- The block sizes of a geometry. -/
def BlockGeometry.numbers (geometry : BlockGeometry) : List Number :=
  ⟨32, geometry.logicalBlockSize⟩ :: geometry.physicalBlockSize.toList.map fun size => ⟨32, size⟩

/-- The partition number of an MBR identity, the namespace of an NVMe-oF one. -/
def ExternalId.numbers : ExternalId → List Number
  | .mbrPartitionId _ number => [⟨32, number⟩]
  | .nvmeOf _ namespace_ => [⟨32, namespace_⟩]
  | _ => []

/-- The nonzero numbers of a node's facts. -/
def NodeFacts.numbers (facts : NodeFacts) : List Number :=
  ((facts.block.bind BlockFacts.geometry).toList.flatMap BlockGeometry.numbers) ++
    facts.identities.flatMap ExternalId.numbers

/-- The device number of a Btrfs member. -/
def DependencyKind.numbers : DependencyKind → List Number
  | .memberOf (.btrfs member) => member.devid.toList.map fun devid => ⟨64, devid⟩
  | _ => []

namespace NodeGraph

/-- The copy counts of a graph. -/
def copyCounts (graph : NodeGraph) : List CopyCount :=
  graph.nodeList.flatMap fun entry => entry.2.kind.kind.copyCounts

/-- The nonzero numbers of a graph. -/
def numbers (graph : NodeGraph) : List Number :=
  (graph.nodeList.flatMap fun entry => entry.2.kind.kind.numbers ++ entry.2.size.numbers) ++
    graph.dependencies.flatMap fun edge => edge.kind.numbers

/-- Every nested value is one that its constructor makes; `DataStripeCount::new`, `BlockSize::new`
and `NvmeNamespaceId::new` are `NonZero.new`. -/
structure Constructed (graph : NodeGraph) : Prop where
  copyCounts : ∀ copies ∈ graph.copyCounts, CopyCount.new copies.val = some copies
  numbers : ∀ number ∈ graph.numbers, NonZero.new number.1 number.2.val = some number.2

end NodeGraph

/-! ### Paths -/

/-- The backing file of a loop device. -/
def NodeKind.paths : NodeKind → List PathBuf
  | .loop backingFile => backingFile.toList
  | _ => []

/-- The device paths of a node. -/
def NodeFacts.paths (facts : NodeFacts) : List PathBuf :=
  facts.block.toList.flatMap BlockFacts.paths

/-- The paths of a node: the backing file of a loop device and the device paths. -/
def Node.paths (node : Node) : List PathBuf := node.kind.kind.paths ++ node.size.paths

/-- The paths of the nodes of a graph. -/
def NodeGraph.paths (graph : NodeGraph) : List PathBuf :=
  graph.nodeList.flatMap fun entry => entry.2.paths

/-- Every path of the graph is UTF-8. -/
def NodeGraph.Utf8 (graph : NodeGraph) : Prop := ∀ path ∈ graph.paths, path.Utf8

/-- A kind is written when its paths are UTF-8. -/
theorem NodeKind.writes : NodeKind.codec.Writes fun kind => ∀ path ∈ kind.paths, path.Utf8 := by
  refine Codec.Writes.choice (fun v hv => ?_) _
  simp only [List.mem_cons, List.not_mem_nil, or_false] at hv
  rcases hv with rfl | rfl | rfl | rfl | rfl | rfl | rfl | rfl | rfl | rfl | rfl | rfl | rfl | rfl |
    rfl | rfl | rfl | rfl | rfl | rfl | rfl | rfl | rfl | rfl | rfl | rfl | rfl | rfl | rfl
  -- only a loop device has a path
  case inr.inr.inr.inr.inl =>
    refine Variant.Writes.record ((Fields.Writes.of _).field _ PathBuf.writes.option) ?_ _ _ _
    intro s
    rw [true_and]
    exact forall_congr' fun path => imp_congr_left Option.mem_toList.symm
  all_goals exact Variant.Writes.of_textual rfl fun s path hpath => absurd hpath List.not_mem_nil

/-- A specification is written when its paths are UTF-8. -/
theorem NodeSpec.writes :
    NodeSpec.codec.Writes fun spec => ∀ path ∈ spec.kind.paths, path.Utf8 := by
  refine Codec.Writes.record (((Fields.Writes.of _).field _ NodeKind.writes).field _
    (.of_textual rfl)) (fun s => ?_) _ _
  rw [true_and, and_true]
  exact Iff.rfl

/-- Block facts are written when their paths are UTF-8. -/
theorem BlockFacts.writes :
    BlockFacts.codec.Writes fun facts => ∀ path ∈ facts.paths, path.Utf8 := by
  refine Codec.Writes.record (((((Fields.Writes.of _).field _ PathBuf.writes.list).field _
    (.of_textual rfl)).field _ (.of_textual rfl)).field _ (.of_textual rfl)) (fun s => ?_) _ _
  simp only [true_and, and_true]
  exact Iff.rfl

/-- A node's facts are written when their paths are UTF-8. -/
theorem NodeFacts.writes :
    NodeFacts.codec.Writes fun facts => ∀ path ∈ facts.paths, path.Utf8 := by
  refine Codec.Writes.record
    (((Fields.Writes.of_textual rfl).field _ BlockFacts.writes.option).field
    _ (.of_textual rfl)) (fun s => ?_) _ _
  rw [true_and, and_true]
  constructor
  · intro hall path hpath
    obtain ⟨block, hblock, hpath⟩ := List.mem_flatMap.mp hpath
    exact hall block (Option.mem_toList.mp hblock) path hpath
  · intro hall block hblock path hpath
    exact hall path (List.mem_flatMap.mpr ⟨block, Option.mem_toList.mpr hblock, hpath⟩)

/-- A node is written when its paths are UTF-8. -/
theorem Node.writes : Node.codec.Writes fun node => ∀ path ∈ node.paths, path.Utf8 := by
  refine Codec.Writes.record (((Fields.Writes.of _).field _ NodeSpec.writes).field _
    NodeFacts.writes) (fun s => ?_) _ _
  rw [true_and]
  exact List.forall_mem_append.symm

/-! ### Where the copy counts are -/

/-- Where the JSON of an LVM raid layout has its copy count. -/
def LvmRaid.copiesIn : Walk :=
  .alternatives [("Raid1", .field "copies" 0 .here), ("Raid10", .field "copies" 0 .here)]

/-- Where the JSON of a volume's layout has it. -/
def LvmLvKind.copiesIn : Walk :=
  .alternatives [("Raid", LvmRaid.copiesIn), ("Mirror", .field "copies" 0 .here)]

/-- Where the JSON of a volume has it. -/
def LvmLv.copiesIn : Walk := .field "kind" 1 LvmLvKind.copiesIn

/-- Where the JSON of a raid10 layout has it. -/
def MdRaid10Layout.copiesIn : Walk := .field "copies" 1 .here

/-- Where the JSON of an MD raid layout has it. -/
def MdRaid.copiesIn : Walk := .alternatives [("Raid10", .field "layout" 0 MdRaid10Layout.copiesIn)]

/-- Where the JSON of an MD personality has it. -/
def MdPersonality.copiesIn : Walk := .alternatives [("Raid", MdRaid.copiesIn)]

/-- Where the JSON of an MD array has it. -/
def MdArray.copiesIn : Walk := .field "personality" 0 MdPersonality.copiesIn

/-- Where the JSON of a kind has its copy counts. -/
def NodeKind.copiesIn : Walk :=
  .alternatives [("MdArray", MdArray.copiesIn), ("LvmLv", LvmLv.copiesIn)]

/-- Where the JSON of a specification has them. -/
def NodeSpec.copiesIn : Walk := .field "kind" 0 NodeKind.copiesIn

/-- Where the JSON of a node has them. -/
def Node.copiesIn : Walk := .field "kind" 0 NodeSpec.copiesIn

/-- The copy counts in the JSON of a graph. -/
def NodeGraph.copiesIn : Walk := .field "nodes" 0 (.members Node.copiesIn)

/-- The copy count of an LVM raid layout is read where the walk finds it. -/
theorem LvmRaid.reads : LvmRaid.codec.Reads copiesIn copyCounts CopyCount.codec := by
  refine Codec.Reads.choice ?_ ?_
  · intro entry hentry
    simp only [List.mem_cons, List.not_mem_nil, or_false] at hentry
    rcases hentry with rfl | rfl
    · exact ⟨_, List.mem_of_getElem? (i := 1) rfl, rfl, Variant.Reads.record
        (.last (.of LvmRaid.raid1) "copies" rfl) (.here _) fun _ => rfl⟩
    · exact ⟨_, List.mem_of_getElem? (i := 5) rfl, rfl, Variant.Reads.record
        (((Fields.Holds.last (.of LvmRaid.raid10) "copies" rfl).before _ _).before _ _)
        (.here _) fun _ => rfl⟩
  · intro v hv hname t
    simp only [List.mem_cons, List.not_mem_nil, or_false] at hv
    rcases hv with rfl | rfl | rfl | rfl | rfl | rfl
    all_goals first
      | rfl
      | exact absurd (by decide) hname

/-- The copy count of a volume is read where the walk finds it. -/
theorem LvmLvKind.reads : LvmLvKind.codec.Reads copiesIn copyCounts CopyCount.codec := by
  refine Codec.Reads.choice ?_ ?_
  · intro entry hentry
    simp only [List.mem_cons, List.not_mem_nil, or_false] at hentry
    rcases hentry with rfl | rfl
    · exact ⟨_, List.mem_of_getElem? (i := 2) rfl, rfl,
        Variant.Reads.holding LvmRaid.reads fun _ => rfl⟩
    · exact ⟨_, List.mem_of_getElem? (i := 3) rfl, rfl, Variant.Reads.record
        (.last (.of LvmLvKind.mirror) "copies" rfl) (.here _) fun _ => rfl⟩
  · intro v hv hname t
    simp only [List.mem_cons, List.not_mem_nil, or_false] at hv
    rcases hv with rfl | rfl | rfl | rfl | rfl | rfl | rfl | rfl | rfl | rfl | rfl
    all_goals first
      | rfl
      | exact absurd (by decide) hname

theorem LvmLv.reads :
    LvmLv.codec.Reads copiesIn (fun lv => lv.kind.copyCounts) CopyCount.codec :=
  Codec.Reads.field (.last ((Fields.of LvmLv.mk).field "name" .string) "kind" rfl)
    LvmLvKind.reads fun _ => rfl

theorem MdRaid10Layout.reads :
    MdRaid10Layout.codec.Reads copiesIn (fun layout => [layout.copies]) CopyCount.codec :=
  Codec.Reads.field
    (.last ((Fields.of MdRaid10Layout.mk).field "mode" MdRaid10Mode.codec) "copies" rfl)
    (.here _) fun _ => rfl

theorem MdRaid.reads : MdRaid.codec.Reads copiesIn copyCounts CopyCount.codec := by
  refine Codec.Reads.choice ?_ ?_
  · intro entry hentry
    obtain rfl := List.mem_singleton.mp hentry
    exact ⟨_, List.mem_of_getElem? (i := 5) rfl, rfl, Variant.Reads.record
      ((Fields.Holds.last (.of MdRaid.raid10) "layout" rfl).before _ _) MdRaid10Layout.reads
      fun _ => rfl⟩
  · intro v hv hname t
    simp only [List.mem_cons, List.not_mem_nil, or_false] at hv
    rcases hv with rfl | rfl | rfl | rfl | rfl | rfl
    all_goals first
      | rfl
      | exact absurd (by decide) hname

theorem MdPersonality.reads :
    MdPersonality.codec.Reads copiesIn copyCounts CopyCount.codec := by
  refine Codec.Reads.choice ?_ ?_
  · intro entry hentry
    obtain rfl := List.mem_singleton.mp hentry
    exact ⟨_, List.mem_of_getElem? (i := 0) rfl, rfl,
      Variant.Reads.holding MdRaid.reads fun _ => rfl⟩
  · intro v hv hname t
    simp only [List.mem_cons, List.not_mem_nil, or_false] at hv
    rcases hv with rfl | rfl | rfl | rfl | rfl
    all_goals first
      | rfl
      | exact absurd (by decide) hname

theorem MdArray.reads :
    MdArray.codec.Reads copiesIn (fun array => array.personality.copyCounts) CopyCount.codec :=
  Codec.Reads.field ((Fields.Holds.last (.of MdArray.mk) "personality" rfl).before _ _)
    MdPersonality.reads fun _ => rfl

/-- The copy counts of a kind are read where the walk finds them. -/
theorem NodeKind.reads : NodeKind.codec.Reads copiesIn copyCounts CopyCount.codec := by
  refine Codec.Reads.choice ?_ ?_
  · intro entry hentry
    simp only [List.mem_cons, List.not_mem_nil, or_false] at hentry
    rcases hentry with rfl | rfl
    · exact ⟨_, List.mem_of_getElem? (i := 13) rfl, rfl,
        Variant.Reads.holding MdArray.reads fun _ => rfl⟩
    · exact ⟨_, List.mem_of_getElem? (i := 16) rfl, rfl,
        Variant.Reads.holding LvmLv.reads fun _ => rfl⟩
  · intro v hv hname t
    simp only [List.mem_cons, List.not_mem_nil, or_false] at hv
    rcases hv with rfl | rfl | rfl | rfl | rfl | rfl | rfl | rfl | rfl | rfl | rfl | rfl | rfl | rfl |
      rfl | rfl | rfl | rfl | rfl | rfl | rfl | rfl | rfl | rfl | rfl | rfl | rfl | rfl | rfl
    all_goals first
      | rfl
      | exact absurd (by decide) hname

theorem NodeSpec.reads :
    NodeSpec.codec.Reads copiesIn (fun spec => spec.kind.copyCounts) CopyCount.codec :=
  Codec.Reads.field ((Fields.Holds.last (.of NodeSpec.mk) "kind" rfl).before _ _)
    NodeKind.reads fun _ => rfl

/-- The copy counts of a node are read where the walk finds them. -/
theorem Node.reads :
    Node.codec.Reads copiesIn (fun node => node.kind.kind.copyCounts) CopyCount.codec :=
  Codec.Reads.field ((Fields.Holds.last (.of Node.mk) "kind" rfl).before _ _)
    NodeSpec.reads fun _ => rfl

/-! ### Reading a graph -/

/-- A collected graph has the entries of the form. -/
theorem NodeGraphDto.collect_eq_some {dto : NodeGraphDto} {graph : NodeGraph}
    (h : dto.collect = some graph) : graph.nodeList = dto.nodes ∧
      graph.dependencies = dto.dependencies ∧ graph.relations = dto.relations := by
  rw [collect] at h
  split at h
  · obtain rfl := Option.some.inj h
    refine ⟨?_, rfl, rfl⟩
    rw [NodeGraph.nodeList, List.map_map]
    exact List.map_id _
  · cases h

namespace NodeGraph

section Read

variable {j : JsonValue} {s : NodeGraph.codec.Stored}

/-- A graph that is read has been read in its derived form. -/
theorem decode_dto (h : NodeGraph.codec.decode j = some s) :
    NodeGraphDto.codec.decode j = some s.1 := by
  obtain ⟨dto, hdto, h⟩ := Option.bind_eq_some_iff.mp h
  split at h
  · split at h
    · obtain rfl := Option.some.inj h
      exact hdto
    · cases h
  · cases h

/-- A stored graph was collected from its derived form. -/
theorem collect_value (s : NodeGraph.codec.Stored) :
    (NodeGraphDto.codec.value s.1).collect = some (NodeGraph.codec.value s) :=
  (Option.some_get s.2).symm

/-- A stored graph lists the entries of its derived form. -/
theorem nodeList_value (s : NodeGraph.codec.Stored) :
    (NodeGraph.codec.value s).nodeList = (NodeGraphDto.codec.value s.1).nodes :=
  (NodeGraphDto.collect_eq_some (collect_value s)).1

/-- A graph has a JSON form exactly when its paths are UTF-8. -/
theorem writes : NodeGraph.codec.Writes Utf8 := by
  intro s
  have hdto : NodeGraphDto.codec.Writes fun dto =>
      ∀ entry ∈ dto.nodes, ∀ path ∈ entry.2.paths, path.Utf8 := by
    refine Codec.Writes.record ((((Fields.Writes.of _).field _
      (Node.writes.keyed NodeId.ofKey_toKey)).field _ (.of_textual rfl)).field _
      (.of_textual rfl)) (fun s => ?_) _ _
    simp only [true_and, and_true]
    exact Iff.rfl
  refine (hdto s.1).trans ?_
  rw [Utf8, paths, nodeList_value]
  exact List.forall_mem_flatMap.symm

/-- A graph has the same paths in every order. -/
theorem Reorders.utf8 {graph other : NodeGraph} (h : graph.Reorders other) :
    other.Utf8 ↔ graph.Utf8 := by
  have hmem : ∀ entry, entry ∈ other.nodeList ↔ entry ∈ graph.nodeList := by
    rintro ⟨id, node⟩
    rw [mem_nodeList, mem_nodeList, h.node]
  rw [Utf8, Utf8, paths, paths, List.forall_mem_flatMap, List.forall_mem_flatMap]
  simp only [hmem]

theorem holds_nodes : Fields.Holds (Fields.of NodeGraphDto.mk
    |>.field "nodes" NodeGraphDto.nodesCodec
    |>.field "dependencies" Dependency.codec.list
    |>.field "relations" Relation.codec.list) "nodes" 0 NodeGraphDto.nodesCodec
      (fun s => s.1.1.2) :=
  ((Fields.Holds.last (.of NodeGraphDto.mk) "nodes" rfl).before _ _).before _ _

theorem holds_dependencies : Fields.Holds (Fields.of NodeGraphDto.mk
    |>.field "nodes" NodeGraphDto.nodesCodec
    |>.field "dependencies" Dependency.codec.list
    |>.field "relations" Relation.codec.list) "dependencies" 1 Dependency.codec.list
      (fun s => s.1.2) :=
  (Fields.Holds.last _ "dependencies" rfl).before _ _

theorem holds_relations : Fields.Holds (Fields.of NodeGraphDto.mk
    |>.field "nodes" NodeGraphDto.nodesCodec
    |>.field "dependencies" Dependency.codec.list
    |>.field "relations" Relation.codec.list) "relations" 2 Relation.codec.list
      (fun s => s.2) :=
  Fields.Holds.last _ "relations" rfl

/-- The walk over the nodes finds their copy counts in the order of the entries. -/
theorem reads_nodes : NodeGraphDto.nodesCodec.Reads (.members Node.copiesIn)
    (fun entries => entries.flatMap fun entry => entry.2.kind.kind.copyCounts)
    CopyCount.codec := by
  intro j s hdecode
  cases j with
  | object members =>
      obtain ⟨entries, hentries, hdecode⟩ := Option.bind_eq_some_iff.mp hdecode
      split at hdecode
      · obtain rfl := Option.some.inj hdecode
        have hvalue : ∀ entries : List (NodeId × Node.codec.Stored),
            (entries.map fun entry => (entry.1, Node.codec.value entry.2)).flatMap
              (fun entry => entry.2.kind.kind.copyCounts) =
            entries.flatMap fun entry => (Node.codec.value entry.2).kind.kind.copyCounts := by
          intro entries
          rw [List.flatMap_map]
        have hread : ReadAs CopyCount.codec (members.flatMap fun member => Node.copiesIn member.2)
            (entries.flatMap fun entry => (Node.codec.value entry.2).kind.kind.copyCounts) := by
          refine List.rel_flatMap (Support.option_mapM_eq_some.mp hentries) ?_
          intro member entry hentry
          obtain ⟨_, -, hentry⟩ := Option.bind_eq_some_iff.mp hentry
          obtain ⟨t, ht, rfl⟩ := Option.map_eq_some_iff.mp hentry
          exact Node.reads _ _ ht
        rw [← hvalue] at hread
        exact hread
      · cases hdecode
  | _ => cases hdecode

/-- The copy counts of the derived form are read where the walk finds them. -/
theorem reads_dto : NodeGraphDto.codec.Reads copiesIn
    (fun dto => dto.nodes.flatMap fun entry => entry.2.kind.kind.copyCounts) CopyCount.codec :=
  Codec.Reads.field holds_nodes reads_nodes fun _ => rfl

/-- The copy counts of a graph are read where the walk finds them. -/
theorem reads_copies (h : NodeGraph.codec.decode j = some s) :
    ReadAs CopyCount.codec (copiesIn j) (NodeGraph.codec.value s).copyCounts := by
  rw [copyCounts, nodeList_value]
  exact reads_dto j s.1 (decode_dto h)

end Read

/-! ### Repetitions -/

/-- Two entries of the node object have the same key, or keys that spell one identity. -/
def RepeatsNode (j : JsonValue) : Prop :=
  ∃ members, .object members ∈ Walk.named "nodes" 0 j ∧ ¬members.Pairwise fun a b =>
    a.1 ≠ b.1 ∧ ∀ id, NodeId.ofKey a.1 = some id → NodeId.ofKey b.1 ≠ some id

/-- Two items of a field are the same, or are read as one value. -/
def Repeats {α : Type} (name : String) (index : Nat) (c : Codec α) (j : JsonValue) : Prop :=
  ∃ items, .array items ∈ Walk.named name index j ∧ ¬items.Pairwise fun a b =>
    a ≠ b ∧ ∀ s t, c.decode a = some s → c.decode b = some t → c.value s ≠ c.value t

/-- No input with a repetition is read. -/
theorem decode_of_repeats {j : JsonValue} (h : RepeatsNode j ∨
    Repeats "dependencies" 1 Dependency.codec j ∨ Repeats "relations" 2 Relation.codec j) :
    NodeGraph.codec.decode j = none := by
  refine Option.eq_none_iff_forall_ne_some.mpr fun s hdecode => ?_
  have hdto := decode_dto hdecode
  obtain ⟨-, hdependencies, hrelations⟩ := NodeGraphDto.collect_eq_some (collect_value s)
  rcases h with ⟨members, hmembers, hrepeats⟩ | ⟨items, hitems, hrepeats⟩ |
    ⟨items, hitems, hrepeats⟩
  · obtain ⟨part, hnamed, hpart⟩ := Codec.named_of_decode holds_nodes hdto
    rw [hnamed, List.mem_singleton] at hmembers
    subst hmembers
    exact hrepeats (Node.codec.keyed_pairwise _ _ hpart)
  · obtain ⟨part, hnamed, hpart⟩ := Codec.named_of_decode holds_dependencies hdto
    rw [hnamed, List.mem_singleton] at hitems
    subst hitems
    refine hrepeats (Dependency.codec.list_pairwise hpart ?_)
    have hnodup := (NodeGraph.codec.value s).nodup_dependencies
    rw [hdependencies] at hnodup
    exact hnodup
  · obtain ⟨part, hnamed, hpart⟩ := Codec.named_of_decode holds_relations hdto
    rw [hnamed, List.mem_singleton] at hitems
    subst hitems
    refine hrepeats (Relation.codec.list_pairwise hpart ?_)
    have hnodup := (NodeGraph.codec.value s).nodup_relations
    rw [hrelations] at hnodup
    exact hnodup

/-! ### The wire format -/

/-- `CopyCount::new` refuses one. -/
theorem copyCount_new {copies : CopyCount} :
    CopyCount.new copies.val = some copies ↔ copies.val ≠ 1 := by
  have hpos := copies.property.1
  have hlt := copies.property.2
  rw [CopyCount.new]
  split
  · next h => exact iff_of_true rfl (by omega)
  · next h =>
    refine iff_of_false (by rintro ⟨⟩) ?_
    omega

/-- A copy count is read from its number. -/
theorem decode_copies {j : JsonValue} {t : CopyCount.codec.Stored}
    (h : CopyCount.codec.decode j = some t) : j = .int (CopyCount.codec.value t).val := by
  cases j with
  | int n =>
      dsimp only [CopyCount.codec, nonZeroU16, NonZero.codec, Codec.map, Codec.natural] at h
      split at h
      · next hn =>
        obtain rfl := Option.some.inj h
        exact congrArg JsonValue.int (Int.toNat_of_nonneg hn.1).symm
      · cases h
  | _ => cases h

/-- The copy counts that are read come from a constructor when none of them is one. -/
theorem new_iff {found : List JsonValue} {parts : List CopyCount}
    (h : ReadAs CopyCount.codec found parts) :
    (∀ copies ∈ parts, CopyCount.new copies.val = some copies) ↔ JsonValue.int 1 ∉ found := by
  induction h with
  | nil => simp
  | @cons j copies found parts hfirst _ ih =>
      obtain ⟨t, ht, rfl⟩ := hfirst
      have hnew : CopyCount.new (CopyCount.codec.value t).val = some (CopyCount.codec.value t) ↔
          JsonValue.int 1 ≠ j := by
        rw [copyCount_new, decode_copies ht, ne_eq, ne_eq, JsonValue.int.injEq]
        omega
      rw [List.forall_mem_cons, ih, hnew, List.mem_cons, not_or]

/-- A graph that was read is constructed exactly when no copy count in the JSON is one. -/
theorem constructed_iff {j : JsonValue} {s : NodeGraph.codec.Stored}
    (h : NodeGraph.codec.decode j = some s) :
    (NodeGraph.codec.value s).Constructed ↔ JsonValue.int 1 ∉ copiesIn j := by
  rw [← new_iff (reads_copies h)]
  constructor
  · exact fun hconstructed => hconstructed.copyCounts
  · exact fun hcopies => ⟨hcopies, fun number _ => dif_pos number.2.property⟩

theorem total_dto : NodeGraphDto.codec.total = true := by decide

/-- What is written is read back exactly when the structural check accepts the graph. -/
theorem decode_encode {s : NodeGraph.codec.Stored} {j : JsonValue}
    (h : NodeGraph.codec.encode s = some j) :
    NodeGraph.codec.decode j = some s ↔ (NodeGraph.codec.value s).validateStructure = .ok () := by
  rw [NodeGraph.codec.decode_encode h, ← isOk_iff]
  exact and_iff_right (NodeGraphDto.codec.accepts_all total_dto s.1)

/-- What is read passes the structural check. -/
theorem validateStructure_of_decode {j : JsonValue} {s : NodeGraph.codec.Stored}
    (h : NodeGraph.codec.decode j = some s) :
    (NodeGraph.codec.value s).validateStructure = .ok () :=
  isOk_iff.mp (NodeGraph.codec.sound h).1.2

/-- Encoding the graph and decoding the text gives an equal graph. -/
def RoundTrips (s : NodeGraph.codec.Stored) (graph : NodeGraph) : Prop :=
  ∃ j t, NodeGraph.codec.encode s = some j ∧ JsonValue.parse j.print = some j ∧
    NodeGraph.codec.decode j = some t ∧ graph.Reorders (NodeGraph.codec.value t)

/-- A graph is read back exactly when it is valid and its paths are UTF-8. -/
theorem roundTrips_iff {s : NodeGraph.codec.Stored} {graph : NodeGraph}
    (h : (NodeGraph.codec.value s).Reorders graph) :
    RoundTrips s graph ↔ graph.validateStructure = .ok () ∧ graph.Utf8 := by
  rw [h.validateStructure, h.utf8]
  constructor
  · rintro ⟨j, t, hencode, -, hdecode, hsame⟩
    refine ⟨?_, (writes s).mp ⟨j, hencode⟩⟩
    exact (h.trans hsame).validateStructure.mp (validateStructure_of_decode hdecode)
  · rintro ⟨hvalid, hutf8⟩
    obtain ⟨j, hencode⟩ := (writes s).mpr hutf8
    exact ⟨j, s, hencode, JsonValue.parse_print (NodeGraph.codec.plain hencode),
      (decode_encode hencode).mpr hvalid, h.symm⟩

/-- **The wire format of a graph.**  A graph, in whatever order its collections are iterated, is
read back from the text of its encoding exactly when the structural check accepts it, if and only if
the check rejects it or all its paths are UTF-8; what is read back is then held as it was.  A
repeated node key, dependency or relation is never read.  In a graph that is read every nested value
comes from its constructor exactly when no copy count in the JSON is one. -/
theorem wire_exact (s : NodeGraph.codec.Stored) (graph : NodeGraph) (j : JsonValue)
    (horder : (NodeGraph.codec.value s).Reorders graph) :
    ((RoundTrips s graph ↔ graph.validateStructure = .ok ()) ↔
      (graph.validateStructure = .ok () → graph.Utf8)) ∧
    (NodeGraph.codec.encode s = some j → (NodeGraph.codec.decode j = some s ↔
      graph.validateStructure = .ok ())) ∧
    (RepeatsNode j ∨ Repeats "dependencies" 1 Dependency.codec j ∨
      Repeats "relations" 2 Relation.codec j → NodeGraph.codec.decode j = none) ∧
    ∀ read, NodeGraph.codec.decode j = some read →
      ((NodeGraph.codec.value read).Constructed ↔ JsonValue.int 1 ∉ copiesIn j) := by
  refine ⟨?_, fun hencode => ?_, decode_of_repeats, fun read => constructed_iff⟩
  · rw [roundTrips_iff horder, and_iff_left_iff_imp]
  · rw [decode_encode hencode, horder.validateStructure]

/-- A node that is mirrored on so many copies. -/
def mirroredNode (copies : Int) : JsonValue :=
  .object [
    ("kind", .object [
      ("kind", .object [("LvmLv", .object [("name", .string "root"),
        ("kind", .object [("Mirror", .object [("copies", .int copies)])])])]),
      ("size", .null)]),
    ("size", .object [("observed_in", .null), ("presence", .string "Present"),
      ("identities", .array []), ("block", .null), ("device", .null)])]

/-- A graph of nodes that are all mirrored on so many copies, under the given keys. -/
def mirrored (keys : List String) (copies : Int) : JsonValue :=
  .object [("nodes", .object (keys.map fun key => (key, mirroredNode copies))),
    ("dependencies", .array []), ("relations", .array [])]

/-- A mirror of one copy is read, although `CopyCount::new` makes no such count. -/
theorem mirrored_once : ∃ s,
    NodeGraph.codec.decode (mirrored ["00000000-0000-0000-0000-000000000001"] 1) = some s ∧
      ¬(NodeGraph.codec.value s).Constructed := by
  have hread : (NodeGraph.codec.decode
      (mirrored ["00000000-0000-0000-0000-000000000001"] 1)).isSome = true := by decide +kernel
  obtain ⟨s, hs⟩ := Option.isSome_iff_exists.mp hread
  refine ⟨s, hs, fun hconstructed => ?_⟩
  exact (constructed_iff hs).mp hconstructed (by decide +kernel)

/-- `/\xff`. -/
def latinFile : PathBuf := ⟨[.rootDir, .nonUtf8 ⟨[0xff], not_isValidUTF8_ff⟩]⟩

/-- A loop device that is backed by a file whose path is not UTF-8. -/
def latinLoop : NodeGraph.codec.Stored :=
  ⟨((((), ⟨[(⟨1#128⟩,
      (((), (((), .inr (.inr (.inr (.inr (.inl ((), some (.inr ⟨latinFile,
          PathBuf.not_utf8 (List.mem_of_getElem? (i := 1) rfl)⟩))))))), none)),
        (((((((), none), none), .inr (.inl ())), ⟨[], rfl⟩), none), none)))],
    List.nodup_singleton _⟩), ⟨[], rfl⟩), ⟨[], rfl⟩), by decide⟩

/-- The structural check accepts this graph, but it has no JSON form. -/
theorem latinLoop_lost : (NodeGraph.codec.value latinLoop).validateStructure = .ok () ∧
    ¬RoundTrips latinLoop (NodeGraph.codec.value latinLoop) := by
  refine ⟨by decide +kernel, fun hround => ?_⟩
  obtain ⟨text, htext⟩ := ((roundTrips_iff (.refl _)).mp hround).2 latinFile (by decide +kernel)
  exact PathBuf.not_utf8 (List.mem_of_getElem? (i := 1) rfl) text htext

/-- A mirror of two copies is read as a graph that could be built, and is written and read again;
the same node under two spellings of one key is not read. -/
theorem wire_exact_mirrored :
    (∃ s j, NodeGraph.codec.decode (mirrored ["00000000-0000-0000-0000-000000000001"] 2) = some s ∧
      NodeGraph.codec.encode s = some j ∧ NodeGraph.codec.decode j = some s ∧
        (NodeGraph.codec.value s).Constructed) ∧
    NodeGraph.codec.decode (mirrored ["00000000-0000-0000-0000-00000000000a",
      "00000000-0000-0000-0000-00000000000A"] 2) = none := by
  have hread : (NodeGraph.codec.decode
      (mirrored ["00000000-0000-0000-0000-000000000001"] 2)).isSome = true := by decide +kernel
  obtain ⟨s, hs⟩ := Option.isSome_iff_exists.mp hread
  obtain ⟨-, j, hj⟩ := NodeGraph.codec.sound hs
  constructor
  · have hwritten := wire_exact s _ j (.refl _)
    have hmirrored := wire_exact s _ (mirrored ["00000000-0000-0000-0000-000000000001"] 2) (.refl _)
    refine ⟨s, j, hs, hj, (hwritten.2.1 hj).mpr (validateStructure_of_decode hs), ?_⟩
    exact (hmirrored.2.2.2 s hs).mpr (by decide +kernel)
  · have htwice := wire_exact s _ (mirrored ["00000000-0000-0000-0000-00000000000a",
      "00000000-0000-0000-0000-00000000000A"] 2) (.refl _)
    refine htwice.2.2.1 (.inl ⟨_, List.mem_singleton_self _, fun hall => ?_⟩)
    have hkeys := (List.pairwise_cons.mp hall).1 _ List.mem_cons_self
    exact hkeys.2 ⟨10⟩ (by decide +kernel) (by decide +kernel)

end NodeGraph

end DisksGraph
