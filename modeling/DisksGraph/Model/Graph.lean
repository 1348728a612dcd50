import DisksGraph.Model.Node
import DisksGraph.Support.Kahn
import DisksGraph.Support.Worklist
import Mathlib.Data.List.AList

/-!
# Model — Graph

`NodeGraph` of `model/graph.rs`: nodes by identity, dependency edges and non-owning relations.

The source keeps `HashMap<NodeId, Node>` and two `HashSet`s.  Here the nodes are an association
list without repeated keys and each edge set is a list without repetition: the list is the order
in which one run of the process happens to iterate the set.

* `ancestors` is what reaches a node through dependencies (`mem_ancestors`).
* `validateStructure` is the representation check every published graph has to pass.
-/

namespace DisksGraph

/-- What a member does in its MD array. -/
inductive MdMemberRole where
  | data
  | spare
  | replacement
  | journal
deriving DecidableEq, Repr

/-- A member's place in its MD array. -/
structure MdMember where
  role : MdMemberRole
  slot : Option Nat
  dataOffset : Option Bytes
deriving DecidableEq, Repr

/-- A device of a Btrfs filesystem, by its device number when that is known. -/
structure BtrfsMember where
  devid : Option (NonZero 64)
deriving DecidableEq

/-- The part a member plays in the aggregate it belongs to. -/
inductive MemberRole where
  | lvmPv
  | md (member : MdMember)
  | btrfs (member : BtrfsMember)
  | zfs (member : ZfsMember)
deriving DecidableEq

/-- Which half of a cache a device provides. -/
inductive CacheRole where
  | data
  | metadata
deriving DecidableEq, Repr

/-- How one node depends on another; `contains` carries the byte offset. -/
inductive DependencyKind where
  | backs
  | contains (offset : Bytes)
  | provides
  | memberOf (role : MemberRole)
  | caches (role : CacheRole)
  | path
deriving DecidableEq

/-- The relations between nodes that are no dependency. -/
inductive RelationKind where
  | snapshotOf
  | nvmeAttachedTo
  | replicates
deriving DecidableEq, Repr

/-- A dependency edge, from the supporting node to the one it supports. -/
structure Dependency where
  source : NodeId
  target : NodeId
  kind : DependencyKind
deriving DecidableEq

/-- A relation edge. -/
structure Relation where
  source : NodeId
  target : NodeId
  kind : RelationKind
deriving DecidableEq

/-- `std::mem::discriminant` of a dependency kind. -/
inductive DependencyClass where
  | backs
  | contains
  | provides
  | memberOf
  | caches
  | path
deriving DecidableEq, Repr

namespace DependencyKind

/-- The kind of an edge without its data. -/
def discriminant : DependencyKind → DependencyClass
  | .backs => .backs
  | .contains _ => .contains
  | .provides => .provides
  | .memberOf _ => .memberOf
  | .caches _ => .caches
  | .path => .path

/-- The cache role that distinguishes two `Caches` edges between the same nodes. -/
def cacheRole : DependencyKind → Option CacheRole
  | .caches role => some role
  | _ => none

/-- Whether the edge is a `Backs` edge. -/
def isBacks : DependencyKind → Bool
  | .backs => true
  | _ => false

/-- Whether the edge is a `Contains` edge. -/
def isContains : DependencyKind → Bool
  | .contains _ => true
  | _ => false

/-- `matches!(kind, MemberOf(MemberRole::Btrfs(_)))`. -/
def isBtrfsMember : DependencyKind → Bool
  | .memberOf (.btrfs _) => true
  | _ => false

end DependencyKind

/-- Invalid graph representation or an invalid explicit node mutation.  The wire-only
`DuplicateEdge` is raised by no modelled function and is left out. -/
inductive GraphError where
  | duplicateNode (id : NodeId)
  | missingNode (id : NodeId)
  | selfDependency (id : NodeId)
  | dependencyCycle
  | conflictingOwner (id : NodeId)
  | conflictingRole (id : NodeId)
  | partitionOffset (id : NodeId)
deriving DecidableEq

/-- Canonical collection of storage nodes and their relationships. -/
structure NodeGraph where
  nodes : AList fun _ : NodeId => Node
  dependencies : List Dependency
  relations : List Relation
  nodup_dependencies : dependencies.Nodup
  nodup_relations : relations.Nodup

namespace NodeGraph

/-- `NodeGraph::new`. -/
def empty : NodeGraph := ⟨∅, [], [], List.nodup_nil, List.nodup_nil⟩

/-- The node stored under an id. -/
def node (graph : NodeGraph) (id : NodeId) : Option Node := graph.nodes.lookup id

/-- Whether the graph has a node of that id. -/
def contains (graph : NodeGraph) (id : NodeId) : Bool := (graph.node id).isSome

/-- The kind stored under an identity, `graph.node(id)?.kind.kind`. -/
def kindOf (graph : NodeGraph) (id : NodeId) : Option NodeKind :=
  (graph.node id).map fun value => value.kind.kind

/-- The nodes, in iteration order. -/
def nodeList (graph : NodeGraph) : List (NodeId × Node) :=
  graph.nodes.entries.map fun entry => (entry.1, entry.2)

/-- Stores a node under an identity, whether or not it was present.  `insert_new` and
`replace_existing` check presence first. -/
def setNode (graph : NodeGraph) (id : NodeId) (value : Node) : NodeGraph :=
  { graph with nodes := graph.nodes.insert id value }

/-- Adds a node under an id the graph does not have. -/
def insertNew (graph : NodeGraph) (id : NodeId) (value : Node) : Except GraphError NodeGraph :=
  if graph.contains id then .error (.duplicateNode id) else .ok (graph.setNode id value)

/-- Replaces a node the graph has. -/
def replaceExisting (graph : NodeGraph) (id : NodeId) (value : Node) :
    Except GraphError NodeGraph :=
  if graph.contains id then .ok (graph.setNode id value) else .error (.missingNode id)

/-- `remove_node` leaves the incident edges in place. -/
def removeNode (graph : NodeGraph) (id : NodeId) : NodeGraph :=
  { graph with nodes := graph.nodes.erase id }

/-- Adds a dependency; the graph keeps one copy of each. -/
def insertDependency (graph : NodeGraph) (dependency : Dependency) : NodeGraph :=
  { graph with
    dependencies := graph.dependencies.insert dependency
    nodup_dependencies := graph.nodup_dependencies.insert }

/-- Removes a dependency. -/
def removeDependency (graph : NodeGraph) (dependency : Dependency) : NodeGraph :=
  { graph with
    dependencies := graph.dependencies.erase dependency
    nodup_dependencies := graph.nodup_dependencies.erase dependency }

/-- Adds a relation; the graph keeps one copy of each. -/
def insertRelation (graph : NodeGraph) (relation : Relation) : NodeGraph :=
  { graph with
    relations := graph.relations.insert relation
    nodup_relations := graph.nodup_relations.insert }

/-- Removes a relation. -/
def removeRelation (graph : NodeGraph) (relation : Relation) : NodeGraph :=
  { graph with
    relations := graph.relations.erase relation
    nodup_relations := graph.nodup_relations.erase relation }

/-- `graph == other`: the nodes as maps and the edges as sets, whatever their iteration order. -/
def sameAs (graph other : NodeGraph) : Bool :=
  graph.nodeList.length == other.nodeList.length &&
    graph.nodeList.all (fun entry => other.node entry.1 == some entry.2) &&
    graph.dependencies.isPerm other.dependencies && graph.relations.isPerm other.relations

/-! ### What each operation does to a lookup -/

section Lookup

variable {graph : NodeGraph} {id other : NodeId} {value : Node} {edge d : Dependency}
  {link r : Relation}

@[simp] theorem node_setNode_self : (graph.setNode id value).node id = some value :=
  AList.lookup_insert _

theorem node_setNode_ne (h : other ≠ id) :
    (graph.setNode id value).node other = graph.node other :=
  AList.lookup_insert_ne h

/-- The nodes after one is stored. -/
theorem node_setNode :
    (graph.setNode id value).node other = if other = id then some value else graph.node other := by
  by_cases h : other = id
  · subst h; rw [if_pos rfl, node_setNode_self]
  · rw [if_neg h, node_setNode_ne h]

@[simp] theorem dependencies_setNode : (graph.setNode id value).dependencies = graph.dependencies :=
  rfl

@[simp] theorem relations_setNode : (graph.setNode id value).relations = graph.relations := rfl

@[simp] theorem node_removeNode_self : (graph.removeNode id).node id = none :=
  AList.lookup_erase _ _

theorem node_removeNode_ne (h : other ≠ id) : (graph.removeNode id).node other = graph.node other :=
  AList.lookup_erase_ne h

/-- The nodes after one is removed. -/
theorem node_removeNode :
    (graph.removeNode id).node other = if other = id then none else graph.node other := by
  by_cases h : other = id
  · subst h; rw [if_pos rfl, node_removeNode_self]
  · rw [if_neg h, node_removeNode_ne h]

@[simp] theorem dependencies_removeNode : (graph.removeNode id).dependencies = graph.dependencies :=
  rfl

@[simp] theorem relations_removeNode : (graph.removeNode id).relations = graph.relations := rfl

@[simp] theorem node_insertDependency : (graph.insertDependency d).node id = graph.node id := rfl

@[simp] theorem relations_insertDependency :
    (graph.insertDependency d).relations = graph.relations := rfl

/-- The edges after one is added. -/
@[simp] theorem mem_insertDependency :
    edge ∈ (graph.insertDependency d).dependencies ↔ edge = d ∨ edge ∈ graph.dependencies :=
  List.mem_insert_iff

@[simp] theorem node_removeDependency : (graph.removeDependency d).node id = graph.node id := rfl

@[simp] theorem relations_removeDependency :
    (graph.removeDependency d).relations = graph.relations := rfl

/-- The edges after one is removed. -/
@[simp] theorem mem_removeDependency :
    edge ∈ (graph.removeDependency d).dependencies ↔ edge ≠ d ∧ edge ∈ graph.dependencies :=
  graph.nodup_dependencies.mem_erase_iff

@[simp] theorem node_insertRelation : (graph.insertRelation r).node id = graph.node id := rfl

@[simp] theorem dependencies_insertRelation :
    (graph.insertRelation r).dependencies = graph.dependencies := rfl

/-- The relations after one is added. -/
@[simp] theorem mem_insertRelation :
    link ∈ (graph.insertRelation r).relations ↔ link = r ∨ link ∈ graph.relations :=
  List.mem_insert_iff

@[simp] theorem node_removeRelation : (graph.removeRelation r).node id = graph.node id := rfl

@[simp] theorem dependencies_removeRelation :
    (graph.removeRelation r).dependencies = graph.dependencies := rfl

/-- The relations after one is removed. -/
@[simp] theorem mem_removeRelation :
    link ∈ (graph.removeRelation r).relations ↔ link ≠ r ∧ link ∈ graph.relations :=
  graph.nodup_relations.mem_erase_iff

/-- A graph contains the ids of its nodes. -/
theorem contains_iff : graph.contains id = true ↔ ∃ value, graph.node id = some value := by
  rw [contains, Option.isSome_iff_exists]

/-- The iteration visits exactly the stored nodes. -/
theorem mem_nodeList : (id, value) ∈ graph.nodeList ↔ graph.node id = some value := by
  rw [node, AList.lookup, nodeList, List.mem_map]
  constructor
  · rintro ⟨⟨i, v⟩, hm, he⟩
    cases he
    exact (List.mem_dlookup_iff graph.nodes.nodupKeys).mpr hm
  · intro h
    exact ⟨⟨id, value⟩, (List.mem_dlookup_iff graph.nodes.nodupKeys).mp h, rfl⟩

/-- The identities under which a node is stored. -/
theorem mem_ids {id : NodeId} : id ∈ graph.nodeList.map (·.1) ↔ graph.contains id = true := by
  rw [contains_iff, List.mem_map]
  constructor
  · rintro ⟨⟨id', value⟩, hmem, rfl⟩
    exact ⟨value, mem_nodeList.mp hmem⟩
  · rintro ⟨value, hvalue⟩
    exact ⟨(id, value), mem_nodeList.mpr hvalue, rfl⟩

/-- No id is listed twice. -/
theorem nodup_ids : (graph.nodeList.map (·.1)).Nodup := by
  rw [nodeList, List.map_map]
  exact graph.nodes.nodupKeys

theorem nodup_nodeList (graph : NodeGraph) : graph.nodeList.Nodup := nodup_ids.of_map

end Lookup

/-! ### Traversals -/

/-- The sources of the dependencies that end at a node. -/
def backers (graph : NodeGraph) (id : NodeId) : List NodeId :=
  (graph.dependencies.filter fun edge => edge.target == id).map (·.source)

/-- The targets of the dependencies that start at a node. -/
def consumers (graph : NodeGraph) (id : NodeId) : List NodeId :=
  (graph.dependencies.filter fun edge => edge.source == id).map (·.target)

/-- Visits dependency ancestors once; non-owning relations do not participate. -/
def ancestors (graph : NodeGraph) (id : NodeId) : List NodeId :=
  (Support.discover graph.backers (1 + graph.dependencies.length) [id] [id]).filter (· ≠ id)

/-- A backer is the source of some edge. -/
theorem bounded_backers (graph : NodeGraph) :
    Support.Bounded graph.backers Dependency.target graph.dependencies := by
  intro x
  simp [backers, List.countP_eq_length_filter, beq_eq_decide]

/-- A consumer is the target of some edge. -/
theorem bounded_consumers (graph : NodeGraph) :
    Support.Bounded graph.consumers Dependency.source graph.dependencies := by
  intro x
  simp [consumers, List.countP_eq_length_filter, beq_eq_decide]

/-- One dependency from `a` to `b`. -/
def Edge (graph : NodeGraph) (a b : NodeId) : Prop :=
  ∃ edge ∈ graph.dependencies, edge.source = a ∧ edge.target = b

/-- The backers of a node are the sources of its edges. -/
theorem mem_backers {graph : NodeGraph} {a b : NodeId} : a ∈ graph.backers b ↔ graph.Edge a b := by
  simp only [backers, Edge, List.mem_map, List.mem_filter, beq_iff_eq]
  constructor
  · rintro ⟨edge, ⟨hm, ht⟩, hs⟩
    exact ⟨edge, hm, hs, ht⟩
  · rintro ⟨edge, hm, hs, ht⟩
    exact ⟨edge, ⟨hm, ht⟩, hs⟩

/-- The consumers of a node are the targets of its edges. -/
theorem mem_consumers {graph : NodeGraph} {a b : NodeId} :
    b ∈ graph.consumers a ↔ graph.Edge a b := by
  simp only [consumers, Edge, List.mem_map, List.mem_filter, beq_iff_eq, and_assoc]

/-- No ancestor is listed twice. -/
theorem nodup_ancestors (graph : NodeGraph) (id : NodeId) : (graph.ancestors id).Nodup :=
  (Support.nodup_discover _ _ _ (List.nodup_singleton id)).filter _

/-- The ancestors of `id` are the other nodes from which `id` is reachable. -/
theorem mem_ancestors {graph : NodeGraph} {id a : NodeId} :
    a ∈ graph.ancestors id ↔ a ≠ id ∧ Relation.ReflTransGen graph.Edge a id := by
  rw [ancestors, List.mem_filter, Support.mem_discover graph.bounded_backers (le_refl _)]
  have hswap : Support.Reachable graph.backers id a ↔ Relation.ReflTransGen graph.Edge a id := by
    rw [Support.Reachable, ← Relation.reflTransGen_swap]
    simp only [mem_backers]
  simp [hswap, and_comm]

/-! ### Representation checks -/

/-- Checks both endpoints before interpreting an edge's semantics. -/
def requireEndpoints (graph : NodeGraph) (source target : NodeId) : Except GraphError Unit :=
  if !graph.contains source then .error (.missingNode source)
  else if !graph.contains target then .error (.missingNode target)
  else .ok ()

/-- The sets `validate_structure` accumulates over the dependency edges. -/
structure Seen where
  owners : List NodeId := []
  logicalEdges : List (NodeId × NodeId × DependencyClass × Option CacheRole) := []
  mdSlots : List (NodeId × Nat) := []
  btrfsIds : List (NodeId × NonZero 64) := []
  cacheRoles : List (NodeId × CacheRole) := []

/-- The role of one dependency, against the roles seen before it. -/
def checkRole (graph : NodeGraph) (seen : Seen) (edge : Dependency) : Except GraphError Seen :=
  match edge.kind with
  | .contains offset =>
      if edge.target ∈ seen.owners then .error (.conflictingOwner edge.target)
      else match graph.kindOf edge.target with
        | some (.partition _ partitionOffset _ _) =>
            if offset ≠ partitionOffset then .error (.partitionOffset edge.target)
            else .ok { seen with owners := edge.target :: seen.owners }
        | _ => .ok { seen with owners := edge.target :: seen.owners }
  | .memberOf (.md member) =>
      match member.slot, member.role with
      | some slot, .data =>
          if (edge.target, slot) ∈ seen.mdSlots then .error (.conflictingRole edge.target)
          else .ok { seen with mdSlots := (edge.target, slot) :: seen.mdSlots }
      | _, _ => .ok seen
  | .memberOf (.btrfs member) =>
      match member.devid with
      | some devid =>
          if (edge.target, devid) ∈ seen.btrfsIds then .error (.conflictingRole edge.target)
          else .ok { seen with btrfsIds := (edge.target, devid) :: seen.btrfsIds }
      | none => .ok seen
  | .caches role =>
      if (edge.target, role) ∈ seen.cacheRoles then .error (.conflictingRole edge.target)
      else .ok { seen with cacheRoles := (edge.target, role) :: seen.cacheRoles }
  | _ => .ok seen

/-- One round of the dependency loop of `validate_structure`. -/
def checkDependency (graph : NodeGraph) (seen : Seen) (edge : Dependency) :
    Except GraphError Seen := do
  graph.requireEndpoints edge.source edge.target
  if edge.source = edge.target then throw (.selfDependency edge.source)
  let key := (edge.source, edge.target, edge.kind.discriminant, edge.kind.cacheRole)
  if key ∈ seen.logicalEdges then throw (.conflictingRole edge.target)
  graph.checkRole { seen with logicalEdges := key :: seen.logicalEdges } edge

/-- Orders backing objects before consumers, rejecting dangling edges and cycles. -/
def topologicalOrder (graph : NodeGraph) : Except GraphError (List NodeId) := do
  for edge in graph.dependencies do
    graph.requireEndpoints edge.source edge.target
    if edge.source = edge.target then throw (.selfDependency edge.source)
  let ids := graph.nodeList.map (·.1)
  let indegrees := fun id => graph.dependencies.countP (fun edge => edge.target = id)
  let order := Support.kahn graph.consumers ids.length (ids.filter fun id => indegrees id = 0)
    indegrees []
  if order.length ≠ ids.length then throw .dependencyCycle
  return order

/-- Checks representation invariants without requiring healthy or complete storage. -/
def validateStructure (graph : NodeGraph) : Except GraphError Unit := do
  for edge in graph.relations do
    graph.requireEndpoints edge.source edge.target
  let _ ← graph.dependencies.foldlM graph.checkDependency {}
  let _ ← graph.topologicalOrder
  return ()

end NodeGraph

end DisksGraph
