import DisksGraph.Model.Valid

/-!
# Model — Rename

The same storage in another publication.

An identity of a node is drawn by the process that observes it, and a name, a path, a serial number
or a size may change between two observations.  `NodeGraph.SameStorage` relates two graphs that
agree on everything else, up to a permutation of the node identities; a query that respects it reads
none of these.

* `SameStorage.edge`, `SameStorage.contains`: the topology.
* `SameStorage.validateStructure`: the representation check.
-/

namespace DisksGraph

/-- The edge between the renamed nodes. -/
def Dependency.rename (f : NodeId → NodeId) (edge : Dependency) : Dependency :=
  { edge with source := f edge.source, target := f edge.target }

/-- A relation between the renamed nodes. -/
def Relation.rename (f : NodeId → NodeId) (edge : Relation) : Relation :=
  { edge with source := f edge.source, target := f edge.target }

section Edges

variable {f : NodeId → NodeId}

/-- Edges between nodes that are kept apart are kept apart. -/
theorem Dependency.rename_inj {edge other : Dependency}
    (hsource : f edge.source = f other.source → edge.source = other.source)
    (htarget : f edge.target = f other.target → edge.target = other.target)
    (h : edge.rename f = other.rename f) : edge = other := by
  obtain ⟨source, target, kind⟩ := edge
  obtain ⟨source', target', kind'⟩ := other
  obtain ⟨hs, ht, hkind⟩ := Dependency.mk.inj h
  exact Dependency.mk.injEq .. ▸ ⟨hsource hs, htarget ht, hkind⟩

/-- Relations with equal images are equal. -/
theorem Relation.rename_inj {edge other : Relation}
    (hsource : f edge.source = f other.source → edge.source = other.source)
    (htarget : f edge.target = f other.target → edge.target = other.target)
    (h : edge.rename f = other.rename f) : edge = other := by
  obtain ⟨source, target, kind⟩ := edge
  obtain ⟨source', target', kind'⟩ := other
  obtain ⟨hs, ht, hkind⟩ := Relation.mk.inj h
  exact Relation.mk.injEq .. ▸ ⟨hsource hs, htarget ht, hkind⟩

end Edges

/-! ### What outlives a publication -/

/-- The kind of a node without the names and paths that a user or the system gives it. -/
def NodeKind.nameless : NodeKind → NodeKind
  | .nvmeSubsystem _ => .nvmeSubsystem ""
  | .loop _ => .loop none
  | .dmCryptMapping _ => .dmCryptMapping ""
  | .dmIntegrity _ => .dmIntegrity ""
  | .dmVerity _ => .dmVerity ""
  | .lvmVg _ _ => .lvmVg "" none
  | .lvmLv lv => .lvmLv { lv with name := "" }
  | .bcache _ mode => .bcache "" mode
  | .dmCache _ mode => .dmCache "" mode
  | .dmWritecache _ => .dmWritecache ""
  | .filesystem kind _ => .filesystem kind none
  | .btrfsSubvolume _ readOnly isDefault => .btrfsSubvolume "" readOnly isDefault
  | .zfsPool _ => .zfsPool ""
  | .zfsDataset _ => .zfsDataset ""
  | .zfsVolume _ => .zfsVolume ""
  | .drbd _ => .drbd ""
  | .unknown _ => .unknown ""
  | kind => kind

/-- Whether the identity is a serial number. -/
def ExternalId.isSerial : ExternalId → Bool
  | .serial .. => true
  | _ => false

/-- What a node shows in every publication: no name, no path, no serial number and no size. -/
structure StableFacts where
  kind : NodeKind
  presence : Presence
  identities : List ExternalId
deriving DecidableEq

/-- The facts of a node that a rename keeps. -/
def Node.stable (node : Node) : StableFacts where
  kind := node.kind.kind.nameless
  presence := node.size.presence
  identities := node.size.identities.filter fun identity => !identity.isSerial

/-- The offset that a contained partition has to have. -/
def NodeKind.partitionOffset : NodeKind → Option Bytes
  | .partition _ offset _ _ => some offset
  | _ => none

theorem NodeKind.partitionOffset_nameless {kind : NodeKind} :
    kind.nameless.partitionOffset = kind.partitionOffset := by
  cases kind <;> rfl

/-! ### The entries an edge claims -/

/-- A claim about the renamed nodes. -/
def EdgeClaim.rename (f : NodeId → NodeId) : EdgeClaim → EdgeClaim
  | .logicalEdge source target discriminant role =>
      .logicalEdge (f source) (f target) discriminant role
  | .owner target => .owner (f target)
  | .mdSlot target slot => .mdSlot (f target) slot
  | .btrfsId target devid => .btrfsId (f target) devid
  | .cacheRole target role => .cacheRole (f target) role

section Claims

variable {σ : NodeId ≃ NodeId}

/-- Renaming is injective on claims. -/
theorem EdgeClaim.rename_injective : Function.Injective (EdgeClaim.rename σ) := by
  intro claim other h
  cases claim <;> cases other <;> simp_all [EdgeClaim.rename]

/-- The claims of a renamed edge are the renamed claims. -/
theorem Dependency.claims_rename {edge : Dependency} :
    (edge.rename σ).claims = edge.claims.map (EdgeClaim.rename σ) := by
  obtain ⟨source, target, kind⟩ := edge
  have hrole : (Dependency.rename σ ⟨source, target, kind⟩).roleClaim =
      (Dependency.roleClaim ⟨source, target, kind⟩).map (EdgeClaim.rename σ) := by
    unfold Dependency.roleClaim Dependency.rename
    dsimp only
    split <;> rfl
  rw [Dependency.claims, hrole, Dependency.claims, List.map_cons, Option.toList_map]
  rfl

/-- Renaming keeps which edges are compatible. -/
theorem Dependency.compatible_rename {edge other : Dependency} :
    (edge.rename σ).Compatible (other.rename σ) ↔ edge.Compatible other := by
  simp only [Dependency.Compatible, Dependency.claims_rename, List.forall_mem_map,
    List.mem_map_of_injective EdgeClaim.rename_injective]

theorem Dependency.rename_symm {edge : Dependency} : (edge.rename σ).rename σ.symm = edge := by
  obtain ⟨source, target, kind⟩ := edge
  simp [Dependency.rename]

theorem Dependency.symm_rename {edge : Dependency} : (edge.rename σ.symm).rename σ = edge := by
  obtain ⟨source, target, kind⟩ := edge
  simp [Dependency.rename]

theorem Relation.symm_rename {edge : Relation} : (edge.rename σ.symm).rename σ = edge := by
  obtain ⟨source, target, kind⟩ := edge
  simp [Relation.rename]

end Claims

namespace NodeGraph

/-- The same storage: equal stable facts and equal edges, up to a permutation of the identities that
keeps the nil identity. -/
structure SameStorage (σ : NodeId ≃ NodeId) (graph other : NodeGraph) : Prop where
  nil : ∀ id, (σ id).asUuid.isNil = id.asUuid.isNil
  node : ∀ id, (other.node (σ id)).map Node.stable = (graph.node id).map Node.stable
  dependencies : ∀ edge, edge.rename σ ∈ other.dependencies ↔ edge ∈ graph.dependencies
  relations : ∀ link, link.rename σ ∈ other.relations ↔ link ∈ graph.relations

/-- The offset of an edge agrees with that of the partition it leads to. -/
theorem offsetAgrees_iff {graph : NodeGraph} {edge : Dependency} :
    graph.offsetAgrees edge = true ↔ ∀ offset found, edge.kind = .contains offset →
      (graph.kindOf edge.target).bind NodeKind.partitionOffset = some found → offset = found := by
  unfold offsetAgrees
  split
  · next offset number partitionOffset role attributes hkind hfound =>
    rw [hkind, hfound, beq_iff_eq]
    constructor
    · rintro rfl offset found heq hpartition
      rw [← DependencyKind.contains.inj heq]
      exact Option.some.inj hpartition
    · exact fun h => h _ _ rfl rfl
  · next hother =>
    refine iff_of_true rfl fun offset found hkind hfound => ?_
    obtain ⟨kind, hkindOf, hpartition⟩ := Option.bind_eq_some_iff.mp hfound
    cases kind with
    | partition number partitionOffset role attributes =>
        exact absurd hkindOf (hother offset number partitionOffset role attributes hkind)
    | _ => cases hpartition

namespace SameStorage

variable {σ : NodeId ≃ NodeId} {graph other : NodeGraph}

/-- The storage is the same the other way round. -/
theorem symm (h : SameStorage σ graph other) : SameStorage σ.symm other graph where
  nil id := by rw [← h.nil, Equiv.apply_symm_apply]
  node id := by rw [← h.node, Equiv.apply_symm_apply]
  dependencies edge := by rw [← h.dependencies, Dependency.symm_rename]
  relations link := by rw [← h.relations, Relation.symm_rename]

variable (h : SameStorage σ graph other)
include h

/-- The image of a node is contained exactly where the node is. -/
theorem contains (id : NodeId) : other.contains (σ id) = graph.contains id := by
  rw [NodeGraph.contains, NodeGraph.contains, ← Option.isSome_map (f := Node.stable), h.node,
    Option.isSome_map]

/-- A node has a counterpart with the same stable facts. -/
theorem exists_node {id : NodeId} {node : Node} (hnode : graph.node id = some node) :
    ∃ node', other.node (σ id) = some node' ∧ node'.stable = node.stable := by
  have hstable := h.node id
  rw [hnode, Option.map_some, Option.map_eq_some_iff] at hstable
  exact hstable

theorem edge (a b : NodeId) : other.Edge (σ a) (σ b) ↔ graph.Edge a b := by
  constructor
  · rintro ⟨edge, hedge, hsource, htarget⟩
    refine ⟨edge.rename σ.symm, (h.symm.dependencies edge).mpr hedge, ?_, ?_⟩
    · exact σ.symm_apply_eq.mpr hsource
    · exact σ.symm_apply_eq.mpr htarget
  · rintro ⟨edge, hedge, rfl, rfl⟩
    exact ⟨edge.rename σ, (h.dependencies edge).mpr hedge, rfl, rfl⟩

/-- The image of an accessible node is accessible. -/
theorem acc {id : NodeId} (hacc : Acc graph.Edge id) : Acc other.Edge (σ id) := by
  induction hacc with
  | intro id _ ih =>
      refine ⟨_, fun below hbelow => ?_⟩
      have hedge := (h.edge (σ.symm below) id).mp (by rwa [Equiv.apply_symm_apply])
      have hstep := ih _ hedge
      rwa [Equiv.apply_symm_apply] at hstep

theorem partitionOffset (id : NodeId) :
    (other.kindOf (σ id)).bind NodeKind.partitionOffset =
      (graph.kindOf id).bind NodeKind.partitionOffset := by
  have hoffset : ∀ {found : Option Node},
      (found.map fun node => node.kind.kind).bind NodeKind.partitionOffset =
        (found.map Node.stable).bind fun facts => facts.kind.partitionOffset := by
    intro found
    cases found with
    | none => rfl
    | some node => exact NodeKind.partitionOffset_nameless.symm
  rw [kindOf, kindOf, hoffset, hoffset, h.node]

/-- The image of a sound edge is sound. -/
theorem edgeSound {edge : Dependency} (hsound : graph.EdgeSound edge) :
    other.EdgeSound (edge.rename σ) where
  source := (h.contains edge.source).trans hsound.source
  target := (h.contains edge.target).trans hsound.target
  proper := fun hsame => hsound.proper (σ.injective hsame)
  offset := by
    rw [offsetAgrees_iff]
    intro offset found hkind hfound
    rw [Dependency.rename, h.partitionOffset] at hfound
    exact offsetAgrees_iff.mp hsound.offset offset found hkind hfound

/-- **The same storage under other names is valid too.** -/
theorem valid (hvalid : graph.validateStructure = .ok ()) : other.validateStructure = .ok () := by
  obtain ⟨hrelations, hedges, hpairs, hacc⟩ := validateStructure_eq_ok.mp hvalid
  refine validateStructure_eq_ok.mpr
    ⟨fun link hlink => ?_, fun edge hedge => ?_, ?_, fun id hid => ?_⟩
  · obtain ⟨hsource, htarget⟩ := hrelations _ ((h.symm.relations link).mpr hlink)
    rw [← h.contains] at hsource htarget
    simpa [Relation.rename] using And.intro hsource htarget
  · rw [← @Dependency.symm_rename σ edge]
    exact h.edgeSound (hedges _ ((h.symm.dependencies edge).mpr hedge))
  · refine other.nodup_dependencies.pairwise_of_forall_ne fun edge hedge edge' hedge' hne => ?_
    rw [← @Dependency.symm_rename σ edge, ← @Dependency.symm_rename σ edge',
      Dependency.compatible_rename]
    refine hpairs.forall ((h.symm.dependencies edge).mpr hedge)
      ((h.symm.dependencies edge').mpr hedge') fun hsame => hne ?_
    rw [← @Dependency.symm_rename σ edge, hsame, Dependency.symm_rename]
  · rw [← σ.apply_symm_apply id] at hid ⊢
    exact h.acc (hacc _ ((h.contains _).symm.trans hid))

/-- **The representation check accepts every publication of a storage, or none.** -/
theorem validateStructure : other.validateStructure = .ok () ↔ graph.validateStructure = .ok () :=
  ⟨h.symm.valid, h.valid⟩

end SameStorage

end NodeGraph

end DisksGraph
