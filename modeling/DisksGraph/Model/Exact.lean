import DisksGraph.Model.Rename
import DisksGraph.Model.Reorder

/-!
# Model — Exact

What `validate_structure`, `topological_order` and `ancestors` decide, in terms of the graph alone.

* `Sound`: what a valid graph is, with one field per rule of the source.
* `validateStructure_iff`: the check accepts the sound graphs.
* `topologicalOrder_iff`, `topologicalOrder_sorted`: when an order is found, and what it is.
* `structure_exact`: the check, the order and the search together.
-/

namespace DisksGraph

namespace Dependency

/-! ### What the edges of a target claim -/

/-- Both endpoints, the class of the kind and, for a cache, its role. -/
def logicalEdge (edge : Dependency) : NodeId × NodeId × DependencyClass × Option CacheRole :=
  (edge.source, edge.target, edge.kind.discriminant, edge.kind.cacheRole)

/-- The node a `Contains` edge owns. -/
def ownedNode (edge : Dependency) : Option NodeId :=
  match edge.kind with
  | .contains _ => some edge.target
  | _ => none

/-- The slot of an MD data member with a known slot. -/
def mdSlot (edge : Dependency) : Option (NodeId × Nat) :=
  match edge.kind with
  | .memberOf (.md ⟨.data, some slot, _⟩) => some (edge.target, slot)
  | _ => none

/-- The device identity of a Btrfs member with a known one. -/
def btrfsDevid (edge : Dependency) : Option (NodeId × NonZero 64) :=
  match edge.kind with
  | .memberOf (.btrfs ⟨some devid⟩) => some (edge.target, devid)
  | _ => none

/-- The role of a `Caches` edge. -/
def targetCacheRole (edge : Dependency) : Option (NodeId × CacheRole) :=
  match edge.kind with
  | .caches role => some (edge.target, role)
  | _ => none

section Claims

variable {edge other : Dependency}

theorem logicalEdge_mem_claims {source target : NodeId} {discriminant : DependencyClass}
    {role : Option CacheRole} :
    .logicalEdge source target discriminant role ∈ edge.claims ↔
      edge.logicalEdge = (source, target, discriminant, role) := by
  have hrole : EdgeClaim.logicalEdge source target discriminant role ∉ edge.roleClaim.toList := by
    unfold roleClaim
    split <;> simp
  rw [claims, List.mem_cons, or_iff_left hrole, logicalEdge]
  simp only [EdgeClaim.logicalEdge.injEq, Prod.mk.injEq, eq_comm]

/-- The claims of an edge: itself, and the role it fills. -/
theorem mem_claims {claim : EdgeClaim} :
    claim ∈ edge.claims ↔
      claim = .logicalEdge edge.source edge.target edge.kind.discriminant edge.kind.cacheRole ∨
        edge.roleClaim = some claim := by
  rw [claims, List.mem_cons, Option.mem_toList]

theorem owner_mem_claims {target : NodeId} :
    .owner target ∈ edge.claims ↔ edge.ownedNode = some target := by
  simp only [mem_claims, reduceCtorEq, false_or]
  unfold roleClaim ownedNode
  split <;> simp_all

theorem mdSlot_mem_claims {target : NodeId} {slot : Nat} :
    .mdSlot target slot ∈ edge.claims ↔ edge.mdSlot = some (target, slot) := by
  simp only [mem_claims, reduceCtorEq, false_or]
  unfold roleClaim mdSlot
  split <;> simp_all

theorem btrfsId_mem_claims {target : NodeId} {devid : NonZero 64} :
    .btrfsId target devid ∈ edge.claims ↔ edge.btrfsDevid = some (target, devid) := by
  simp only [mem_claims, reduceCtorEq, false_or]
  unfold roleClaim btrfsDevid
  split <;> simp_all

/-- An edge claims the cache role it fills. -/
theorem cacheRole_mem_claims {target : NodeId} {role : CacheRole} :
    .cacheRole target role ∈ edge.claims ↔ edge.targetCacheRole = some (target, role) := by
  simp only [mem_claims, reduceCtorEq, false_or]
  unfold roleClaim targetCacheRole
  split <;> simp_all

end Claims

end Dependency

namespace NodeGraph

/-- No two dependencies have the same key. -/
def Unique {κ : Type} (graph : NodeGraph) (key : Dependency → Option κ) : Prop :=
  ∀ edge ∈ graph.dependencies, ∀ other ∈ graph.dependencies, ∀ k,
    key edge = some k → key other = some k → edge = other

/-- The rules for a graph of storage nodes, which may be unhealthy or incomplete. -/
structure Sound (graph : NodeGraph) : Prop where
  relations : ∀ link ∈ graph.relations, graph.contains link.source = true ∧
    graph.contains link.target = true
  dependencies : ∀ edge ∈ graph.dependencies, graph.contains edge.source = true ∧
    graph.contains edge.target = true
  proper : ∀ edge ∈ graph.dependencies, edge.source ≠ edge.target
  acyclic : ∀ id, ¬Relation.TransGen graph.Edge id id
  owners : graph.Unique Dependency.ownedNode
  offsets : ∀ edge ∈ graph.dependencies, ∀ offset found, edge.kind = .contains offset →
    (graph.kindOf edge.target).bind NodeKind.partitionOffset = some found → offset = found
  mdSlots : graph.Unique Dependency.mdSlot
  btrfsDevids : graph.Unique Dependency.btrfsDevid
  cacheRoles : graph.Unique Dependency.targetCacheRole
  logicalEdges : graph.Unique fun edge => some edge.logicalEdge

section Exact

variable {graph : NodeGraph}

/-- Without dangling edges, no node depends on a cycle exactly when there is none. -/
theorem acc_iff_acyclic (h : ∀ edge ∈ graph.dependencies,
    graph.contains edge.source = true ∧ graph.contains edge.target = true) :
    (∀ id, graph.contains id = true → Acc graph.Edge id) ↔
      ∀ id, ¬Relation.TransGen graph.Edge id id := by
  rw [← @Support.acc_iff_acyclic NodeId graph.Edge (graph.nodeList.map (·.1))]
  · simp only [mem_ids]
  · rintro _ _ ⟨edge, hedge, rfl, -⟩
    exact mem_ids.mpr (h edge hedge).1
  · rintro _ _ ⟨edge, hedge, -, rfl⟩
    exact mem_ids.mpr (h edge hedge).2

/-- Two edges have a key together when they claim its entry together. -/
theorem Unique.of_claims {κ : Type} {key : Dependency → Option κ} {claim : κ → EdgeClaim}
    (hclaim : ∀ edge k, key edge = some k → claim k ∈ edge.claims)
    (h : ∀ edge ∈ graph.dependencies, ∀ other ∈ graph.dependencies, edge ≠ other →
      edge.Compatible other) : graph.Unique key := by
  intro edge hedge other hother k hkey hkey'
  by_contra hne
  exact h edge hedge other hother hne (claim k) (hclaim edge k hkey) (hclaim other k hkey')

/-- Edges that share no entry are those that agree on none of the five keys. -/
theorem pairwise_compatible_iff :
    graph.dependencies.Pairwise Dependency.Compatible ↔
      graph.Unique Dependency.ownedNode ∧ graph.Unique Dependency.mdSlot ∧
        graph.Unique Dependency.btrfsDevid ∧ graph.Unique Dependency.targetCacheRole ∧
        graph.Unique fun edge => some edge.logicalEdge := by
  have hpairwise : graph.dependencies.Pairwise Dependency.Compatible ↔
      ∀ edge ∈ graph.dependencies, ∀ other ∈ graph.dependencies, edge ≠ other →
        edge.Compatible other := by
    constructor
    · intro h edge hedge other hother hne
      exact h.forall hedge hother hne
    · intro h
      exact graph.nodup_dependencies.pairwise_of_forall_ne fun edge hedge other hother =>
        h edge hedge other hother
  rw [hpairwise]
  constructor
  · intro h
    exact ⟨.of_claims (fun _ _ => Dependency.owner_mem_claims.mpr) h,
      .of_claims (fun _ _ => Dependency.mdSlot_mem_claims.mpr) h,
      .of_claims (fun _ _ => Dependency.btrfsId_mem_claims.mpr) h,
      .of_claims (fun _ _ => Dependency.cacheRole_mem_claims.mpr) h,
      .of_claims (fun _ _ hkey => Dependency.logicalEdge_mem_claims.mpr (Option.some.inj hkey)) h⟩
  · rintro ⟨howners, hslots, hdevids, hroles, hedges⟩
    intro edge hedge other hother hne claim hclaim hclaim'
    refine hne ?_
    cases claim with
    | logicalEdge source target discriminant role =>
        exact hedges edge hedge other hother _
          (congrArg some (Dependency.logicalEdge_mem_claims.mp hclaim))
          (congrArg some (Dependency.logicalEdge_mem_claims.mp hclaim'))
    | owner target =>
        exact howners edge hedge other hother _ (Dependency.owner_mem_claims.mp hclaim)
          (Dependency.owner_mem_claims.mp hclaim')
    | mdSlot target slot =>
        exact hslots edge hedge other hother _ (Dependency.mdSlot_mem_claims.mp hclaim)
          (Dependency.mdSlot_mem_claims.mp hclaim')
    | btrfsId target devid =>
        exact hdevids edge hedge other hother _ (Dependency.btrfsId_mem_claims.mp hclaim)
          (Dependency.btrfsId_mem_claims.mp hclaim')
    | cacheRole target role =>
        exact hroles edge hedge other hother _ (Dependency.cacheRole_mem_claims.mp hclaim)
          (Dependency.cacheRole_mem_claims.mp hclaim')

/-- **The representation check accepts the sound graphs.** -/
theorem validateStructure_iff : graph.validateStructure = .ok () ↔ graph.Sound := by
  rw [validateStructure_eq_ok, pairwise_compatible_iff]
  constructor
  · rintro ⟨hrelations, hsound, ⟨howners, hslots, hdevids, hroles, hedges⟩, hacc⟩
    have hends := fun edge hedge => And.intro (hsound edge hedge).source (hsound edge hedge).target
    exact {
      relations := hrelations
      dependencies := hends
      proper := fun edge hedge => (hsound edge hedge).proper
      acyclic := (acc_iff_acyclic hends).mp hacc
      owners := howners
      offsets := fun edge hedge => offsetAgrees_iff.mp (hsound edge hedge).offset
      mdSlots := hslots
      btrfsDevids := hdevids
      cacheRoles := hroles
      logicalEdges := hedges }
  · intro h
    refine ⟨h.relations, fun edge hedge => ?_, ?_, (acc_iff_acyclic h.dependencies).mpr h.acyclic⟩
    · exact ⟨(h.dependencies edge hedge).1, (h.dependencies edge hedge).2, h.proper edge hedge,
        offsetAgrees_iff.mpr (h.offsets edge hedge)⟩
    · exact ⟨h.owners, h.mdSlots, h.btrfsDevids, h.cacheRoles, h.logicalEdges⟩

/-- An order is found when no dependency dangles, loops or lies on a cycle. -/
theorem topologicalOrder_iff :
    (∃ order, graph.topologicalOrder = .ok order) ↔
      (∀ edge ∈ graph.dependencies, graph.contains edge.source = true ∧
        graph.contains edge.target = true ∧ edge.source ≠ edge.target) ∧
      ∀ id, ¬Relation.TransGen graph.Edge id id := by
  rw [topologicalOrder_eq_ok]
  refine and_congr_right fun h => acc_iff_acyclic fun edge hedge => ?_
  exact ⟨(h edge hedge).1, (h edge hedge).2.1⟩

/-- What the queue of `topological_order` has yielded after at most `fuel` nodes. -/
def yielded (graph : NodeGraph) (fuel : Nat) : List NodeId :=
  Support.kahn graph.consumers fuel
    ((graph.nodeList.map (·.1)).filter fun id =>
      graph.dependencies.countP (fun edge => edge.target = id) = 0)
    (fun id => graph.dependencies.countP fun edge => edge.target = id) []

/-- The queue ends within one round for each node. -/
theorem yielded_stable (h : ∀ edge ∈ graph.dependencies,
    graph.contains edge.source = true ∧ graph.contains edge.target = true) {fuel : Nat}
    (hfuel : graph.nodeList.length ≤ fuel) :
    graph.yielded fuel = graph.yielded graph.nodeList.length := by
  refine (Support.Queue.init nodup_ids fun _ => rfl).kahn_stable count_consumers
    (fun edge hedge => mem_ids.mpr (h edge hedge).2) ?_ hfuel
  rw [List.length_map, List.length_nil, Nat.zero_add]

/-- The order that is found is what the queue yields, once it yields every node. -/
theorem eq_yielded_of_topologicalOrder {order : List NodeId}
    (h : graph.topologicalOrder = .ok order) :
    order = graph.yielded (graph.nodeList.map (·.1)).length ∧
      order.length = (graph.nodeList.map (·.1)).length := by
  unfold topologicalOrder at h
  obtain ⟨_, -, h⟩ := Support.except_bind_eq_ok.mp h
  dsimp only at h
  split at h
  · cases h
  · next hlength =>
    obtain rfl := Except.ok.inj h
    exact ⟨rfl, not_not.mp hlength⟩

/-- **The order that is found has every node once, each after what it depends on.** -/
theorem topologicalOrder_sorted {order : List NodeId} (h : graph.topologicalOrder = .ok order) :
    order.Perm (graph.nodeList.map (·.1)) ∧
      ∀ edge ∈ graph.dependencies, order.idxOf edge.source < order.idxOf edge.target := by
  obtain ⟨hedges, -⟩ := topologicalOrder_iff.mp ⟨order, h⟩
  obtain ⟨horder, hlength⟩ := eq_yielded_of_topologicalOrder h
  rw [yielded] at horder
  obtain ⟨hnodup, hmem⟩ :=
    mem_order (fun edge hedge => ⟨(hedges edge hedge).1, (hedges edge hedge).2.1⟩) horder
  have hperm : order.Perm (graph.nodeList.map (·.1)) :=
    (hnodup.subperm fun id hid => mem_ids.mpr ((hmem id).mp hid).1).perm_of_length_le hlength.ge
  refine ⟨hperm, fun edge hedge => ?_⟩
  have hsorted : Support.Sorted Dependency.source Dependency.target graph.dependencies order := by
    rw [horder]
    exact Support.kahn_sorted count_consumers
      (fun edge hedge => mem_ids.mpr (hedges edge hedge).2.1)
      nodup_ids (fun _ => rfl) _
  exact hsorted.idxOf_lt hnodup hedge
    (hperm.mem_iff.mpr (mem_ids.mpr (hedges edge hedge).2.1))

/-- **`structure_exact`** — the representation check accepts exactly the sound graphs, in whatever
order it meets their parts; an order is found exactly when no dependency dangles, loops or lies on a
cycle, and then has every node once with each dependency forward; the queue ends; the search for
ancestors ends on every graph, with the other nodes from which the node is reachable. -/
theorem structure_exact (graph : NodeGraph) :
    (graph.validateStructure = .ok () ↔ graph.Sound) ∧
      (∀ other, graph.Reorders other →
        (other.validateStructure = .ok () ↔ graph.validateStructure = .ok ())) ∧
      ((∃ order, graph.topologicalOrder = .ok order) ↔
        (∀ edge ∈ graph.dependencies, graph.contains edge.source = true ∧
          graph.contains edge.target = true ∧ edge.source ≠ edge.target) ∧
        ∀ id, ¬Relation.TransGen graph.Edge id id) ∧
      (∀ order, graph.topologicalOrder = .ok order →
        order.Perm (graph.nodeList.map (·.1)) ∧
          ∀ edge ∈ graph.dependencies, order.idxOf edge.source < order.idxOf edge.target) ∧
      ((∀ edge ∈ graph.dependencies, graph.contains edge.source = true ∧
          graph.contains edge.target = true) → ∀ fuel ≥ graph.nodeList.length,
        graph.yielded fuel = graph.yielded graph.nodeList.length) ∧
      ∀ id, ∃ visited,
        (∀ fuel ≥ 1 + graph.dependencies.length,
          Support.discoverLoop graph.backers fuel [id] [id] = some visited) ∧
        graph.ancestors id = visited.filter (· ≠ id) ∧
        ∀ a, a ∈ graph.ancestors id ↔ a ≠ id ∧ Relation.ReflTransGen graph.Edge a id := by
  refine ⟨validateStructure_iff, fun other => Reorders.validateStructure, topologicalOrder_iff,
    fun order => topologicalOrder_sorted, fun hends fuel hfuel => yielded_stable hends hfuel,
    fun id => ⟨_, fun fuel hfuel => ?_, rfl, fun a => ?_⟩⟩
  · exact Support.discoverLoop_eq_some graph.bounded_backers hfuel
  · exact mem_ancestors

end Exact

end NodeGraph

end DisksGraph
