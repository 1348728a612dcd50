import DisksGraph.Model.Graph
import DisksGraph.Support.Returns

/-!
# Model — Valid

What `validate_structure` accepts, said without its loop.

The loop over the dependencies keeps five sets of what it has seen.  Each edge claims at most a few
entries of them, its `claims`; the loop accepts exactly when every edge is sound by itself and no
entry is claimed twice.

* `foldlM_checkDependency`: the dependency loop.
* `validateStructure_eq_ok`: the whole check.
* `contains_unique`: in a valid graph no node has two owners.
-/

namespace DisksGraph

/-- An entry of one of the sets that `validate_structure` accumulates. -/
inductive EdgeClaim where
  | logicalEdge (source target : NodeId) (discriminant : DependencyClass)
      (cacheRole : Option CacheRole)
  | owner (target : NodeId)
  | mdSlot (target : NodeId) (slot : Nat)
  | btrfsId (target : NodeId) (devid : NonZero 64)
  | cacheRole (target : NodeId) (role : CacheRole)
deriving DecidableEq

namespace Dependency

/-- The entry an edge claims by its role. -/
def roleClaim (edge : Dependency) : Option EdgeClaim :=
  match edge.kind with
  | .contains _ => some (.owner edge.target)
  | .memberOf (.md ⟨.data, some slot, _⟩) => some (.mdSlot edge.target slot)
  | .memberOf (.btrfs ⟨some devid⟩) => some (.btrfsId edge.target devid)
  | .caches role => some (.cacheRole edge.target role)
  | _ => none

/-- The entries an edge claims. -/
def claims (edge : Dependency) : List EdgeClaim :=
  .logicalEdge edge.source edge.target edge.kind.discriminant edge.kind.cacheRole ::
    edge.roleClaim.toList

/-- Two edges that claim no entry together. -/
def Compatible (edge other : Dependency) : Prop := ∀ claim ∈ edge.claims, claim ∉ other.claims

instance : Std.Symm Compatible where
  symm _ _ h claim hclaim hclaim' := h claim hclaim' hclaim

end Dependency

namespace NodeGraph

/-- The offset of a `Contains` edge is the one the contained partition has. -/
def offsetAgrees (graph : NodeGraph) (edge : Dependency) : Bool :=
  match edge.kind, graph.kindOf edge.target with
  | .contains offset, some (.partition _ partitionOffset _ _) => offset == partitionOffset
  | _, _ => true

/-- An edge that is sound by itself. -/
structure EdgeSound (graph : NodeGraph) (edge : Dependency) : Prop where
  source : graph.contains edge.source = true
  target : graph.contains edge.target = true
  proper : edge.source ≠ edge.target
  offset : graph.offsetAgrees edge = true

/-- The accumulated sets hold the entry. -/
def Seen.Has (seen : Seen) : EdgeClaim → Prop
  | .logicalEdge source target discriminant role =>
      (source, target, discriminant, role) ∈ seen.logicalEdges
  | .owner target => target ∈ seen.owners
  | .mdSlot target slot => (target, slot) ∈ seen.mdSlots
  | .btrfsId target devid => (target, devid) ∈ seen.btrfsIds
  | .cacheRole target role => (target, role) ∈ seen.cacheRoles

/-- The sets with one more entry. -/
def Seen.take (seen : Seen) : EdgeClaim → Seen
  | .logicalEdge source target discriminant role =>
      { seen with logicalEdges := (source, target, discriminant, role) :: seen.logicalEdges }
  | .owner target => { seen with owners := target :: seen.owners }
  | .mdSlot target slot => { seen with mdSlots := (target, slot) :: seen.mdSlots }
  | .btrfsId target devid => { seen with btrfsIds := (target, devid) :: seen.btrfsIds }
  | .cacheRole target role => { seen with cacheRoles := (target, role) :: seen.cacheRoles }

section Loop

variable {graph : NodeGraph} {seen seen' : Seen} {edge : Dependency}

@[simp] theorem Seen.has_take {claim other : EdgeClaim} :
    (seen.take claim).Has other ↔ other = claim ∨ seen.Has other := by
  cases claim <;> cases other <;> simp [Seen.take, Seen.Has, Prod.ext_iff]

theorem Seen.has_empty {claim : EdgeClaim} : ¬({} : Seen).Has claim := by
  cases claim <;> simp [Seen.Has]

theorem requireEndpoints_eq_ok {source target : NodeId} :
    graph.requireEndpoints source target = .ok () ↔
      graph.contains source = true ∧ graph.contains target = true := by
  rw [requireEndpoints]
  cases graph.contains source <;> cases graph.contains target <;> simp

/-- A missing end is an error. -/
theorem requireEndpoints_fails {source target : NodeId}
    (h : ¬(graph.contains source = true ∧ graph.contains target = true)) :
    ∃ error, graph.requireEndpoints source target = .error error := by
  cases hresult : graph.requireEndpoints source target with
  | error error => exact ⟨error, rfl⟩
  | ok _ => exact absurd (requireEndpoints_eq_ok.mp hresult) h

/-- The role of an edge is accepted when its entry is free, and the entry is taken. -/
theorem checkRole_eq_ok :
    graph.checkRole seen edge = .ok seen' ↔
      graph.offsetAgrees edge = true ∧ (∀ claim ∈ edge.roleClaim.toList, ¬seen.Has claim) ∧
        seen' = edge.roleClaim.toList.foldl Seen.take seen := by
  have hfree : ∀ {p : Prop} [Decidable p] {error : GraphError} {taken : Seen},
      (if p then (.error error : Except GraphError Seen) else .ok taken) = .ok seen' ↔
        ¬p ∧ seen' = taken := by
    intro p _ error taken
    split
    · next hp => exact ⟨nofun, fun h => absurd hp h.1⟩
    · next hp => exact ⟨fun h => ⟨hp, (Except.ok.inj h).symm⟩, fun h => by rw [h.2]⟩
  have hnone : (.ok seen : Except GraphError Seen) = .ok seen' ↔ seen' = seen :=
    ⟨fun h => (Except.ok.inj h).symm, fun h => by rw [h]⟩
  obtain ⟨source, target, kind⟩ := edge
  unfold checkRole offsetAgrees Dependency.roleClaim
  cases kind with
  | contains offset =>
      dsimp only
      split
      · next howner => simp [Seen.Has, howner]
      · next howner =>
        split
        · next hkind =>
          rw [hfree, hkind]
          simp [Seen.Has, Seen.take, howner]
        · next hother =>
          have hagrees : (match DependencyKind.contains offset, graph.kindOf target with
              | .contains offset, some (.partition _ partitionOffset _ _) =>
                  offset == partitionOffset
              | _, _ => true) = true := by
            split
            · next hkind => exact absurd hkind (hother _ _ _ _)
            · rfl
          rw [hagrees]
          simp only [true_and, Option.toList_some, List.mem_singleton, forall_eq, Seen.Has, howner,
            not_false_eq_true, List.foldl_cons, List.foldl_nil]
          exact ⟨fun h => (Except.ok.inj h).symm, fun h => by rw [h]; rfl⟩
  | memberOf role =>
      cases role with
      | md member =>
          obtain ⟨role, slot, dataOffset⟩ := member
          cases role <;> cases slot <;>
            simp [Seen.Has, Seen.take, hfree, hnone]
      | btrfs member =>
          obtain ⟨devid⟩ := member
          cases devid <;> simp [Seen.Has, Seen.take, hfree, hnone]
      | lvmPv | zfs _ => simp [hnone]
  | caches role => simp [Seen.Has, Seen.take, hfree]
  | backs | provides | path => simp [hnone]

theorem checkDependency_eq_ok :
    graph.checkDependency seen edge = .ok seen' ↔
      graph.EdgeSound edge ∧ (∀ claim ∈ edge.claims, ¬seen.Has claim) ∧
        seen' = edge.claims.foldl Seen.take seen := by
  have hrole : ∀ {claim : EdgeClaim} {source target : NodeId} {discriminant : DependencyClass}
      {role : Option CacheRole}, claim ∈ edge.roleClaim.toList →
      ((seen.take (.logicalEdge source target discriminant role)).Has claim ↔ seen.Has claim) := by
    intro claim source target discriminant role hclaim
    rw [Seen.has_take, or_iff_right]
    rintro rfl
    unfold Dependency.roleClaim at hclaim
    split at hclaim <;> simp at hclaim
  rw [checkDependency, Support.except_bind_eq_ok]
  constructor
  · rintro ⟨⟨⟩, hendpoints, h⟩
    obtain ⟨hsource, htarget⟩ := requireEndpoints_eq_ok.mp hendpoints
    split at h
    · cases h
    · next hproper =>
      dsimp only at h
      split at h
      · cases h
      · next hlogical =>
        obtain ⟨hoffset, hfree, rfl⟩ := checkRole_eq_ok.mp h
        refine ⟨⟨hsource, htarget, hproper, hoffset⟩, ?_, rfl⟩
        rintro claim hclaim
        rcases List.mem_cons.mp hclaim with rfl | hclaim
        · exact hlogical
        · exact (hrole hclaim).not.mp (hfree claim hclaim)
  · rintro ⟨⟨hsource, htarget, hproper, hoffset⟩, hfree, rfl⟩
    refine ⟨(), requireEndpoints_eq_ok.mpr ⟨hsource, htarget⟩, ?_⟩
    have hlogical := hfree _ List.mem_cons_self
    rw [if_neg hproper]
    dsimp only
    rw [if_neg (show _ ∉ seen.logicalEdges from hlogical)]
    refine checkRole_eq_ok.mpr ⟨hoffset, fun claim hclaim => ?_, rfl⟩
    exact (hrole hclaim).not.mpr (hfree claim (List.mem_cons_of_mem _ hclaim))

/-- What the sets hold after an edge. -/
theorem Seen.has_foldl_take {claims : List EdgeClaim} {claim : EdgeClaim} :
    (claims.foldl Seen.take seen).Has claim ↔ claim ∈ claims ∨ seen.Has claim := by
  induction claims generalizing seen with
  | nil => simp
  | cons first rest ih => rw [List.foldl_cons, ih, Seen.has_take, List.mem_cons]; tauto

/-- The dependency loop accepts exactly the sound edges that claim every entry once. -/
theorem foldlM_checkDependency {edges : List Dependency} :
    (∃ seen', edges.foldlM graph.checkDependency seen = .ok seen') ↔
      (∀ edge ∈ edges, graph.EdgeSound edge) ∧
      edges.Pairwise Dependency.Compatible ∧
      ∀ edge ∈ edges, ∀ claim ∈ edge.claims, ¬seen.Has claim := by
  induction edges generalizing seen with
  | nil => simpa using ⟨seen, rfl⟩
  | cons edge rest ih =>
      simp only [List.foldlM_cons, Support.except_bind_eq_ok, checkDependency_eq_ok]
      constructor
      · rintro ⟨seen', _, ⟨hsound, hfree, rfl⟩, hrest⟩
        obtain ⟨hsounds, hpairs, hfrees⟩ := ih.mp ⟨seen', hrest⟩
        simp only [Seen.has_foldl_take, not_or] at hfrees
        refine ⟨?_, List.pairwise_cons.mpr ⟨?_, hpairs⟩, ?_⟩
        · exact List.forall_mem_cons.mpr ⟨hsound, hsounds⟩
        · exact fun other hother claim hclaim hshared =>
            (hfrees other hother claim hshared).1 hclaim
        · exact List.forall_mem_cons.mpr
            ⟨hfree, fun other hother claim hclaim => (hfrees other hother claim hclaim).2⟩
      · rintro ⟨hsounds, hpairs, hfrees⟩
        obtain ⟨hsound, hsounds⟩ := List.forall_mem_cons.mp hsounds
        obtain ⟨hdistinct, hpairs⟩ := List.pairwise_cons.mp hpairs
        obtain ⟨hfree, hfrees⟩ := List.forall_mem_cons.mp hfrees
        obtain ⟨seen', hrest⟩ := (@ih (edge.claims.foldl Seen.take seen)).mpr
          ⟨hsounds, hpairs, fun other hother claim hclaim => by
            rw [Seen.has_foldl_take, not_or]
            exact ⟨fun hshared => hdistinct other hother claim hshared hclaim,
              hfrees other hother claim hclaim⟩⟩
        exact ⟨seen', _, ⟨hsound, hfree, rfl⟩, hrest⟩

end Loop

section Valid

variable {graph : NodeGraph}

/-- A node is listed among the consumers of another once for each dependency between them. -/
theorem count_consumers (x y : NodeId) : (graph.consumers x).count y =
    graph.dependencies.countP fun edge => edge.source = x ∧ edge.target = y := by
  rw [consumers, List.count, List.countP_map, List.countP_filter]
  exact List.countP_congr fun edge _ => by simp [and_comm]

/-- The queue of `topological_order` yields the nodes that do not depend on a cycle. -/
theorem mem_order (h : ∀ edge ∈ graph.dependencies, graph.contains edge.source = true ∧
    graph.contains edge.target = true) {order : List NodeId}
    (horder : order = Support.kahn graph.consumers (graph.nodeList.map (·.1)).length
      ((graph.nodeList.map (·.1)).filter fun id =>
        graph.dependencies.countP (fun edge => edge.target = id) = 0)
      (fun id => graph.dependencies.countP fun edge => edge.target = id) []) :
    order.Nodup ∧ ∀ id, id ∈ order ↔ graph.contains id = true ∧ Acc graph.Edge id := by
  subst horder
  have hmem := @Support.mem_kahn _ _ _ _ Dependency.source Dependency.target graph.dependencies
    (graph.nodeList.map (·.1)) count_consumers (fun edge hedge => mem_ids.mpr (h edge hedge).1)
    (fun edge hedge => mem_ids.mpr (h edge hedge).2) nodup_ids _ fun _ => rfl
  refine ⟨hmem.1, fun id => ?_⟩
  rw [hmem.2, mem_ids]
  rfl

/-- `topological_order` succeeds exactly when no node depends on a cycle. -/
theorem topologicalOrder_eq_ok :
    (∃ order, graph.topologicalOrder = .ok order) ↔
      (∀ edge ∈ graph.dependencies, graph.contains edge.source = true ∧
        graph.contains edge.target = true ∧ edge.source ≠ edge.target) ∧
      ∀ id, graph.contains id = true → Acc graph.Edge id := by
  -- The queue yields the well-founded nodes once each: all of them, or fewer than the graph has.
  have hcomplete : ∀ {order : List NodeId}, order.Nodup →
      (∀ id, id ∈ order ↔ graph.contains id = true ∧ Acc graph.Edge id) →
      (order.length = (graph.nodeList.map (·.1)).length ↔
        ∀ id, graph.contains id = true → Acc graph.Edge id) := by
    intro order hnodup horder
    have hsubperm := hnodup.subperm fun id hid => mem_ids.mpr ((horder id).mp hid).1
    constructor
    · intro hlength id hid
      have hperm := hsubperm.perm_of_length_le hlength.ge
      exact ((horder id).mp (hperm.mem_iff.mpr (mem_ids.mpr hid))).2
    · intro hacc
      refine hsubperm.length_le.antisymm (nodup_ids.subperm fun id hid => ?_).length_le
      exact (horder id).mpr ⟨mem_ids.mp hid, hacc id (mem_ids.mp hid)⟩
  unfold topologicalOrder
  simp only [Support.except_bind_eq_ok]
  rw [exists_comm]
  simp only [exists_and_left]
  have hloop := @Support.except_forIn_eq_ok GraphError Dependency
    (fun edge => do
      graph.requireEndpoints edge.source edge.target
      if edge.source = edge.target then do
        throw (GraphError.selfDependency edge.source)
        pure (ForInStep.yield PUnit.unit)
      else pure (ForInStep.yield PUnit.unit))
    (fun edge => graph.contains edge.source = true ∧ graph.contains edge.target = true ∧
      edge.source ≠ edge.target) graph.dependencies
    (fun edge hedge => by
      rw [requireEndpoints_eq_ok.mpr ⟨hedge.1, hedge.2.1⟩, if_neg hedge.2.2]
      rfl)
    (fun edge hedge => by
      by_cases hends : graph.contains edge.source = true ∧ graph.contains edge.target = true
      · have hself : edge.source = edge.target := by
          by_contra hproper
          exact hedge ⟨hends.1, hends.2, hproper⟩
        rw [requireEndpoints_eq_ok.mpr hends, if_pos hself]
        exact ⟨_, rfl⟩
      · obtain ⟨error, herror⟩ := requireEndpoints_fails hends
        rw [herror]
        exact ⟨_, rfl⟩)
  generalize horder : Support.kahn graph.consumers _ _ _ [] = order
  constructor
  · rintro ⟨⟨⟩, hchecked, _, h⟩
    have hedges := hloop.mp hchecked
    obtain ⟨hnodup, hmem⟩ := mem_order (fun edge hedge =>
      ⟨(hedges edge hedge).1, (hedges edge hedge).2.1⟩) horder.symm
    split at h
    · cases h
    · next hlength => exact ⟨hedges, (hcomplete hnodup hmem).mp (not_not.mp hlength)⟩
  · rintro ⟨hedges, hacc⟩
    obtain ⟨hnodup, hmem⟩ := mem_order (fun edge hedge =>
      ⟨(hedges edge hedge).1, (hedges edge hedge).2.1⟩) horder.symm
    refine ⟨⟨⟩, hloop.mpr hedges, order, ?_⟩
    rw [if_neg (not_not.mpr ((hcomplete hnodup hmem).mpr hacc))]
    rfl

/-- **`validateStructure_eq_ok`** — what the representation check accepts, whatever the order in
which it meets the edges. -/
theorem validateStructure_eq_ok :
    graph.validateStructure = .ok () ↔
      (∀ link ∈ graph.relations, graph.contains link.source = true ∧
        graph.contains link.target = true) ∧
      (∀ edge ∈ graph.dependencies, graph.EdgeSound edge) ∧
      graph.dependencies.Pairwise Dependency.Compatible ∧
      ∀ id, graph.contains id = true → Acc graph.Edge id := by
  have hrelations := @Support.except_forIn_eq_ok GraphError Relation
    (fun link => do
      graph.requireEndpoints link.source link.target
      pure (ForInStep.yield PUnit.unit))
    (fun link => graph.contains link.source = true ∧ graph.contains link.target = true)
    graph.relations
    (fun link hlink => by
      rw [requireEndpoints_eq_ok.mpr hlink]
      rfl)
    (fun link hlink => by
      obtain ⟨error, herror⟩ := requireEndpoints_fails hlink
      rw [herror]
      exact ⟨_, rfl⟩)
  have hloop := @foldlM_checkDependency graph {} graph.dependencies
  unfold validateStructure
  simp only [Support.except_bind_eq_ok]
  constructor
  · rintro ⟨⟨⟩, hlinks, seen, hseen, order, horder, -⟩
    obtain ⟨hsound, hpairs, -⟩ := hloop.mp ⟨seen, hseen⟩
    exact ⟨hrelations.mp hlinks, hsound, hpairs, (topologicalOrder_eq_ok.mp ⟨order, horder⟩).2⟩
  · rintro ⟨hlinks, hsound, hpairs, hacc⟩
    obtain ⟨seen, hseen⟩ := hloop.mpr ⟨hsound, hpairs, fun _ _ _ _ => Seen.has_empty⟩
    obtain ⟨order, horder⟩ := topologicalOrder_eq_ok.mpr ⟨fun edge hedge =>
      ⟨(hsound edge hedge).source, (hsound edge hedge).target, (hsound edge hedge).proper⟩, hacc⟩
    exact ⟨⟨⟩, hrelations.mpr hlinks, seen, hseen, order, horder, rfl⟩

/-- A valid graph has sound edges that claim every entry once. -/
theorem dependencies_of_validateStructure (h : graph.validateStructure = .ok ()) :
    (∀ edge ∈ graph.dependencies, graph.EdgeSound edge) ∧
      graph.dependencies.Pairwise Dependency.Compatible :=
  ⟨(validateStructure_eq_ok.mp h).2.1, (validateStructure_eq_ok.mp h).2.2.1⟩

/-- In a valid graph no node has two owners. -/
theorem contains_unique (h : graph.validateStructure = .ok ()) {edge other : Dependency}
    (hedge : edge ∈ graph.dependencies) (hother : other ∈ graph.dependencies)
    (hcontains : edge.kind.isContains = true) (hcontains' : other.kind.isContains = true)
    (htarget : edge.target = other.target) : edge = other := by
  have howner : ∀ {edge : Dependency}, edge.kind.isContains = true →
      EdgeClaim.owner edge.target ∈ edge.claims := by
    intro edge hcontains
    cases hkind : edge.kind with
    | contains offset => simp [Dependency.claims, Dependency.roleClaim, hkind]
    | _ => rw [hkind] at hcontains; cases hcontains
  by_contra hne
  have hpairs := (dependencies_of_validateStructure h).2
  refine hpairs.forall hedge hother hne _ (howner hcontains) ?_
  rw [htarget]
  exact howner hcontains'

/-- In a valid graph two edges between the same nodes differ in their kind or cache role. -/
theorem logicalEdge_unique (h : graph.validateStructure = .ok ()) {edge other : Dependency}
    (hedge : edge ∈ graph.dependencies) (hother : other ∈ graph.dependencies)
    (hsource : edge.source = other.source) (htarget : edge.target = other.target)
    (hkind : edge.kind.discriminant = other.kind.discriminant)
    (hrole : edge.kind.cacheRole = other.kind.cacheRole) : edge = other := by
  by_contra hne
  have hpairs := (dependencies_of_validateStructure h).2
  refine hpairs.forall hedge hother hne _ List.mem_cons_self ?_
  rw [hsource, htarget, hkind, hrole]
  exact List.mem_cons_self

end Valid

end NodeGraph

end DisksGraph
