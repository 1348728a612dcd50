import DisksGraph.Engine.Invariant
import DisksGraph.Model.Valid

/-!
# Engine — Extents

The byte ranges of the partitions in a table, and what a projected action does to them.

A creation is validated against its neighbours.  A resize is not: its contract looks at the layers
above the partition only.

* `SoundUnder`: the partitions with known size under one table.
* `ResizeFits`: what the creation of the resized partition would have been checked for.
* `partition_tables_sound`: an action keeps every table sound exactly when a resize fits.
-/

namespace DisksGraph

open Support (foldlM_invariant)

/-! ### Sound tables -/

/-- A partition of known size. -/
structure Extent where
  number : NonZero 32
  offset : Bytes
  size : Bytes
deriving DecidableEq

/-- The first byte past the extent. -/
def Extent.end (extent : Extent) : Nat := extent.offset + extent.size

/-- The byte range and the number of a partition of known size. -/
def NodeSpec.extent : NodeSpec → Option Extent
  | ⟨.partition number offset _ _, some size⟩ => some ⟨number, offset, size⟩
  | _ => none

/-- The extent of a partition's node. -/
def extentOf (graph : NodeGraph) (partition : NodeId) : Option Extent :=
  (graph.node partition).bind fun value => value.kind.extent

/-- The table contains the node. -/
def ContainedIn (graph : NodeGraph) (table node : NodeId) : Prop :=
  ∃ edge ∈ graph.dependencies, edge.source = table ∧ edge.kind.isContains = true ∧
    edge.target = node

/-- The node is a partition table. -/
def IsTable (graph : NodeGraph) (table : NodeId) : Prop :=
  ∃ format, graph.kindOf table = some (.partitionTable format)

/-- The range is not empty and ends below `2^64` and within the capacity, where that is known. -/
def Extent.Within (extent : Extent) (capacity : Option Bytes) : Prop :=
  0 < extent.size ∧ extent.end < u64Bound ∧ ∀ bytes ∈ capacity, extent.end ≤ bytes

/-- The ranges do not overlap and have different numbers. -/
def Extent.Apart (extent other : Extent) : Prop :=
  extent.number ≠ other.number ∧ (extent.end ≤ other.offset ∨ other.end ≤ extent.offset)

theorem Extent.Apart.symm {extent other : Extent} (h : extent.Apart other) : other.Apart extent :=
  ⟨h.1.symm, h.2.symm⟩

/-- The partitions of known size under a node are sound within a capacity. -/
structure SoundUnder (graph : NodeGraph) (table : NodeId) (capacity : Option Bytes) : Prop where
  within : ∀ partition extent, ContainedIn graph table partition →
    extentOf graph partition = some extent → extent.Within capacity
  apart : ∀ partition other extent extent', ContainedIn graph table partition →
    ContainedIn graph table other → partition ≠ other → extentOf graph partition = some extent →
    extentOf graph other = some extent' → extent.Apart extent'

/-- Every partition table is sound within its known capacity. -/
def TablesSound (graph : NodeGraph) : Prop :=
  ∀ table, IsTable graph table → SoundUnder graph table (knownSize graph table)

/-- The new range would pass the checks that a creation makes: it is sound within its table and
apart from every other partition of known size. -/
def ResizeFits (graph : NodeGraph) (partition : NodeId) (newSize : Bytes) : Prop :=
  ∀ table number offset role attributes, partitionTable graph partition = some table →
    graph.kindOf partition = some (.partition number offset role attributes) →
    Extent.Within ⟨number, offset, newSize⟩ (knownSize graph table) ∧
    ∀ other extent, ContainedIn graph table other → other ≠ partition →
      extentOf graph other = some extent → Extent.Apart ⟨number, offset, newSize⟩ extent

/-- A resize fits, and a new table does not adopt unsound partitions by edges that were left behind
for its identity. -/
def KeepsTables (graph : NodeGraph) : ProviderAction → Prop
  | .partition (.resize partition newSize) => ResizeFits graph partition newSize
  | .partition (.createTable disk plannedNodeId _) =>
      SoundUnder graph plannedNodeId (knownSize graph disk)
  | _ => True

/-! ### Changes that add no extent -/

/-- No table, no containment and no extent is new, and the tables keep their capacity. -/
structure AddsNoExtent (graph next : NodeGraph) : Prop where
  tables : ∀ table, IsTable next table →
    IsTable graph table ∧ knownSize next table = knownSize graph table
  contained : ∀ table node, ContainedIn next table node → ContainedIn graph table node
  extents : ∀ node extent, extentOf next node = some extent → extentOf graph node = some extent

theorem AddsNoExtent.refl (graph : NodeGraph) : AddsNoExtent graph graph :=
  ⟨fun _ h => ⟨h, rfl⟩, fun _ _ h => h, fun _ _ h => h⟩

theorem AddsNoExtent.trans {graph next last : NodeGraph} (h : AddsNoExtent graph next)
    (h' : AddsNoExtent next last) : AddsNoExtent graph last where
  tables table htable := by
    obtain ⟨hnext, hsize⟩ := h'.tables table htable
    obtain ⟨hgraph, hsize'⟩ := h.tables table hnext
    exact ⟨hgraph, hsize.trans hsize'⟩
  contained table node hnode := h.contained table node (h'.contained table node hnode)
  extents node extent hextent := h.extents node extent (h'.extents node extent hextent)

/-- A change that adds no extent keeps the tables sound. -/
theorem AddsNoExtent.sound {graph next : NodeGraph} (h : AddsNoExtent graph next)
    (hsound : TablesSound graph) : TablesSound next := by
  intro table htable
  obtain ⟨htable, hsize⟩ := h.tables table htable
  obtain ⟨hwithin, hapart⟩ := hsound table htable
  rw [hsize]
  refine ⟨fun partition extent hcontained hextent => ?_, ?_⟩
  · exact hwithin partition extent (h.contained table partition hcontained)
      (h.extents partition extent hextent)
  · intro partition other extent extent' hcontained hcontained' hne hextent hextent'
    exact hapart partition other extent extent' (h.contained table partition hcontained)
      (h.contained table other hcontained') hne (h.extents partition extent hextent)
      (h.extents other extent' hextent')

section Lookup

variable {graph : NodeGraph} {id node table : NodeId} {value : Node}

theorem isTable_setNode_ne (h : table ≠ id) :
    IsTable (graph.setNode id value) table ↔ IsTable graph table := by
  rw [IsTable, IsTable, NodeGraph.kindOf, NodeGraph.kindOf, NodeGraph.node_setNode_ne h]

theorem knownSize_setNode_ne (h : table ≠ id) :
    knownSize (graph.setNode id value) table = knownSize graph table := by
  rw [knownSize, knownSize, NodeGraph.node_setNode_ne h]

theorem extentOf_setNode_ne (h : node ≠ id) :
    extentOf (graph.setNode id value) node = extentOf graph node := by
  rw [extentOf, extentOf, NodeGraph.node_setNode_ne h]

/-- A new value that is a table or has an extent only as the old one did. -/
theorem addsNoExtent_setNode
    (htable : ∀ format, value.kind.kind = .partitionTable format →
      IsTable graph id ∧ value.kind.size = knownSize graph id)
    (hextent : ∀ extent, value.kind.extent = some extent → extentOf graph id = some extent) :
    AddsNoExtent graph (graph.setNode id value) where
  tables table h := by
    by_cases hid : table = id
    · subst hid
      obtain ⟨format, hkind⟩ := h
      rw [NodeGraph.kindOf, NodeGraph.node_setNode_self] at hkind
      rw [knownSize, NodeGraph.node_setNode_self]
      exact htable format (Option.some.inj hkind)
    · exact ⟨(isTable_setNode_ne hid).mp h, knownSize_setNode_ne hid⟩
  contained _ _ h := h
  extents node extent h := by
    by_cases hid : node = id
    · subst hid
      rw [extentOf, NodeGraph.node_setNode_self] at h
      exact hextent extent h
    · rwa [extentOf_setNode_ne hid] at h

/-- A specification that is neither a table nor a partition of known size. -/
def NodeSpec.Neutral (spec : NodeSpec) : Prop :=
  (∀ format, spec.kind ≠ .partitionTable format) ∧ spec.extent = none

/-- Storing a node that is neither table nor partition adds no extent. -/
theorem addsNoExtent_neutral (h : value.kind.Neutral) :
    AddsNoExtent graph (graph.setNode id value) := by
  refine addsNoExtent_setNode (fun format hkind => absurd hkind (h.1 format)) ?_
  intro extent hextent
  rw [h.2] at hextent
  cases hextent

/-- Removing a node adds no extent. -/
theorem addsNoExtent_removeNode : AddsNoExtent graph (graph.removeNode id) where
  tables table htable := by
    by_cases hid : table = id
    · subst hid
      obtain ⟨format, hkind⟩ := htable
      rw [NodeGraph.kindOf, NodeGraph.node_removeNode_self] at hkind
      cases hkind
    · rw [IsTable, NodeGraph.kindOf, NodeGraph.node_removeNode_ne hid] at htable
      rw [knownSize, NodeGraph.node_removeNode_ne hid]
      exact ⟨htable, rfl⟩
  contained _ _ h := h
  extents node extent hextent := by
    by_cases hid : node = id
    · subst hid
      rw [extentOf, NodeGraph.node_removeNode_self] at hextent
      cases hextent
    · rwa [extentOf, NodeGraph.node_removeNode_ne hid] at hextent

/-- What a table contains after one more edge. -/
theorem containedIn_insertDependency {dependency : Dependency} :
    ContainedIn (graph.insertDependency dependency) table node ↔
      (dependency.source = table ∧ dependency.kind.isContains = true ∧ dependency.target = node) ∨
        ContainedIn graph table node := by
  simp only [ContainedIn, NodeGraph.mem_insertDependency, or_and_right, exists_or,
    exists_eq_left]

theorem extentOf_insertDependency {dependency : Dependency} :
    extentOf (graph.insertDependency dependency) node = extentOf graph node := rfl

/-- Soundness depends on the containments and the extents only. -/
theorem soundUnder_congr {next : NodeGraph} {capacity : Option Bytes}
    (hcontained : ∀ node, ContainedIn next table node ↔ ContainedIn graph table node)
    (hextent : ∀ node, extentOf next node = extentOf graph node) :
    SoundUnder next table capacity ↔ SoundUnder graph table capacity := by
  constructor
  · rintro ⟨hwithin, hapart⟩
    simp only [hcontained, hextent] at hwithin hapart
    exact ⟨hwithin, hapart⟩
  · rintro ⟨hwithin, hapart⟩
    simp only [← hcontained, ← hextent] at hwithin hapart
    exact ⟨hwithin, hapart⟩

/-- One extent is new, and it fits next to the others. -/
theorem soundUnder_place {next : NodeGraph} {capacity : Option Bytes} {extent : Extent}
    (hsound : SoundUnder graph table capacity)
    (hcontained : ∀ other, other ≠ node → ContainedIn next table other →
      ContainedIn graph table other)
    (hextents : ∀ other, other ≠ node → extentOf next other = extentOf graph other)
    (hextent : extentOf next node = some extent)
    (hfits : ContainedIn next table node → extent.Within capacity ∧
      ∀ other extent', ContainedIn graph table other → other ≠ node →
        extentOf graph other = some extent' → extent.Apart extent') :
    SoundUnder next table capacity := by
  constructor
  · intro partition found hin hfound
    by_cases hid : partition = node
    · subst hid
      rw [hextent] at hfound
      obtain rfl := Option.some.inj hfound
      exact (hfits hin).1
    · rw [hextents partition hid] at hfound
      exact hsound.within partition found (hcontained partition hid hin) hfound
  · intro partition other found found' hin hin' hne hfound hfound'
    by_cases hid : partition = node
    · subst hid
      rw [hextent] at hfound
      obtain rfl := Option.some.inj hfound
      rw [hextents other hne.symm] at hfound'
      exact (hfits hin).2 other found' (hcontained other hne.symm hin') hne.symm hfound'
    · rw [hextents partition hid] at hfound
      by_cases hid' : other = node
      · subst hid'
        rw [hextent] at hfound'
        obtain rfl := Option.some.inj hfound'
        exact ((hfits hin').2 partition found (hcontained partition hid hin) hid hfound).symm
      · rw [hextents other hid'] at hfound'
        exact hsound.apart partition other found found' (hcontained partition hid hin)
          (hcontained other hid' hin') hne hfound hfound'

/-- An edge that contains nothing adds no extent. -/
theorem addsNoExtent_insertDependency {dependency : Dependency}
    (h : dependency.kind.isContains = false) :
    AddsNoExtent graph (graph.insertDependency dependency) where
  tables _ htable := ⟨htable, rfl⟩
  contained := by
    rintro table node ⟨edge, hedge, hsource, hcontains, htarget⟩
    rcases NodeGraph.mem_insertDependency.mp hedge with rfl | hedge
    · rw [h] at hcontains
      cases hcontains
    · exact ⟨edge, hedge, hsource, hcontains, htarget⟩
  extents _ _ hextent := hextent

/-- Removing an edge adds no extent. -/
theorem addsNoExtent_removeDependency {dependency : Dependency} :
    AddsNoExtent graph (graph.removeDependency dependency) where
  tables _ htable := ⟨htable, rfl⟩
  contained := by
    rintro table node ⟨edge, hedge, h⟩
    exact ⟨edge, (NodeGraph.mem_removeDependency.mp hedge).2, h⟩
  extents _ _ hextent := hextent

end Lookup

/-! ### Effects that add no extent -/

/-- An effect that adds no table, no containment and no extent, whatever the state. -/
def GraphEffect.Harmless : GraphEffect → Prop
  | .insertNode _ spec => spec.Neutral
  | .insertDependency dependency => dependency.kind.isContains = false
  | .setNodeSize .. | .invalidateNodeSize _ => False
  | _ => True

section Effects

variable {projection projection' : Projection} {effect : GraphEffect}

/-- A harmless change of a node adds no extent. -/
theorem applyGraphEffect_update_harmless {id : NodeId}
    (h : projection.applyGraphEffect effect = .ok projection')
    (hid : Projection.updatedNode effect = some id) (hharmless : effect.Harmless) :
    AddsNoExtent projection.graph projection'.graph := by
  cases effect with
  | setPartitionAttributes partition attributes =>
      obtain ⟨old, value, hold, hvalue, hgraph⟩ := Projection.applyGraphEffect_update h rfl
      obtain ⟨⟨kind, size⟩, facts⟩ := old
      rw [hgraph]
      unfold Projection.setAttributes at hvalue
      split at hvalue
      · next hkind =>
        cases hkind
        cases hvalue
        refine addsNoExtent_setNode (fun format hkind => nomatch hkind) fun extent hextent => ?_
        rw [extentOf, hold]
        cases size <;> exact hextent
      · cases hvalue
  | setFilesystemLabel filesystem label =>
      obtain ⟨old, value, -, hvalue, hgraph⟩ := Projection.applyGraphEffect_update h rfl
      rw [hgraph]
      unfold Projection.setLabel at hvalue
      split at hvalue
      · cases hvalue
        exact addsNoExtent_neutral ⟨by simp, rfl⟩
      · cases hvalue
  | setBtrfsAllocation filesystem allocation =>
      obtain ⟨old, value, -, hvalue, hgraph⟩ := Projection.applyGraphEffect_update h rfl
      rw [hgraph]
      unfold Projection.setAllocation at hvalue
      split at hvalue
      · cases hvalue
        exact addsNoExtent_neutral ⟨by simp, rfl⟩
      · cases hvalue
  | setNodeSize | invalidateNodeSize => exact hharmless.elim
  | _ => cases hid

/-- A harmless effect adds no extent. -/
theorem applyGraphEffect_harmless (h : projection.applyGraphEffect effect = .ok projection')
    (hharmless : effect.Harmless) : AddsNoExtent projection.graph projection'.graph := by
  cases Projection.applyGraphEffect_step h with
  | insertNode _ => exact addsNoExtent_neutral hharmless
  | removeNode _ => exact addsNoExtent_removeNode
  | update hid => exact applyGraphEffect_update_harmless h hid hharmless
  | insertDependency => exact addsNoExtent_insertDependency hharmless
  | removeDependency _ => exact addsNoExtent_removeDependency
  | insertRelation => exact ⟨fun _ h => ⟨h, rfl⟩, fun _ _ h => h, fun _ _ h => h⟩
  | removeRelation _ => exact ⟨fun _ h => ⟨h, rfl⟩, fun _ _ h => h, fun _ _ h => h⟩
  | setActivation _ => exact .refl _

/-- Harmless effects in a row add no extent. -/
theorem foldlM_harmless {effects : List GraphEffect}
    (h : effects.foldlM Projection.applyGraphEffect projection = .ok projection')
    (hharmless : ∀ effect ∈ effects, effect.Harmless) :
    AddsNoExtent projection.graph projection'.graph := by
  refine foldlM_invariant (P := fun next => AddsNoExtent projection.graph next.graph) (.refl _)
    (fun effect heffect next next' hnext hstep => ?_) h
  exact hnext.trans (applyGraphEffect_harmless hstep (hharmless effect heffect))

end Effects

/-- Creating a node that is no partition is harmless. -/
theorem harmless_creation {id : NodeId} {spec : NodeSpec} {edges : List Dependency}
    (hspec : spec.Neutral) (hedges : ∀ edge ∈ edges, edge.kind.isContains = false) :
    ∀ effect ∈ creation id spec edges, effect.Harmless := by
  intro effect heffect
  rcases List.mem_cons.mp heffect with rfl | heffect
  · exact hspec
  · obtain ⟨edge, hedge, rfl⟩ := List.mem_map.mp heffect
    exact hedges edge hedge

/-- Removing a node is harmless. -/
theorem harmless_removal {graph : NodeGraph} {node : NodeId} :
    ∀ effect ∈ removal graph node, effect.Harmless := by
  intro effect heffect
  rcases List.mem_cons.mp heffect with rfl | heffect
  · trivial
  · obtain ⟨edge, -, rfl⟩ := List.mem_map.mp heffect
    trivial

/-! ### What a creation is checked for -/

section Create

variable {graph : NodeGraph} {table : NodeId} {number : NonZero 32} {offset size «end» : Bytes}

theorem checkedAdd_eq_some {a b c : Nat} : checkedAdd a b = some c ↔
    a + b < u64Bound ∧ c = a + b := by
  rw [checkedAdd]
  split
  · next h => simp [h, eq_comm]
  · next h => simp [h]

/-- A scan without a finding has met no duplicate number and no overlap. -/
theorem scanPartitions_eq_nil {edges : List Dependency} {overlaps : Bool}
    (h : scanPartitions graph table number offset «end» edges overlaps = []) :
    overlaps = false ∧ ∀ edge ∈ edges, ∀ extent, extentOf graph edge.target = some extent →
      number ≠ extent.number ∧ («end» ≤ extent.offset ∨ extent.end ≤ offset) := by
  induction edges generalizing overlaps with
  | nil =>
      cases overlaps with
      | false => exact ⟨rfl, nofun⟩
      | true => cases h
  | cons edge rest ih =>
      -- An edge to something else than a partition has no extent.
      have hskip : extentOf graph edge.target = none →
          scanPartitions graph table number offset «end» rest overlaps = [] →
          overlaps = false ∧ ∀ edge' ∈ edge :: rest, ∀ extent,
            extentOf graph edge'.target = some extent →
              number ≠ extent.number ∧ («end» ≤ extent.offset ∨ extent.end ≤ offset) := by
        intro hnone hrest
        obtain ⟨hoverlaps, hall⟩ := ih hrest
        refine ⟨hoverlaps, List.forall_mem_cons.mpr ⟨fun extent hextent => ?_, hall⟩⟩
        rw [hnone] at hextent
        cases hextent
      rw [scanPartitions] at h
      split at h
      · next hnode => exact hskip (by rw [extentOf, hnode]; rfl) h
      · next node hnode =>
        obtain ⟨⟨kind, nodeSize⟩, facts⟩ := node
        dsimp only at h
        split at h
        · next occupiedNumber occupiedOffset role attributes =>
          split at h
          · cases h
          · next hnumber =>
            obtain ⟨hoverlaps, hall⟩ := ih h
            obtain ⟨hoverlaps, hoverlap⟩ := Bool.or_eq_false_iff.mp hoverlaps
            refine ⟨hoverlaps, List.forall_mem_cons.mpr ⟨fun extent hextent => ?_, hall⟩⟩
            rw [extentOf, hnode] at hextent
            cases nodeSize with
            | none => cases hextent
            | some occupiedSize =>
                obtain rfl := Option.some.inj hextent
                refine ⟨hnumber, ?_⟩
                dsimp only at hoverlap
                cases hend : checkedAdd occupiedOffset occupiedSize with
                | none => rw [hend] at hoverlap; cases hoverlap
                | some occupiedEnd =>
                    obtain ⟨-, rfl⟩ := checkedAdd_eq_some.mp hend
                    rw [hend] at hoverlap
                    simp only [Option.all_some, Bool.and_eq_false_iff, decide_eq_false_iff_not,
                      Nat.not_lt] at hoverlap
                    exact hoverlap.symm
        · next hkind =>
          refine hskip ?_ h
          rw [extentOf, hnode]
          cases kind with
          | partition number offset role attributes => exact absurd rfl (hkind _ _ _ _)
          | _ => rfl

/-- Every finding of a creation is an error. -/
theorem severity_validatePartitionCreate :
    ∀ diagnostic ∈ validatePartitionCreate graph table number offset size,
      diagnostic.severity = .error := by
  have hscan : ∀ (edges : List Dependency) (overlaps : Bool) («end» : Bytes),
      ∀ diagnostic ∈ scanPartitions graph table number offset «end» edges overlaps,
        diagnostic.severity = .error := by
    intro edges overlaps «end»
    fun_induction scanPartitions graph table number offset «end» edges overlaps with
    | case1 => simp [actionDiagnostic]
    | case2 => simp
    | case4 => simp [actionDiagnostic]
    | case3 _ _ _ _ ih => exact ih
    | case5 _ _ _ _ _ _ _ _ _ _ _ _ ih => exact ih
    | case6 _ _ _ _ _ _ ih => exact ih
  rw [validatePartitionCreate]
  split
  · simp [actionDiagnostic]
  · split
    · simp [actionDiagnostic]
    · exact hscan _ _ _

/-- An accepted creation is sound within its table and apart from its neighbours. -/
theorem validatePartitionCreate_eq_nil
    (h : validatePartitionCreate graph table number offset size = []) :
    Extent.Within ⟨number, offset, size⟩ (knownSize graph table) ∧
      ∀ other extent, ContainedIn graph table other → extentOf graph other = some extent →
        Extent.Apart ⟨number, offset, size⟩ extent := by
  rw [validatePartitionCreate] at h
  split at h
  · cases h
  · next stop hstop =>
    obtain ⟨hbound, rfl⟩ := checkedAdd_eq_some.mp hstop
    split at h
    · cases h
    · next hfits =>
      obtain ⟨-, hscan⟩ := scanPartitions_eq_nil h
      simp only [Bool.or_eq_true, decide_eq_true_eq, Option.any_eq_true, not_or, not_exists,
        not_and, Nat.not_lt, gt_iff_lt] at hfits
      refine ⟨⟨Nat.pos_of_ne_zero hfits.1, hbound, hfits.2⟩, ?_⟩
      rintro other extent ⟨edge, hedge, hsource, hcontains, rfl⟩ hextent
      refine hscan edge (List.mem_filter.mpr ⟨hedge, ?_⟩) extent hextent
      rw [hsource, hcontains, beq_self_eq_true, Bool.and_self]

end Create

/-! ### Actions -/

/-- The action changes the extents of a table by what it is for. -/
def ProviderAction.placesExtent : ProviderAction → Bool
  | .partition (.createTable ..) | .partition (.create ..) => true
  | _ => false

/-- An action that places and resizes nothing is harmless. -/
theorem graphChanges_harmless {action : ProviderAction} {graph : NodeGraph}
    (hplaces : action.placesExtent = false) (hresized : action.resized = none) :
    ∀ effect ∈ action.graphChanges graph, effect.Harmless := by
  have hsingle : ∀ {effect : GraphEffect}, effect.Harmless →
      ∀ other ∈ [effect], other.Harmless := by
    intro effect heffect other hother
    rwa [List.mem_singleton.mp hother]
  have hnone : ∀ effect ∈ ([] : List GraphEffect), effect.Harmless :=
    fun _ heffect => absurd heffect List.not_mem_nil
  cases action with
  | partition action =>
      cases action with
      | createTable | create => cases hplaces
      | resize => cases hresized
      | delete partition => exact harmless_removal
      | setAttributes partition attributes => exact hsingle trivial
  | luks action =>
      cases action with
      | format | «open» =>
          exact harmless_creation ⟨by simp, rfl⟩ (by simp [DependencyKind.isContains])
      | close mapping => exact harmless_removal
      | resize => cases hresized
  | lvm action =>
      cases action with
      | createPv | createVg | createLv =>
          exact harmless_creation ⟨by simp, rfl⟩ (by simp [DependencyKind.isContains])
      | resizeLv => cases hresized
      | removeLv lv => exact harmless_removal
      | setActivation target active => exact hsingle trivial
  | filesystem action =>
      cases action with
      | create => exact harmless_creation ⟨by simp, rfl⟩ (by simp [DependencyKind.isContains])
      | resize => cases hresized
      | check | repair => exact hnone
      | setLabel => exact hsingle trivial
  | btrfs action =>
      cases action with
      | create | createSubvolume =>
          exact harmless_creation ⟨by simp, rfl⟩
            (by simp [DependencyKind.isContains, btrfsMembership])
      | addDevice => exact hsingle rfl
      | removeDevice => exact hsingle trivial
      | convertProfiles => exact hsingle trivial
  | mount action => exact hnone

/-- A resize has one effect, the new size of its node. -/
theorem graphChanges_resized {action : ProviderAction} {graph : NodeGraph} {node : NodeId}
    {expected : NodeKindClass} (h : action.resized = some (node, expected)) :
    ∃ effect size, action.graphChanges graph = [effect] ∧
      Projection.nodeUpdate effect = some (node, Projection.setSize size) := by
  unfold ProviderAction.resized at h
  split at h
  · cases h; exact ⟨_, _, rfl, rfl⟩
  · next mapping size =>
    cases h
    cases size <;> exact ⟨_, _, rfl, rfl⟩
  · cases h; exact ⟨_, _, rfl, rfl⟩
  · cases h; exact ⟨_, _, rfl, rfl⟩
  · cases h

section Actions

variable {projection next : Projection} {action : ProviderAction} {result : SimulatedAction}

theorem mountChanges_of_resized {node : NodeId} {expected : NodeKindClass}
    (h : action.resized = some (node, expected)) : action.mountChanges = [] := by
  cases action <;> first | rfl | cases h

/-- A resize replaces the size of its node, which has the kind that its contract requires. -/
theorem simulateAction_resized {node : NodeId} {expected : NodeKindClass}
    (h : simulateAction projection action = .ok (result, next))
    (hresized : action.resized = some (node, expected)) :
    ∃ old size, projection.graph.node node = some old ∧
      matchesKind old.kind.kind expected = true ∧
      (∃ effect, action.graphChanges projection.graph = [effect] ∧
        Projection.nodeUpdate effect = some (node, Projection.setSize size)) ∧
      next.graph = projection.graph.setNode node { old with kind := { old.kind with size } } := by
  obtain ⟨-, start, changed, hstart, hnext, hchanged⟩ :=
    simulateAction_graph h (mountChanges_of_resized hresized)
  obtain ⟨effect, size, heffects, hupdate⟩ := @graphChanges_resized _ projection.graph _ _ hresized
  rw [heffects] at hchanged
  obtain ⟨once, honce, hrest⟩ := Support.except_bind_eq_ok.mp hchanged
  obtain rfl := Except.ok.inj hrest
  obtain ⟨old, value, hold, hvalue, hgraph⟩ := Projection.applyGraphEffect_update honce hupdate
  obtain rfl := Option.some.inj hvalue
  have hstart' : start.graph = projection.graph := congrArg DesiredState.graph hstart
  obtain ⟨kind, hkind, hmatches⟩ :=
    kind_of_nodeKind (simulateAction_requires h (describeAction_resized hresized))
  rw [hstart'] at hold hgraph
  rw [NodeGraph.kindOf, show projection.desired.graph.node node = some old from hold] at hkind
  obtain rfl := Option.some.inj hkind
  refine ⟨old, size, hold, hmatches, ⟨effect, heffects, hupdate⟩, ?_⟩
  rw [Projection.graph, hnext]
  exact hgraph

/-- Only the resize of a partition changes an extent. -/
theorem addsNoExtent_of_resized {node : NodeId} {expected : NodeKindClass}
    (h : simulateAction projection action = .ok (result, next))
    (hresized : action.resized = some (node, expected)) (hne : expected ≠ .partition) :
    AddsNoExtent projection.graph next.graph := by
  obtain ⟨⟨⟨kind, _⟩, facts⟩, size, -, hmatches, -, hgraph⟩ := simulateAction_resized h hresized
  have hexpected : expected = .dmCryptMapping ∨ expected = .lvmLv ∨ expected = .filesystem := by
    unfold ProviderAction.resized at hresized
    split at hresized <;> cases hresized <;> simp at hne ⊢
  rw [hgraph]
  refine addsNoExtent_neutral ⟨?_, ?_⟩
  · rintro format rfl
    rcases hexpected with rfl | rfl | rfl <;> cases hmatches
  · rcases hexpected with rfl | rfl | rfl <;> cases kind <;> first | rfl | cases hmatches

/-- A creation with one edge. -/
theorem simulateAction_creation {id : NodeId} {spec : NodeSpec} {edge : Dependency}
    (h : simulateAction projection action = .ok (result, next)) (hmounts : action.mountChanges = [])
    (hchanges : action.graphChanges projection.graph = creation id spec [edge]) :
    projection.graph.node id = none ∧
      next.graph = (projection.graph.setNode id ⟨spec, {}⟩).insertDependency edge := by
  obtain ⟨-, start, changed, hstart, hnext, hchanged⟩ := simulateAction_graph h hmounts
  have hstart' : start.graph = projection.graph := congrArg DesiredState.graph hstart
  rw [hchanges] at hchanged
  obtain ⟨inserted, hinserted, hrest⟩ := Support.except_bind_eq_ok.mp hchanged
  obtain ⟨linked, hlinked, hrest⟩ := Support.except_bind_eq_ok.mp hrest
  obtain rfl := Except.ok.inj hrest
  have hnode : start.graph.node id = none ∧ inserted.graph = start.graph.setNode id ⟨spec, {}⟩ := by
    cases Projection.applyGraphEffect_step hinserted with
    | insertNode hcontains =>
        rw [NodeGraph.contains, Option.isSome_eq_false_iff, Option.isNone_iff_eq_none] at hcontains
        exact ⟨hcontains, rfl⟩
    | update hid => cases hid
  have hlink : linked.graph = inserted.graph.insertDependency edge := by
    cases Projection.applyGraphEffect_step hlinked with
    | insertDependency => rfl
    | update hid => cases hid
  rw [hstart'] at hnode
  refine ⟨hnode.1, ?_⟩
  rw [← hnode.2, ← hlink]
  exact congrArg DesiredState.graph hnext

/-- A new table has the partitions that hang below its identity, and no other table changes. -/
theorem tablesSound_createTable {disk plannedNodeId : NodeId} {format : PartitionTable}
    (hsound : TablesSound projection.graph)
    (h : simulateAction projection (.partition (.createTable disk plannedNodeId format)) =
      .ok (result, next)) :
    TablesSound next.graph ↔
      SoundUnder projection.graph plannedNodeId (knownSize projection.graph disk) := by
  obtain ⟨habsent, hgraph⟩ := simulateAction_creation h rfl rfl
  have hcontained : ∀ table partition, ContainedIn next.graph table partition ↔
      ContainedIn projection.graph table partition := by
    intro table partition
    rw [hgraph, containedIn_insertDependency]
    simp [ContainedIn, DependencyKind.isContains]
  have hextent : ∀ partition, extentOf next.graph partition =
      extentOf projection.graph partition := by
    intro partition
    rw [hgraph, extentOf_insertDependency]
    by_cases hid : partition = plannedNodeId
    · subst hid
      rw [extentOf, extentOf, NodeGraph.node_setNode_self, habsent]
      rfl
    · exact extentOf_setNode_ne hid
  have hsize : knownSize next.graph plannedNodeId = knownSize projection.graph disk := by
    rw [hgraph, knownSize, NodeGraph.node_insertDependency, NodeGraph.node_setNode_self]
    rfl
  constructor
  · intro hnext
    have htable : IsTable next.graph plannedNodeId := by
      refine ⟨format, ?_⟩
      rw [hgraph, NodeGraph.kindOf, NodeGraph.node_insertDependency, NodeGraph.node_setNode_self]
      rfl
    have hunder := hnext plannedNodeId htable
    rwa [soundUnder_congr (hcontained plannedNodeId) hextent, hsize] at hunder
  · intro hplanned table htable
    rw [soundUnder_congr (hcontained table) hextent]
    by_cases hid : table = plannedNodeId
    · subst hid
      rwa [hsize]
    · have htable' : IsTable projection.graph table := by
        rw [hgraph] at htable
        exact (isTable_setNode_ne hid).mp htable
      have hsize' : knownSize next.graph table = knownSize projection.graph table := by
        rw [hgraph]
        exact knownSize_setNode_ne hid
      rw [hsize']
      exact hsound table htable'

/-- A partition that was checked against its neighbours keeps its table sound. -/
theorem tablesSound_create {table plannedNodeId : NodeId} {number : NonZero 32}
    {offset size : Bytes} {role : Option UsageRole} {attributes : PartitionAttributes}
    (hsound : TablesSound projection.graph)
    (h : simulateAction projection
      (.partition (.create table plannedNodeId number offset size role attributes)) =
        .ok (result, next)) : TablesSound next.graph := by
  have hvalid : validatePartitionCreate projection.graph table number offset size = [] := by
    rw [List.eq_nil_iff_forall_not_mem]
    intro diagnostic hdiagnostic
    exact simulateAction_valid h diagnostic hdiagnostic
      (severity_validatePartitionCreate diagnostic hdiagnostic)
  obtain ⟨hwithin, hapart⟩ := validatePartitionCreate_eq_nil hvalid
  obtain ⟨habsent, hgraph⟩ := simulateAction_creation h rfl rfl
  obtain ⟨_, _, _, -, -, -, -, hstructure⟩ := simulateAction_desired h
  have hextent : extentOf next.graph plannedNodeId = some ⟨number, offset, size⟩ := by
    rw [hgraph, extentOf_insertDependency, extentOf, NodeGraph.node_setNode_self]
    rfl
  have hextents : ∀ partition, partition ≠ plannedNodeId →
      extentOf next.graph partition = extentOf projection.graph partition := by
    intro partition hne
    rw [hgraph, extentOf_insertDependency, extentOf_setNode_ne hne]
  have hcontained : ∀ {owner : NodeId}, ∀ partition, partition ≠ plannedNodeId →
      ContainedIn next.graph owner partition → ContainedIn projection.graph owner partition := by
    intro owner partition hne hcontained
    rw [hgraph, containedIn_insertDependency] at hcontained
    rcases hcontained with ⟨-, -, heq⟩ | hcontained
    · exact absurd heq.symm hne
    · exact hcontained
  -- The new partition has one owner, since the graph was accepted.
  have howner : ∀ {owner : NodeId}, ContainedIn next.graph owner plannedNodeId → owner = table := by
    rintro owner ⟨edge, hedge, rfl, hcontains, htarget⟩
    have hnew : (⟨table, plannedNodeId, .contains offset⟩ : Dependency) ∈
        next.graph.dependencies := by
      rw [hgraph]
      exact NodeGraph.mem_insertDependency.mpr (.inl rfl)
    rw [NodeGraph.contains_unique hstructure hedge hnew hcontains rfl htarget]
  intro owner htable
  have hne : owner ≠ plannedNodeId := by
    rintro rfl
    obtain ⟨format, hkind⟩ := htable
    rw [hgraph, NodeGraph.kindOf, NodeGraph.node_insertDependency,
      NodeGraph.node_setNode_self] at hkind
    cases hkind
  have htable' : IsTable projection.graph owner := by
    rw [hgraph] at htable
    exact (isTable_setNode_ne hne).mp htable
  have hsize : knownSize next.graph owner = knownSize projection.graph owner := by
    rw [hgraph]
    exact knownSize_setNode_ne hne
  rw [hsize]
  refine soundUnder_place (hsound owner htable') hcontained hextents hextent fun hplanned => ?_
  rw [howner hplanned]
  exact ⟨hwithin, fun other extent hin _ => hapart other extent hin⟩

/-- The table that owns a partition is the only node that contains it. -/
theorem partitionTable_eq_some {graph : NodeGraph} {partition table : NodeId}
    (h : partitionTable graph partition = some table) :
    IsTable graph table ∧ (∀ owner, ContainedIn graph owner partition → owner = table) ∧
      ContainedIn graph table partition := by
  unfold partitionTable at h
  split at h
  · next owner howners =>
    have hmem : ∀ edge : Dependency, edge = owner ↔ edge ∈ graph.dependencies ∧
        edge.target = partition ∧ edge.kind.isContains = true := by
      intro edge
      rw [← List.mem_singleton, ← howners, List.mem_filter, Bool.and_eq_true, beq_iff_eq]
    obtain ⟨hedge, htarget, hcontains⟩ := (hmem owner).mp rfl
    split at h
    · next format hformat =>
      obtain rfl := Option.some.inj h
      refine ⟨⟨format, hformat⟩, ?_, ⟨owner, hedge, rfl, hcontains, htarget⟩⟩
      rintro other ⟨edge, hedge', rfl, hcontains', htarget'⟩
      rw [(hmem edge).mpr ⟨hedge', htarget', hcontains'⟩]
    · cases h
  · cases h

/-- A resized partition stands in a table. -/
theorem partitionTable_of_resize {partition : NodeId} {newSize : Bytes}
    (h : simulateAction projection (.partition (.resize partition newSize)) = .ok (result, next)) :
    ∃ table, partitionTable projection.graph partition = some table := by
  rw [← Option.isSome_iff_exists]
  by_contra hnone
  refine simulateAction_valid h (actionDiagnostic partition
    "partition.action.invalid_table_ownership"
    "partition mutation requires exactly one containing partition table") ?_ rfl
  rw [validateProviderAction, validatePartitionAction, validatePartitionOwner, if_neg hnone]
  exact List.mem_singleton.mpr rfl

/-- The resize of a partition replaces its size. -/
theorem simulateAction_resizePartition {partition : NodeId} {newSize : Bytes}
    (h : simulateAction projection (.partition (.resize partition newSize)) = .ok (result, next)) :
    ∃ number offset role attributes value,
      projection.graph.kindOf partition = some (.partition number offset role attributes) ∧
      value.kind = ⟨.partition number offset role attributes, some newSize⟩ ∧
      next.graph = projection.graph.setNode partition value := by
  obtain ⟨⟨⟨kind, oldSize⟩, facts⟩, size, hold, hmatches, ⟨effect, heffect, hupdate⟩, hgraph⟩ :=
    simulateAction_resized h rfl
  obtain rfl := (List.cons.inj heffect).1
  have hset := congrFun (Prod.mk.inj (Option.some.inj hupdate)).2 ⟨⟨kind, oldSize⟩, facts⟩
  obtain rfl : some newSize = size :=
    congrArg (fun value : Node => value.kind.size) (Option.some.inj hset)
  cases kind with
  | partition number offset role attributes =>
      refine ⟨number, offset, role, attributes, _, ?_, rfl, hgraph⟩
      rw [NodeGraph.kindOf, hold]
      rfl
  | _ => cases hmatches

/-- A resize keeps the tables sound exactly when the new range fits. -/
theorem tablesSound_resize {partition : NodeId} {newSize : Bytes}
    (hsound : TablesSound projection.graph)
    (h : simulateAction projection (.partition (.resize partition newSize)) = .ok (result, next)) :
    TablesSound next.graph ↔ ResizeFits projection.graph partition newSize := by
  obtain ⟨number, offset, role, attributes, value, hkind, hvalue, hgraph⟩ :=
    simulateAction_resizePartition h
  obtain ⟨table, htable⟩ := partitionTable_of_resize h
  obtain ⟨hisTable, howner, hcontains⟩ := partitionTable_eq_some htable
  have hne : ∀ {owner : NodeId}, IsTable projection.graph owner → owner ≠ partition := by
    rintro owner ⟨format, hformat⟩ rfl
    rw [hformat] at hkind
    cases hkind
  have hextent : extentOf next.graph partition = some ⟨number, offset, newSize⟩ := by
    rw [hgraph, extentOf, NodeGraph.node_setNode_self, Option.bind_some, hvalue]
    rfl
  have hextents : ∀ other, other ≠ partition →
      extentOf next.graph other = extentOf projection.graph other := by
    intro other hother
    rw [hgraph, extentOf_setNode_ne hother]
  have hcontained : ∀ owner other, ContainedIn next.graph owner other ↔
      ContainedIn projection.graph owner other := by
    intro owner other
    rw [hgraph]
    rfl
  have hsize : ∀ {owner : NodeId}, owner ≠ partition →
      knownSize next.graph owner = knownSize projection.graph owner := by
    intro owner hother
    rw [hgraph, knownSize_setNode_ne hother]
  constructor
  · -- The table still is one, so its partitions fit with the new range among them.
    intro hnext table' number' offset' role' attributes' htable' hkind'
    rw [htable] at htable'
    obtain rfl := Option.some.inj htable'
    rw [hkind] at hkind'
    cases hkind'
    have hisTable' : IsTable next.graph table := by
      rw [hgraph]
      exact (isTable_setNode_ne (hne hisTable)).mpr hisTable
    obtain ⟨hwithin, hapart⟩ := hnext table hisTable'
    rw [hsize (hne hisTable)] at hwithin
    have hin := (hcontained table partition).mpr hcontains
    refine ⟨hwithin partition _ hin hextent, fun other extent hother hdifferent hfound => ?_⟩
    refine hapart partition other _ extent hin ((hcontained table other).mpr hother)
      hdifferent.symm hextent ?_
    rw [hextents other hdifferent]
    exact hfound
  · -- Only the extent of the partition is new, and its table is the one that was checked.
    intro hfits owner hisTable'
    have hother : owner ≠ partition := by
      rintro rfl
      obtain ⟨format, hformat⟩ := hisTable'
      rw [hgraph, NodeGraph.kindOf, NodeGraph.node_setNode_self, Option.map_some, hvalue] at hformat
      cases hformat
    rw [hgraph, isTable_setNode_ne hother] at hisTable'
    rw [hsize hother]
    refine soundUnder_place (hsound owner hisTable')
      (fun other _ => (hcontained owner other).mp) hextents hextent fun hin => ?_
    obtain rfl := howner owner ((hcontained owner partition).mp hin)
    exact hfits owner number offset role attributes htable hkind

/-- Every other action adds no extent. -/
theorem addsNoExtent_of_other (h : simulateAction projection action = .ok (result, next))
    (hplaces : action.placesExtent = false) (hresized : action.resized = none) :
    AddsNoExtent projection.graph next.graph := by
  have hharmless := @graphChanges_harmless _ projection.graph hplaces hresized
  cases hmounts : action.mountChanges with
  | nil =>
      obtain ⟨-, start, changed, hstart, hnext, hchanged⟩ := simulateAction_graph h hmounts
      have hstart' : start.graph = projection.graph := congrArg DesiredState.graph hstart
      have hnext' : next.graph = changed.graph := congrArg DesiredState.graph hnext
      rw [hnext', ← hstart']
      exact foldlM_harmless hchanged hharmless
  | cons effect rest =>
      cases action with
      | mount action =>
          have hgraph : next.graph = projection.graph := (simulateAction_mount h).graph_eq
          rw [hgraph]
          exact .refl _
      | _ => cases hmounts

/-- **Partition tables.**  An action that succeeds on a state with sound partition tables leaves
them sound exactly when, if it resizes a partition, the new range fits next to the others in its
table. -/
theorem partition_tables_sound (hsound : TablesSound projection.graph)
    (h : simulateAction projection action = .ok (result, next)) :
    TablesSound next.graph ↔ KeepsTables projection.graph action := by
  by_cases hplaces : action.placesExtent = true
  · unfold ProviderAction.placesExtent at hplaces
    split at hplaces
    · exact tablesSound_createTable hsound h
    · exact iff_of_true (tablesSound_create hsound h) trivial
    · cases hplaces
  · cases hresized : action.resized with
    | none =>
        have hkeeps : KeepsTables projection.graph action := by
          unfold KeepsTables
          split
          · cases hresized
          · exact absurd rfl hplaces
          · trivial
        have hadds := addsNoExtent_of_other h (Bool.eq_false_iff.mpr hplaces) hresized
        exact iff_of_true (hadds.sound hsound) hkeeps
    | some resized =>
        obtain ⟨node, expected⟩ := resized
        by_cases hpartition : expected = .partition
        · subst hpartition
          unfold ProviderAction.resized at hresized
          split at hresized
          · exact tablesSound_resize hsound h
          all_goals cases hresized
        · have hkeeps : KeepsTables projection.graph action := by
            unfold KeepsTables
            split
            · cases hresized
              exact absurd rfl hpartition
            · cases hresized
            · trivial
          exact iff_of_true ((addsNoExtent_of_resized h hresized hpartition).sound hsound) hkeeps

end Actions

/-! ### A resize over a neighbour -/

/-- A GPT of 30 bytes. -/
def sampleTable : NodeId := ⟨3#128⟩

/-- Partition 1, bytes 0 to 10. -/
def sampleFirst : NodeId := ⟨4#128⟩

/-- Partition 2, bytes 10 to 20. -/
def sampleSecond : NodeId := ⟨5#128⟩

/-- A table of 30 bytes whose first 20 two partitions fill. -/
def sampleLayout : NodeGraph :=
  ((((NodeGraph.empty.setNode sampleTable ⟨⟨.partitionTable .gpt, some 30⟩, {}⟩).setNode sampleFirst
    ⟨⟨.partition ⟨1, by decide⟩ 0 none {}, some 10⟩, {}⟩).setNode sampleSecond
    ⟨⟨.partition ⟨2, by decide⟩ 10 none {}, some 10⟩, {}⟩).insertDependency
    ⟨sampleTable, sampleFirst, .contains 0⟩).insertDependency
    ⟨sampleTable, sampleSecond, .contains 10⟩

/-- The layout with no mounts and no evidence. -/
def samplePartitioned : Projection where
  desired := { graph := sampleLayout, mounts := {}, boot := .unmanaged, intents := [] }
  evidence := {}

theorem containedIn_sampleLayout {table node : NodeId} (h : ContainedIn sampleLayout table node) :
    table = sampleTable ∧ (node = sampleFirst ∨ node = sampleSecond) := by
  obtain ⟨edge, hedge, rfl, -, rfl⟩ := h
  have hedges : sampleLayout.dependencies =
      [⟨sampleTable, sampleSecond, .contains 10⟩, ⟨sampleTable, sampleFirst, .contains 0⟩] := rfl
  rw [hedges] at hedge
  rcases List.mem_pair.mp hedge with rfl | rfl
  · exact ⟨rfl, .inr rfl⟩
  · exact ⟨rfl, .inl rfl⟩

theorem extentOf_sampleFirst : extentOf sampleLayout sampleFirst = some ⟨⟨1, by decide⟩, 0, 10⟩ := rfl

theorem extentOf_sampleSecond :
    extentOf sampleLayout sampleSecond = some ⟨⟨2, by decide⟩, 10, 10⟩ := rfl

theorem knownSize_sampleTable : knownSize sampleLayout sampleTable = some 30 := rfl

theorem tablesSound_sampleLayout : TablesSound sampleLayout := by
  have hapart : Extent.Apart ⟨⟨1, by decide⟩, 0, 10⟩ ⟨⟨2, by decide⟩, 10, 10⟩ :=
    ⟨by decide, .inl (by decide)⟩
  intro table _
  constructor
  · intro partition extent hin hextent
    obtain ⟨rfl, rfl | rfl⟩ := containedIn_sampleLayout hin
    · rw [extentOf_sampleFirst] at hextent
      obtain rfl := Option.some.inj hextent
      exact ⟨by decide, by decide, by simp [knownSize_sampleTable, Extent.end]⟩
    · rw [extentOf_sampleSecond] at hextent
      obtain rfl := Option.some.inj hextent
      exact ⟨by decide, by decide, by simp [knownSize_sampleTable, Extent.end]⟩
  · intro partition other extent extent' hin hin' hne hextent hextent'
    obtain ⟨-, rfl | rfl⟩ := containedIn_sampleLayout hin
    · obtain ⟨-, rfl | rfl⟩ := containedIn_sampleLayout hin'
      · exact absurd rfl hne
      · rw [extentOf_sampleFirst] at hextent
        rw [extentOf_sampleSecond] at hextent'
        obtain rfl := Option.some.inj hextent
        obtain rfl := Option.some.inj hextent'
        exact hapart
    · obtain ⟨-, rfl | rfl⟩ := containedIn_sampleLayout hin'
      · rw [extentOf_sampleSecond] at hextent
        rw [extentOf_sampleFirst] at hextent'
        obtain rfl := Option.some.inj hextent
        obtain rfl := Option.some.inj hextent'
        exact hapart.symm
      · exact absurd rfl hne

/-- Growing the second partition to the end of the table fits. -/
theorem sample_grow_fits :
    TablesSound samplePartitioned.graph ∧ ∃ result next,
      simulateAction samplePartitioned (.partition (.resize sampleSecond 20)) =
        .ok (result, next) ∧ TablesSound next.graph := by
  have hfits : ResizeFits sampleLayout sampleSecond 20 := by
    intro table number offset role attributes htable hkind
    obtain rfl : sampleTable = table := Option.some.inj htable
    cases Option.some.inj hkind
    refine ⟨⟨by decide, by decide, by simp [knownSize_sampleTable, Extent.end]⟩, ?_⟩
    intro other extent hin hne hextent
    obtain ⟨-, rfl | rfl⟩ := containedIn_sampleLayout hin
    · rw [extentOf_sampleFirst] at hextent
      obtain rfl := Option.some.inj hextent
      exact ⟨by decide, .inr (by decide)⟩
    · exact absurd rfl hne
  obtain ⟨result, next, hnext⟩ : ∃ result next,
      simulateAction samplePartitioned (.partition (.resize sampleSecond 20)) =
        .ok (result, next) := ⟨_, _, rfl⟩
  have hsound : TablesSound samplePartitioned.graph := tablesSound_sampleLayout
  exact ⟨hsound, result, next, hnext, (partition_tables_sound hsound hnext).mpr hfits⟩

/-- Growing the first partition over the second is accepted. -/
theorem resize_over_neighbour :
    ¬∀ projection action result next, TablesSound projection.graph →
      simulateAction projection action = .ok (result, next) → TablesSound next.graph := by
  intro hall
  obtain ⟨result, next, hnext⟩ : ∃ result next,
      simulateAction samplePartitioned (.partition (.resize sampleFirst 15)) =
        .ok (result, next) := ⟨_, _, rfl⟩
  have hsound : TablesSound samplePartitioned.graph := tablesSound_sampleLayout
  have hfits := (tablesSound_resize hsound hnext).mp (hall _ _ result next hsound hnext)
  have hsecond : ContainedIn sampleLayout sampleTable sampleSecond :=
    ⟨⟨sampleTable, sampleSecond, .contains 10⟩, by decide, rfl, rfl, rfl⟩
  obtain ⟨-, hapart⟩ := hfits sampleTable _ _ _ _ rfl rfl
  obtain ⟨-, hdisjoint⟩ := hapart sampleSecond _ hsecond (by decide) extentOf_sampleSecond
  exact absurd hdisjoint (by decide)

end DisksGraph
