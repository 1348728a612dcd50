import DisksGraph.Engine.Tracked
import DisksGraph.Model.Valid
import Mathlib.Algebra.BigOperators.Group.Finset.Basic
import Mathlib.Algebra.Order.BigOperators.Group.Finset

/-!
# Engine — Allocation

The free capacity of a volume group over a replay.

* `allocated`: the extents that the linear volumes of a group take.
* `simulateAction_allocated`: how one action moves them, next to the allocation change it predicts.
* `volume_group_capacity_conserved`: free and allocated extents add up to the same in every state of
  a replay in which the free ones are known; they are forgotten only by an invalidation, for good.
-/

namespace DisksGraph

/-! ### What a group has allocated -/

/-- The extent size of a volume group, where it is known. -/
def extentSize (graph : NodeGraph) (vg : NodeId) : Option Bytes :=
  match graph.kindOf vg with
  | some (.lvmVg _ size) => size
  | _ => none

/-- The size of a linear volume, where it is known. -/
def linearSize (graph : NodeGraph) (lv : NodeId) : Option Bytes :=
  match graph.node lv with
  | some ⟨⟨.lvmLv ⟨_, .linear⟩, size⟩, _⟩ => size
  | _ => none

/-- The group is the only node that provides the volume. -/
def OwnedBy (graph : NodeGraph) (vg lv : NodeId) : Prop :=
  ⟨vg, lv, .provides⟩ ∈ graph.dependencies ∧
    ∀ edge ∈ graph.dependencies, edge.target = lv → edge.kind = .provides → edge.source = vg

instance {graph : NodeGraph} {vg lv : NodeId} : Decidable (OwnedBy graph vg lv) :=
  inferInstanceAs (Decidable (_ ∧ ∀ edge ∈ graph.dependencies, _ → _ → _))

/-- The extents that a volume takes from a group: its size divided by the extent size, where the
volume is linear, of a known and aligned size, and owned by that group alone. -/
def allocatedTo (graph : NodeGraph) (vg lv : NodeId) : Nat :=
  match linearSize graph lv, extentSize graph vg with
  | some size, some extent => if OwnedBy graph vg lv ∧ extent ∣ size then size / extent else 0
  | _, _ => 0

/-- The identities of a graph. -/
def NodeGraph.ids (graph : NodeGraph) : Finset NodeId := graph.nodes.keys.toFinset

/-- The extents that the volumes of a group take. -/
def allocated (graph : NodeGraph) (vg : NodeId) : Nat :=
  ∑ lv ∈ graph.ids, allocatedTo graph vg lv

section Allocated

variable {graph next : NodeGraph} {vg lv : NodeId}

theorem mem_ids : lv ∈ graph.ids ↔ graph.node lv ≠ none := by
  rw [NodeGraph.ids, List.mem_toFinset, ← AList.mem_keys, NodeGraph.node, ← AList.lookup_isSome,
    Option.isSome_iff_ne_none]

theorem lvmAllocation_of_unknown (h : extentSize graph vg = none) {size : Bytes}
    {layout : LvmLvKind} : lvmAllocation graph vg size layout = none := by
  unfold extentSize at h
  unfold lvmAllocation
  split
  · rfl
  · split
    · next hkind =>
      rw [hkind] at h
      cases h
    · rfl

theorem kindOf_of_extentSize {extent : Bytes} (h : extentSize graph vg = some extent) :
    ∃ name, graph.kindOf vg = some (.lvmVg name (some extent)) := by
  unfold extentSize at h
  split at h
  · next name _ hkind => exact ⟨name, h ▸ hkind⟩
  · cases h

/-- A group whose extent size is unknown gives nothing. -/
theorem allocatedTo_of_unknown (h : extentSize graph vg = none) : allocatedTo graph vg lv = 0 := by
  rw [allocatedTo, h]
  cases linearSize graph lv <;> rfl

/-- Only logical volumes take extents. -/
theorem allocatedTo_of_kind (h : ∀ value, graph.kindOf lv ≠ some (.lvmLv value)) :
    allocatedTo graph vg lv = 0 := by
  have hnone : linearSize graph lv = none := by
    unfold linearSize
    split
    · next name size facts hnode =>
        exact absurd (by rw [NodeGraph.kindOf, hnode]; rfl) (h ⟨name, .linear⟩)
    · rfl
  rw [allocatedTo, hnone]

/-- The owner of a volume is the only node that provides it, and a volume group. -/
theorem lvmVolumeGroup_eq_some :
    lvmVolumeGroup graph lv = some vg ↔
      (∃ name size, graph.kindOf vg = some (.lvmVg name size)) ∧
        ⟨vg, lv, .provides⟩ ∈ graph.dependencies ∧
        ∀ edge ∈ graph.dependencies, edge.target = lv → edge.kind = .provides →
          edge.source = vg := by
  unfold lvmVolumeGroup
  constructor
  · intro h
    split at h
    · next owner howners =>
      obtain ⟨hmem, howner, hsole⟩ :=
        (Support.filter_eq_singleton graph.nodup_dependencies).mp howners
      rw [Bool.and_eq_true, beq_iff_eq, beq_iff_eq] at howner
      split at h
      · next name size hkind =>
        obtain rfl := Option.some.inj h
        refine ⟨⟨name, size, hkind⟩, ?_, fun edge hedge htarget hprovides => ?_⟩
        · rw [← howner.1, ← howner.2]
          exact hmem
        · rw [hsole edge hedge (by simp [htarget, hprovides])]
      · cases h
    · cases h
  · rintro ⟨⟨name, size, hkind⟩, hmem, hsole⟩
    have howners : (graph.dependencies.filter fun edge =>
        edge.target == lv && edge.kind == .provides) = [⟨vg, lv, .provides⟩] := by
      refine (Support.filter_eq_singleton graph.nodup_dependencies).mpr ⟨hmem, by simp, ?_⟩
      intro edge hedge hpasses
      rw [Bool.and_eq_true, beq_iff_eq, beq_iff_eq] at hpasses
      obtain ⟨source, target, kind⟩ := edge
      obtain ⟨rfl, rfl⟩ := hpasses
      rw [← hsole _ hedge rfl rfl]
    rw [howners]
    dsimp only
    rw [hkind]

/-- What `lvm_lv_allocation` calculates, for a group of this extent size. -/
theorem lvmLvAllocation_getD {extent : Bytes} (hextent : extentSize graph vg = some extent) :
    ((knownSize graph lv).bind (lvmLvAllocation graph vg lv)).getD 0 =
      ((linearSize graph lv).map fun size =>
        if extent ∣ size then size / extent else 0).getD 0 := by
  obtain ⟨group, hgroup⟩ := kindOf_of_extentSize hextent
  cases hnode : graph.node lv with
  | none => simp [knownSize, linearSize, hnode]
  | some value =>
      obtain ⟨⟨kind, size⟩, facts⟩ := value
      have hkind : graph.kindOf lv = some kind := by rw [NodeGraph.kindOf, hnode, Option.map_some]
      have hknown : knownSize graph lv = size := by rw [knownSize, hnode, Option.bind_some]
      rw [hknown]
      cases size with
      | none =>
          have hlinear : linearSize graph lv = none := by
            unfold linearSize
            split
            · next heq =>
              rw [hnode] at heq
              cases heq
              rfl
            · rfl
          rw [hlinear]
          rfl
      | some size =>
          rw [Option.bind_some, lvmLvAllocation, hkind, linearSize, hnode]
          cases kind with
          | lvmLv volume =>
              obtain ⟨name, layout⟩ := volume
              by_cases hlinear : layout = .linear
              · subst hlinear
                dsimp only
                unfold lvmAllocation
                rw [hgroup]
                by_cases hzero : extent = 0
                · subst hzero
                  simp
                · by_cases haligned : extent ∣ size
                  · by_cases hsize : size = 0
                    · simp [hzero, hsize]
                    · simp [hzero, hsize, haligned, Nat.mod_eq_zero_of_dvd haligned]
                  · have hmod : size % extent ≠ 0 := fun h => haligned (Nat.dvd_of_mod_eq_zero h)
                    simp [hzero, haligned, hmod]
              · dsimp only
                unfold lvmAllocation
                rw [if_pos hlinear]
                cases layout <;> first | rfl | exact absurd rfl hlinear
          | _ => rfl

/-- **The measure is what the contracts calculate**, where the group is the owner that they find. -/
theorem allocatedTo_eq :
    allocatedTo graph vg lv = if lvmVolumeGroup graph lv = some vg
      then ((knownSize graph lv).bind (lvmLvAllocation graph vg lv)).getD 0 else 0 := by
  cases hextent : extentSize graph vg with
  | none =>
      have hnone : ∀ size, lvmLvAllocation graph vg lv size = none := by
        intro size
        unfold lvmLvAllocation
        split
        · exact lvmAllocation_of_unknown hextent
        · rfl
      rw [allocatedTo_of_unknown hextent]
      cases knownSize graph lv <;> simp [hnone]
  | some extent =>
      obtain ⟨name, hgroup⟩ := kindOf_of_extentSize hextent
      have howner : lvmVolumeGroup graph lv = some vg ↔ OwnedBy graph vg lv := by
        rw [lvmVolumeGroup_eq_some]
        exact and_iff_right ⟨name, some extent, hgroup⟩
      rw [lvmLvAllocation_getD hextent, allocatedTo, hextent]
      cases linearSize graph lv with
      | none => simp
      | some size => by_cases howned : OwnedBy graph vg lv <;> simp [howner, howned]

/-- A volume that stays, with its providers and the extent size of the group, takes the same. -/
theorem allocatedTo_congr (hnode : next.node lv = graph.node lv)
    (hedges : ∀ edge : Dependency, edge.target = lv → edge.kind = .provides →
      (edge ∈ next.dependencies ↔ edge ∈ graph.dependencies))
    (hextent : extentSize next vg = extentSize graph vg) :
    allocatedTo next vg lv = allocatedTo graph vg lv := by
  have howned : OwnedBy next vg lv ↔ OwnedBy graph vg lv := by
    refine and_congr (hedges _ rfl rfl) (forall_congr' fun edge => ?_)
    constructor
    · intro h hedge htarget hprovides
      exact h ((hedges edge htarget hprovides).mpr hedge) htarget hprovides
    · intro h hedge htarget hprovides
      exact h ((hedges edge htarget hprovides).mp hedge) htarget hprovides
  have hlinear : linearSize next lv = linearSize graph lv := by
    rw [linearSize, linearSize, hnode]
  simp only [allocatedTo, hlinear, hextent, howned]

/-- Where the volumes of a group differ in one only, so does what they take. -/
theorem allocated_differ
    (h : ∀ other ≠ lv, allocatedTo next vg other = allocatedTo graph vg other) :
    allocated next vg + allocatedTo graph vg lv = allocated graph vg + allocatedTo next vg lv := by
  -- Both sums may run over the identities of the two graphs: what is absent takes nothing.
  let all := insert lv (graph.ids ∪ next.ids)
  have hsum : ∀ {graph : NodeGraph}, graph.ids ⊆ all →
      allocated graph vg = allocatedTo graph vg lv + ∑ id ∈ all.erase lv,
        allocatedTo graph vg id := by
    intro graph hsubset
    rw [Finset.add_sum_erase all _ (Finset.mem_insert_self _ _), allocated]
    refine Finset.sum_subset hsubset fun id _ hid => allocatedTo_of_kind fun value hkind => ?_
    have hnode : graph.node id = none := not_not.mp (mt mem_ids.mpr hid)
    rw [NodeGraph.kindOf, hnode] at hkind
    cases hkind
  have hrest : ∑ id ∈ all.erase lv, allocatedTo next vg id =
      ∑ id ∈ all.erase lv, allocatedTo graph vg id :=
    Finset.sum_congr rfl fun id hid => h id (Finset.ne_of_mem_erase hid)
  rw [@hsum next ?_, @hsum graph ?_, hrest]
  · ac_rfl
  · exact Finset.subset_union_left.trans (Finset.subset_insert _ _)
  · exact Finset.subset_union_right.trans (Finset.subset_insert _ _)

end Allocated

/-! ### The volume of an action -/

namespace ProviderAction

/-- The logical volume that an action creates, resizes or removes. -/
def volume : ProviderAction → Option NodeId
  | .lvm (.createLv _ plannedNodeId _ _ _) => some plannedNodeId
  | .lvm (.resizeLv lv _) | .lvm (.removeLv lv) => some lv
  | _ => none

variable {action : ProviderAction} {graph : NodeGraph} {id : NodeId}

/-- A new group has no known extent size, and a new volume is the one of its action. -/
theorem inserted_kind {spec : NodeSpec} (h : .insertNode id spec ∈ action.graphChanges graph) :
    (∀ name size, spec.kind = .lvmVg name size → size = none) ∧
      ∀ value, spec.kind = .lvmLv value → action.volume = some id := by
  have hcreation : ∀ {planned : NodeId} {spec' : NodeSpec} {edges : List Dependency},
      .insertNode id spec ∈ creation planned spec' edges → id = planned ∧ spec = spec' := by
    intro planned spec' edges hmem
    simpa [creation] using hmem
  cases action with
  | partition action =>
      cases action <;> simp [graphChanges, PartitionAction.graphChanges, creation, removal] at h
      all_goals
        obtain ⟨-, rfl⟩ := h
        simp
  | luks action =>
      cases action with
      | resize mapping size => cases size <;> simp [graphChanges, LuksAction.graphChanges] at h
      | close => simp [graphChanges, LuksAction.graphChanges, removal] at h
      | format | «open» =>
          obtain ⟨-, rfl⟩ := hcreation h
          simp
  | lvm action =>
      cases action <;> simp [graphChanges, LvmAction.graphChanges, creation, removal] at h
      all_goals
        obtain ⟨rfl, rfl⟩ := h
        simp [volume]
  | filesystem action =>
      cases action <;> simp [graphChanges, FilesystemAction.graphChanges, creation] at h
      obtain ⟨-, rfl⟩ := h
      simp
  | btrfs action =>
      cases action <;> simp [graphChanges, BtrfsAction.graphChanges, creation] at h
      all_goals
        obtain ⟨-, rfl⟩ := h
        simp
  | mount => cases h

/-- No action updates or removes a group, and only those of a volume update or remove one. -/
theorem subject_kind {expected : NodeKindClass} (h : action.subject = some (id, expected))
    {kind : NodeKind} (hmatches : matchesKind kind expected = true) :
    (∀ name size, kind ≠ .lvmVg name size) ∧
      ∀ value, kind = .lvmLv value → action.volume = some id := by
  unfold subject at h
  split at h
  all_goals cases h
  all_goals cases kind <;> first | (simp [volume]; done) | cases hmatches

end ProviderAction

section Action

variable {projection next : Projection} {action : ProviderAction} {result : SimulatedAction}
  {vg id : NodeId}

/-- A node that an action touches is no group with a known extent size and no volume but its own,
before and after the action. -/
theorem touched_kind (h : simulateAction projection action = .ok (result, next))
    {effect : GraphEffect} (heffect : effect ∈ action.graphChanges projection.graph)
    (htouched : effect.touched = some id) {graph : NodeGraph}
    (hgraph : graph = projection.graph ∨ graph = next.graph) :
    extentSize graph id = none ∧
      (action.volume ≠ some id → ∀ value, graph.kindOf id ≠ some (.lvmLv value)) := by
  have houtcome := simulateAction_outcome h
  have hkinds : ∀ kind, graph.kindOf id = some kind →
      (∀ name size, kind = .lvmVg name size → size = none) ∧
        ∀ value, kind = .lvmLv value → action.volume = some id := by
    intro kind hkind
    rcases touched_cases heffect htouched with ⟨spec, hinsert⟩ | ⟨expected, hsubject⟩
    · obtain ⟨habsent, hnodes⟩ := houtcome.of_insertNode hinsert
      rcases hgraph with rfl | rfl
      · rw [NodeGraph.kindOf, habsent] at hkind
        cases hkind
      · rw [NodeGraph.kindOf, hnodes, if_pos rfl] at hkind
        obtain rfl := Option.some.inj hkind
        exact ProviderAction.inserted_kind hinsert
    · obtain ⟨old, hold, hmatches⟩ := kind_of_nodeKind
        (simulateAction_requires h (describeAction_subject hsubject))
      have hkind' : matchesKind kind expected = true := by
        rcases hgraph with rfl | rfl
        · rw [Projection.graph, hold] at hkind
          rw [← Option.some.inj hkind]
          exact hmatches
        · obtain ⟨oldNode, holdNode, rfl⟩ := Option.map_eq_some_iff.mp hold
          obtain ⟨newNode, hnewNode, rfl⟩ := Option.map_eq_some_iff.mp hkind
          rw [houtcome.matches_of_stays holdNode hnewNode]
          exact hmatches
      obtain ⟨hgroup, hvolume⟩ := ProviderAction.subject_kind hsubject hkind'
      exact ⟨fun name size heq => absurd heq (hgroup name size), hvolume⟩
  constructor
  · unfold extentSize
    split
    · next name size hkind => exact (hkinds _ hkind).1 name size rfl
    · rfl
  · intro hother value hkind
    exact hother ((hkinds _ hkind).2 value rfl)

/-- No action changes the extent size of a group. -/
theorem simulateAction_extentSize (h : simulateAction projection action = .ok (result, next)) :
    extentSize next.graph vg = extentSize projection.graph vg := by
  by_cases htouched : ∃ effect ∈ action.graphChanges projection.graph, effect.touched = some vg
  · obtain ⟨effect, heffect, htouched⟩ := htouched
    rw [(touched_kind h heffect htouched (.inl rfl)).1,
      (touched_kind h heffect htouched (.inr rfl)).1]
  · push Not at htouched
    have hnode := (simulateAction_outcome h).node_of_untouched htouched
    rw [extentSize, extentSize, NodeGraph.kindOf, hnode, NodeGraph.kindOf]

/-- An action moves what no other volume than its own takes. -/
theorem simulateAction_allocatedTo (h : simulateAction projection action = .ok (result, next))
    (hother : action.volume ≠ some id) :
    allocatedTo next.graph vg id = allocatedTo projection.graph vg id := by
  by_cases htouched : ∃ effect ∈ action.graphChanges projection.graph, effect.touched = some id
  · obtain ⟨effect, heffect, htouched⟩ := htouched
    rw [allocatedTo_of_kind ((touched_kind h heffect htouched (.inl rfl)).2 hother),
      allocatedTo_of_kind ((touched_kind h heffect htouched (.inr rfl)).2 hother)]
  · push Not at htouched
    refine allocatedTo_congr ((simulateAction_outcome h).node_of_untouched htouched) ?_
      (simulateAction_extentSize h)
    intro edge htarget hprovides
    constructor
    · intro hnext
      rcases (simulateAction_mem_dependencies h edge).mp hnext with hinserted | ⟨hold, -⟩
      · obtain ⟨spec, hinsert⟩ := inserted_target hinserted (by rw [hprovides]; rfl)
        exact absurd (congrArg some htarget) (htouched _ hinsert)
      · exact hold
    · intro hedge
      by_contra hgone
      rcases simulateAction_unlinks h hedge hgone with ⟨hremoved, -, -⟩ |
        ⟨filesystem, device, -, rfl⟩
      · exact htouched _ (removeNode_of_removed hremoved) (congrArg some htarget)
      · have hmember := (@removedMembership_ends projection.graph filesystem device).2.2
        rw [hprovides] at hmember
        cases hmember

end Action

/-! ### Reservations and releases -/

namespace AllocationEffect

/-- The allocation domain an effect is about. -/
def domain : AllocationEffect → AllocationDomain
  | .invalidate domain | .reserve domain _ | .release domain _ => domain

/-- The allocated extents grow by what is reserved and shrink by what is released. -/
def Moves : AllocationEffect → (before after : Nat) → Prop
  | .invalidate _, _, _ => True
  | .reserve _ amount, before, after => after = before + amount
  | .release _ amount, before, after => before = after + amount

/-- The free extents shrink by what is reserved and grow by what is released, within a `u64`; what
is not known stays so. -/
def Settles : AllocationEffect → (before after : Option Nat) → Prop
  | .invalidate _, _, after => after = none
  | .reserve _ amount, before, after =>
      before = none ∧ after = none ∨
        ∃ remaining, before = some (remaining + amount) ∧ after = some remaining
  | .release _ amount, before, after =>
      before = none ∧ after = none ∨
        ∃ available, before = some available ∧ after = some (available + amount) ∧
          available + amount < u64Bound

end AllocationEffect

/-- The changes of a domain account for what a group allocates before and after. -/
def Accounted (effects : List AllocationEffect) (vg : NodeId) (before after : Nat) : Prop :=
  (∀ effect ∈ effects, effect.domain = .lvmVolumeGroup vg → effect.Moves before after) ∧
    ((∀ effect ∈ effects, effect.domain ≠ .lvmVolumeGroup vg) → after = before)

section Volumes

variable {projection next : Projection} {result : SimulatedAction} {vg lv : NodeId}

/-- What a volume takes from its owner. -/
theorem allocatedTo_owned {graph : NodeGraph} {owner : NodeId}
    (h : lvmVolumeGroup graph lv = some owner) :
    allocatedTo graph vg lv = if owner = vg
      then ((knownSize graph lv).bind (lvmLvAllocation graph owner lv)).getD 0 else 0 := by
  rw [allocatedTo_eq, h]
  by_cases hvg : owner = vg
  · rw [hvg, if_pos rfl, if_pos rfl]
  · rw [if_neg hvg, if_neg (mt Option.some.inj hvg)]

theorem accounted_createLv {owner plannedNodeId : NodeId} {name : String} {size : Bytes}
    {layout : LvmLvKind} (hvalid : projection.graph.validateStructure = .ok ())
    (h : simulateAction projection (.lvm (.createLv owner plannedNodeId name size layout)) =
      .ok (result, next)) :
    Accounted (ProviderAction.allocationChanges projection.graph
      (.lvm (.createLv owner plannedNodeId name size layout))) vg
      (allocatedTo projection.graph vg plannedNodeId)
        (allocatedTo next.graph vg plannedNodeId) := by
  have houtcome := simulateAction_outcome h
  obtain ⟨habsent, hnodes⟩ := houtcome.of_insertNode (List.mem_cons_self)
  -- The owner is a group, so it is another node and stays.
  have hrequires : (describeAction (.lvm (.createLv owner plannedNodeId name size layout))
      projection.graph).Requires (.nodeKind owner .lvmVg) := by
    rw [requires_describeAction, describeTechnology, describeLvm]
    simp
  obtain ⟨kind, hkind, hmatches⟩ := kind_of_nodeKind (simulateAction_requires h hrequires)
  have hne : owner ≠ plannedNodeId := by
    rintro rfl
    rw [NodeGraph.kindOf, show projection.desired.graph.node owner = none from habsent] at hkind
    cases hkind
  have howner : next.graph.kindOf owner = projection.graph.kindOf owner := by
    rw [NodeGraph.kindOf, hnodes, if_neg hne, NodeGraph.kindOf]
  have hplanned :
      next.graph.node plannedNodeId = some ⟨⟨.lvmLv ⟨name, layout⟩, some size⟩, {}⟩ := by
    rw [hnodes, if_pos rfl]
  have hgroup : lvmVolumeGroup next.graph plannedNodeId = some owner := by
    refine lvmVolumeGroup_eq_some.mpr ⟨?_, ?_, fun edge hedge htarget _ => ?_⟩
    · rw [howner]
      cases kind with
      | lvmVg name size => exact ⟨name, size, hkind⟩
      | _ => cases hmatches
    · exact (houtcome.mem_dependencies _).mpr (.inl (List.mem_cons_of_mem _ (List.mem_cons_self)))
    · rcases (houtcome.mem_dependencies edge).mp hedge with hinserted | ⟨hold, -⟩
      · have hedge : edge = ⟨owner, plannedNodeId, .provides⟩ := by
          simpa [ProviderAction.graphChanges, LvmAction.graphChanges, creation] using hinserted
        rw [hedge]
      · have htarget' := ((NodeGraph.dependencies_of_validateStructure hvalid).1 edge hold).target
        rw [htarget, NodeGraph.contains, habsent] at htarget'
        cases htarget'
  have hbefore : allocatedTo projection.graph vg plannedNodeId = 0 := by
    refine allocatedTo_of_kind fun value hvalue => ?_
    rw [NodeGraph.kindOf, habsent] at hvalue
    cases hvalue
  have hafter : allocatedTo next.graph vg plannedNodeId = if owner = vg
      then (lvmAllocation projection.graph owner size layout).getD 0 else 0 := by
    rw [allocatedTo_owned hgroup]
    simp only [knownSize, hplanned, Option.bind_some, lvmLvAllocation, NodeGraph.kindOf,
      Option.map_some]
    simp only [lvmAllocation, howner]
  rw [hbefore, hafter, ProviderAction.allocationChanges]
  cases lvmAllocation projection.graph owner size layout with
  | none => simp [Accounted, AllocationEffect.domain, AllocationEffect.Moves]
  | some amount =>
      simp [Accounted, AllocationEffect.domain, AllocationEffect.Moves]
      tauto

/-- A volume that is resized or removed has one owner. -/
theorem owner_of_valid {action : LvmAction}
    (h : simulateAction projection (.lvm action) = .ok (result, next))
    (haction : (∃ newSize, action = .resizeLv lv newSize) ∨ action = .removeLv lv) :
    ∃ owner, lvmVolumeGroup projection.graph lv = some owner := by
  rw [← Option.isSome_iff_exists]
  by_contra hnone
  refine simulateAction_valid h (invalidVgOwnership lv) ?_ rfl
  rw [Bool.not_eq_true, Option.isSome_eq_false_iff, Option.isNone_iff_eq_none] at hnone
  rcases haction with ⟨newSize, rfl⟩ | rfl
  · rw [validateProviderAction, validateLvmAction, hnone]
    exact List.mem_singleton_self _
  · rw [validateProviderAction, validateLvmAction, hnone]
    exact List.mem_singleton_self _

theorem accounted_resizeLv {newSize : Bytes}
    (h : simulateAction projection (.lvm (.resizeLv lv newSize)) = .ok (result, next)) :
    Accounted (ProviderAction.allocationChanges projection.graph (.lvm (.resizeLv lv newSize))) vg
      (allocatedTo projection.graph vg lv) (allocatedTo next.graph vg lv) := by
  obtain ⟨owner, howner⟩ := owner_of_valid h (.inl ⟨newSize, rfl⟩)
  -- The kinds of the nodes and all edges stay, and the volume has its new size.
  obtain ⟨hkinds, hedges, hsize⟩ :
      (∀ id, next.graph.kindOf id = projection.graph.kindOf id) ∧
      (∀ edge, edge ∈ next.graph.dependencies ↔ edge ∈ projection.graph.dependencies) ∧
      knownSize next.graph lv = some newSize := by
    obtain ⟨old, value, hold, hvalue, hnodes, hedges⟩ :=
      (simulateAction_outcome h).of_update
        (List.mem_singleton_self (GraphEffect.setNodeSize lv newSize)) rfl
    obtain rfl := Option.some.inj hvalue
    refine ⟨fun id => ?_, hedges, by rw [knownSize, hnodes, if_pos rfl]; rfl⟩
    rw [NodeGraph.kindOf, hnodes, NodeGraph.kindOf]
    split
    · next hid =>
      rw [hid, hold]
      rfl
    · rfl
  have howner' : lvmVolumeGroup next.graph lv = some owner := by
    rw [lvmVolumeGroup_eq_some] at howner ⊢
    simpa only [hkinds, hedges] using howner
  have hallocation : ∀ size, lvmLvAllocation next.graph owner lv size =
      lvmLvAllocation projection.graph owner lv size := by
    intro size
    simp only [lvmLvAllocation, lvmAllocation, hkinds]
  rw [allocatedTo_owned howner, allocatedTo_owned howner', hsize, Option.bind_some, hallocation,
    ProviderAction.allocationChanges, howner]
  dsimp only
  generalize (knownSize projection.graph lv).bind (lvmLvAllocation projection.graph owner lv) = old
  generalize lvmLvAllocation projection.graph owner lv newSize = new
  by_cases hvg : owner = vg
  · subst hvg
    rw [if_pos rfl, if_pos rfl]
    cases old with
    | none => simp [Accounted, AllocationEffect.domain, AllocationEffect.Moves]
    | some old =>
        cases new with
        | none => simp [Accounted, AllocationEffect.domain, AllocationEffect.Moves]
        | some new =>
            dsimp only
            split
            · next hgrows =>
              simpa [Accounted, AllocationEffect.domain, AllocationEffect.Moves] using
                (Nat.add_sub_of_le (Nat.le_of_lt hgrows)).symm
            · next hgrows =>
              split
              · next hshrinks =>
                simpa [Accounted, AllocationEffect.domain, AllocationEffect.Moves] using
                  (Nat.add_sub_of_le (Nat.le_of_lt hshrinks)).symm
              · next hshrinks =>
                have hsame : new = old :=
                  Nat.le_antisymm (Nat.not_lt.mp hgrows) (Nat.not_lt.mp hshrinks)
                simp [Accounted, hsame]
  · -- Whatever is reserved or released is another group's.
    rw [if_neg hvg, if_neg hvg]
    refine ⟨fun effect heffect hdomain => ?_, fun _ => rfl⟩
    have hother : effect.domain = .lvmVolumeGroup owner := by
      split at heffect
      · split at heffect
        · rw [List.mem_singleton.mp heffect]
          rfl
        · split at heffect
          · rw [List.mem_singleton.mp heffect]
            rfl
          · cases heffect
      · rw [List.mem_singleton.mp heffect]
        rfl
    rw [hother] at hdomain
    exact absurd (AllocationDomain.lvmVolumeGroup.inj hdomain) hvg

theorem accounted_removeLv
    (h : simulateAction projection (.lvm (.removeLv lv)) = .ok (result, next)) :
    Accounted (ProviderAction.allocationChanges projection.graph (.lvm (.removeLv lv))) vg
      (allocatedTo projection.graph vg lv) (allocatedTo next.graph vg lv) := by
  obtain ⟨owner, howner⟩ := owner_of_valid h (.inr rfl)
  have hafter : allocatedTo next.graph vg lv = 0 := by
    refine allocatedTo_of_kind fun value hvalue => ?_
    rw [NodeGraph.kindOf, (simulateAction_outcome h).of_removeNode (removeNode_of_removed rfl),
      if_pos rfl] at hvalue
    cases hvalue
  rw [allocatedTo_owned howner, hafter, ProviderAction.allocationChanges, howner]
  dsimp only
  cases (knownSize projection.graph lv).bind (lvmLvAllocation projection.graph owner lv) with
  | none => simp [Accounted, AllocationEffect.domain, AllocationEffect.Moves]
  | some amount =>
      simp [Accounted, AllocationEffect.domain, AllocationEffect.Moves]
      tauto

end Volumes

/-! ### One action -/

section Step

variable {projection next : Projection} {action : ProviderAction} {result : SimulatedAction}
  {vg : NodeId}

/-- **What a group has allocated moves as the action predicts.** -/
theorem simulateAction_allocated (hvalid : projection.graph.validateStructure = .ok ())
    (h : simulateAction projection action = .ok (result, next)) :
    Accounted (action.allocationChanges projection.graph) vg (allocated projection.graph vg)
      (allocated next.graph vg) := by
  -- Where an action has a volume, the sums differ by what that volume takes.
  have hvolume : ∀ {lv : NodeId}, action.volume = some lv →
      Accounted (action.allocationChanges projection.graph) vg
        (allocatedTo projection.graph vg lv) (allocatedTo next.graph vg lv) →
      Accounted (action.allocationChanges projection.graph) vg (allocated projection.graph vg)
        (allocated next.graph vg) := by
    rintro lv hlv ⟨hmoves, hkept⟩
    have hdiffer := allocated_differ fun other hother =>
      @simulateAction_allocatedTo _ _ _ _ vg _ h
        (fun heq => hother (Option.some.inj (heq.symm.trans hlv)))
    refine ⟨fun effect heffect hdomain => ?_, fun hnone => ?_⟩
    · have hmove := hmoves effect heffect hdomain
      cases effect with
      | invalidate => trivial
      | reserve domain amount =>
          simp only [AllocationEffect.Moves] at hmove ⊢
          omega
      | release domain amount =>
          simp only [AllocationEffect.Moves] at hmove ⊢
          omega
    · have hsame := hkept hnone
      omega
  have hnone : action.volume = none → action.allocationChanges projection.graph = [] →
      Accounted (action.allocationChanges projection.graph) vg (allocated projection.graph vg)
        (allocated next.graph vg) := by
    intro hnone hchanges
    have hsame : ∀ id, allocatedTo next.graph vg id = allocatedTo projection.graph vg id :=
      fun id => simulateAction_allocatedTo h (by rw [hnone]; nofun)
    have hdiffer := @allocated_differ _ _ _ vg fun other _ => hsame other
    have hown := hsame vg
    rw [hchanges]
    refine ⟨fun effect heffect => absurd heffect List.not_mem_nil, fun _ => ?_⟩
    omega
  cases action with
  | lvm action =>
      cases action with
      | createLv => exact hvolume rfl (accounted_createLv hvalid h)
      | resizeLv => exact hvolume rfl (accounted_resizeLv h)
      | removeLv => exact hvolume rfl (accounted_removeLv h)
      | _ => exact hnone rfl rfl
  | _ => exact hnone rfl rfl

theorem applyAllocationEffect_settles {evidence evidence' : SimulationEvidence}
    {effect : AllocationEffect} (h : evidence.applyAllocationEffect effect = .ok evidence') :
    effect.Settles (evidence.availableCapacity effect.domain)
        (evidence'.availableCapacity effect.domain) ∧
      ∀ domain ≠ effect.domain,
        evidence'.availableCapacity domain = evidence.availableCapacity domain := by
  cases effect with
  | invalidate domain =>
      cases h
      exact ⟨Function.update_self .., fun other hother => Function.update_of_ne hother ..⟩
  | reserve domain amount =>
      rw [SimulationEvidence.applyAllocationEffect] at h
      split at h
      · next hnone =>
        cases h
        exact ⟨.inl ⟨hnone, hnone⟩, fun _ _ => rfl⟩
      · next available hsome =>
        split at h
        · cases h
        · next remaining hremaining =>
          cases h
          unfold checkedSub at hremaining
          split at hremaining
          · next hle =>
            obtain rfl := Option.some.inj hremaining
            refine ⟨.inr ⟨available - amount, ?_, Function.update_self ..⟩,
              fun other hother => Function.update_of_ne hother ..⟩
            rw [Nat.sub_add_cancel hle]
            exact hsome
          · cases hremaining
  | release domain amount =>
      rw [SimulationEvidence.applyAllocationEffect] at h
      split at h
      · next hnone =>
        cases h
        exact ⟨.inl ⟨hnone, hnone⟩, fun _ _ => rfl⟩
      · next available hsome =>
        split at h
        · cases h
        · next total htotal =>
          cases h
          unfold checkedAdd at htotal
          split at htotal
          · next hlt =>
            obtain rfl := Option.some.inj htotal
            exact ⟨.inr ⟨available, hsome, Function.update_self .., hlt⟩,
              fun other hother => Function.update_of_ne hother ..⟩
          · cases htotal

theorem allocationChanges_single (action : ProviderAction) (graph : NodeGraph) :
    action.allocationChanges graph = [] ∨ ∃ effect, action.allocationChanges graph = [effect] := by
  unfold ProviderAction.allocationChanges
  split
  · split <;> exact .inr ⟨_, rfl⟩
  · split
    · exact .inl rfl
    · split
      · split
        · exact .inr ⟨_, rfl⟩
        · split
          · exact .inr ⟨_, rfl⟩
          · exact .inl rfl
      · exact .inr ⟨_, rfl⟩
  · split
    · exact .inl rfl
    · split <;> exact .inr ⟨_, rfl⟩
  · exact .inl rfl

/-- The free capacity after an action: settled by the one change of its domain, or as before. -/
theorem simulateAction_capacity (h : simulateAction projection action = .ok (result, next))
    (domain : AllocationDomain) :
    (∃ effect ∈ action.allocationChanges projection.graph, effect.domain = domain ∧
        effect.Settles (projection.evidence.availableCapacity domain)
          (next.evidence.availableCapacity domain)) ∨
      (∀ effect ∈ action.allocationChanges projection.graph, effect.domain ≠ domain) ∧
        next.evidence.availableCapacity domain =
          projection.evidence.availableCapacity domain := by
  obtain ⟨changed, mounted, evidence, hchanged, hmounted, hevidence, rfl⟩ := simulateAction_stages h
  obtain ⟨_, _, _, hgraph⟩ := foldlM_applyGraphEffect_evidence hchanged
  obtain ⟨_, _, _, hmounts⟩ := foldlM_applyMountEffect_evidence hmounted
  obtain ⟨_, _, houtputs⟩ := @applyOutputs_evidence evidence
    (describeAction action projection.graph).providedOutputs
  obtain ⟨_, _, _, hrevoke⟩ := @foldl_revoke_evidence projection.evidence
    (expandInvalidations projection.graph (describeAction action projection.graph).invalidatedFacts)
  have hbefore : mounted.evidence.availableCapacity = projection.evidence.availableCapacity := by
    rw [hmounts, hgraph, SimulationEvidence.revoked, SimulationEvidence.invalidateFilesystemChecks,
      SimulationEvidence.invalidateObservations]
    dsimp only
    rw [hrevoke]
  have hafter : (evidence.applyOutputs
      (describeAction action projection.graph).providedOutputs).availableCapacity =
      evidence.availableCapacity := by
    rw [houtputs]
  dsimp only
  rw [hafter, ← hbefore]
  rw [describeAction_allocations] at hevidence
  rcases allocationChanges_single action projection.graph with hnone | ⟨effect, hsingle⟩
  · rw [hnone] at hevidence ⊢
    obtain rfl := Except.ok.inj hevidence
    exact .inr ⟨fun effect heffect => absurd heffect List.not_mem_nil, rfl⟩
  · rw [hsingle] at hevidence ⊢
    obtain ⟨once, honce, hrest⟩ := Support.except_bind_eq_ok.mp hevidence
    obtain rfl := Except.ok.inj hrest
    obtain ⟨hsettles, hothers⟩ := applyAllocationEffect_settles honce
    by_cases hdomain : effect.domain = domain
    · subst hdomain
      exact .inl ⟨effect, List.mem_singleton_self _, rfl, hsettles⟩
    · refine .inr ⟨fun other hother => ?_, hothers domain (Ne.symm hdomain)⟩
      rw [List.mem_singleton.mp hother]
      exact hdomain

/-- The free extents of a group. -/
def Projection.available (projection : Projection) (vg : NodeId) : Option Nat :=
  projection.evidence.availableCapacity (.lvmVolumeGroup vg)

/-- One action conserves the extents of a group that it does not forget. -/
theorem capacity_conserved (hvalid : projection.graph.validateStructure = .ok ())
    (h : simulateAction projection action = .ok (result, next)) {after : Nat}
    (hafter : next.available vg = some after) :
    ∃ before, projection.available vg = some before ∧
      after + allocated next.graph vg = before + allocated projection.graph vg ∧
      (before < u64Bound → after < u64Bound) := by
  obtain ⟨hmoves, hkept⟩ : Accounted _ vg _ _ := simulateAction_allocated hvalid h
  rcases simulateAction_capacity h (.lvmVolumeGroup vg) with
    ⟨effect, heffect, hdomain, hsettles⟩ | ⟨hnone, hsame⟩
  · have hmove := hmoves effect heffect hdomain
    rw [Projection.available] at hafter
    rw [hafter] at hsettles
    cases effect with
    | invalidate => cases hsettles
    | reserve domain amount =>
        rcases hsettles with ⟨-, hgone⟩ | ⟨remaining, hbefore, hremaining⟩
        · cases hgone
        · obtain rfl := Option.some.inj hremaining
          simp only [AllocationEffect.Moves] at hmove
          refine ⟨after + amount, hbefore, by omega, fun hbound => ?_⟩
          exact Nat.lt_of_le_of_lt (Nat.le_add_right after amount) hbound
    | release domain amount =>
        rcases hsettles with ⟨-, hgone⟩ | ⟨available, hbefore, htotal, hbound⟩
        · cases hgone
        · obtain rfl := Option.some.inj htotal
          simp only [AllocationEffect.Moves] at hmove
          exact ⟨available, hbefore, by omega, fun _ => hbound⟩
  · refine ⟨after, ?_, by rw [hkept hnone], id⟩
    rw [← hafter]
    exact hsame.symm

/-- Capacity that is forgotten was invalidated. -/
theorem invalidated_of_forgotten (h : simulateAction projection action = .ok (result, next))
    {before : Nat} (hbefore : projection.available vg = some before)
    (hafter : next.available vg = none) :
    .invalidate (.lvmVolumeGroup vg) ∈ result.contract.predictedEffect.allocations := by
  rw [(simulateAction_ok h).1, describeAction_allocations]
  rcases simulateAction_capacity h (.lvmVolumeGroup vg) with
    ⟨effect, heffect, hdomain, hsettles⟩ | ⟨-, hsame⟩
  · rw [Projection.available] at hbefore hafter
    rw [hbefore, hafter] at hsettles
    cases effect with
    | invalidate domain =>
        rw [AllocationEffect.domain] at hdomain
        rw [hdomain] at heffect
        exact heffect
    | reserve domain amount => rcases hsettles with ⟨hgone, -⟩ | ⟨_, -, hgone⟩ <;> cases hgone
    | release domain amount => rcases hsettles with ⟨hgone, -⟩ | ⟨_, -, hgone, -⟩ <;> cases hgone
  · rw [Projection.available] at hbefore hafter
    rw [hafter, hbefore] at hsame
    cases hsame

end Step

/-! ### Replays -/

/-- **Volume group capacity is conserved.**  In every state of a replay from a valid graph in which
the free extents of a group are known, they were known at the start, free and allocated extents add
up to what they did there, and the counter is a `u64`.  A step that forgets them invalidates them,
and from then on they stay unknown. -/
theorem volume_group_capacity_conserved {projection : Projection}
    (hvalid : projection.graph.validateStructure = .ok ()) (vg : NodeId)
    (actions : List ProviderAction) :
    (∀ state, Reached projection actions state → ∀ after, state.available vg = some after →
      ∃ before, projection.available vg = some before ∧
        after + allocated state.graph vg = before + allocated projection.graph vg ∧
        (before < u64Bound → after < u64Bound)) ∧
    (∀ before action after result, ReplayStep projection actions before action after →
      simulateAction before action = .ok (result, after) → before.available vg ≠ none →
      after.available vg = none →
      .invalidate (.lvmVolumeGroup vg) ∈ result.contract.predictedEffect.allocations) ∧
    ∀ done rest before after, actions = done ++ rest →
      simulateActions projection done = .ok before → Reached before rest after →
      before.available vg = none → after.available vg = none := by
  refine ⟨fun state hstate => ?_, fun before action after result _ hsimulated hknown hgone => ?_, ?_⟩
  · have hinvariant : state.graph.validateStructure = .ok () ∧
        ∀ after, state.available vg = some after →
          ∃ before, projection.available vg = some before ∧
            after + allocated state.graph vg = before + allocated projection.graph vg ∧
            (before < u64Bound → after < u64Bound) := by
      refine reached_of_steps (P := fun state => state.graph.validateStructure = .ok () ∧
        ∀ after, state.available vg = some after →
          ∃ before, projection.available vg = some before ∧
            after + allocated state.graph vg = before + allocated projection.graph vg ∧
            (before < u64Bound → after < u64Bound)) ?_ ?_ hstate
      · exact ⟨hvalid, fun after hafter => ⟨after, hafter, rfl, id⟩⟩
      · rintro before action after hstep ⟨hbefore, hconserved⟩
        obtain ⟨result, hsimulated⟩ := hstep.simulated
        obtain ⟨_, _, _, -, -, -, -, hnext⟩ := simulateAction_desired hsimulated
        refine ⟨hnext, fun available havailable => ?_⟩
        obtain ⟨middle, hmiddle, hsum, hbound⟩ := capacity_conserved hbefore hsimulated havailable
        obtain ⟨first, hfirst, hsum', hbound'⟩ := hconserved middle hmiddle
        exact ⟨first, hfirst, by omega, fun h => hbound (hbound' h)⟩
    exact hinvariant.2
  · obtain ⟨known, hknown⟩ := Option.ne_none_iff_exists'.mp hknown
    exact invalidated_of_forgotten hsimulated hknown hgone
  · rintro done rest before after - - hafter hgone
    refine reached_of_steps (P := fun state => state.available vg = none) hgone ?_ hafter
    intro before action after hstep hbefore
    obtain ⟨result, hsimulated⟩ := hstep.simulated
    rcases simulateAction_capacity hsimulated (.lvmVolumeGroup vg) with
      ⟨effect, -, -, hsettles⟩ | ⟨-, hsame⟩
    · rw [Projection.available] at hbefore
      rw [hbefore] at hsettles
      cases effect with
      | invalidate => exact hsettles
      | reserve => rcases hsettles with ⟨-, hnone⟩ |
          ⟨_, hsome, -⟩ <;> first | exact hnone | cases hsome
      | release => rcases hsettles with ⟨-, hnone⟩ |
          ⟨_, hsome, -⟩ <;> first | exact hnone | cases hsome
    · exact hsame.trans hbefore

/-- A group of nine extents of four bytes, two of them free: one volume takes five, another two. -/
def pooledGroup : NodeId := ⟨1#128⟩

/-- The volume that is shrunk. -/
def pooledRoot : NodeId := ⟨2#128⟩

/-- The volume that grows into the space. -/
def pooledHome : NodeId := ⟨3#128⟩

/-- The volume added last. -/
def pooledVolume : NodeId := ⟨4#128⟩

/-- A volume group of four-byte extents with two linear volumes. -/
def pooledStart : Projection where
  desired :=
    { graph :=
        ((((NodeGraph.empty.setNode pooledGroup ⟨⟨.lvmVg "pool" (some 4), none⟩, {}⟩).setNode
          pooledRoot ⟨⟨.lvmLv ⟨"root", .linear⟩, some 20⟩, {}⟩).setNode
          pooledHome ⟨⟨.lvmLv ⟨"home", .linear⟩, some 8⟩, {}⟩).insertDependency
          ⟨pooledGroup, pooledRoot, .provides⟩).insertDependency
          ⟨pooledGroup, pooledHome, .provides⟩
      mounts := {}
      boot := .unmanaged
      intents := [] }
  evidence :=
    { availableCapacity :=
        Function.update (fun _ => none) (.lvmVolumeGroup pooledGroup) (some 2) }

/-- A volume of two extents is created and another removed; the third shrinks by two extents, and
what was created grows by one. -/
def pooledActions : List ProviderAction :=
  [.lvm (.createLv pooledGroup pooledVolume "data" 8 .linear), .lvm (.removeLv pooledHome),
    .lvm (.resizeLv pooledRoot 12), .lvm (.resizeLv pooledVolume 12)]

/-- Three extents are free in the end, and six are taken. -/
theorem pool_conserved :
    ∃ final, simulateActions pooledStart pooledActions = .ok final ∧
      final.available pooledGroup = some 3 ∧ 3 + allocated final.graph pooledGroup = 9 := by
  obtain ⟨final, hfinal, havailable⟩ : ∃ final,
      simulateActions pooledStart pooledActions = .ok final ∧
        final.available pooledGroup = some 3 := ⟨_, rfl, by decide +kernel⟩
  refine ⟨final, hfinal, havailable, ?_⟩
  have hvalid : pooledStart.graph.validateStructure = .ok () := rfl
  obtain ⟨before, hbefore, hsum, -⟩ := (volume_group_capacity_conserved hvalid pooledGroup
    pooledActions).1 final ⟨pooledActions, [], rfl, hfinal⟩ 3 havailable
  obtain rfl : 2 = before := Option.some.inj hbefore
  have htaken : allocated pooledStart.graph pooledGroup = 7 := by decide +kernel
  rw [hsum, htaken]

end DisksGraph
