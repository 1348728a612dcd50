import DisksGraph.Engine.Consumers
import DisksGraph.Engine.Replay

/-!
# Engine — Groups

The members of volume groups and of Btrfs filesystems.

No check counts them.  A group is created over the list it is given, the empty one included, and a
device leaves a filesystem whether or not it is the last.

* `Populated`: every group has a member.
* `KeepsMembers`: the step creates no group without a member and removes no last one.
* `replay_populated_iff`: the states of a replay are populated exactly when every step is such.
-/

namespace DisksGraph

/-! ### Members -/

namespace NodeKind

/-- A volume group or a Btrfs filesystem. -/
def isGroup : NodeKind → Bool
  | .lvmVg .. | .filesystem (.btrfs _) _ => true
  | _ => false

/-- An edge of this kind into such a node comes from a member. -/
def joinedBy : NodeKind → DependencyKind → Bool
  | .lvmVg .., .memberOf _ => true
  | .filesystem (.btrfs _) _, .memberOf _ | .filesystem (.btrfs _) _, .backs => true
  | _, _ => false

end NodeKind

/-- The edge comes from a member of the node. -/
def Dependency.JoinsAs (edge : Dependency) (kind : NodeKind) (id : NodeId) : Prop :=
  edge.target = id ∧ kind.joinedBy edge.kind = true

instance (edge : Dependency) (kind : NodeKind) (id : NodeId) : Decidable (edge.JoinsAs kind id) :=
  inferInstanceAs (Decidable (_ ∧ _))

/-- Every volume group and every Btrfs filesystem has a member. -/
def Populated (graph : NodeGraph) : Prop :=
  ∀ id kind, graph.kindOf id = some kind → kind.isGroup → ∃ edge ∈ graph.dependencies,
    edge.JoinsAs kind id

/-- A group that the action creates is given a member, and a filesystem that it takes a device from
has another one. -/
def KeepsMembers (graph : NodeGraph) : ProviderAction → Prop
  | .lvm (.createVg id name pvs) =>
      pvs ≠ [] ∨ ∃ edge ∈ graph.dependencies, edge.JoinsAs (.lvmVg name none) id
  | .btrfs (.create members id label allocation) =>
      members ≠ [] ∨ ∃ edge ∈ graph.dependencies,
        edge.JoinsAs (.filesystem (.btrfs allocation) label) id
  | .btrfs (.removeDevice filesystem device) =>
      ∃ edge ∈ graph.dependencies, edge ≠ removedMembership graph filesystem device ∧
        edge.target = filesystem ∧ edge.kind.isClaim
  | _ => True

/-! ### One step -/

theorem isGroup_eq {kind : NodeKind} :
    kind.isGroup = (matchesKind kind .lvmVg || matchesKind kind .btrfsFilesystem) := by
  cases kind with
  | filesystem format label => cases format <;> rfl
  | _ => rfl

/-- The edges that join a group's members. -/
theorem joinedBy_eq {kind : NodeKind} {edge : DependencyKind} :
    kind.joinedBy edge = (matchesKind kind .lvmVg && edge.discriminant == .memberOf ||
      matchesKind kind .btrfsFilesystem && edge.isClaim) := by
  cases kind with
  | filesystem format label => cases format <;> cases edge <;> rfl
  | _ => cases edge <;> rfl

section Step

variable {graph next : NodeGraph} {effects : List GraphEffect}

/-- A group after a step was one before it, or is one the step inserts. -/
theorem GraphOutcome.group_origin (h : GraphOutcome graph next effects) {id : NodeId}
    {kind : NodeKind} (hkind : next.kindOf id = some kind) (hgroup : kind.isGroup) :
    (∃ old, graph.kindOf id = some old ∧ old.isGroup ∧
        ∀ edge, old.joinedBy edge = kind.joinedBy edge) ∨
      ∃ spec, .insertNode id spec ∈ effects ∧ spec.kind = kind := by
  obtain ⟨new, hnew, rfl⟩ := Option.map_eq_some_iff.mp hkind
  cases hold : graph.node id with
  | some old =>
      have hmatches := h.matches_of_stays hold hnew
      refine .inl ⟨old.kind.kind, by rw [NodeGraph.kindOf, hold]; rfl, ?_, fun edge => ?_⟩
      · rw [isGroup_eq, ← hmatches, ← hmatches, ← isGroup_eq]
        exact hgroup
      · rw [joinedBy_eq, joinedBy_eq, hmatches, hmatches]
  | none =>
      obtain ⟨spec, hinsert, hspec⟩ := h.inserted_of_appears hold hnew
      exact .inr ⟨spec, hinsert, by rw [hspec]⟩

/-- A step that gives every new group a member and takes none from the old ones. -/
theorem Populated.of_outcome (hgraph : Populated graph) (h : GraphOutcome graph next effects)
    (hnew : ∀ id spec, .insertNode id spec ∈ effects → spec.kind.isGroup →
      ∃ edge, edge.JoinsAs spec.kind id ∧
        (.insertDependency edge ∈ effects ∨
          edge ∈ graph.dependencies ∧ .removeDependency edge ∉ effects))
    (hgone : ∀ edge, .removeDependency edge ∈ effects →
      ∀ kind, next.kindOf edge.target = some kind → kind.isGroup →
      ∃ other ∈ next.dependencies, other.JoinsAs kind edge.target) : Populated next := by
  intro id kind hkind hgroup
  rcases h.group_origin hkind hgroup with ⟨old, hold, hisGroup, hjoined⟩ | ⟨spec, hinsert, rfl⟩
  · obtain ⟨edge, hedge, rfl, hjoins⟩ := hgraph id old hold hisGroup
    by_cases hremoved : .removeDependency edge ∈ effects
    · exact hgone edge hremoved kind hkind hgroup
    · refine ⟨edge, (h.mem_dependencies edge).mpr (.inr ⟨hedge, hremoved⟩), rfl, ?_⟩
      rw [← hjoined]
      exact hjoins
  · obtain ⟨edge, hjoins, hedge⟩ := hnew id spec hinsert hgroup
    exact ⟨edge, (h.mem_dependencies edge).mpr hedge, hjoins⟩

end Step

/-- A group that an action inserts is given a member, as far as the action keeps members. -/
theorem member_of_insertNode {action : ProviderAction} {graph : NodeGraph} {id : NodeId}
    {spec : NodeSpec} (h : .insertNode id spec ∈ action.graphChanges graph)
    (hgroup : spec.kind.isGroup) (hkeeps : KeepsMembers graph action) :
    ∃ edge, edge.JoinsAs spec.kind id ∧
      (.insertDependency edge ∈ action.graphChanges graph ∨
        edge ∈ graph.dependencies ∧ .removeDependency edge ∉ action.graphChanges graph) := by
  -- Every insertion is the head of a creation.
  have hcreation : ∀ {id' : NodeId} {spec' : NodeSpec} {edges : List Dependency},
      .insertNode id spec ∈ creation id' spec' edges → id = id' ∧ spec = spec' := by
    intro id' spec' edges hmem
    simpa [creation] using hmem
  have hmembers : ∀ {edges : List Dependency},
      (∀ edge ∈ edges, edge.JoinsAs spec.kind id) →
      (edges ≠ [] ∨ ∃ edge ∈ graph.dependencies, edge.JoinsAs spec.kind id) →
      action.graphChanges graph = creation id spec edges →
      ∃ edge, edge.JoinsAs spec.kind id ∧
        (.insertDependency edge ∈ action.graphChanges graph ∨
          edge ∈ graph.dependencies ∧ .removeDependency edge ∉ action.graphChanges graph) := by
    rintro edges hjoins (hne | ⟨edge, hedge, hjoin⟩) hchanges
    · obtain ⟨edge, hedge⟩ := List.exists_mem_of_ne_nil edges hne
      refine ⟨edge, hjoins edge hedge, .inl ?_⟩
      rw [hchanges]
      exact List.mem_cons_of_mem _ (List.mem_map_of_mem hedge)
    · refine ⟨edge, hjoin, .inr ⟨hedge, ?_⟩⟩
      rw [hchanges]
      simp [creation]
  cases action with
  | partition action =>
      cases action with
      | createTable | create =>
          obtain ⟨-, rfl⟩ := hcreation h
          cases hgroup
      | _ => simp [ProviderAction.graphChanges, PartitionAction.graphChanges, removal] at h
  | luks action =>
      cases action with
      | format | «open» =>
          obtain ⟨-, rfl⟩ := hcreation h
          cases hgroup
      | close => simp [ProviderAction.graphChanges, LuksAction.graphChanges, removal] at h
      | resize mapping size =>
          cases size <;> simp [ProviderAction.graphChanges, LuksAction.graphChanges] at h
  | lvm action =>
      cases action with
      | createPv | createLv =>
          obtain ⟨-, rfl⟩ := hcreation h
          cases hgroup
      | createVg plannedNodeId name pvs =>
          obtain ⟨rfl, rfl⟩ := hcreation h
          refine hmembers (fun edge hedge => ?_) (hkeeps.imp_left (mt List.map_eq_nil_iff.mp)) rfl
          obtain ⟨pv, -, rfl⟩ := List.mem_map.mp hedge
          exact ⟨rfl, rfl⟩
      | _ => simp [ProviderAction.graphChanges, LvmAction.graphChanges, removal] at h
  | filesystem action =>
      cases action with
      | create backing plannedNodeId filesystem label =>
          obtain ⟨rfl, rfl⟩ := hcreation h
          refine hmembers (fun edge hedge => ?_) (.inl (List.cons_ne_nil _ _)) rfl
          obtain rfl := List.mem_singleton.mp hedge
          refine ⟨rfl, ?_⟩
          -- Only Btrfs is a group, and a backing edge is a claim on it.
          cases filesystem <;> first | rfl | cases hgroup
      | _ => simp [ProviderAction.graphChanges, FilesystemAction.graphChanges] at h
  | btrfs action =>
      cases action with
      | create members plannedNodeId label allocation =>
          obtain ⟨rfl, rfl⟩ := hcreation h
          refine hmembers (fun edge hedge => ?_) (hkeeps.imp_left (mt List.map_eq_nil_iff.mp)) rfl
          obtain ⟨member, -, rfl⟩ := List.mem_map.mp hedge
          exact ⟨rfl, rfl⟩
      | createSubvolume =>
          obtain ⟨-, rfl⟩ := hcreation h
          cases hgroup
      | _ => simp [ProviderAction.graphChanges, BtrfsAction.graphChanges] at h
  | mount action => cases h

section Action

variable {projection next : Projection} {action : ProviderAction} {result : SimulatedAction}

/-- A device leaves a Btrfs filesystem. -/
theorem kind_of_removeDevice {filesystem device : NodeId}
    (h : simulateAction projection (.btrfs (.removeDevice filesystem device)) =
      .ok (result, next)) :
    ∃ allocation label,
      projection.graph.kindOf filesystem = some (.filesystem (.btrfs allocation) label) := by
  have hrequires : (describeAction (.btrfs (.removeDevice filesystem device))
      projection.graph).Requires (.nodeKind filesystem .btrfsFilesystem) := by
    rw [requires_describeAction, describeTechnology, describeBtrfs, btrfsMembershipContract]
    simp
  obtain ⟨kind, hkind, hmatches⟩ := kind_of_nodeKind (simulateAction_requires h hrequires)
  cases kind with
  | filesystem format label =>
      cases format with
      | btrfs allocation => exact ⟨allocation, label, hkind⟩
      | _ => cases hmatches
  | _ => cases hmatches

theorem kindOf_next_removeDevice {filesystem device id : NodeId}
    (h : simulateAction projection (.btrfs (.removeDevice filesystem device)) =
      .ok (result, next)) : next.graph.kindOf id = projection.graph.kindOf id := by
  cases simulateAction_outcome h with
  | unlinked _ hnodes => rw [NodeGraph.kindOf, hnodes, NodeGraph.kindOf]
  | updated hupdate => cases hupdate
  | kept hkept => rcases hkept with hkept | ⟨_, _, hkept⟩ <;> cases hkept

theorem joinedBy_btrfs {allocation : BtrfsAllocation} {label : Option String}
    {edge : DependencyKind} :
    (NodeKind.filesystem (.btrfs allocation) label).joinedBy edge = edge.isClaim := by
  cases edge <;> rfl

/-- A step after which every group has members removed no last one. -/
theorem keepsMembers_of_populated (h : simulateAction projection action = .ok (result, next))
    (hnext : Populated next.graph) : KeepsMembers projection.graph action := by
  have houtcome := simulateAction_outcome h
  -- A group the action creates has a member in the next graph: one it was given, or an old one.
  have hnew : ∀ {id : NodeId} {spec : NodeSpec} {edges : List Dependency},
      action.graphChanges projection.graph = creation id spec edges → spec.kind.isGroup →
      edges ≠ [] ∨ ∃ edge ∈ projection.graph.dependencies, edge.JoinsAs spec.kind id := by
    intro id spec edges hchanges hgroup
    rw [hchanges] at houtcome
    have hnode := (houtcome.of_insertNode List.mem_cons_self).2 id
    rw [if_pos rfl] at hnode
    have hkind : next.graph.kindOf id = some spec.kind := by
      rw [NodeGraph.kindOf, hnode]
      rfl
    obtain ⟨edge, hedge, hjoins⟩ := hnext id spec.kind hkind hgroup
    rcases (houtcome.mem_dependencies edge).mp hedge with hinserted | ⟨hold, -⟩
    · refine .inl fun hnil => ?_
      subst hnil
      simp [creation] at hinserted
    · exact .inr ⟨edge, hold, hjoins⟩
  unfold KeepsMembers
  split
  · exact (hnew rfl rfl).imp_left (mt List.map_eq_nil_iff.mpr)
  · exact (hnew rfl rfl).imp_left (mt List.map_eq_nil_iff.mpr)
  · next filesystem device =>
    obtain ⟨allocation, label, hkind⟩ := kind_of_removeDevice h
    rw [← kindOf_next_removeDevice h] at hkind
    obtain ⟨edge, hedge, htarget, hjoined⟩ := hnext filesystem _ hkind rfl
    rw [joinedBy_btrfs] at hjoined
    rcases (houtcome.mem_dependencies edge).mp hedge with hinserted | ⟨hold, hstays⟩
    · cases List.mem_singleton.mp hinserted
    · refine ⟨edge, hold, fun heq => hstays ?_, htarget, hjoined⟩
      rw [heq]
      exact List.mem_singleton_self _
  · trivial

/-- A step that removes no last member leaves no group empty. -/
theorem populated_of_keepsMembers (h : simulateAction projection action = .ok (result, next))
    (hgraph : Populated projection.graph) (hkeeps : KeepsMembers projection.graph action) :
    Populated next.graph := by
  have houtcome := simulateAction_outcome h
  refine hgraph.of_outcome houtcome (fun id spec hinsert hgroup => ?_) ?_
  · exact member_of_insertNode hinsert hgroup hkeeps
  · intro edge hremove kind hkind hgroup
    rcases removed_of_removeDependency hremove with ⟨node, hnode, hincident⟩ |
      ⟨fs, device, rfl, rfl⟩
    · -- The node that goes has no consumer, so the edge led into it.
      have hunused := simulateAction_requires h (describeAction_removed hnode)
      obtain ⟨hedge, hsource | rfl⟩ := mem_incidentDependencies.mp hincident
      · exact absurd hsource ((unused_of_noUnexpectedConsumers hunused).1 edge hedge)
      · rw [NodeGraph.kindOf, houtcome.of_removeNode (removeNode_of_removed hnode), if_pos rfl]
          at hkind
        cases hkind
    · obtain ⟨other, hother, hne, htarget, hclaim⟩ := hkeeps
      obtain ⟨allocation, label, hbtrfs⟩ := kind_of_removeDevice h
      rw [removedMembership_ends.2.1, kindOf_next_removeDevice h, hbtrfs] at hkind
      obtain rfl := Option.some.inj hkind
      refine ⟨other, (houtcome.mem_dependencies other).mpr (.inr ⟨hother, fun hmem => ?_⟩), ?_, ?_⟩
      · exact hne (GraphEffect.removeDependency.inj (List.mem_singleton.mp hmem))
      · rw [htarget, removedMembership_ends.2.1]
      · rw [joinedBy_btrfs]
        exact hclaim

end Action

/-! ### Replays -/

/-- **Groups never become empty.**  From a populated baseline, every state of a replay is populated
exactly when every step keeps members. -/
theorem replay_populated_iff {projection : Projection} (hbaseline : Populated projection.graph)
    (actions : List ProviderAction) :
    (∀ state, Reached projection actions state → Populated state.graph) ↔
      ∀ before action after, ReplayStep projection actions before action after →
        KeepsMembers before.graph action := by
  constructor
  · intro hall before action after hstep
    obtain ⟨result, hsimulated⟩ := hstep.simulated
    exact keepsMembers_of_populated hsimulated (hall after hstep.reached_after)
  · intro hkeeps state hstate
    refine reached_of_steps (P := fun state => Populated state.graph) hbaseline ?_ hstate
    intro before action after hstep hbefore
    obtain ⟨result, hsimulated⟩ := hstep.simulated
    exact populated_of_keepsMembers hsimulated hbefore (hkeeps before action after hstep)

/-- A Btrfs filesystem over two disks. -/
def pairedFilesystem : NodeId := ⟨1#128⟩

/-- The first device of the filesystem. -/
def pairedFirst : NodeId := ⟨2#128⟩

/-- The second device of the filesystem. -/
def pairedSecond : NodeId := ⟨3#128⟩

/-- A Btrfs filesystem on two disks. -/
def pairedGraph : NodeGraph :=
  ((((NodeGraph.empty.setNode pairedFilesystem
    ⟨⟨.filesystem (.btrfs ⟨∅, ∅, ∅⟩) none, none⟩, {}⟩).setNode pairedFirst
    ⟨⟨.disk, some 100⟩, {}⟩).setNode pairedSecond ⟨⟨.disk, some 100⟩, {}⟩).insertDependency
    (btrfsMembership pairedFirst pairedFilesystem)).insertDependency
    (btrfsMembership pairedSecond pairedFilesystem)

/-- The pair with no mounts and no evidence. -/
def pairedProjection : Projection := ⟨⟨pairedGraph, {}, .unmanaged, []⟩, {}⟩

theorem populated_pairedGraph : Populated pairedGraph := by
  intro id kind hkind hgroup
  have hid : id = pairedFilesystem := by
    by_contra hne
    have hnode : pairedGraph.node id = if id = pairedSecond then some ⟨⟨.disk, some 100⟩, {}⟩
        else if id = pairedFirst then some ⟨⟨.disk, some 100⟩, {}⟩ else none := by
      simp only [pairedGraph, NodeGraph.node_insertDependency, NodeGraph.node_setNode, if_neg hne]
      rfl
    rw [NodeGraph.kindOf, hnode] at hkind
    split at hkind
    · cases hkind
      cases hgroup
    · split at hkind
      · cases hkind
        cases hgroup
      · cases hkind
  subst hid
  cases hkind
  exact ⟨btrfsMembership pairedFirst pairedFilesystem, by decide, rfl, rfl⟩

/-- One of the two disks may leave. -/
theorem first_device_leaves :
    Populated pairedProjection.graph ∧
      ∀ state, Reached pairedProjection
        [.btrfs (.removeDevice pairedFilesystem pairedFirst)] state → Populated state.graph := by
  have hbaseline : Populated pairedProjection.graph := populated_pairedGraph
  refine ⟨hbaseline, (replay_populated_iff hbaseline _).mpr ?_⟩
  rintro before action after ⟨⟨done, rest, hactions, hbefore⟩, -⟩
  rcases done with _ | ⟨first, done⟩
  · obtain ⟨rfl, -⟩ := List.cons.inj hactions
    obtain rfl := Except.ok.inj hbefore
    exact ⟨btrfsMembership pairedSecond pairedFilesystem, by decide, by decide, rfl, rfl⟩
  · exact absurd (List.cons.inj hactions).2 (by simp)

/-- A volume group over nothing. -/
theorem empty_group_created :
    ¬∀ projection actions, Populated projection.graph →
      ∀ state, Reached projection actions state → Populated state.graph := by
  intro hall
  let nothing : Projection := ⟨⟨.empty, {}, .unmanaged, []⟩, {}⟩
  have hempty : Populated nothing.graph := by
    intro id kind hkind
    cases hkind
  have hreached : Reached nothing [.lvm (.createVg pairedFilesystem "data" [])] _ :=
    ⟨[.lvm (.createVg pairedFilesystem "data" [])], [], rfl, rfl⟩
  obtain ⟨edge, hedge, -⟩ := hall nothing _ hempty _ hreached pairedFilesystem _ rfl rfl
  cases hedge

end DisksGraph
