import DisksGraph.Engine.Invariant

/-!
# Engine — Outcome

What one successful action has done to the graph and to the evidence.

* `GraphOutcome`: the six things an action can do to the graph, each with every node and every edge
  of the result.
* `simulateAction_outcome`: a successful action did one of them.
* `simulateAction_mem_dependencies`: the edges after a step, from the changes it predicts.
-/

namespace DisksGraph

open Support (foldlM_invariant foldlM_view except_bind_eq_ok)

/-! ### Effects that only touch edges -/

namespace Projection

variable {start changed : Projection} {edges : List Dependency}

theorem foldlM_insertDependency
    (h : (edges.map GraphEffect.insertDependency).foldlM applyGraphEffect start = .ok changed) :
    (∀ id, changed.graph.node id = start.graph.node id) ∧
      (∀ edge, edge ∈ changed.graph.dependencies ↔
        edge ∈ edges ∨ edge ∈ start.graph.dependencies) ∧
      changed.evidence = start.evidence := by
  induction edges generalizing start with
  | nil =>
      obtain rfl := Except.ok.inj h
      simp
  | cons edge rest ih =>
      obtain ⟨once, honce, hrest⟩ := except_bind_eq_ok.mp h
      obtain rfl := Except.ok.inj honce
      obtain ⟨hnodes, hedges, hevidence⟩ := ih hrest
      refine ⟨hnodes, fun other => ?_, hevidence⟩
      rw [hedges, List.mem_cons, or_assoc, or_left_comm]
      exact or_congr_right NodeGraph.mem_insertDependency

theorem foldlM_removeDependency
    (h : (edges.map GraphEffect.removeDependency).foldlM applyGraphEffect start = .ok changed) :
    (∀ id, changed.graph.node id = start.graph.node id) ∧
      (∀ edge, edge ∈ changed.graph.dependencies ↔
        edge ∉ edges ∧ edge ∈ start.graph.dependencies) ∧
      changed.evidence = start.evidence := by
  induction edges generalizing start with
  | nil =>
      obtain rfl := Except.ok.inj h
      simp
  | cons edge rest ih =>
      obtain ⟨once, honce, hrest⟩ := except_bind_eq_ok.mp h
      cases applyGraphEffect_step honce with
      | removeDependency hmem =>
          obtain ⟨hnodes, hedges, hevidence⟩ := ih hrest
          refine ⟨hnodes, fun other => ?_, hevidence⟩
          rw [hedges, List.mem_cons, not_or, and_comm (a := other ≠ edge), and_assoc]
          exact and_congr_right fun _ => NodeGraph.mem_removeDependency
      | update hid => cases hid

end Projection

/-! ### The shapes of a change -/

/-- The graph changes an action can predict. -/
inductive ChangeShape (graph : NodeGraph) : List GraphEffect → Prop
  | created {id : NodeId} {spec : NodeSpec} {edges : List Dependency} :
      ChangeShape graph (creation id spec edges)
  | updated {effect : GraphEffect} {id : NodeId} {update : Node → Option Node}
      (h : Projection.nodeUpdate effect = some (id, update)) : ChangeShape graph [effect]
  | linked {edge : Dependency} : ChangeShape graph [.insertDependency edge]
  | unlinked {edge : Dependency} : ChangeShape graph [.removeDependency edge]
  | removed {node : NodeId} : ChangeShape graph (removal graph node)
  | activated {node : NodeId} {active : Bool} : ChangeShape graph [.setActivation node active]
  | none : ChangeShape graph []

theorem ProviderAction.changeShape (action : ProviderAction) (graph : NodeGraph) :
    ChangeShape graph (action.graphChanges graph) := by
  cases action with
  | partition action =>
      cases action with
      | createTable => exact .created
      | create => exact .created
      | resize => exact .updated rfl
      | delete => exact .removed
      | setAttributes => exact .updated rfl
  | luks action =>
      cases action with
      | format => exact .created
      | «open» => exact .created
      | close => exact .removed
      | resize mapping size => cases size <;> exact .updated rfl
  | lvm action =>
      cases action with
      | createPv => exact .created
      | createVg => exact .created
      | createLv => exact .created
      | resizeLv => exact .updated rfl
      | removeLv => exact .removed
      | setActivation => exact .activated
  | filesystem action =>
      cases action with
      | create => exact .created
      | resize => exact .updated rfl
      | check => exact .none
      | repair => exact .none
      | setLabel => exact .updated rfl
  | btrfs action =>
      cases action with
      | create => exact .created
      | addDevice => exact .linked
      | removeDevice => exact .unlinked
      | convertProfiles => exact .updated rfl
      | createSubvolume => exact .created
  | mount => exact .none

/-- What a successful action with these changes has done to a graph. -/
inductive GraphOutcome (graph next : NodeGraph) : List GraphEffect → Prop
  | created {id : NodeId} {spec : NodeSpec} {edges : List Dependency}
      (habsent : graph.node id = none)
      (hnodes : ∀ other, next.node other = if other = id then some ⟨spec, {}⟩ else graph.node other)
      (hedges : ∀ edge, edge ∈ next.dependencies ↔ edge ∈ edges ∨ edge ∈ graph.dependencies) :
      GraphOutcome graph next (creation id spec edges)
  | updated {effect : GraphEffect} {id : NodeId} {update : Node → Option Node} {old value : Node}
      (h : Projection.nodeUpdate effect = some (id, update)) (hold : graph.node id = some old)
      (hvalue : update old = some value)
      (hnodes : ∀ other, next.node other = if other = id then some value else graph.node other)
      (hedges : ∀ edge, edge ∈ next.dependencies ↔ edge ∈ graph.dependencies) :
      GraphOutcome graph next [effect]
  | linked {edge : Dependency} (hnodes : ∀ other, next.node other = graph.node other)
      (hedges : ∀ other, other ∈ next.dependencies ↔ other = edge ∨ other ∈ graph.dependencies) :
      GraphOutcome graph next [.insertDependency edge]
  | unlinked {edge : Dependency} (hmem : edge ∈ graph.dependencies)
      (hnodes : ∀ other, next.node other = graph.node other)
      (hedges : ∀ other, other ∈ next.dependencies ↔ other ≠ edge ∧ other ∈ graph.dependencies) :
      GraphOutcome graph next [.removeDependency edge]
  | removed {node : NodeId}
      (hnodes : ∀ other, next.node other = if other = node then none else graph.node other)
      (hedges : ∀ edge, edge ∈ next.dependencies ↔
        edge ∈ graph.dependencies ∧ edge.source ≠ node ∧ edge.target ≠ node) :
      GraphOutcome graph next (removal graph node)
  | kept {effects : List GraphEffect}
      (h : effects = [] ∨ ∃ node active, effects = [.setActivation node active])
      (hnodes : ∀ other, next.node other = graph.node other)
      (hedges : ∀ edge, edge ∈ next.dependencies ↔ edge ∈ graph.dependencies) :
      GraphOutcome graph next effects

theorem mem_incidentDependencies {graph : NodeGraph} {node : NodeId} {edge : Dependency} :
    edge ∈ incidentDependencies graph node ↔
      edge ∈ graph.dependencies ∧ (edge.source = node ∨ edge.target = node) := by
  rw [incidentDependencies, List.mem_filter, Bool.or_eq_true, beq_iff_eq, beq_iff_eq]

/-- The membership edge that `RemoveDevice` removes. -/
def removedMembership (graph : NodeGraph) (filesystem device : NodeId) : Dependency :=
  (graph.dependencies.find? fun edge =>
    edge.source == device && edge.target == filesystem && edge.kind.isBtrfsMember).getD
      (btrfsMembership device filesystem)

theorem removedMembership_ends {graph : NodeGraph} {filesystem device : NodeId} :
    (removedMembership graph filesystem device).source = device ∧
      (removedMembership graph filesystem device).target = filesystem ∧
      (removedMembership graph filesystem device).kind.isBtrfsMember = true := by
  rw [removedMembership]
  cases hfind : graph.dependencies.find? _ with
  | none => exact ⟨rfl, rfl, rfl⟩
  | some edge =>
      have hedge := List.find?_some hfind
      simp only [Bool.and_eq_true, beq_iff_eq] at hedge
      exact ⟨hedge.1.1, hedge.1.2, hedge.2⟩

/-- The edges an action inserts lead to the node it creates; the membership of an added device is
the one that does not. -/
theorem inserted_target {action : ProviderAction} {graph : NodeGraph} {edge : Dependency}
    (h : .insertDependency edge ∈ action.graphChanges graph)
    (hkind : edge.kind.isBtrfsMember = false) :
    ∃ spec, .insertNode edge.target spec ∈ action.graphChanges graph := by
  have hcreation : ∀ {id : NodeId} {spec : NodeSpec} {edges : List Dependency},
      .insertDependency edge ∈ creation id spec edges → (∀ edge ∈ edges, edge.target = id) →
      .insertNode edge.target spec ∈ creation id spec edges := by
    intro id spec edges hmem htargets
    have hedge : edge ∈ edges := by simpa [creation] using hmem
    rw [htargets edge hedge]
    exact List.mem_cons_self
  cases action with
  | partition action =>
      cases action with
      | createTable | create => exact ⟨_, hcreation h (by simp)⟩
      | delete => simp [ProviderAction.graphChanges, PartitionAction.graphChanges, removal] at h
      | resize | setAttributes =>
          simp [ProviderAction.graphChanges, PartitionAction.graphChanges] at h
  | luks action =>
      cases action with
      | format | «open» => exact ⟨_, hcreation h (by simp)⟩
      | close => simp [ProviderAction.graphChanges, LuksAction.graphChanges, removal] at h
      | resize mapping size =>
          cases size <;> simp [ProviderAction.graphChanges, LuksAction.graphChanges] at h
  | lvm action =>
      cases action with
      | createPv | createVg | createLv => exact ⟨_, hcreation h (by simp)⟩
      | removeLv => simp [ProviderAction.graphChanges, LvmAction.graphChanges, removal] at h
      | resizeLv | setActivation => simp [ProviderAction.graphChanges, LvmAction.graphChanges] at h
  | filesystem action =>
      cases action with
      | create => exact ⟨_, hcreation h (by simp)⟩
      | _ => simp [ProviderAction.graphChanges, FilesystemAction.graphChanges] at h
  | btrfs action =>
      cases action with
      | create | createSubvolume => exact ⟨_, hcreation h (by simp [btrfsMembership])⟩
      | addDevice =>
          cases List.mem_singleton.mp h
          cases hkind
      | removeDevice | convertProfiles =>
          simp [ProviderAction.graphChanges, BtrfsAction.graphChanges] at h
  | mount action => cases h

/-- The edges an action removes are those of the node it removes, or the membership of a device. -/
theorem removed_of_removeDependency {action : ProviderAction} {graph : NodeGraph}
    {edge : Dependency} (h : .removeDependency edge ∈ action.graphChanges graph) :
    (∃ node, action.removed = some node ∧ edge ∈ incidentDependencies graph node) ∨
      ∃ filesystem device, action = .btrfs (.removeDevice filesystem device) ∧
        edge = removedMembership graph filesystem device := by
  have hcreation : ∀ {id : NodeId} {spec : NodeSpec} {edges : List Dependency},
      GraphEffect.removeDependency edge ∉ creation id spec edges := by
    simp [creation]
  have hremoval : ∀ {node : NodeId}, .removeDependency edge ∈ removal graph node →
      edge ∈ incidentDependencies graph node := by
    intro node hmem
    simpa [removal] using hmem
  cases action with
  | partition action =>
      cases action with
      | createTable | create => exact absurd h hcreation
      | delete partition => exact .inl ⟨partition, rfl, hremoval h⟩
      | resize | setAttributes =>
          simp [ProviderAction.graphChanges, PartitionAction.graphChanges] at h
  | luks action =>
      cases action with
      | format | «open» => exact absurd h hcreation
      | close mapping => exact .inl ⟨mapping, rfl, hremoval h⟩
      | resize mapping size =>
          cases size <;> simp [ProviderAction.graphChanges, LuksAction.graphChanges] at h
  | lvm action =>
      cases action with
      | createPv | createVg | createLv => exact absurd h hcreation
      | removeLv lv => exact .inl ⟨lv, rfl, hremoval h⟩
      | resizeLv | setActivation => simp [ProviderAction.graphChanges, LvmAction.graphChanges] at h
  | filesystem action =>
      cases action with
      | create => exact absurd h hcreation
      | _ => simp [ProviderAction.graphChanges, FilesystemAction.graphChanges] at h
  | btrfs action =>
      cases action with
      | create | createSubvolume => exact absurd h hcreation
      | removeDevice filesystem device =>
          have heq := GraphEffect.removeDependency.inj (List.mem_singleton.mp h)
          exact .inr ⟨filesystem, device, rfl, heq⟩
      | addDevice | convertProfiles =>
          simp [ProviderAction.graphChanges, BtrfsAction.graphChanges] at h
  | mount action => cases h

theorem Projection.outcome_of_foldlM {start changed : Projection} {effects : List GraphEffect}
    (hshape : ChangeShape start.graph effects)
    (h : effects.foldlM applyGraphEffect start = .ok changed) :
    GraphOutcome start.graph changed.graph effects := by
  -- A shape is one effect, or one effect and the edges of its node.
  have hsingle : ∀ {effect : GraphEffect}, [effect].foldlM applyGraphEffect start = .ok changed →
      start.applyGraphEffect effect = .ok changed := by
    intro effect h
    obtain ⟨once, honce, hrest⟩ := except_bind_eq_ok.mp h
    obtain rfl := Except.ok.inj hrest
    exact honce
  cases hshape with
  | @created id spec edges =>
      obtain ⟨inserted, hinserted, hrest⟩ := except_bind_eq_ok.mp h
      obtain ⟨hnodes, hedges, -⟩ := foldlM_insertDependency hrest
      cases applyGraphEffect_step hinserted with
      | insertNode hcontains =>
          rw [NodeGraph.contains, Option.isSome_eq_false_iff, Option.isNone_iff_eq_none]
            at hcontains
          exact .created hcontains (fun other => (hnodes other).trans NodeGraph.node_setNode) hedges
      | update hid => cases hid
  | @updated effect id update hupdate =>
      obtain ⟨old, value, hold, hvalue, hgraph⟩ := applyGraphEffect_update (hsingle h) hupdate
      refine .updated hupdate hold hvalue (fun other => ?_) fun edge => ?_
      · rw [hgraph, NodeGraph.node_setNode]
      · rw [hgraph, NodeGraph.dependencies_setNode]
  | linked =>
      obtain rfl := Except.ok.inj (hsingle h)
      exact .linked (fun _ => rfl) fun _ => NodeGraph.mem_insertDependency
  | unlinked =>
      cases applyGraphEffect_step (hsingle h) with
      | removeDependency hmem =>
          exact .unlinked hmem (fun _ => rfl) fun _ => NodeGraph.mem_removeDependency
      | update hid => cases hid
  | @removed node =>
      obtain ⟨without, hwithout, hrest⟩ := except_bind_eq_ok.mp h
      obtain ⟨hnodes, hedges, -⟩ := foldlM_removeDependency hrest
      cases applyGraphEffect_step hwithout with
      | removeNode hcontains =>
          refine .removed (fun other => (hnodes other).trans NodeGraph.node_removeNode)
            fun edge => ?_
          rw [hedges, mem_incidentDependencies]
          change ¬(edge ∈ start.graph.dependencies ∧ _) ∧ edge ∈ start.graph.dependencies ↔ _
          tauto
      | update hid => cases hid
  | activated =>
      cases applyGraphEffect_step (hsingle h) with
      | setActivation _ => exact .kept (.inr ⟨_, _, rfl⟩) (fun _ => rfl) fun _ => Iff.rfl
      | update hid => cases hid
  | none =>
      obtain rfl := Except.ok.inj h
      exact .kept (.inl rfl) (fun _ => rfl) fun _ => Iff.rfl

/-- The node whose presence or properties an effect changes. -/
def GraphEffect.touched : GraphEffect → Option NodeId
  | .insertNode id _ | .removeNode id => some id
  | .setNodeSize node _ | .invalidateNodeSize node => some node
  | .setPartitionAttributes partition _ => some partition
  | .setFilesystemLabel filesystem _ | .setBtrfsAllocation filesystem _ => some filesystem
  | _ => none

theorem touched_of_nodeUpdate {effect : GraphEffect} {id : NodeId} {update : Node → Option Node}
    (h : Projection.nodeUpdate effect = some (id, update)) : effect.touched = some id := by
  unfold Projection.nodeUpdate at h
  split at h
  all_goals cases h
  all_goals rfl

/-- An update leaves a node the kind it is. -/
theorem nodeUpdate_matches {effect : GraphEffect} {id : NodeId} {update : Node → Option Node}
    {old value : Node} (h : Projection.nodeUpdate effect = some (id, update))
    (hvalue : update old = some value) (expected : NodeKindClass) :
    matchesKind value.kind.kind expected = matchesKind old.kind.kind expected := by
  have hsize : ∀ {size : Option Bytes}, Projection.setSize size old = some value →
      value.kind.kind = old.kind.kind := by
    rintro size hset
    obtain rfl := Option.some.inj hset
    rfl
  unfold Projection.nodeUpdate at h
  split at h
  all_goals cases h
  · rw [hsize hvalue]
  · rw [hsize hvalue]
  · unfold Projection.setAttributes at hvalue
    split at hvalue
    · next hkind =>
      obtain rfl := Option.some.inj hvalue
      rw [hkind]
      cases expected <;> rfl
    · cases hvalue
  · unfold Projection.setLabel at hvalue
    split at hvalue
    · next kind _ hkind =>
      obtain rfl := Option.some.inj hvalue
      rw [hkind]
      cases kind <;> cases expected <;> rfl
    · cases hvalue
  · unfold Projection.setAllocation at hvalue
    split at hvalue
    · next hkind =>
      obtain rfl := Option.some.inj hvalue
      rw [hkind]
      cases expected <;> rfl
    · cases hvalue

/-- An update leaves the observations of a node as they are. -/
theorem nodeUpdate_size {effect : GraphEffect} {id : NodeId} {update : Node → Option Node}
    {old value : Node} (h : Projection.nodeUpdate effect = some (id, update))
    (hvalue : update old = some value) : value.size = old.size := by
  unfold Projection.nodeUpdate at h
  split at h
  all_goals cases h
  · obtain rfl := Option.some.inj hvalue
    rfl
  · obtain rfl := Option.some.inj hvalue
    rfl
  · unfold Projection.setAttributes at hvalue
    split at hvalue <;> cases hvalue
    rfl
  · unfold Projection.setLabel at hvalue
    split at hvalue <;> cases hvalue
    rfl
  · unfold Projection.setAllocation at hvalue
    split at hvalue <;> cases hvalue
    rfl

/-- An action touches the node it creates and its subject. -/
theorem touched_cases {action : ProviderAction} {graph : NodeGraph} {effect : GraphEffect}
    {id : NodeId} (h : effect ∈ action.graphChanges graph) (hid : effect.touched = some id) :
    (∃ spec, .insertNode id spec ∈ action.graphChanges graph) ∨
      ∃ expected, action.subject = some (id, expected) := by
  have hcreation : ∀ {planned : NodeId} {spec : NodeSpec} {edges : List Dependency},
      effect ∈ creation planned spec edges → .insertNode id spec ∈ creation planned spec edges := by
    intro planned spec edges hmem
    rcases List.mem_cons.mp hmem with rfl | hmem
    · cases hid
      exact List.mem_cons_self
    · obtain ⟨edge, -, rfl⟩ := List.mem_map.mp hmem
      cases hid
  have hremoval : ∀ {node : NodeId}, effect ∈ removal graph node → node = id := by
    intro node hmem
    rcases List.mem_cons.mp hmem with rfl | hmem
    · exact Option.some.inj hid
    · obtain ⟨edge, -, rfl⟩ := List.mem_map.mp hmem
      cases hid
  have hsingle : ∀ {other : GraphEffect}, effect ∈ [other] → other.touched = some id := by
    intro other hmem
    rw [← List.mem_singleton.mp hmem]
    exact hid
  cases action with
  | partition action =>
      cases action with
      | createTable | create => exact .inl ⟨_, hcreation h⟩
      | delete => exact .inr ⟨_, by rw [← hremoval h]; rfl⟩
      | resize | setAttributes => exact .inr ⟨_, by rw [← Option.some.inj (hsingle h)]; rfl⟩
  | luks action =>
      cases action with
      | format | «open» => exact .inl ⟨_, hcreation h⟩
      | close => exact .inr ⟨_, by rw [← hremoval h]; rfl⟩
      | resize mapping size =>
          cases size <;> exact .inr ⟨_, by rw [← Option.some.inj (hsingle h)]; rfl⟩
  | lvm action =>
      cases action with
      | createPv | createVg | createLv => exact .inl ⟨_, hcreation h⟩
      | removeLv => exact .inr ⟨_, by rw [← hremoval h]; rfl⟩
      | resizeLv => exact .inr ⟨_, by rw [← Option.some.inj (hsingle h)]; rfl⟩
      | setActivation => cases hsingle h
  | filesystem action =>
      cases action with
      | create => exact .inl ⟨_, hcreation h⟩
      | resize | setLabel => exact .inr ⟨_, by rw [← Option.some.inj (hsingle h)]; rfl⟩
      | check | repair => cases h
  | btrfs action =>
      cases action with
      | create | createSubvolume => exact .inl ⟨_, hcreation h⟩
      | addDevice | removeDevice => cases hsingle h
      | convertProfiles => exact .inr ⟨_, by rw [← Option.some.inj (hsingle h)]; rfl⟩
  | mount action => cases h

namespace GraphOutcome

variable {graph next : NodeGraph} {effects : List GraphEffect}

/-- The edges after a step are those it inserts and those it does not remove. -/
theorem mem_dependencies (h : GraphOutcome graph next effects) (edge : Dependency) :
    edge ∈ next.dependencies ↔ .insertDependency edge ∈ effects ∨
      edge ∈ graph.dependencies ∧ .removeDependency edge ∉ effects := by
  cases h with
  | created _ _ hedges => simp [hedges, creation]
  | @updated effect _ _ _ _ hupdate _ _ _ hedges =>
      have hinsert : effect ≠ .insertDependency edge := by
        rintro rfl
        cases hupdate
      have hremove : effect ≠ .removeDependency edge := by
        rintro rfl
        cases hupdate
      simp [hedges, hinsert.symm, hremove.symm]
  | linked _ hedges => simp [hedges]
  | unlinked hmem _ hedges => simp [hedges, and_comm]
  | removed _ hedges =>
      simp only [hedges, removal, List.mem_cons, List.mem_map, reduceCtorEq, false_or, and_false,
        exists_false, GraphEffect.removeDependency.injEq, exists_eq_right, mem_incidentDependencies]
      tauto
  | kept hkept _ hedges => rcases hkept with rfl | ⟨node, active, rfl⟩ <;> simp [hedges]

/-- A node that a step inserts was absent before it, and is what the step says after it. -/
theorem of_insertNode (h : GraphOutcome graph next effects) {id : NodeId} {spec : NodeSpec}
    (hinsert : .insertNode id spec ∈ effects) :
    graph.node id = none ∧
      ∀ other, next.node other = if other = id then some ⟨spec, {}⟩ else graph.node other := by
  cases h with
  | @created id' spec' _ habsent hnodes =>
      have hhead : id = id' ∧ spec = spec' := by simpa [creation] using hinsert
      obtain ⟨rfl, rfl⟩ := hhead
      exact ⟨habsent, hnodes⟩
  | updated hupdate =>
      obtain rfl := List.mem_singleton.mp hinsert
      cases hupdate
  | linked => simp at hinsert
  | unlinked => simp at hinsert
  | removed => simp [removal] at hinsert
  | kept hkept => rcases hkept with rfl | ⟨node, active, rfl⟩ <;> simp at hinsert

/-- A node that a step removes is gone after it. -/
theorem of_removeNode (h : GraphOutcome graph next effects) {node : NodeId}
    (hremove : .removeNode node ∈ effects) :
    ∀ other, next.node other = if other = node then none else graph.node other := by
  cases h with
  | created => simp [creation] at hremove
  | updated hupdate =>
      obtain rfl := List.mem_singleton.mp hremove
      cases hupdate
  | linked => simp at hremove
  | unlinked => simp at hremove
  | @removed node' hnodes =>
      have hnode : node = node' := by simpa [removal] using hremove
      rw [hnode]
      exact hnodes
  | kept hkept => rcases hkept with rfl | ⟨node, active, rfl⟩ <;> simp at hremove

/-- A node that a step updates was there before it, and only that node changes. -/
theorem of_update (h : GraphOutcome graph next effects) {effect : GraphEffect} {id : NodeId}
    {update : Node → Option Node} (heffect : effect ∈ effects)
    (hupdate : Projection.nodeUpdate effect = some (id, update)) :
    ∃ old value, graph.node id = some old ∧ update old = some value ∧
      (∀ other, next.node other = if other = id then some value else graph.node other) ∧
      ∀ edge, edge ∈ next.dependencies ↔ edge ∈ graph.dependencies := by
  cases h with
  | created =>
      rcases List.mem_cons.mp heffect with rfl | hmem
      · cases hupdate
      · obtain ⟨edge, -, rfl⟩ := List.mem_map.mp hmem
        cases hupdate
  | @updated _ _ _ old value hupdate' hold hvalue hnodes hedges =>
      obtain rfl := List.mem_singleton.mp heffect
      obtain ⟨rfl, rfl⟩ := Prod.mk.inj (Option.some.inj (hupdate'.symm.trans hupdate))
      exact ⟨old, value, hold, hvalue, hnodes, hedges⟩
  | linked =>
      obtain rfl := List.mem_singleton.mp heffect
      cases hupdate
  | unlinked =>
      obtain rfl := List.mem_singleton.mp heffect
      cases hupdate
  | removed =>
      rcases List.mem_cons.mp heffect with rfl | hmem
      · cases hupdate
      · obtain ⟨edge, -, rfl⟩ := List.mem_map.mp hmem
        cases hupdate
  | kept hkept =>
      rcases hkept with rfl | ⟨node, active, rfl⟩
      · cases heffect
      · obtain rfl := List.mem_singleton.mp heffect
        cases hupdate

/-- A node that appears is inserted as it is. -/
theorem inserted_of_appears (h : GraphOutcome graph next effects) {id : NodeId} {new : Node}
    (habsent : graph.node id = none) (hnew : next.node id = some new) :
    ∃ spec, .insertNode id spec ∈ effects ∧ new = ⟨spec, {}⟩ := by
  have hsame : next.node id ≠ graph.node id := by
    rw [habsent, hnew]
    exact Option.some_ne_none new
  cases h with
  | @created id' spec _ _ hnodes =>
      by_cases hid : id = id'
      · subst hid
        rw [hnodes, if_pos rfl] at hnew
        exact ⟨spec, List.mem_cons_self, (Option.some.inj hnew).symm⟩
      · exact absurd (by rw [hnodes, if_neg hid]) hsame
  | @updated _ id' _ _ _ _ hstored _ hnodes =>
      by_cases hid : id = id'
      · rw [hid, hstored] at habsent
        cases habsent
      · exact absurd (by rw [hnodes, if_neg hid]) hsame
  | linked hnodes => exact absurd (hnodes id) hsame
  | unlinked _ hnodes => exact absurd (hnodes id) hsame
  | @removed node hnodes =>
      by_cases hid : id = node
      · rw [hnodes, if_pos hid] at hnew
        cases hnew
      · exact absurd (by rw [hnodes, if_neg hid]) hsame
  | kept _ hnodes => exact absurd (hnodes id) hsame

/-- A node that is there before and after a step is the same, or was updated. -/
theorem updated_of_stays (h : GraphOutcome graph next effects) {id : NodeId} {old new : Node}
    (hold : graph.node id = some old) (hnew : next.node id = some new) :
    new = old ∨ ∃ effect update, Projection.nodeUpdate effect = some (id, update) ∧
      update old = some new := by
  have hsame : next.node id = graph.node id → new = old := by
    intro hnode
    rw [hnode, hold] at hnew
    exact (Option.some.inj hnew).symm
  cases h with
  | @created id' _ _ habsent hnodes =>
      by_cases hid : id = id'
      · rw [hid, habsent] at hold
        cases hold
      · exact .inl (hsame (by rw [hnodes, if_neg hid]))
  | @updated effect id' update _ _ hupdate hstored hvalue hnodes =>
      by_cases hid : id = id'
      · subst hid
        rw [hnodes, if_pos rfl] at hnew
        rw [hold] at hstored
        obtain rfl := Option.some.inj hnew
        obtain rfl := Option.some.inj hstored
        exact .inr ⟨effect, update, hupdate, hvalue⟩
      · exact .inl (hsame (by rw [hnodes, if_neg hid]))
  | linked hnodes => exact .inl (hsame (hnodes id))
  | unlinked _ hnodes => exact .inl (hsame (hnodes id))
  | @removed node hnodes =>
      by_cases hid : id = node
      · rw [hnodes, if_pos hid] at hnew
        cases hnew
      · exact .inl (hsame (by rw [hnodes, if_neg hid]))
  | kept _ hnodes => exact .inl (hsame (hnodes id))

/-- A node that is there before and after a step keeps its kind. -/
theorem matches_of_stays (h : GraphOutcome graph next effects) {id : NodeId} {old new : Node}
    (hold : graph.node id = some old) (hnew : next.node id = some new) (expected : NodeKindClass) :
    matchesKind new.kind.kind expected = matchesKind old.kind.kind expected := by
  rcases h.updated_of_stays hold hnew with rfl | ⟨effect, update, hupdate, hvalue⟩
  · rfl
  · exact nodeUpdate_matches hupdate hvalue expected

/-- A node that is there before and after a step keeps its observations. -/
theorem size_of_stays (h : GraphOutcome graph next effects) {id : NodeId} {old new : Node}
    (hold : graph.node id = some old) (hnew : next.node id = some new) : new.size = old.size := by
  rcases h.updated_of_stays hold hnew with rfl | ⟨effect, update, hupdate, hvalue⟩
  · rfl
  · exact nodeUpdate_size hupdate hvalue

/-- A node that no effect removes stays. -/
theorem stays (h : GraphOutcome graph next effects) {id : NodeId} {old : Node}
    (hold : graph.node id = some old) (hkept : .removeNode id ∉ effects) :
    ∃ new, next.node id = some new := by
  cases h with
  | created habsent hnodes | updated _ _ _ hnodes =>
      rw [hnodes]
      split
      · exact ⟨_, rfl⟩
      · exact ⟨old, hold⟩
  | linked hnodes => exact ⟨old, (hnodes id).trans hold⟩
  | unlinked _ hnodes => exact ⟨old, (hnodes id).trans hold⟩
  | removed hnodes =>
      rw [hnodes, if_neg]
      · exact ⟨old, hold⟩
      · rintro rfl
        exact hkept List.mem_cons_self
  | kept _ hnodes => exact ⟨old, (hnodes id).trans hold⟩

/-- A node that no effect names stays as it is. -/
theorem node_of_untouched (h : GraphOutcome graph next effects) {id : NodeId}
    (huntouched : ∀ effect ∈ effects, effect.touched ≠ some id) :
    next.node id = graph.node id := by
  cases h with
  | @created id' _ _ _ hnodes =>
      have hne : id ≠ id' := by
        rintro rfl
        exact huntouched _ List.mem_cons_self rfl
      rw [hnodes, if_neg hne]
  | @updated effect id' _ _ _ hupdate _ _ hnodes =>
      have hne : id ≠ id' := by
        rintro rfl
        exact huntouched effect (List.mem_singleton_self _) (touched_of_nodeUpdate hupdate)
      rw [hnodes, if_neg hne]
  | linked hnodes => exact hnodes id
  | unlinked _ hnodes => exact hnodes id
  | @removed node hnodes =>
      have hne : id ≠ node := by
        rintro rfl
        exact huntouched _ List.mem_cons_self rfl
      rw [hnodes, if_neg hne]
  | kept _ hnodes => exact hnodes id

end GraphOutcome

theorem removeNode_of_removed {action : ProviderAction} {graph : NodeGraph} {node : NodeId}
    (h : action.removed = some node) : .removeNode node ∈ action.graphChanges graph := by
  unfold ProviderAction.removed at h
  split at h
  all_goals cases h
  all_goals exact List.mem_cons_self

section Action

variable {projection next : Projection} {action : ProviderAction} {result : SimulatedAction}

/-- **What one successful action has done to the graph.** -/
theorem simulateAction_outcome (h : simulateAction projection action = .ok (result, next)) :
    GraphOutcome projection.graph next.graph (action.graphChanges projection.graph) := by
  obtain ⟨start, changed, mounted, hstart, hchanged, hmounted, hnext, -⟩ := simulateAction_desired h
  have hgraph : start.graph = projection.graph := congrArg DesiredState.graph hstart
  have hmounts : mounted.graph = changed.graph :=
    foldlM_view Projection.graph
      (fun _ _ _ _ hstep => (Projection.applyMountEffect_step hstep).graph_eq) hmounted
  have hnext' : next.graph = changed.graph := (congrArg DesiredState.graph hnext).trans hmounts
  rw [hnext', ← hgraph]
  exact Projection.outcome_of_foldlM (action.changeShape start.graph) (hgraph ▸ hchanged)

/-- The edges after a step. -/
theorem simulateAction_mem_dependencies
    (h : simulateAction projection action = .ok (result, next)) (edge : Dependency) :
    edge ∈ next.graph.dependencies ↔
      .insertDependency edge ∈ action.graphChanges projection.graph ∨
        edge ∈ projection.graph.dependencies ∧
          .removeDependency edge ∉ action.graphChanges projection.graph :=
  (simulateAction_outcome h).mem_dependencies edge

/-- A step removes edges into the node it removes, which has no other, or one membership. -/
theorem simulateAction_unlinks (h : simulateAction projection action = .ok (result, next))
    {edge : Dependency} (hedge : edge ∈ projection.graph.dependencies)
    (hgone : edge ∉ next.graph.dependencies) :
    (action.removed = some edge.target ∧ edge.source ≠ edge.target ∧
        next.graph.node edge.target = none) ∨
      ∃ filesystem device, action = .btrfs (.removeDevice filesystem device) ∧
        edge = removedMembership projection.graph filesystem device := by
  have hremoved : .removeDependency edge ∈ action.graphChanges projection.graph := by
    by_contra hkept
    exact hgone ((simulateAction_mem_dependencies h edge).mpr (.inr ⟨hedge, hkept⟩))
  rcases removed_of_removeDependency hremoved with ⟨node, hnode, hincident⟩ | hdevice
  · have hunused := simulateAction_requires h (describeAction_removed hnode)
    have hsource := (unused_of_noUnexpectedConsumers hunused).1 edge hedge
    rcases (mem_incidentDependencies.mp hincident).2 with hsource' | rfl
    · exact absurd hsource' hsource
    · refine .inl ⟨hnode, hsource, ?_⟩
      rw [(simulateAction_outcome h).of_removeNode (removeNode_of_removed hnode), if_pos rfl]
  · exact .inr hdevice

end Action

end DisksGraph
