import DisksGraph.Engine.Consumers
import DisksGraph.Engine.Tracked
import DisksGraph.Engine.Protect

/-!
# Engine — Locks

What the write locks of a contract say about the step that the simulator takes.

A contract locks what its action changes on purpose.  Two kinds of consequence are outside that: the
runtime claims below an activation, which the step reports as invalidated facts, and the other end
of an edge, which the predicted effect names.

* `simulateAction_claims`: the runtime claims that a step leaves alone.
* `write_locks_cover`: which changes of a step are locked, exactly.
-/

namespace DisksGraph

open Support (foldlM_view)

/-! ### What a step changes -/

/-- The node's specification or a runtime claim about it differs. -/
def NodeDiffers (before after : Projection) (node : NodeId) : Prop :=
  (before.graph.node node).map Node.kind ≠ (after.graph.node node).map Node.kind ∨
    before.evidence.activations node ≠ after.evidence.activations node ∨
    before.evidence.blockInterfaces node ≠ after.evidence.blockInterfaces node

/-- The set of dependency edges at the node differs. -/
def EdgesDiffer (before after : NodeGraph) (node : NodeId) : Prop :=
  ∃ edge : Dependency, (edge.source = node ∨ edge.target = node) ∧
    ¬(edge ∈ before.dependencies ↔ edge ∈ after.dependencies)

/-- The contract locks the edges of the node: the node itself, or the metadata domain that owns
them. -/
def ActionContract.LocksEdges (contract : ActionContract) (graph : NodeGraph) (node : NodeId) :
    Prop :=
  contract.Writes (.node node) ∨
    (∃ table, graph.kindOf node = some (.partitionTable table)) ∧
      contract.Writes (.partitionTable node) ∨
    (∃ name extent, graph.kindOf node = some (.lvmVg name extent)) ∧
      contract.Writes (.lvmMetadata node)

namespace ProviderAction

/-- The node lies below one whose activation is set. -/
def ActivatesAbove (graph : NodeGraph) (action : ProviderAction) (node : NodeId) : Prop :=
  ∃ target active, action = .lvm (.setActivation target active) ∧ node ≠ target ∧
    Relation.ReflTransGen graph.Edge target node

/-- The metadata domain that owns the edge into what an action removes. -/
def owner (graph : NodeGraph) : ProviderAction → Option NodeId
  | .partition (.delete node) => partitionTable graph node
  | .lvm (.removeLv lv) => lvmVolumeGroup graph lv
  | _ => none

/-- The far end of an edge that appears with a mapping, or goes with a removed node that it does not
own. -/
def FarEnd (graph : NodeGraph) (action : ProviderAction) (node : NodeId) : Prop :=
  (∃ plannedNodeId name credential readOnly,
    action = .luks (.open node plannedNodeId name credential readOnly)) ∨
  ∃ gone, action.removed = some gone ∧ node ≠ gone ∧ action.owner graph ≠ some node

end ProviderAction

/-! ### Runtime claims -/

section Claims

variable {projection projection' : Projection} {node : NodeId}

theorem applyGraphEffect_claims {effect : GraphEffect}
    (h : projection.applyGraphEffect effect = .ok projection')
    (hremove : effect ≠ .removeNode node) (hset : ∀ active, effect ≠ .setActivation node active) :
    projection'.evidence.claims node = projection.evidence.claims node := by
  cases Projection.applyGraphEffect_step h with
  | removeNode _ =>
      have hne : node ≠ _ := fun heq => hremove (congrArg _ heq.symm)
      exact RuntimeClaims.ext (Function.update_of_ne hne _ _) (Function.update_of_ne hne _ _) rfl
  | @setActivation id active _ =>
      have hne : node ≠ id := fun heq => hset active (by rw [heq])
      refine RuntimeClaims.ext (Function.update_of_ne hne _ _) ?_ rfl
      cases active with
      | true => rfl
      | false => exact Function.update_of_ne hne _ _
  | update _ =>
      rw [Projection.markProjected]
      split <;> rfl
  | _ => rfl

/-- The scope of an activation is the node and what lies below it. -/
theorem mem_activationScope {graph : NodeGraph} {target : NodeId} :
    node ∈ activationScope graph target ↔ Relation.ReflTransGen graph.Edge target node := by
  have hbounded : Support.Bounded (sortedConsumers graph) Dependency.source graph.dependencies := by
    intro id
    rw [sortedConsumers, List.length_insertionSort]
    exact graph.bounded_consumers id
  have hedge : ∀ a b, b ∈ sortedConsumers graph a ↔ graph.Edge a b := by
    intro a b
    rw [sortedConsumers, List.mem_insertionSort, NodeGraph.mem_consumers]
  rw [activationScope, List.mem_reverse, Support.mem_explore hbounded (by simp)]
  simp only [List.mem_singleton, exists_eq_left, Support.Reachable, hedge]

/-- A fact is revoked when it is declared, or lies below an activation that is declared. -/
theorem mem_expandInvalidations {graph : NodeGraph} {invalidations : List FactInvalidation}
    {fact : FactInvalidation} :
    fact ∈ expandInvalidations graph invalidations ↔ fact ∈ invalidations ∨
      ∃ target below, activationFact target ∈ invalidations ∧
        Relation.ReflTransGen graph.Edge target below ∧ fact = activationFact below := by
  -- One fact, then the scope of one declared fact, then all declared facts.
  have hpush : ∀ facts added fact, fact ∈ pushNew facts added ↔ fact ∈ facts ∨ added = fact := by
    intro facts added fact
    rw [pushNew]
    split
    · next hmem =>
      refine ⟨.inl, ?_⟩
      rintro (h | rfl)
      · exact h
      · exact hmem
    · rw [List.mem_append, List.mem_singleton, eq_comm]
  refine (Support.foldl_view (V := fun facts fact => fact ∈ facts) (E := fun invalidation fact =>
    ∃ target below, invalidation = activationFact target ∧
      Relation.ReflTransGen graph.Edge target below ∧
        fact = activationFact below) ?_ _ _ fact).trans ?_
  · intro expanded invalidation fact
    have hactivation : ∀ target, invalidation.activationNode = some target ↔
        invalidation = activationFact target := by
      obtain ⟨scope, kind⟩ := invalidation
      intro target
      cases scope <;> cases kind <;> simp [FactInvalidation.activationNode, activationFact]
    cases hnode : invalidation.activationNode with
    | none => simp [← hactivation, hnode]
    | some node =>
        dsimp only
        rw [Support.foldl_view (V := fun facts fact => fact ∈ facts) hpush]
        simp [← hactivation, hnode, mem_activationScope, eq_comm]
  · refine or_congr_right ⟨?_, ?_⟩
    · rintro ⟨_, hdeclared, target, below, rfl, hbelow, rfl⟩
      exact ⟨target, below, hdeclared, hbelow, rfl⟩
    · rintro ⟨target, below, hdeclared, hbelow, rfl⟩
      exact ⟨_, hdeclared, target, below, rfl, hbelow, rfl⟩

end Claims

section Step

variable {projection next : Projection} {action : ProviderAction} {result : SimulatedAction}
  {node : NodeId}

/-- **The runtime claims that a step leaves alone**: those about a node that it does not remove, set
or open, and whose claims it does not revoke. -/
theorem simulateAction_claims (h : simulateAction projection action = .ok (result, next))
    (hremove : .removeNode node ∉ action.graphChanges projection.graph)
    (hset : ∀ active, .setActivation node active ∉ action.graphChanges projection.graph)
    (houtputs : ∀ access,
      .blockInterface node access ∉ (describeAction action projection.graph).providedOutputs)
    (hrevoked : ∀ fact ∈ expandInvalidations projection.graph (action.staleFacts projection.graph),
      fact.revokedNode ≠ some node) :
    next.evidence.claims node = projection.evidence.claims node := by
  obtain ⟨changed, mounted, evidence, hchanged, hmounted, hallocated, rfl⟩ :=
    simulateAction_stages h
  rw [describeAction_facts] at hchanged
  calc
    (evidence.applyOutputs _).claims node
    _ = evidence.claims node := Projection.applyOutputs_claims houtputs
    _ = mounted.evidence.claims node := Projection.applyAllocationEffects_claims hallocated
    _ = changed.evidence.claims node :=
      foldlM_view (·.evidence.claims node) (fun _ _ _ _ hstep =>
        congrArg NodeView.claims (Projection.applyMountEffect_nodeView hstep)) hmounted
    _ = (projection.evidence.revoked projection.graph (action.staleFacts projection.graph)).claims
          node := by
      refine foldlM_view (·.evidence.claims node) (fun effect hmem _ _ hstep => ?_) hchanged
      refine applyGraphEffect_claims hstep ?_ ?_
      · rintro rfl
        exact hremove hmem
      · rintro active rfl
        exact hset active hmem
    _ = projection.evidence.claims node := Projection.invalidateObservations_claims hrevoked

/-! ### Which changes are locked -/

theorem locks_of_inserted {graph : NodeGraph} {spec : NodeSpec}
    (h : .insertNode node spec ∈ action.graphChanges graph) : .node node ∈ action.locks graph :=
  writes_describeAction.mp (writes_describeAction_iff.mpr (.inr ⟨node, rfl, .inl ⟨spec, h⟩⟩))

theorem locks_of_subject {graph : NodeGraph} {expected : NodeKindClass}
    (h : action.subject = some (node, expected)) : .node node ∈ action.locks graph := by
  unfold ProviderAction.subject at h
  split at h
  all_goals cases h
  all_goals exact List.mem_cons_self

theorem subject_of_removed (h : action.removed = some node) :
    ∃ expected, action.subject = some (node, expected) := by
  unfold ProviderAction.removed at h
  split at h
  all_goals cases h
  all_goals exact ⟨_, rfl⟩

theorem locks_of_removed {graph : NodeGraph} (h : action.removed = some node) :
    .node node ∈ action.locks graph := by
  obtain ⟨_, hsubject⟩ := subject_of_removed h
  exact locks_of_subject hsubject

/-- Only a removal makes the presence of a node stale. -/
theorem removed_of_stale {graph : NodeGraph}
    (h : ⟨.node node, .presence⟩ ∈ action.staleFacts graph) : action.removed = some node := by
  unfold ProviderAction.staleFacts at h
  split at h
  all_goals simp [staleTable] at h
  all_goals exact congrArg some h.symm

/-- Only `SetActivation` makes the activation of a node stale. -/
theorem activation_of_stale {graph : NodeGraph}
    (h : activationFact node ∈ action.staleFacts graph) :
    ∃ active, action = .lvm (.setActivation node active) := by
  unfold ProviderAction.staleFacts at h
  split at h
  all_goals simp [staleTable, activationFact] at h
  next active => exact ⟨active, by rw [h]⟩

theorem revokedNode_eq_some {fact : FactInvalidation} :
    fact.revokedNode = some node ↔
      fact = activationFact node ∨ fact = ⟨.node node, .presence⟩ := by
  obtain ⟨scope, kind⟩ := fact
  cases scope <;> cases kind <;> simp [FactInvalidation.revokedNode, activationFact]

/-- The node of every claim that a step revokes is locked, or lies below an activation. -/
theorem locks_of_revoked {graph : NodeGraph} {fact : FactInvalidation}
    (h : fact ∈ expandInvalidations graph (action.staleFacts graph))
    (hnode : fact.revokedNode = some node) :
    .node node ∈ action.locks graph ∨ action.ActivatesAbove graph node := by
  rcases mem_expandInvalidations.mp h with hdeclared | ⟨target, below, hdeclared, hbelow, rfl⟩
  · rcases revokedNode_eq_some.mp hnode with rfl | rfl
    · obtain ⟨active, rfl⟩ := activation_of_stale hdeclared
      exact .inl List.mem_cons_self
    · exact .inl (locks_of_removed (removed_of_stale hdeclared))
  · obtain ⟨active, rfl⟩ := activation_of_stale hdeclared
    obtain rfl : below = node := Option.some.inj hnode
    by_cases hself : below = target
    · subst hself
      exact .inl List.mem_cons_self
    · exact .inr ⟨target, active, rfl, hself, hbelow⟩

/-- Only `SetActivation` records an activation. -/
theorem locks_of_setActivation {graph : NodeGraph} {active : Bool}
    (h : .setActivation node active ∈ action.graphChanges graph) :
    .node node ∈ action.locks graph := by
  cases action with
  | partition action =>
      cases action <;>
        simp [ProviderAction.graphChanges, PartitionAction.graphChanges, creation, removal] at h
  | luks action =>
      cases action with
      | resize mapping size =>
          cases size <;> simp [ProviderAction.graphChanges, LuksAction.graphChanges] at h
      | _ => simp [ProviderAction.graphChanges, LuksAction.graphChanges, creation, removal] at h
  | lvm action =>
      cases action <;>
        simp [ProviderAction.graphChanges, LvmAction.graphChanges, creation, removal] at h
      obtain ⟨rfl, -⟩ := h
      exact List.mem_cons_self
  | filesystem action =>
      cases action <;>
        simp [ProviderAction.graphChanges, FilesystemAction.graphChanges, creation] at h
  | btrfs action =>
      cases action <;>
        simp [ProviderAction.graphChanges, BtrfsAction.graphChanges, creation] at h
  | mount action => cases h

/-- A node that a step changes is locked, or lies below an activation. -/
theorem locks_of_differs (h : simulateAction projection action = .ok (result, next))
    (hdiffers : NodeDiffers projection next node) :
    .node node ∈ action.locks projection.graph ∨
      action.ActivatesAbove projection.graph node := by
  by_contra hnone
  obtain ⟨hunlocked, hbelow⟩ := not_or.mp hnone
  have hvalue : next.graph.node node = projection.graph.node node := by
    refine (simulateAction_outcome h).node_of_untouched fun effect heffect htouched => ?_
    rcases touched_cases heffect htouched with ⟨spec, hinsert⟩ | ⟨expected, hsubject⟩
    · exact hunlocked (locks_of_inserted hinsert)
    · exact hunlocked (locks_of_subject hsubject)
  have hclaims : next.evidence.claims node = projection.evidence.claims node := by
    refine simulateAction_claims h ?_ ?_ ?_ ?_
    · intro hremove
      exact hunlocked (locks_of_removed (removed_of_removeNode hremove))
    · intro active hset
      exact hunlocked (locks_of_setActivation hset)
    · intro access houtput
      exact hunlocked (writes_describeAction.mp (describeAction_blockInterface houtput))
    · intro fact hfact hnode
      exact hnone (locks_of_revoked hfact hnode)
  rcases hdiffers with hspec | hactivation | hinterface
  · exact hspec (by rw [hvalue])
  · exact hactivation (congrArg RuntimeClaims.activation hclaims).symm
  · exact hinterface (congrArg RuntimeClaims.blockInterface hclaims).symm

/-- An edge that a step inserts is locked at both ends, or its source owns it, or a mapping opens
over its source. -/
theorem locks_of_insertDependency {graph : NodeGraph} {edge : Dependency}
    (h : .insertDependency edge ∈ action.graphChanges graph) :
    .node edge.target ∈ action.locks graph ∧ (.node edge.source ∈ action.locks graph ∨
      (.partitionTable edge.source ∈ action.locks graph ∧
        (describeAction action graph).Requires (.nodeKind edge.source .partitionTable)) ∨
      (.lvmMetadata edge.source ∈ action.locks graph ∧
        (describeAction action graph).Requires (.nodeKind edge.source .lvmVg)) ∨
      ∃ plannedNodeId name credential readOnly,
        action = .luks (.open edge.source plannedNodeId name credential readOnly)) := by
  -- The partition table or the volume group owns the edges that its actions insert; the others lock
  -- both ends, or open a mapping.
  rw [requires_describeAction, requires_describeAction]
  cases action with
  | partition action =>
      cases action <;>
        simp [ProviderAction.graphChanges, PartitionAction.graphChanges, creation, removal] at h
      all_goals
        subst h
        simp [ProviderAction.locks, describeTechnology, requires_describePartition,
          describePartitionAction]
  | luks action =>
      cases action with
      | resize mapping size =>
          cases size <;> simp [ProviderAction.graphChanges, LuksAction.graphChanges] at h
      | close mapping =>
          simp [ProviderAction.graphChanges, LuksAction.graphChanges, removal] at h
      | format | «open» =>
          simp [ProviderAction.graphChanges, LuksAction.graphChanges, creation] at h
          subst h
          simp [ProviderAction.locks]
  | lvm action =>
      cases action <;>
        simp [ProviderAction.graphChanges, LvmAction.graphChanges, creation, removal] at h
      case createVg =>
          obtain ⟨pv, hpv, rfl⟩ := h
          simp [ProviderAction.locks, hpv]
      all_goals
        subst h
        simp [ProviderAction.locks, describeTechnology, describeLvm]
  | filesystem action =>
      cases action <;>
        simp [ProviderAction.graphChanges, FilesystemAction.graphChanges, creation] at h
      subst h
      simp [ProviderAction.locks]
  | btrfs action =>
      cases action <;>
        simp [ProviderAction.graphChanges, BtrfsAction.graphChanges, creation] at h
      case create =>
          obtain ⟨member, hmember, rfl⟩ := h
          simp [ProviderAction.locks, btrfsMembership, hmember]
      all_goals
        subst h
        simp [ProviderAction.locks, btrfsMembership]
  | mount action => cases h

/-- The domain that owns the edge into what an action removes is locked, and is what it should
be. -/
theorem locks_of_owner {graph : NodeGraph} (h : action.owner graph = some node) :
    (∃ table, graph.kindOf node = some (.partitionTable table)) ∧
        .partitionTable node ∈ action.locks graph ∨
      (∃ name extent, graph.kindOf node = some (.lvmVg name extent)) ∧
        .lvmMetadata node ∈ action.locks graph := by
  unfold ProviderAction.owner at h
  split at h
  · next partition =>
    refine .inl ⟨?_, by simp [ProviderAction.locks, h]⟩
    unfold partitionTable at h
    split at h
    · split at h
      · next hkind =>
        cases h
        exact ⟨_, hkind⟩
      · cases h
    · cases h
  · next lv =>
    refine .inr ⟨?_, by simp [ProviderAction.locks, h]⟩
    unfold lvmVolumeGroup at h
    split at h
    · split at h
      · next hkind =>
        cases h
        exact ⟨_, _, hkind⟩
      · cases h
    · cases h
  · cases h

/-- The edges of a node that a step changes are locked, or the node is their far end. -/
theorem locks_of_edgesDiffer (h : simulateAction projection action = .ok (result, next))
    (hdiffer : EdgesDiffer projection.graph next.graph node) :
    (describeAction action projection.graph).LocksEdges projection.graph node ∨
      action.FarEnd projection.graph node := by
  obtain ⟨edge, hend, hchanged⟩ := hdiffer
  -- The edge is one the action inserts or removes, as the simulation changes no other.
  have hcases : .insertDependency edge ∈ action.graphChanges projection.graph ∨
      .removeDependency edge ∈ action.graphChanges projection.graph := by
    by_contra hnone
    obtain ⟨hinsert, hremove⟩ := not_or.mp hnone
    refine hchanged ?_
    rw [simulateAction_mem_dependencies h]
    simp [hinsert, hremove]
  rcases hcases with hinsert | hremove
  · obtain ⟨htarget, hsource⟩ := locks_of_insertDependency hinsert
    rcases hend with rfl | rfl
    · rcases hsource with hlocked | ⟨hlocked, hkind⟩ | ⟨hlocked, hkind⟩ | hopened
      · exact .inl (.inl (writes_describeAction.mpr hlocked))
      · obtain ⟨kind, hkind, hmatches⟩ := kind_of_nodeKind (simulateAction_requires h hkind)
        refine .inl (.inr (.inl ⟨?_, writes_describeAction.mpr hlocked⟩))
        cases kind <;> first | exact ⟨_, hkind⟩ | cases hmatches
      · obtain ⟨kind, hkind, hmatches⟩ := kind_of_nodeKind (simulateAction_requires h hkind)
        refine .inl (.inr (.inr ⟨?_, writes_describeAction.mpr hlocked⟩))
        cases kind <;> first | exact ⟨_, _, hkind⟩ | cases hmatches
      · exact .inr (.inl hopened)
    · exact .inl (.inl (writes_describeAction.mpr htarget))
  · rcases removed_of_removeDependency hremove with ⟨gone, hgone, -⟩ |
      ⟨filesystem, device, rfl, rfl⟩
    -- What is removed takes its edges along: the other end is the owner, or a far end.
    · by_cases hself : node = gone
      · subst hself
        exact .inl (.inl (writes_describeAction.mpr (locks_of_removed hgone)))
      · by_cases howner : action.owner projection.graph = some node
        · rcases locks_of_owner howner with ⟨hkind, hlocked⟩ | ⟨hkind, hlocked⟩
          · exact .inl (.inr (.inl ⟨hkind, writes_describeAction.mpr hlocked⟩))
          · exact .inl (.inr (.inr ⟨hkind, writes_describeAction.mpr hlocked⟩))
        · exact .inr (.inr ⟨gone, hgone, hself, howner⟩)
    · obtain ⟨hsource, htarget, -⟩ :=
        @removedMembership_ends projection.graph filesystem device
      refine .inl (.inl (writes_describeAction.mpr ?_))
      rcases hend with rfl | rfl
      · rw [hsource]
        simp [ProviderAction.locks]
      · rw [htarget]
        simp [ProviderAction.locks]

/-- What lies below an activation is not locked. -/
theorem unlocked_of_activatesAbove {graph : NodeGraph} (h : action.ActivatesAbove graph node) :
    .node node ∉ action.locks graph := by
  obtain ⟨target, active, rfl, hne, -⟩ := h
  simp [ProviderAction.locks, hne]

/-- A far end is not locked. -/
theorem unlocked_of_farEnd (h : simulateAction projection action = .ok (result, next))
    (hfar : action.FarEnd projection.graph node) :
    ¬(describeAction action projection.graph).LocksEdges projection.graph node := by
  simp only [ActionContract.LocksEdges, writes_describeAction]
  rcases hfar with ⟨plannedNodeId, name, credential, readOnly, rfl⟩ | ⟨gone, hgone, hne, howner⟩
  · have hrequires : (describeAction (.luks (.open node plannedNodeId name credential readOnly))
        projection.graph).Requires (.nodeKind node .luksContainer) := by
      simp [requires_describeAction, describeTechnology, describeLuks]
    obtain ⟨kind, hkind, -⟩ := kind_of_nodeKind (simulateAction_requires h hrequires)
    have hne : node ≠ plannedNodeId := by
      rintro rfl
      have habsent : projection.desired.graph.node node = none :=
        ((simulateAction_outcome h).of_insertNode List.mem_cons_self).1
      rw [NodeGraph.kindOf, habsent] at hkind
      cases hkind
    simp [ProviderAction.locks, hne]
  · unfold ProviderAction.removed at hgone
    split at hgone
    · cases hgone
      rw [ProviderAction.owner] at howner
      simp [ProviderAction.locks, hne, howner]
    · cases hgone
      simp [ProviderAction.locks, hne]
    · cases hgone
      rw [ProviderAction.owner] at howner
      simp [ProviderAction.locks, hne, howner]
    · cases hgone

/-! ### Mounts -/

variable {entry : MountEntry}

theorem mountChanges_eq {effect : MountEffect} (h : effect ∈ action.mountChanges) :
    ∃ change : MountAction, action = .mount change ∧ effect = change.mountChange := by
  cases action with
  | mount change => exact ⟨change, rfl, List.mem_singleton.mp h⟩
  | _ => cases h

theorem count_elsewhere {entries : List MountEntry} {target : PathBuf} {context : MountContext}
    (h : ¬(entry.target = target ∧ entry.context = context)) :
    (entries.filter (Projection.elsewhere target context)).count entry = entries.count entry := by
  refine List.count_filter ?_
  rw [Projection.elsewhere, Bool.or_eq_true, bne_iff_ne, bne_iff_ne]
  exact not_and_or.mp h

/-- A runtime mount that a step adds or removes is locked at its target. -/
theorem locks_of_runtime (h : simulateAction projection action = .ok (result, next))
    (hchanged : projection.desired.mounts.runtime.count entry ≠
      next.desired.mounts.runtime.count entry) :
    .runtimeMountState ∈ action.locks projection.graph ∧
      .mountTarget entry.target entry.context ∈ action.locks projection.graph := by
  by_contra hunlocked
  refine hchanged (simulateAction_mounts (fun mounts => mounts.runtime.count entry) h ?_).symm
  intro effect heffect before after hstep
  obtain ⟨hcontract, -⟩ := simulateAction_ok h
  rw [hcontract, describeAction_mounts] at heffect
  obtain ⟨change, rfl, rfl⟩ := mountChanges_eq heffect
  have hstep := Projection.applyMountEffect_step hstep
  generalize after.desired = desired at hstep
  cases change with
  | mount source target options context =>
      cases hstep with
      | addRuntime _ _ =>
          have hnew : [⟨source, target, options, context⟩].count entry = 0 := by
            refine List.count_eq_zero_of_not_mem fun hmem => ?_
            obtain rfl := List.mem_singleton.mp hmem
            exact hunlocked (by simp [ProviderAction.locks])
          rw [List.count_append, hnew, Nat.add_zero]
  | unmount target context =>
      cases hstep with
      | removeRuntime _ =>
          refine count_elsewhere ?_
          rintro ⟨rfl, rfl⟩
          exact hunlocked (by simp [ProviderAction.locks])
  | persist other =>
      cases hstep
      rfl
  | removePersistent target context =>
      cases hstep
      rfl

/-- A persistent entry that a step writes or removes is locked with the configuration of its
context. -/
theorem locks_of_persistent (h : simulateAction projection action = .ok (result, next))
    (hchanged : projection.desired.mounts.persistent.count entry ≠
      next.desired.mounts.persistent.count entry) :
    .persistentMountConfig entry.context ∈ action.locks projection.graph := by
  by_contra hunlocked
  refine hchanged (simulateAction_mounts (fun mounts => mounts.persistent.count entry) h ?_).symm
  intro effect heffect before after hstep
  obtain ⟨hcontract, -⟩ := simulateAction_ok h
  rw [hcontract, describeAction_mounts] at heffect
  obtain ⟨change, rfl, rfl⟩ := mountChanges_eq heffect
  have hstep := Projection.applyMountEffect_step hstep
  generalize after.desired = desired at hstep
  cases change with
  | mount source target options context =>
      cases hstep
      rfl
  | unmount target context =>
      cases hstep
      rfl
  | persist other =>
      have hother : entry.context ≠ other.context := by
        intro hcontext
        exact hunlocked (by simp [ProviderAction.locks, hcontext])
      cases hstep with
      | setPersistent =>
          have hnew : [other].count entry = 0 := by
            refine List.count_eq_zero_of_not_mem fun hmem => ?_
            exact hother (congrArg MountEntry.context (List.mem_singleton.mp hmem))
          rw [List.count_append, hnew, Nat.add_zero]
          exact count_elsewhere fun hplace => hother hplace.2
  | removePersistent target context =>
      cases hstep with
      | removePersistent =>
          refine count_elsewhere ?_
          rintro ⟨-, rfl⟩
          exact hunlocked (by simp [ProviderAction.locks])

end Step

/-- **What the write locks cover.**  A changed node is locked unless it lies below an activation,
where the step reports its activation as invalidated; changed edges are locked unless the node is
their far end; and every changed mount is locked. -/
theorem write_locks_cover {projection next : Projection} {action : ProviderAction}
    {result : SimulatedAction} (h : simulateAction projection action = .ok (result, next)) :
    (∀ node, NodeDiffers projection next node →
      (result.contract.Writes (.node node) ↔ ¬action.ActivatesAbove projection.graph node)) ∧
    (∀ node, action.ActivatesAbove projection.graph node →
      activationFact node ∈ result.invalidatedFacts) ∧
    (∀ node, EdgesDiffer projection.graph next.graph node →
      (result.contract.LocksEdges projection.graph node ↔
        ¬action.FarEnd projection.graph node)) ∧
    (∀ entry, projection.desired.mounts.runtime.count entry ≠
        next.desired.mounts.runtime.count entry →
      result.contract.Writes .runtimeMountState ∧
        result.contract.Writes (.mountTarget entry.target entry.context)) ∧
    ∀ entry, projection.desired.mounts.persistent.count entry ≠
        next.desired.mounts.persistent.count entry →
      result.contract.Writes (.persistentMountConfig entry.context) := by
  obtain ⟨hcontract, -, -, applied, happly, -⟩ := simulateAction_ok h
  obtain ⟨hfacts, -⟩ := Projection.applyEffect_ok happly
  rw [hcontract, describeAction_facts] at hfacts
  rw [hcontract]
  refine ⟨fun node hdiffers => ?_, ?_, fun node hdiffer => ?_, fun entry hchanged => ?_,
    fun entry hchanged => ?_⟩
  · rw [writes_describeAction]
    refine ⟨fun hlocked habove => unlocked_of_activatesAbove habove hlocked, fun hnone => ?_⟩
    exact (locks_of_differs h hdiffers).resolve_right hnone
  · rintro node ⟨target, active, rfl, -, hbelow⟩
    rw [hfacts, mem_expandInvalidations]
    exact .inr ⟨target, node, List.mem_cons_self, hbelow, rfl⟩
  · refine ⟨fun hlocked hfar => unlocked_of_farEnd h hfar hlocked, fun hnone => ?_⟩
    exact (locks_of_edgesDiffer h hdiffer).resolve_right hnone
  · rw [writes_describeAction, writes_describeAction]
    exact locks_of_runtime h hchanged
  · rw [writes_describeAction]
    exact locks_of_persistent h hchanged

/-- The mapping that opens over a container is locked. -/
theorem opened_mapping_locked :
    ∃ result next, simulateAction ⟨⟨closedGraph, {}, .unmanaged, []⟩, {}⟩
        (openMapping openedMapping "data") = .ok (result, next) ∧
      NodeDiffers ⟨⟨closedGraph, {}, .unmanaged, []⟩, {}⟩ next openedMapping ∧
      result.contract.Writes (.node openedMapping) := by
  obtain ⟨result, next, hstep, hdiffers⟩ : ∃ result next,
      simulateAction ⟨⟨closedGraph, {}, .unmanaged, []⟩, {}⟩ (openMapping openedMapping "data") =
        .ok (result, next) ∧
      NodeDiffers ⟨⟨closedGraph, {}, .unmanaged, []⟩, {}⟩ next openedMapping :=
    ⟨_, _, rfl, .inl (by decide +kernel)⟩
  refine ⟨result, next, hstep, hdiffers,
    ((write_locks_cover hstep).1 openedMapping hdiffers).mpr ?_⟩
  rintro ⟨target, active, haction, -⟩
  cases haction

/-- Opening a container gives it an edge under a read lock only. -/
theorem opened_container_unlocked :
    ∃ result next, simulateAction ⟨⟨closedGraph, {}, .unmanaged, []⟩, {}⟩
        (openMapping openedMapping "data") = .ok (result, next) ∧
      EdgesDiffer closedGraph next.graph openedContainer ∧
      ¬result.contract.Writes (.node openedContainer) ∧
      ¬result.contract.Writes (.partitionTable openedContainer) ∧
      ¬result.contract.Writes (.lvmMetadata openedContainer) := by
  refine ⟨_, _, rfl, ⟨⟨openedContainer, openedMapping, .backs⟩, .inl rfl, ?_⟩, ?_, ?_, ?_⟩
  · decide +kernel
  · unfold ActionContract.Writes
    decide +kernel
  · unfold ActionContract.Writes
    decide +kernel
  · unfold ActionContract.Writes
    decide +kernel

end DisksGraph
