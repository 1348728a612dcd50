import DisksGraph.Engine.Checked
import DisksGraph.Engine.Normal
import DisksGraph.Provider.Reorder
import DisksGraph.Support.Choices

/-!
# Engine — Reorder

One simulated action, on one configuration whose graph is iterated in two orders.

The checks read the graph through lookups and through sets of edges, the revocations through a
sorted walk and through reachability, and the effects only insert and remove.  So the two
simulations go through together, with the same evidence, and end in the same graph up to its order.

* `evaluatePrerequisite_reorders`: every check has the same status.
* `alike_graphEffects`: a run of edge removals can be taken in any order.
* `simulateAction_reorders`: one action.
-/

namespace DisksGraph

open Support (Returns Alike)

/-- The same configuration and evidence, with the graph in another order. -/
def Projection.Reorders (projection other : Projection) : Prop :=
  ∃ graph, projection.graph.Reorders graph ∧ other = projection.withGraph graph

theorem Projection.Reorders.refl (projection : Projection) : projection.Reorders projection :=
  ⟨projection.graph, .refl _, rfl⟩

theorem Projection.Reorders.trans {projection other third : Projection}
    (h : projection.Reorders other) (h' : other.Reorders third) : projection.Reorders third := by
  obtain ⟨graph, hgraph, rfl⟩ := h
  obtain ⟨graph', hgraph', rfl⟩ := h'
  exact ⟨graph', hgraph.trans hgraph', rfl⟩

theorem Projection.Reorders.symm {projection other : Projection}
    (h : projection.Reorders other) : other.Reorders projection := by
  obtain ⟨graph, hgraph, rfl⟩ := h
  exact ⟨projection.graph, hgraph.symm, rfl⟩

theorem Projection.Reorders.graph {projection other : Projection}
    (h : projection.Reorders other) : projection.graph.Reorders other.graph := by
  obtain ⟨graph, hgraph, rfl⟩ := h
  exact hgraph

/-! ### Checks -/

section Checks

variable {desired : DesiredState} {evidence : SimulationEvidence} {graph : NodeGraph}
  (h : desired.graph.Reorders graph)

/-- A consumer whose size is known to exceed the proposed one. -/
def exceeds (graph : NodeGraph) (size : Bytes) (edge : Dependency) : Bool :=
  (knownSize graph edge.target).any (· > size)

/-- The scan, when every consumer exists: whatever it meets first, one consumer that is too large is
a violation, and otherwise one whose size is unknown leaves the check open. -/
theorem scanDependents_eq {node : NodeId} {size : Bytes} {edges : List Dependency}
    {found unknown predicted : Bool}
    (hedges : ∀ edge ∈ edges, desired.graph.contains edge.target = true) :
    scanDependents desired evidence node size edges found unknown predicted =
      if edges.any (exceeds desired.graph size) then
        .violated "an upper layer exceeds the proposed backing capacity"
      else if unknown || edges.any (fun edge => (knownSize desired.graph edge.target).isNone) then
        .unknown "dependent capacity observation"
      else if found || !edges.isEmpty then
        .satisfied (if predicted || edges.any (fun edge =>
          edge.target ∈ evidence.projectedGraphNodes) then .predictedEffect else .observedSnapshot)
      else satisfiedForNode evidence node := by
  induction edges generalizing found unknown predicted with
  | nil => simp [scanDependents]
  | cons edge rest ih =>
      obtain ⟨hedge, hrest⟩ := List.forall_mem_cons.mp hedges
      obtain ⟨dependent, hnode⟩ := NodeGraph.contains_iff.mp hedge
      rw [scanDependents, hnode]
      dsimp only
      cases hsize : dependent.kind.size with
      | none =>
          have hknown : knownSize desired.graph edge.target = none := by
            rw [knownSize, hnode]
            exact hsize
          rw [ih hrest]
          simp [exceeds, hknown]
      | some used =>
          have hknown : knownSize desired.graph edge.target = some used := by
            rw [knownSize, hnode]
            exact hsize
          dsimp only
          by_cases hlarge : used > size
          · rw [if_pos hlarge]
            simp [exceeds, hknown, hlarge]
          · rw [if_neg hlarge, ih hrest]
            simp [exceeds, hknown, hlarge, Bool.or_assoc]

include h in

/-- The check of an endpoint does not see the order of the edges. -/
theorem evaluateEndpoint_reorders (node : NodeId) (writable : Bool) :
    evaluateEndpoint { desired with graph } evidence node writable =
      evaluateEndpoint desired evidence node writable := by
  unfold evaluateEndpoint
  dsimp only
  rw [h.node]

include h in

/-- The check of a mount source does not see the order of the edges. -/
theorem evaluateMountSource_reorders (source : MountSource) :
    evaluateMountSource { desired with graph } evidence source =
      evaluateMountSource desired evidence source := by
  unfold evaluateMountSource
  cases source.node with
  | none => rfl
  | some node =>
      dsimp only
      rw [h.kindOf]
      rcases perm_cases (h.backingNodes node) with
        ⟨hgraph, hother⟩ | ⟨backing, hgraph, hother⟩ | ⟨_, _, _, _, _, _, hgraph, hother⟩
      · rw [hgraph, hother]
      · rw [hgraph, hother]
        dsimp only
        rw [h.kindOf, evaluateEndpoint_reorders h]
      · rw [hgraph, hother]

include h in

/-- In a valid graph the check of dependent sizes does not see the order of the edges. -/
theorem evaluateDependentSizes_reorders (hvalid : desired.graph.validateStructure = .ok ())
    (node : NodeId) (size : Bytes) :
    evaluateDependentSizes { desired with graph } evidence node size =
      evaluateDependentSizes desired evidence node size := by
  have hsound := (NodeGraph.dependencies_of_validateStructure hvalid).1
  have hperm := h.dependencies.filter fun edge => edge.source == node && edge.kind.isBacks
  have htargets : ∀ edge ∈ desired.graph.dependencies.filter fun edge =>
      edge.source == node && edge.kind.isBacks, desired.graph.contains edge.target = true :=
    fun edge hedge => (hsound edge (List.mem_of_mem_filter hedge)).target
  have hexceeds : exceeds graph size = exceeds desired.graph size := by
    funext edge
    rw [exceeds, exceeds, h.knownSize]
  unfold evaluateDependentSizes
  dsimp only
  rw [h.contains, scanDependents_eq htargets, scanDependents_eq fun edge hedge => ?_]
  · dsimp only
    rw [hexceeds, h.knownSize, ← any_perm hperm, ← any_perm hperm, ← any_perm hperm,
      hperm.isEmpty_eq]
  · rw [h.contains]
    exact htargets edge (hperm.mem_iff.mpr hedge)

include h in

/-- The check of a backing size does not see the order of the edges. -/
theorem evaluateBackingSize_reorders (node : NodeId) (size : Bytes) :
    evaluateBackingSize { desired with graph } evidence node size =
      evaluateBackingSize desired evidence node size := by
  unfold evaluateBackingSize
  dsimp only
  rw [h.contains]
  rcases perm_cases (h.backingNodes node) with
    ⟨hgraph, hother⟩ | ⟨backing, hgraph, hother⟩ | ⟨_, _, _, _, _, _, hgraph, hother⟩
  · rw [hgraph, hother]
  · rw [hgraph, hother]
    dsimp only
    rw [h.node]
  · rw [hgraph, hother]
    rfl

include h in
/-- **A check has one status, whatever the order of the graph.** -/
theorem evaluatePrerequisite_reorders (hvalid : desired.graph.validateStructure = .ok ())
    (condition : ActionPrerequisite) :
    evaluatePrerequisite { desired with graph } evidence condition =
      evaluatePrerequisite desired evidence condition := by
  cases condition with
  | nodeExists node => simp only [evaluatePrerequisite, h.contains]
  | nodeKind node expected => simp only [evaluatePrerequisite, h.kindOf]
  | noUnexpectedConsumers node =>
      simp only [evaluatePrerequisite, h.contains, ← any_perm h.dependencies]
      rfl
  | noUnexpectedRelations node =>
      simp only [evaluatePrerequisite, h.contains, ← any_perm h.relations]
  | writable node => exact evaluateEndpoint_reorders h node true
  | mountSourceAvailable source => exact evaluateMountSource_reorders h source
  | filesystemUnmounted filesystem =>
      simp only [evaluatePrerequisite, h.contains]
      rfl
  | dependentsFitWithin node size => exact evaluateDependentSizes_reorders h hvalid node size
  | backingSizeAtLeast node size => exact evaluateBackingSize_reorders h node size
  | filesystemCheckPassed | filesystemMinimumSize | destructiveApproval | credentialAvailable
  | extentAvailable | distinctNodes | capacityAvailable | mountTargetAvailable
  | mountDescendantsAbsent => rfl

end Checks

/-! ### Revocations -/

namespace NodeGraph.Reorders

variable {graph other : NodeGraph} (h : graph.Reorders other)
include h

/-- The children are sorted by UUID before they are visited. -/
theorem sortedConsumers : DisksGraph.sortedConsumers other = DisksGraph.sortedConsumers graph := by
  funext node
  have hperm : (graph.consumers node).Perm (other.consumers node) :=
    (h.dependencies.filter _).map _
  refine List.Perm.eq_of_pairwise (fun a b _ _ hab hba => ?_)
    (List.pairwise_insertionSort (fun a b : NodeId => a.asUuid.toNat ≤ b.asUuid.toNat) _)
    (List.pairwise_insertionSort (fun a b : NodeId => a.asUuid.toNat ≤ b.asUuid.toNat) _) ?_
  · have huuid : a.asUuid = b.asUuid := BitVec.eq_of_toNat_eq (Nat.le_antisymm hab hba)
    cases a
    cases b
    exact congrArg NodeId.mk huuid
  · exact (List.perm_insertionSort _ _).trans
      (hperm.symm.trans (List.perm_insertionSort _ _).symm)

/-- Facts expand alike whatever the order of the edges. -/
theorem expandInvalidations :
    DisksGraph.expandInvalidations other = DisksGraph.expandInvalidations graph := by
  have hscope : activationScope other = activationScope graph := by
    funext node
    rw [activationScope, activationScope, h.sortedConsumers, h.dependencies.length_eq]
  funext invalidations
  rw [DisksGraph.expandInvalidations, DisksGraph.expandInvalidations, hscope]

/-- The same checks are dropped whatever the order of the edges. -/
theorem invalidateFilesystemChecks (evidence : SimulationEvidence)
    (invalidations : List FactInvalidation) :
    SimulationEvidence.invalidateFilesystemChecks other evidence invalidations =
      SimulationEvidence.invalidateFilesystemChecks graph evidence invalidations := by
  have hcarries : Carries other = Carries graph := by
    funext a b
    simp only [Carries, h.mem_dependencies]
  unfold SimulationEvidence.invalidateFilesystemChecks
  congr 1
  refine Finset.filter_congr fun filesystem _ => ?_
  rw [mem_checkScope, mem_checkScope, hcarries]

end NodeGraph.Reorders

/-! ### Effects -/

namespace Projection

variable {projection other : Projection}

/-- Any two failures are alike: a caller only sees that the effect was not applied. -/
def AlikeEffects (x y : Except EffectApplicationError Projection) : Prop :=
  Alike (fun _ _ => True) Reorders (Returns.lift x) (Returns.lift y)

theorem AlikeEffects.trans' {x y z : Except EffectApplicationError Projection}
    (h : AlikeEffects x y) (h' : AlikeEffects y z) : AlikeEffects x z := by
  refine (Alike.trans (fun _ _ _ _ _ => trivial) h h').mono (fun _ _ h => h) ?_
  rintro p q ⟨mid, hmid, hq⟩
  exact hmid.trans hq

theorem markProjected_withGraph {id : NodeId} {graph graph' : NodeGraph} :
    ((projection.withGraph graph).markProjected id) =
      ((projection.withGraph graph').markProjected id).withGraph graph := by
  by_cases hmem : id ∈ projection.evidence.projectedGraphNodes <;>
    simp [markProjected, withGraph, hmem]

/-- Updating a node ends alike in both graphs. -/
theorem alike_updateNode (h : projection.Reorders other) (id : NodeId) (effect : String)
    (update : Node → Option Node) :
    AlikeEffects (projection.updateNode id effect update) (other.updateNode id effect update) := by
  obtain ⟨graph, hgraph, rfl⟩ := h
  unfold updateNode
  rw [show (projection.withGraph graph).graph.node id = projection.graph.node id from hgraph.node id]
  cases hnode : projection.graph.node id with
  | none => exact .throw trivial
  | some node =>
      dsimp only
      cases update node with
      | none => exact .throw trivial
      | some value =>
          have hcontains : projection.graph.contains id = true :=
            NodeGraph.contains_iff.mpr ⟨node, hnode⟩
          have hcontains' : (projection.withGraph graph).graph.contains id = true :=
            (hgraph.contains id).trans hcontains
          dsimp only
          rw [NodeGraph.replaceExisting, NodeGraph.replaceExisting, if_pos hcontains,
            if_pos hcontains']
          refine .pure ⟨graph.setNode id value, ?_, ?_⟩
          · rw [Projection.graph, desired_markProjected]
            exact hgraph.setNode id value
          · exact markProjected_withGraph

/-- An effect ends alike in both graphs. -/
theorem alike_applyGraphEffect (h : projection.Reorders other) (effect : GraphEffect) :
    AlikeEffects (projection.applyGraphEffect effect) (other.applyGraphEffect effect) := by
  have hupdate := @alike_updateNode projection other h
  obtain ⟨graph, hgraph, rfl⟩ := h
  have hsame : (projection.withGraph graph).graph = graph := rfl
  unfold applyGraphEffect
  cases effect with
  | insertNode id spec =>
      dsimp only
      rw [hsame, hgraph.contains]
      split
      · exact .throw trivial
      · next hfree =>
        rw [NodeGraph.insertNew, NodeGraph.insertNew, hgraph.contains, if_neg hfree, if_neg hfree]
        exact .pure ⟨graph.setNode id { kind := spec, size := {} }, hgraph.setNode _ _, rfl⟩
  | removeNode node =>
      dsimp only
      rw [hsame, hgraph.contains]
      split
      · exact .throw trivial
      · exact .pure ⟨graph.removeNode node, hgraph.removeNode node, rfl⟩
  | setNodeSize node size => exact hupdate _ _ _
  | invalidateNodeSize node => exact hupdate _ _ _
  | setPartitionAttributes partition attributes => exact hupdate _ _ _
  | setFilesystemLabel filesystem label => exact hupdate _ _ _
  | setBtrfsAllocation filesystem allocation => exact hupdate _ _ _
  | insertDependency dependency =>
      exact .pure ⟨graph.insertDependency dependency, hgraph.insertDependency _, rfl⟩
  | removeDependency dependency =>
      dsimp only
      by_cases hmem : dependency ∈ projection.graph.dependencies
      · rw [hsame, if_pos hmem, if_pos (hgraph.mem_dependencies.mpr hmem)]
        exact .pure ⟨graph.removeDependency dependency, hgraph.removeDependency _, rfl⟩
      · rw [hsame, if_neg hmem, if_neg (mt hgraph.mem_dependencies.mp hmem)]
        exact .throw trivial
  | insertRelation relation =>
      exact .pure ⟨graph.insertRelation relation, hgraph.insertRelation _, rfl⟩
  | removeRelation relation =>
      dsimp only
      by_cases hmem : relation ∈ projection.graph.relations
      · rw [hsame, if_pos hmem, if_pos (hgraph.mem_relations.mpr hmem)]
        exact .pure ⟨graph.removeRelation relation, hgraph.removeRelation _, rfl⟩
      · rw [hsame, if_neg hmem, if_neg (mt hgraph.mem_relations.mp hmem)]
        exact .throw trivial
  | setActivation node active =>
      dsimp only
      rw [hsame, hgraph.contains]
      split
      · exact .throw trivial
      · exact .pure ⟨graph, hgraph, rfl⟩

/-- A list of effects ends alike in both graphs. -/
theorem alike_foldlM (effects : List GraphEffect) (h : projection.Reorders other) :
    AlikeEffects (effects.foldlM applyGraphEffect projection)
      (effects.foldlM applyGraphEffect other) :=
  Alike.foldlM (fun effect _ _ _ h => alike_applyGraphEffect h effect) h

/-- Where the same calls are accepted with the same result, failures do not differ for a caller. -/
theorem AlikeEffects.of_ok_iff {x y : Except EffectApplicationError Projection}
    (h : ∀ next, x = .ok next ↔ y = .ok next) : AlikeEffects x y := by
  cases x with
  | ok next =>
      rw [(h next).mp rfl]
      exact .pure (.refl next)
  | error _ =>
      cases y with
      | ok next => exact nomatch (h next).mpr rfl
      | error _ => exact .throw trivial

/-- Effects in another order end alike, where they reorder. -/
theorem alike_graphEffects {effects others : List GraphEffect} (h : EffectsReorder effects others)
    (hprojection : projection.Reorders other) :
    AlikeEffects (effects.foldlM applyGraphEffect projection)
      (others.foldlM applyGraphEffect other) := by
  have hsame : AlikeEffects (effects.foldlM applyGraphEffect projection)
      (others.foldlM applyGraphEffect projection) :=
    .of_ok_iff fun _ => foldlM_runs (.single h.runReorder) projection
  exact hsame.trans' (alike_foldlM others hprojection)

/-- A mount effect ends alike in both graphs. -/
theorem alike_applyMountEffect (h : projection.Reorders other) (effect : MountEffect) :
    AlikeEffects (projection.applyMountEffect effect) (other.applyMountEffect effect) := by
  obtain ⟨graph, hgraph, rfl⟩ := h
  have hmountAt : mountAt (projection.withGraph graph).desired = mountAt projection.desired := rfl
  have hdescendant : hasMountedDescendant (projection.withGraph graph).desired =
      hasMountedDescendant projection.desired := rfl
  cases effect with
  | addRuntime source target options context =>
      rw [applyMountEffect, applyMountEffect, hmountAt, hdescendant]
      split
      · exact .throw trivial
      · split
        · exact .throw trivial
        · exact .pure ⟨graph, hgraph, rfl⟩
  | removeRuntime target context =>
      rw [applyMountEffect, applyMountEffect, hdescendant]
      split
      · exact .throw trivial
      · exact .pure ⟨graph, hgraph, rfl⟩
  | setPersistent | removePersistent => exact .pure ⟨graph, hgraph, rfl⟩

/-- **An effect is applied in every order or in none.** -/
theorem alike_applyEffect (h : projection.Reorders other) {effect effect' : PredictedEffect}
    (hgraph : EffectsReorder effect.graph effect'.graph) (hmounts : effect.mounts = effect'.mounts)
    (hallocations : effect.allocations = effect'.allocations) (facts : List FactInvalidation) :
    Alike (fun _ _ => True) (fun a b => a.1 = b.1 ∧ a.2.Reorders b.2)
      (Returns.lift (projection.applyEffect effect facts))
      (Returns.lift (other.applyEffect effect' facts)) := by
  have hstart : ({ projection with
        evidence := SimulationEvidence.invalidateFilesystemChecks projection.graph
          (SimulationEvidence.invalidateObservations projection.graph projection.evidence facts).2
          facts } : Projection).Reorders
      { other with
        evidence := SimulationEvidence.invalidateFilesystemChecks other.graph
          (SimulationEvidence.invalidateObservations other.graph other.evidence facts).2 facts } := by
    obtain ⟨graph, hreorder, rfl⟩ := h
    refine ⟨graph, hreorder, ?_⟩
    have hsame : (projection.withGraph graph).graph = graph := rfl
    rw [hsame, hreorder.invalidateFilesystemChecks, SimulationEvidence.invalidateObservations,
      SimulationEvidence.invalidateObservations, hreorder.expandInvalidations]
    rfl
  have hfacts : (SimulationEvidence.invalidateObservations projection.graph projection.evidence
      facts).1 = (SimulationEvidence.invalidateObservations other.graph other.evidence facts).1 := by
    rw [SimulationEvidence.invalidateObservations, SimulationEvidence.invalidateObservations,
      h.graph.expandInvalidations]
  unfold applyEffect
  dsimp only
  rw [Returns.lift_bind, Returns.lift_bind]
  refine (alike_graphEffects hgraph hstart).bind fun changed changed' hchanged => ?_
  rw [Returns.lift_bind, Returns.lift_bind, ← hmounts]
  refine (Alike.foldlM (fun effect _ _ _ h => alike_applyMountEffect h effect) hchanged).bind
    fun mounted mounted' hmounted => ?_
  obtain ⟨graph, hreorder, rfl⟩ := hmounted
  rw [Returns.lift_bind, Returns.lift_bind, ← hallocations]
  refine (Alike.of_eq (R := Eq) (fun _ => trivial) (fun _ => rfl) rfl).bind
    fun evidence _ hevidence => ?_
  subst hevidence
  have hsame : (mounted.withGraph graph).graph = graph := rfl
  rw [hsame]
  cases hvalid : mounted.graph.validateStructure with
  | ok _ =>
      rw [hreorder.validateStructure.mpr hvalid]
      exact .pure ⟨hfacts, graph, hreorder, rfl⟩
  | error error =>
      cases hvalid' : graph.validateStructure with
      | ok _ =>
          rw [hreorder.validateStructure.mp hvalid'] at hvalid
          cases hvalid
      | error error' => exact .throw trivial

end Projection

/-! ### One action -/

/-- `std::mem::discriminant` of a simulation error. -/
inductive ActionErrorKind where
  | validation
  | prerequisitesViolated
  | effect
deriving DecidableEq, Repr

/-- The stage at which simulating an action failed. -/
def ActionSimulationError.kind : ActionSimulationError → ActionErrorKind
  | .validation _ => .validation
  | .prerequisitesViolated _ => .prerequisitesViolated
  | .effect _ => .effect

/-- The result of one check, if it is among those made. -/
def checkOf (checks : List PrerequisiteCheck) (condition : ActionPrerequisite) :
    Option PrerequisiteCheck :=
  checks.find? fun check => check.prerequisite == condition

/-- Two results with the same checks and the same contract, up to order. -/
structure SimulatedAction.Reorders (result other : SimulatedAction) : Prop where
  contract : result.contract.Reorders other.contract
  checks : checkOf result.checks = checkOf other.checks
  facts : result.invalidatedFacts = other.invalidatedFacts

theorem checkOf_evaluatePrerequisites {desired : DesiredState} {evidence : SimulationEvidence}
    {conditions : List ActionPrerequisite} {condition : ActionPrerequisite} :
    checkOf (evaluatePrerequisites desired evidence conditions) condition =
      if condition ∈ conditions then
        some ⟨condition, evaluatePrerequisite desired evidence condition⟩
      else none := by
  unfold checkOf evaluatePrerequisites
  induction conditions with
  | nil => rfl
  | cons first rest ih =>
      rw [List.map_cons, List.find?_cons]
      by_cases hsame : first = condition
      · subst hsame
        simp
      · have hne : (first == condition) = false := by simpa using hsame
        simp only [hne, ih, List.mem_cons, Ne.symm hsame, false_or]

/-- **`simulateAction_reorders`** — on a valid configuration, one action succeeds in every order of
the graph or fails in the same way in all of them, and the results differ in order only. -/
theorem simulateAction_reorders {projection other : Projection} (h : projection.Reorders other)
    (hvalid : projection.graph.validateStructure = .ok ()) (action : ProviderAction) :
    Alike (fun e e' => e.kind = e'.kind) (fun a b => a.1.Reorders b.1 ∧ a.2.Reorders b.2)
      (Returns.lift (simulateAction projection action))
      (Returns.lift (simulateAction other action)) := by
  have hcontract := describeAction_reorders h.graph hvalid action
  have hdiagnostics := validateProviderAction_reorders h.graph action
  have hstatus : evaluatePrerequisite other.desired other.evidence =
      evaluatePrerequisite projection.desired projection.evidence := by
    obtain ⟨graph, hgraph, rfl⟩ := h
    funext condition
    exact evaluatePrerequisite_reorders hgraph hvalid condition
  have hviolated : (evaluatePrerequisites projection.desired projection.evidence
        (describeAction action projection.graph).prerequisites).any (·.status.isViolated) =
      (evaluatePrerequisites other.desired other.evidence
        (describeAction action other.graph).prerequisites).any (·.status.isViolated) := by
    rw [evaluatePrerequisites, evaluatePrerequisites, hstatus, List.any_map, List.any_map,
      Bool.eq_iff_iff, List.any_eq_true, List.any_eq_true]
    simp only [hcontract.prerequisites.mem_iff]
  unfold simulateAction
  dsimp only
  rw [hdiagnostics, ← hviolated]
  split
  · exact .throw rfl
  · split
    · exact .throw rfl
    · -- Both orders apply the effect or both refuse it.
      have heffect := Projection.alike_applyEffect h hcontract.graph hcontract.mounts
        hcontract.allocations (describeAction action projection.graph).invalidatedFacts
      rw [← hcontract.facts]
      cases hfirst : projection.applyEffect (describeAction action projection.graph).predictedEffect
          (describeAction action projection.graph).invalidatedFacts with
      | error error =>
          cases hsecond : other.applyEffect (describeAction action other.graph).predictedEffect
              (describeAction action projection.graph).invalidatedFacts with
          | error error' => exact .throw rfl
          | ok applied =>
              rw [hfirst, hsecond] at heffect
              cases heffect
      | ok applied =>
          cases hsecond : other.applyEffect (describeAction action other.graph).predictedEffect
              (describeAction action projection.graph).invalidatedFacts with
          | error error' =>
              rw [hfirst, hsecond] at heffect
              cases heffect
          | ok applied' =>
              rw [hfirst, hsecond] at heffect
              cases heffect with
              | pure happlied =>
                  obtain ⟨hfacts, graph, hgraph, hnext⟩ := happlied
                  refine .pure ⟨⟨hcontract, ?_, hfacts⟩, graph, hgraph, ?_⟩
                  · funext condition
                    rw [checkOf_evaluatePrerequisites, checkOf_evaluatePrerequisites, hstatus]
                    simp only [hcontract.prerequisites.mem_iff]
                  · rw [hnext, hcontract.outputs]
                    rfl

end DisksGraph
