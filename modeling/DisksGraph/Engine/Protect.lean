import DisksGraph.Engine.Simulate
import DisksGraph.Provider.Footprint

/-!
# Engine — Protect

What a plan that passes the preservation check leaves alone, in every intermediate state.

The check reads contracts and expanded invalidations; the law is about the projected state.  The two
meet in one frame lemma per kind of effect: an effect that does not touch a node or a mount target
leaves its view as it is.

* `Projection.nodeView`, `runtimeView`, `persistentView`: what is protected of one object.
* `simulateAction_nodeView` and its siblings: one action.
* `protected_scope_sound`: every prefix of a replay.
-/

namespace DisksGraph

open Support (Returns foldlM_view)

/-! ### Views -/

/-- The runtime claims about a node: its activation, its endpoint, and the observations of either
that have been revoked. -/
@[ext]
structure RuntimeClaims where
  activation : Option Bool
  blockInterface : Option BlockInterfaceAccess
  revoked : List FactInvalidation

/-- What the evidence says about a node. -/
def SimulationEvidence.claims (evidence : SimulationEvidence) (node : NodeId) : RuntimeClaims where
  activation := evidence.activations node
  blockInterface := evidence.blockInterfaces node
  revoked := evidence.invalidatedFacts.filter (·.revokedNode = some node)

/-- What is protected of a node: its value, its edges and the runtime claims about it. -/
@[ext]
structure NodeView where
  node : Option Node
  dependencies : List Dependency
  relations : List Relation
  claims : RuntimeClaims

/-- The relations that start or end at a node. -/
def incidentRelations (graph : NodeGraph) (node : NodeId) : List Relation :=
  graph.relations.filter fun link => link.source == node || link.target == node

/-- The entry is at, above or below the protected target, in its context. -/
def ProtectedMount.concerns (mount : ProtectedMount) (entry : MountEntry) : Bool :=
  entry.context == mount.context &&
    (entry.target.startsWith mount.target || mount.target.startsWith entry.target)

namespace Projection

/-- What a protected node looks like from outside. -/
def nodeView (projection : Projection) (node : NodeId) : NodeView where
  node := projection.graph.node node
  dependencies := incidentDependencies projection.graph node
  relations := incidentRelations projection.graph node
  claims := projection.evidence.claims node

/-- The runtime mounts that concern a protected mount. -/
def runtimeView (projection : Projection) (mount : ProtectedMount) : List MountEntry :=
  projection.desired.mounts.runtime.filter mount.concerns

/-- The persistent mounts that concern a protected mount. -/
def persistentView (projection : Projection) (mount : ProtectedMount) : List MountEntry :=
  projection.desired.mounts.persistent.filter mount.concerns

end Projection

section Lists

variable {α : Type} [DecidableEq α] {p : α → Bool} {a : α} {l : List α}

theorem filter_insert_of_false (h : p a = false) : (l.insert a).filter p = l.filter p := by
  rw [List.insert]
  split
  · rfl
  · exact List.filter_cons_of_neg (Bool.eq_false_iff.mp h)

theorem filter_erase_of_false (h : p a = false) : (l.erase a).filter p = l.filter p := by
  rw [← List.erase_filter]
  refine List.erase_of_not_mem fun hmem => ?_
  exact Bool.eq_false_iff.mp h (List.of_mem_filter hmem)

end Lists

/-! ### Graph effects -/

namespace Projection

section Effects

variable {projection projection' : Projection} {node : NodeId} {mount : ProtectedMount}

theorem nodeView_markProjected {id : NodeId} :
    (projection.markProjected id).nodeView node = projection.nodeView node := by
  unfold markProjected
  split <;> rfl

/-- The view of a node, after a change of the graph that keeps its value and its edges. -/
theorem nodeView_withGraph {graph : NodeGraph}
    (hnode : graph.node node = projection.graph.node node)
    (hdependencies : incidentDependencies graph node = incidentDependencies projection.graph node)
    (hrelations : incidentRelations graph node = incidentRelations projection.graph node) :
    (projection.withGraph graph).nodeView node = projection.nodeView node :=
  NodeView.ext hnode hdependencies hrelations rfl

/-- A graph effect leaves a node that it does not touch alone. -/
theorem applyGraphEffect_nodeView {effect : GraphEffect}
    (h : projection.applyGraphEffect effect = .ok projection')
    (htouches : graphEffectTouches effect node = false) :
    projection'.nodeView node = projection.nodeView node := by
  have hne : ∀ {id : NodeId}, (id == node) = false → node ≠ id := fun hid heq =>
    beq_eq_false_iff_ne.mp hid heq.symm
  cases applyGraphEffect_step h with
  | insertNode _ =>
      exact NodeView.ext (NodeGraph.node_setNode_ne (hne htouches)) rfl rfl rfl
  | removeNode _ =>
      exact NodeView.ext (NodeGraph.node_removeNode_ne (hne htouches)) rfl rfl (RuntimeClaims.ext
        (Function.update_of_ne (hne htouches) _ _) (Function.update_of_ne (hne htouches) _ _) rfl)
  | @update _ id value hid =>
      have hid : (id == node) = false := by
        cases effect <;> first | cases hid; exact htouches | cases hid
      rw [nodeView_markProjected]
      exact nodeView_withGraph (NodeGraph.node_setNode_ne (hne hid)) rfl rfl
  | insertDependency => exact nodeView_withGraph rfl (filter_insert_of_false htouches) rfl
  | removeDependency _ => exact nodeView_withGraph rfl (filter_erase_of_false htouches) rfl
  | insertRelation => exact nodeView_withGraph rfl rfl (filter_insert_of_false htouches)
  | removeRelation _ => exact nodeView_withGraph rfl rfl (filter_erase_of_false htouches)
  | @setActivation id active _ =>
      refine NodeView.ext rfl rfl rfl
        (RuntimeClaims.ext (Function.update_of_ne (hne htouches) _ _) ?_ rfl)
      cases active with
      | true => rfl
      | false => exact Function.update_of_ne (hne htouches) _ _

/-! ### Mount effects -/

theorem uncheckSource_claims {source : MountSource} {evidence : SimulationEvidence} :
    (uncheckSource source evidence).claims node = evidence.claims node := by
  cases source <;> rfl

theorem markPersistentTarget_claims {evidence : SimulationEvidence} {target : PathBuf}
    {context : MountContext} :
    (evidence.markPersistentTarget target context).claims node = evidence.claims node := by
  rw [SimulationEvidence.markPersistentTarget]
  split <;> rfl

/-- Only the entries at the target and its context are dropped. -/
theorem filter_elsewhere {p : MountEntry → Bool} {target : PathBuf} {context : MountContext}
    {entries : List MountEntry}
    (h : ∀ entry, entry.target = target → entry.context = context → p entry = false) :
    (entries.filter (elsewhere target context)).filter p = entries.filter p := by
  rw [List.filter_filter]
  refine List.filter_congr fun entry _ => ?_
  cases hp : p entry with
  | false => rfl
  | true =>
      rw [Bool.true_and, elsewhere, Bool.or_eq_true, bne_iff_ne, bne_iff_ne]
      by_contra hnone
      obtain ⟨htarget, hcontext⟩ := not_or.mp hnone
      have hfalse := h entry (not_not.mp htarget) (not_not.mp hcontext)
      exact absurd (hp.symm.trans hfalse) nofun

/-- No mount effect changes what is known of a node. -/
theorem applyMountEffect_nodeView {effect : MountEffect}
    (h : projection.applyMountEffect effect = .ok projection') :
    projection'.nodeView node = projection.nodeView node := by
  cases effect with
  | addRuntime source target options context =>
      rw [applyMountEffect] at h
      split at h
      · cases h
      · split at h
        · cases h
        · cases h
          exact NodeView.ext rfl rfl rfl uncheckSource_claims
  | removeRuntime target context =>
      rw [applyMountEffect] at h
      split at h
      · cases h
      · cases h
        rfl
  | setPersistent entry =>
      cases h
      exact NodeView.ext rfl rfl rfl markPersistentTarget_claims
  | removePersistent target context =>
      cases h
      exact NodeView.ext rfl rfl rfl markPersistentTarget_claims

/-- A runtime mount effect leaves the targets alone that it does not touch. -/
theorem applyMountEffect_runtimeView {effect : MountEffect}
    (h : projection.applyMountEffect effect = .ok projection')
    (htouches : mountEffectTouches effect mount = false) :
    projection'.runtimeView mount = projection.runtimeView mount := by
  cases effect with
  | addRuntime source target options context =>
      rw [applyMountEffect] at h
      split at h
      · cases h
      · split at h
        · cases h
        · cases h
          have hnew : mount.concerns ⟨source, target, options, context⟩ = false := htouches
          simp [runtimeView, List.filter_append, hnew]
  | removeRuntime target context =>
      rw [applyMountEffect] at h
      split at h
      · cases h
      · cases h
        refine filter_elsewhere ?_
        rintro entry rfl rfl
        exact htouches
  | setPersistent entry =>
      cases h
      rfl
  | removePersistent target context =>
      cases h
      rfl

/-- A mount effect leaves the persistent mounts of other contexts alone. -/
theorem applyMountEffect_persistentView {effect : MountEffect}
    (h : projection.applyMountEffect effect = .ok projection')
    (hcontext : effect.persistentContext ≠ some mount.context) :
    projection'.persistentView mount = projection.persistentView mount := by
  have hother : ∀ {entry : MountEntry}, some entry.context ≠ some mount.context →
      mount.concerns entry = false := by
    intro entry hne
    rw [ProtectedMount.concerns, beq_eq_false_iff_ne.mpr fun heq => hne (congrArg some heq),
      Bool.false_and]
  cases effect with
  | addRuntime source target options context =>
      rw [applyMountEffect] at h
      split at h
      · cases h
      · split at h
        · cases h
        · cases h
          rfl
  | removeRuntime target context =>
      rw [applyMountEffect] at h
      split at h
      · cases h
      · cases h
        rfl
  | setPersistent entry =>
      cases h
      simp only [persistentView, List.filter_append, List.filter_singleton, hother hcontext,
        cond_false, List.append_nil]
      refine filter_elsewhere fun other _ hother' => hother ?_
      rw [hother']
      exact hcontext
  | removePersistent target context =>
      cases h
      refine filter_elsewhere fun other _ hother' => hother ?_
      rw [hother']
      exact hcontext

/-! ### Evidence -/

/-- Allocation effects change no claim. -/
theorem applyAllocationEffects_claims {evidence evidence' : SimulationEvidence}
    {effects : List AllocationEffect}
    (h : evidence.applyAllocationEffects effects = .ok evidence') :
    evidence'.claims node = evidence.claims node := by
  refine foldlM_view (·.claims node) (fun effect _ evidence evidence' h => ?_) h
  cases effect with
  | invalidate domain =>
      cases h
      rfl
  | reserve domain amount | release domain amount =>
      rw [SimulationEvidence.applyAllocationEffect] at h
      split at h
      · cases h
        rfl
      · split at h
        · cases h
        · cases h
          rfl

/-- A revocation is about one node. -/
theorem revoke_claims {evidence : SimulationEvidence} {fact : FactInvalidation}
    (h : fact.revokedNode ≠ some node) :
    (evidence.revoke fact).claims node = evidence.claims node := by
  have hfacts : (pushNew evidence.invalidatedFacts fact).filter (·.revokedNode = some node) =
      evidence.invalidatedFacts.filter (·.revokedNode = some node) := by
    rw [pushNew]
    split
    · rfl
    · simp [List.filter_append, h]
  rw [SimulationEvidence.revoke]
  cases hnode : fact.revokedNode with
  | none => exact RuntimeClaims.ext rfl rfl hfacts
  | some other =>
      have hne : node ≠ other := fun heq => h (heq ▸ hnode)
      exact RuntimeClaims.ext (Function.update_of_ne hne _ _) (Function.update_of_ne hne _ _) hfacts

/-- Lost facts change the claims of the nodes they revoke alone. -/
theorem invalidateObservations_claims {graph : NodeGraph} {evidence : SimulationEvidence}
    {invalidations : List FactInvalidation}
    (h : ∀ fact ∈ expandInvalidations graph invalidations, fact.revokedNode ≠ some node) :
    (SimulationEvidence.invalidateObservations graph evidence invalidations).2.claims node =
      evidence.claims node := by
  rw [SimulationEvidence.invalidateObservations]
  generalize expandInvalidations graph invalidations = facts at h ⊢
  induction facts generalizing evidence with
  | nil => rfl
  | cons fact rest ih =>
      have hrest := @ih (evidence.revoke fact) fun fact hmem => h fact (List.mem_cons_of_mem _ hmem)
      exact hrest.trans (revoke_claims (h fact List.mem_cons_self))

/-- Invalidations without an activation are not expanded. -/
theorem expandInvalidations_of_none {graph : NodeGraph} {invalidations : List FactInvalidation}
    (h : ∀ fact ∈ invalidations, fact.activationNode = none) :
    expandInvalidations graph invalidations = invalidations := by
  refine List.foldlRecOn (motive := (· = invalidations)) invalidations _ rfl ?_
  rintro _ rfl fact hmem
  rw [h fact hmem]

theorem applyOutputs_claims {evidence : SimulationEvidence} {outputs : List ActionOutput}
    (h : ∀ access, .blockInterface node access ∉ outputs) :
    (evidence.applyOutputs outputs).claims node = evidence.claims node := by
  rw [SimulationEvidence.applyOutputs]
  induction outputs generalizing evidence with
  | nil => rfl
  | cons output rest ih =>
      rw [List.foldl_cons, ih fun access hmem => h access (List.mem_cons_of_mem _ hmem)]
      cases output with
      | blockInterface other access =>
          have hne : node ≠ other := by
            rintro rfl
            exact h access List.mem_cons_self
          exact RuntimeClaims.ext rfl (Function.update_of_ne hne _ _) rfl
      | _ => rfl

end Effects

end Projection

/-! ### One action -/

namespace ActionContract

variable {contract : ActionContract} {node : NodeId}

theorem isMutating_of_changes (h : contract.Changes) : contract.isMutating = true := by
  rcases h with ⟨resource, hwrites⟩ | hgraph
  · have hany : contract.affectedResources.any (·.mode == .write) = true :=
      List.any_eq_true.mpr ⟨_, hwrites, rfl⟩
    simp [isMutating, hany]
  · simp [isMutating, hgraph]

theorem writesNode_of_writes (h : contract.Writes (.node node)) : contract.writesNode node = true :=
  List.any_eq_true.mpr ⟨_, h, by simp⟩

end ActionContract

section Action

variable {projection next : Projection} {action : ProviderAction} {result : SimulatedAction}
  {node : NodeId} {mount : ProtectedMount}

/-- No fact about an untouched node is revoked. -/
theorem revokes_none_of_untouched {facts : List FactInvalidation}
    (hfacts : facts = expandInvalidations projection.graph
      (describeAction action projection.graph).invalidatedFacts)
    (h : ((describeAction action projection.graph).isMutating &&
      facts.any (·.scope == .node node)) =
      false) : ∀ fact ∈ facts, fact.revokedNode ≠ some node := by
  have hscope : ∀ fact : FactInvalidation, fact.revokedNode = some node →
      fact.scope = .node node := by
    rintro ⟨scope, kind⟩ hrevoked
    cases scope <;> cases kind <;> cases hrevoked <;> rfl
  intro fact hmem hrevoked
  rcases Bool.and_eq_false_iff.mp h with hquiet | hany
  · -- An action that is not mutating only refreshes content evidence.
    have hcontent :=
        (describeAction_declared action projection.graph).quiet.resolve_left fun hchanges =>
      absurd ((ActionContract.isMutating_of_changes hchanges).symm.trans hquiet) nofun
    have hnone : ∀ fact : FactInvalidation, fact.kind = .content →
        fact.activationNode = none ∧ fact.revokedNode = none := by
      rintro ⟨scope, _⟩ rfl
      cases scope <;> exact ⟨rfl, rfl⟩
    rw [hfacts, Projection.expandInvalidations_of_none fun fact hmem =>
      (hnone fact (hcontent fact hmem)).1] at hmem
    exact absurd ((hnone fact (hcontent fact hmem)).2.symm.trans hrevoked) nofun
  · have htouched : facts.any (·.scope == .node node) = true :=
      List.any_eq_true.mpr ⟨fact, hmem, beq_iff_eq.mpr (hscope fact hrevoked)⟩
    exact absurd (htouched.symm.trans hany) nofun

/-- An action leaves a node that it does not touch alone. -/
theorem simulateAction_nodeView (h : simulateAction projection action = .ok (result, next))
    (hwrites : result.contract.writesNode node = false)
    (hfacts : (result.contract.isMutating && result.invalidatedFacts.any (·.scope == .node node)) =
      false)
    (heffects : ∀ effect ∈ result.contract.predictedEffect.graph,
      graphEffectTouches effect node = false) :
    next.nodeView node = projection.nodeView node := by
  obtain ⟨hcontract, -, -, applied, happly, rfl⟩ := simulateAction_ok h
  obtain ⟨hexpanded, changed, mounted, evidence, hchanged, hmounted, hevidence, -, rfl⟩ :=
    Projection.applyEffect_ok happly
  rw [hcontract] at hexpanded hfacts
  have houtputs : ∀ access, .blockInterface node access ∉ result.contract.providedOutputs := by
    rw [hcontract] at hwrites ⊢
    intro access hmem
    have hlocked := ActionContract.writesNode_of_writes (describeAction_blockInterface hmem)
    exact absurd (hlocked.symm.trans hwrites) nofun
  have hrevoked := hexpanded ▸ revokes_none_of_untouched hexpanded hfacts
  calc
    Projection.nodeView
      ⟨mounted.desired, evidence.applyOutputs result.contract.providedOutputs⟩ node
    _ = Projection.nodeView ⟨mounted.desired, evidence⟩ node :=
      NodeView.ext rfl rfl rfl (Projection.applyOutputs_claims houtputs)
    _ = mounted.nodeView node :=
      NodeView.ext rfl rfl rfl (Projection.applyAllocationEffects_claims hevidence)
    _ = changed.nodeView node :=
      foldlM_view (·.nodeView node) (fun _ _ _ _ => Projection.applyMountEffect_nodeView) hmounted
    _ = _ :=
      foldlM_view (·.nodeView node) (fun effect hmem _ _ h =>
        Projection.applyGraphEffect_nodeView h (heffects effect hmem)) hchanged
    _ = projection.nodeView node :=
      NodeView.ext rfl rfl rfl (hcontract ▸ Projection.invalidateObservations_claims hrevoked)

/-- The mounts after an action are those its mount effects lead to. -/
theorem simulateAction_mounts {V : Type} (view : MountSpec → V)
    (h : simulateAction projection action = .ok (result, next))
    (heffects : ∀ effect ∈ result.contract.predictedEffect.mounts, ∀ before after,
      Projection.applyMountEffect before effect = .ok after →
      view after.desired.mounts = view before.desired.mounts) :
    view next.desired.mounts = view projection.desired.mounts := by
  obtain ⟨hcontract, -, -, applied, happly, rfl⟩ := simulateAction_ok h
  obtain ⟨-, changed, mounted, evidence, hchanged, hmounted, -, -, rfl⟩ :=
    Projection.applyEffect_ok happly
  have hgraph := foldlM_view (·.desired.mounts)
    (fun _ _ _ _ => Projection.applyGraphEffect_mounts) hchanged
  have hmounts := foldlM_view (fun projection : Projection => view projection.desired.mounts)
    heffects hmounted
  exact hmounts.trans (congrArg view hgraph)

/-- An action leaves the runtime mounts alone that it does not touch. -/
theorem simulateAction_runtimeView (h : simulateAction projection action = .ok (result, next))
    (htouches : touchesRuntimeMount result.contract mount = false) :
    next.runtimeView mount = projection.runtimeView mount := by
  refine simulateAction_mounts (fun mounts => mounts.runtime.filter mount.concerns) h ?_
  intro effect hmem before after hstep
  refine Projection.applyMountEffect_runtimeView hstep (Bool.eq_false_iff.mpr fun heffect => ?_)
  have hany : touchesRuntimeMount result.contract mount = true :=
    List.any_eq_true.mpr ⟨effect, hmem, heffect⟩
  exact absurd (hany.symm.trans htouches) nofun

/-- An action leaves the persistent mounts of a context alone whose configuration it does not
write. -/
theorem simulateAction_persistentView (h : simulateAction projection action = .ok (result, next))
    (htouches : touchesPersistentMount result.contract mount = false) :
    next.persistentView mount = projection.persistentView mount := by
  refine simulateAction_mounts (fun mounts => mounts.persistent.filter mount.concerns) h ?_
  intro effect hmem before after hstep
  refine Projection.applyMountEffect_persistentView hstep fun hcontext => ?_
  obtain ⟨hcontract, -⟩ := simulateAction_ok h
  rw [hcontract] at hmem htouches
  have hwrites :=
    (describeAction_declared action projection.graph).persistent effect hmem _ hcontext
  have hany : touchesPersistentMount (describeAction action projection.graph) mount = true :=
    List.any_eq_true.mpr ⟨_, hwrites, by simp⟩
  exact absurd (hany.symm.trans htouches) nofun

end Action

/-! ### Whole plans -/

/-- What the scope protects is as it was. -/
structure ScopeKept (scope : ProtectedScope) (before after : Projection) : Prop where
  nodes : ∀ node ∈ scope.nodes, after.nodeView node = before.nodeView node
  runtimeMounts : ∀ mount ∈ scope.runtimeMounts, after.runtimeView mount = before.runtimeView mount
  persistentMounts : ∀ mount ∈ scope.persistentMounts,
    after.persistentView mount = before.persistentView mount

section Replay

variable {keys : ContractKeys} {scope : ProtectedScope} {projection next last : Projection}

theorem ScopeKept.refl (scope : ProtectedScope) (projection : Projection) :
    ScopeKept scope projection projection :=
  ⟨fun _ _ => rfl, fun _ _ => rfl, fun _ _ => rfl⟩

theorem ScopeKept.trans (h : ScopeKept scope projection next) (h' : ScopeKept scope next last) :
    ScopeKept scope projection last where
  nodes node hmem := (h'.nodes node hmem).trans (h.nodes node hmem)
  runtimeMounts mount hmem := (h'.runtimeMounts mount hmem).trans (h.runtimeMounts mount hmem)
  persistentMounts mount hmem :=
    (h'.persistentMounts mount hmem).trans (h.persistentMounts mount hmem)

/-- Lists with the same members. -/
theorem any_congr_mem {α : Type} {p : α → Bool} {l l' : List α} (h : ∀ a, a ∈ l ↔ a ∈ l') :
    l.any p = l'.any p := by
  rw [Bool.eq_iff_iff, List.any_eq_true, List.any_eq_true]
  exact exists_congr fun a => and_congr_left' (h a)

/-- The check reads what both contracts declare. -/
theorem ActionContract.SameDeclarations.touches {contract other : ActionContract}
    (h : contract.SameDeclarations other) :
    (∀ step node, touchesNode contract step node = touchesNode other step node) ∧
    (∀ mount, touchesRuntimeMount contract mount = touchesRuntimeMount other mount) ∧
    ∀ mount, touchesPersistentMount contract mount = touchesPersistentMount other mount := by
  have hgraph : contract.predictedEffect.graph.isEmpty = other.predictedEffect.graph.isEmpty := by
    rw [Bool.eq_iff_iff, List.isEmpty_iff, List.isEmpty_iff, List.eq_nil_iff_forall_not_mem,
      List.eq_nil_iff_forall_not_mem]
    exact forall_congr' fun effect => not_congr (h.graph effect)
  refine ⟨fun step node => ?_, fun mount => ?_, fun mount => any_congr_mem h.resources⟩
  · simp only [touchesNode, ActionContract.writesNode, ActionContract.isMutating, hgraph, h.mounts,
      h.allocations, any_congr_mem h.resources, any_congr_mem h.graph]
  · rw [touchesRuntimeMount, touchesRuntimeMount, h.mounts]

/-- A step without a violation touches nothing that is protected. -/
theorem stepViolations_eq_nil {action : PlannedAction} {step : SimulatedStep}
    (h : stepViolations scope (action, step) = []) :
    (∀ node ∈ scope.nodes, touchesNode action.informationalContract step node = false) ∧
    (∀ mount ∈ scope.runtimeMounts,
      touchesRuntimeMount action.informationalContract mount = false) ∧
    ∀ mount ∈ scope.persistentMounts,
      touchesPersistentMount action.informationalContract mount = false := by
  have h := List.map_eq_nil_iff.mp h
  simp only [touchedAspects, List.append_eq_nil_iff, List.map_eq_nil_iff, List.filter_eq_nil_iff,
    Bool.not_eq_true] at h
  exact ⟨h.1.1, h.1.2, h.2⟩

/-- **One round** of a replay without a violation. -/
theorem replayAction_kept {action : PlannedAction}
    {entry : PlannedAction × SimulatedStep}
    (h : replayAction keys projection action = .ok (entry, next))
    (hviolations : stepViolations scope (action, entry.2) = []) :
    ScopeKept scope projection next := by
  obtain ⟨hagree, result, hsimulated, rfl⟩ := replayAction_ok h
  obtain ⟨hnodes, hruntime, hpersistent⟩ := stepViolations_eq_nil hviolations
  -- The check was made on the imported contract, the effects are those of the trusted one.
  obtain ⟨hcontract, -⟩ := simulateAction_ok hsimulated
  have hdeclares := contractsAgree_same hagree
  rw [(keys.trusted action projection.graph).2, (keys.imported action).2] at hdeclares
  obtain ⟨htouchesNode, htouchesRuntime, htouchesPersistent⟩ :=
    (hcontract ▸ hdeclares).touches
  refine ⟨fun node hmem => ?_, fun mount hmem => ?_, fun mount hmem => ?_⟩
  · have huntouched := (htouchesNode _ node).trans (hnodes node hmem)
    simp only [touchesNode, Bool.or_eq_false_iff, List.any_eq_false] at huntouched
    obtain ⟨⟨hwrites, hfacts⟩, heffects⟩ := huntouched
    exact simulateAction_nodeView hsimulated hwrites hfacts fun effect hmem =>
      Bool.eq_false_iff.mpr (heffects effect hmem)
  · exact simulateAction_runtimeView hsimulated
      ((htouchesRuntime mount).trans (hruntime mount hmem))
  · exact simulateAction_persistentView hsimulated
      ((htouchesPersistent mount).trans (hpersistent mount hmem))

/-- **The whole loop.** -/
theorem replayActions_kept {actions : List PlannedAction}
    {entries : List (PlannedAction × SimulatedStep)}
    (h : replayActions keys projection actions = .ok (entries, last))
    (hviolations : ∀ pair ∈ actions.zip (entries.map (·.2)), stepViolations scope pair = []) :
    ScopeKept scope projection last := by
  induction actions generalizing projection entries with
  | nil =>
      obtain ⟨-, rfl⟩ := Prod.mk.inj (Except.ok.inj h)
      exact .refl scope projection
  | cons action rest ih =>
      obtain ⟨⟨entry, next⟩, hentry, h⟩ := Support.except_bind_eq_ok.mp h
      obtain ⟨⟨tail, last'⟩, htail, h⟩ := Support.except_bind_eq_ok.mp h
      obtain ⟨rfl, rfl⟩ := Prod.mk.inj (Except.ok.inj h)
      refine (replayAction_kept hentry (hviolations _ List.mem_cons_self)).trans ?_
      exact ih htail fun pair hmem => hviolations pair (List.mem_cons_of_mem _ hmem)

theorem mem_foldl_pushViolation {violation : ProtectionViolation}
    {violations found : List ProtectionViolation} :
    violation ∈ violations.foldl pushViolation found ↔
      violation ∈ found ∨ violation ∈ violations := by
  induction violations generalizing found with
  | nil => simp
  | cons first rest ih =>
      have hpush : violation ∈ pushViolation found first ↔
          violation ∈ found ∨ violation = first := by
        rw [pushViolation]
        split
        · next hfirst => exact ⟨.inl, fun h => h.elim id fun heq => heq ▸ hfirst⟩
        · rw [List.mem_append, List.mem_singleton]
      rw [List.foldl_cons, ih, hpush, List.mem_cons, or_assoc]

/-- A check without a violation has none at any step. -/
theorem checkProtectedScope_eq_nil {plan : ExecutionPlan} {simulation : SimulationResult}
    {ordered : List PlannedAction} (hordered : plan.orderedActions = some ordered)
    (h : checkProtectedScope plan simulation scope = some []) :
    ∀ pair ∈ ordered.zip simulation.steps, stepViolations scope pair = [] := by
  rw [checkProtectedScope, hordered, Option.map_some, Option.some_inj] at h
  intro pair hpair
  refine List.eq_nil_iff_forall_not_mem.mpr fun violation hmem => ?_
  have hfound := mem_foldl_pushViolation.mpr
    (.inr (List.mem_flatMap.mpr ⟨pair, hpair, hmem⟩) : violation ∈ [] ∨ _)
  rw [h] at hfound
  cases hfound

end Replay

/-- A new ledger has revoked nothing. -/
theorem SimulationEvidence.new_claims {capacity : List CapacityEvidence}
    {evidence : SimulationEvidence}
    (h : SimulationEvidence.new capacity = .ok evidence) : evidence.invalidatedFacts = [] := by
  rw [SimulationEvidence.eq_of_new h]

/-- **The protected scope is sound over every intermediate state.**  When the replay of a plan
succeeds and the check reports no violation, then after every prefix of the replay each protected
node has the value and the edges of the baseline, the runtime claims about it are those of the
baseline and none of its activation or presence observations is revoked, and the runtime mounts and
persistent entries at, above and below every protected target are those of the baseline. -/
theorem protected_scope_sound {keys : ContractKeys} {current : CurrentState}
    {plan trusted : ExecutionPlan} {capacity : List CapacityEvidence}
    {simulation : SimulationResult}
    {scope : ProtectedScope}
    (hreplay : replayPlan keys current plan capacity = pure (trusted, simulation))
    (hscope : checkProtectedScope plan simulation scope = some []) :
    ∃ evidence ordered, SimulationEvidence.new capacity = .ok evidence ∧
      plan.orderedActions = some ordered ∧
      ∀ done rest, ordered = done ++ rest → ∃ entries projection,
        replayActions keys (.initial current evidence) done = .ok (entries, projection) ∧
        ScopeKept scope (.initial current evidence) projection ∧
        ∀ node ∈ scope.nodes, (projection.evidence.claims node).revoked = [] := by
  obtain ⟨-, evidence, ordered, entries, last, hevidence, hordered, hactions, -, rfl⟩ :=
    replayPlan_eq_pure hreplay
  have hviolations := checkProtectedScope_eq_nil hordered hscope
  refine ⟨evidence, ordered, hevidence, hordered, ?_⟩
  rintro done rest rfl
  obtain ⟨before, mid, after, hbefore, -, rfl⟩ := replayActions_append hactions
  have hkept : ScopeKept scope (.initial current evidence) mid := by
    refine replayActions_kept hbefore fun pair hpair => hviolations pair ?_
    rw [List.map_append, List.zip_append (by rw [List.length_map, replayActions_length hbefore])]
    exact List.mem_append_left _ hpair
  refine ⟨before, mid, hbefore, hkept, fun node hnode => ?_⟩
  have hclaims := congrArg (fun view => view.claims.revoked) (hkept.nodes node hnode)
  refine hclaims.trans ?_
  rw [Projection.nodeView, SimulationEvidence.claims, Projection.initial,
    SimulationEvidence.new_claims hevidence, List.filter_nil]

/-- `/home`, which is mounted and must stay so. -/
def sampleHome : ProtectedMount := ⟨⟨[.rootDir, .normal "home"]⟩, .host⟩

/-- A snapshot whose only mount is the protected one. -/
def sampleHomeState : CurrentState := ⟨.empty, [⟨.tmpfs, sampleHome.target, [], .host⟩], {}, []⟩

/-- The protected mount is still there after a mount elsewhere. -/
theorem sample_mount_keeps_home :
    ∃ evidence entries projection,
      replayActions sampleKeys (.initial sampleHomeState evidence) [sampleAction] =
        .ok (entries, projection) ∧
      projection.runtimeView sampleHome = [⟨.tmpfs, sampleHome.target, [], .host⟩] := by
  obtain ⟨simulation, hreplay, hscope⟩ : ∃ simulation,
      replayPlan sampleKeys sampleHomeState ⟨[sampleAction], []⟩ [] =
        pure (⟨[sampleAction], []⟩, simulation) ∧
      checkProtectedScope ⟨[sampleAction], []⟩ simulation ⟨[], [sampleHome], [sampleHome]⟩ =
        some [] :=
    ⟨_, rfl, rfl⟩
  obtain ⟨evidence, ordered, -, hordered, hkept⟩ :=
    protected_scope_sound hreplay hscope
  obtain rfl : [sampleAction] = ordered := Option.some.inj hordered
  obtain ⟨entries, projection, hreplayed, hkept, -⟩ := hkept [sampleAction] [] rfl
  exact ⟨evidence, entries, projection, hreplayed,
    hkept.runtimeMounts sampleHome List.mem_cons_self⟩

end DisksGraph
