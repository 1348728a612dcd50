import DisksGraph.Engine.Replay
import DisksGraph.Support.Folds

/-!
# Engine — Tracked

What one successful action does to the evidence.

Each stage of an action writes its own fields of the ledger and leaves the others alone.  What a
field holds after the action is then read off the one stage that writes it.

* `simulateAction_stages`: the stages, from the ledger before the action to the one after it.
* `simulateAction_checkedFilesystems`: the clean checks after an action.
-/

namespace DisksGraph

open Support (foldlM_invariant)

/-! ### The fields of each stage -/

/-- What an action revokes before its effects. -/
def SimulationEvidence.revoked (graph : NodeGraph) (evidence : SimulationEvidence)
    (invalidations : List FactInvalidation) : SimulationEvidence :=
  SimulationEvidence.invalidateFilesystemChecks graph
    (SimulationEvidence.invalidateObservations graph evidence invalidations).2 invalidations

section Stages

variable {evidence : SimulationEvidence} {projection projection' : Projection}

theorem foldl_revoke_evidence (facts : List FactInvalidation) :
    ∃ invalidated activations interfaces, facts.foldl SimulationEvidence.revoke evidence =
      { evidence with
        invalidatedFacts := invalidated
        activations := activations
        blockInterfaces := interfaces } := by
  induction facts generalizing evidence with
  | nil => exact ⟨_, _, _, rfl⟩
  | cons fact rest ih =>
      have hrevoke : ∃ invalidated activations interfaces, evidence.revoke fact =
          { evidence with
            invalidatedFacts := invalidated
            activations := activations
            blockInterfaces := interfaces } := by
        rw [SimulationEvidence.revoke]
        cases fact.revokedNode <;> exact ⟨_, _, _, rfl⟩
      obtain ⟨_, _, _, hrevoke⟩ := hrevoke
      obtain ⟨_, _, _, hrest⟩ := @ih (evidence.revoke fact)
      rw [List.foldl_cons, hrest, hrevoke]
      exact ⟨_, _, _, rfl⟩

/-- What a graph effect may change in the evidence. -/
theorem applyGraphEffect_evidence {effect : GraphEffect}
    (h : projection.applyGraphEffect effect = .ok projection') :
    ∃ nodes activations interfaces, projection'.evidence =
      { projection.evidence with
        projectedGraphNodes := nodes
        activations := activations
        blockInterfaces := interfaces } := by
  cases Projection.applyGraphEffect_step h with
  | update _ =>
      rw [Projection.markProjected]
      split <;> exact ⟨_, _, _, rfl⟩
  | _ => exact ⟨_, _, _, rfl⟩

theorem foldlM_applyGraphEffect_evidence {effects : List GraphEffect}
    (h : effects.foldlM Projection.applyGraphEffect projection = .ok projection') :
    ∃ nodes activations interfaces, projection'.evidence =
      { projection.evidence with
        projectedGraphNodes := nodes
        activations := activations
        blockInterfaces := interfaces } := by
  refine foldlM_invariant (P := fun state : Projection => ∃ nodes activations interfaces,
    state.evidence = { projection.evidence with
      projectedGraphNodes := nodes
      activations := activations
      blockInterfaces := interfaces }) ⟨_, _, _, rfl⟩ ?_ h
  rintro effect - state state' ⟨_, _, _, hstate⟩ hstep
  obtain ⟨_, _, _, hstate'⟩ := applyGraphEffect_evidence hstep
  rw [hstate', hstate]
  exact ⟨_, _, _, rfl⟩

/-- What mount effects may change in the evidence. -/
theorem foldlM_applyMountEffect_evidence {effects : List MountEffect}
    (h : effects.foldlM Projection.applyMountEffect projection = .ok projection') :
    ∃ persistent checked runtime, projection'.evidence =
      { projection.evidence with
        projectedPersistentTargets := persistent
        checkedFilesystems := checked
        projectedRuntimeMounts := runtime } := by
  refine foldlM_invariant (P := fun state : Projection => ∃ persistent checked runtime,
    state.evidence = { projection.evidence with
      projectedPersistentTargets := persistent
      checkedFilesystems := checked
      projectedRuntimeMounts := runtime }) ⟨_, _, _, rfl⟩ ?_ h
  rintro effect - state state' ⟨_, _, _, hstate⟩ hstep
  have hmark : ∀ target context, ∃ persistent checked runtime,
      state.evidence.markPersistentTarget target context =
        { projection.evidence with
          projectedPersistentTargets := persistent
          checkedFilesystems := checked
          projectedRuntimeMounts := runtime } := by
    intro target context
    rw [SimulationEvidence.markPersistentTarget, hstate]
    split <;> exact ⟨_, _, _, rfl⟩
  cases effect with
  | addRuntime source target options context =>
      rw [Projection.applyMountEffect] at hstep
      split at hstep
      · cases hstep
      · split at hstep
        · cases hstep
        · cases hstep
          dsimp only
          rw [hstate]
          cases source <;> exact ⟨_, _, _, rfl⟩
  | removeRuntime target context =>
      rw [Projection.applyMountEffect] at hstep
      split at hstep
      · cases hstep
      · cases hstep
        dsimp only
        rw [hstate]
        exact ⟨_, _, _, rfl⟩
  | setPersistent entry =>
      cases hstep
      exact hmark entry.target entry.context
  | removePersistent target context =>
      cases hstep
      exact hmark target context

/-- What allocation effects may change in the evidence. -/
theorem foldlM_applyAllocationEffect_evidence {effects : List AllocationEffect}
    {evidence' : SimulationEvidence} (h : evidence.applyAllocationEffects effects = .ok evidence') :
    ∃ capacity allocations, evidence' =
      { evidence with availableCapacity := capacity, projectedAllocations := allocations } := by
  refine foldlM_invariant (P := fun state : SimulationEvidence => ∃ capacity allocations,
    state = { evidence with
      availableCapacity := capacity
      projectedAllocations := allocations }) ⟨_, _, rfl⟩ ?_ h
  rintro effect - state state' ⟨_, _, rfl⟩ hstep
  unfold SimulationEvidence.applyAllocationEffect at hstep
  split at hstep
  · cases hstep
    exact ⟨_, _, rfl⟩
  · split at hstep
    · cases hstep
      exact ⟨_, _, rfl⟩
    · split at hstep
      · cases hstep
      · cases hstep
        exact ⟨_, _, rfl⟩
  · split at hstep
    · cases hstep
      exact ⟨_, _, rfl⟩
    · split at hstep
      · cases hstep
      · cases hstep
        exact ⟨_, _, rfl⟩

theorem applyOutputs_evidence (outputs : List ActionOutput) :
    ∃ interfaces checked, evidence.applyOutputs outputs =
      { evidence with blockInterfaces := interfaces, checkedFilesystems := checked } := by
  induction outputs generalizing evidence with
  | nil => exact ⟨_, _, rfl⟩
  | cons output rest ih =>
      have houtput : ∃ interfaces checked, evidence.applyOutput output =
          { evidence with blockInterfaces := interfaces, checkedFilesystems := checked } := by
        cases output <;> exact ⟨_, _, rfl⟩
      obtain ⟨_, _, houtput⟩ := houtput
      obtain ⟨_, _, hrest⟩ := @ih (evidence.applyOutput output)
      rw [SimulationEvidence.applyOutputs, List.foldl_cons, ← SimulationEvidence.applyOutputs, hrest,
        houtput]
      exact ⟨_, _, rfl⟩

end Stages

/-! ### One action -/

section Action

variable {projection next : Projection} {action : ProviderAction} {result : SimulatedAction}

/-- **The stages of a successful action.**  It revokes what its contract makes stale, applies its
graph changes, its mount changes and its allocations, and then records its outputs. -/
theorem simulateAction_stages (h : simulateAction projection action = .ok (result, next)) :
    ∃ changed mounted evidence,
      (action.graphChanges projection.graph).foldlM Projection.applyGraphEffect
          ⟨projection.desired, projection.evidence.revoked projection.graph
            (describeAction action projection.graph).invalidatedFacts⟩ = .ok changed ∧
        action.mountChanges.foldlM Projection.applyMountEffect changed = .ok mounted ∧
        mounted.evidence.applyAllocationEffects
          (describeAction action projection.graph).predictedEffect.allocations = .ok evidence ∧
        next = ⟨mounted.desired,
          evidence.applyOutputs (describeAction action projection.graph).providedOutputs⟩ := by
  obtain ⟨hcontract, -, -, applied, happly, rfl⟩ := simulateAction_ok h
  obtain ⟨-, changed, mounted, evidence, hchanged, hmounted, hevidence, -, rfl⟩ :=
    Projection.applyEffect_ok happly
  rw [hcontract] at hchanged hmounted hevidence ⊢
  rw [describeAction_graph] at hchanged
  rw [describeAction_mounts] at hmounted
  exact ⟨changed, mounted, evidence, hchanged, hmounted, hevidence, rfl⟩

/-! ### Clean checks -/

/-- Outputs add the checks they report. -/
theorem mem_checked_applyOutputs {evidence : SimulationEvidence} {outputs : List ActionOutput}
    {filesystem : NodeId} :
    filesystem ∈ (evidence.applyOutputs outputs).checkedFilesystems ↔
      filesystem ∈ evidence.checkedFilesystems ∨ .filesystemCheckPassed filesystem ∈ outputs := by
  have hstep : ∀ evidence output filesystem,
      filesystem ∈ (SimulationEvidence.applyOutput evidence output).checkedFilesystems ↔
        filesystem ∈ evidence.checkedFilesystems ∨ output = .filesystemCheckPassed filesystem := by
    intro evidence output filesystem
    cases output with
    | filesystemCheckPassed checked =>
        simp [SimulationEvidence.applyOutput, or_comm, eq_comm]
    | _ => simp [SimulationEvidence.applyOutput]
  have hview := Support.foldl_view
    (V := fun evidence filesystem => filesystem ∈ SimulationEvidence.checkedFilesystems evidence)
    (E := fun output filesystem => output = ActionOutput.filesystemCheckPassed filesystem)
    hstep outputs evidence filesystem
  rw [SimulationEvidence.applyOutputs, hview]
  simp

/-- Lost facts drop the checks they make stale. -/
theorem mem_checked_revoked {graph : NodeGraph} {evidence : SimulationEvidence}
    {facts : List FactInvalidation} {filesystem : NodeId} :
    filesystem ∈ (evidence.revoked graph facts).checkedFilesystems ↔
      filesystem ∈ evidence.checkedFilesystems ∧ filesystem ∉ checkScope graph facts := by
  obtain ⟨_, _, _, hrevoke⟩ :=
    @foldl_revoke_evidence evidence (expandInvalidations graph facts)
  rw [SimulationEvidence.revoked, SimulationEvidence.invalidateFilesystemChecks,
    SimulationEvidence.invalidateObservations]
  dsimp only
  rw [hrevoke, Finset.mem_filter]

/-- The mount may undo the clean check of the filesystem. -/
def MountEffect.Unchecks (effect : MountEffect) (filesystem : NodeId) : Prop :=
  ∃ source target options context, effect = .addRuntime source target options context ∧
    (source = .filesystem filesystem ∨ source.isUnresolved = true)

/-- A mount drops the check of its source. -/
theorem mem_checked_uncheckSource {source : MountSource} {evidence : SimulationEvidence}
    {filesystem : NodeId} :
    filesystem ∈ (Projection.uncheckSource source evidence).checkedFilesystems ↔
      filesystem ∈ evidence.checkedFilesystems ∧
        ¬(source = .filesystem filesystem ∨ source.isUnresolved = true) := by
  cases source with
  | filesystem mounted =>
      simp [Projection.uncheckSource, MountSource.isUnresolved, and_comm, eq_comm]
  | _ => simp [Projection.uncheckSource, MountSource.isUnresolved]

/-- A mount effect drops the check of what it mounts. -/
theorem mem_checked_applyMountEffect {mounted : Projection} {effect : MountEffect}
    {filesystem : NodeId} (h : projection.applyMountEffect effect = .ok mounted) :
    filesystem ∈ mounted.evidence.checkedFilesystems ↔
      filesystem ∈ projection.evidence.checkedFilesystems ∧ ¬effect.Unchecks filesystem := by
  cases effect with
  | addRuntime source target options context =>
      rw [Projection.applyMountEffect] at h
      split at h
      · cases h
      · split at h
        · cases h
        · cases h
          dsimp only
          rw [mem_checked_uncheckSource]
          simp [MountEffect.Unchecks]
  | removeRuntime target context =>
      rw [Projection.applyMountEffect] at h
      split at h
      · cases h
      · cases h
        simp [MountEffect.Unchecks]
  | setPersistent entry =>
      cases h
      simp only [MountEffect.Unchecks, SimulationEvidence.markPersistentTarget]
      split <;> simp
  | removePersistent target context =>
      cases h
      simp only [MountEffect.Unchecks, SimulationEvidence.markPersistentTarget]
      split <;> simp

/-- **The clean checks after an action** are those it performs and those it does not revoke. -/
theorem simulateAction_checkedFilesystems
    (h : simulateAction projection action = .ok (result, next)) {filesystem : NodeId} :
    filesystem ∈ next.evidence.checkedFilesystems ↔
      .filesystemCheckPassed filesystem ∈ (describeAction action projection.graph).providedOutputs ∨
        filesystem ∈ projection.evidence.checkedFilesystems ∧
          filesystem ∉ checkScope projection.graph
            (describeAction action projection.graph).invalidatedFacts ∧
          ∀ effect ∈ action.mountChanges, ¬effect.Unchecks filesystem := by
  obtain ⟨changed, mounted, evidence, hchanged, hmounted, hevidence, rfl⟩ := simulateAction_stages h
  obtain ⟨_, _, _, hgraph⟩ := foldlM_applyGraphEffect_evidence hchanged
  obtain ⟨_, _, hallocated⟩ := foldlM_applyAllocationEffect_evidence hevidence
  have hmounts : filesystem ∈ mounted.evidence.checkedFilesystems ↔
      filesystem ∈ changed.evidence.checkedFilesystems ∧
        ∀ effect ∈ action.mountChanges, ¬effect.Unchecks filesystem := by
    cases action with
    | mount action =>
        obtain ⟨once, honce, hrest⟩ := Support.except_bind_eq_ok.mp hmounted
        obtain rfl := Except.ok.inj hrest
        simp [mem_checked_applyMountEffect honce, ProviderAction.mountChanges]
    | _ =>
        obtain rfl := Except.ok.inj hmounted
        simp [ProviderAction.mountChanges]
  dsimp only
  rw [mem_checked_applyOutputs, hallocated, hmounts, hgraph, mem_checked_revoked, and_assoc,
    or_comm]

end Action

end DisksGraph
