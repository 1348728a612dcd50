import DisksGraph.Runtime.Checkpoint
import DisksGraph.Support.Program

/-!
# Runtime — Admission

Fresh admission of one action under its lease (`host.rs`, `capability.rs`, `authorization.rs`).

The capability and authorization policies are traits that the application implements;
`checkAdmission` is a program that calls them, so a result holds for whatever they answer.  The text
that `to_string` gives a resolution error is the parameter `text`.

* `Admits`: what one admission establishes, stage by stage.
* `admission_implies_authorization`: a resolved action has been authorized in the same call.
-/

namespace DisksGraph

open Support (Fallible Returns)
open Support.Fallible (Yields)

/-- Exact request submitted to a host-owned approval policy after fresh target resolution. -/
structure ApprovalRequest where
  runId : Uuid
  planId : Uuid
  actionId : ActionId
  planDigest : String
  backend : BackendId
  targets : List TargetFingerprint
  observation : ObservationReference
deriving DecidableEq

/-- Whether a trusted adapter implements an operation on this host. -/
inductive OperationAvailability where
  | available (backend : BackendId)
  | unavailable (reason : String)
  | unknown (reason : String)
deriving DecidableEq

/-- Failures leave admission without permission to dispatch.  The variants that only other entry
points raise are left out. -/
inductive HostError where
  | historicalRejected
  | finalVerificationUnavailable
  | binding (error : BindingError)
  | leaseMismatch
  | observationMismatch
  | activeAttempt
  | probe (error : ObservationError)
  | checkpoint (error : CheckpointError)
  | run (error : ExecutionRunError)
  | document (error : PlanDocumentError)
deriving DecidableEq

/-- Observed prerequisites plus an endpoint only when all applicability checks have passed. -/
structure AdmissionDecision where
  report : AdmissionReport
  resolved : Option ResolvedAction

/-- Exclusive cooperative lease bound to one run and action and its trusted resource
declarations. -/
structure ExecutionLease where
  runId : Uuid
  action : ActionId
  heldResources : List ResourceAccess

/-- The calls of `check_admission`: the checkpoint under the lease, the capability policy and the
authorization policy. -/
inductive HostCall where
  | inspect
  | availability (operation : ProviderAction) (observed : LiveObservation)
  | checkScope (run : ExecutionRun) (action : ResolvedAction) (observed : LiveObservation)
  | checkConsumerExclusion (run : ExecutionRun) (action : ResolvedAction)
      (observed : LiveObservation)
  | checkMountExclusion (run : ExecutionRun) (action : ResolvedAction) (observed : LiveObservation)
  | authorize (request : ApprovalRequest)
  | checkDestructive (request : ApprovalRequest) (target : NodeId)

/-- What the host answers. -/
def HostCall.Answer : HostCall → Type
  | .inspect => Except CheckpointError (Option ActiveAttempt)
  | .availability .. => OperationAvailability
  | .checkScope .. | .checkConsumerExclusion .. | .checkMountExclusion .. | .authorize _
  | .checkDestructive .. => LiveCheckStatus

/-- A host function: it calls the policies, fails or panics. -/
abbrev HostM : Type → Type := Fallible HostCall HostCall.Answer HostError

/-- Makes one call. -/
def HostCall.ask (call : HostCall) : HostM call.Answer := Fallible.ask call

/-- The calls of one run of a host function, with their answers. -/
abbrev HostTrace : Type := List (Support.Program.Event HostCall HostCall.Answer)

/-- `matches!(status, Unknown { .. })`. -/
def LiveCheckStatus.isUnknown : LiveCheckStatus → Bool
  | .unknown _ => true
  | _ => false

/-- The live host; the policies are its calls. -/
structure LinuxLiveHost where
  lastProbe : Option ObservationReference

namespace LinuxLiveHost

/-- The publication is the host's most recent one, and newer than what the run has seen. -/
def isCurrent (host : LinuxLiveHost) (run : ExecutionRun) (reference : ObservationReference) :
    Bool :=
  host.lastProbe == some reference &&
    !run.latestObservation.any fun latest =>
      latest.reference.probeInstance != reference.probeInstance ||
        latest.reference.epoch ≥ reference.epoch

/-- The checks in front of an admission: its lease, its state, its observation, no incident. -/
def checkEntry (host : LinuxLiveHost) (run : ExecutionRun) (action : ActionId)
    (observed : ProbedObservation) (lease : ExecutionLease) : HostM Unit :=
  if lease.runId ≠ run.runId ∨ lease.action ≠ action then Fallible.fail .leaseMismatch
  else match run.state action with
    | .error error => Fallible.fail (.run error)
    | .ok state =>
        if state ≠ .checking then Fallible.fail (.run (.invalidTransition action state))
        else if !host.isCurrent run observed.observation.reference then
          Fallible.fail .observationMismatch
        else do
          let active : Except CheckpointError (Option ActiveAttempt) ← HostCall.inspect.ask
          match active with
          | .error error => Fallible.fail (.checkpoint error)
          | .ok (some _) => Fallible.fail .activeAttempt
          | .ok none => pure ()

/-- The planned action, which the source indexes without a check. -/
def plannedAction (run : ExecutionRun) (action : ActionId) : HostM PlannedAction :=
  match run.plan.actions[action.get]? with
  | none => throw .panic
  | some planned => pure planned

/-- The frozen prerequisites, in the observation. -/
def observedChecks (run : ExecutionRun) (planned : PlannedAction) (observed : ProbedObservation)
    (correlations : List NodeCorrelation) :
    Except ObservationError (List (LiveCheck ActionPrerequisite)) := do
  let report ← checkObservedPrerequisitesWithBindings run.document.baseline observed.observation
    observed.capacity planned.informationalContract.prerequisites correlations
  return report.checks

/-- Availability of the operation, and its endpoint if it is available. -/
def resolveAvailable (text : TargetError → String) (run : ExecutionRun) (action : ActionId)
    (planned : PlannedAction) (observed : ProbedObservation) (bindings : OutputBindings) :
    HostM (LiveCheckStatus × Option ResolvedAction) := do
  let availability : OperationAvailability ←
    (HostCall.availability planned.operation observed.observation).ask
  match availability with
  | .unknown reason => return (.unknown reason, none)
  | .unavailable reason => return (.violated reason, none)
  | .available backend =>
      match Targets.resolveActionWithBindings run action observed.observation backend bindings with
      | none => throw .panic
      | some (.ok resolved) => return (.satisfied, some resolved)
      | some (.error error) => return (.violated (text error), none)

/-- The backing of the one operation whose destructive approval the host can ask for. -/
def formattedBacking : ProviderAction → Option NodeId
  | .filesystem (.create backing _ .ext4 _) => some backing
  | _ => none

/-- Asks for consumer exclusion where the observation could not tell. -/
def excludeConsumers (run : ExecutionRun) (action : ResolvedAction) (observed : LiveObservation)
    (backing : Option NodeId) (checks : List (LiveCheck ActionPrerequisite)) :
    HostM (List (LiveCheck ActionPrerequisite)) :=
  match backing with
  | none => pure checks
  | some backing =>
      checks.mapM fun check =>
        if check.condition = .noUnexpectedConsumers backing ∧ check.status.isUnknown then do
          let status : LiveCheckStatus ← (HostCall.checkConsumerExclusion run action observed).ask
          return { check with status }
        else pure check

/-- The mount prerequisites that mount exclusion answers. -/
def coveredByExclusion (action : ResolvedAction) (source : MountSource) (target : PathBuf)
    (context : MountContext) : ActionPrerequisite → Bool
  | .mountSourceAvailable value => value == source && action.filesystemTarget.isSome
  | .mountTargetAvailable value scope | .mountDescendantsAbsent value scope =>
      value == target && scope == context
  | _ => false

/-- Asks for mount exclusion once; a refusal is the verdict whatever the checks say. -/
def excludeMounts (run : ExecutionRun) (action : ResolvedAction) (observed : LiveObservation)
    (checks : List (LiveCheck ActionPrerequisite)) :
    HostM (LiveCheckStatus × List (LiveCheck ActionPrerequisite)) :=
  match action.operation with
  | .mount (.mount source target _ context) => do
      let exclusion : LiveCheckStatus ← (HostCall.checkMountExclusion run action observed).ask
      return (exclusion, checks.map fun check =>
        if check.status.isUnknown ∧ coveredByExclusion action source target context check.condition
        then { check with status := exclusion } else check)
  | _ => pure (.satisfied, checks)

/-- Only the approval of the backing itself may still be open. -/
def factsReady (backing : Option NodeId) (checks : List (LiveCheck ActionPrerequisite)) : Bool :=
  checks.all fun check =>
    check.status == .satisfied ||
      match check.condition with
      | .destructiveApproval node => some node == backing && check.status.isUnknown
      | _ => false

/-- Asks for destructive approval of the backing where it is open. -/
def approveDestructive (request : ApprovalRequest) (backing : Option NodeId)
    (checks : List (LiveCheck ActionPrerequisite)) : HostM (List (LiveCheck ActionPrerequisite)) :=
  checks.mapM fun check =>
    match check.condition with
    | .destructiveApproval node =>
        if some node = backing ∧ check.status.isUnknown then do
          let status : LiveCheckStatus ← (HostCall.checkDestructive request node).ask
          return { check with status }
        else pure check
    | _ => pure check

/-- The first check that is not satisfied decides the verdict. -/
def incompleteStatus (checks : List (LiveCheck ActionPrerequisite)) : LiveCheckStatus :=
  match checks.find? fun check => check.status ≠ .satisfied with
  | some incomplete => incomplete.status
  | none => .satisfied

/-- The exact request for one resolved action. -/
def approvalRequest (run : ExecutionRun) (action : ResolvedAction)
    (reference : ObservationReference) (planDigest : String) : ApprovalRequest where
  runId := run.runId
  planId := run.document.planId
  actionId := action.actionId
  planDigest := planDigest
  backend := action.backend
  targets := action.fingerprints
  observation := reference

/-- Asks the invoking principal, then for destructive approval. -/
def authorizeAction (encoding : CheckpointEncoding) (run : ExecutionRun) (action : ResolvedAction)
    (reference : ObservationReference) (backing : Option NodeId)
    (checks : List (LiveCheck ActionPrerequisite)) :
    HostM (LiveCheckStatus × List (LiveCheck ActionPrerequisite)) :=
  match encoding.planDigest run.document with
  | .error error => Fallible.fail (.document error)
  | .ok planDigest => do
      let request := approvalRequest run action reference planDigest
      let verdict : LiveCheckStatus ← (HostCall.authorize request).ask
      if verdict = .satisfied then do
        let checks ← approveDestructive request backing checks
        return (incompleteStatus checks, checks)
      else return (verdict, checks)

/-- The stages after resolution: scope, membership, exclusions, authorization. -/
def checkApplicability (encoding : CheckpointEncoding) (run : ExecutionRun)
    (action : ResolvedAction) (observed : ProbedObservation)
    (checks : List (LiveCheck ActionPrerequisite)) :
    HostM (LiveCheckStatus × List (LiveCheck ActionPrerequisite)) := do
  let scope : LiveCheckStatus ← (HostCall.checkScope run action observed.observation).ask
  if scope ≠ .satisfied then return (scope, checks)
  else if observed.checkVgMembership action.target.observedId ≠ .satisfied then
    return (observed.checkVgMembership action.target.observedId, checks)
  else
    let backing := formattedBacking action.operation
    let checks ← excludeConsumers run action observed.observation backing checks
    let (exclusion, checks) ← excludeMounts run action observed.observation checks
    if exclusion ≠ .satisfied then return (exclusion, checks)
    else if factsReady backing checks then
      authorizeAction encoding run action observed.observation.reference backing checks
    else return (.unknown "authorization deferred until all prerequisites pass", checks)

/-- Never treats successful discovery, simulation, or root privileges as authorization. -/
def checkAdmission (host : LinuxLiveHost) (encoding : CheckpointEncoding)
    (text : TargetError → String) (run : ExecutionRun) (action : ActionId)
    (observed : ProbedObservation) (bindings : OutputBindings) (lease : ExecutionLease) :
    HostM AdmissionDecision := do
  host.checkEntry run action observed lease
  let planned ← plannedAction run action
  let correlations ← Fallible.lift .binding (bindings.correlations run observed.observation)
  let checks ← Fallible.lift .probe
    (Returns.lift (observedChecks run planned observed correlations))
  let (applicability, resolved) ←
    resolveAvailable text run action planned observed bindings
  let (applicability, checks) ← match resolved with
    | none => pure (applicability, checks)
    | some resolved => checkApplicability encoding run resolved observed checks
  return {
    report := {
      runId := run.runId
      action
      observation := observed.observation
      applicability
      heldResources := lease.heldResources
      checks }
    resolved := if applicability = .satisfied then resolved else none }

/-! ### What the stages do to the checks -/

/-- `call` was made in the run of `trace`, and answered `answer`. -/
def Answered (trace : HostTrace) (call : HostCall) (answer : call.Answer) : Prop :=
  ⟨call, answer⟩ ∈ trace

/-- A longer trace has the answer too. -/
theorem Answered.mono {trace trace' : HostTrace} {call : HostCall} {answer : call.Answer}
    (h : Answered trace call answer) (hsub : trace ⊆ trace') : Answered trace' call answer :=
  hsub h

theorem Answered.before {trace later : HostTrace} {call : HostCall} {answer : call.Answer}
    (h : Answered trace call answer) : Answered (trace ++ later) call answer :=
  List.mem_append_left _ h

theorem Answered.after {trace earlier : HostTrace} {call : HostCall} {answer : call.Answer}
    (h : Answered trace call answer) : Answered (earlier ++ trace) call answer :=
  List.mem_append_right _ h

theorem yields_call {call : HostCall} {trace : HostTrace} {answer : call.Answer}
    (h : Yields call.ask trace answer) : Answered trace call answer := by
  rw [HostCall.ask, Fallible.yields_ask] at h
  rw [h]
  exact List.mem_singleton_self _

/-- A destructive approval, in its condition. -/
def isApproval : ActionPrerequisite → Bool
  | .destructiveApproval _ => true
  | _ => false

/-- An open check that is no approval may be answered by an exclusion; all else is kept. -/
def Excluded (old new : LiveCheck ActionPrerequisite) : Prop :=
  new.condition = old.condition ∧
    (new = old ∨ (old.status.isUnknown = true ∧ isApproval old.condition = false))

/-- An open approval of the backing may be answered by the policy; all else is kept. -/
def Approved (trace : HostTrace) (request : ApprovalRequest) (backing : Option NodeId)
    (old new : LiveCheck ActionPrerequisite) : Prop :=
  new.condition = old.condition ∧
    (new = old ∨ (old.status.isUnknown = true ∧ ∃ node, old.condition = .destructiveApproval node ∧
      some node = backing ∧ Answered trace (.checkDestructive request node) new.status))

section Stages

variable {run : ExecutionRun} {action : ResolvedAction} {observed : LiveObservation}
  {checks checks' : List (LiveCheck ActionPrerequisite)} {backing : Option NodeId}
  {trace : HostTrace}

theorem excluded_refl (checks : List (LiveCheck ActionPrerequisite)) :
    List.Forall₂ Excluded checks checks :=
  List.forall₂_same.mpr fun _ _ => ⟨rfl, .inl rfl⟩

theorem excludeConsumers_excluded
    (h : Yields (excludeConsumers run action observed backing checks) trace checks') :
    List.Forall₂ Excluded checks checks' := by
  cases backing with
  | none =>
      obtain ⟨-, rfl⟩ := Fallible.yields_pure.mp h
      exact excluded_refl _
  | some backing =>
      refine (Fallible.forall₂_of_yields_mapM h).imp ?_
      rintro old new ⟨t, -, hnew⟩
      split at hnew
      · next hopen =>
        obtain ⟨_, _, status, -, -, hstatus⟩ := Fallible.yields_bind.mp hnew
        obtain ⟨-, rfl⟩ := Fallible.yields_pure.mp hstatus
        exact ⟨rfl, .inr ⟨hopen.2, by rw [hopen.1]; rfl⟩⟩
      · obtain ⟨-, rfl⟩ := Fallible.yields_pure.mp hnew
        exact ⟨rfl, .inl rfl⟩

/-- A check that an exclusion covers asks for no approval. -/
theorem coveredByExclusion_not_approval {source : MountSource} {target : PathBuf}
    {context : MountContext} {condition : ActionPrerequisite}
    (h : coveredByExclusion action source target context condition = true) :
    isApproval condition = false := by
  cases condition with
  | destructiveApproval node => exact absurd h Bool.false_ne_true
  | _ => rfl

/-- Excluding mounts turns checks into excluded ones at most. -/
theorem excludeMounts_excluded {exclusion : LiveCheckStatus}
    (h : Yields (excludeMounts run action observed checks) trace (exclusion, checks')) :
    List.Forall₂ Excluded checks checks' := by
  rw [excludeMounts] at h
  split at h
  · next source target options context hoperation =>
    obtain ⟨_, _, status, -, -, hstatus⟩ := Fallible.yields_bind.mp h
    obtain ⟨-, hpair⟩ := Fallible.yields_pure.mp hstatus
    obtain ⟨rfl, rfl⟩ := Prod.mk.inj hpair
    rw [List.forall₂_map_right_iff]
    refine List.forall₂_same.mpr fun old _ => ?_
    split
    · next hopen => exact ⟨rfl, .inr ⟨hopen.1, coveredByExclusion_not_approval hopen.2⟩⟩
    · exact ⟨rfl, .inl rfl⟩
  · obtain ⟨-, hpair⟩ := Fallible.yields_pure.mp h
    obtain ⟨-, rfl⟩ := Prod.mk.inj hpair
    exact excluded_refl _

/-- An approval satisfies the checks that ask for one. -/
theorem approveDestructive_approved {request : ApprovalRequest}
    (h : Yields (approveDestructive request backing checks) trace checks') :
    List.Forall₂ (Approved trace request backing) checks checks' := by
  refine (Fallible.forall₂_of_yields_mapM h).imp ?_
  rintro old new ⟨t, hsub, hnew⟩
  split at hnew
  · next node hcondition =>
    split at hnew
    · next hopen =>
      obtain ⟨t₁, t₂, status, rfl, hask, hstatus⟩ := Fallible.yields_bind.mp hnew
      obtain ⟨-, rfl⟩ := Fallible.yields_pure.mp hstatus
      refine ⟨rfl, .inr ⟨hopen.2, node, hcondition, hopen.1, ?_⟩⟩
      exact (yields_call hask).mono (List.Subset.trans (List.subset_append_left _ _) hsub)
    · obtain ⟨-, rfl⟩ := Fallible.yields_pure.mp hnew
      exact ⟨rfl, .inl rfl⟩
  · obtain ⟨-, rfl⟩ := Fallible.yields_pure.mp hnew
    exact ⟨rfl, .inl rfl⟩

/-- Nothing is incomplete exactly when every check is satisfied. -/
theorem incompleteStatus_eq_satisfied :
    incompleteStatus checks = .satisfied ↔ ∀ check ∈ checks, check.status = .satisfied := by
  rw [incompleteStatus]
  split
  · next incomplete hfind =>
    have hstatus : incomplete.status ≠ .satisfied := by simpa using List.find?_some hfind
    exact ⟨fun h => absurd h hstatus,
      fun h => absurd (h _ (List.mem_of_find?_eq_some hfind)) hstatus⟩
  · next hfind => simpa using hfind

end Stages

/-! ### The verdict -/

/-- What the stages after resolution establish: the exclusions answered open facts, and then either
the verdict is a refusal, or the principal authorized the request, the policy answered the open
approvals, and the checks decide. -/
structure Admits (encoding : CheckpointEncoding) (run : ExecutionRun) (action : ResolvedAction)
    (reference : ObservationReference) (trace : HostTrace)
    (checks : List (LiveCheck ActionPrerequisite)) (verdict : LiveCheckStatus)
    (checks' : List (LiveCheck ActionPrerequisite)) : Prop where
  stages : ∃ middle, List.Forall₂ Excluded checks middle ∧
    ((verdict ≠ .satisfied ∧ checks' = middle) ∨
      ∃ planDigest, encoding.planDigest run.document = .ok planDigest ∧
        Answered trace (.authorize (approvalRequest run action reference planDigest)) .satisfied ∧
        List.Forall₂ (Approved trace (approvalRequest run action reference planDigest)
          (formattedBacking action.operation)) middle checks' ∧
        verdict = incompleteStatus checks')

section Verdict

variable {encoding : CheckpointEncoding} {run : ExecutionRun} {action : ResolvedAction}
  {observed : ProbedObservation} {checks checks' : List (LiveCheck ActionPrerequisite)}
  {verdict : LiveCheckStatus} {trace : HostTrace}

theorem Excluded.trans {a b c : LiveCheck ActionPrerequisite} (h₁ : Excluded a b)
    (h₂ : Excluded b c) : Excluded a c := by
  refine ⟨h₂.1.trans h₁.1, ?_⟩
  rcases h₁.2 with rfl | hopen
  · exact h₂.2
  · exact .inr hopen

theorem Approved.mono {trace' : HostTrace} {request : ApprovalRequest} {backing : Option NodeId}
    {old new : LiveCheck ActionPrerequisite} (h : Approved trace request backing old new)
    (hsub : trace ⊆ trace') : Approved trace' request backing old new := by
  obtain ⟨hcondition, hstatus⟩ := h
  refine ⟨hcondition, hstatus.imp_right ?_⟩
  rintro ⟨hopen, node, hnode, hbacking, hanswer⟩
  exact ⟨hopen, node, hnode, hbacking, hanswer.mono hsub⟩

/-- A longer trace admits the same. -/
theorem Admits.mono {trace' : HostTrace} {reference : ObservationReference}
    (h : Admits encoding run action reference trace checks verdict checks')
    (hsub : trace ⊆ trace') :
    Admits encoding run action reference trace' checks verdict checks' := by
  obtain ⟨middle, hexcluded, hrefused | ⟨planDigest, hdigest, hauthorized, happroved, hverdict⟩⟩ :=
    h.stages
  · exact ⟨middle, hexcluded, .inl hrefused⟩
  · exact ⟨middle, hexcluded, .inr ⟨planDigest, hdigest, hauthorized.mono hsub,
      happroved.imp fun old new hnew => hnew.mono hsub, hverdict⟩⟩

/-- What is authorized is admitted. -/
theorem authorizeAction_admits {reference : ObservationReference}
    {middle : List (LiveCheck ActionPrerequisite)}
    (h : Yields (authorizeAction encoding run action reference (formattedBacking action.operation)
      middle) trace (verdict, checks')) (hexcluded : List.Forall₂ Excluded checks middle) :
    Admits encoding run action reference trace checks verdict checks' := by
  rw [authorizeAction] at h
  split at h
  · exact absurd h Fallible.yields_throw
  · next planDigest hdigest =>
    obtain ⟨t₁, t₂, answer, rfl, hask, h⟩ := Fallible.yields_bind.mp h
    split at h
    · next hsatisfied =>
      obtain ⟨t₃, t₄, approved, rfl, happrove, h⟩ := Fallible.yields_bind.mp h
      obtain ⟨-, hpair⟩ := Fallible.yields_pure.mp h
      obtain ⟨rfl, rfl⟩ := Prod.mk.inj hpair
      subst hsatisfied
      refine ⟨middle, hexcluded, .inr ⟨planDigest, hdigest, (yields_call hask).before, ?_, rfl⟩⟩
      refine (approveDestructive_approved happrove).imp fun old new hnew => hnew.mono ?_
      exact List.subset_append_of_subset_right _ (List.subset_append_left _ _)
    · next hrefused =>
      obtain ⟨-, hpair⟩ := Fallible.yields_pure.mp h
      obtain ⟨rfl, rfl⟩ := Prod.mk.inj hpair
      exact ⟨middle, hexcluded, .inl ⟨hrefused, rfl⟩⟩

/-- The verdict on the checks is admitted. -/
theorem checkApplicability_admits
    (h : Yields (checkApplicability encoding run action observed checks) trace (verdict, checks')) :
    Admits encoding run action observed.observation.reference trace checks verdict checks' := by
  obtain ⟨t₁, t₂, scope, rfl, -, h⟩ := Fallible.yields_bind.mp h
  split at h
  · next hscope =>
    obtain ⟨-, hpair⟩ := Fallible.yields_pure.mp h
    obtain ⟨rfl, rfl⟩ := Prod.mk.inj hpair
    exact ⟨_, excluded_refl _, .inl ⟨hscope, rfl⟩⟩
  · split at h
    · next hmembers =>
      obtain ⟨-, hpair⟩ := Fallible.yields_pure.mp h
      obtain ⟨rfl, rfl⟩ := Prod.mk.inj hpair
      exact ⟨_, excluded_refl _, .inl ⟨hmembers, rfl⟩⟩
    · obtain ⟨t₃, t₄, first, rfl, hfirst, h⟩ := Fallible.yields_bind.mp h
      obtain ⟨t₅, t₆, ⟨exclusion, middle⟩, rfl, hsecond, h⟩ := Fallible.yields_bind.mp h
      have hexcluded : List.Forall₂ Excluded checks middle :=
        Support.forall₂_comp (T := Excluded) (fun _ _ _ h₁ h₂ => h₁.trans h₂)
          (excludeConsumers_excluded hfirst) (excludeMounts_excluded hsecond)
      dsimp only at h
      split at h
      · next hexclusion =>
        obtain ⟨-, hpair⟩ := Fallible.yields_pure.mp h
        obtain ⟨rfl, rfl⟩ := Prod.mk.inj hpair
        exact ⟨_, hexcluded, .inl ⟨hexclusion, rfl⟩⟩
      · split at h
        · -- The policy is asked last, and only when no fact is still missing.
          refine (authorizeAction_admits h hexcluded).mono ?_
          exact List.subset_append_of_subset_right _ (List.subset_append_of_subset_right _
            (List.subset_append_right _ _))
        · obtain ⟨-, hpair⟩ := Fallible.yields_pure.mp h
          obtain ⟨rfl, rfl⟩ := Prod.mk.inj hpair
          exact ⟨_, hexcluded, .inl ⟨nofun, rfl⟩⟩

/-- An action is resolved from what the host observed, or not at all. -/
theorem resolveAvailable_cases {text : TargetError → String} {id : ActionId}
    {planned : PlannedAction} {bindings : OutputBindings} {resolved : Option ResolvedAction}
    (h : Yields (resolveAvailable text run id planned observed bindings) trace
      (verdict, resolved)) :
    (verdict ≠ .satisfied ∧ resolved = none) ∨
      ∃ backend action, resolved = some action ∧
        Targets.resolveActionWithBindings run id observed.observation backend bindings
          = pure action := by
  obtain ⟨_, _, availability, -, -, h⟩ := Fallible.yields_bind.mp h
  cases availability with
  | unknown reason =>
      obtain ⟨-, hpair⟩ := Fallible.yields_pure.mp h
      obtain ⟨rfl, rfl⟩ := Prod.mk.inj hpair
      exact .inl ⟨nofun, rfl⟩
  | unavailable reason =>
      obtain ⟨-, hpair⟩ := Fallible.yields_pure.mp h
      obtain ⟨rfl, rfl⟩ := Prod.mk.inj hpair
      exact .inl ⟨nofun, rfl⟩
  | available backend =>
      dsimp only at h
      split at h
      · exact absurd h Fallible.yields_throw
      · next action haction =>
        obtain ⟨-, hpair⟩ := Fallible.yields_pure.mp h
        obtain ⟨-, rfl⟩ := Prod.mk.inj hpair
        exact .inr ⟨backend, action, rfl, haction⟩
      · obtain ⟨-, hpair⟩ := Fallible.yields_pure.mp h
        obtain ⟨rfl, rfl⟩ := Prod.mk.inj hpair
        exact .inl ⟨nofun, rfl⟩

/-- An admission either found no endpoint and refuses with the observed checks, or resolved the
action and went through the stages. -/
theorem checkAdmission_cases {host : LinuxLiveHost} {text : TargetError → String} {id : ActionId}
    {bindings : OutputBindings} {lease : ExecutionLease} {decision : AdmissionDecision}
    (h : Yields (host.checkAdmission encoding text run id observed bindings lease) trace
      decision) :
    ∃ planned correlations checks, run.plan.actions[id.get]? = some planned ∧
      bindings.correlations run observed.observation = pure correlations ∧
      observedChecks run planned observed correlations = .ok checks ∧
      ((decision.resolved = none ∧ decision.report.applicability ≠ .satisfied ∧
          decision.report.checks = checks) ∨
        ∃ backend action,
          Targets.resolveActionWithBindings run id observed.observation backend bindings
            = pure action ∧
          Admits encoding run action observed.observation.reference trace checks
            decision.report.applicability decision.report.checks ∧
          decision.resolved =
            if decision.report.applicability = .satisfied then some action else none) := by
  obtain ⟨t₁, t₂, _, rfl, -, h⟩ := Fallible.yields_bind.mp h
  obtain ⟨t₃, t₄, planned, rfl, hplanned, h⟩ := Fallible.yields_bind.mp h
  obtain ⟨t₅, t₆, correlations, rfl, hcorrelations, h⟩ := Fallible.yields_bind.mp h
  obtain ⟨t₇, t₈, checks, rfl, hchecks, h⟩ := Fallible.yields_bind.mp h
  obtain ⟨t₉, t₁₀, ⟨available, resolved⟩, rfl, hresolved, h⟩ := Fallible.yields_bind.mp h
  have hplanned' : run.plan.actions[id.get]? = some planned := by
    rw [plannedAction] at hplanned
    split at hplanned
    · exact absurd hplanned Fallible.yields_throw
    · next found hfound =>
      obtain ⟨-, rfl⟩ := Fallible.yields_pure.mp hplanned
      exact hfound
  refine ⟨planned, correlations, checks, hplanned', (Fallible.yields_lift.mp hcorrelations).2,
    Returns.lift_eq_pure.mp (Fallible.yields_lift.mp hchecks).2, ?_⟩
  rcases resolveAvailable_cases hresolved with ⟨hrefused, rfl⟩ | ⟨backend, action, rfl, haction⟩
  · obtain ⟨t₁₁, t₁₂, ⟨verdict, checks'⟩, rfl, hverdict, h⟩ := Fallible.yields_bind.mp h
    obtain ⟨-, hpair⟩ := Fallible.yields_pure.mp hverdict
    obtain ⟨rfl, rfl⟩ := Prod.mk.inj hpair
    obtain ⟨-, rfl⟩ := Fallible.yields_pure.mp h
    exact .inl ⟨by simp, hrefused, rfl⟩
  · obtain ⟨t₁₁, t₁₂, ⟨verdict, checks'⟩, rfl, hverdict, h⟩ := Fallible.yields_bind.mp h
    obtain ⟨rfl, rfl⟩ := Fallible.yields_pure.mp h
    refine .inr ⟨backend, action, haction, (checkApplicability_admits hverdict).mono ?_, rfl⟩
    intro event hevent
    simp [hevent]

/-- A check that is contradicted, or is an approval, is not touched by the exclusions. -/
theorem Excluded.eq {old new : LiveCheck ActionPrerequisite} (h : Excluded old new)
    (hold : old.status.isUnknown = false ∨ isApproval old.condition = true) : new = old := by
  rcases h.2 with rfl | ⟨hopen, hother⟩
  · rfl
  · rcases hold with hold | hold
    · exact absurd (hopen.symm.trans hold) (by decide)
    · exact absurd (hother.symm.trans hold) (by decide)

/-- A check that is contradicted is not touched by the approvals either. -/
theorem Approved.eq {request : ApprovalRequest} {backing : Option NodeId}
    {old new : LiveCheck ActionPrerequisite} (h : Approved trace request backing old new)
    (hold : old.status.isUnknown = false) : new = old := by
  rcases h.2 with rfl | ⟨hopen, -⟩
  · rfl
  · exact absurd (hopen.symm.trans hold) (by decide)

/-- The conditions are those observed, and a contradiction stays one. -/
def Faithful (old new : LiveCheck ActionPrerequisite) : Prop :=
  new.condition = old.condition ∧
    ∀ reason, old.status = .violated reason → new.status = .violated reason

theorem Admits.faithful {reference : ObservationReference}
    (h : Admits encoding run action reference trace checks verdict checks') :
    List.Forall₂ Faithful checks checks' := by
  have hviolated : ∀ {check : LiveCheck ActionPrerequisite} {reason : String},
      check.status = .violated reason → check.status.isUnknown = false := by
    intro check reason hreason
    rw [hreason]
    rfl
  have hexcluded : ∀ {old new : LiveCheck ActionPrerequisite}, Excluded old new →
      Faithful old new := fun hnew =>
    ⟨hnew.1, fun reason hreason => by rw [hnew.eq (.inl (hviolated hreason)), hreason]⟩
  obtain ⟨middle, hmiddle, ⟨-, rfl⟩ | ⟨planDigest, -, -, happroved, -⟩⟩ := h.stages
  · exact hmiddle.imp fun _ _ => hexcluded
  · refine Support.forall₂_comp ?_ hmiddle happroved
    intro old mid new hold hnew
    refine ⟨hnew.1.trans hold.1, fun reason hreason => ?_⟩
    have hmid := (hexcluded hold).2 reason hreason
    rw [hnew.eq (hviolated hmid), hmid]

/-- Only the policy satisfies an open approval: for the backing, on the authorized request. -/
theorem Admits.approval {reference : ObservationReference}
    (h : Admits encoding run action reference trace checks verdict checks') :
    List.Forall₂ (fun old new => ∀ node, old.condition = .destructiveApproval node →
      old.status.isUnknown = true → new.status = .satisfied →
      some node = formattedBacking action.operation ∧
      ∃ planDigest, encoding.planDigest run.document = .ok planDigest ∧
        Answered trace (.authorize (approvalRequest run action reference planDigest)) .satisfied ∧
        Answered trace (.checkDestructive (approvalRequest run action reference planDigest) node)
          .satisfied) checks checks' := by
  have hcontra : ∀ {check : LiveCheck ActionPrerequisite}, check.status.isUnknown = true →
      check.status ≠ .satisfied := by
    intro check hopen hsatisfied
    rw [hsatisfied] at hopen
    cases hopen
  obtain ⟨middle, hmiddle, ⟨-, rfl⟩ | ⟨planDigest, hdigest, hauthorized, happroved, -⟩⟩ := h.stages
  · refine hmiddle.imp fun old new hnew node hnode hopen hsatisfied => ?_
    rw [hnew.eq (.inr (by rw [hnode]; rfl))] at hsatisfied
    exact absurd hsatisfied (hcontra hopen)
  · refine Support.forall₂_comp ?_ hmiddle happroved
    intro old mid new hold hnew node hnode hopen hsatisfied
    rw [hold.eq (.inr (by rw [hnode]; rfl))] at hnew
    rcases hnew.2 with rfl | ⟨-, node', hnode', hbacking, hanswer⟩
    · exact absurd hsatisfied (hcontra hopen)
    · obtain rfl : node = node' := by
        rw [hnode] at hnode'
        exact ActionPrerequisite.destructiveApproval.inj hnode'
      exact ⟨hbacking, planDigest, hdigest, hauthorized, hsatisfied ▸ hanswer⟩

/-- A satisfied verdict was authorized, and leaves no check open. -/
theorem Admits.satisfied {reference : ObservationReference}
    (h : Admits encoding run action reference trace checks .satisfied checks') :
    (∀ check ∈ checks', check.status = .satisfied) ∧
      ∃ planDigest, encoding.planDigest run.document = .ok planDigest ∧
        Answered trace (.authorize (approvalRequest run action reference planDigest))
          .satisfied := by
  obtain ⟨middle, -, ⟨hne, -⟩ | ⟨planDigest, hdigest, hauthorized, -, hverdict⟩⟩ := h.stages
  · exact absurd rfl hne
  · exact ⟨incompleteStatus_eq_satisfied.mp hverdict.symm, planDigest, hdigest, hauthorized⟩

/-- Only formatting with ext4 has a formatted device. -/
theorem formattedBacking_eq {operation : ProviderAction} {node : NodeId}
    (h : formattedBacking operation = some node) :
    ∃ output label, operation = .filesystem (.create node output .ext4 label) := by
  unfold formattedBacking at h
  split at h
  · next backing output label =>
    obtain rfl := Option.some.inj h
    exact ⟨output, label, rfl⟩
  · cases h

/-- The observation never grants an approval. -/
theorem observedChecks_approval {planned : PlannedAction} {correlations : List NodeCorrelation}
    (h : observedChecks run planned observed correlations = .ok checks)
    {check : LiveCheck ActionPrerequisite} (hcheck : check ∈ checks) {node : NodeId}
    (hnode : check.condition = .destructiveApproval node) : check.status.isUnknown = true := by
  obtain ⟨report, hreport, hchecks⟩ := Support.except_bind_eq_ok.mp h
  obtain ⟨_, -, hreport⟩ := Support.except_bind_eq_ok.mp hreport
  obtain rfl := Except.ok.inj hreport
  obtain rfl := Except.ok.inj hchecks
  obtain ⟨condition, -, rfl⟩ := List.mem_map.mp hcheck
  dsimp only at hnode
  rw [hnode, checkPrerequisite_destructiveApproval]
  rfl

/-- A destructive approval that is reported satisfied was asked for, and granted, in this call. -/
theorem Admits.destructive {reference : ObservationReference} {planned : PlannedAction}
    {correlations : List NodeCorrelation}
    (h : Admits encoding run action reference trace checks verdict checks')
    (hchecks : observedChecks run planned observed correlations = .ok checks)
    {check : LiveCheck ActionPrerequisite} (hcheck : check ∈ checks') {node : NodeId}
    (hnode : check.condition = .destructiveApproval node) (hsatisfied : check.status = .satisfied) :
    some node = formattedBacking action.operation ∧
      ∃ planDigest, encoding.planDigest run.document = .ok planDigest ∧
        Answered trace (.authorize (approvalRequest run action reference planDigest)) .satisfied ∧
        Answered trace (.checkDestructive (approvalRequest run action reference planDigest) node)
          .satisfied := by
  obtain ⟨index, hindex, rfl⟩ := List.getElem_of_mem hcheck
  have hlength := h.approval.length_eq
  have hold := h.approval.get (by omega : index < checks.length) hindex
  have hkept := (h.faithful.get (by omega : index < checks.length) hindex).1
  have hnode' : checks[index].condition = .destructiveApproval node := hkept.symm.trans hnode
  exact hold node hnode' (observedChecks_approval hchecks (List.getElem_mem _) hnode') hsatisfied

end Verdict

end LinuxLiveHost

open LinuxLiveHost in
/-- **Admission implies authorization.**  Whatever the policies answer, an admission that returns
has an endpoint exactly when its verdict is satisfied; then every check of the report is satisfied
and the authorization policy answered satisfied, in this call, for the request of exactly this run,
plan, digest, action, backend, targets and observation.  A check that the observation contradicts is
reported contradicted.  A destructive approval is satisfied only for the backing of an ext4
creation, by the policy's answer for it on that request. -/
theorem admission_implies_authorization {host : LinuxLiveHost} {encoding : CheckpointEncoding}
    {text : TargetError → String} {run : ExecutionRun} {action : ActionId}
    {observed : ProbedObservation} {bindings : OutputBindings} {lease : ExecutionLease}
    {trace : HostTrace} {decision : AdmissionDecision}
    (h : Yields (host.checkAdmission encoding text run action observed bindings lease) trace
      decision) :
    (decision.resolved.isSome = true ↔ decision.report.applicability = .satisfied) ∧
    (∀ resolved, decision.resolved = some resolved →
      (∀ check ∈ decision.report.checks, check.status = .satisfied) ∧
      ∃ planDigest, encoding.planDigest run.document = .ok planDigest ∧
        Answered trace (.authorize {
          runId := run.runId
          planId := run.document.planId
          actionId := action
          planDigest
          backend := resolved.backend
          targets := resolved.fingerprints
          observation := observed.observation.reference }) .satisfied) ∧
    ∃ planned correlations checks, run.plan.actions[action.get]? = some planned ∧
      bindings.correlations run observed.observation = pure correlations ∧
      observedChecks run planned observed correlations = .ok checks ∧
      List.Forall₂ (fun observed reported => reported.condition = observed.condition ∧
        ∀ reason, observed.status = .violated reason → reported.status = .violated reason)
        checks decision.report.checks ∧
      ∀ check ∈ decision.report.checks, ∀ node, check.condition = .destructiveApproval node →
        check.status = .satisfied →
        ∃ backend resolved request,
          Targets.resolveActionWithBindings run action observed.observation backend bindings
            = pure resolved ∧
          (∃ output label, resolved.operation = .filesystem (.create node output .ext4 label)) ∧
          (∃ planDigest, encoding.planDigest run.document = .ok planDigest ∧ request = {
            runId := run.runId
            planId := run.document.planId
            actionId := action
            planDigest
            backend := resolved.backend
            targets := resolved.fingerprints
            observation := observed.observation.reference }) ∧
          Answered trace (.authorize request) .satisfied ∧
          Answered trace (.checkDestructive request node) .satisfied := by
  obtain ⟨planned, correlations, checks, hplanned, hcorrelations, hchecks, hcases⟩ :=
    checkAdmission_cases h
  rcases hcases with ⟨hnone, hrefused, hsame⟩ | ⟨backend, resolved, hresolve, hadmits, hdecision⟩
  · refine ⟨by simp [hnone, hrefused], by simp [hnone], planned, correlations, checks, hplanned,
      hcorrelations, hchecks, ?_, ?_⟩
    · rw [hsame]
      exact List.forall₂_same.mpr fun _ _ => ⟨rfl, fun _ hreason => hreason⟩
    · intro check hcheck node hnode hsatisfied
      rw [hsame] at hcheck
      have hopen := observedChecks_approval hchecks hcheck hnode
      rw [hsatisfied] at hopen
      cases hopen
  · have hrequest : ∀ planDigest,
        approvalRequest run resolved observed.observation.reference planDigest = {
          runId := run.runId
          planId := run.document.planId
          actionId := action
          planDigest
          backend := resolved.backend
          targets := resolved.fingerprints
          observation := observed.observation.reference } := by
      intro planDigest
      rw [approvalRequest, (Targets.resolveActionWithBindings_eq hresolve).2.1]
    refine ⟨?_, ?_, planned, correlations, checks, hplanned, hcorrelations, hchecks,
      hadmits.faithful, ?_⟩
    · rw [hdecision]
      by_cases hverdict : decision.report.applicability = .satisfied
      · simp [hverdict]
      · simp [hverdict]
    · intro found hfound
      by_cases hverdict : decision.report.applicability = .satisfied
      · rw [hdecision, if_pos hverdict] at hfound
        obtain rfl := Option.some.inj hfound
        rw [hverdict] at hadmits
        obtain ⟨hall, planDigest, hdigest, hauthorized⟩ := hadmits.satisfied
        rw [hrequest] at hauthorized
        exact ⟨hall, planDigest, hdigest, hauthorized⟩
      · rw [hdecision, if_neg hverdict] at hfound
        cases hfound
    · intro check hcheck node hnode hsatisfied
      obtain ⟨hbacking, planDigest, hdigest, hauthorized, happroved⟩ :=
        hadmits.destructive hchecks hcheck hnode hsatisfied
      rw [hrequest] at hauthorized happroved
      refine ⟨backend, resolved, _, hresolve, formattedBacking_eq hbacking.symm,
        ⟨planDigest, hdigest, rfl⟩, hauthorized, happroved⟩

/-! ### A volume group -/

/-- The disk under the physical volume. -/
def sampleDisk : NodeId := ⟨1#128⟩

/-- The group's only physical volume. -/
def samplePv : NodeId := ⟨2#128⟩

/-- The volume group. -/
def sampleVg : NodeId := ⟨3#128⟩

/-- The volume that is to be created. -/
def sampleLv : NodeId := ⟨4#128⟩

/-- One disk with one physical volume in one volume group. -/
def sampleGroup : NodeGraph where
  nodes := (((∅ : AList fun _ : NodeId => Node).insert sampleDisk
      ⟨⟨.disk, some 65536⟩,
        { presence := .present, identities := [.wwn "wwn-disk"],
          block := some ⟨[⟨[.rootDir, .normal "dev", .normal "sda"]⟩], ⟨8, 0⟩,
            some ⟨⟨512, nonZero_512⟩, none, none, none, none⟩, some false⟩ }⟩).insert samplePv
      ⟨⟨.lvmPv, some 65536⟩,
        { presence := .present, identities := [.lvmPvUuid "pv-uuid"] }⟩).insert sampleVg
      ⟨⟨.lvmVg "vg" (some 4096), some 65536⟩,
        { presence := .present, identities := [.lvmVgUuid "vg-uuid"] }⟩
  dependencies := [⟨sampleDisk, samplePv, .backs⟩, ⟨samplePv, sampleVg, .memberOf .lvmPv⟩]
  relations := []
  nodup_dependencies := by decide
  nodup_relations := by decide

/-- A snapshot with the volume group. -/
def sampleGroupState : CurrentState := ⟨sampleGroup, [], {}, []⟩

/-- Creates a linear volume in the group. -/
def sampleCreateLv : ProviderAction := .lvm (.createLv sampleVg sampleLv "data" 4096 .linear)

/-- The planned action that creates the volume. -/
def sampleCreation : PlannedAction where
  id := ⟨0⟩
  operation := sampleCreateLv
  fragment := ⟨0⟩
  localId := ⟨0⟩
  origin := .change sampleLv "create a logical volume"
  informationalContract := describeAction sampleCreateLv sampleGroup

/-- Sixteen free extents. -/
def sampleCapacity : List CapacityEvidence := [⟨.lvmVolumeGroup sampleVg, 16⟩]

/-- An attempt that is checking the creation of one volume. -/
def sampleCreationRun : ExecutionRun where
  runId := 7#128
  document := {
    schemaVersion := PLAN_SCHEMA_VERSION
    actionSemanticsVersion := ACTION_SEMANTICS_VERSION
    planId := 5#128
    baseline := ⟨6#128, sampleGroupState, sampleCapacity⟩
    requestedGoal := DesiredState.fromCurrent sampleGroupState
    protectedScope := {}
    actions := [sampleCreation]
    dependencies := [] }
  plan := ⟨[sampleCreation], []⟩
  actions := [{ state := .checking }]
  goalAspects := []

/-- The group as it is probed for the admission. -/
def sampleProbe : ProbedObservation where
  observation := ⟨⟨9#128, 1⟩, sampleGroupState⟩
  capacity := sampleCapacity
  vgMembers := [(sampleVg, 1)]

/-- A fixed digest, and records within their limits. -/
def sampleEncoding : CheckpointEncoding where
  planDigest _ := .ok "0123456789abcdef0123456789abcdef0123456789abcdef0123456789abcdef"
  longestString _ := 64
  encodedBytes _ := 512

/-- No incident, an available backend, and policies that approve. -/
def approving : (call : HostCall) → call.Answer
  | .inspect => .ok none
  | .availability .. => .available ⟨"lvm"⟩
  | .checkScope .. | .checkConsumerExclusion .. | .checkMountExclusion .. | .authorize _
  | .checkDestructive .. => LiveCheckStatus.satisfied

/-- The admission of the sample creation, by policies that approve. -/
def sampleAdmission : HostTrace × Except (Support.Failure HostError) AdmissionDecision :=
  (LinuxLiveHost.checkAdmission ⟨some ⟨9#128, 1⟩⟩ sampleEncoding (fun _ => "") sampleCreationRun ⟨0⟩
    sampleProbe (.new sampleCreationRun)
    ⟨7#128, ⟨0⟩, sampleCreation.informationalContract.affectedResources⟩).run.respond approving

/-- The sample action is admitted and resolved. -/
theorem sample_admission_resolved :
    (sampleAdmission.2.toOption.map fun decision => decision.report.applicability) =
        some .satisfied ∧
      (sampleAdmission.2.toOption.map fun decision => decision.resolved.isSome) = some true := by
  have hverdict : (sampleAdmission.2.toOption.map fun decision => decision.report.applicability) =
      some .satisfied := rfl
  refine ⟨hverdict, ?_⟩
  obtain ⟨decision, hdecision, hsatisfied⟩ := Option.map_eq_some_iff.mp hverdict
  have hyields : sampleAdmission.2 = .ok decision := by
    cases hresult : sampleAdmission.2 with
    | error failure =>
        rw [hresult] at hdecision
        cases hdecision
    | ok value =>
        rw [hresult] at hdecision
        rw [Option.some.inj hdecision]
  rw [hyields]
  have hruns := Support.Program.runs_respond approving (LinuxLiveHost.checkAdmission
    ⟨some ⟨9#128, 1⟩⟩ sampleEncoding (fun _ => "") sampleCreationRun ⟨0⟩ sampleProbe
    (.new sampleCreationRun)
    ⟨7#128, ⟨0⟩, sampleCreation.informationalContract.affectedResources⟩).run
  have hresolved := (admission_implies_authorization (hyields ▸ hruns)).1.mpr hsatisfied
  exact congrArg some hresolved

end DisksGraph
