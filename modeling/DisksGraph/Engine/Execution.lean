import DisksGraph.Engine.Live
import DisksGraph.Support.BoundedLog
import DisksGraph.Support.Stateful

/-!
# Engine — Execution

One serial execution attempt over an immutable reviewed description (`execution.rs`).

Every operation is a call on the run value that may fail half-way, so the model runs it in
`Stateful`: the value after a failed call is what the calls before the failure made of it, and an
index out of bounds or an overflowing counter is a panic.

`Uuid::now_v7` is outside the repository; `ExecutionRun.new` takes the identity it would draw.
-/

namespace DisksGraph

open Support (Returns Stateful)

/-- Maximum number of retained events per live run. -/
def MAX_RUN_EVENTS : Nat := 1024

/-- Byte bound on one provider progress message. -/
def MAX_PROGRESS_BYTES : Nat := 4096

/-! ### Reports -/

/-- One action's runtime lifecycle. -/
inductive ActionRunState where
  | waiting
  | checking
  | admitted
  | running
  | verifying
  | verified
  | failed
  | outcomeUnknown
deriving DecidableEq, Repr

namespace ActionRunState

/-- `matches!(state, Failed | OutcomeUnknown)`. -/
def isStopped : ActionRunState → Bool
  | .failed | .outcomeUnknown => true
  | _ => false

/-- `matches!(state, Checking | Admitted | Running | Verifying)`. -/
def isActive : ActionRunState → Bool
  | .checking | .admitted | .running | .verifying => true
  | _ => false

end ActionRunState

/-- Complete live admission supplied immediately before the backend invocation boundary. -/
structure AdmissionReport where
  runId : Uuid
  action : ActionId
  observation : LiveObservation
  applicability : LiveCheckStatus
  heldResources : List ResourceAccess
  checks : List (LiveCheck ActionPrerequisite)

/-- Backend result after actual completion. -/
inductive BackendOutcome where
  | succeeded
  | failed (reason : String)
  | outcomeUnknown (reason : String)
deriving DecidableEq, Repr

/-- Actual backend completion plus a newly published observation, including on failure. -/
structure BackendCompletion where
  runId : Uuid
  action : ActionId
  outcome : BackendOutcome
  observation : LiveObservation

/-- Actual postcondition checks tied to the retained post-backend observation. -/
structure VerificationReport where
  runId : Uuid
  action : ActionId
  observation : ObservationReference
  checks : List (LiveCheck Postcondition)

/-- Separate final verification of the actual requested configuration. -/
structure GoalVerificationReport where
  runId : Uuid
  observation : LiveObservation
  checks : List (LiveCheck GoalAspect)
  preservation : LiveCheckStatus

/-- All actual goal and preservation checks of a report succeeded. -/
def GoalVerificationReport.succeeded (report : GoalVerificationReport) : Bool :=
  report.preservation == .satisfied && report.checks.all (·.status == .satisfied)

/-- What a run reports. -/
inductive RunEventKind where
  | actionState (action : ActionId) (state : ActionRunState)
  | progress (action : ActionId) (detail : String)
  | admission (action : ActionId) (admitted : Bool)
  | goalVerification (verified : Bool)
deriving DecidableEq, Repr

/-- Ordered run event. -/
structure RunEvent where
  runId : Uuid
  sequence : Nat
  kind : RunEventKind
deriving DecidableEq, Repr

/-- Bounded replay after an exclusive last-consumed cursor. -/
structure EventsPage where
  events : List RunEvent
  nextSequence : Nat
  gap : Bool
deriving DecidableEq, Repr

/-! ### The run -/

/-- Retained evidence and state for one action, mutable only through run transitions. -/
structure ActionRun where
  state : ActionRunState := .waiting
  admission : Option AdmissionReport := none
  completion : Option BackendCompletion := none
  verification : Option VerificationReport := none
  preDispatchFailure : Option String := none
  unknownReason : Option String := none

/-- One serial execution attempt over an immutable reviewed description. -/
structure ExecutionRun where
  runId : Uuid
  document : PlanDocument
  plan : ExecutionPlan
  actions : List ActionRun
  latestObservation : Option LiveObservation := none
  goalAspects : List GoalAspect
  goalVerification : Option GoalVerificationReport := none
  events : List RunEvent := []
  nextEventSequence : Nat := 1

/-- Rejected runtime transition or evidence report. -/
inductive ExecutionRunError where
  | document (error : PlanDocumentError)
  | unknownAction (action : ActionId)
  | invalidTransition (action : ActionId) (state : ActionRunState)
  | predecessorNotVerified (action predecessor : ActionId)
  | activeAction
  | runStopped
  | reportMismatch
  | incompleteChecks
  | missingResources
  | staleObservation
  | invalidObservation (error : ObservationError)
  | actionsNotVerified
  | eventSequenceExhausted
  | invalidEventCursor (requested latest : Nat)
  | progressTooLarge
deriving DecidableEq

/-- Requires exactly the trusted condition set, rejecting extra, missing, or repeated
attestations. -/
def checksCover {α : Type} [DecidableEq α] (required : List α) (checks : List (LiveCheck α)) :
    Bool :=
  (required.all fun condition => checks.any fun check => check.condition = condition) &&
    checks.zipIdx.all fun entry =>
      entry.1.condition ∈ required &&
        !(checks.take entry.2).any fun earlier => earlier.condition = entry.1.condition

/-- Known violations dominate unknown evidence; only all-satisfied evidence permits success.  The
last argument is the result so far. -/
def evidenceState (unknown : ActionRunState) :
    List LiveCheckStatus → (result : ActionRunState) → ActionRunState
  | [], result => result
  | .violated _ :: _, _ => .failed
  | .unknown _ :: rest, _ => evidenceState unknown rest unknown
  | .satisfied :: rest, result => evidenceState unknown rest result

/-- The held resources include one access, at least in its mode. -/
def holds (held : List ResourceAccess) (required : ResourceAccess) : Bool :=
  held.any fun access =>
    access.resource == required.resource && (access.mode == .write || access.mode == required.mode)

namespace ExecutionRun

/-- Creates a waiting attempt after historical validation; this never dispatches a backend. -/
def new (keys : ContractKeys) (runId : Uuid) (document : PlanDocument) :
    Returns ExecutionRunError ExecutionRun :=
  match document.analyseHistorical keys with
  | none => Returns.never
  | some (.error error) => throw (.document error)
  | some (.ok analysis) =>
      pure {
        runId
        document
        plan := analysis.plan
        actions := analysis.plan.actions.map fun _ => {}
        goalAspects := analysis.report.goalChecks.map (·.aspect) }

/-- Reports actual verified run success only after a complete separate final report. -/
def isVerified (run : ExecutionRun) : Bool :=
  run.goalVerification.any fun report => report.succeeded

/-- Retained events newer than a sequence. -/
def eventsSince (run : ExecutionRun) (sequence : Nat) : List RunEvent :=
  run.events.filter fun event => event.sequence > sequence

/-- Returns bounded ordered replay and detects events lost since an exclusive cursor.  Both
subtractions panic below zero. -/
def eventsPage (run : ExecutionRun) (since : Nat) : Returns ExecutionRunError EventsPage :=
  match checkedSub run.nextEventSequence 1 with
  | none => Returns.never
  | some latest =>
      if since > latest then throw (.invalidEventCursor since latest)
      else match run.events.head? with
        | none => pure ⟨run.eventsSince since, latest, false⟩
        | some first =>
            match checkedSub first.sequence 1 with
            | none => Returns.never
            | some before => pure ⟨run.eventsSince since, latest, since < before⟩

/-! ### Building blocks of the operations -/

/-- A call on the run. -/
abbrev RunM : Type → Type := Stateful ExecutionRunError ExecutionRun

/-- Looks up an action before any use of its numeric index. -/
def action (id : ActionId) : RunM ActionRun := do
  let run ← get
  match run.actions[id.get]? with
  | none => throw (.unknownAction id)
  | some record => pure record

/-- Requires one exact lifecycle predecessor without mutating the run on failure. -/
def requireState (id : ActionId) (expected : ActionRunState) : RunM Unit := do
  let record ← action id
  Stateful.reject (record.state ≠ expected) (.invalidTransition id record.state)

/-- Binds a report to this attempt rather than another attempt over the same plan. -/
def checkReportIdentity (runId : Uuid) : RunM Unit := do
  let run ← get
  Stateful.reject (runId ≠ run.runId) .reportMismatch

/-- The reference is nil, from another probe instance than `latest`, or not newer. -/
def isStale (latest : Option LiveObservation) (reference : ObservationReference) : Bool :=
  reference.probeInstance.isNil ||
    latest.any fun latest =>
      latest.reference.probeInstance != reference.probeInstance ||
        latest.reference.epoch ≥ reference.epoch

/-- Requires a new publication from the same actual probe-service instance throughout the run. -/
def checkFreshObservation (observation : LiveObservation) : RunM Unit := do
  let run ← get
  Stateful.reject (isStale run.latestObservation observation.reference) .staleObservation
  match observation.validate with
  | .error error => throw (.invalidObservation error)
  | .ok () => pure ()

/-- Rejects exhaustion before mutating evidence or publishing any part of a transition. -/
def ensureEventCapacity (count : Nat) : RunM Unit := do
  let run ← get
  match checkedAdd run.nextEventSequence count with
  | none => throw .eventSequenceExhausted
  | some _ => pure ()

/-- The contract at an index of the frozen plan; the source indexes without a check. -/
def contract (id : ActionId) : RunM ActionContract := do
  let run ← get
  match run.plan.actions[id.get]? with
  | none => Stateful.panic
  | some planned => pure planned.informationalContract

/-- `self.actions[index]` on the left of an assignment. -/
def updateAction (id : ActionId) (update : ActionRun → ActionRun) : RunM Unit := do
  let run ← get
  if id.get < run.actions.length then set { run with actions := run.actions.modify id.get update }
  else Stateful.panic

/-- Appends one bounded event without deriving its identity from the truncated buffer. -/
def pushEvent (kind : RunEventKind) : RunM Unit := do
  ensureEventCapacity 1
  let run ← get
  match checkedAdd run.nextEventSequence 1 with
  | none => Stateful.panic
  | some next =>
      set ({ run with
        events := Support.pushBounded MAX_RUN_EVENTS run.events
          ⟨run.runId, run.nextEventSequence, kind⟩
        nextEventSequence := next } : ExecutionRun)

/-- Publishes one validated state change with a monotonically ordered event. -/
def setState (id : ActionId) (state : ActionRunState) : RunM Unit := do
  ensureEventCapacity 1
  updateAction id fun record => { record with state }
  pushEvent (.actionState id state)

/-! ### The operations -/

/-- One ordering edge of the plan: if it ends at the action, its start is verified. -/
def checkPredecessor (id : ActionId) (edge : ActionDependency) : RunM Unit :=
  if edge.after = id then do
    let record ← action edge.before
    Stateful.reject (record.state ≠ .verified) (.predecessorNotVerified id edge.before)
  else pure ()

/-- Begins read-only live admission only after required predecessors are verified. -/
def beginCheck (id : ActionId) : RunM Unit := do
  requireState id .waiting
  let run ← get
  Stateful.reject (run.actions.any (·.state.isStopped)) .runStopped
  run.plan.dependencies.forM (checkPredecessor id)
  Stateful.reject (run.actions.any (·.state.isActive)) .activeAction
  setState id .checking

/-- The state that the evidence of an admission report leads to. -/
def admissionState (report : AdmissionReport) : ActionRunState :=
  evidenceState .checking (report.applicability :: report.checks.map (·.status)) .admitted

/-- Records live evidence, entering `Admitted` only when every requirement is satisfied.  Unknown
evidence stays in `Checking`; a known violation stops the run before invocation. -/
def recordAdmission (report : AdmissionReport) : RunM Bool := do
  requireState report.action .checking
  checkReportIdentity report.runId
  checkFreshObservation report.observation
  let contract ← contract report.action
  Stateful.reject (!checksCover contract.prerequisites report.checks) .incompleteChecks
  Stateful.reject
    (contract.affectedResources.any fun required => !holds report.heldResources required)
    .missingResources
  ensureEventCapacity (if admissionState report = .checking then 1 else 2)
  modify fun run => { run with latestObservation := some report.observation }
  updateAction report.action fun record => { record with admission := some report }
  pushEvent (.admission report.action (admissionState report = .admitted))
  publishDecision report.action (admissionState report)
  return admissionState report = .admitted
where
  /-- `if state != Checking { self.set_state(action, state)? }`. -/
  publishDecision (id : ActionId) (state : ActionRunState) : RunM Unit :=
    if state = .checking then pure () else setState id state

/-- Marks the invocation boundary after the trusted host has durably armed its checkpoint. -/
def markDispatchStarted (id : ActionId) : RunM Unit := do
  requireState id .admitted
  setState id .running

/-- Stops an admitted action when checkpoint preparation fails, before any backend invocation. -/
def markPreDispatchFailed (id : ActionId) (reason : String) : RunM Unit := do
  requireState id .admitted
  ensureEventCapacity 1
  updateAction id fun record => { record with preDispatchFailure := some reason }
  setState id .failed

/-- The state a backend outcome leads to. -/
def outcomeState : BackendOutcome → ActionRunState
  | .succeeded => .verifying
  | .failed _ => .failed
  | .outcomeUnknown _ => .outcomeUnknown

/-- Records backend completion and a newer actual snapshot before any postcondition success. -/
def recordCompletion (completion : BackendCompletion) : RunM Unit := do
  requireState completion.action .running
  checkReportIdentity completion.runId
  checkFreshObservation completion.observation
  ensureEventCapacity 1
  modify fun run => { run with latestObservation := some completion.observation }
  updateAction completion.action fun record => { record with completion := some completion }
  setState completion.action (outcomeState completion.outcome)

/-- The state that the evidence of a verification report leads to. -/
def verificationState (report : VerificationReport) : ActionRunState :=
  evidenceState .outcomeUnknown (report.checks.map (·.status)) .verified

/-- Verifies every frozen postcondition against the retained post-backend observation. -/
def recordVerification (report : VerificationReport) : RunM Bool := do
  requireState report.action .verifying
  checkReportIdentity report.runId
  let record ← action report.action
  Stateful.reject
    ((record.completion.map fun completion => completion.observation.reference) ≠
      some report.observation)
    .reportMismatch
  let contract ← contract report.action
  Stateful.reject (!checksCover contract.postconditions report.checks) .incompleteChecks
  ensureEventCapacity 1
  updateAction report.action fun record => { record with verification := some report }
  setState report.action (verificationState report)
  return verificationState report = .verified

/-- Stops an invocation when completion or fresh post-backend observation cannot be obtained. -/
def markOutcomeUnknown (id : ActionId) (reason : String) : RunM Unit := do
  let record ← action id
  Stateful.reject (¬(record.state = .running ∨ record.state = .verifying))
    (.invalidTransition id record.state)
  ensureEventCapacity 1
  updateAction id fun record => { record with unknownReason := some reason }
  setState id .outcomeUnknown

/-- Records provider progress without changing state or projecting an effect. -/
def recordProgress (id : ActionId) (detail : String) : RunM Unit := do
  requireState id .running
  Stateful.reject (detail.utf8ByteSize > MAX_PROGRESS_BYTES) .progressTooLarge
  pushEvent (.progress id detail)

/-- Records separate final actual-goal evidence; action success alone cannot verify the run. -/
def recordGoalVerification (report : GoalVerificationReport) : RunM Bool := do
  let run ← get
  Stateful.reject (!run.actions.all (·.state == .verified)) .actionsNotVerified
  checkReportIdentity report.runId
  checkFreshObservation report.observation
  Stateful.reject (!checksCover run.goalAspects report.checks) .incompleteChecks
  ensureEventCapacity 1
  modify fun run => { run with
    latestObservation := some report.observation
    goalVerification := some report }
  pushEvent (.goalVerification report.succeeded)
  return report.succeeded

end ExecutionRun

/-! ### Runs -/

/-- One call of an operation, with its arguments. -/
inductive RunOperation where
  | beginCheck (action : ActionId)
  | recordAdmission (report : AdmissionReport)
  | markDispatchStarted (action : ActionId)
  | markPreDispatchFailed (action : ActionId) (reason : String)
  | recordCompletion (completion : BackendCompletion)
  | recordVerification (report : VerificationReport)
  | markOutcomeUnknown (action : ActionId) (reason : String)
  | recordProgress (action : ActionId) (detail : String)
  | recordGoalVerification (report : GoalVerificationReport)

/-- What a call does to the run; the answer of the three calls that report a verdict is dropped. -/
def RunOperation.body : RunOperation → ExecutionRun.RunM Unit
  | .beginCheck action => ExecutionRun.beginCheck action
  | .recordAdmission report => discard (ExecutionRun.recordAdmission report)
  | .markDispatchStarted action => ExecutionRun.markDispatchStarted action
  | .markPreDispatchFailed action reason => ExecutionRun.markPreDispatchFailed action reason
  | .recordCompletion completion => ExecutionRun.recordCompletion completion
  | .recordVerification report => discard (ExecutionRun.recordVerification report)
  | .markOutcomeUnknown action reason => ExecutionRun.markOutcomeUnknown action reason
  | .recordProgress action detail => ExecutionRun.recordProgress action detail
  | .recordGoalVerification report => discard (ExecutionRun.recordGoalVerification report)

/-- The result of a call and the run it leaves behind. -/
def RunOperation.call (operation : RunOperation) (run : ExecutionRun) :
    Option (Except ExecutionRunError Unit × ExecutionRun) :=
  Stateful.call operation.body run

end DisksGraph
