import DisksGraph.Runtime.Admission
import DisksGraph.Runtime.Store

/-!
# Runtime — Coordinator

Sequential execution of a plan on one admission, checkpoint and dispatch path (`coordinator.rs`).

The coordinator calls the host, the lock, the checkpoint store, the dispatcher and the observer of
the run; its methods are programs over these calls, on the coordinator and the run together.  A
callee may return anything its type allows, and may panic; what the coordinator and the run are at
that moment is what the owner finds afterwards.

`CoordinatorText` has what the libraries compute: the keys of contracts, the encoding of a
checkpoint, and `to_string` of an error.  A lock guard is released where the source drops it.
-/

namespace DisksGraph

open Support (Effectful Failure Returns Stateful)

/-- A dispatch error does not prove absence of partial effects. -/
inductive DispatchError where
  | adapter (message : String)
  | progress (error : ExecutionRunError)
deriving DecidableEq

/-- Completed adapter result; optional output UUIDs never replace a fresh provider pass. -/
structure ExecutionReceipt where
  outcome : BackendOutcome
  createdLvUuid : Option String
  createdFilesystemUuid : Option String
deriving DecidableEq

/-- Rejects identities from a different operation; missing identities remain verification gaps. -/
def ExecutionReceipt.validateFor (receipt : ExecutionReceipt) (operation : ProviderAction) :
    Except DispatchError Unit :=
  if (receipt.createdLvUuid.isSome && !isLvCreate operation) ||
      (receipt.createdFilesystemUuid.isSome && !isFilesystemCreate operation) then
    .error (.adapter "receipt identity does not match the dispatched operation")
  else .ok ()
where
  isLvCreate : ProviderAction → Bool
    | .lvm (.createLv ..) => true
    | _ => false
  isFilesystemCreate : ProviderAction → Bool
    | .filesystem (.create ..) => true
    | _ => false

/-- Rejected execution never falls back to unchecked dispatch or automatic retry. -/
inductive CoordinatorError where
  | planUnavailable (status : LiveCheckStatus)
  | alreadyVerified
  | stopped
  | invalidDecision
  | runMismatch
  | receipt (error : DispatchError)
  | binding (error : BindingError)
  | lease (error : LeaseError)
  | host (error : HostError)
  | checkpoint (error : CheckpointError)
  | run (error : ExecutionRunError)
deriving DecidableEq

/-- Result of a sequential run attempt; stopped admission and final unknown are not successful
runs. -/
structure ExecutionSummary where
  runId : Uuid
  verified : Bool
  stoppedAction : Option ActionId
  observation : Option LiveObservation

/-- Owns the only host-side sequence around a synchronous backend call.  The root, the host and the
dispatcher are its calls. -/
structure ExecutionCoordinator where
  halted : Bool
  runId : Uuid
  bindings : OutputBindings

/-- What the libraries compute. -/
structure CoordinatorText where
  keys : ContractKeys
  encoding : CheckpointEncoding
  text : CoordinatorError → String

/-! ### Calls -/

/-- The calls of a coordinator.  `execute` has the run that the progress callback captures. -/
inductive RuntimeCall where
  | publish (run : ExecutionRun)
  | tryLockHost
  | tryCloneLock
  | releaseLock
  | inspect (store : CheckpointStore)
  | arm (store : CheckpointStore) (attempt : ActiveAttempt)
  | clear (store : CheckpointStore) (attempt : ActiveAttempt)
  | probe
  | checkPlan (run : ExecutionRun) (observed : ProbedObservation)
  | checkAdmission (run : ExecutionRun) (action : ActionId) (observed : ProbedObservation)
      (bindings : OutputBindings) (lease : ExecutionLease)
  | verifyGoal (run : ExecutionRun) (observed : ProbedObservation) (bindings : OutputBindings)
  | backendFor (operation : ProviderAction)
  | execute (run : ExecutionRun) (action : ResolvedAction)

/-- What they answer.  A dispatcher reports progress before it returns, fails or panics; a store
operation leaves its handle behind. -/
def RuntimeCall.Answer : RuntimeCall → Type
  | .publish _ => Option Unit
  | .tryLockHost | .tryCloneLock => Except (Failure LeaseError) Unit
  | .releaseLock => Unit
  | .inspect _ => Except (Failure CheckpointError) (Option ActiveAttempt) × CheckpointStore
  | .arm .. | .clear .. => Except (Failure CheckpointError) Unit × CheckpointStore
  | .probe => Except (Failure HostError) ProbedObservation
  | .checkPlan .. => Except (Failure HostError) LiveCheckStatus
  | .checkAdmission .. => Except (Failure HostError) AdmissionDecision
  | .verifyGoal .. => Except (Failure HostError) GoalVerificationReport
  | .backendFor _ => Option BackendId
  | .execute .. => List String × Except (Failure DispatchError) ExecutionReceipt

/-- A coordinator and the run it is given. -/
structure Execution where
  coordinator : ExecutionCoordinator
  run : ExecutionRun

/-- A method of the coordinator. -/
abbrev CoordinatorM : Type → Type :=
  Effectful RuntimeCall RuntimeCall.Answer CoordinatorError Execution

/-- The calls of a coordinator with their answers. -/
abbrev RuntimeTrace : Type := List (Support.Program.Event RuntimeCall RuntimeCall.Answer)

/-- Makes one call. -/
def RuntimeCall.ask (call : RuntimeCall) : CoordinatorM call.Answer := Effectful.ask call

/-- Requires explicit host policies and dispatcher. -/
def ExecutionCoordinator.new (run : ExecutionRun) : ExecutionCoordinator where
  halted := false
  runId := run.runId
  bindings := .new run

namespace CoordinatorM

/-- Delivers published evidence to the observer. -/
def publish : CoordinatorM Unit := do
  let execution ← get
  let answer : Option Unit ← (RuntimeCall.publish execution.run).ask
  Effectful.unwrap answer

/-- An operation on the run, with its result. -/
def tryRun {α : Type} (operation : ExecutionRun.RunM α) :
    CoordinatorM (Except ExecutionRunError α) := do
  let execution ← get
  match operation.call execution.run with
  | none => throw .panic
  | some (result, run) =>
      modify fun execution => { execution with run }
      return result

/-- `run.operation()?`. -/
def onRun {α : Type} (operation : ExecutionRun.RunM α) : CoordinatorM α := do
  let result ← tryRun operation
  Effectful.lift .run result

/-- `run.state(action)?`. -/
def runState (action : ActionId) : CoordinatorM ActionRunState := do
  let execution ← get
  Effectful.lift .run (execution.run.state action)

/-- A function of the run and the bindings that may not return. -/
def evaluate {δ α : Type} (into : δ → CoordinatorError) (x : Returns δ α) : CoordinatorM α := do
  let result ← Effectful.unwrap (x : Option (Except δ α))
  Effectful.lift into result

/-- `self.host.probe()`. -/
def probe : CoordinatorM (Except HostError ProbedObservation) := do
  let answer : Except (Failure HostError) ProbedObservation ← RuntimeCall.probe.ask
  match answer with
  | .error .panic => throw .panic
  | .error (.error error) => return .error error
  | .ok observed => return .ok observed

/-- `store.inspect()?`, which must find nothing. -/
def requireNoAttempt (store : CheckpointStore) : CoordinatorM CheckpointStore := do
  let answer : Except (Failure CheckpointError) (Option ActiveAttempt) × CheckpointStore ←
    (RuntimeCall.inspect store).ask
  let active ← Effectful.returned .checkpoint answer.1
  Effectful.reject (active.isSome = true) (.host .activeAttempt)
  return answer.2

/-- Reanalyses the frozen document: a known contradiction rejects the run. -/
def checkReviewedPlan (texts : CoordinatorText) : CoordinatorM Unit := do
  let execution ← get
  let analysis ← evaluate (fun error => .host (.document error))
    (execution.run.document.analyseHistorical texts.keys)
  Effectful.reject
    ((analysis.report.simulation.steps.flatMap (·.checks)).any (isViolated ·.status) = true)
    (.host .historicalRejected)
where
  isViolated : CheckStatus → Bool
    | .violated _ => true
    | _ => false

/-- The run belongs to the coordinator, and nothing has stopped it. -/
def requireOwner : CoordinatorM Unit := do
  let execution ← get
  Effectful.reject (execution.coordinator.runId ≠ execution.run.runId) .runMismatch
  Effectful.reject (execution.coordinator.halted = true) .stopped

/-- Runs a body while the host lock is held. -/
def withHostLock {α : Type} (body : CoordinatorM α) : CoordinatorM α := do
  let answer : Except (Failure LeaseError) Unit ← RuntimeCall.tryLockHost.ask
  Effectful.returned .lease answer
  body.ensuring (Support.Program.ask RuntimeCall.releaseLock)

/-- Copies trusted resource declarations while retaining ownership of the same OS exclusion. -/
def leaseFromLock (action : ActionId) : CoordinatorM ExecutionLease := do
  let execution ← get
  let state ← Effectful.lift (fun error => .lease (.run error)) (execution.run.state action)
  Effectful.reject (state ≠ .checking) (.lease .notChecking)
  match execution.run.plan.actions.find? fun candidate => candidate.id == action with
  | none => Effectful.fail (.lease (.run (.unknownAction action)))
  | some planned =>
      return ⟨execution.run.runId, action, planned.informationalContract.affectedResources⟩

/-- Runs a body under the lease of an action: on a duplicate of the run's lock, or on a lock of its
own. -/
def withLease {α : Type} (locked : Bool) (action : ActionId)
    (body : ExecutionLease → CoordinatorM α) : CoordinatorM α :=
  if locked then do
    let answer : Except (Failure LeaseError) Unit ← RuntimeCall.tryCloneLock.ask
    Effectful.returned .lease answer
    let lease ← leaseFromLock action
    body lease
  else do
    let execution ← get
    let state ← Effectful.lift (fun error => .lease (.run error)) (execution.run.state action)
    Effectful.reject (state ≠ .checking) (.lease .notChecking)
    withHostLock do
      let lease ← leaseFromLock action
      body lease

/-! ### Admission -/

/-- A waiting action begins its check; a checking one goes on. -/
def enterChecking (action : ActionId) : CoordinatorM Unit := do
  match ← runState action with
  | .waiting => onRun (ExecutionRun.beginCheck action)
  | .checking => return ()
  | state => Effectful.fail (.run (.invalidTransition action state))

/-- An endpoint is for this run, action, publication, operation and backend; the source indexes the
plan without a check. -/
def checkEndpoint (action : ActionId) (observed : ProbedObservation) (decision : AdmissionDecision)
    (resolved : ResolvedAction) : CoordinatorM Unit := do
  let execution ← get
  Effectful.reject (resolved.runId ≠ execution.run.runId ∨ resolved.actionId ≠ action ∨
    resolved.observation ≠ decision.report.observation.reference ∨
    resolved.observation ≠ observed.observation.reference) .invalidDecision
  let planned ← Effectful.unwrap (execution.run.plan.actions[action.get]?)
  Effectful.reject (resolved.operation ≠ planned.operation) .invalidDecision
  let answer : Option BackendId ← (RuntimeCall.backendFor resolved.operation).ask
  let backend ← Effectful.unwrap answer
  Effectful.reject (resolved.backend ≠ backend) .invalidDecision

/-- The host's decision, consistent with the frozen action and the dispatcher. -/
def decideAdmission (action : ActionId) (lease : ExecutionLease) :
    CoordinatorM (ProbedObservation × AdmissionDecision) := do
  let result ← probe
  let observed ← Effectful.lift .host result
  let execution ← get
  let answer : Except (Failure HostError) AdmissionDecision ←
    (RuntimeCall.checkAdmission execution.run action observed execution.coordinator.bindings
      lease).ask
  let decision ← Effectful.returned .host answer
  decision.resolved.forM (checkEndpoint action observed decision)
  return (observed, decision)

/-- The endpoint of an admitted report. -/
def requireEndpoint (action : ActionId) : Option ResolvedAction → CoordinatorM ResolvedAction
  | some resolved => return resolved
  | none => do
      onRun (ExecutionRun.markPreDispatchFailed action "admitted report has no resolved endpoint")
      Effectful.fail .invalidDecision

/-- Captures the attempt and arms its checkpoint; a failure stops the action before the
invocation. -/
def prepare (texts : CoordinatorText) (store : CheckpointStore) (action : ActionId)
    (operation : Option OperationId) (resolved : ResolvedAction) :
    CoordinatorM (ActiveAttempt × CheckpointStore) := do
  let execution ← get
  let captured ← Effectful.unwrap
    (ActiveAttempt.capture texts.encoding execution.run action operation resolved.fingerprints
      resolved.backend : Option (Except CheckpointError ActiveAttempt))
  match captured with
  | .error error => stop error
  | .ok attempt => do
      let answer : Except (Failure CheckpointError) Unit × CheckpointStore ←
        (RuntimeCall.arm store attempt).ask
      match answer with
      | (.ok (), store) => return (attempt, store)
      | (.error .panic, _) => throw .panic
      | (.error (.error error), _) => stop error
where
  /-- `run.mark_pre_dispatch_failed(action, error.to_string())?; return Err(error.into())`. -/
  stop (error : CheckpointError) : CoordinatorM (ActiveAttempt × CheckpointStore) := do
    onRun (ExecutionRun.markPreDispatchFailed action (texts.text (.checkpoint error)))
    Effectful.fail (.checkpoint error)

/-! ### Invocation -/

/-- The progress callback of one detail; its error goes to the dispatcher. -/
def reportProgress (action : ActionId) (detail : String) : CoordinatorM Unit := do
  match ← tryRun (ExecutionRun.recordProgress action detail) with
  | .error _ => return ()
  | .ok () => publish

/-- Invokes the dispatcher; its error becomes an unknown outcome. -/
def dispatch (texts : CoordinatorText) (action : ActionId) (resolved : ResolvedAction) :
    CoordinatorM ExecutionReceipt := do
  let execution ← get
  let answer : List String × Except (Failure DispatchError) ExecutionReceipt ←
    (RuntimeCall.execute execution.run resolved).ask
  answer.1.forM (reportProgress action)
  match answer.2 with
  | .ok receipt => return receipt
  | .error .panic => throw .panic
  | .error (.error error) =>
      return ⟨.outcomeUnknown (texts.text (.receipt error)), none, none⟩

/-- `run.mark_outcome_unknown(action, error.to_string())?; return Err(error.into())` on an error. -/
def orUnknown {α : Type} (texts : CoordinatorText) (action : ActionId) :
    Except CoordinatorError α → CoordinatorM α
  | .ok value => return value
  | .error error => do
      onRun (ExecutionRun.markOutcomeUnknown action (texts.text error))
      Effectful.fail error

/-- Probes after the invocation and records its completion. -/
def complete (texts : CoordinatorText) (action : ActionId) (resolved : ResolvedAction)
    (receipt : ExecutionReceipt) : CoordinatorM Unit := do
  let result ← probe
  let post ← orUnknown texts action (result.mapError .host)
  orUnknown texts action ((receipt.validateFor resolved.operation).mapError .receipt)
  let execution ← get
  let recorded ← tryRun (ExecutionRun.recordCompletion {
    runId := execution.run.runId
    action
    outcome := receipt.outcome
    observation := post.observation })
  orUnknown texts action (recorded.mapError .run)

/-- The report of a completed action, with the candidates for its outputs. -/
def verification (execution : Execution) (action : ActionId) (resolved : ResolvedAction)
    (before : LiveObservation) (receipt : ExecutionReceipt) : Returns BindingError
      (VerificationReport × Option PendingLvBinding × Option PendingFilesystemBinding) :=
  let run := execution.run
  let bindings := execution.coordinator.bindings
  match resolved.operation, resolved.filesystemTarget, resolved.lvTarget with
  | .filesystem _, _, _ => do
      let (report, candidate) ← verifyCreatedFilesystem run action resolved bindings before
        receipt.createdFilesystemUuid
      return (report, none, candidate)
  | _, some _, _ => do
      let report ← verifyMount run action resolved bindings before
      return (report, none, none)
  | _, none, some _ => do
      let report ← verifyActivation run action resolved bindings before receipt.createdLvUuid
      return (report, none, none)
  | _, none, none => do
      let (report, candidate) ← verifyCreatedLv run action resolved bindings before
        receipt.createdLvUuid
      return (report, candidate, none)

/-- Verifies an action that is `Verifying`. -/
def verify (texts : CoordinatorText) (action : ActionId) (resolved : ResolvedAction)
    (before : LiveObservation) (receipt : ExecutionReceipt) :
    CoordinatorM (Option PendingLvBinding × Option PendingFilesystemBinding) := do
  match ← runState action with
  | .verifying => do
      let execution ← get
      let result ← Effectful.unwrap (verification execution action resolved before receipt :
        Option (Except BindingError
          (VerificationReport × Option PendingLvBinding × Option PendingFilesystemBinding)))
      let (report, pending) ← orUnknown texts action (result.mapError .binding)
      let _ ← onRun (ExecutionRun.recordVerification report)
      return pending
  | _ => return (none, none)

/-- Replaces the bindings by what a function makes of them and the run. -/
def updateBindings (update : OutputBindings → ExecutionRun → Returns BindingError OutputBindings) :
    CoordinatorM Unit := do
  let execution ← get
  let bindings ← evaluate .binding (update execution.coordinator.bindings execution.run)
  modify fun execution =>
    { execution with coordinator := { execution.coordinator with bindings } }

/-- Publishes the outputs of a verified action. -/
def recordOutputs (action : ActionId) (resolved : ResolvedAction)
    (pending : Option PendingLvBinding × Option PendingFilesystemBinding) : CoordinatorM Unit := do
  pending.1.forM fun binding =>
    updateBindings fun bindings run => Returns.lift (bindings.recordVerified run binding)
  pending.2.forM fun binding =>
    updateBindings fun bindings run => Returns.lift (bindings.recordVerifiedFilesystem run binding)
  if resolved.filesystemTarget.isSome then
    updateBindings fun bindings run => bindings.recordVerifiedMount run action
  else return ()

/-- `self.halted = value`. -/
def setHalted (value : Bool) : CoordinatorM Unit :=
  modify fun execution =>
    { execution with coordinator := { execution.coordinator with halted := value } }

/-- `store.clear(&attempt)?`. -/
def clear (store : CheckpointStore) (attempt : ActiveAttempt) : CoordinatorM Unit := do
  let answer : Except (Failure CheckpointError) Unit × CheckpointStore ←
    (RuntimeCall.clear store attempt).ask
  Effectful.returned .checkpoint answer.1

/-- A verified action publishes its outputs and clears its checkpoint. -/
def settle (action : ActionId) (resolved : ResolvedAction)
    (pending : Option PendingLvBinding × Option PendingFilesystemBinding)
    (attempt : ActiveAttempt) (store : CheckpointStore) : CoordinatorM ActionRunState := do
  match ← runState action with
  | .verified => do
      recordOutputs action resolved pending
      publish
      clear store attempt
      setHalted false
      return .verified
  | state => return state

/-- From the armed checkpoint to its removal; every exit before it keeps the stop latch. -/
def invoke (texts : CoordinatorText) (action : ActionId) (resolved : ResolvedAction)
    (before : LiveObservation) (attempt : ActiveAttempt) (store : CheckpointStore) :
    CoordinatorM ActionRunState := do
  setHalted true
  publish
  onRun (ExecutionRun.markDispatchStarted action)
  publish
  let receipt ← dispatch texts action resolved
  complete texts action resolved receipt
  publish
  let pending ← verify texts action resolved before receipt
  settle action resolved pending attempt store

/-! ### The methods -/

/-- The part of an action that runs under its lease. -/
def executeLeased (texts : CoordinatorText) (action : ActionId) (operation : Option OperationId)
    (lease : ExecutionLease) : CoordinatorM ActionRunState := do
  let store ← requireNoAttempt .new
  let (observed, decision) ← decideAdmission action lease
  let admitted ← onRun (ExecutionRun.recordAdmission decision.report)
  publish
  if admitted then do
    let resolved ← requireEndpoint action decision.resolved
    let (attempt, store) ← prepare texts store action operation resolved
    invoke texts action resolved observed.observation attempt store
  else runState action

/-- Shares the exact action path between individual execution and a run holding continuous
exclusion. -/
def executeActionLocked (texts : CoordinatorText) (action : ActionId)
    (operation : Option OperationId) (locked : Bool) : CoordinatorM ActionRunState := do
  requireOwner
  checkReviewedPlan texts
  enterChecking action
  publish
  withLease locked action (executeLeased texts action operation)

/-- Executes one waiting or checking action. -/
def executeAction (texts : CoordinatorText) (action : ActionId) (operation : Option OperationId) :
    CoordinatorM ActionRunState :=
  executeActionLocked texts action operation false

/-- Returns evidence already accepted by the engine. -/
def summary (stoppedAction : Option ActionId) : CoordinatorM ExecutionSummary := do
  let execution ← get
  return ⟨execution.run.runId, execution.run.isVerified, stoppedAction,
    execution.run.latestObservation⟩

/-- The loop over the ordered actions; it returns the first action that did not become verified. -/
def executeOrdered (texts : CoordinatorText) : List ActionId → CoordinatorM (Option ActionId)
  | [] => return none
  | action :: rest => do
      match ← runState action with
      | .verified => executeOrdered texts rest
      | .waiting | .checking => do
          let state ← executeActionLocked texts action none true
          publish
          if state = .verified then executeOrdered texts rest else return some action
      | _ => Effectful.fail .stopped

/-- Independent verification of the goal, with no attempt left active. -/
def verifyFinally (store : CheckpointStore) : CoordinatorM Unit := do
  let result ← probe
  let observed ← Effectful.lift .host result
  let execution ← get
  let answer : Except (Failure HostError) GoalVerificationReport ←
    (RuntimeCall.verifyGoal execution.run observed execution.coordinator.bindings).ask
  let report ← Effectful.returned .host answer
  let execution ← get
  Effectful.reject (report.runId ≠ execution.run.runId ∨
    report.observation.sameAs observed.observation = false) .invalidDecision
  let _ ← requireNoAttempt store
  let _ ← onRun (ExecutionRun.recordGoalVerification report)

/-- The part of a run that holds the host lock. -/
def executeRunLocked (texts : CoordinatorText) : CoordinatorM ExecutionSummary := do
  let store ← requireNoAttempt .new
  let result ← probe
  let initial ← Effectful.lift .host result
  let execution ← get
  let answer : Except (Failure HostError) LiveCheckStatus ←
    (RuntimeCall.checkPlan execution.run initial).ask
  let readiness ← Effectful.returned .host answer
  Effectful.reject (readiness ≠ .satisfied) (.planUnavailable readiness)
  let execution ← get
  let ordered ← Effectful.unwrap execution.run.plan.orderedActions
  match ← executeOrdered texts (ordered.map (·.id)) with
  | some action => summary (some action)
  | none => do
      verifyFinally store
      summary none

/-- Retains the original single-lock execution path independently of the optional observer. -/
def executeRunInner (texts : CoordinatorText) : CoordinatorM ExecutionSummary := do
  requireOwner
  let execution ← get
  Effectful.reject (execution.run.isVerified = true) .alreadyVerified
  checkReviewedPlan texts
  withHostLock (executeRunLocked texts)

/-- Publishes immutable live evidence before, during and after the run; a panic of the inner part
skips the last publication. -/
def executeRunWithUpdates (texts : CoordinatorText) : CoordinatorM ExecutionSummary := do
  publish
  let summary ← tryCatch (executeRunInner texts) fun failure => do
    match failure with
    | .panic => throw .panic
    | .error error => do
        publish
        Effectful.fail error
  publish
  return summary

end CoordinatorM

end DisksGraph
