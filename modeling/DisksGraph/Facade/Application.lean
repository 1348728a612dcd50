import DisksGraph.Facade.Runs
import DisksGraph.Support.Frame

/-!
# Facade — Application

The application object (`disksgraph/src/lib.rs`, `sessions.rs`, `plans.rs`, `runs.rs`,
`lifecycle.rs`): sessions, plans and runs under instance-owned handles, over one host and one
dispatcher.

A method is an `Effectful` program on `Application`.  Its calls are the methods of the host, the
dispatcher and the execution root, the coordinator, and the draw of an identity; they may answer
anything, and some may panic.
-/

namespace DisksGraph

open Support (Effectful Failure Program Returns)

/-- Maximum retained objects per collection and maximum capability queries in one request. -/
def MAX_APPLICATION_OBJECTS : Nat := 64

/-- Opaque handle to an editable session owned by one facade instance. -/
structure SessionId where
  get : Uuid
deriving DecidableEq

/-- Opaque handle to a reviewed immutable document owned by one facade instance. -/
structure PlanId where
  get : Uuid
deriving DecidableEq

/-- Native recipe availability for one operation and the configured dispatch route. -/
structure OperationCapability where
  operation : ProviderAction
  backend : BackendId
  availability : OperationAvailability

/-- Advisory native support from one fresh pass. -/
structure OperationCapabilities where
  observation : ObservationReference
  incidentPending : Bool
  operations : List OperationCapability

/-- What an application owns.  The root, the host and the dispatcher are its calls. -/
structure Application where
  sessions : AList fun _ : SessionId => PlanSession := ∅
  plans : AList fun _ : PlanId => PlanDocument := ∅
  runs : AList fun _ : RunId => RunRecord := ∅

/-! ### Calls -/

/-- The calls of an application. -/
inductive FacadeCall where
  | newId
  | tryReserve
  | probe
  | operationAvailability (operation : ProviderAction) (observed : ProbedObservation)
  | backendFor (operation : ProviderAction)
  | tryLockHost
  | releaseLock
  | inspectMarker
  | tryCloneRoot
  | executeRun (run : ExecutionRun)
  | inspectIncident
  | reviewIncident
  | acknowledgeIncident (review : IncidentReview) (confirmation : Uuid)

/-- What they answer.  The coordinator leaves the run behind, however it ends. -/
def FacadeCall.Answer : FacadeCall → Type
  | .newId => Uuid
  | .tryReserve => Except String Unit
  | .probe => Except (Failure HostError) ProbedObservation
  | .operationAvailability .. => Option OperationAvailability
  | .backendFor _ => Option BackendId
  | .tryLockHost => Except (Failure LeaseError) Unit
  | .releaseLock => Unit
  | .inspectMarker => Except (Failure CheckpointError) (Option ActiveAttempt)
  | .tryCloneRoot => Except (Failure LeaseError) Unit
  | .executeRun _ => Except (Failure CoordinatorError) ExecutionSummary × ExecutionRun
  | .inspectIncident => Except (Failure IncidentError) (Option IncidentInspection)
  | .reviewIncident => Except (Failure IncidentError) (Option IncidentReview)
  | .acknowledgeIncident .. => Except (Failure IncidentError) IncidentInspection

/-- The calls of an application with their answers. -/
abbrev FacadeTrace : Type := List (Program.Event FacadeCall FacadeCall.Answer)

/-- A method of the application. -/
abbrev FacadeM : Type → Type :=
  Effectful FacadeCall FacadeCall.Answer DisksGraphError Application

/-- Makes one call. -/
def FacadeCall.ask (call : FacadeCall) : FacadeM call.Answer := Effectful.ask call

namespace DisksGraphError

/-- A limit of this instance is reached. -/
def resourceLimit (message : String) : DisksGraphError where
  code := .resourceLimit
  message := .text message

/-- The session is not one of this instance's. -/
def unknownSession : DisksGraphError where
  code := .unknownSession
  message := .text "session is not owned by this instance"

/-- The plan is not one of this instance's. -/
def unknownPlan : DisksGraphError where
  code := .unknownPlan
  message := .text "plan is not owned by this instance"

/-- The run is not one of this instance's. -/
def unknownRun : DisksGraphError where
  code := .unknownRun
  message := .text "run is not owned by this instance"

end DisksGraphError

namespace FacadeM

open DisksGraphError (resourceLimit unknownSession unknownPlan unknownRun)

/-- `Uuid::now_v7()`. -/
def newId : FacadeM Uuid := FacadeCall.newId.ask

/-- `self.host.probe()?`. -/
def hostProbe : FacadeM ProbedObservation := do
  let answer : Except (Failure HostError) ProbedObservation ← FacadeCall.probe.ask
  Effectful.returned .fromHost answer

/-- `self.host.probe()?.into_baseline()`. -/
def probeBaseline : FacadeM HistoricalBaseline := do
  let observed ← hostProbe
  let id ← newId
  return ⟨id, observed.observation.snapshot, observed.capacity⟩

/-- Performs an actual provider pass without exposing a forecast as current state. -/
def probe : FacadeM LiveObservation := do
  let observed ← hostProbe
  return observed.observation

/-! ### Sessions -/

/-- Owns lookup: a handle from another instance reaches nothing. -/
def session (id : SessionId) : FacadeM PlanSession := do
  let application ← get
  match application.sessions.lookup id with
  | none => Effectful.fail unknownSession
  | some session => return session

/-- `self.session_mut(id)?.method()?`. -/
def onSession {ε α : Type} (id : SessionId) (into : ε → DisksGraphError)
    (method : SessionM ε α) : FacadeM α := do
  let session ← FacadeM.session id
  match method.call session with
  | none => throw .panic
  | some (result, session) =>
      modify fun application =>
        { application with sessions := application.sessions.replace id session }
      Effectful.lift into result

/-- Rejects allocation before probing. -/
def checkSessionLimit : FacadeM Unit := do
  let application ← get
  Effectful.reject (application.sessions.keys.length ≥ MAX_APPLICATION_OBJECTS)
    (resourceLimit "session limit reached")

/-- Keeps a session under a new id. -/
def insertSession (session : PlanSession) : FacadeM SessionId := do
  let id ← newId
  modify fun application =>
    { application with sessions := application.sessions.insert ⟨id⟩ session }
  return ⟨id⟩

/-- Starts editing from one fresh publication. -/
def createSession (keys : ContractKeys) : FacadeM SessionId := do
  checkSessionLimit
  let baseline ← probeBaseline
  let id ← newId
  let session ← Effectful.evaluate .fromDraftBuild (PlanSession.new keys id baseline)
  insertSession session

/-- Imports saved editable inputs, recomputing forecasts. -/
def importDraft (text : EditingText) (document : DraftDocument) : FacadeM SessionId := do
  checkSessionLimit
  let session ← Effectful.evaluate .fromDraftDocument (PlanSession.fromDocument text document)
  insertSession session

/-- Applies an atomic edit.  The identities are drawn here, whether or not the edit needs them. -/
def edit (keys : ContractKeys) (session : SessionId) (revision : DraftRevision)
    (command : PlanEdit) : FacadeM EditReceipt := do
  let operation ← newId
  let node ← newId
  onSession session .fromEdit (PlanSession.edit keys revision command ⟨operation⟩ ⟨node⟩)

/-- Restores only prior user requests. -/
def undo (keys : ContractKeys) (session : SessionId) (revision : DraftRevision) :
    FacadeM DraftRevision :=
  onSession session .fromEdit (PlanSession.undo_ keys revision)

/-- Reapplies only an undone editable draft. -/
def redo (keys : ContractKeys) (session : SessionId) (revision : DraftRevision) :
    FacadeM DraftRevision :=
  onSession session .fromEdit (PlanSession.redo_ keys revision)

/-- Exports bounded editing inputs. -/
def exportDraft (session : SessionId) : FacadeM DraftDocument := do
  let session ← FacadeM.session session
  return session.draftDocument

/-- Prepares a fresh, separately reviewable rebase without changing the active draft. -/
def prepareRebase (keys : ContractKeys) (session : SessionId) (revision : DraftRevision) :
    FacadeM RebasePreview := do
  let current ← FacadeM.session session
  Effectful.reject (current.revision ≠ revision)
    (.fromEdit (.revisionConflict revision current.revision))
  let baseline ← probeBaseline
  let current ← FacadeM.session session
  Effectful.evaluate .fromRebase (current.prepareRebase keys revision baseline)

/-- Accepts only a still-current reviewed candidate. -/
def acceptRebase (session : SessionId) (revision : DraftRevision) (candidate : RebasePreview) :
    FacadeM DraftRevision :=
  onSession session .fromRebase (PlanSession.acceptRebase revision candidate)

/-- Releases only this instance's editor and history. -/
def closeSession (id : SessionId) : FacadeM Unit := do
  let application ← get
  Effectful.reject (id ∉ application.sessions) unknownSession
  set { application with sessions := application.sessions.erase id }

/-! ### Plans -/

/-- Freezes exactly the reviewed revision. -/
def freeze (keys : ContractKeys) (session : SessionId) (revision : DraftRevision) :
    FacadeM FrozenPlan := do
  let session ← FacadeM.session session
  let planId ← newId
  Effectful.evaluate .fromFreeze (session.freeze keys planId revision)

/-- Rebuilds trusted contracts before retaining a historical plan. -/
def importPlan (keys : ContractKeys) (document : PlanDocument) : FacadeM PlanId := do
  let application ← get
  Effectful.reject (application.plans.keys.length ≥ MAX_APPLICATION_OBJECTS)
    (resourceLimit "plan limit reached")
  discard <| Effectful.evaluate .fromDocument (document.analyseHistorical keys)
  let id ← newId
  modify fun application => { application with plans := application.plans.insert ⟨id⟩ document }
  return ⟨id⟩

/-- Returns a copy. -/
def exportPlan (plan : PlanId) : FacadeM PlanDocument := do
  let application ← get
  match application.plans.lookup plan with
  | none => Effectful.fail unknownPlan
  | some document => return document

/-- Releases only the retained historical document. -/
def closePlan (id : PlanId) : FacadeM Unit := do
  let application ← get
  Effectful.reject (id ∉ application.plans) unknownPlan
  set { application with plans := application.plans.erase id }

/-! ### Runs -/

/-- One instance-owned lookup. -/
def run (id : RunId) : FacadeM RunRecord := do
  let application ← get
  match application.runs.lookup id with
  | none => Effectful.fail unknownRun
  | some record => return record

/-- Returns the complete current evidence. -/
def runSnapshot (id : RunId) : FacadeM RunSnapshot := do
  let record ← run id
  Effectful.unwrap record.snapshot

/-- Replays retained updates using an exclusive cursor. -/
def events (id : RunId) (since : Nat) : FacadeM EventsPage := do
  let record ← run id
  Effectful.evaluate (fun error => error) (record.events since)

/-- `root.try_clone()` and the coordinator's run: the run as it was left, and the error it ended
with. -/
def coordinate (attempt : ExecutionRun) : FacadeM (ExecutionRun × Option DisksGraphError) := do
  let cloned : Except (Failure LeaseError) Unit ← FacadeCall.tryCloneRoot.ask
  match cloned with
  | .error .panic => throw .panic
  | .error (.error error) => return (attempt, some (.fromLease error))
  | .ok () =>
      let answer : Except (Failure CoordinatorError) ExecutionSummary × ExecutionRun ←
        (FacadeCall.executeRun attempt).ask
      match answer with
      | (.error .panic, _) => throw .panic
      | (.error (.error error), attempt) => return (attempt, some (.fromCoordinator error))
      | (.ok _, attempt) => return (attempt, none)

/-- Reserves retention before effects; a failed attempt is retained with its error. -/
def applyDocument (keys : ContractKeys) (document : PlanDocument)
    (sourceMap : List OperationActions) : FacadeM RunId := do
  let application ← get
  Effectful.reject (application.runs.keys.length ≥ MAX_APPLICATION_OBJECTS)
    (resourceLimit "run limit reached")
  let reserved : Except String Unit ← FacadeCall.tryReserve.ask
  Effectful.lift resourceLimit reserved
  let runId ← newId
  let attempt ← Effectful.evaluate .fromRun (ExecutionRun.new keys runId document)
  let id : RunId := ⟨attempt.runId⟩
  let (attempt, error) ← coordinate attempt
  let error := error.map fun error => { error with runId := some id }
  modify fun application =>
    { application with runs := application.runs.insert id ⟨attempt, sourceMap, error⟩ }
  match error with
  | some error => Effectful.fail error
  | none => return id

/-- Applies a stored historical document with fresh readiness and no fabricated source map. -/
def applyPlan (keys : ContractKeys) (plan : PlanId) : FacadeM RunId := do
  let document ← exportPlan plan
  applyDocument keys document []

/-- Releases a completed attempt's memory. -/
def closeRun (id : RunId) : FacadeM Unit := do
  let application ← get
  Effectful.reject (id ∉ application.runs) unknownRun
  set { application with runs := application.runs.erase id }

/-! ### Capabilities and incidents -/

/-- Availability on another route than the configured one is no availability. -/
def OperationAvailability.routed (availability : OperationAvailability) (backend : BackendId) :
    OperationAvailability :=
  match availability with
  | .available selected =>
      if selected ≠ backend then
        .unavailable "capability registration differs from the configured operation route"
      else .available selected
  | other => other

/-- How one operation would be carried out, and whether it can be. -/
def capability (observed : ProbedObservation) (operation : ProviderAction) :
    FacadeM OperationCapability := do
  let route : Option BackendId ← (FacadeCall.backendFor operation).ask
  let backend ← Effectful.unwrap route
  let answer : Option OperationAvailability ←
    (FacadeCall.operationAvailability operation observed).ask
  let availability ← Effectful.unwrap answer
  return ⟨operation, backend, OperationAvailability.routed availability backend⟩

/-- The body of `capabilities` under the host lock. -/
def capabilitiesLocked (operations : List ProviderAction) : FacadeM OperationCapabilities := do
  let answer : Except (Failure CheckpointError) (Option ActiveAttempt) ←
    FacadeCall.inspectMarker.ask
  let marker ← Effectful.returned .fromCheckpoint answer
  let observed ← hostProbe
  let operations ← operations.mapM (capability observed)
  return ⟨observed.observation.reference, marker.isSome, operations⟩

/-- Checks exact native routes and the current marker without granting permission to dispatch. -/
def capabilities (operations : List ProviderAction) : FacadeM OperationCapabilities := do
  Effectful.reject (operations.length > MAX_APPLICATION_OBJECTS)
    (resourceLimit "too many capability queries")
  let answer : Except (Failure LeaseError) Unit ← FacadeCall.tryLockHost.ask
  Effectful.returned .fromLease answer
  (capabilitiesLocked operations).ensuring (Program.ask FacadeCall.releaseLock)

/-- Inspects under the host lock without reconstructing a run. -/
def incident : FacadeM (Option IncidentInspection) := do
  let answer : Except (Failure IncidentError) (Option IncidentInspection) ←
    FacadeCall.inspectIncident.ask
  Effectful.returned .fromIncident answer

/-- Produces the runtime's immutable review and explicit confirmation challenge. -/
def reviewIncident : FacadeM (Option IncidentReview) := do
  let answer : Except (Failure IncidentError) (Option IncidentReview) ←
    FacadeCall.reviewIncident.ask
  Effectful.returned .fromIncident answer

/-- Clears only after exact confirmation and an independent trusted safety policy. -/
def acknowledgeIncident (review : IncidentReview) (confirmation : Uuid) :
    FacadeM IncidentInspection := do
  let answer : Except (Failure IncidentError) IncidentInspection ←
    (FacadeCall.acknowledgeIncident review confirmation).ask
  Effectful.returned .fromIncident answer

end FacadeM

/-! ### Methods that only read -/

namespace FacadeM

open Support.Effectful (Reads)

/-- A fresh id changes no state. -/
theorem newId_reads : Reads newId := .ask _

theorem session_reads (id : SessionId) : Reads (session id) := by
  refine .bind .get fun application => ?_
  cases application.sessions.lookup id with
  | none => exact .throw _
  | some session => exact .pure session

theorem exportDraft_reads (id : SessionId) : Reads (exportDraft id) :=
  .bind (session_reads id) fun _ => .pure _

theorem exportPlan_reads (plan : PlanId) : Reads (exportPlan plan) := by
  refine .bind .get fun application => ?_
  cases application.plans.lookup plan with
  | none => exact .throw _
  | some document => exact .pure document

theorem run_reads (id : RunId) : Reads (run id) := by
  refine .bind .get fun application => ?_
  cases application.runs.lookup id with
  | none => exact .throw _
  | some record => exact .pure record

/-- A snapshot changes no state. -/
theorem runSnapshot_reads (id : RunId) : Reads (runSnapshot id) :=
  .bind (run_reads id) fun _ => .unwrap _

/-- Reading events changes no state. -/
theorem events_reads (id : RunId) (since : Nat) : Reads (events id since) :=
  .bind (run_reads id) fun _ => .evaluate _ _

theorem hostProbe_reads : Reads hostProbe := .bind (.ask _) fun _ => .returned _ _

/-- A probe changes no state. -/
theorem probe_reads : Reads probe := .bind hostProbe_reads fun _ => .pure _

theorem capability_reads (observed : ProbedObservation) (operation : ProviderAction) :
    Reads (capability observed operation) := by
  refine .bind (.ask _) fun route => .bind (.unwrap _) fun backend => ?_
  exact .bind (.ask _) fun answer => .bind (.unwrap _) fun availability => .pure _

/-- Asking for capabilities changes no state. -/
theorem capabilities_reads (operations : List ProviderAction) :
    Reads (capabilities operations) := by
  have hlocked : Reads (capabilitiesLocked operations) := by
    refine .bind (.ask _) fun answer => .bind (.returned _ _) fun marker => ?_
    refine .bind hostProbe_reads fun observed => .bind (.mapM ?_ operations) fun _ => .pure _
    exact capability_reads observed
  refine .bind (.reject _ _) fun _ => .bind (.ask _) fun answer => ?_
  exact .bind (.returned _ _) fun _ => hlocked.ensuring _

/-- Inspecting the incident changes no state. -/
theorem incident_reads : Reads incident := .bind (.ask _) fun _ => .returned _ _

theorem reviewIncident_reads : Reads reviewIncident := .bind (.ask _) fun _ => .returned _ _

end FacadeM

end DisksGraph
