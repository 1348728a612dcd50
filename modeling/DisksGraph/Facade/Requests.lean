import DisksGraph.Facade.Application

/-!
# Facade — Requests

The request vocabulary and its dispatcher (`disksgraph/src/wire.rs`): one application, and the
reviews it retains for rebases and incidents in one bounded registry.

`Json` stands for `serde_json`: what it makes of a reply, or that it cannot encode it.  `to_value`
reports such a failure, `json!` panics.
-/

namespace DisksGraph

open Support (Effectful Failure Program)

/-- One method call. -/
inductive Request where
  | probe
  | sessionCreate
  | sessionImport (draft : DraftDocument)
  | sessionEdit (session : SessionId) (revision : DraftRevision) (edit : PlanEdit)
  | sessionUndo (session : SessionId) (revision : DraftRevision)
  | sessionRedo (session : SessionId) (revision : DraftRevision)
  | sessionPreview (session : SessionId)
  | sessionExport (session : SessionId)
  | sessionFreeze (session : SessionId) (revision : DraftRevision)
  | sessionPrepareRebase (session : SessionId) (revision : DraftRevision)
  | sessionAcceptRebase (session : SessionId) (revision : DraftRevision) (review : Uuid)
  | reviewClose (review : Uuid)
  | sessionClose (session : SessionId)
  | planImport (document : PlanDocument)
  | planExport (plan : PlanId)
  | planClose (plan : PlanId)
  | capabilities (operations : List ProviderAction)
  | applyBlocking (plan : PlanId)
  | applyStart (plan : PlanId)
  | jobPoll (job since : Nat)
  | jobClose (job : Nat)
  | jobCancel (job : Nat)
  | runSnapshot (run : RunId)
  | runEvents (run : RunId) (since : Nat)
  | runClose (run : RunId)
  | incidentInspect
  | incidentReview
  | incidentAcknowledge (review runId token : Uuid)

namespace Request

/-- Methods permitted inside the read authorization action. -/
def isReadOnly : Request → Bool
  | .probe | .sessionPreview _ | .sessionExport _ | .planExport _ | .capabilities _
  | .runSnapshot _ | .runEvents .. | .jobPoll .. | .incidentInspect | .incidentReview => true
  | _ => false

/-- Saved-input contexts cannot publish an empty probe as native evidence. -/
def needsLiveHost : Request → Bool
  | .probe | .sessionCreate | .sessionPrepareRebase .. | .capabilities _ | .applyBlocking _
  | .applyStart _ | .incidentInspect | .incidentReview | .incidentAcknowledge .. => true
  | _ => false

end Request

/-- Stable protocol categories; the errors of parsing a message are left out. -/
inductive ProtocolError where
  | resourceLimit
  | liveUnavailable
  | unsupportedOperation (message : String)
  | unknownReview
  | reviewMismatch
  | application (error : DisksGraphError)
  | serialization (message : String)

/-- An immutable process-owned candidate. -/
inductive RetainedReview where
  | rebase (session : SessionId) (candidate : RebasePreview)
  | incident (candidate : IncidentReview)

/-- Whether the review rebases that session. -/
def RetainedReview.isRebaseOf (session : SessionId) : RetainedReview → Bool
  | .rebase owner _ => owner == session
  | .incident _ => false

/-- Owns exactly one ordinary facade and the reviews of both kinds. -/
structure Protocol where
  app : Application := {}
  liveHost : Bool
  reviews : AList fun _ : Uuid => RetainedReview := ∅

/-- What a reply is made of.  The preview document is a view of its session. -/
inductive Payload where
  | observation (observation : LiveObservation)
  | session (session : SessionId)
  | receipt (receipt : EditReceipt)
  | revision (revision : DraftRevision)
  | preview (session : PlanSession)
  | draft (document : DraftDocument)
  | plan (plan : PlanId)
  | document (document : PlanDocument)
  | capabilities (capabilities : OperationCapabilities)
  | snapshot (snapshot : RunSnapshot)
  | events (page : EventsPage)
  | rebase (review : Uuid) (candidate : RebasePreview)
  | incident (incident : Option IncidentInspection)
  | review (review : Option (Uuid × IncidentReview))
  | acknowledged (incident : IncidentInspection)

/-- The texts of a session and the JSON of replies. -/
structure Json (Value : Type) where
  text : EditingText
  null : Value
  toValue : Payload → Except String Value

/-- A method of the protocol. -/
abbrev ProtocolM : Type → Type :=
  Effectful FacadeCall FacadeCall.Answer ProtocolError Protocol

namespace ProtocolM

/-- `self.app.method()?`. -/
def onApp {α : Type} (method : FacadeM α) : ProtocolM α :=
  Effectful.zoom Protocol.app (fun app protocol => { protocol with app }) .application method

/-- Bounds pending reviews before native work. -/
def reserveReview : ProtocolM Unit := do
  let protocol ← get
  Effectful.reject (protocol.reviews.keys.length ≥ MAX_APPLICATION_OBJECTS) .resourceLimit
  let reserved : Except String Unit ← Effectful.ask FacadeCall.tryReserve
  Effectful.lift (fun _ => .resourceLimit) reserved

/-- Keeps a review under its id. -/
def retainReview (id : Uuid) (review : RetainedReview) : ProtocolM Unit :=
  modify fun protocol => { protocol with reviews := protocol.reviews.insert id review }

/-- Drops a review. -/
def removeReview (id : Uuid) : ProtocolM Unit :=
  modify fun protocol => { protocol with reviews := protocol.reviews.erase id }

section Dispatch

variable {Value : Type} (json : Json Value)

/-- `serde_json::to_value(payload)`. -/
def toValue (payload : Payload) : ProtocolM Value :=
  Effectful.lift .serialization (json.toValue payload)

/-- `json!(payload)`. -/
def encode (payload : Payload) : ProtocolM Value :=
  Effectful.unwrap (json.toValue payload).toOption

/-- `session_prepare_rebase`: rebases the draft on a fresh probe and keeps the result for review.
-/
def prepareRebase (session : SessionId) (revision : DraftRevision) : ProtocolM Value := do
  reserveReview
  let candidate ← onApp (FacadeM.prepareRebase json.text.keys session revision)
  let review ← onApp FacadeM.newId
  let result ← encode json (.rebase review candidate)
  retainReview review (.rebase session candidate)
  return result

/-- `session_accept_rebase`: takes the reviewed rebase, once, for the revision it was made from. -/
def acceptRebase (session : SessionId) (revision : DraftRevision) (review : Uuid) :
    ProtocolM Value := do
  let protocol ← get
  match protocol.reviews.lookup review with
  | some (.rebase owner candidate) =>
      Effectful.reject (owner ≠ session ∨ candidate.source.revision ≠ revision) .reviewMismatch
      removeReview review
      let revision ← onApp (FacadeM.acceptRebase session revision candidate)
      encode json (.revision revision)
  | _ => Effectful.fail .unknownReview

/-- `review_close`. -/
def closeReview (review : Uuid) : ProtocolM Value := do
  let protocol ← get
  Effectful.reject (review ∉ protocol.reviews) .unknownReview
  removeReview review
  return json.null

/-- The rebases of a session are discarded with it. -/
def closeSession (session : SessionId) : ProtocolM Value := do
  onApp (FacadeM.closeSession session)
  modify fun protocol =>
    { protocol with
      reviews :=
        { entries := protocol.reviews.entries.filter fun entry => !entry.2.isRebaseOf session
          nodupKeys := .sublist List.filter_sublist protocol.reviews.nodupKeys } }
  return json.null

/-- A failed attempt is retained, and its snapshot is the reply. -/
def applyBlocking (plan : PlanId) : ProtocolM Value := do
  let run ← tryCatch (onApp (FacadeM.applyPlan json.text.keys plan)) fun
    | .error (.application error) =>
        match error.runId with
        | some run => return run
        | none => Effectful.fail (.application error)
    | failure => throw failure
  let snapshot ← onApp (FacadeM.runSnapshot run)
  toValue json (.snapshot snapshot)

/-- `incident_review`: inspects the unresolved incident, if any, and keeps it for acknowledgement.
-/
def reviewIncident : ProtocolM Value := do
  reserveReview
  match ← onApp FacadeM.reviewIncident with
  | none => encode json (.review none)
  | some candidate =>
      let review ← onApp FacadeM.newId
      let result ← encode json (.review (some (review, candidate)))
      retainReview review (.incident candidate)
      return result

/-- `incident_acknowledge`: takes the reviewed incident, once, for the run and token it names. -/
def acknowledgeIncident (review runId token : Uuid) : ProtocolM Value := do
  let protocol ← get
  match protocol.reviews.lookup review with
  | some (.incident candidate) =>
      Effectful.reject (candidate.inspection.attempt.runId ≠ runId ∨ candidate.token ≠ token)
        .reviewMismatch
      removeReview review
      let incident ← onApp (FacadeM.acknowledgeIncident candidate token)
      encode json (.acknowledged incident)
  | _ => Effectful.fail .unknownReview

/-- The body of `call_with_policy`. -/
def dispatch : Request → ProtocolM Value
  | .probe => do toValue json (.observation (← onApp FacadeM.probe))
  | .sessionCreate => do encode json (.session (← onApp (FacadeM.createSession json.text.keys)))
  | .sessionImport draft => do
      encode json (.session (← onApp (FacadeM.importDraft json.text draft)))
  | .sessionEdit session revision edit => do
      toValue json (.receipt (← onApp (FacadeM.edit json.text.keys session revision edit)))
  | .sessionUndo session revision => do
      encode json (.revision (← onApp (FacadeM.undo json.text.keys session revision)))
  | .sessionRedo session revision => do
      encode json (.revision (← onApp (FacadeM.redo json.text.keys session revision)))
  | .sessionPreview session => do toValue json (.preview (← onApp (FacadeM.session session)))
  | .sessionExport session => do toValue json (.draft (← onApp (FacadeM.exportDraft session)))
  | .sessionFreeze session revision => do
      let frozen ← onApp (FacadeM.freeze json.text.keys session revision)
      toValue json (.document frozen.document)
  | .sessionPrepareRebase session revision => prepareRebase json session revision
  | .sessionAcceptRebase session revision review => acceptRebase json session revision review
  | .reviewClose review => closeReview json review
  | .sessionClose session => closeSession json session
  | .planImport document => do
      encode json (.plan (← onApp (FacadeM.importPlan json.text.keys document)))
  | .planExport plan => do toValue json (.document (← onApp (FacadeM.exportPlan plan)))
  | .planClose plan => do
      onApp (FacadeM.closePlan plan)
      return json.null
  | .capabilities operations => do
      toValue json (.capabilities (← onApp (FacadeM.capabilities operations)))
  | .applyBlocking plan => applyBlocking json plan
  | .applyStart _ | .jobPoll .. | .jobClose _ | .jobCancel _ =>
      Effectful.fail (.unsupportedOperation "job lifecycle requires an owning transport")
  | .runSnapshot run => do toValue json (.snapshot (← onApp (FacadeM.runSnapshot run)))
  | .runEvents run since => do toValue json (.events (← onApp (FacadeM.events run since)))
  | .runClose run => do
      onApp (FacadeM.closeRun run)
      return json.null
  | .incidentInspect => do toValue json (.incident (← onApp FacadeM.incident))
  | .incidentReview => reviewIncident json
  | .incidentAcknowledge review runId token => acknowledgeIncident json review runId token

/-- Delegates every implemented method to the instance-owned facade. -/
def callWithPolicy (request : Request) : ProtocolM Value := do
  let protocol ← get
  Effectful.reject (request.needsLiveHost = true ∧ protocol.liveHost = false) .liveUnavailable
  dispatch json request

end Dispatch

end ProtocolM

end DisksGraph
