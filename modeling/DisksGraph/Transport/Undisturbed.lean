import DisksGraph.Facade.ReadOnly
import DisksGraph.Transport.Registry

/-!
# Transport — Undisturbed

What a call of an exported function does while no other call refers to its context.

* `Context.Idle`: the worker waits for its next message, and nobody holds the guard.
* `opening_path`, `served_path`, `started_path`, `closing_path`, `unknown_path`: the steps of such a
  call from its beginning to its return.
* `sample_run`: a run of the transport that is composed of such calls.
-/

namespace DisksGraph

open Support (Codec Effectful Failure JsonValue Machine Program)
open Support.Machine (Path)

section Undisturbed

variable {Value : Type} {text : TransportJson Value} {registry : Registry Value}

/-! ### What is shown -/

/-- What an opening shows. -/
def openingTrace (call id : Nat) (config : String) (opened : Protocol) :
    List (RegistryEvent Value) :=
  [.began call (.opens config), .internal, .internal, .internal, .context id (.serving opened),
    .context id .internal, .internal, .returned call (.ok (.context id opened.liveHost))]

/-- What a served call shows. -/
def servedTrace (call id : Nat) (input : String) (request : Request) (calls : FacadeTrace)
    (value : Value) : List (RegistryEvent Value) :=
  [.began call (.calls id input), .internal, .internal, .context id .internal,
    .context id .internal, .context id .internal,
    .context id (.served call request calls (.ok value)), .context id .internal, .internal,
    .internal, .returned call (.ok (.application (.ok value)))]

/-- What the start of a job shows. -/
def startedTrace (call id : Nat) (input : String) (plan : PlanId) (job : Nat) :
    List (RegistryEvent Value) :=
  [.began call (.calls id input), .internal, .internal, .context id .internal, .internal,
    .context id (.accepted call plan job), .internal, .internal, .returned call (.ok (.job job)),
    .context id (.started plan job)]

/-- What the rest of a job shows. -/
def endedTrace (id job : Nat) (calls : FacadeTrace)
    (result : Except (Failure ProtocolError) Value) : List (RegistryEvent Value) :=
  [.context id (.executed job calls result), .context id (.ended job result)]

/-- What a closing shows. -/
def closingTrace (call id : Nat) : List (RegistryEvent Value) :=
  [.began call (.closes id), .internal, .internal, .context id .internal, .context id .internal,
    .context id .internal, .context id .internal, .context id .internal, .internal, .internal,
    .returned call (.ok (.closed id))]

/-- What a call for an unknown context shows. -/
def unknownTrace (call id : Nat) (input : String) : List (RegistryEvent Value) :=
  [.began call (.calls id input), .internal, .returned call (.error .unknownContext)]

/-! ### The steps -/

/-- A call that has returned, and what it leaves of its context. -/
def Registry.settle (registry : Registry Value) (call id : Nat) (context : Option (Context Value))
    (outcome : Outcome Value) : Registry Value :=
  (registry.store id context).move call (.returned outcome)

/-- A context at rest. -/
structure Context.Idle (context : Context Value) (protocol : Protocol) : Prop where
  worker : context.worker = .receiving protocol
  queue : context.queue = []
  guard : context.guard = none
  joined : context.joined = false
  poisoned : context.poisoned = false

/-- What is parsed is within the bound. -/
theorem parseRequest_bounded {library : JsonLibrary} {decode : JsonValue → Option Request}
    {input : String} {request : Request} (h : parseRequest library decode input = .ok request) :
    ¬MAX_REQUEST_BYTES < input.utf8ByteSize := by
  intro hlarge
  simp [parseRequest, hlarge, bind, Except.bind, throw, throwThe, MonadExceptOf.throw] at h

/-- A call that its worker serves. -/
theorem Context.enter_forward {context : Context Value} {input : String} {request : Request}
    (hjoined : context.joined = false) (hsettled : context.settled = .ok true)
    (hparse : parseRequest text.library text.decode input = .ok request)
    (hrequest : request.isJob = false) :
    context.enter text input = (.forwarding request, context) := by
  rw [enter, hparse, if_neg (by simp [hjoined])]
  cases request with
  | applyStart | jobPoll | jobClose | jobCancel => simp [Request.isJob] at hrequest
  | _ => simp [forward, hsettled]

/-- A start that is not refused. -/
theorem Context.enter_start {context : Context Value} {input : String} {plan : PlanId}
    (hjoined : context.joined = false) (hlive : context.live = true) (hfree : context.job = none)
    (hparse : parseRequest text.library text.decode input = .ok (.applyStart plan)) :
    context.enter text input = (.allocating plan, context) := by
  rw [enter, hparse, if_neg (by simp [hjoined])]
  simp [startJob, hlive, hfree]

/-- The reply for a call that waits. -/
theorem Context.respond_waiting {context : Context Value} {call : Nat} {reply : Reply Value}
    (hguard : context.guard = some (call, .waiting none)) :
    context.respond call reply = context.reach call (.waiting (some reply)) := by
  simp [respond, hguard, reach]

/-- An opening below the bound. -/
theorem opening_path {call next : Nat} {input : String} {config : Config} (app : Application)
    (hcall : registry.calls call = .idle) (hconfig : Config.read text.library input = .ok config)
    (hslots : registry.slots < MAX_CONTEXTS)
    (hnext : checkedAdd registry.nextContext 1 = some next) :
    (transport text).Path registry
      (openingTrace call registry.nextContext input { app, liveHost := config.live })
      ({ registry with
          slots := registry.slots + 1
          nextContext := next
          contexts := insert registry.nextContext registry.contexts }.settle call
        registry.nextContext
        (some {
          live := config.live
          worker := .receiving { app, liveHost := config.live }
          ready := some (.ok ()) })
        (.ok (.context registry.nextContext config.live))) := by
  refine .cons (.begin (.opens input) hcall) ?_
  refine .cons (.reserve (Registry.move_self ..) hconfig hslots) ?_
  refine .cons (.number (Registry.move_self ..) hnext) ?_
  refine .cons (.spawn (Registry.move_self ..)) ?_
  refine .cons (.work (Registry.store_self ..) (.serve rfl)) ?_
  refine .cons (.guard (Registry.move_self ..) (Registry.store_self ..) (.ready rfl rfl)) ?_
  refine .cons (.register (Registry.move_self ..) (Registry.store_self ..) rfl) ?_
  refine .cons (.deliver (Registry.move_self ..)) (.done ?_)
  simp [Registry.settle, Registry.move, Registry.store, Context.reach]

/-- A request that the worker of a context serves. -/
theorem served_path {call id : Nat} {input : String} {context : Context Value}
    {protocol after : Protocol} {request : Request} {calls : FacadeTrace} {value : Value}
    (hcall : registry.calls call = .idle) (hmem : id ∈ registry.contexts)
    (hentry : registry.entries id = some context) (hidle : context.Idle protocol)
    (hsettled : context.settled = .ok true)
    (hparse : parseRequest text.library text.decode input = .ok request)
    (hrequest : request.isJob = false)
    (hrun : Program.Runs ((ProtocolM.callWithPolicy text.json request).start protocol) calls
      (.ok value, after)) :
    (transport text).Path registry (servedTrace call id input request calls value)
      (registry.settle call id (some { context with worker := .receiving after })
        (.ok (.application (.ok value)))) := by
  obtain ⟨live, worker, ready, queue, joined, job, poisoned, guard⟩ := context
  obtain ⟨rfl, rfl, rfl, rfl, rfl⟩ := hidle
  refine .cons (.begin (.calls id input) hcall) ?_
  refine .cons (.find (Registry.move_self ..) (parseRequest_bounded hparse) hmem) ?_
  refine .cons (.tryLock (Registry.move_self ..) hentry rfl rfl) ?_
  refine .cons (.guard (Registry.move_self ..) (Registry.store_self ..) (.enter rfl)) ?_
  have hentered : Context.enter text (Context.reach ⟨live, .receiving protocol, ready, [], false,
      job, false, none⟩ call (.entered input)) input = (.forwarding request, _) :=
    Context.enter_forward rfl hsettled hparse hrequest
  rw [hentered]
  refine .cons (.guard (Registry.move_self ..) (Registry.store_self ..) (.send rfl rfl rfl)) ?_
  refine .cons (.work (Registry.store_self ..) (.takeCall rfl rfl)) ?_
  refine .cons (.work (Registry.store_self ..) (.answer rfl hrun rfl)) ?_
  rw [Context.respond_waiting rfl]
  refine .cons (.guard (Registry.move_self ..) (Registry.store_self ..) (.receive rfl)) ?_
  refine .cons (.release (Registry.move_self ..) (Registry.store_self ..) rfl) ?_
  refine .cons (.drop (Registry.move_self ..) fun hlast => hlast.1 hmem) ?_
  refine .cons (.deliver (Registry.move_self ..)) (.done ?_)
  simp [Registry.settle, Registry.move, Registry.store, Context.reach]

/-- A start beside no other job. -/
theorem started_path {call id next : Nat} {input : String} {context : Context Value}
    {protocol : Protocol} {plan : PlanId} {job : Job Value}
    (hcall : registry.calls call = .idle) (hmem : id ∈ registry.contexts)
    (hentry : registry.entries id = some context) (hidle : context.Idle protocol)
    (hlive : context.live = true) (hfree : context.job = none)
    (hparse : parseRequest text.library text.decode input = .ok (.applyStart plan))
    (hjob : Job.new registry.nextJob = .ok (job, next)) :
    (transport text).Path registry (startedTrace call id input plan job.id)
      ({ registry with nextJob := next }.settle call id
        (some { context with worker := .applying protocol plan job.id, job := some job })
        (.ok (.job job.id))) := by
  obtain ⟨live, worker, ready, queue, joined, retained, poisoned, guard⟩ := context
  obtain ⟨rfl, rfl, rfl, rfl, rfl⟩ := hidle
  obtain rfl : live = true := hlive
  obtain rfl : retained = none := hfree
  refine .cons (.begin (.calls id input) hcall) ?_
  refine .cons (.find (Registry.move_self ..) (parseRequest_bounded hparse) hmem) ?_
  refine .cons (.tryLock (Registry.move_self ..) hentry rfl rfl) ?_
  refine .cons (.guard (Registry.move_self ..) (Registry.store_self ..) (.enter rfl)) ?_
  have hentered : Context.enter text (Context.reach ⟨true, .receiving protocol, ready, [], false,
      none, false, none⟩ call (.entered input)) input = (.allocating plan, _) :=
    Context.enter_start rfl rfl rfl hparse
  rw [hentered]
  refine .cons (.allocate (Registry.move_self ..) (Registry.store_self ..) rfl hjob) ?_
  refine .cons (.guard (Registry.move_self ..) (Registry.store_self ..) (.start rfl rfl rfl)) ?_
  refine .cons (.release (Registry.move_self ..) (Registry.store_self ..) rfl) ?_
  refine .cons (.drop (Registry.move_self ..) fun hlast => hlast.1 hmem) ?_
  refine .cons (.deliver (Registry.move_self ..)) ?_
  refine .cons (.work (Registry.store_self ..) (.takeApply rfl rfl)) (.done ?_)
  simp [Registry.settle, Registry.move, Registry.store, Context.reach]

/-- A job without updates, from its execution to its end. -/
theorem ended_path {id job : Nat} {context : Context Value} {protocol after : Protocol}
    {plan : PlanId} {calls : FacadeTrace} {result : Except (Failure ProtocolError) Value}
    (hentry : registry.entries id = some context)
    (hworker : context.worker = .applying protocol plan job)
    (hrun : Program.Runs ((ObservedM.applyPlanWithUpdates text.json plan).start (protocol, []))
      calls (result, (after, [])))
    (hresult : result ≠ .error .panic) :
    (transport text).Path registry (endedTrace id job calls result)
      (registry.store id (some ({ context with worker := .receiving after }.updateJob job
        (·.finish (text.jobError result))))) := by
  refine .cons (.work hentry (.conclude hworker hrun)) ?_
  refine .cons (.work (Registry.store_self ..) (.finish rfl hresult)) (.done ?_)
  simp [Registry.store]

/-- A closing, while no other call refers to the context. -/
theorem closing_path {call id : Nat} {context : Context Value} {protocol : Protocol}
    (hcall : registry.calls call = .idle) (hmem : id ∈ registry.contexts)
    (hentry : registry.entries id = some context) (hidle : context.Idle protocol)
    (hothers : ∀ other, other ≠ call → (registry.calls other).refers ≠ some id) :
    (transport text).Path registry (closingTrace call id)
      ({ registry with
          slots := registry.slots - 1
          contexts := registry.contexts.erase id }.settle call id none (.ok (.closed id))) := by
  obtain ⟨live, worker, ready, queue, joined, job, poisoned, guard⟩ := context
  obtain ⟨rfl, rfl, rfl, rfl, rfl⟩ := hidle
  refine .cons (.begin (.closes id) hcall) ?_
  refine .cons (.remove (Registry.move_self ..) hmem) ?_
  refine .cons (.lock (Registry.move_self ..) hentry rfl) ?_
  refine .cons (.guard (Registry.move_self ..) (Registry.store_self ..) (.stop rfl rfl rfl)) ?_
  refine .cons (.work (Registry.store_self ..) (.takeStop rfl rfl)) ?_
  refine .cons (.work (Registry.store_self ..) (.drop rfl)) ?_
  refine .cons (.work (Registry.store_self ..) (.exit rfl)) ?_
  refine .cons (.guard (Registry.move_self ..) (Registry.store_self ..) (.join rfl rfl)) ?_
  refine .cons (.release (Registry.move_self ..) (Registry.store_self ..) rfl) ?_
  refine .cons (.free (Registry.move_self ..) ⟨Finset.notMem_erase id _, ?_⟩
    (Registry.store_self ..) rfl) ?_
  · intro other hother
    simp [hother, hothers other hother]
  refine .cons (.deliver (Registry.move_self ..)) (.done ?_)
  simp [Registry.settle, Registry.move, Registry.store]

/-- A call for a context that the lookup does not have. -/
theorem unknown_path {call id : Nat} {input : String} (hcall : registry.calls call = .idle)
    (hmem : id ∉ registry.contexts) (hsmall : ¬MAX_REQUEST_BYTES < input.utf8ByteSize) :
    (transport text).Path registry (unknownTrace call id input)
      (registry.move call (.returned (.error .unknownContext))) := by
  refine .cons (.begin (.calls id input) hcall) ?_
  refine .cons (.unknown (Registry.move_self ..) hsmall hmem) ?_
  refine .cons (.deliver (Registry.move_self ..)) (.done ?_)
  simp [Registry.move]

end Undisturbed

/-! ### A run -/

/-- A host that acknowledges the incident that it reports, and draws one identity. -/
def workAnswers (id : Uuid) : (call : FacadeCall) → call.Answer
  | .newId => id
  | .acknowledgeIncident .. =>
      (.ok markedIncident.inspection : Except (Failure IncidentError) IncidentInspection)
  | call => openedAnswers call

/-- The requests of the run, by their methods and parameters. -/
def workDecode (value : JsonValue) : Option Request := do
  let request ← value.get "request"
  let method ← request.get "method"
  let params ← request.get "params"
  let uuid (field : String) : Option Uuid :=
    ((params.get field).bind Uuid.codec.decode).map Uuid.codec.value
  if method = .string "incident_review" then return .incidentReview
  if method = .string "incident_acknowledge" then
    return .incidentAcknowledge (← uuid "review") (← uuid "run_id") (← uuid "token")
  if method = .string "session_create" then return .sessionCreate
  if method = .string "session_prepare_rebase" then
    let revision ← (params.get "revision").bind JsonValue.asU64
    return .sessionPrepareRebase ⟨← uuid "session"⟩ ⟨revision⟩
  if method = .string "apply_start" then return .applyStart ⟨← uuid "plan"⟩
  none

/-- A transport whose replies can be encoded. -/
def sampleTransport : TransportJson Unit where
  json := plainJson
  library := ActiveAttempt.sampleLibrary
  decode := workDecode
  ofError _ := ()
  panicked := ()

/-- A configuration with a manifest. -/
def sampleManifest : JsonValue :=
  .object [("abi_version", .int 1), ("protocol_version", .int 1), ("root", .string "/"),
    ("manifest", .string "/etc/manifest")]

/-- The text of the configuration. -/
def sampleConfig : String := sampleManifest.print

/-- The envelope of a request. -/
def sampleEnvelope (method : String) (params : List (String × JsonValue)) : JsonValue :=
  .object [("protocol_version", .int 1),
    ("request", .object [("method", .string method), ("params", .object params)])]

/-- Asks for a review of the incident. -/
def reviewEnvelope : JsonValue := sampleEnvelope "incident_review" []

/-- Acknowledges the incident that was reviewed. -/
def acknowledgeEnvelope : JsonValue := sampleEnvelope "incident_acknowledge"
  [("review", .string "00000000-0000-0000-0000-00000000000b"),
    ("run_id", .string "00000000-0000-0000-0000-000000000005"),
    ("token", .string "00000000-0000-0000-0000-000000000009")]

/-- Opens a session. -/
def createEnvelope : JsonValue := sampleEnvelope "session_create" []

/-- Prepares a rebase of the session. -/
def rebaseEnvelope : JsonValue := sampleEnvelope "session_prepare_rebase"
  [("session", .string "00000000-0000-0000-0000-00000000000b"), ("revision", .int 0)]

/-- Starts a job for a plan. -/
def startEnvelope : JsonValue := sampleEnvelope "apply_start"
  [("plan", .string "00000000-0000-0000-0000-000000000007")]

/-- The text of the review request. -/
def reviewInput : String := reviewEnvelope.print

/-- The text of the acknowledgement. -/
def acknowledgeInput : String := acknowledgeEnvelope.print

/-- The text of the request for a session. -/
def createInput : String := createEnvelope.print

/-- The text of the rebase request. -/
def rebaseInput : String := rebaseEnvelope.print

/-- The text of the request for a job. -/
def startInput : String := startEnvelope.print

/-- What the host and the protocol make of a request. -/
def workServes (id : Uuid) (request : Request) (protocol : Protocol) :
    FacadeTrace × Except (Failure ProtocolError) Unit × Protocol :=
  ((ProtocolM.callWithPolicy sampleTransport.json request).start protocol).respond
    (workAnswers id)

/-- The serving of a request is a run of its method. -/
theorem workServes_runs {id : Uuid} {request : Request} {protocol : Protocol}
    (hok : (workServes id request protocol).2.1.isOk = true) :
    Program.Runs ((ProtocolM.callWithPolicy sampleTransport.json request).start protocol)
      (workServes id request protocol).1 (.ok (), (workServes id request protocol).2.2) := by
  have hrun := Program.runs_respond (workAnswers id)
    ((ProtocolM.callWithPolicy sampleTransport.json request).start protocol)
  rw [workServes] at hok ⊢
  generalize Program.respond _ _ = ended at hok hrun
  obtain ⟨calls, result, after⟩ := ended
  cases result with
  | error failure => cases hok
  | ok value => exact hrun

/-- A protocol with a live host, before its first request. -/
def sampleProtocol : Protocol := { app := {}, liveHost := true }

/-- An incident is reviewed. -/
def workReviewed : FacadeTrace × Except (Failure ProtocolError) Unit × Protocol :=
  workServes 11#128 .incidentReview sampleProtocol

/-- The acknowledgement of the review. -/
def acknowledgeTrace : FacadeTrace :=
  [⟨.acknowledgeIncident markedIncident 9#128,
    (.ok markedIncident.inspection : Except (Failure IncidentError) IncidentInspection)⟩]

/-- The review is acknowledged. -/
def workAcknowledged : FacadeTrace × Except (Failure ProtocolError) Unit × Protocol :=
  workServes 11#128 (.incidentAcknowledge 11#128 5#128 9#128) workReviewed.2.2

/-- A session is created. -/
def workCreated : FacadeTrace × Except (Failure ProtocolError) Unit × Protocol :=
  workServes 11#128 .sessionCreate workAcknowledged.2.2

/-- A rebase of the session is prepared. -/
def workPrepared : FacadeTrace × Except (Failure ProtocolError) Unit × Protocol :=
  workServes 12#128 (.sessionPrepareRebase ⟨11#128⟩ ⟨0⟩) workCreated.2.2

/-- The job of a plan that is not retained. -/
def workExecuted :
    FacadeTrace × Except (Failure ProtocolError) Unit × Protocol × List RunUpdate :=
  ((ObservedM.applyPlanWithUpdates sampleTransport.json ⟨7#128⟩).start
    (workPrepared.2.2, [])).respond (workAnswers 13#128)

/-- The requests of the run are equal. -/
def Request.same : Request → Request → Bool
  | .incidentReview, .incidentReview | .sessionCreate, .sessionCreate => true
  | .incidentAcknowledge review run token, .incidentAcknowledge review' run' token' =>
      review = review' && run = run' && token = token'
  | .sessionPrepareRebase session revision, .sessionPrepareRebase session' revision' =>
      session = session' && revision = revision'
  | .applyStart plan, .applyStart plan' => plan = plan'
  | _, _ => false

theorem Request.eq_of_same {request other : Request} (h : request.same other = true) :
    request = other := by
  unfold same at h
  split at h <;> simp_all

/-- A value is the envelope of a request. -/
def samples (envelope : JsonValue) (request : Request) : Bool :=
  decide (envelope.weight ≤ MAX_REQUEST_BYTES) &&
    sampleTransport.library.readsValue envelope &&
    match versionField "protocol_version" envelope.canonical, workDecode envelope.canonical with
    | .ok version, some parsed => version == PROTOCOL_VERSION && parsed.same request
    | _, _ => false

/-- The envelope is plain JSON. -/
theorem plain_sampleEnvelope {method : String} {params : List (String × JsonValue)}
    (hnames : (params.map Prod.fst).Nodup) (hparams : ∀ member ∈ params, member.2.Plain 0) :
    (sampleEnvelope method params).Plain 3 := by
  have hrequest : JsonValue.Plain 2
      (.object [("method", .string method), ("params", .object params)]) := by
    refine .object (by simp) ?_
    simpa using ⟨.string _, .object hnames hparams⟩
  refine .object (by simp) ?_
  simpa using ⟨.int (by decide) (by decide), hrequest⟩

/-- The text of such a value is parsed as the request. -/
theorem parsed_of_samples {envelope : JsonValue} {request : Request} (hplain : envelope.Plain 3)
    (h : samples envelope request = true) :
    parseRequest sampleTransport.library sampleTransport.decode envelope.print = .ok request := by
  simp only [samples, Bool.and_eq_true, decide_eq_true_eq] at h
  obtain ⟨⟨hsize, hreads⟩, h⟩ := h
  split at h
  · next version parsed hversion hparsed =>
    obtain ⟨hnegotiated, hsame⟩ := Bool.and_eq_true_iff.mp h
    obtain rfl := beq_iff_eq.mp hnegotiated
    obtain rfl := Request.eq_of_same hsame
    have hdecode : sampleTransport.decode envelope.canonical = some parsed := hparsed
    rw [parseRequest, JsonLibrary.fromStr_print hplain hreads, JsonValue.utf8ByteSize_print,
      if_neg (Nat.not_lt.mpr ((JsonValue.byteLength_le_weight _).trans hsize))]
    simp [Except.mapError, hversion, hdecode, bind, Except.bind, pure, Except.pure]
  · cases h

/-- The texts of the run are within their bounds and say what they are to say. -/
theorem sample_texts :
    (sampleManifest.weight ≤ MAX_CONFIG_BYTES ∧
      sampleTransport.library.readsValue sampleManifest = true) ∧
    samples reviewEnvelope .incidentReview = true ∧
    samples acknowledgeEnvelope (.incidentAcknowledge 11#128 5#128 9#128) = true ∧
    samples createEnvelope .sessionCreate = true ∧
    samples rebaseEnvelope (.sessionPrepareRebase ⟨11#128⟩ ⟨0⟩) = true ∧
    samples startEnvelope (.applyStart ⟨7#128⟩) = true := by
  decide +kernel

theorem sample_configured :
    ∃ config, Config.read sampleTransport.library sampleConfig = .ok config ∧
      config.live = true := by
  have hplain : sampleManifest.Plain 1 := by
    refine .object (by decide) ?_
    simpa using ⟨.int (by decide) (by decide), .string _, .string _⟩
  obtain ⟨⟨hsize, hreads⟩, -⟩ := sample_texts
  rw [sampleConfig, Config.read, JsonLibrary.fromStr_print hplain hreads,
    JsonValue.utf8ByteSize_print,
    if_neg (Nat.not_lt.mpr ((JsonValue.byteLength_le_weight _).trans hsize))]
  exact ⟨⟨1, 1, .ofString "/", some (.ofString "/etc/manifest")⟩, by rfl, rfl⟩

theorem review_parsed : parseRequest sampleTransport.library sampleTransport.decode reviewInput =
    .ok .incidentReview :=
  parsed_of_samples (plain_sampleEnvelope (by decide) (by simp)) sample_texts.2.1

theorem acknowledge_parsed :
    parseRequest sampleTransport.library sampleTransport.decode acknowledgeInput =
      .ok (.incidentAcknowledge 11#128 5#128 9#128) :=
  parsed_of_samples (plain_sampleEnvelope (by decide) (by simp [JsonValue.Plain.string]))
    sample_texts.2.2.1

theorem create_parsed : parseRequest sampleTransport.library sampleTransport.decode createInput =
    .ok .sessionCreate :=
  parsed_of_samples (plain_sampleEnvelope (by decide) (by simp)) sample_texts.2.2.2.1

theorem rebase_parsed : parseRequest sampleTransport.library sampleTransport.decode rebaseInput =
    .ok (.sessionPrepareRebase ⟨11#128⟩ ⟨0⟩) := by
  have hrevision : JsonValue.Plain 0 (.int 0) := .int (by decide) (by decide)
  exact parsed_of_samples
    (plain_sampleEnvelope (by decide) (by simp [JsonValue.Plain.string, hrevision]))
    sample_texts.2.2.2.2.1

theorem start_parsed : parseRequest sampleTransport.library sampleTransport.decode startInput =
    .ok (.applyStart ⟨7#128⟩) :=
  parsed_of_samples (plain_sampleEnvelope (by decide) (by simp [JsonValue.Plain.string]))
    sample_texts.2.2.2.2.2

/-- Every request of the run is served. -/
theorem work_served : workReviewed.2.1.isOk = true ∧ workAcknowledged.2.1.isOk = true ∧
    workCreated.2.1.isOk = true ∧ workPrepared.2.1.isOk = true := by
  decide +kernel

/-- The review is served. -/
theorem reviewed_runs : Program.Runs
    ((ProtocolM.callWithPolicy sampleTransport.json .incidentReview).start sampleProtocol)
      (reviewTrace 11#128) (.ok (), workReviewed.2.2) :=
  @workServes_runs 11#128 _ _ work_served.1

/-- The acknowledgement is served. -/
theorem acknowledged_runs : Program.Runs
    ((ProtocolM.callWithPolicy sampleTransport.json
      (.incidentAcknowledge 11#128 5#128 9#128)).start workReviewed.2.2)
      acknowledgeTrace (.ok (), workAcknowledged.2.2) :=
  @workServes_runs 11#128 _ _ work_served.2.1

/-- The session is opened. -/
theorem created_runs : Program.Runs
    ((ProtocolM.callWithPolicy sampleTransport.json .sessionCreate).start workAcknowledged.2.2)
      workCreated.1 (.ok (), workCreated.2.2) :=
  workServes_runs work_served.2.2.1

/-- The rebase is prepared. -/
theorem prepared_runs : Program.Runs
    ((ProtocolM.callWithPolicy sampleTransport.json
      (.sessionPrepareRebase ⟨11#128⟩ ⟨0⟩)).start workCreated.2.2)
      workPrepared.1 (.ok (), workPrepared.2.2) :=
  workServes_runs work_served.2.2.2

/-- The job fails on its unknown plan. -/
theorem executed_runs : Program.Runs
    ((ObservedM.applyPlanWithUpdates sampleTransport.json ⟨7#128⟩).start (workPrepared.2.2, []))
      [] (.error (.error (.application .unknownPlan)), (workExecuted.2.2.1, [])) :=
  Program.runs_respond (workAnswers 13#128) _

/-- The context while its job is executed. -/
def busyContext : Context Unit where
  live := true
  worker := .applying workPrepared.2.2 ⟨7#128⟩ 1
  ready := some (.ok ())
  job := some { id := 1 }

/-- The context after its job. -/
def workedContext : Context Unit where
  live := true
  worker := .receiving workExecuted.2.2.1
  ready := some (.ok ())
  job := some { id := 1, finished := true, error := some () }

/-- Reviews, a session with a rebase, and a job that is executed while another context is opened. -/
def busyTrace : List (RegistryEvent Unit) :=
  openingTrace 0 1 sampleConfig sampleProtocol ++
  servedTrace 1 1 reviewInput .incidentReview (reviewTrace 11#128) () ++
  servedTrace 2 1 acknowledgeInput (.incidentAcknowledge 11#128 5#128 9#128) acknowledgeTrace () ++
  servedTrace 3 1 createInput .sessionCreate workCreated.1 () ++
  servedTrace 4 1 rebaseInput (.sessionPrepareRebase ⟨11#128⟩ ⟨0⟩) workPrepared.1 () ++
  startedTrace 5 1 startInput ⟨7#128⟩ 1 ++
  openingTrace 6 2 sampleConfig sampleProtocol

/-- The same until the job has ended. -/
def workTrace : List (RegistryEvent Unit) :=
  busyTrace ++ endedTrace 1 1 [] (.error (.error (.application .unknownPlan)))

/-- The same, and then the first context is closed. -/
def closeTrace : List (RegistryEvent Unit) := workTrace ++ closingTrace 7 1

/-- The same, and then the closed context is called once more. -/
def sampleTrace : List (RegistryEvent Unit) := closeTrace ++ unknownTrace 8 1 reviewInput

/-- What is told of the transport between two parts of the run. -/
structure Registry.Works (registry : Registry Unit) (context : Context Unit) : Prop where
  entry : registry.entries 1 = some context
  contexts : registry.contexts = {1, 2}
  slots : registry.slots = 2
  closing : registry.calls 7 = .idle
  calling : registry.calls 8 = .idle
  refers : ∀ call, (registry.calls call).refers = none

theorem busy_run : ∃ registry, (transport sampleTransport).Run busyTrace registry ∧
    registry.Works busyContext := by
  obtain ⟨config, hread, hlive⟩ := sample_configured
  have hopened {registry : Registry Unit} {call next : Nat}
      (hcall : registry.calls call = .idle) (hslots : registry.slots < MAX_CONTEXTS)
      (hnext : checkedAdd registry.nextContext 1 = some next) :=
    hlive ▸ @opening_path _ sampleTransport registry call next _ _ {} hcall hread hslots hnext
  have hserved {registry : Registry Unit} {call : Nat} :=
    @served_path _ sampleTransport registry call 1
  -- The calls 0 to 6, one after the other.
  have h0 := (Machine.Run.start rfl).path (@hopened {} 0 2 rfl (by decide) rfl)
  have h1 := h0.path (@hserved _ 1 _ _ _ _ _ _ _ rfl (by decide) rfl ⟨rfl, rfl, rfl, rfl, rfl⟩ rfl
    review_parsed rfl reviewed_runs)
  have h2 := h1.path (@hserved _ 2 _ _ _ _ _ _ _ rfl (by decide) rfl ⟨rfl, rfl, rfl, rfl, rfl⟩ rfl
    acknowledge_parsed rfl acknowledged_runs)
  have h3 := h2.path (@hserved _ 3 _ _ _ _ _ _ _ rfl (by decide) rfl ⟨rfl, rfl, rfl, rfl, rfl⟩ rfl
    create_parsed rfl created_runs)
  have h4 := h3.path (@hserved _ 4 _ _ _ _ _ _ _ rfl (by decide) rfl ⟨rfl, rfl, rfl, rfl, rfl⟩ rfl
    rebase_parsed rfl prepared_runs)
  have h5 := h4.path (@started_path _ _ _ 5 1 2 _ _ _ _ { id := 1 } rfl (by decide) rfl
    ⟨rfl, rfl, rfl, rfl, rfl⟩ rfl rfl start_parsed rfl)
  have h6 := h5.path (@hopened _ 6 3 rfl (by decide) rfl)
  refine ⟨_, h6, rfl, by decide, rfl, rfl, rfl, ?_⟩
  intro call
  simp only [Registry.settle, Registry.move_calls, Registry.store_calls]
  split_ifs <;> rfl

theorem work_run : ∃ registry, (transport sampleTransport).Run workTrace registry ∧
    registry.Works workedContext := by
  obtain ⟨registry, hrun, hworks⟩ := busy_run
  have hpath := @ended_path _ _ _ 1 1 _ _ _ _ _ _ hworks.entry rfl executed_runs
    (fun hpanic => by cases hpanic)
  exact ⟨_, hrun.path hpath, Registry.store_self .., hworks.contexts, hworks.slots, hworks.closing,
    hworks.calling, hworks.refers⟩

/-- The transport after the second call of the closed context. -/
theorem sample_run : ∃ registry, (transport sampleTransport).Run sampleTrace registry := by
  obtain ⟨registry, hrun, hworks⟩ := work_run
  have hmem : 1 ∈ registry.contexts := by simp [hworks.contexts]
  have hclosed := hrun.path (closing_path hworks.closing hmem hworks.entry
    ⟨rfl, rfl, rfl, rfl, rfl⟩ fun other _ => by simp [hworks.refers])
  have hcall : (Registry.settle { registry with
      slots := registry.slots - 1
      contexts := registry.contexts.erase 1 } 7 1 none (.ok (.closed 1))).calls 8 = .idle := by
    simpa [Registry.settle] using hworks.calling
  have hsmall : ¬MAX_REQUEST_BYTES < reviewInput.utf8ByteSize := parseRequest_bounded review_parsed
  exact ⟨_, hclosed.path (@unknown_path _ _ _ 8 1 reviewInput hcall (Finset.notMem_erase 1 _)
    hsmall)⟩

end DisksGraph
