import DisksGraph.Facade.Mailbox
import DisksGraph.Transport.Envelope

/-!
# Transport — Context

One context of the transport (`disksgraph-ffi/src/registry.rs`): the entry behind its mutex, the
worker thread that owns the protocol, and the channel between them.

* `Context`: what the entry and its worker share.  `guard` is the mutex: the call that holds it, and
  how far that call has come.
* `Context.enter`: a call from the lock to its first operation that can block.
* `Worker`: the thread.  Its loop answers calls and executes jobs with one protocol.
* `GuardStep`, `WorkerStep`: the steps of the call that holds the guard, and of the thread.
-/

namespace DisksGraph

open Support (Effectful Failure Program Returns)

/-! ### Errors and replies -/

/-- The errors of a mailbox are transport errors. -/
def JobError.transport : JobError → TransportError
  | .resourceLimit => .resourceLimit
  | .invalidEventCursor => .invalidEventCursor
  | .stopped => .stopped

/-- The errors of a call that its context does not serve.  The others are those of openings, and the
cursor of a poll. -/
def TransportError.refuses : TransportError → Bool
  | .resourceLimit | .unknownContext | .unknownJob | .busy | .stopped | .panicked => true
  | .invalidConfig _ | .unsupportedAbiVersion _ | .unsupportedVersion _ | .invalidEventCursor
  | .openFailed _ => false

/-- What a reply is made of. -/
inductive Reply (Value : Type) where
  | rejected (error : RequestError)
  | application (result : Except ProtocolError Value)
  | transport (error : TransportError)
  | polled (reply : JobReply Value)
  | job (job : Nat)
  | null
  | context (context : Nat) (live : Bool)
  | closed (context : Nat)

/-- What an exported function returns. -/
abbrev Outcome (Value : Type) : Type := Except TransportError (Reply Value)

/-- The JSON of a transport: the envelope of a request is decoded by `decode`. -/
structure TransportJson (Value : Type) where
  json : Json Value
  library : JsonLibrary
  decode : Support.JsonValue → Option Request
  ofError : ProtocolError → Value
  panicked : Value

/-- `finished()`: a poisoned mailbox tells nothing. -/
def Job.isFinished {Value : Type} (job : Job Value) : Except JobError Bool :=
  if job.poisoned then .error .stopped else .ok job.finished

/-- Methods of the job lifecycle, which the transport serves itself. -/
def Request.isJob : Request → Bool
  | .applyStart _ | .jobPoll .. | .jobClose _ | .jobCancel _ => true
  | _ => false

/-! ### Applying a plan -/

/-- What an observer is given. -/
abbrev RunUpdate : Type := RunSnapshot × EventsPage

/-- A method of the protocol with an observer, and what the observer was given at the end. -/
abbrev ObservedM : Type → Type :=
  Effectful FacadeCall FacadeCall.Answer ProtocolError (Protocol × List RunUpdate)

namespace ObservedM

/-- Runs a method of the protocol inside a context that shows its calls. -/
def onProtocol {α : Type} (method : ProtocolM α) : ObservedM α :=
  Effectful.zoom Prod.fst (fun protocol state => (protocol, state.2)) id method

/-- `observer(snapshot, events)`. -/
def observe (update : RunUpdate) : ObservedM PUnit :=
  modify fun state => (state.1, state.2 ++ [update])

variable {Value : Type} (json : Json Value)

/-- The attempt of a plan: a failed one that is retained has its identity. -/
def attempt (plan : PlanId) : ObservedM (Except DisksGraphError RunId) :=
  tryCatch (Except.ok <$> onProtocol (ProtocolM.onApp (FacadeM.applyPlan json.text.keys plan))) fun
    | .error (.application error) => return .error error
    | failure => throw failure

/-- The run of an attempt. -/
def attempted : Except DisksGraphError RunId → Option RunId
  | .ok run => some run
  | .error error => error.runId

/-- The final update includes the errors of the coordinator. -/
def lastUpdate (run : RunId) : ObservedM PUnit := do
  let snapshot ← onProtocol (ProtocolM.onApp (FacadeM.runSnapshot run))
  let events ← onProtocol (ProtocolM.onApp (FacadeM.events run 0))
  observe (snapshot, events)

/-- Executes the same application path with passive updates.  The updates before the last one are
made inside the coordinator. -/
def applyPlanWithUpdates (plan : PlanId) : ObservedM Value := do
  let state ← get
  Effectful.reject (state.1.liveHost = false) .liveUnavailable
  let result ← attempt json plan
  match attempted result with
  | some run => lastUpdate run
  | none => pure ()
  match result with
  | .ok run =>
      let snapshot ← onProtocol (ProtocolM.onApp (FacadeM.runSnapshot run))
      onProtocol (ProtocolM.toValue json (.snapshot snapshot))
  | .error error =>
      match error.runId with
      | none => Effectful.fail (.application error)
      | some run =>
          let snapshot ← onProtocol (ProtocolM.onApp (FacadeM.runSnapshot run))
          onProtocol (ProtocolM.toValue json (.snapshot snapshot))

end ObservedM

/-! ### The context -/

/-- Bounded worker messages.  A call carries the sender of its response channel. -/
inductive Message where
  | call (caller : Nat) (request : Request)
  | apply (plan : PlanId) (job : Nat)
  | stop

/-- The worker thread.  The channel loses its receiver when the loop has been left, or when the host
factory did not reach it. -/
inductive Worker (Value : Type) where
  | initializing
  | receiving (protocol : Protocol)
  | answering (protocol : Protocol) (caller : Nat) (request : Request)
  | applying (protocol : Protocol) (plan : PlanId) (job : Nat)
  | concluding (protocol : Protocol) (job : Nat) (updates : List RunUpdate)
      (result : Except (Failure ProtocolError) Value)
  | leaving
  | ending
  | exited

/-- How far the call that holds the guard has come. -/
inductive Stage (Value : Type) where
  | awaiting
  | registering
  | entered (input : String)
  | allocating (plan : PlanId)
  | starting (plan : PlanId) (job : Job Value)
  | forwarding (request : Request)
  | waiting (response : Option (Reply Value))
  | stopping (outcome : Outcome Value)
  | joining (outcome : Outcome Value)
  | leaving (outcome : Outcome Value)
  | unwinding

/-- One entry with its worker.  `ready` is the handshake of an opening, `joined` says that the
worker was taken. -/
structure Context (Value : Type) where
  live : Bool
  worker : Worker Value := .initializing
  ready : Option (Except TransportError Unit) := none
  queue : List Message := []
  joined : Bool := false
  job : Option (Job Value) := none
  poisoned : Bool := false
  guard : Option (Nat × Stage Value) := none

namespace Worker

variable {Value : Type}

/-- The receiver of the channel is still there. -/
def receives : Worker Value → Bool
  | .ending | .exited => false
  | _ => true

end Worker

namespace Context

variable {Value : Type}

/-- `job(id)?`: enforces ownership before a mailbox is read or released. -/
def ownJob (context : Context Value) (id : Nat) : Except TransportError (Job Value) :=
  match context.job with
  | some job => if job.id = id then .ok job else .error .unknownJob
  | none => .error .unknownJob

/-- Reads the mailbox of the context under its own lock, which a panic poisons as well. -/
def pollJob (context : Context Value) (id since : Nat) : Stage Value × Context Value :=
  match context.ownJob id with
  | .error error => (.leaving (.error error), context)
  | .ok job =>
      match job.poll since with
      | (none, job) => (.unwinding, { context with job := some job })
      | (some (.error error), job) =>
          (.leaving (.ok (.transport error.transport)), { context with job := some job })
      | (some (.ok reply), job) =>
          (.leaving (.ok (.polled reply)), { context with job := some job })

/-- Releases a terminal mailbox. -/
def closeJob (context : Context Value) (id : Nat) : Stage Value × Context Value :=
  match context.ownJob id with
  | .error error => (.leaving (.error error), context)
  | .ok job =>
      match job.isFinished with
      | .error error => (.leaving (.error error.transport), context)
      | .ok false => (.leaving (.error .busy), context)
      | .ok true => (.leaving (.ok .null), { context with job := none })

/-- Interruption is never supported. -/
def cancelJob (context : Context Value) (id : Nat) : Stage Value :=
  match context.ownJob id with
  | .error error => .leaving (.error error)
  | .ok _ => .leaving (.ok (.application (.error (.unsupportedOperation
      "native invocation cancellation is unsupported; close waits for completion"))))

/-- The retained mailbox is terminal, or there is none.  Otherwise the error of the call. -/
def settled (context : Context Value) : Except TransportError Bool :=
  match context.job with
  | none => .ok true
  | some job =>
      match job.isFinished with
      | .error error => .error error.transport
      | .ok finished => .ok finished

/-- Rejects a start without a live host, and a start beside a retained mailbox. -/
def startJob (context : Context Value) (plan : PlanId) : Stage Value :=
  if context.live = false then .leaving (.ok (.application (.error .liveUnavailable)))
  else match context.job with
    | none => .allocating plan
    | some job =>
        match job.isFinished with
        | .error error => .leaving (.error error.transport)
        | .ok true => .leaving (.error .resourceLimit)
        | .ok false => .leaving (.error .busy)

/-- Serial operations require the background attempt to have returned. -/
def forward (context : Context Value) (request : Request) : Stage Value :=
  match context.settled with
  | .error error => .leaving (.error error)
  | .ok false => .leaving (.error .busy)
  | .ok true => .forwarding request

/-- A call from the lock to its first operation that can block. -/
def enter (text : TransportJson Value) (context : Context Value) (input : String) :
    Stage Value × Context Value :=
  if context.joined then (.leaving (.error .unknownContext), context)
  else match parseRequest text.library text.decode input with
    | .error error => (.leaving (.ok (.rejected error)), context)
    | .ok (.jobPoll job since) => context.pollJob job since
    | .ok (.jobClose job) => context.closeJob job
    | .ok (.jobCancel job) => (context.cancelJob job, context)
    | .ok (.applyStart plan) => (context.startJob plan, context)
    | .ok request => (context.forward request, context)

/-- The mailbox that the worker shares, while it is retained. -/
def updateJob (context : Context Value) (id : Nat) (update : Job Value → Job Value) :
    Context Value :=
  { context with job := context.job.map fun job => if job.id = id then update job else job }

/-- `response.send(reply)`: the channel of a call that waits. -/
def respond (context : Context Value) (caller : Nat) (reply : Reply Value) : Context Value :=
  match context.guard with
  | some (holder, .waiting none) =>
      if holder = caller then { context with guard := some (holder, .waiting (some reply)) }
      else context
  | _ => context

/-- The sender of a response channel is still somewhere: in the channel, or with the worker. -/
def Answers (context : Context Value) (caller : Nat) : Prop :=
  (∃ request, Message.call caller request ∈ context.queue) ∨
    ∃ protocol request, context.worker = .answering protocol caller request

/-- The guard at a stage. -/
def reach (context : Context Value) (call : Nat) (stage : Stage Value) : Context Value :=
  { context with guard := some (call, stage) }

end Context

/-! ### Steps -/

/-- What happens to one context.  A request that was served and a job that was executed show their
calls to the host. -/
inductive ContextEvent (Value : Type) where
  | internal
  | serving (protocol : Protocol)
  | served (call : Nat) (request : Request) (calls : FacadeTrace)
      (result : Except (Failure ProtocolError) Value)
  | accepted (call : Nat) (plan : PlanId) (job : Nat)
  | started (plan : PlanId) (job : Nat)
  | published (job : Nat)
  | executed (job : Nat) (calls : FacadeTrace) (result : Except (Failure ProtocolError) Value)
  | ended (job : Nat) (result : Except (Failure ProtocolError) Value)

/-- The calls to the host that an event shows. -/
def ContextEvent.calls {Value : Type} : ContextEvent Value → FacadeTrace
  | .served _ _ calls _ | .executed _ calls _ => calls
  | _ => []

/-- A step of the call that holds the guard.  A send blocks while a message is pending and fails
when the receiver is gone; a receive blocks until there is a message, and fails when there can be
none. -/
inductive GuardStep {Value : Type} (text : TransportJson Value) (call : Nat) :
    Context Value → ContextEvent Value → Context Value → Prop where
  | ready {context : Context Value} (hguard : context.guard = some (call, .awaiting))
      (hready : context.ready = some (.ok ())) :
      GuardStep text call context .internal (context.reach call .registering)
  | refused {context : Context Value} {error : TransportError}
      (hguard : context.guard = some (call, .awaiting))
      (hready : context.ready = some (.error error)) :
      GuardStep text call context .internal (context.reach call (.leaving (.error error)))
  | unready {context : Context Value} (hguard : context.guard = some (call, .awaiting))
      (hready : context.ready = none) (hreceives : context.worker.receives = false) :
      GuardStep text call context .internal (context.reach call (.leaving (.error .stopped)))
  | enter {context : Context Value} {input : String}
      (hguard : context.guard = some (call, .entered input)) :
      GuardStep text call context .internal
        ((context.enter text input).2.reach call (context.enter text input).1)
  | start {context : Context Value} {plan : PlanId} {job : Job Value}
      (hguard : context.guard = some (call, .starting plan job)) (hqueue : context.queue = [])
      (hreceives : context.worker.receives = true) :
      GuardStep text call context (.accepted call plan job.id)
        ({ context with queue := [.apply plan job.id], job := some job }.reach call
          (.leaving (.ok (.job job.id))))
  | startFails {context : Context Value} {plan : PlanId} {job : Job Value}
      (hguard : context.guard = some (call, .starting plan job))
      (hreceives : context.worker.receives = false) :
      GuardStep text call context .internal (context.reach call (.leaving (.error .stopped)))
  | send {context : Context Value} {request : Request}
      (hguard : context.guard = some (call, .forwarding request)) (hqueue : context.queue = [])
      (hreceives : context.worker.receives = true) :
      GuardStep text call context .internal
        ({ context with queue := [.call call request] }.reach call (.waiting none))
  | sendFails {context : Context Value} {request : Request}
      (hguard : context.guard = some (call, .forwarding request))
      (hreceives : context.worker.receives = false) :
      GuardStep text call context .internal (context.reach call (.leaving (.error .stopped)))
  | receive {context : Context Value} {reply : Reply Value}
      (hguard : context.guard = some (call, .waiting (some reply))) :
      GuardStep text call context .internal (context.reach call (.leaving (.ok reply)))
  | hungUp {context : Context Value} (hguard : context.guard = some (call, .waiting none))
      (hgone : ¬context.Answers call) :
      GuardStep text call context .internal (context.reach call (.leaving (.error .stopped)))
  | stop {context : Context Value} {outcome : Outcome Value}
      (hguard : context.guard = some (call, .stopping outcome)) (hqueue : context.queue = [])
      (hreceives : context.worker.receives = true) :
      GuardStep text call context .internal
        ({ context with queue := [.stop] }.reach call (.joining outcome))
  | stopFails {context : Context Value} {outcome : Outcome Value}
      (hguard : context.guard = some (call, .stopping outcome))
      (hreceives : context.worker.receives = false) :
      GuardStep text call context .internal (context.reach call (.joining outcome))
  | join {context : Context Value} {outcome : Outcome Value}
      (hguard : context.guard = some (call, .joining outcome))
      (hexited : context.worker = .exited) :
      GuardStep text call context .internal (context.reach call (.leaving outcome))

/-- The value of a result that did not panic. -/
def answered {Value : Type} :
    Except (Failure ProtocolError) Value → Option (Except ProtocolError Value)
  | .ok value => some (.ok value)
  | .error (.error error) => some (.error error)
  | .error .panic => none

/-- The error that a job is left with. -/
def TransportJson.jobError {Value : Type} (text : TransportJson Value) :
    Except (Failure ProtocolError) Value → Option Value
  | .ok _ => none
  | .error (.error error) => some (text.ofError error)
  | .error .panic => some text.panicked

/-- A step of the worker thread.  The host factory may reach the loop with any application, fail or
panic. -/
inductive WorkerStep {Value : Type} (text : TransportJson Value) :
    Context Value → ContextEvent Value → Context Value → Prop where
  | serve {context : Context Value} {app : Application}
      (hworker : context.worker = .initializing) :
      WorkerStep text context (.serving { app, liveHost := context.live })
        { context with
          worker := .receiving { app, liveHost := context.live }, ready := some (.ok ()) }
  | fail {context : Context Value} {error : Option TransportError}
      (hworker : context.worker = .initializing) :
      WorkerStep text context .internal
        { context with worker := .ending, ready := error.map .error, queue := [] }
  | takeCall {context : Context Value} {protocol : Protocol} {caller : Nat} {request : Request}
      {rest : List Message} (hworker : context.worker = .receiving protocol)
      (hqueue : context.queue = .call caller request :: rest) :
      WorkerStep text context .internal
        { context with worker := .answering protocol caller request, queue := rest }
  | answer {context : Context Value} {protocol after : Protocol} {caller : Nat}
      {request : Request} {calls : FacadeTrace} {result : Except (Failure ProtocolError) Value}
      {value : Except ProtocolError Value}
      (hworker : context.worker = .answering protocol caller request)
      (hrun : Program.Runs ((ProtocolM.callWithPolicy text.json request).start protocol) calls
        (result, after))
      (hvalue : answered result = some value) :
      WorkerStep text context (.served caller request calls result)
        ({ context with worker := .receiving after }.respond caller (.application value))
  | panic {context : Context Value} {protocol after : Protocol} {caller : Nat}
      {request : Request} {calls : FacadeTrace}
      (hworker : context.worker = .answering protocol caller request)
      (hrun : Program.Runs ((ProtocolM.callWithPolicy text.json request).start protocol) calls
        (.error .panic, after)) :
      WorkerStep text context (.served caller request calls (.error .panic))
        ({ context with worker := .leaving }.respond caller (.transport .panicked))
  | takeApply {context : Context Value} {protocol : Protocol} {plan : PlanId} {job : Nat}
      {rest : List Message} (hworker : context.worker = .receiving protocol)
      (hqueue : context.queue = .apply plan job :: rest) :
      WorkerStep text context (.started plan job)
        { context with worker := .applying protocol plan job, queue := rest }
  | publish {context : Context Value} {protocol : Protocol} {plan : PlanId} {job : Nat}
      {run : ExecutionRun} {update : RunUpdate}
      (hworker : context.worker = .applying protocol plan job)
      (hrun : Reachable text.json.text.keys run) (hupdate : run.liveUpdate = some update) :
      WorkerStep text context (.published job)
        (context.updateJob job (·.update update.1 update.2))
  | conclude {context : Context Value} {protocol after : Protocol} {plan : PlanId} {job : Nat}
      {calls : FacadeTrace} {updates : List RunUpdate}
      {result : Except (Failure ProtocolError) Value}
      (hworker : context.worker = .applying protocol plan job)
      (hrun : Program.Runs
        ((ObservedM.applyPlanWithUpdates text.json plan).start (protocol, [])) calls
        (result, (after, updates))) :
      WorkerStep text context (.executed job calls result)
        { context with worker := .concluding after job updates result }
  | publishLast {context : Context Value} {protocol : Protocol} {job : Nat} {update : RunUpdate}
      {rest : List RunUpdate} {result : Except (Failure ProtocolError) Value}
      (hworker : context.worker = .concluding protocol job (update :: rest) result) :
      WorkerStep text context .internal
        ({ context with worker := .concluding protocol job rest result }.updateJob job
          (·.update update.1 update.2))
  | finish {context : Context Value} {protocol : Protocol} {job : Nat}
      {result : Except (Failure ProtocolError) Value}
      (hworker : context.worker = .concluding protocol job [] result)
      (hpanic : result ≠ .error .panic) :
      WorkerStep text context (.ended job result)
        ({ context with worker := .receiving protocol }.updateJob job
          (·.finish (text.jobError result)))
  | finishPanicked {context : Context Value} {protocol : Protocol} {job : Nat}
      (hworker : context.worker = .concluding protocol job [] (.error .panic)) :
      WorkerStep text context (.ended job (.error .panic))
        ({ context with worker := .leaving }.updateJob job
          (·.finish (text.jobError (.error .panic))))
  | takeStop {context : Context Value} {protocol : Protocol} {rest : List Message}
      (hworker : context.worker = .receiving protocol) (hqueue : context.queue = .stop :: rest) :
      WorkerStep text context .internal { context with worker := .leaving, queue := rest }
  | drop {context : Context Value} (hworker : context.worker = .leaving) :
      WorkerStep text context .internal { context with worker := .ending, queue := [] }
  | exit {context : Context Value} (hworker : context.worker = .ending) :
      WorkerStep text context .internal { context with worker := .exited }

end DisksGraph
