import DisksGraph.Facade.Retained
import DisksGraph.Transport.Owner

/-!
# Transport — Objects

What the protocol of a context owns, however calls, jobs and closings are interleaved.

* `ObservedM.applyPlanWithUpdates_keeps`: a job keeps what requests keep.
* `Owner.Past`: the sessions that an owner has had under a handle.
* `owner_accounted`: the protocol of an owner owns only what its methods make, and the calls that
  the owner has made were all allowed.
* `objects_kept`, `incidents_accounted`: so it is in every context of the transport, for the calls
  to the host that its events show, in their order.
-/

namespace DisksGraph

open Support (Effectful Failure Machine Program)
open Support.Effectful (Ends)

/-! ### Jobs -/

namespace ObservedM

variable {texts : CoordinatorText} {past : SessionId → PlanSession → Prop} {trusted : Prop}
  {text : EditingText} {α β : Type}

/-- The same as for a protocol, with what its observer was given. -/
def Keeps (texts : CoordinatorText) (past : SessionId → PlanSession → Prop) (trusted : Prop)
    (text : EditingText) (x : ObservedM α) : Prop :=
  ∀ state ledger, Protocol.Holds text past trusted state.1 ledger →
    Ensures texts trusted (fun _ state ledger => Protocol.Holds text past trusted state.1 ledger)
      (fun state ledger => Protocol.Holds text past trusted state.1 ledger) x state ledger

/-- Methods in sequence keep what is held. -/
theorem Keeps.bind {x : ObservedM α} {f : α → ObservedM β} (hx : Keeps texts past trusted text x)
    (hf : ∀ a, Keeps texts past trusted text (f a)) : Keeps texts past trusted text (x >>= f) :=
  fun state ledger h => Ends.bind (hx state ledger h) fun a _ _ hnext => hf a _ _ hnext

theorem Keeps.onProtocol {method : ProtocolM α}
    (h : ProtocolM.Keeps texts past trusted text method) :
    Keeps texts past trusted text (onProtocol method) :=
  fun state ledger hholds => Ends.zoom (h state.1 ledger hholds)

variable {Value : Type} {json : Json Value}

theorem attempt_keeps (hkeys : texts.keys = json.text.keys) (plan : PlanId) :
    Keeps texts past trusted json.text (attempt json plan) := by
  have happly : Keeps texts past trusted json.text
      (ObservedM.onProtocol (ProtocolM.onApp (FacadeM.applyPlan json.text.keys plan))) :=
    .onProtocol (.onApp fun _ _ h => FacadeM.applyPlan_keeps hkeys h)
  intro state ledger h
  refine .tryCatch (Ends.map (happly state ledger h)) fun failure _ _ hfailed => ?_
  split
  · exact .pure hfailed
  · exact .throw hfailed

theorem snapshot_keeps (run : RunId) : Keeps texts past trusted text
    (ObservedM.onProtocol (ProtocolM.onApp (FacadeM.runSnapshot run))) :=
  .onProtocol (.of_still (ProtocolM.onApp_still (FacadeM.runSnapshot_still run)))

theorem lastUpdate_keeps (run : RunId) : Keeps texts past trusted text (lastUpdate run) := by
  refine .bind (snapshot_keeps run) fun snapshot => .bind ?_ fun events => ?_
  · exact .onProtocol (.of_still (ProtocolM.onApp_still (FacadeM.events_still run 0)))
  · exact fun _ _ h => Ends.modify h

/-- A job keeps everything, whatever the host answers and however the job ends. -/
theorem applyPlanWithUpdates_keeps (hkeys : texts.keys = json.text.keys) (plan : PlanId) :
    Keeps texts past trusted json.text (applyPlanWithUpdates json plan) := by
  intro state ledger h
  refine .bind_get (.bind_reject (fun _ => h) fun _ => ?_)
  refine Ends.bind (attempt_keeps hkeys plan state ledger h) fun result state ledger h => ?_
  have hdone (run : RunId) : Keeps texts past trusted json.text (lastUpdate run >>= fun _ =>
      ObservedM.onProtocol (ProtocolM.onApp (FacadeM.runSnapshot run)) >>= fun snapshot =>
        ObservedM.onProtocol (ProtocolM.toValue json (.snapshot snapshot))) :=
    .bind (lastUpdate_keeps run) fun _ => .bind (snapshot_keeps run) fun _ =>
      .onProtocol (.of_still (ProtocolM.toValue_still _))
  cases result with
  | ok run => exact hdone run state ledger h
  | error error =>
      -- A failed attempt has an update as far as it was retained.
      simp only [attempted]
      cases error.runId with
      | none => exact .fail h
      | some run => exact hdone run state ledger h

end ObservedM

/-! ### One owner -/

/-- What the reviews of some calls are, and which of them were used. -/
def FacadeTrace.ledger (calls : FacadeTrace) : ReviewLedger :=
  calls.foldl ReviewLedger.observe {}

theorem FacadeTrace.ledger_append (calls more : FacadeTrace) :
    FacadeTrace.ledger (calls ++ more) = more.foldl ReviewLedger.observe calls.ledger := by
  rw [ledger, List.foldl_append, ledger]

/-- The protocol that an owner has come to. -/
def Owner.protocol {Value : Type} : Owner Value → Option Protocol
  | .unopened | .stopped => none
  | .idle protocol | .pending protocol .. | .running protocol .. | .concluded protocol .. =>
      some protocol

/-- The protocol that a thread has. -/
def Worker.protocol {Value : Type} : Worker Value → Option Protocol
  | .receiving protocol | .answering protocol .. | .applying protocol ..
  | .concluding protocol .. => some protocol
  | .initializing | .leaving | .ending | .exited => none

/-- The calls to the host that events show, in their order. -/
def hostCalls {Value : Type} (shown : List (ContextEvent Value)) : FacadeTrace :=
  shown.flatMap ContextEvent.calls

section Owners

variable {Value : Type} {text : TransportJson Value} {shown : List (ContextEvent Value)}
  {state : Owner Value} {protocol : Protocol} {event : ContextEvent Value}

theorem hostCalls_append (shown more : List (ContextEvent Value)) :
    hostCalls (shown ++ more) = hostCalls shown ++ hostCalls more :=
  List.flatMap_append

theorem hostCalls_singleton (event : ContextEvent Value) : hostCalls [event] = event.calls :=
  List.flatMap_singleton ..

/-- At some time up to now, an owner had the session under the handle. -/
def Owner.Past (text : TransportJson Value) (shown : List (ContextEvent Value)) (id : SessionId)
    (session : PlanSession) : Prop :=
  ∃ before state protocol, before <+: shown ∧ (owner text).Run before state ∧
    state.protocol = some protocol ∧ protocol.app.sessions.lookup id = some session

/-- What was held once stays in the past. -/
theorem Owner.Past.mono {id : SessionId} {session : PlanSession} (h : Past text shown id session)
    (more : List (ContextEvent Value)) : Past text (shown ++ more) id session := by
  obtain ⟨before, state, protocol, hbefore, hrun⟩ := h
  exact ⟨before, state, protocol, hbefore.trans (List.prefix_append shown more), hrun⟩

/-- What is held now is in the past of what follows. -/
theorem Owner.Past.now (h : (owner text).Run shown state)
    (hprotocol : state.protocol = some protocol)
    (id : SessionId) (session : PlanSession)
    (hsession : protocol.app.sessions.lookup id = some session) :
    Past text shown id session :=
  ⟨shown, state, protocol, List.prefix_refl shown, h, hprotocol, hsession⟩

/-- A panicked owner has no protocol, any other has the one that is left. -/
theorem Owner.after_protocol {result : Except (Failure ProtocolError) Value} {after : Protocol}
    (h : (Owner.after after result).protocol = some protocol) : protocol = after := by
  cases result with
  | ok value => exact (Option.some.inj h).symm
  | error failure =>
      cases failure with
      | error error => exact (Option.some.inj h).symm
      | panic => cases h

theorem Owner.after_ne {result : Except (Failure ProtocolError) Value} {after : Protocol} :
    Owner.after after result ≠ .unopened := by
  intro hstate
  cases result with
  | ok value => cases hstate
  | error failure => cases failure <;> cases hstate

/-- An owner shows nothing before it is opened. -/
theorem owner_unopened (h : (owner text).Run shown .unopened) : shown = [] := by
  generalize hstate : Owner.unopened = state at h
  cases h with
  | start hstart => rfl
  | step hrun hstep =>
      exfalso
      subst hstate
      generalize hafter : Owner.unopened = after at hstep
      cases hstep with
      | serves hrun => exact Owner.after_ne hafter.symm
      | ends protocol job result => exact Owner.after_ne hafter.symm
      | _ => cases hafter

/-- What an owner has come to: its protocol holds with the ledger of the calls that were shown, and
each of these calls was allowed when it was made. -/
structure Owner.Accounted (text : TransportJson Value) (trusted : Prop)
    (shown : List (ContextEvent Value)) (state : Owner Value) : Prop where
  holds : ∀ protocol, state.protocol = some protocol →
    protocol.Holds text.json.text (Past text shown) trusted (hostCalls shown).ledger
  granted : Program.Granted ReviewLedger.Allows ReviewLedger.observe {} (hostCalls shown)

variable {trusted : Prop}

/-- An event without a call leaves the protocol alone, or takes it. -/
theorem Owner.Accounted.quiet (h : Accounted text trusted shown state) {state' : Owner Value}
    (hcalls : event.calls = []) (hstate : ∀ protocol, state'.protocol = some protocol →
      state.protocol = some protocol) : Accounted text trusted (shown ++ [event]) state' := by
  have hsame : hostCalls (shown ++ [event]) = hostCalls shown := by
    rw [hostCalls_append, hostCalls_singleton, hcalls, List.append_nil]
  refine ⟨fun protocol hprotocol => ?_, hsame ▸ h.granted⟩
  rw [hsame]
  obtain ⟨hkept, haccounts⟩ := h.holds protocol (hstate protocol hprotocol)
  exact ⟨hkept.mono fun _ _ hpast => hpast.mono _, haccounts⟩

/-- An event with calls that are allowed, and what they leave. -/
theorem Owner.Accounted.called (h : Accounted text trusted shown state) {state' : Owner Value}
    (hprotocol : ∀ protocol, state'.protocol = some protocol →
      protocol.Holds text.json.text (Past text shown) trusted
        (event.calls.foldl ReviewLedger.observe (hostCalls shown).ledger))
    (hgranted : Program.Granted ReviewLedger.Allows ReviewLedger.observe (hostCalls shown).ledger
      event.calls) : Accounted text trusted (shown ++ [event]) state' := by
  have hcalls : hostCalls (shown ++ [event]) = hostCalls shown ++ event.calls := by
    rw [hostCalls_append, hostCalls_singleton]
  refine ⟨fun protocol hstate => ?_, ?_⟩
  · rw [hcalls, FacadeTrace.ledger_append]
    obtain ⟨hkept, haccounts⟩ := hprotocol protocol hstate
    exact ⟨hkept.mono fun _ _ hpast => hpast.mono _, haccounts⟩
  · rw [hcalls]
    exact h.granted.append hgranted

/-- **One owner.**  Whatever is requested, and whatever the host answers, what holds of the protocol
that was opened goes on to hold, and every call on the way is allowed. -/
theorem owner_accounted (h : (owner text).Run shown state)
    (hopened : ∀ opened, .serving opened ∈ shown → opened.Holds text.json.text (fun _ _ => False)
      trusted {})
    {texts : CoordinatorText} (hkeys : texts.keys = text.json.text.keys)
    (hhonest : trusted → ∀ event ∈ hostCalls shown, Coordinated texts event) :
    Owner.Accounted text trusted shown state := by
  revert hopened hhonest
  refine h.recorded (I := fun shown state =>
    (∀ opened, .serving opened ∈ shown → opened.Holds text.json.text (fun _ _ => False)
      trusted {}) →
    (trusted → ∀ event ∈ hostCalls shown, Coordinated texts event) →
      Owner.Accounted text trusted shown state) ?_ ?_
  · rintro _ rfl - -
    refine ⟨fun protocol hprotocol => ?_, fun before event after htrace => ?_⟩
    · cases hprotocol
    · simp [hostCalls] at htrace
  · intro shown state event state' hrun ih hstep hopened hhonest
    have hcalls : hostCalls (shown ++ [event]) = hostCalls shown ++ event.calls := by
      rw [hostCalls_append, hostCalls_singleton]
    rw [hcalls] at hhonest
    have haccounted := ih (fun opened hmem => hopened opened (List.mem_append_left _ hmem))
      fun htrusted event hmem => hhonest htrusted event (List.mem_append_left _ hmem)
    have hnow (htrusted : trusted) : ∀ other ∈ event.calls, Coordinated texts other :=
      fun other hmem => hhonest htrusted other (List.mem_append_right _ hmem)
    -- Only requests and jobs make calls.
    cases hstep with
    | opens opened =>
        obtain rfl := owner_unopened hrun
        have hholds := hopened opened (List.mem_append_right _ (List.mem_singleton_self _))
        refine haccounted.called (fun protocol hprotocol => ?_) ?_
        · obtain rfl := Option.some.inj hprotocol
          exact ⟨hholds.kept.mono fun _ _ hpast => hpast.elim, hholds.accounts⟩
        · intro before event after htrace
          simp [ContextEvent.calls] at htrace
    | @serves protocol after call request calls result hprogram =>
        have hholds := haccounted.holds protocol rfl
        obtain ⟨hafter, hgranted⟩ :=
          Ensures.runs (ProtocolM.callWithPolicy_keeps hkeys request hholds
          (Owner.Past.now hrun rfl)) hprogram fun other hmem htrusted => hnow htrusted other hmem
        refine haccounted.called (fun other hother => ?_) hgranted
        exact Owner.after_protocol hother ▸ hafter
    | @executes protocol after plan job calls updates result hprogram =>
        have hholds := haccounted.holds protocol rfl
        obtain ⟨hafter, hgranted⟩ := Ensures.runs
          (ObservedM.applyPlanWithUpdates_keeps hkeys plan (protocol, []) _ hholds) hprogram
          fun other hmem htrusted => hnow htrusted other hmem
        refine haccounted.called (fun other hother => ?_) hgranted
        obtain rfl := Option.some.inj hother
        exact hafter
    | ends protocol job result =>
        refine haccounted.quiet rfl fun other hother => ?_
        exact Owner.after_protocol hother ▸ rfl
    | accepts protocol call plan job => exact haccounted.quiet rfl fun _ hother => hother
    | starts protocol plan job => exact haccounted.quiet rfl fun _ hother => hother
    | forgets call plan job => exact haccounted.quiet rfl fun _ hother => hother

end Owners

/-- The session that a retained rebase belongs to. -/
def RetainedReview.owner : RetainedReview → Option SessionId
  | .rebase owner _ => some owner
  | .incident _ => none

/-- A call that executes a run. -/
def FacadeCall.executes : FacadeCall → Bool
  | .executeRun _ => true
  | _ => false

/-- Nothing is left by a call that executes no run. -/
theorem coordinated_of_not_executes {texts : CoordinatorText}
    {event : Program.Event FacadeCall FacadeCall.Answer} (h : event.1.executes = false) :
    Coordinated texts event := by
  obtain ⟨call, answer⟩ := event
  cases call with
  | executeRun run => cases h
  | _ => exact trivial

/-! ### The contexts of a transport -/

/-- The thread of a context has the protocol that its owner has come to. -/
theorem Context.Owned.protocol {Value : Type} {context : Context Value} {state : Owner Value}
    {protocol : Protocol} (h : context.Owned state)
    (hprotocol : context.worker.protocol = some protocol) : state.protocol = some protocol := by
  rw [Owned] at h
  cases hworker : context.worker with
  | receiving before =>
      rw [hworker] at h hprotocol
      rcases h with ⟨plan, job, -, rfl⟩ | ⟨-, rfl⟩
      · exact hprotocol
      · exact hprotocol
  | answering before caller request =>
      rw [hworker] at h hprotocol
      exact h ▸ hprotocol
  | applying before plan job =>
      rw [hworker] at h hprotocol
      exact h ▸ hprotocol
  | concluding after job updates result =>
      rw [hworker] at h hprotocol
      exact h ▸ hprotocol
  | _ => simp [hworker, Worker.protocol] at hprotocol

namespace Registry

variable {Value : Type} {text : TransportJson Value} {registry registry' : Registry Value}
  {trace : List (RegistryEvent Value)} {id : Nat} {context : Context Value} {protocol : Protocol}

/-- A protocol is opened without reviews. -/
theorem opens_fresh {event : RegistryEvent Value} {opened : Protocol}
    (hstep : RegistryStep text registry event registry')
    (hevent : event = .context id (.serving opened)) : opened.reviews = ∅ := by
  cases hstep with
  | guard hcall hentry hguarded =>
      cases hevent
      cases hguarded
  | work hentry hworked =>
      cases hevent
      cases hworked
      rfl
  | _ => cases hevent

theorem opened_fresh (hrun : (transport text).Run trace registry) {opened : Protocol}
    (hmem : .context id (.serving opened) ∈ trace) : opened.reviews = ∅ := by
  revert hmem
  refine hrun.recorded (I := fun trace _ =>
    .context id (.serving opened) ∈ trace → opened.reviews = ∅) ?_ ?_
  · exact fun _ _ hmem => absurd hmem List.not_mem_nil
  · intro trace registry event registry' _ ih hstep hmem
    rcases List.mem_append.mp hmem with hbefore | hlast
    · exact ih hbefore
    · exact opens_fresh hstep (List.mem_singleton.mp hlast).symm

/-- A protocol that owns nothing holds. -/
theorem holds_opened {past : SessionId → PlanSession → Prop} {trusted : Prop} {opened : Protocol}
    (happ : opened.app = {}) (hreviews : opened.reviews = ∅) :
    opened.Holds text.json.text past trusted {} := by
  obtain ⟨app, liveHost, reviews⟩ := opened
  obtain rfl := happ
  obtain rfl := hreviews
  exact ⟨.empty liveHost, List.nil_subperm⟩

/-- What a run shows of a context, of which the host has opened an application that owns nothing. -/
theorem accounted (hrun : (transport text).Run trace registry)
    (hopened : ∀ opened, .context id (.serving opened) ∈ trace → opened.app = {})
    {state : Owner Value}
    (howner : (owner text).Run (trace.filterMap (RegistryEvent.shown id)) state)
    {trusted : Prop} {texts : CoordinatorText} (hkeys : texts.keys = text.json.text.keys)
    (hhonest : trusted → ∀ event ∈ hostCalls (trace.filterMap (RegistryEvent.shown id)),
      Coordinated texts event) :
    Owner.Accounted text trusted (trace.filterMap (RegistryEvent.shown id)) state := by
  refine owner_accounted howner (fun opened hmem => ?_) hkeys hhonest
  obtain ⟨event, hevent, hshown⟩ := List.mem_filterMap.mp hmem
  obtain rfl := RegistryEvent.eq_of_shown hshown
  exact holds_opened (hopened opened hevent) (opened_fresh hrun hevent)

/-- **What a context owns.**  The host opens applications that own nothing.  However calls, polls,
openings and closings of any number of threads are interleaved with the worker of a context, its
protocol is the one that its owner has come to by the events that were shown.  Every session in it
is one that editing leads to, every plan passes its analysis, every rebase under review was prepared
from a session that its owner had then, and the owner is still open, no table outgrows its bound,
and every run is one that execution leads to, as long as the coordinator left what one of its own
runs leaves in each call that the context has made. -/
theorem objects_kept (hrun : (transport text).Run trace registry)
    (hopened : ∀ opened, .context id (.serving opened) ∈ trace → opened.app = {})
    (hentry : registry.entries id = some context)
    (hprotocol : context.worker.protocol = some protocol) :
    ∃ state, (owner text).Run (trace.filterMap (RegistryEvent.shown id)) state ∧
      state.protocol = some protocol ∧
      ∀ texts : CoordinatorText, texts.keys = text.json.text.keys →
        protocol.Kept text.json.text (Owner.Past text (trace.filterMap (RegistryEvent.shown id)))
          (∀ event ∈ hostCalls (trace.filterMap (RegistryEvent.shown id)),
            Coordinated texts event) := by
  obtain ⟨state, howner, -, howned⟩ := owns hrun id
  have hstate : state.protocol = some protocol := (howned context hentry).protocol hprotocol
  refine ⟨state, howner, hstate, fun texts hkeys => ?_⟩
  exact ((accounted hrun hopened howner hkeys fun hcalls => hcalls).holds protocol hstate).kept

/-- **Incidents.**  Whatever is requested from a context, in any order and from any number of
threads: in the calls that the context has made to the host, in their order, every acknowledgement
is for a review that the host gave out before, with the confirmation of that review, and no review
is used twice. -/
theorem incidents_accounted (hrun : (transport text).Run trace registry)
    (hopened : ∀ opened, .context id (.serving opened) ∈ trace → opened.app = {}) :
    ∀ before review confirmation answer after,
      hostCalls (trace.filterMap (RegistryEvent.shown id)) =
        before ++ ⟨.acknowledgeIncident review confirmation, answer⟩ :: after →
      ((review, confirmation) :: (FacadeTrace.ledger before).acknowledged).Subperm
        ((FacadeTrace.ledger before).found.map IncidentReview.challenge) := by
  intro before review confirmation answer after htrace
  obtain ⟨state, howner, -⟩ := owns hrun id
  -- What a coordinator leaves does not matter here, so none is trusted.
  have haccounted : Owner.Accounted text False (trace.filterMap (RegistryEvent.shown id)) state :=
    @accounted _ _ _ _ _ hrun hopened _ howner _ ⟨text.json.text.keys, sampleEncoding, fun _ => ""⟩
      rfl fun hfalse => hfalse.elim
  exact haccounted.granted before _ after htrace

/-! ### The run -/

/-- Only the first context is opened with a protocol that is shown under its handle. -/
theorem work_opened : ∀ opened, .context 1 (.serving opened) ∈ workTrace → opened.app = {} := by
  intro opened hmem
  simp [workTrace, busyTrace, openingTrace, servedTrace, startedTrace, endedTrace] at hmem
  rw [hmem]
  rfl

/-- After its requests and its job the context owns a session, and a rebase that was prepared from
it. -/
theorem objects_kept_worked : ∃ registry session candidate,
    (transport sampleTransport).Run workTrace registry ∧
      registry.entries 1 = some workedContext ∧
      workedContext.worker.protocol = some workExecuted.2.2.1 ∧
      workExecuted.2.2.1.app.sessions.lookup ⟨11#128⟩ = some session ∧
      workExecuted.2.2.1.reviews.lookup 12#128 = some (.rebase ⟨11#128⟩ candidate) ∧
      (∀ texts event, event ∈ hostCalls (workTrace.filterMap (RegistryEvent.shown 1)) →
        Coordinated texts event) ∧
      session.Reachable sampleTransport.json.text ∧
      ∃ source, Owner.Past sampleTransport (workTrace.filterMap (RegistryEvent.shown 1))
          ⟨11#128⟩ source ∧ source.Reachable sampleTransport.json.text ∧
        candidate.Prepared sampleTransport.json.text source := by
  obtain ⟨registry, hrun, hworks⟩ := work_run
  obtain ⟨state, -, -, hkept⟩ := objects_kept hrun work_opened hworks.entry rfl
  have howned := hkept ⟨sampleTransport.json.text.keys, sampleEncoding, fun _ => ""⟩ rfl
  have hsession : (workExecuted.2.2.1.app.sessions.lookup ⟨11#128⟩).isSome = true := by
    decide +kernel
  have hreview : (workExecuted.2.2.1.reviews.lookup 12#128).bind RetainedReview.owner =
      some ⟨11#128⟩ := by
    decide +kernel
  have hcalls : ∀ event ∈ hostCalls (workTrace.filterMap (RegistryEvent.shown 1)),
      event.1.executes = false := by
    decide +kernel
  obtain ⟨session, hsession⟩ := Option.isSome_iff_exists.mp hsession
  obtain ⟨review, hlookup, howner⟩ := Option.bind_eq_some_iff.mp hreview
  cases review with
  | incident candidate => cases howner
  | rebase owner candidate =>
      obtain rfl := Option.some.inj howner
      exact ⟨registry, session, candidate, hrun, hworks.entry, rfl, hsession, hlookup,
        fun texts event hmem => coordinated_of_not_executes (hcalls event hmem),
        howned.sessions _ _ hsession, (howned.rebases _ _ _ hlookup).2⟩

/-- The host has given out one review, which was acknowledged once. -/
theorem incidents_accounted_worked : ∃ registry after,
    (transport sampleTransport).Run workTrace registry ∧
      hostCalls (workTrace.filterMap (RegistryEvent.shown 1)) =
        reviewTrace 11#128 ++ acknowledgeTrace ++ after ∧
      [(markedIncident, 9#128)].Subperm
        ((FacadeTrace.ledger (reviewTrace 11#128)).found.map IncidentReview.challenge) := by
  obtain ⟨registry, hrun, -⟩ := work_run
  exact ⟨registry, workCreated.1 ++ workPrepared.1, hrun, rfl,
    incidents_accounted hrun work_opened (reviewTrace 11#128) markedIncident 9#128 _ 
      (workCreated.1 ++ workPrepared.1) rfl⟩

end Registry

end DisksGraph
