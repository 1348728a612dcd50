import DisksGraph.Transport.Linked
import DisksGraph.Transport.Undisturbed

/-!
# Transport — Calls

What becomes of one call of an exported function.

* `RegistryEvent.asked`, `service`, `reply`: what a trace shows of a call.
* `Concludes`: the outcomes that a call may have, with what served it.
* `Registry.Tracks`: the history of a call fits the place that it has come to.
-/

namespace DisksGraph

open Support (Failure Machine)

/-- A request that a context has served. -/
structure Service (Value : Type) where
  context : Nat
  request : Request
  result : Except (Failure ProtocolError) Value

/-- What the worker sends for a result. -/
def Reply.of {Value : Type} : Except (Failure ProtocolError) Value → Reply Value
  | .ok value => .application (.ok value)
  | .error (.error error) => .application (.error error)
  | .error .panic => .transport .panicked

namespace RegistryEvent

variable {Value : Type}

/-- The call begins. -/
def asked (call : Nat) : RegistryEvent Value → Option Invocation
  | .began other invocation => if other = call then some invocation else none
  | _ => none

/-- The call is served. -/
def service (call : Nat) : RegistryEvent Value → Option (Service Value)
  | .context id (.served other request _ result) =>
      if other = call then some { context := id, request, result } else none
  | _ => none

/-- The call returns. -/
def reply (call : Nat) : RegistryEvent Value → Option (Outcome Value)
  | .returned other outcome => if other = call then some outcome else none
  | _ => none

end RegistryEvent

/-- What a call has returned. -/
def Caller.replied {Value : Type} : Caller Value → List (Outcome Value)
  | .returned outcome => [outcome]
  | _ => []

section Outcomes

variable {Value : Type} (text : TransportJson Value)

/-- How a call ends that opens nothing, with what served it.  The host factory of an opening may
fail with any error. -/
inductive Concludes : Invocation → List (Service Value) → Outcome Value → Prop where
  | unopened {config : String} (error : TransportError) :
      Concludes (.opens config) [] (.error error)
  | refused {id : Nat} {input : String} {outcome : Outcome Value}
      (hlocal : Context.Local text input outcome) : Concludes (.calls id input) [] outcome
  | answered {id : Nat} {input : String} {request : Request}
      (hparse : parseRequest text.library text.decode input = .ok request)
      (hserial : request.isJob = false) (result : Except (Failure ProtocolError) Value) :
      Concludes (.calls id input) [⟨id, request, result⟩] (.ok (.of result))
  | closed (id : Nat) : Concludes (.closes id) [] (.ok (.closed id))
  | absent (id : Nat) : Concludes (.closes id) [] (.error .unknownContext)

/-- How a call ends. -/
inductive Ends : Invocation → List (Service Value) → Outcome Value → Prop where
  | opened (config : String) (id : Nat) (live : Bool) :
      Ends (.opens config) [] (.ok (.context id live))
  | concluded {invocation : Invocation} {services : List (Service Value)}
      {outcome : Outcome Value} (h : Concludes text invocation services outcome) :
      Ends invocation services outcome

variable {text} in
/-- What serves a call tells its outcome. -/
theorem Ends.of_served {invocation : Invocation} {service : Service Value}
    {services : List (Service Value)} {outcome : Outcome Value}
    (h : Ends text invocation (service :: services) outcome) :
    outcome = .ok (.of service.result) := by
  cases h with
  | concluded hconcludes =>
      cases hconcludes
      rfl

/-- What is said to the worker on behalf of a call is its request. -/
def Context.Carries (context : Context Value) (call : Nat) (request : Request) : Prop :=
  (∀ found, Message.call call found ∈ context.queue → found = request) ∧
    ∀ found, context.worker.task = .answering call found → found = request

/-- The history of the call that holds the guard fits its stage. -/
def Stage.Tracks (context : Context Value) (call id : Nat) (invocation : Invocation)
    (services : List (Service Value)) : Stage Value → Prop
  | .awaiting | .registering => services = [] ∧ ∃ config, invocation = .opens config
  | .entered input => services = [] ∧ invocation = .calls id input
  | .allocating plan | .starting plan _ => services = [] ∧ ∃ input, invocation = .calls id input ∧
      parseRequest text.library text.decode input = .ok (.applyStart plan)
  | .forwarding request => services = [] ∧ ∃ input, invocation = .calls id input ∧
      parseRequest text.library text.decode input = .ok request ∧ request.isJob = false
  | .waiting none => services = [] ∧ ∃ input request, invocation = .calls id input ∧
      parseRequest text.library text.decode input = .ok request ∧ request.isJob = false ∧
      context.Carries call request
  | .waiting (some reply) => Concludes text invocation services (.ok reply)
  | .stopping outcome | .joining outcome | .leaving outcome =>
      Concludes text invocation services outcome
  | .unwinding => services = [] ∧ ∃ input, invocation = .calls id input

namespace Registry

/-- The history of a call fits the place that it has come to. -/
def Follows (registry : Registry Value) (call : Nat) (invocation : Invocation)
    (services : List (Service Value)) : Caller Value → Prop
  | .idle => False
  | .opening config => services = [] ∧ invocation = .opens config
  | .reserved _ | .numbered .. => services = [] ∧ ∃ config, invocation = .opens config
  | .looking id input | .found id input => services = [] ∧ invocation = .calls id input
  | .closing id | .removed id => services = [] ∧ invocation = .closes id
  | .inside id => ∃ context stage, registry.entries id = some context ∧
      context.guard = some (call, stage) ∧ stage.Tracks text context call id invocation services
  | .dropping _ outcome => Concludes text invocation services outcome
  | .returning outcome | .returned outcome => Ends text invocation services outcome

/-- What the trace shows of a call. -/
structure Tracks (trace : List (RegistryEvent Value)) (registry : Registry Value) (call : Nat) :
    Prop where
  idle : registry.calls call = .idle →
    trace.filterMap (RegistryEvent.asked call) = [] ∧
      trace.filterMap (RegistryEvent.service call) = []
  busy : registry.calls call ≠ .idle → ∃ invocation,
    trace.filterMap (RegistryEvent.asked call) = [invocation] ∧
      registry.Follows text call invocation (trace.filterMap (RegistryEvent.service call))
        (registry.calls call)
  replied : trace.filterMap (RegistryEvent.reply call) = (registry.calls call).replied

end Registry

end Outcomes

section Steps

variable {Value : Type} {text : TransportJson Value} {context context' : Context Value}
  {event : ContextEvent Value} {call caller id : Nat} {stage : Stage Value}
  {invocation : Invocation} {services : List (Service Value)}

/-- A step of the call that holds the guard fits its history. -/
theorem GuardStep.tracks (hstep : GuardStep text call context event context')
    (hsound : context.Sound) (hguard : context.guard = some (call, stage))
    (h : stage.Tracks text context call id invocation services) :
    ∃ stage', context'.guard = some (call, stage') ∧
      stage'.Tracks text context' call id invocation services := by
  cases hstep with
  | ready hother =>
      obtain rfl := (Prod.mk.inj (Option.some.inj (hguard.symm.trans hother))).2
      exact ⟨_, rfl, h⟩
  | refused hother hready =>
      obtain rfl := (Prod.mk.inj (Option.some.inj (hguard.symm.trans hother))).2
      obtain ⟨rfl, config, rfl⟩ := h
      exact ⟨_, rfl, .unopened _⟩
  | unready hother =>
      obtain rfl := (Prod.mk.inj (Option.some.inj (hguard.symm.trans hother))).2
      obtain ⟨rfl, config, rfl⟩ := h
      exact ⟨_, rfl, .unopened _⟩
  | @enter input hother =>
      obtain rfl := (Prod.mk.inj (Option.some.inj (hguard.symm.trans hother))).2
      obtain ⟨rfl, rfl⟩ := h
      refine ⟨_, rfl, ?_⟩
      have henters := Context.enters text context input
      generalize context.enter text input = entered at henters ⊢
      cases henters with
      | leaves hlocal => exact .refused hlocal
      | polls hjob hlocal => exact .refused hlocal
      | unwinds hjob => exact ⟨rfl, input, rfl⟩
      | releases hjob hfinished hlocal => exact .refused hlocal
      | allocates hjob hjoined hparse => exact ⟨rfl, input, rfl, hparse⟩
      | forwards hjob hjoined hparse hserial => exact ⟨rfl, input, rfl, hparse, hserial⟩
  | start hother =>
      obtain rfl := (Prod.mk.inj (Option.some.inj (hguard.symm.trans hother))).2
      obtain ⟨rfl, input, rfl, hparse⟩ := h
      exact ⟨_, rfl, .refused ⟨_, hparse⟩⟩
  | startFails hother =>
      obtain rfl := (Prod.mk.inj (Option.some.inj (hguard.symm.trans hother))).2
      obtain ⟨rfl, input, rfl, hparse⟩ := h
      exact ⟨_, rfl, .refused rfl⟩
  | send hother =>
      obtain rfl := (Prod.mk.inj (Option.some.inj (hguard.symm.trans hother))).2
      obtain ⟨rfl, input, rfl, hparse, hserial⟩ := h
      refine ⟨_, rfl, rfl, input, _, rfl, hparse, hserial, ?_, ?_⟩
      · intro found hfound
        cases List.mem_singleton.mp hfound
        rfl
      -- The worker answers only a call that waits already.
      · intro found htask
        have hwaits := (hsound.flight.answered htask).2
        rw [hguard] at hwaits
        cases hwaits
  | sendFails hother =>
      obtain rfl := (Prod.mk.inj (Option.some.inj (hguard.symm.trans hother))).2
      obtain ⟨rfl, input, rfl, hparse⟩ := h
      exact ⟨_, rfl, .refused rfl⟩
  | receive hother =>
      obtain rfl := (Prod.mk.inj (Option.some.inj (hguard.symm.trans hother))).2
      exact ⟨_, rfl, h⟩
  | hungUp hother =>
      obtain rfl := (Prod.mk.inj (Option.some.inj (hguard.symm.trans hother))).2
      obtain ⟨rfl, input, request, rfl, -⟩ := h
      exact ⟨_, rfl, .refused rfl⟩
  | stop hother =>
      obtain rfl := (Prod.mk.inj (Option.some.inj (hguard.symm.trans hother))).2
      exact ⟨_, rfl, h⟩
  | stopFails hother =>
      obtain rfl := (Prod.mk.inj (Option.some.inj (hguard.symm.trans hother))).2
      exact ⟨_, rfl, h⟩
  | join hother =>
      obtain rfl := (Prod.mk.inj (Option.some.inj (hguard.symm.trans hother))).2
      exact ⟨_, rfl, h⟩

/-- A step that keeps what is carried and the stage. -/
theorem Stage.Tracks.carry (h : stage.Tracks text context call id invocation services)
    (hcarries : ∀ request, context.Carries call request → context'.Carries call request) :
    stage.Tracks text context' call id invocation services := by
  cases stage with
  | waiting response =>
      cases response with
      | none =>
          obtain ⟨hservices, input, request, hinvocation, hparse, hserial, hrequest⟩ := h
          exact ⟨hservices, input, request, hinvocation, hparse, hserial, hcarries _ hrequest⟩
      | some reply => exact h
  | _ => exact h

/-- A step of the worker fits the history of the call that holds the guard. -/
theorem WorkerStep.tracks (hstep : WorkerStep text context event context')
    (hsound : context.Sound) (hguard : context.guard = some (call, stage))
    (h : stage.Tracks text context call id invocation services) :
    ∃ stage', context'.guard = some (call, stage') ∧
      stage'.Tracks text context' call id invocation
        (services ++ ((RegistryEvent.context id event).service call).toList) := by
  have hquiet (hsame : context'.guard = context.guard)
      (hcarries : ∀ request, context.Carries call request → context'.Carries call request)
      (hservice : (RegistryEvent.context id event).service call = none) :
      ∃ stage', context'.guard = some (call, stage') ∧
        stage'.Tracks text context' call id invocation
          (services ++ ((RegistryEvent.context id event).service call).toList) := by
    rw [hservice, Option.toList_none, List.append_nil]
    exact ⟨stage, hsame.trans hguard, h.carry hcarries⟩
  cases hstep with
  | serve hworker =>
      refine hquiet rfl ?_ rfl
      exact fun request hcarries => ⟨hcarries.1, fun found htask => by simp [Worker.task] at htask⟩
  | fail hworker =>
      refine hquiet rfl ?_ rfl
      exact fun request hcarries => ⟨by simp, fun found htask => by simp [Worker.task] at htask⟩
  | takeCall hworker hqueue =>
      refine hquiet rfl (fun request hcarries => ⟨?_, ?_⟩) rfl
      · exact fun found hfound => hcarries.1 found (hqueue ▸ List.mem_cons_of_mem _ hfound)
      · intro found htask
        simp only [Worker.task] at htask
        cases htask
        exact hcarries.1 _ (hqueue ▸ List.mem_cons_self)
  | @answer protocol after caller request calls result value hworker hrun hvalue =>
      have htask : context.worker.task = .answering caller request := by rw [hworker]; rfl
      have hwaits := (hsound.flight.answered htask).2
      obtain ⟨rfl, rfl⟩ := Prod.mk.inj (Option.some.inj (hguard.symm.trans hwaits))
      obtain ⟨rfl, input, found, rfl, hparse, hserial, hcarries⟩ := h
      obtain rfl := hcarries.2 _ htask
      rw [Context.respond_eq hguard]
      refine ⟨_, rfl, ?_⟩
      have hreply : .application value = Reply.of result := by
        cases result with
        | ok result => cases hvalue; rfl
        | error failure =>
            cases failure with
            | error error => cases hvalue; rfl
            | panic => cases hvalue
      simp only [RegistryEvent.service, if_true, Option.toList_some, List.nil_append, hreply]
      exact .answered hparse hserial result
  | @panic protocol after caller request calls hworker hrun =>
      have htask : context.worker.task = .answering caller request := by rw [hworker]; rfl
      have hwaits := (hsound.flight.answered htask).2
      obtain ⟨rfl, rfl⟩ := Prod.mk.inj (Option.some.inj (hguard.symm.trans hwaits))
      obtain ⟨rfl, input, found, rfl, hparse, hserial, hcarries⟩ := h
      obtain rfl := hcarries.2 _ htask
      rw [Context.respond_eq hguard]
      refine ⟨_, rfl, ?_⟩
      simp only [RegistryEvent.service, if_true, Option.toList_some, List.nil_append]
      exact .answered hparse hserial (.error .panic)
  | takeApply hworker hqueue =>
      refine hquiet rfl (fun request hcarries => ⟨?_, fun found htask => ?_⟩) rfl
      · exact fun found hfound => hcarries.1 found (hqueue ▸ List.mem_cons_of_mem _ hfound)
      · simp [Worker.task] at htask
  | publish hworker => exact hquiet rfl (fun request hcarries => hcarries) rfl
  | takeStop hworker hqueue =>
      refine hquiet rfl (fun request hcarries => ⟨?_, fun found htask => ?_⟩) rfl
      · exact fun found hfound => hcarries.1 found (hqueue ▸ List.mem_cons_of_mem _ hfound)
      · simp [Worker.task] at htask
  | drop hworker =>
      refine hquiet rfl ?_ rfl
      exact fun request hcarries => ⟨by simp, fun found htask => by simp [Worker.task] at htask⟩
  | _ =>
      refine hquiet rfl ?_ rfl
      exact fun request hcarries => ⟨hcarries.1, fun found htask => by
        simp [Worker.task, Context.updateJob] at htask⟩

/-- Only the call that holds the guard is served. -/
theorem WorkerStep.served (hstep : WorkerStep text context event context')
    (hsound : context.Sound) (hother : context.holder ≠ some call) :
    (RegistryEvent.context id event).service call = none := by
  cases hstep with
  | @answer protocol after caller request calls result value hworker =>
      have hwaits := (hsound.flight.answered (by rw [hworker]; rfl)).2
      refine if_neg fun hsame => hother ?_
      rw [Context.holder, hwaits, Option.map_some, hsame]
  | @panic protocol after caller request calls hworker =>
      have hwaits := (hsound.flight.answered (by rw [hworker]; rfl)).2
      refine if_neg fun hsame => hother ?_
      rw [Context.holder, hwaits, Option.map_some, hsame]
  | _ => rfl

/-- The call that holds the guard is not served by its own step. -/
theorem GuardStep.served (hstep : GuardStep text call context event context') :
    (RegistryEvent.context id event).service caller = none := by
  cases hstep <;> rfl

end Steps

namespace Registry

variable {Value : Type} {text : TransportJson Value} {registry registry' : Registry Value}
  {event : RegistryEvent Value} {call id : Nat} {trace : List (RegistryEvent Value)}

/-- The history of a call that holds the guard fits the stage that it has come to. -/
theorem Follows.stage {caller : Nat} {context : Context Value} {stage : Stage Value}
    {invocation : Invocation} {services : List (Service Value)}
    (h : registry.Follows text caller invocation services (.inside id))
    (hentry : registry.entries id = some context) (hguard : context.guard = some (caller, stage)) :
    stage.Tracks text context caller id invocation services := by
  obtain ⟨found, foundStage, hfound, hfoundGuard, htracks⟩ := h
  obtain rfl := Option.some.inj (hentry.symm.trans hfound)
  obtain ⟨-, rfl⟩ := Prod.mk.inj (Option.some.inj (hguard.symm.trans hfoundGuard))
  exact htracks

namespace Tracks

/-- What another call does. -/
theorem frame (h : registry.Tracks text trace call)
    (hcalls : registry'.calls call = registry.calls call)
    (hentries : ∀ id, registry.calls call = .inside id → registry'.entries id = registry.entries id)
    (hasked : event.asked call = none) (hservice : event.service call = none)
    (hreply : event.reply call = none) : registry'.Tracks text (trace ++ [event]) call := by
  refine ⟨?_, ?_, ?_⟩
  · simpa [Machine.filterMap_snoc, hasked, hservice, hcalls] using h.idle
  · intro hbusy
    obtain ⟨invocation, hbegan, hfollows⟩ := h.busy (hcalls ▸ hbusy)
    refine ⟨invocation, by simpa [Machine.filterMap_snoc, hasked] using hbegan, ?_⟩
    rw [Machine.filterMap_snoc, hservice, Option.toList_none, List.append_nil, hcalls]
    cases hcaller : registry.calls call with
    | inside id =>
        rw [hcaller] at hfollows
        obtain ⟨context, stage, hentry, hguard, hstage⟩ := hfollows
        exact ⟨context, stage, (hentries id hcaller).trans hentry, hguard, hstage⟩
    | _ =>
        rw [hcaller] at hfollows
        exact hfollows
  · simpa [Machine.filterMap_snoc, hreply, hcalls] using h.replied

/-- What the call does itself: its services and replies grow with what the step shows of it. -/
theorem own (h : registry.Tracks text trace call) (hbusy : registry.calls call ≠ .idle)
    (hasked : event.asked call = none)
    (hfollows : ∀ invocation services,
      registry.Follows text call invocation services (registry.calls call) →
        registry'.Follows text call invocation (services ++ (event.service call).toList)
          (registry'.calls call))
    (hreplied : (registry'.calls call).replied =
      (registry.calls call).replied ++ (event.reply call).toList) :
    registry'.Tracks text (trace ++ [event]) call := by
  obtain ⟨invocation, hbegan, hbefore⟩ := h.busy hbusy
  have hafter := hfollows _ _ hbefore
  refine ⟨fun hidle => ?_, fun _ => ⟨invocation, ?_, ?_⟩, ?_⟩
  · rw [hidle] at hafter
    exact hafter.elim
  · simpa [Machine.filterMap_snoc, hasked] using hbegan
  · rwa [Machine.filterMap_snoc]
  · rw [Machine.filterMap_snoc, h.replied, hreplied]

/-- A call moves to its next place, and nobody sees it. -/
theorem moves {caller : Nat} {before next : Caller Value} (h : registry.Tracks text trace call)
    (hcall : registry.calls caller = before)
    (hcalls : registry'.calls = Function.update registry.calls caller next)
    (hentries : ∀ other, other ≠ caller → ∀ id, registry.calls other = .inside id →
      registry'.entries id = registry.entries id)
    (hbusy : before ≠ .idle) (hreplied : next.replied = before.replied)
    (hfollows : ∀ invocation services,
      registry.Follows text caller invocation services before →
        registry'.Follows text caller invocation services next) :
    registry'.Tracks text (trace ++ [.internal]) call := by
  subst hcall
  by_cases hsame : call = caller
  · obtain rfl := hsame
    have hnext : registry'.calls call = next := by rw [hcalls, Function.update_self]
    refine h.own hbusy rfl (fun invocation services hbefore => ?_) ?_
    · rw [hnext]
      simpa [RegistryEvent.service] using hfollows invocation services hbefore
    · rw [hnext, hreplied]
      exact (List.append_nil _).symm
  · exact h.frame (by rw [hcalls, Function.update_of_ne hsame]) (hentries call hsame) rfl rfl rfl

/-- A call that holds the guard moves to its next stage, and nobody sees it. -/
theorem stays {caller : Nat} {context context' : Context Value} {stage stage' : Stage Value}
    (h : registry.Tracks text trace call) (hlinked : registry.Linked)
    (hcalls : registry'.calls = registry.calls)
    (hentries : registry'.entries = Function.update registry.entries id (some context'))
    (hasked : event.asked call = none) (hservice : event.service call = none)
    (hreply : event.reply call = none) (hcall : registry.calls caller = .inside id)
    (hentry : registry.entries id = some context) (hguard : context.guard = some (caller, stage))
    (hguard' : context'.guard = some (caller, stage'))
    (hstage : ∀ invocation services, stage.Tracks text context caller id invocation services →
      stage'.Tracks text context' caller id invocation services) :
    registry'.Tracks text (trace ++ [event]) call := by
  by_cases hsame : call = caller
  · obtain rfl := hsame
    refine h.own (by simp [hcall]) hasked ?_ (by simp [hcalls, hreply])
    rw [hcalls, hcall, hservice]
    intro invocation services hfollows
    refine ⟨context', stage', by rw [hentries, Function.update_self], hguard', ?_⟩
    simpa using hstage invocation services (hfollows.stage hentry hguard)
  · refine h.frame (by rw [hcalls]) (fun other hother => ?_) hasked hservice hreply
    rw [hentries, Function.update_of_ne]
    exact hlinked.inside_ne hentry (by simp [Context.holder, hguard, Ne.symm hsame]) hother

/-- A step of the transport fits the history of every call. -/
theorem step (h : registry.Tracks text trace call) (hlinked : registry.Linked)
    (hstep : RegistryStep text registry event registry') :
    registry'.Tracks text (trace ++ [event]) call := by
  cases hstep with
  | @begin caller invocation hcall =>
      by_cases hsame : call = caller
      · obtain rfl := hsame
        obtain ⟨hasked, hserved⟩ := h.idle hcall
        refine ⟨fun hidle => ?_, fun _ => ⟨invocation, ?_, ?_⟩, ?_⟩
        · cases invocation <;> simp [Caller.enter] at hidle
        · simp [hasked, RegistryEvent.asked]
        · simp only [List.filterMap_append, hserved, move_calls, if_true]
          cases invocation <;> exact ⟨rfl, rfl⟩
        · have hreplied := h.replied
          rw [hcall] at hreplied
          simp only [List.filterMap_append, hreplied, move_calls, if_true]
          cases invocation <;> rfl
      · exact h.frame (by simp [hsame]) (fun _ _ => rfl) (if_neg (Ne.symm hsame)) rfl rfl
  | misconfigured hcall =>
      refine h.moves hcall rfl (fun _ _ _ _ => rfl) (by simp) rfl ?_
      rintro invocation services ⟨rfl, rfl⟩
      exact .concluded (.unopened _)
  | reserve hcall =>
      refine h.moves hcall rfl (fun _ _ _ _ => rfl) (by simp) rfl ?_
      rintro invocation services ⟨rfl, rfl⟩
      exact ⟨rfl, _, rfl⟩
  | full hcall =>
      refine h.moves hcall rfl (fun _ _ _ _ => rfl) (by simp) rfl ?_
      rintro invocation services ⟨rfl, rfl⟩
      exact .concluded (.unopened _)
  | number hcall =>
      refine h.moves hcall rfl (fun _ _ _ _ => rfl) (by simp) rfl ?_
      exact fun _ _ hopens => hopens
  | exhausted hcall =>
      refine h.moves hcall rfl (fun _ _ _ _ => rfl) (by simp) rfl ?_
      rintro invocation services ⟨rfl, config, rfl⟩
      exact .concluded (.unopened _)
  | @spawn caller id live hcall =>
      refine h.moves hcall rfl (fun other hother found hinside => ?_) (by simp) rfl ?_
      · refine Function.update_of_ne ?_ ..
        rintro rfl
        exact hlinked.refers other found (by rw [hinside]; rfl) (hlinked.drawn _ _ _ hcall).2
      · exact fun _ _ hopens => ⟨_, .awaiting, Function.update_self .., rfl, hopens⟩
  | spawnFails message hcall =>
      refine h.moves hcall rfl (fun _ _ _ _ => rfl) (by simp) rfl ?_
      rintro invocation services ⟨rfl, config, rfl⟩
      exact .concluded (.unopened _)
  | tooLarge hcall =>
      refine h.moves hcall rfl (fun _ _ _ _ => rfl) (by simp) rfl ?_
      rintro invocation services ⟨rfl, rfl⟩
      exact .concluded (.refused rfl)
  | find hcall =>
      refine h.moves hcall rfl (fun _ _ _ _ => rfl) (by simp) rfl ?_
      exact fun _ _ hcalls => hcalls
  | unknown hcall =>
      refine h.moves hcall rfl (fun _ _ _ _ => rfl) (by simp) rfl ?_
      rintro invocation services ⟨rfl, rfl⟩
      exact .concluded (.refused rfl)
  | tryLock hcall hentry hguard =>
      refine h.moves hcall rfl (fun other _ found hinside => ?_) (by simp) rfl ?_
      · exact Function.update_of_ne
          (hlinked.inside_ne hentry (by simp [Context.holder, hguard]) hinside) ..
      · exact fun _ _ hcalls => ⟨_, .entered _, Function.update_self .., rfl, hcalls⟩
  | busy hcall =>
      refine h.moves hcall rfl (fun _ _ _ _ => rfl) (by simp) rfl ?_
      rintro invocation services ⟨rfl, rfl⟩
      exact .refused rfl
  | poisoned hcall =>
      refine h.moves hcall rfl (fun _ _ _ _ => rfl) (by simp) rfl ?_
      rintro invocation services ⟨rfl, rfl⟩
      exact .refused rfl
  | remove hcall =>
      refine h.moves hcall rfl (fun _ _ _ _ => rfl) (by simp) rfl ?_
      exact fun _ _ hcloses => hcloses
  | absent hcall =>
      refine h.moves hcall rfl (fun _ _ _ _ => rfl) (by simp) rfl ?_
      rintro invocation services ⟨rfl, rfl⟩
      exact .concluded (.absent _)
  | @lock caller id context hcall hentry hguard =>
      refine h.moves hcall rfl (fun other _ found hinside => ?_) (by simp) rfl ?_
      · exact Function.update_of_ne
          (hlinked.inside_ne hentry (by simp [Context.holder, hguard]) hinside) ..
      · rintro invocation services ⟨rfl, rfl⟩
        refine ⟨_, _, Function.update_self .., rfl, ?_⟩
        split
        · exact .closed id
        · exact .closed id
  | @guard caller id context context' event hcall hentry hguarded =>
      obtain ⟨⟨_, stage⟩, hguard, rfl⟩ := Option.map_eq_some_iff.mp hguarded.holder
      have hsound := hlinked.entries id context hentry
      obtain ⟨⟨_, stage'⟩, hguard', rfl⟩ :=
        Option.map_eq_some_iff.mp (hguarded.keeps.holder.trans hguarded.holder)
      refine h.stays hlinked rfl rfl rfl hguarded.served rfl hcall hentry hguard hguard' ?_
      intro invocation services htracks
      obtain ⟨found, hfound, hafter⟩ := hguarded.tracks hsound hguard htracks
      obtain ⟨-, rfl⟩ := Prod.mk.inj (Option.some.inj (hguard'.symm.trans hfound))
      exact hafter
  | allocate hcall hentry hguard =>
      exact h.stays hlinked rfl rfl rfl rfl rfl hcall hentry hguard rfl fun _ _ hcalls => hcalls
  | allocateFails hcall hentry hguard hjob =>
      refine h.stays hlinked rfl rfl rfl rfl rfl hcall hentry hguard rfl ?_
      rintro invocation services ⟨rfl, input, rfl, hparse⟩
      exact .refused (Context.new_refuses hjob)
  | @register caller id context hcall hentry hguard =>
      refine h.moves hcall rfl (fun other hother found hinside => ?_) (by simp) rfl ?_
      · exact Function.update_of_ne
          (hlinked.inside_ne hentry (by simp [Context.holder, hguard, Ne.symm hother]) hinside) ..
      · intro invocation services hfollows
        obtain ⟨rfl, config, rfl⟩ := hfollows.stage hentry hguard
        exact .opened config id _
  | release hcall hentry hguard =>
      refine h.moves hcall rfl (fun other hother found hinside => ?_) (by simp) rfl ?_
      · exact Function.update_of_ne
          (hlinked.inside_ne hentry (by simp [Context.holder, hguard, Ne.symm hother]) hinside) ..
      · exact fun _ _ hfollows => hfollows.stage hentry hguard
  | unwind hcall hentry hguard =>
      refine h.moves hcall rfl (fun other hother found hinside => ?_) (by simp) rfl ?_
      · exact Function.update_of_ne
          (hlinked.inside_ne hentry (by simp [Context.holder, hguard, Ne.symm hother]) hinside) ..
      · intro invocation services hfollows
        obtain ⟨rfl, input, rfl⟩ := hfollows.stage hentry hguard
        exact .refused rfl
  | drop hcall =>
      refine h.moves hcall rfl (fun _ _ _ _ => rfl) (by simp) rfl ?_
      exact fun _ _ hconcludes => .concluded hconcludes
  | @free caller id outcome context hcall hlast hentry =>
      have hguard := hlinked.unguarded hcall hlast hentry
      refine h.moves hcall rfl (fun other _ found hinside => ?_) (by simp) rfl ?_
      · exact Function.update_of_ne
          (hlinked.inside_ne hentry (by simp [Context.holder, hguard]) hinside) ..
      · exact fun _ _ hconcludes => .concluded hconcludes
  | @shutdown caller id outcome context hcall hlast hentry =>
      have hguard := hlinked.unguarded hcall hlast hentry
      refine h.moves hcall rfl (fun other _ found hinside => ?_) (by simp) rfl ?_
      · exact Function.update_of_ne
          (hlinked.inside_ne hentry (by simp [Context.holder, hguard]) hinside) ..
      · exact fun _ _ hconcludes => ⟨_, _, Function.update_self .., rfl, hconcludes⟩
  | @work id context context' event hentry hworked =>
      by_cases hinside : registry.calls call = .inside id
      · refine h.own (by simp [hinside]) rfl ?_ (by simp [RegistryEvent.reply])
        rw [store_calls, hinside]
        rintro invocation services ⟨found, stage, hfound, hguard, htracks⟩
        obtain rfl := Option.some.inj (hentry.symm.trans hfound)
        obtain ⟨stage', hguard', hafter⟩ :=
          hworked.tracks (hlinked.entries id context hentry) hguard htracks
        exact ⟨context', stage', Function.update_self .., hguard', hafter⟩
      · have hother : context.holder ≠ some call := fun hheld =>
          hinside ((hlinked.holder id context call hentry).mp hheld)
        exact h.frame rfl
          (fun found hfound =>
            Function.update_of_ne (hlinked.inside_ne hentry hother hfound) ..) rfl
          (hworked.served (hlinked.entries id context hentry) hother) rfl
  | @deliver caller outcome hcall =>
      by_cases hsame : call = caller
      · obtain rfl := hsame
        have hcalls : (registry.move call (.returned outcome)).calls call = .returned outcome :=
          Function.update_self ..
        refine h.own (by simp [hcall]) rfl ?_ (by simp [hcall, RegistryEvent.reply, Caller.replied])
        rw [hcalls, hcall]
        intro invocation services hends
        simp only [RegistryEvent.service, Option.toList_none, List.append_nil]
        exact hends
      · exact h.frame (by simp [hsame]) (fun _ _ => rfl) rfl rfl (if_neg (Ne.symm hsame))

end Tracks

/-- Every run fits the history of every call. -/
theorem tracks (hrun : (transport text).Run trace registry) (call : Nat) :
    registry.Tracks text trace call := by
  refine Machine.Run.recorded (I := fun trace registry => registry.Tracks text trace call)
    ?_ ?_ hrun
  · rintro _ rfl
    exact ⟨fun _ => ⟨rfl, rfl⟩, fun hbusy => absurd rfl hbusy, rfl⟩
  · exact fun _ _ _ _ hrun h hstep => h.step (linked hrun) hstep

/-- A call that has returned does nothing more. -/
theorem returned_step {outcome : Outcome Value} (hlinked : registry.Linked)
    (hcall : registry.calls call = .returned outcome)
    (hstep : RegistryStep text registry event registry') :
    (event.asked call = none ∧ event.service call = none ∧ event.reply call = none) ∧
      registry'.calls call = .returned outcome := by
  have hmoved {caller : Nat} {next : Caller Value}
    (hother : registry.calls caller ≠ .returned outcome)
      (hcalls : registry'.calls = Function.update registry.calls caller next) :
      registry'.calls call = .returned outcome := by
    rw [hcalls, Function.update_of_ne, hcall]
    rintro rfl
    exact hother hcall
  cases hstep with
  | @begin caller invocation hidle =>
      refine ⟨⟨if_neg ?_, rfl, rfl⟩, hmoved (by simp [hidle]) rfl⟩
      rintro rfl
      simp [hidle] at hcall
  | guard hinside hentry hguarded => exact ⟨⟨rfl, hguarded.served, rfl⟩, hcall⟩
  | @work id context context' event hentry hworked =>
      have hother : context.holder ≠ some call := fun hheld => by
        simp [(hlinked.holder id context call hentry).mp hheld] at hcall
      exact ⟨⟨rfl, hworked.served (hlinked.entries id context hentry) hother, rfl⟩, hcall⟩
  | @deliver caller found hreturning =>
      refine ⟨⟨rfl, rfl, if_neg ?_⟩, hmoved (by simp [hreturning]) rfl⟩
      rintro rfl
      simp [hreturning] at hcall
  | allocate => exact ⟨⟨rfl, rfl, rfl⟩, hcall⟩
  | allocateFails => exact ⟨⟨rfl, rfl, rfl⟩, hcall⟩
  | _ => exact ⟨⟨rfl, rfl, rfl⟩, hmoved (by simp [*]) rfl⟩

/-- A call is served at most once. -/
theorem Follows.services_length {invocation : Invocation} {services : List (Service Value)}
    {caller : Caller Value} (h : registry.Follows text call invocation services caller) :
    services.length ≤ 1 := by
  have hconcludes {outcome : Outcome Value} (h : Concludes text invocation services outcome) :
      services.length ≤ 1 := by
    cases h <;> simp
  cases caller with
  | idle => exact h.elim
  | inside id =>
      obtain ⟨context, stage, hentry, hguard, hstage⟩ := h
      cases stage with
      | stopping outcome => exact hconcludes hstage
      | joining outcome => exact hconcludes hstage
      | leaving outcome => exact hconcludes hstage
      | waiting response =>
          cases response with
          | none => simp [hstage.1]
          | some reply => exact hconcludes hstage
      | _ => simp [hstage.1]
  | dropping id outcome => exact hconcludes h
  | returning outcome =>
      cases h with
      | opened => simp
      | concluded h => exact hconcludes h
  | returned outcome =>
      cases h with
      | opened => simp
      | concluded h => exact hconcludes h
  | _ => simp [h.1]

/-- What a return tells about the steps before it and after it. -/
theorem of_returned {before after : List (RegistryEvent Value)} {outcome : Outcome Value}
    (hrun : (transport text).Run (before ++ .returned call outcome :: after) registry) :
    (∃ invocation, before.filterMap (RegistryEvent.asked call) = [invocation] ∧
        Ends text invocation (before.filterMap (RegistryEvent.service call)) outcome) ∧
      before.filterMap (RegistryEvent.reply call) = [] ∧
      ∀ event ∈ after, event.asked call = none ∧ event.service call = none ∧
        event.reply call = none := by
  obtain ⟨middle, hbefore, hpath⟩ := hrun.split rfl
  have htracks := tracks hbefore call
  cases hpath with
  | cons hstep hpath =>
      cases hstep with
      | deliver hcall =>
          have hdelivered : RegistryStep text middle (.returned call outcome)
            (middle.move call (.returned outcome)) := .deliver hcall
          have hafter := (linked hbefore).step hdelivered
          refine ⟨?_, by simpa [hcall, Caller.replied] using htracks.replied, ?_⟩
          · have hbusy := htracks.busy
            rw [hcall] at hbusy
            exact hbusy (by simp)
          · refine hpath.shows (I := fun registry =>
              registry.Linked ∧ registry.calls call = .returned outcome) ?_
              ⟨hafter, Function.update_self ..⟩
            rintro s event s' ⟨hlinked, hreturned⟩ hstep
            obtain ⟨hquiet, hstill⟩ := returned_step hlinked hreturned hstep
            exact ⟨hquiet, hlinked.step hstep, hstill⟩

/-- A call that is served waits for the reply to its own request, and nothing has served it yet. -/
theorem served_step {request : Request} {calls : FacadeTrace}
    {result : Except (Failure ProtocolError) Value} (hlinked : registry.Linked)
    (h : registry.Tracks text trace call)
    (hstep : RegistryStep text registry (.context id (.served call request calls result))
      registry') :
    (∃ input, trace.filterMap (RegistryEvent.asked call) = [.calls id input] ∧
        parseRequest text.library text.decode input = .ok request ∧ request.isJob = false) ∧
      trace.filterMap (RegistryEvent.service call) = [] ∧
      trace.filterMap (RegistryEvent.reply call) = [] := by
  have hanswers : ∃ context, registry.entries id = some context ∧
      context.worker.task = .answering call request := by
    cases hstep with
    | guard hcall hentry hguarded => cases hguarded
    | work hentry hworked =>
        cases hworked with
        | answer hworker => exact ⟨_, hentry, by rw [hworker]; rfl⟩
        | panic hworker => exact ⟨_, hentry, by rw [hworker]; rfl⟩
  obtain ⟨context, hentry, htask⟩ := hanswers
  obtain ⟨-, hwaits⟩ := (hlinked.entries id context hentry).flight.answered htask
  have hinside := (hlinked.holder id context call hentry).mp (by
    rw [Context.holder, hwaits, Option.map_some])
  have hreplied := h.replied
  obtain ⟨invocation, hbegan, hfollows⟩ := h.busy (by simp [hinside])
  rw [hinside] at hfollows hreplied
  obtain ⟨hserved, input, asked, rfl, hparse, hserial, hcarries⟩ := hfollows.stage hentry hwaits
  obtain rfl := hcarries.2 request htask
  exact ⟨⟨input, hbegan, hparse, hserial⟩, hserved, hreplied⟩

/-- **A call has one history.**  However the calls and the workers are interleaved, a call that
returns has begun once before, returns once, and nothing happens to it afterwards.  Its outcome is
one that its function has: the reply to its own request where a context has served it, and a refusal
otherwise.  A context serves a request only between the beginning and the return of its call, once,
and its result is what the call returns. -/
theorem calls_served_once (hrun : (transport text).Run trace registry) :
    (∀ before call outcome after, trace = before ++ .returned call outcome :: after →
      (∃ invocation, before.filterMap (RegistryEvent.asked call) = [invocation] ∧
        Ends text invocation (before.filterMap (RegistryEvent.service call)) outcome) ∧
      before.filterMap (RegistryEvent.reply call) = [] ∧
      ∀ event ∈ after, event.asked call = none ∧ event.service call = none ∧
        event.reply call = none) ∧
    (∀ before id call request calls result after,
      trace = before ++ .context id (.served call request calls result) :: after →
      (∃ input, before.filterMap (RegistryEvent.asked call) = [.calls id input] ∧
        parseRequest text.library text.decode input = .ok request ∧ request.isJob = false) ∧
      before.filterMap (RegistryEvent.service call) = [] ∧
      before.filterMap (RegistryEvent.reply call) = [] ∧
      (∀ event ∈ after, event.service call = none) ∧
      ∀ outcome, .returned call outcome ∈ after → outcome = .ok (.of result)) := by
  refine ⟨?_, ?_⟩
  · rintro before call outcome after rfl
    exact of_returned hrun
  · rintro before id call request calls result after rfl
    obtain ⟨middle, hbefore, hpath⟩ := hrun.split rfl
    cases hpath with
    | cons hstep hpath =>
        obtain ⟨hasked, hserved, hreplied⟩ :=
          served_step (linked hbefore) (tracks hbefore call) hstep
        have hservice : (RegistryEvent.context id
            (.served call request calls result)).service call = some ⟨id, request, result⟩ :=
          if_pos rfl
        refine ⟨hasked, hserved, hreplied, ?_, ?_⟩
        -- What serves the call afterwards would make it served twice.
        · have hall := tracks hrun call
          have hlength :
            ((before ++ .context id (.served call request calls result) :: after).filterMap
              (RegistryEvent.service call)).length ≤ 1 := by
            by_cases hidle : registry.calls call = .idle
            · simp [(hall.idle hidle).2]
            · obtain ⟨invocation, -, hfollows⟩ := hall.busy hidle
              exact hfollows.services_length
          rw [List.filterMap_append, hserved, List.nil_append, List.filterMap_cons_some hservice,
            List.length_cons] at hlength
          exact List.filterMap_eq_nil_iff.mp
            (List.eq_nil_of_length_eq_zero (Nat.le_zero.mp (Nat.le_of_succ_le_succ hlength)))
        · intro outcome hmem
          obtain ⟨middle, last, rfl⟩ := List.append_of_mem hmem
          have hsplit : before ++ .context id (.served call request calls result) ::
              (middle ++ .returned call outcome :: last) =
              (before ++ .context id (.served call request calls result) :: middle) ++
                .returned call outcome :: last := by simp
          rw [hsplit] at hrun
          obtain ⟨⟨invocation, -, hends⟩, -⟩ := of_returned hrun
          rw [List.filterMap_append, hserved, List.nil_append,
            List.filterMap_cons_some hservice] at hends
          exact hends.of_served

/-- The call 1 of the run is served once, and returns what it was served. -/
theorem calls_served_once_reviewed : ∃ before after,
    sampleTrace = before ++
        .context 1 (.served 1 .incidentReview (reviewTrace 11#128) (.ok ())) :: after ∧
      before.filterMap (RegistryEvent.service 1) = [] ∧
      (∀ event ∈ after, event.service 1 = none) ∧
      ∀ outcome, .returned 1 outcome ∈ after → outcome = .ok (.of (.ok ())) := by
  obtain ⟨registry, hrun⟩ := sample_run
  refine ⟨sampleTrace.take 14, sampleTrace.drop 15, rfl, ?_⟩
  obtain ⟨-, hbefore, -, hafter, houtcome⟩ :=
    (calls_served_once hrun).2 (sampleTrace.take 14) _ _ _ _ _ (sampleTrace.drop 15) rfl
  exact ⟨hbefore, hafter, houtcome⟩

end Registry

end DisksGraph
