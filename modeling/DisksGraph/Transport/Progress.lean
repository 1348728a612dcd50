import DisksGraph.Transport.Linked

/-!
# Transport — Progress

Every call returns.

* `WorkerStep.enabled`, `GuardStep.enabled`: a worker that has something to do and a call that holds
  a guard can move, or one of them waits for the other.
* `Registry.enabled`: no reachable state is stuck.
-/

namespace DisksGraph

open Support (Failure Program)

/-- The events of the transport that are no new call and no passive update of a mailbox. -/
def RegistryEvent.advances {Value : Type} : RegistryEvent Value → Bool
  | .began .. | .context _ (.published _) => false
  | _ => true

/-- The transport moves by itself. -/
def Registry.Advances {Value : Type} (text : TransportJson Value)
    (registry registry' : Registry Value) : Prop :=
  ∃ event, RegistryStep text registry event registry' ∧ event.advances = true

section Enabled

variable {Value : Type} {text : TransportJson Value} {context : Context Value} {call : Nat}
  {stage : Stage Value}

/-- Every call of a host may be answered. -/
def anyAnswer : (call : FacadeCall) → call.Answer
  | .newId => (0 : Uuid)
  | .tryReserve => (.ok () : Except String Unit)
  | .probe => (.error .panic : Except (Failure HostError) ProbedObservation)
  | .operationAvailability .. => (none : Option OperationAvailability)
  | .backendFor _ => (none : Option BackendId)
  | .tryLockHost => (.error .panic : Except (Failure LeaseError) Unit)
  | .releaseLock => ()
  | .inspectMarker => (.error .panic : Except (Failure CheckpointError) (Option ActiveAttempt))
  | .tryCloneRoot => (.error .panic : Except (Failure LeaseError) Unit)
  | .executeRun run =>
      ((.error .panic, run) : Except (Failure CoordinatorError) ExecutionSummary × ExecutionRun)
  | .inspectIncident => (.error .panic : Except (Failure IncidentError) (Option IncidentInspection))
  | .reviewIncident => (.error .panic : Except (Failure IncidentError) (Option IncidentReview))
  | .acknowledgeIncident .. => (.error .panic : Except (Failure IncidentError) IncidentInspection)

/-- A worker that waits for a message, or has exited. -/
def Context.Waits (context : Context Value) : Prop :=
  (∃ protocol, context.worker = .receiving protocol ∧ context.queue = []) ∨ context.worker = .exited

variable (text) in
/-- A worker that has something to do can do it. -/
theorem Context.worker_enabled (h : ¬context.Waits) : ∃ event context',
    WorkerStep text context event context' ∧ (RegistryEvent.context 0 event).advances = true := by
  cases hworker : context.worker with
  | initializing => exact ⟨_, _, @WorkerStep.fail _ _ _ none hworker, rfl⟩
  | receiving protocol =>
      cases hqueue : context.queue with
      | nil => exact absurd (.inl ⟨protocol, hworker, hqueue⟩) h
      | cons message rest =>
          cases message with
          | call caller request => exact ⟨_, _, .takeCall hworker hqueue, rfl⟩
          | apply plan job => exact ⟨_, _, .takeApply hworker hqueue, rfl⟩
          | stop => exact ⟨_, _, .takeStop hworker hqueue, rfl⟩
  | answering protocol caller request =>
      have hrun := Program.runs_respond anyAnswer
        ((ProtocolM.callWithPolicy text.json request).start protocol)
      generalize (((ProtocolM.callWithPolicy text.json request).start protocol).respond
        anyAnswer).2 = last at hrun
      obtain ⟨result, after⟩ := last
      match result with
      | .ok value => exact ⟨_, _, .answer hworker hrun rfl, rfl⟩
      | .error (.error error) => exact ⟨_, _, .answer hworker hrun rfl, rfl⟩
      | .error .panic => exact ⟨_, _, .panic hworker hrun, rfl⟩
  | applying protocol plan job =>
      exact ⟨_, _, .conclude hworker (Program.runs_respond anyAnswer _), rfl⟩
  | concluding protocol job updates result =>
      cases updates with
      | cons update rest => exact ⟨_, _, .publishLast hworker, rfl⟩
      | nil =>
          by_cases hpanic : result = .error .panic
          · obtain rfl := hpanic
            exact ⟨_, _, .finishPanicked hworker, rfl⟩
          · exact ⟨_, _, .finish hworker hpanic, rfl⟩
  | leaving => exact ⟨_, _, .drop hworker, rfl⟩
  | ending => exact ⟨_, _, .exit hworker, rfl⟩
  | exited => exact absurd (.inr hworker) h

/-- A stage that the registry ends. -/
def Stage.Leaves : Stage Value → Prop
  | .registering | .allocating _ | .leaving _ | .unwinding => True
  | _ => False

/-- Nothing is pending beside a stage that does not wait, unless the worker is to take it. -/
theorem Context.Sound.pending (h : context.Sound) (hguard : context.guard = some (call, stage))
    (hfree : context.Frees call stage) :
    context.queue = [] ∨ ¬context.Waits := by
  cases h.flight.apart (not_bears hguard hfree) with
  | idle htask hqueue =>
      rcases hqueue with hqueue | ⟨plan, job, hqueue, hretains⟩
      · exact .inl hqueue
      · refine .inr ?_
        rintro (⟨protocol, -, hempty⟩ | hexited)
        · simp [hempty] at hqueue
        · simp [hexited, Worker.task] at htask
  | executing htask hretains hqueue => exact .inl hqueue
  | gone htask hqueue => exact .inl hqueue

variable (text) in
/-- A call that holds the guard can move, or its worker can, or the registry ends its stage. -/
theorem Context.Sound.enabled (h : context.Sound) (hguard : context.guard = some (call, stage)) :
    (∃ event context', GuardStep text call context event context') ∨ ¬context.Waits ∨
      stage.Leaves := by
  have htold := h.stage call stage hguard
  cases stage with
  | awaiting =>
      obtain ⟨hfresh, ⟨hworker, -⟩ | ⟨-, hready⟩ | ⟨hgone, hready⟩⟩ := htold
      · refine .inr (.inl ?_)
        rintro (⟨protocol, hother, -⟩ | hother)
        · simp [hworker] at hother
        · simp [hworker] at hother
      · exact .inl ⟨_, _, .ready hguard hready⟩
      · cases hresult : context.ready with
        | none => exact .inl ⟨_, _, .unready hguard hresult hgone⟩
        | some result =>
            match result with
            | .ok () => exact absurd hresult hready
            | .error error => exact .inl ⟨_, _, .refused hguard hresult⟩
  | registering => exact .inr (.inr trivial)
  | entered input => exact .inl ⟨_, _, .enter hguard⟩
  | allocating plan => exact .inr (.inr trivial)
  | starting plan job =>
      cases hreceives : context.worker.receives with
      | false => exact .inl ⟨_, _, .startFails hguard hreceives⟩
      | true =>
          rcases h.pending hguard trivial with hqueue | hmoves
          · exact .inl ⟨_, _, .start hguard hqueue hreceives⟩
          · exact .inr (.inl hmoves)
  | forwarding request =>
      cases hreceives : context.worker.receives with
      | false => exact .inl ⟨_, _, .sendFails hguard hreceives⟩
      | true =>
          rcases h.pending hguard trivial with hqueue | hmoves
          · exact .inl ⟨_, _, .send hguard hqueue hreceives⟩
          · exact .inr (.inl hmoves)
  | waiting response =>
      cases response with
      | some reply => exact .inl ⟨_, _, .receive hguard⟩
      | none =>
          by_cases hanswers : context.Answers call
          -- Somebody has the sender of the response channel, and has not finished with it.
          · refine .inr (.inl ?_)
            rintro (⟨protocol, hworker, hempty⟩ | hexited)
            · rcases hanswers with ⟨request, hmem⟩ | ⟨other, request, hother⟩
              · simp [hempty] at hmem
              · simp [hworker] at hother
            · have hempty := h.flight.abandoned (by rw [hexited]; rfl)
              rcases hanswers with ⟨request, hmem⟩ | ⟨other, request, hother⟩
              · simp [hempty] at hmem
              · simp [hexited] at hother
          · exact .inl ⟨_, _, .hungUp hguard hanswers⟩
  | stopping outcome =>
      cases hreceives : context.worker.receives with
      | false => exact .inl ⟨_, _, .stopFails hguard hreceives⟩
      | true =>
          rcases h.pending hguard trivial with hqueue | hmoves
          · exact .inl ⟨_, _, .stop hguard hqueue hreceives⟩
          · exact .inr (.inl hmoves)
  | joining outcome =>
      by_cases hexited : context.worker = .exited
      · exact .inl ⟨_, _, .join hguard hexited⟩
      · refine .inr (.inl ?_)
        rintro (⟨protocol, hworker, hempty⟩ | hother)
        · obtain ⟨-, hqueue | hleaving | hgone⟩ := htold
          · simp [hempty] at hqueue
          · simp [hworker] at hleaving
          · simp [hworker, Worker.receives] at hgone
        · exact hexited hother
  | leaving outcome => exact .inr (.inr trivial)
  | unwinding => exact .inr (.inr trivial)

/-- The steps of the call that holds the guard advance. -/
theorem GuardStep.advances {context' : Context Value} {event : ContextEvent Value}
    (h : GuardStep text call context event context') (id : Nat) :
    (RegistryEvent.context id event).advances = true := by
  cases h <;> rfl

end Enabled

namespace Registry

variable {Value : Type} (text : TransportJson Value) {registry : Registry Value} {call id : Nat}

/-- A worker that has something to do moves the transport. -/
theorem advances_work {context : Context Value} (hentry : registry.entries id = some context)
    (h : ¬context.Waits) : ∃ registry', registry.Advances text registry' := by
  obtain ⟨event, context', hstep, hadvances⟩ := Context.worker_enabled text h
  refine ⟨_, _, .work hentry hstep, ?_⟩
  cases event with
  | published job => cases hadvances
  | _ => rfl

/-- The call that holds a guard moves, or its worker does. -/
theorem Linked.advances_inside (h : registry.Linked) {context : Context Value}
    {stage : Stage Value} (hentry : registry.entries id = some context)
    (hguard : context.guard = some (call, stage)) :
    ∃ registry', registry.Advances text registry' := by
  have hinside := (h.holder id context call hentry).mp (by
    rw [Context.holder, hguard, Option.map_some])
  rcases (h.entries id context hentry).enabled text hguard with
    ⟨event, context', hstep⟩ | hmoves | hleaves
  · exact ⟨_, _, .guard hinside hentry hstep, hstep.advances id⟩
  · exact advances_work text hentry hmoves
  · cases stage with
    | registering => exact ⟨_, _, .register hinside hentry hguard, rfl⟩
    | allocating plan =>
        cases hjob : (Job.new registry.nextJob : Except JobError (Job Value × Nat)) with
        | error error => exact ⟨_, _, .allocateFails hinside hentry hguard hjob, rfl⟩
        | ok drawn => exact ⟨_, _, .allocate hinside hentry hguard hjob, rfl⟩
    | leaving outcome => exact ⟨_, _, .release hinside hentry hguard, rfl⟩
    | unwinding => exact ⟨_, _, .unwind hinside hentry hguard, rfl⟩
    | _ => exact hleaves.elim

/-- No call is stuck. -/
theorem Linked.advances (h : registry.Linked) (hidle : registry.calls call ≠ .idle)
    (hreturned : ∀ outcome, registry.calls call ≠ .returned outcome) :
    ∃ registry', registry.Advances text registry' := by
  have hentry {id : Nat} (hrefers : (registry.calls call).refers = some id) :
      ∃ context, registry.entries id = some context :=
    Option.ne_none_iff_exists'.mp (h.refers call id hrefers)
  cases hcall : registry.calls call with
  | idle => exact absurd hcall hidle
  | opening input =>
      cases hconfig : Config.read text.library input with
      | error error => exact ⟨_, _, .misconfigured hcall hconfig, rfl⟩
      | ok config =>
          by_cases hslots : registry.slots < MAX_CONTEXTS
          · exact ⟨_, _, .reserve hcall hconfig hslots, rfl⟩
          · exact ⟨_, _, .full hcall hconfig hslots, rfl⟩
  | reserved live =>
      cases hnext : checkedAdd registry.nextContext 1 with
      | none => exact ⟨_, _, .exhausted hcall hnext, rfl⟩
      | some next => exact ⟨_, _, .number hcall hnext, rfl⟩
  | numbered id live => exact ⟨_, _, .spawn hcall, rfl⟩
  | looking id input =>
      by_cases hlarge : MAX_REQUEST_BYTES < input.utf8ByteSize
      · exact ⟨_, _, .tooLarge hcall hlarge, rfl⟩
      · by_cases hmem : id ∈ registry.contexts
        · exact ⟨_, _, .find hcall hlarge hmem, rfl⟩
        · exact ⟨_, _, .unknown hcall hlarge hmem, rfl⟩
  | found id input =>
      obtain ⟨context, hentry⟩ := hentry (by rw [hcall]; rfl)
      by_cases hguard : context.guard = none
      · cases hpoisoned : context.poisoned with
        | false => exact ⟨_, _, .tryLock hcall hentry hguard hpoisoned, rfl⟩
        | true => exact ⟨_, _, .poisoned hcall hentry hguard hpoisoned, rfl⟩
      · exact ⟨_, _, .busy hcall hentry hguard, rfl⟩
  | closing id =>
      by_cases hmem : id ∈ registry.contexts
      · exact ⟨_, _, .remove hcall hmem, rfl⟩
      · exact ⟨_, _, .absent hcall hmem, rfl⟩
  | removed id =>
      obtain ⟨context, hentry⟩ := hentry (by rw [hcall]; rfl)
      cases hguard : context.guard with
      | none => exact ⟨_, _, .lock hcall hentry hguard, rfl⟩
      | some held => exact h.advances_inside text hentry hguard
  | inside id =>
      obtain ⟨context, hentry⟩ := hentry (by rw [hcall]; rfl)
      have hheld := (h.holder id context call hentry).mpr hcall
      obtain ⟨held, hguard, -⟩ := Option.map_eq_some_iff.mp hheld
      exact h.advances_inside text hentry hguard
  | dropping id outcome =>
      by_cases hlast : registry.Last call id
      · obtain ⟨context, hentry⟩ := hentry (by rw [hcall]; rfl)
        cases hjoined : context.joined with
        | true => exact ⟨_, _, .free hcall hlast hentry hjoined, rfl⟩
        | false => exact ⟨_, _, .shutdown hcall hlast hentry hjoined, rfl⟩
      · exact ⟨_, _, .drop hcall hlast, rfl⟩
  | returning outcome => exact ⟨_, _, .deliver hcall, rfl⟩
  | returned outcome => exact absurd hcall (hreturned outcome)

end Registry

end DisksGraph
