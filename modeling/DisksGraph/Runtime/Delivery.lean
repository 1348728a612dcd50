import DisksGraph.Engine.Events
import DisksGraph.Runtime.Session

/-!
# Runtime — Delivery

What the observer of a run is given by `execute_run_with_events`.

The coordinator publishes its run at many boundaries; the event adapter keeps a cursor and hands
over the retained events after it.  An event is lost only if more than `MAX_RUN_EVENTS` are recorded
between two publications, and it is late only if a return skips the last one.

* `Delivery.publish`: the closure of the adapter, on one publication.
* `Delivering`: how far the observer is behind; `Lags`: a part of a method keeps that bounded.
* `event_delivery_exactly_once`: what has been handed over when the call returns.
-/

namespace DisksGraph

open Support (Effectful Failure Program Returns Stateful)

/-! ### The adapter -/

/-- The observer of `execute_run_with_events` and the cursor of its closure. -/
structure Delivery where
  cursor : Nat := 0
  received : List RunEvent := []

namespace Delivery

/-- `for event in run.events_since(cursor) { callback(event); cursor = event.sequence; }`. -/
def publish (delivery : Delivery) (run : ExecutionRun) : Delivery :=
  (run.eventsSince delivery.cursor).foldl
    (fun delivery event => ⟨event.sequence, delivery.received ++ [event]⟩) delivery

/-- The closure is called at each publication. -/
def observe (delivery : Delivery) : Program.Event RuntimeCall RuntimeCall.Answer → Delivery
  | ⟨.publish run, _⟩ => delivery.publish run
  | _ => delivery

/-- What the observer has been given after the calls of a trace. -/
def after (trace : RuntimeTrace) : Delivery := trace.foldl observe {}

/-- Publishing delivers the events past the cursor. -/
theorem publish_received (delivery : Delivery) (run : ExecutionRun) :
    (delivery.publish run).received = delivery.received ++ run.eventsSince delivery.cursor := by
  rw [publish]
  induction run.eventsSince delivery.cursor generalizing delivery with
  | nil => exact (List.append_nil _).symm
  | cons event rest ih => rw [List.foldl_cons, ih, List.append_assoc, List.singleton_append]

/-- The cursor moves to the last event delivered. -/
theorem publish_cursor (delivery : Delivery) (run : ExecutionRun) :
    (delivery.publish run).cursor =
      ((run.eventsSince delivery.cursor).getLast?.map (·.sequence)).getD delivery.cursor := by
  rw [publish]
  induction run.eventsSince delivery.cursor generalizing delivery with
  | nil => rfl
  | cons event rest ih =>
      rw [List.foldl_cons, ih]
      cases rest with
      | nil => rfl
      | cons second rest =>
          rw [List.getLast?_cons_cons, List.getLast?_eq_some_getLast (List.cons_ne_nil _ _)]
          rfl

end Delivery

/-! ### What a run produces -/

/-- Calls on a run, with the events they publish. -/
inductive Produces (run : ExecutionRun) : List RunEvent → ExecutionRun → Prop where
  | none : Produces run [] run
  | call {events : List RunEvent} {run' run'' : ExecutionRun} (h : Produces run events run')
      (hcall : Called run' run'') : Produces run (events ++ published run' run'') run''

section Produces

variable {keys : ContractKeys} {run run' : ExecutionRun} {history : List RunEvent}

/-- One call publishes at most two events. -/
theorem length_published (hrun : run.WellFormed) (h : Numbering run history)
    (hcall : Called run run') : (published run run').length ≤ 2 := by
  rcases hcall.cases hrun with rfl | hstep
  · have hsame := h
    rw [← List.append_nil history] at hsame
    rw [published_eq h hsame (Nat.zero_le _)]
    exact Nat.zero_le _
  · rcases hstep.states with ⟨id, old, new, hmoves⟩ | hquiet
    · obtain ⟨kinds, hlength, -, hpublished⟩ := hmoves.log
      obtain ⟨events, heq, hkinds, -⟩ := h.published hpublished (by simpa using hlength)
      rw [heq, ← List.length_map, hkinds]
      simpa using hlength
    · obtain ⟨kind, -, hpublished⟩ := hquiet.log
      obtain ⟨events, heq, hkinds, -⟩ := h.published hpublished (by simp)
      rw [heq, ← List.length_map, hkinds]
      exact Nat.le_succ 1

end Produces

/-- An operation of the coordinator that fails leaves the run as it was. -/
theorem IsOperation.error {α : Type} {x : ExecutionRun.RunM α} (hx : IsOperation x)
    {run run' : ExecutionRun} {error : ExecutionRunError} (hrun : run.WellFormed)
    (h : Stateful.call x run = some (.error error, run')) : run' = run := by
  cases hx with
  | body operation => exact (operation.atomic hrun).error h
  | admission report => exact (ExecutionRun.recordAdmission_atomic hrun report).error h
  | verification report => exact (ExecutionRun.recordVerification_atomic hrun report).error h
  | goal report => exact (ExecutionRun.recordGoalVerification_atomic report).error h

/-! ### How far behind the observer is -/

/-- The observer of a run that began as `first` has the retained events of `first` and what was
produced since, up to its cursor, which is at most `lag` events behind. -/
structure Delivering (keys : ContractKeys) (first : ExecutionRun) (lag : Nat) (s : Execution)
    (delivery : Delivery) : Prop where
  reachable : Reachable keys s.run
  upTo : ∃ history produced, Numbering first history ∧ Produces first produced s.run ∧
    Logged s.run (history ++ produced) ∧ history.length ≤ delivery.cursor ∧
    delivery.cursor ≤ (history ++ produced).length ∧
    (history ++ produced).length ≤ delivery.cursor + lag ∧
    delivery.received = first.events ++ produced.take (delivery.cursor - history.length)

section Delivering

variable {keys : ContractKeys} {first : ExecutionRun} {lag lag' : Nat} {s : Execution}
  {delivery : Delivery}

/-- A delivery that lags by less lags by no more. -/
theorem Delivering.mono (h : Delivering keys first lag s delivery) (hle : lag ≤ lag') :
    Delivering keys first lag' s delivery := by
  obtain ⟨hreachable, history, produced, hfirst, hproduces, hlogged, hfrom, hto, hlag,
    hreceived⟩ := h
  exact ⟨hreachable, history, produced, hfirst, hproduces, hlogged, hfrom, hto, by omega, hreceived⟩

/-- A call on the run leaves the observer two more events behind. -/
theorem Delivering.called (h : Delivering keys first lag s delivery) {run : ExecutionRun}
    (hcall : Called s.run run) : Delivering keys first (lag + 2) { s with run } delivery := by
  obtain ⟨hreachable, history, produced, hfirst, hproduces, hlogged, hfrom, hto, hlag,
    hreceived⟩ := h
  have hlength := length_published hreachable.wellFormed hlogged.numbering hcall
  refine ⟨.call hreachable hcall, history, produced ++ published s.run run, hfirst,
    .call hproduces hcall, ?_, hfrom, ?_, ?_, ?_⟩
  · rw [← List.append_assoc]
    exact hlogged.called hreachable.wellFormed hcall
  · simp only [List.length_append] at hto ⊢
    omega
  · simp only [List.length_append] at hlag ⊢
    omega
  · rw [hreceived, List.take_append_of_le_length]
    simp only [List.length_append] at hto
    omega

/-- The retained events after a cursor that is not too far behind. -/
theorem eventsSince_eq {run : ExecutionRun} {history : List RunEvent} {since : Nat}
    (h : Numbering run history) (hsince : history.length ≤ since + MAX_RUN_EVENTS) :
    run.eventsSince since = history.drop since := by
  rw [ExecutionRun.eventsSince, h.retains, h.numbered.filter_drop, Nat.max_eq_right (by omega)]

/-- The cursor after the last events of a numbered history. -/
theorem cursor_drop {run : ExecutionRun} {history : List RunEvent} {dropped since : Nat}
    (h : Numbering run history) (hnone : history.length ≤ dropped → since = history.length) :
    ((history.drop dropped).getLast?.map (·.sequence)).getD since = history.length := by
  rw [List.getLast?_drop]
  split
  · next hle => exact hnone hle
  · next hlt =>
    rw [List.getLast?_eq_getElem?, List.getElem?_eq_getElem (by omega), Option.map_some,
      Option.getD_some, h.numbered.getElem (List.getElem?_eq_getElem (by omega))]
    omega

/-- A publication brings the observer up to date. -/
theorem Delivering.publish (h : Delivering keys first lag s delivery)
    (hlag : lag ≤ MAX_RUN_EVENTS) :
    Delivering keys first 0 s (delivery.publish s.run) := by
  obtain ⟨hreachable, history, produced, hfirst, hproduces, hlogged, hfrom, hto, hle,
    hreceived⟩ := h
  have hevents : s.run.eventsSince delivery.cursor = (history ++ produced).drop delivery.cursor :=
    eventsSince_eq hlogged.numbering (by omega)
  have hcursor : (delivery.publish s.run).cursor = (history ++ produced).length := by
    rw [Delivery.publish_cursor, hevents, cursor_drop hlogged.numbering fun hle => by omega]
  refine ⟨hreachable, history, produced, hfirst, hproduces, hlogged, ?_, ?_, ?_, ?_⟩
  · rw [hcursor, List.length_append]
    omega
  · rw [hcursor]
  · rw [hcursor]
    omega
  · rw [hcursor, Delivery.publish_received, hevents, hreceived, List.length_append,
      Nat.add_sub_cancel_left, List.take_length, List.append_assoc, List.drop_append,
      List.drop_eq_nil_of_le hfrom, List.nil_append, List.take_append_drop]

/-- The first publication hands over what is retained. -/
theorem Delivering.initial (hreachable : Reachable keys s.run) :
    Delivering keys s.run 0 s (({} : Delivery).publish s.run) := by
  obtain ⟨history, hlogged⟩ := hreachable.logged
  have hevents : s.run.eventsSince 0 = s.run.events := by
    rw [ExecutionRun.eventsSince, List.filter_eq_self]
    intro event hevent
    obtain ⟨i, hi⟩ := List.mem_iff_getElem?.mp (hlogged.numbering.retains.suffix.subset hevent)
    rw [hlogged.numbering.numbered.getElem hi]
    simp
  have hcursor : (({} : Delivery).publish s.run).cursor = history.length := by
    rw [Delivery.publish_cursor, hevents, hlogged.numbering.retains]
    have hpos : 0 < MAX_RUN_EVENTS := by decide
    exact cursor_drop hlogged.numbering fun hle => by dsimp only; omega
  refine ⟨hreachable, history, [], hlogged.numbering, .none, ?_, ?_, ?_, ?_, ?_⟩
  · rw [List.append_nil]
    exact hlogged
  · rw [hcursor]
  · rw [hcursor, List.append_nil]
  · rw [hcursor, List.append_nil, Nat.add_zero]
  · rw [Delivery.publish_received, hevents, List.take_nil, List.append_nil]
    rfl

end Delivering

/-! ### The parts of a method -/

/-- No part of a method records more events than this between two publications. -/
abbrev maxLag : Nat := 8

/-- From at most `before` events behind, the method returns at most `after` events behind, and fails
at most `maxLag` behind, whatever is answered. -/
def CoordinatorM.Lags {α : Type} (keys : ContractKeys) (first : ExecutionRun) (before after : Nat)
    (x : CoordinatorM α) : Prop :=
  ∀ s delivery, Delivering keys first before s delivery →
    Effectful.Ends (fun _ _ => True)
      (fun delivery call answer delivery' => delivery' = delivery.observe ⟨call, answer⟩)
      (fun _ => Delivering keys first after) (Delivering keys first maxLag) x s delivery

namespace CoordinatorM

section Lags

variable {keys : ContractKeys} {first : ExecutionRun} {lag next last : Nat} {α β : Type}
  {texts : CoordinatorText} {action : ActionId}

/-- Methods in sequence add up their lags. -/
theorem Lags.bind {x : CoordinatorM α} {f : α → CoordinatorM β} (hx : Lags keys first lag next x)
    (hf : ∀ a, Lags keys first next last (f a)) : Lags keys first lag last (x >>= f) :=
  fun s delivery h => .bind (hx s delivery h) fun a s' delivery' h' => hf a s' delivery' h'

/-- A method that lags by less lags by no more. -/
theorem Lags.mono {x : CoordinatorM α} (hx : Lags keys first lag next x) (hle : next ≤ last) :
    Lags keys first lag last x :=
  fun s delivery h => .mono (hx s delivery h) (fun _ _ _ h => h.mono hle) fun _ _ h => h

variable (hlag : lag ≤ maxLag)

theorem Lags.pure {a : α} : Lags keys first lag lag (pure a) := fun _ _ h => h

theorem Lags.get : Lags keys first lag lag get := fun _ _ h => h

include hlag

theorem Lags.throw {failure : Failure CoordinatorError} :
    Lags keys first lag next (throw failure : CoordinatorM α) :=
  fun _ _ h => h.mono hlag

theorem Lags.fail {error : CoordinatorError} :
    Lags keys first lag next (Effectful.fail error : CoordinatorM α) :=
  fun _ _ h => h.mono hlag

theorem Lags.reject {p : Prop} [Decidable p] {error : CoordinatorError} :
    Lags keys first lag lag (Effectful.reject p error) :=
  fun _ _ h => .reject (fun _ => h.mono hlag) fun _ => h

theorem Lags.lift {δ : Type} {into : δ → CoordinatorError} {x : Except δ α} :
    Lags keys first lag lag (Effectful.lift into x) :=
  fun _ _ h => .lift (h.mono hlag) fun _ _ => h

theorem Lags.unwrap {x : Option α} : Lags keys first lag lag (Effectful.unwrap x) :=
  fun _ _ h => .unwrap (h.mono hlag) fun _ _ => h

theorem Lags.returned {δ : Type} {into : δ → CoordinatorError} {x : Except (Failure δ) α} :
    Lags keys first lag lag (Effectful.returned into x) :=
  fun _ _ h => .returned (h.mono hlag) fun _ _ => h

omit hlag in
/-- Every call but a publication leaves the observer where it is. -/
theorem Lags.ask {call : RuntimeCall}
    (hquiet : ∀ (delivery : Delivery) answer, delivery.observe ⟨call, answer⟩ = delivery) :
    Lags keys first lag lag call.ask := by
  intro s delivery h
  refine .ask trivial ?_
  rintro answer _ rfl
  rw [hquiet]
  exact h

/-- A publication brings the observer up to date. -/
theorem publish_lags : Lags keys first lag 0 publish := by
  intro s delivery h
  refine .bind_get (.bind_ask (RuntimeCall.publish s.run) trivial ?_)
  rintro answer _ rfl
  have hpublished := h.publish (hlag.trans (by decide))
  exact .unwrap (hpublished.mono (Nat.zero_le _)) fun _ _ => hpublished

theorem runState_lags : Lags keys first lag lag (runState action) :=
  .bind .get fun _ => .lift hlag

theorem evaluate_lags {δ : Type} {into : δ → CoordinatorError} {x : Returns δ α} :
    Lags keys first lag lag (evaluate into x) :=
  .bind (.unwrap hlag) fun _ => .lift hlag

theorem probe_lags : Lags keys first lag lag probe := by
  refine .bind (.ask fun _ _ => rfl) ?_
  rintro (⟨⟨⟩ | ⟨⟩⟩ | observed)
  all_goals first | exact .throw hlag | exact .pure

theorem requireOwner_lags : Lags keys first lag lag requireOwner :=
  .bind .get fun _ => .bind (.reject hlag) fun _ => .reject hlag

/-- Checking the plan does not add to the lag. -/
theorem checkReviewedPlan_lags : Lags keys first lag lag (checkReviewedPlan texts) :=
  .bind .get fun _ => .bind (evaluate_lags hlag) fun _ => .reject hlag

theorem requireNoAttempt_lags {store : CheckpointStore} :
    Lags keys first lag lag (requireNoAttempt store) :=
  .bind (.ask fun _ _ => rfl) fun _ => .bind (.returned hlag) fun _ =>
    .bind (.reject hlag) fun _ => .pure

/-- Taking the lease does not add to the lag. -/
theorem leaseFromLock_lags : Lags keys first lag lag (leaseFromLock action) := by
  refine .bind .get fun execution => .bind (.lift hlag) fun _ => .bind (.reject hlag) fun _ => ?_
  split
  · exact .fail hlag
  · exact .pure

/-- The lock is released however the body ends. -/
theorem withHostLock_lags {body : CoordinatorM α} (hbody : Lags keys first lag next body) :
    Lags keys first lag next (withHostLock body) := by
  refine .bind (.ask fun _ _ => rfl) fun _ => .bind (.returned hlag) fun _ => ?_
  intro s delivery h
  refine .ensuring (hbody s delivery h) (fun _ s delivery h => ?_) fun s delivery h => ?_
  · refine ⟨trivial, ?_⟩
    rintro _ _ rfl
    exact h
  · refine ⟨trivial, ?_⟩
    rintro _ _ rfl
    exact h

/-- Under a lease a method lags as its body does. -/
theorem withLease_lags {body : ExecutionLease → CoordinatorM α} {locked : Bool}
    (hbody : ∀ lease, Lags keys first lag next (body lease)) :
    Lags keys first lag next (withLease locked action body) := by
  cases locked with
  | true =>
      exact .bind (.ask fun _ _ => rfl) fun _ => .bind (.returned hlag) fun _ =>
        .bind (leaseFromLock_lags hlag) hbody
  | false =>
      exact .bind .get fun _ => .bind (.lift hlag) fun _ => .bind (.reject hlag) fun _ =>
        withHostLock_lags hlag (.bind (leaseFromLock_lags hlag) hbody)

/-! ### Events -/

/-- An operation that fails has recorded nothing. -/
theorem tryRun_ends {operation : ExecutionRun.RunM α} (hop : IsOperation operation)
    {s : Execution} {delivery : Delivery} (h : Delivering keys first lag s delivery) :
    Effectful.Ends (fun _ _ => True)
      (fun delivery call answer delivery' => delivery' = delivery.observe ⟨call, answer⟩)
      (fun result s delivery => match result with
        | .ok _ => Delivering keys first (lag + 2) s delivery
        | .error _ => Delivering keys first lag s delivery)
      (Delivering keys first maxLag) (tryRun operation) s delivery := by
  refine .bind_get ?_
  split
  · exact h.mono hlag
  · next result run hcall =>
    cases result with
    | ok value => exact h.called (hop.called hcall)
    | error error =>
        obtain rfl := hop.error h.reachable.wellFormed hcall
        exact h

/-- A run operation publishes at most two events. -/
theorem onRun_lags {operation : ExecutionRun.RunM α} (hop : IsOperation operation) :
    Lags keys first lag (lag + 2) (onRun operation) := by
  intro s delivery h
  refine .bind (tryRun_ends hlag hop h) fun result s delivery h => ?_
  cases result with
  | error error => exact h.mono hlag
  | ok value => exact h

/-- An unknown outcome is published at once. -/
theorem orUnknown_lags (hroom : lag + 2 ≤ maxLag) {x : Except CoordinatorError α} :
    Lags keys first lag lag (orUnknown texts action x) := by
  cases x with
  | ok value => exact .pure
  | error error =>
      exact .bind (onRun_lags hlag (.body (.markOutcomeUnknown _ _))) fun _ => .fail hroom

end Lags

/-! ### The methods -/

section Methods

variable {keys : ContractKeys} {first : ExecutionRun} {texts : CoordinatorText} {action : ActionId}
  {resolved : ResolvedAction}

/-- Entering the check publishes at most two events. -/
theorem enterChecking_lags : Lags keys first 0 2 (enterChecking action) := by
  refine .bind (runState_lags (by decide)) fun state => ?_
  cases state with
  | waiting => exact onRun_lags (by decide) (.body (.beginCheck _))
  | checking => exact .mono .pure (by decide)
  | _ => exact .fail (by decide)

theorem checkEndpoint_lags {observed : ProbedObservation} {decision : AdmissionDecision} :
    Lags keys first 0 0 (checkEndpoint action observed decision resolved) :=
  .bind .get fun _ => .bind (.reject (by decide)) fun _ => .bind (.unwrap (by decide)) fun _ =>
    .bind (.reject (by decide)) fun _ => .bind (.ask fun _ _ => rfl) fun _ =>
      .bind (.unwrap (by decide)) fun _ => .reject (by decide)

/-- The events of an admission are delivered. -/
theorem decideAdmission_lags {lease : ExecutionLease} :
    Lags keys first 0 0 (decideAdmission action lease) := by
  refine .bind (probe_lags (by decide)) fun _ => .bind (.lift (by decide)) fun observed => ?_
  refine .bind .get fun execution => .bind (.ask fun _ _ => rfl) fun _ => ?_
  refine .bind (.returned (by decide)) fun decision => .bind ?_ fun _ => .pure
  cases decision.resolved with
  | none => exact .pure
  | some resolved => exact checkEndpoint_lags

theorem requireEndpoint_lags {resolved : Option ResolvedAction} :
    Lags keys first 0 0 (requireEndpoint action resolved) := by
  cases resolved with
  | some resolved => exact .pure
  | none =>
      exact .bind (onRun_lags (by decide) (.body (.markPreDispatchFailed _ _)))
        fun _ => .fail (by decide)

/-- Preparing the attempt adds no event. -/
theorem prepare_lags {store : CheckpointStore} {operation : Option OperationId} :
    Lags keys first 0 0 (prepare texts store action operation resolved) := by
  have hstop : ∀ error, Lags keys first 0 0 (prepare.stop texts action error) := fun error =>
    .bind (onRun_lags (by decide) (.body (.markPreDispatchFailed _ _))) fun _ => .fail (by decide)
  refine .bind .get fun execution => .bind (.unwrap (by decide)) fun captured => ?_
  cases captured with
  | error error => exact hstop error
  | ok attempt =>
      refine .bind (.ask fun _ _ => rfl) ?_
      rintro ⟨(error | _) | _, _⟩
      · exact hstop error
      · exact .throw (by decide)
      · exact .pure

/-- Every progress event is handed over before the next one is recorded. -/
theorem reportProgress_lags {detail : String} :
    Lags keys first 0 0 (reportProgress action detail) := by
  intro s delivery h
  refine .bind (tryRun_ends (by decide) (.body (.recordProgress action detail)) h) ?_
  intro result s delivery h
  cases result with
  | error error => exact h
  | ok value => exact publish_lags (by decide) s delivery h

/-- The events of a dispatch are delivered. -/
theorem dispatch_lags : Lags keys first 0 0 (dispatch texts action resolved) := by
  refine .bind .get fun execution => .bind (.ask fun _ _ => rfl) fun answer => ?_
  refine .bind (fun s delivery h => .forM (fun _ s delivery h => reportProgress_lags s delivery h)
    _ h) fun _ => ?_
  match answer.2 with
  | .ok receipt => exact .pure
  | .error .panic => exact .throw (by decide)
  | .error (.error error) => exact .pure

/-- A completion publishes at most two events. -/
theorem complete_lags {receipt : ExecutionReceipt} :
    Lags keys first 0 2 (complete texts action resolved receipt) := by
  refine .bind (probe_lags (by decide)) fun _ => .bind (orUnknown_lags (by decide) (by decide))
    fun post => .bind (orUnknown_lags (by decide) (by decide)) fun _ =>
      .bind .get fun execution => ?_
  intro s delivery h
  refine .bind (tryRun_ends (by decide) (.body (.recordCompletion _)) h) ?_
  intro result s delivery h
  cases result with
  | error error =>
      exact (orUnknown_lags (by decide) (by decide)).mono (Nat.zero_le 2) s delivery h
  | ok value => exact orUnknown_lags (by decide) (by decide) s delivery h

/-- A verification publishes at most two events. -/
theorem verify_lags {before : LiveObservation} {receipt : ExecutionReceipt} :
    Lags keys first 0 2 (verify texts action resolved before receipt) := by
  refine .bind (runState_lags (by decide)) fun state => ?_
  cases state with
  | verifying =>
      refine .bind .get fun _ => .bind (.unwrap (by decide)) fun _ => ?_
      refine .bind (orUnknown_lags (by decide) (by decide)) fun _ => ?_
      exact .bind (onRun_lags (by decide) (.verification _)) fun _ => .pure
  | _ => exact .mono .pure (by decide)

/-- Updating the bindings adds no event. -/
theorem updateBindings_lags {lag : Nat} (hlag : lag ≤ maxLag)
    {update : OutputBindings → ExecutionRun → Returns BindingError OutputBindings} :
    Lags keys first lag lag (updateBindings update) := by
  refine .bind .get fun _ => .bind (evaluate_lags hlag) fun bindings => ?_
  intro s delivery h
  exact ⟨h.reachable, h.upTo⟩

theorem recordOutputs_lags {lag : Nat} (hlag : lag ≤ maxLag)
    {pending : Option PendingLvBinding × Option PendingFilesystemBinding} :
    Lags keys first lag lag (recordOutputs action resolved pending) := by
  have hoption : ∀ {α : Type} {x : Option α} {f : α → CoordinatorM PUnit},
      (∀ a, Lags keys first lag lag (f a)) → Lags keys first lag lag (x.forM f) := by
    intro α x f hf
    cases x with
    | none => exact .pure
    | some a => exact hf a
  refine .bind (hoption fun _ => updateBindings_lags hlag) fun _ => ?_
  refine .bind (hoption fun _ => updateBindings_lags hlag) fun _ => ?_
  split
  · exact updateBindings_lags hlag
  · exact .pure

theorem setHalted_lags {lag : Nat} {value : Bool} : Lags keys first lag lag (setHalted value) :=
  fun _ _ h => ⟨h.reachable, h.upTo⟩

/-- Settling the attempt adds no event. -/
theorem settle_lags {store : CheckpointStore} {attempt : ActiveAttempt}
    {pending : Option PendingLvBinding × Option PendingFilesystemBinding} :
    Lags keys first 2 2 (settle action resolved pending attempt store) := by
  refine .bind (runState_lags (by decide)) fun state => ?_
  cases state with
  | verified =>
      have hclear : Lags keys first 0 0 (clear store attempt) :=
        .bind (.ask fun _ _ => rfl) fun _ => .returned (by decide)
      exact .bind (recordOutputs_lags (by decide)) fun _ => .bind (publish_lags (by decide))
        fun _ => .bind hclear fun _ => .bind setHalted_lags fun _ => .mono .pure (by decide)
  | _ => exact .pure

theorem invoke_lags {store : CheckpointStore} {before : LiveObservation} {attempt : ActiveAttempt} :
    Lags keys first 0 2 (invoke texts action resolved before attempt store) :=
  .bind setHalted_lags fun _ => .bind (publish_lags (by decide)) fun _ =>
    .bind (onRun_lags (by decide) (.body (.markDispatchStarted _))) fun _ =>
    .bind (publish_lags (by decide)) fun _ => .bind dispatch_lags fun _ =>
    .bind complete_lags fun _ => .bind (publish_lags (by decide)) fun _ =>
    .bind verify_lags fun _ => settle_lags

/-- An action publishes its last events after the delivery. -/
theorem executeLeased_lags {operation : Option OperationId} {lease : ExecutionLease} :
    Lags keys first 0 2 (executeLeased texts action operation lease) := by
  refine .bind (requireNoAttempt_lags (by decide)) fun store => .bind decideAdmission_lags ?_
  rintro ⟨observed, decision⟩
  refine .bind (onRun_lags (by decide) (.admission _)) fun admitted =>
    .bind (publish_lags (by decide)) fun _ => ?_
  split
  · exact .bind requireEndpoint_lags fun resolved => .bind prepare_lags fun _ => invoke_lags
  · exact .mono (runState_lags (by decide)) (by decide)

/-- An action under the lock lags by its last events. -/
theorem executeActionLocked_lags {operation : Option OperationId} {locked : Bool} :
    Lags keys first 0 2 (executeActionLocked texts action operation locked) :=
  .bind (requireOwner_lags (by decide)) fun _ => .bind (checkReviewedPlan_lags (by decide)) fun _ =>
    .bind enterChecking_lags fun _ => .bind (publish_lags (by decide)) fun _ =>
    withLease_lags (by decide) fun _ => executeLeased_lags

/-- Between actions everything is delivered. -/
theorem executeOrdered_lags : ∀ ordered : List ActionId,
    Lags keys first 0 0 (executeOrdered texts ordered)
  | [] => .pure
  | action :: rest => by
      have hnext : Lags keys first 0 0 (do
          let state ← executeActionLocked texts action none true
          publish
          if state = .verified then executeOrdered texts rest else return some action) := by
        refine .bind executeActionLocked_lags fun state =>
          .bind (publish_lags (by decide)) fun _ => ?_
        split
        · exact executeOrdered_lags rest
        · exact .pure
      refine .bind (runState_lags (by decide)) fun state => ?_
      cases state with
      | verified => exact executeOrdered_lags rest
      | waiting => exact hnext
      | checking => exact hnext
      | _ => exact .fail (by decide)

/-- The final verification publishes at most two events. -/
theorem verifyFinally_lags {store : CheckpointStore} :
    Lags keys first 0 2 (verifyFinally store) := by
  refine .bind (probe_lags (by decide)) fun _ => .bind (.lift (by decide)) fun observed => ?_
  refine .bind .get fun execution => .bind (.ask fun _ _ => rfl) fun _ => ?_
  refine .bind (.returned (by decide)) fun report => .bind .get fun _ => ?_
  refine .bind (.reject (by decide)) fun _ => .bind (requireNoAttempt_lags (by decide)) fun _ => ?_
  exact .bind (onRun_lags (by decide) (.goal _)) fun _ => .pure

theorem summary_lags {lag : Nat} {stopped : Option ActionId} :
    Lags keys first lag lag (summary stopped) :=
  .bind .get fun _ => .pure

/-- A run under the lock lags by its last events. -/
theorem executeRunLocked_lags : Lags keys first 0 2 (executeRunLocked texts) := by
  refine .bind (requireNoAttempt_lags (by decide)) fun store => .bind (probe_lags (by decide))
    fun _ => .bind (.lift (by decide)) fun initial => .bind .get fun execution => ?_
  refine .bind (.ask fun _ _ => rfl) fun _ => .bind (.returned (by decide)) fun _ => ?_
  refine .bind (.reject (by decide)) fun _ => .bind .get fun _ => .bind (.unwrap (by decide))
    fun ordered => .bind (executeOrdered_lags _) fun stopped => ?_
  cases stopped with
  | some action => exact .mono summary_lags (by decide)
  | none => exact .bind verifyFinally_lags fun _ => summary_lags

theorem executeRunInner_lags : Lags keys first 0 2 (executeRunInner texts) :=
  .bind (requireOwner_lags (by decide)) fun _ => .bind .get fun _ => .bind (.reject (by decide))
    fun _ => .bind (checkReviewedPlan_lags (by decide)) fun _ =>
    withHostLock_lags (by decide) executeRunLocked_lags

end Methods

/-! ### The whole call -/

section Whole

variable {texts : CoordinatorText}

/-- How a call on a run ends for the observer: unless it panics, with everything handed over. -/
def Delivered {α : Type} (keys : ContractKeys) (first : ExecutionRun)
    (outcome : Except (Failure CoordinatorError) α × Execution) (delivery : Delivery) : Prop :=
  outcome.1 = .error .panic ∨ Delivering keys first 0 outcome.2 delivery

/-- How the inner call ends for the observer: a failure is handed over before it is returned. -/
def DeliveredInner (keys : ContractKeys) (first : ExecutionRun)
    (outcome : Except (Failure CoordinatorError) ExecutionSummary × Execution)
    (delivery : Delivery) : Prop :=
  match outcome.1 with
  | .ok _ => Delivering keys first maxLag outcome.2 delivery
  | .error _ => Delivered keys first outcome delivery

/-- What the call does with a failure of its inner part. -/
def publishFailure (failure : Failure CoordinatorError) : CoordinatorM ExecutionSummary := do
  match failure with
  | .panic => throw .panic
  | .error error => do
      publish
      Effectful.fail error

/-- A publication in front of the rest of a method. -/
theorem safe_publish {α : Type} {keys : ContractKeys} {first : ExecutionRun} {s : Execution}
    {delivery : Delivery} {rest : CoordinatorM α}
    (hpublished : Delivering keys first 0 s (delivery.publish s.run))
    (hrest : ∀ delivery, Delivering keys first 0 s delivery →
      Program.Safe (fun _ _ => True)
        (fun delivery call answer delivery' => delivery' = delivery.observe ⟨call, answer⟩)
        (Delivered keys first) (rest.start s) delivery) :
    Program.Safe (fun _ _ => True)
      (fun delivery call answer delivery' => delivery' = delivery.observe ⟨call, answer⟩)
      (Delivered keys first) (Effectful.start (publish >>= fun _ => rest) s) delivery := by
  refine ⟨trivial, ?_⟩
  rintro answer _ rfl
  cases answer with
  | none => exact .inl rfl
  | some value => exact hrest _ hpublished

/-- Both exits of the call are behind a publication. -/
theorem executeRunWithUpdates_delivered {s : Execution} (hrun : Reachable texts.keys s.run) :
    Program.Safe (fun _ _ => True)
      (fun delivery call answer delivery' => delivery' = delivery.observe ⟨call, answer⟩)
      (Delivered texts.keys s.run) (Effectful.start (executeRunWithUpdates texts) s) {} := by
  refine safe_publish (Delivering.initial hrun) fun delivery hstart => ?_
  have hinner : Program.Safe (fun _ _ => True)
      (fun delivery call answer delivery' => delivery' = delivery.observe ⟨call, answer⟩)
      (fun outcome delivery => Delivering texts.keys s.run maxLag outcome.2 delivery)
      (Effectful.start (executeRunInner texts) s) delivery :=
    (executeRunInner_lags s delivery hstart).safe (fun _ _ _ h => h.mono (by decide))
      fun _ _ _ h => h
  have hcaught : Program.Safe (fun _ _ => True)
      (fun delivery call answer delivery' => delivery' = delivery.observe ⟨call, answer⟩)
      (DeliveredInner texts.keys s.run)
      (Effectful.start (tryCatch (executeRunInner texts) publishFailure) s) delivery := by
    refine Program.Safe.bind hinner ?_
    rintro ⟨(_ | error) | summary, s'⟩ delivery h
    · refine Program.Safe.mono (safe_publish (h.publish (by decide)) fun _ h => .inr h) ?_
      rintro ⟨_ | _, s'⟩ delivery (h | h)
      · exact .inl h
      · exact .inr h
      · cases h
      · exact h.mono (Nat.zero_le _)
    · exact .inl rfl
    · exact h
  refine Program.Safe.bind hcaught ?_
  rintro ⟨_ | summary, s'⟩ delivery h
  · exact h
  · exact safe_publish (Delivering.publish h (by decide)) fun _ h => .inr h

end Whole

end CoordinatorM

/-- What has been handed over once nothing is owed. -/
theorem Delivering.complete {keys : ContractKeys} {first : ExecutionRun} {s : Execution}
    {delivery : Delivery} (h : Delivering keys first 0 s delivery) :
    ∃ history produced, Numbering first history ∧ Produces first produced s.run ∧
      Logged s.run (history ++ produced) ∧ delivery.received = first.events ++ produced := by
  obtain ⟨-, history, produced, hfirst, hproduces, hlogged, hfrom, hto, hle, hreceived⟩ := h
  refine ⟨history, produced, hfirst, hproduces, hlogged, ?_⟩
  rw [hreceived, List.take_of_length_le]
  simp only [List.length_append] at hle
  omega

/-- The retained events of a run and the ones that follow are the end of the history. -/
theorem retained_append {run : ExecutionRun} {history : List RunEvent} (h : Numbering run history)
    (produced : List RunEvent) :
    run.events ++ produced =
      (history ++ produced).drop (history.length - MAX_RUN_EVENTS) := by
  rw [h.retains, List.drop_append_of_le_length (Nat.sub_le _ _)]

/-- **The observer of `execute_run_with_events` is given every event once and in order.**  When the
call returns, with `Ok` or `Err`, it has been given the events that were retained at the start
followed by everything the run produced since; their numbers have no gap and end in the run's
latest one. -/
theorem event_delivery_exactly_once {texts : CoordinatorText} {coordinator : ExecutionCoordinator}
    {run : ExecutionRun} {trace : RuntimeTrace}
    {result : Except (Failure CoordinatorError) ExecutionSummary} {execution : Execution}
    (hrun : Reachable texts.keys run)
    (hruns : Program.Runs
      (Effectful.start (CoordinatorM.executeRunWithUpdates texts) ⟨coordinator, run⟩) trace
      (result, execution))
    (hreturns : result ≠ .error .panic) :
    ∃ produced, Produces run produced execution.run ∧
      (Delivery.after trace).received = run.events ++ produced ∧
      (Delivery.after trace).received.Pairwise
        (fun event later => event.sequence < later.sequence) ∧
      (Delivery.after trace).received.map (·.sequence) =
        List.range' (execution.run.nextEventSequence - (Delivery.after trace).received.length)
          (Delivery.after trace).received.length ∧
      ((Delivery.after trace).received.getLast?.map (·.sequence)).getD 0 + 1 =
        execution.run.nextEventSequence := by
  have hdelivered : CoordinatorM.Delivered texts.keys run (result, execution)
      (Delivery.after trace) :=
    Program.Safe.steps
      (@CoordinatorM.executeRunWithUpdates_delivered texts ⟨coordinator, run⟩ hrun) hruns
  have hdelivering : Delivering texts.keys run 0 execution (Delivery.after trace) :=
    hdelivered.resolve_left hreturns
  obtain ⟨history, produced, hfirst, hproduces, hlogged, hreceived⟩ := hdelivering.complete
  have hdrop := hreceived.trans (retained_append hfirst produced)
  have hnumbers : (Delivery.after trace).received.map (·.sequence) =
      List.range' (execution.run.nextEventSequence - (Delivery.after trace).received.length)
        (Delivery.after trace).received.length := by
    have hsuffix : (Delivery.after trace).received <:+ history ++ produced :=
      hdrop ▸ List.drop_suffix _ _
    rw [hlogged.numbering.numbered.suffix hsuffix, hlogged.numbering.next,
      Nat.succ_sub hsuffix.length_le]
  refine ⟨produced, hproduces, hreceived, ?_, hnumbers, ?_⟩
  · rw [← List.pairwise_map, hnumbers]
    exact List.pairwise_lt_range'
  · rw [hlogged.numbering.next, hdrop, cursor_drop hlogged.numbering fun hle => ?_]
    have hpos : 0 < MAX_RUN_EVENTS := by decide
    simp only [List.length_append] at hle ⊢
    omega

/-- The sample host with a dispatcher that reports once and then fails. -/
def sampleFailing : (call : RuntimeCall) → call.Answer
  | .execute .. => ((["half way"], .error (.error (.adapter "lost"))) :
      List String × Except (Failure DispatchError) ExecutionReceipt)
  | call => sampleAnswers call

/-- The call did not return. -/
def panicked {ε α : Type} : Except (Failure ε) α → Bool
  | .error .panic => true
  | _ => false

/-- The calls of the run on that host, and how it ends. -/
def sampleFailedCall :
    RuntimeTrace × Except (Failure CoordinatorError) ExecutionSummary × Execution :=
  (Effectful.start (CoordinatorM.executeRunWithUpdates sampleTexts)
    ⟨.new sampleVolumeRun, sampleVolumeRun⟩).respond sampleFailing

/-- The failed call is a run of the method. -/
theorem runs_sampleFailedCall : Program.Runs
    (Effectful.start (CoordinatorM.executeRunWithUpdates sampleTexts)
      ⟨.new sampleVolumeRun, sampleVolumeRun⟩) sampleFailedCall.1 sampleFailedCall.2 :=
  Program.runs_respond sampleFailing _

/-- The failure comes back after six events, and all of them have been handed over. -/
theorem sample_failure_delivered :
    (Delivery.after sampleFailedCall.1).received.map (·.sequence) = [1, 2, 3, 4, 5, 6] ∧
      Produces sampleVolumeRun (Delivery.after sampleFailedCall.1).received
        sampleFailedCall.2.2.run := by
  have hsequences : (Delivery.after sampleFailedCall.1).received.map (·.sequence) =
      [1, 2, 3, 4, 5, 6] := by decide +kernel
  have hfailed : panicked sampleFailedCall.2.1 = false := by decide +kernel
  have hruns := runs_sampleFailedCall
  -- the calls are not evaluated again below
  generalize sampleFailedCall = call at hsequences hfailed hruns ⊢
  obtain ⟨trace, result, execution⟩ := call
  have hreturns : result ≠ .error .panic := by
    rintro rfl
    cases hfailed
  obtain ⟨produced, hproduces, hreceived, -, -, -⟩ :=
    event_delivery_exactly_once reachable_sampleVolumeRun hruns hreturns
  refine ⟨hsequences, ?_⟩
  have hall : (Delivery.after trace).received = produced := hreceived
  rw [hall]
  exact hproduces

end DisksGraph
