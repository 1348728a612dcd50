import DisksGraph.Engine.Schedule
import DisksGraph.Runtime.Coordinator

/-!
# Runtime — Ledger

What the calls of a coordinator say about its attempts, and that it makes each call only when the
calls before it allow it.

* `Ledger` is read off the calls and their answers: the lock, the last published run, the armed
  checkpoint, the invoked actions, and the action whose invocation has not been settled.
* `Ledger.Allows`: what has to hold when a call is made.
* `Sound`: the invariant of a coordinator and its run between two calls of its owner.
* `executeActionLocked_keeps`, `executeRunWithUpdates_keeps`: a method makes allowed calls only and
  keeps `Sound`, whatever the callees answer.
-/

namespace DisksGraph

open Support (Effectful Failure Program Returns Stateful)

/-! ### The ledger -/

/-- What the calls so far say. -/
structure Ledger where
  locked : Bool := false
  published : Option ExecutionRun := none
  armed : Option ActiveAttempt := none
  dispatched : List ActionId := []
  unsettled : Option ActionId := none

/-- The action of an attempt is verified in a run. -/
def ActiveAttempt.VerifiedIn (attempt : ActiveAttempt) (run : ExecutionRun) : Prop :=
  run.runId = attempt.runId ∧ run.state attempt.actionId = .ok .verified

instance (attempt : ActiveAttempt) (run : ExecutionRun) : Decidable (attempt.VerifiedIn run) :=
  inferInstanceAs (Decidable (_ ∧ _))

namespace Ledger

/-- A call and its answer.  An invocation is settled when the checkpoint of its action has been
cleared, with the last published run showing the action verified. -/
def observe (ledger : Ledger) : Program.Event RuntimeCall RuntimeCall.Answer → Ledger
  | ⟨.publish run, _⟩ => { ledger with published := some run }
  | ⟨.tryLockHost, answer⟩ =>
      match (answer : Except (Failure LeaseError) Unit) with
      | .ok () => { ledger with locked := true }
      | .error _ => ledger
  | ⟨.releaseLock, _⟩ => { ledger with locked := false }
  | ⟨.arm _ attempt, answer⟩ =>
      match (answer : Except (Failure CheckpointError) Unit × CheckpointStore).1 with
      | .ok () => { ledger with armed := some attempt }
      | .error _ => ledger
  | ⟨.clear _ attempt, answer⟩ =>
      match (answer : Except (Failure CheckpointError) Unit × CheckpointStore).1 with
      | .ok () =>
          if ledger.unsettled = some attempt.actionId ∧
              ledger.published.any (fun run => decide (attempt.VerifiedIn run)) = true then
            { ledger with armed := none, unsettled := none }
          else { ledger with armed := none }
      | .error _ => { ledger with armed := none }
  | ⟨.execute _ action, _⟩ =>
      { ledger with
        dispatched := action.actionId :: ledger.dispatched
        unsettled := some action.actionId }
  | _ => ledger

/-- The checkpoint of exactly this run, plan, action and endpoint. -/
structure Names (attempt : ActiveAttempt) (run : ExecutionRun) (action : ResolvedAction) :
    Prop where
  runId : attempt.runId = run.runId
  planId : attempt.planId = run.document.planId
  actionId : attempt.actionId = action.actionId
  targets : attempt.targets = action.fingerprints
  backendId : attempt.backendId = action.backend

/-- What has to hold when the dispatcher is invoked. -/
structure MayDispatch (owner : Uuid) (ledger : Ledger) (run : ExecutionRun)
    (action : ResolvedAction) : Prop where
  owner : run.runId = owner
  first : action.actionId ∉ ledger.dispatched
  settled : ledger.unsettled = none
  locked : ledger.locked = true
  armed : ∃ attempt, ledger.armed = some attempt ∧ Names attempt run action
  before : ∀ before, Relation.TransGen (Precedes run.plan.dependencies) before action.actionId →
    run.stateAt before.get = some .verified

/-- What has to hold when a coordinator makes a call. -/
def Allows (owner : Uuid) (ledger : Ledger) : RuntimeCall → Prop
  | .tryLockHost => ledger.locked = false ∧ ledger.armed = none
  | .tryCloneLock | .releaseLock | .inspect _ => ledger.locked = true
  | .arm .. => ledger.locked = true ∧ ledger.armed = none
  | .clear _ attempt => ledger.locked = true ∧ ledger.armed = some attempt ∧
      ∃ run, ledger.published = some run ∧ attempt.VerifiedIn run
  | .execute run action => ledger.MayDispatch owner run action
  | _ => True

end Ledger

/-! ### Run operations -/

namespace ExecutionRun

/-- The invocation boundary of the action is behind it. -/
def IsPast (run : ExecutionRun) (id : ActionId) : Prop :=
  ∃ state, run.stateAt id.get = some state ∧ state ≠ .waiting ∧ state ≠ .checking ∧
    state ≠ .admitted

/-- No transition leads back over the boundary. -/
theorem Transition.past {old new : ActionRunState} (h : Transition old new)
    (hold : old ≠ .waiting ∧ old ≠ .checking ∧ old ≠ .admitted) :
    new ≠ .waiting ∧ new ≠ .checking ∧ new ≠ .admitted := by
  cases h <;> simp_all

/-- What is past stays so. -/
theorem IsPast.called {run run' : ExecutionRun} {id : ActionId} (h : run.IsPast id)
    (hrun : run.WellFormed) (hcall : Called run run') : run'.IsPast id := by
  rcases hcall.cases hrun with rfl | hstep
  · exact h
  · obtain ⟨state, hstate, hpast⟩ := h
    rcases hstep.states with ⟨moved, old, new, hmoves⟩ | ⟨hstates, -⟩
    · by_cases hid : id.get = moved.get
      · obtain rfl : old = state := Option.some_inj.mp (hmoves.was.symm.trans (hid ▸ hstate))
        exact ⟨new, by rw [hmoves.states, if_pos hid], hmoves.transition.past hpast⟩
      · exact ⟨state, by rw [hmoves.states, if_neg hid, hstate], hpast⟩
    · exact ⟨state, by rw [hstates, hstate], hpast⟩

/-- A step keeps the document. -/
theorem Step.document {run run' : ExecutionRun} (h : Step run run') :
    run'.document = run.document := by
  cases h <;> rfl

/-- A call keeps the run's id and document. -/
theorem called_document {run run' : ExecutionRun} (hrun : run.WellFormed) (h : Called run run') :
    run'.runId = run.runId ∧ run'.document = run.document := by
  rcases h.cases hrun with rfl | hstep
  · exact ⟨rfl, rfl⟩
  · exact ⟨hstep.frozen.1, hstep.document⟩

/-- An accepted start of the dispatch was an admitted action, and leaves it running. -/
theorem markDispatchStarted_ok {run run' : ExecutionRun} {id : ActionId}
    (h : Stateful.call (markDispatchStarted id) run = some (.ok (), run')) :
    run.stateAt id.get = some .admitted ∧ run'.stateAt id.get = some .running := by
  have hstep : Stateful.Atomic (markDispatchStarted id) run fun _ run' =>
      run.stateAt id.get = some .admitted ∧ run' = run.enter id .running := by
    refine Stateful.Atomic.bind_guard requireState_guards ?_
    rintro _ ⟨record, hrecord, hstate⟩
    refine Stateful.Atomic.mono (setState_atomic (lt_of_record hrecord)) ?_
    rintro _ _ ⟨-, rfl⟩
    exact ⟨hstate ▸ stateAt_of_record hrecord, rfl⟩
  obtain ⟨hwas, rfl⟩ := hstep.ok h
  exact ⟨hwas, by rw [stateAt_enter hwas, if_pos rfl]⟩

end ExecutionRun

/-- A call of the coordinator on its run is one of the nine operations. -/
inductive IsOperation : {α : Type} → ExecutionRun.RunM α → Prop where
  | body (operation : RunOperation) : IsOperation operation.body
  | admission (report : AdmissionReport) : IsOperation (ExecutionRun.recordAdmission report)
  | verification (report : VerificationReport) :
      IsOperation (ExecutionRun.recordVerification report)
  | goal (report : GoalVerificationReport) :
      IsOperation (ExecutionRun.recordGoalVerification report)

/-- The run after a call whose answer is dropped is the run after the call. -/
theorem call_discard {α : Type} {x : ExecutionRun.RunM α} {run run' : ExecutionRun}
    {result : Except ExecutionRunError α} (h : Stateful.call x run = some (result, run')) :
    ∃ result', Stateful.call (Functor.discard x) run = some (result', run') := by
  cases result with
  | error error => exact ⟨_, Stateful.call_bind_error h⟩
  | ok value => exact ⟨_, Stateful.call_bind_ok h⟩

/-- An operation of the run is a call. -/
theorem IsOperation.called {α : Type} {x : ExecutionRun.RunM α} (hx : IsOperation x)
    {run run' : ExecutionRun} {result : Except ExecutionRunError α}
    (h : Stateful.call x run = some (result, run')) : Called run run' := by
  cases hx with
  | body operation => exact ⟨operation, result, h⟩
  | admission report =>
      obtain ⟨result', h'⟩ := call_discard h
      exact ⟨.recordAdmission report, result', h'⟩
  | verification report =>
      obtain ⟨result', h'⟩ := call_discard h
      exact ⟨.recordVerification report, result', h'⟩
  | goal report =>
      obtain ⟨result', h'⟩ := call_discard h
      exact ⟨.recordGoalVerification report, result', h'⟩

/-! ### Phases -/

/-- Where a coordinator is between its lock and the removal of its checkpoint. -/
structure Phase where
  locked : Bool
  halted : Bool
  armed : Option ActiveAttempt := none
  unsettled : Option ActionId := none

section Phases

variable {keys : ContractKeys} {owner plan : Uuid} {s : Execution} {ledger : Ledger} {phase : Phase}

/-- A coordinator of `owner` and its run, in a phase. -/
structure At (keys : ContractKeys) (owner plan : Uuid) (phase : Phase) (s : Execution)
    (ledger : Ledger) : Prop where
  reachable : Reachable keys s.run
  coordinator : s.coordinator.runId = owner
  run : s.run.runId = owner
  plan : s.run.document.planId = plan
  past : ∀ id ∈ ledger.dispatched, s.run.IsPast id
  halted : s.coordinator.halted = phase.halted
  locked : ledger.locked = phase.locked
  armed : ledger.armed = phase.armed
  unsettled : ledger.unsettled = phase.unsettled

/-- The invariant of a coordinator: an armed checkpoint or an unsettled invocation keeps it
halted. -/
def Sound (keys : ContractKeys) (owner : Uuid) (locked : Bool) (s : Execution) (ledger : Ledger) :
    Prop :=
  ∃ plan phase, At keys owner plan phase s ledger ∧ phase.locked = locked ∧
    (phase.halted = true ∨ phase.armed = none ∧ phase.unsettled = none)

/-- The phase before an attempt. -/
abbrev Phase.ready : Phase := { locked := true, halted := false }

/-- A session in a phase is sound once it is latched or settled. -/
theorem At.sound (h : At keys owner plan phase s ledger)
    (hlatch : phase.halted = true ∨ phase.armed = none ∧ phase.unsettled = none) :
    Sound keys owner phase.locked s ledger :=
  ⟨plan, phase, h, rfl, hlatch⟩

/-- A halted coordinator is sound in every phase. -/
theorem At.halted_sound {armed : Option ActiveAttempt} {unsettled : Option ActionId}
    (h : At keys owner plan { locked := true, halted := true, armed, unsettled } s ledger) :
    Sound keys owner true s ledger :=
  h.sound (.inl rfl)

/-- A session that is ready is sound. -/
theorem At.ready_sound {locked : Bool}
    (h : At keys owner plan { locked, halted := false } s ledger) :
    Sound keys owner locked s ledger :=
  h.sound (.inr ⟨rfl, rfl⟩)

/-- A coordinator that is not halted has nothing armed and nothing unsettled. -/
theorem Sound.running {locked : Bool} (h : Sound keys owner locked s ledger)
    (hrunning : s.coordinator.halted = false) :
    ∃ plan, At keys owner plan { locked, halted := false } s ledger := by
  obtain ⟨plan, phase, hat, rfl, hlatch⟩ := h
  have hhalted : phase.halted = false := hat.halted.symm.trans hrunning
  rcases hlatch with hlatch | ⟨harmed, hunsettled⟩
  · rw [hhalted] at hlatch
    cases hlatch
  · exact ⟨plan, { hat with
      halted := hrunning, armed := hat.armed.trans harmed
      unsettled := hat.unsettled.trans hunsettled }⟩

/-- What holds whatever the run, the observer and the bindings do. -/
structure Stable (I : Execution → Ledger → Prop) : Prop where
  called : ∀ {s ledger run}, I s ledger → Called s.run run → I { s with run } ledger
  published : ∀ {s ledger run}, I s ledger → I s { ledger with published := run }
  bound : ∀ {s : Execution} {ledger bindings}, I s ledger →
    I { s with coordinator := { s.coordinator with bindings } } ledger

theorem At.stable : Stable (At keys owner plan phase) where
  called h hcall :=
    have hframe := ExecutionRun.called_document h.reachable.wellFormed hcall
    { h with
      reachable := .call h.reachable hcall
      run := hframe.1.trans h.run
      plan := by rw [hframe.2, h.plan]
      past := fun id hid => (h.past id hid).called h.reachable.wellFormed hcall }
  published h := { h with }
  bound h := { h with }

/-- Soundness lasts over the calls of the run. -/
theorem Sound.stable {locked : Bool} : Stable (Sound keys owner locked) where
  called := fun ⟨_, _, hat, hlocked, hlatch⟩ hcall =>
    ⟨_, _, At.stable.called hat hcall, hlocked, hlatch⟩
  published := fun ⟨_, _, hat, hlocked, hlatch⟩ => ⟨_, _, At.stable.published hat, hlocked, hlatch⟩
  bound := fun ⟨_, _, hat, hlocked, hlatch⟩ => ⟨_, _, At.stable.bound hat, hlocked, hlatch⟩

end Phases

/-! ### What the parts of a method keep -/

/-- From `s`, every call is allowed; the method returns in `Q` or fails in `E`. -/
abbrev CoordinatorM.Ends {α : Type} (owner : Uuid) (Q : α → Execution → Ledger → Prop)
    (E : Execution → Ledger → Prop) (x : CoordinatorM α) (s : Execution) (ledger : Ledger) : Prop :=
  Effectful.Ends (Ledger.Allows owner)
    (fun ledger call answer ledger' => ledger' = ledger.observe ⟨call, answer⟩) Q E x s ledger

/-- A call in front of a body: the ledger has its answer. -/
theorem CoordinatorM.Ends.bind_call {β : Type} {owner : Uuid} {R : β → Execution → Ledger → Prop}
    {E : Execution → Ledger → Prop} {s : Execution} {ledger : Ledger} (call : RuntimeCall)
    {f : call.Answer → CoordinatorM β} (hallowed : ledger.Allows owner call)
    (hf : ∀ answer, CoordinatorM.Ends owner R E (f answer) s (ledger.observe ⟨call, answer⟩)) :
    CoordinatorM.Ends owner R E (call.ask >>= f) s ledger :=
  .bind_ask call hallowed fun answer _ h => h ▸ hf answer

/-- However the method ends, `I` still holds. -/
def CoordinatorM.Keeps {α : Type} (owner : Uuid) (I : Execution → Ledger → Prop)
    (x : CoordinatorM α) : Prop :=
  ∀ s ledger, I s ledger → CoordinatorM.Ends owner (fun _ => I) I x s ledger

namespace CoordinatorM

section Keeps

variable {α β : Type} {owner : Uuid} {I : Execution → Ledger → Prop} {texts : CoordinatorText}
  {action : ActionId}

theorem Keeps.pure {a : α} : Keeps owner I (pure a) := fun _ _ h => h

theorem Keeps.throw {failure : Failure CoordinatorError} :
    Keeps owner I (throw failure : CoordinatorM α) :=
  fun _ _ h => h

theorem Keeps.fail {error : CoordinatorError} :
    Keeps owner I (Effectful.fail error : CoordinatorM α) :=
  fun _ _ h => h

theorem Keeps.get : Keeps owner I get := fun _ _ h => h

theorem Keeps.reject {p : Prop} [Decidable p] {error : CoordinatorError} :
    Keeps owner I (Effectful.reject p error) :=
  fun _ _ h => .reject (fun _ => h) fun _ => h

theorem Keeps.lift {δ : Type} {into : δ → CoordinatorError} {x : Except δ α} :
    Keeps owner I (Effectful.lift into x) :=
  fun _ _ h => .lift h fun _ _ => h

theorem Keeps.unwrap {x : Option α} : Keeps owner I (Effectful.unwrap x) :=
  fun _ _ h => .unwrap h fun _ _ => h

theorem Keeps.returned {δ : Type} {into : δ → CoordinatorError} {x : Except (Failure δ) α} :
    Keeps owner I (Effectful.returned into x) :=
  fun _ _ h => .returned h fun _ _ => h

/-- Methods in sequence keep an invariant. -/
theorem Keeps.bind {x : CoordinatorM α} {f : α → CoordinatorM β} (hx : Keeps owner I x)
    (hf : ∀ a, Keeps owner I (f a)) : Keeps owner I (x >>= f) :=
  fun s ledger h => .bind (hx s ledger h) fun a s' ledger' h' => hf a s' ledger' h'

/-- What is kept in front of a body, weakened where it fails. -/
theorem Keeps.then {x : CoordinatorM α} {f : α → CoordinatorM β} {s : Execution} {ledger : Ledger}
    {R : β → Execution → Ledger → Prop} {E : Execution → Ledger → Prop} (hx : Keeps owner I x)
    (hE : ∀ {s ledger}, I s ledger → E s ledger) (h : I s ledger)
    (hf : ∀ a s' ledger', I s' ledger' → Ends owner R E (f a) s' ledger') :
    Ends owner R E (x >>= f) s ledger :=
  .bind (.mono (hx s ledger h) (fun _ _ _ h => h) fun _ _ => hE) hf

theorem Keeps.option {f : α → CoordinatorM PUnit} (hf : ∀ a, Keeps owner I (f a)) :
    ∀ x : Option α, Keeps owner I (x.forM f)
  | none => .pure
  | some a => hf a

/-- A call that the ledger does not record. -/
theorem Keeps.ask {call : RuntimeCall} (hallowed : ∀ ledger : Ledger, ledger.Allows owner call)
    (hquiet : ∀ (ledger : Ledger) answer, ledger.observe ⟨call, answer⟩ = ledger) :
    Keeps owner I call.ask := by
  intro s ledger h
  refine .ask (hallowed ledger) ?_
  rintro answer _ rfl
  rw [hquiet]
  exact h

/-- Publishing keeps an invariant of what is published. -/
theorem publish_keeps (hpublished : ∀ {s ledger run}, I s ledger →
    I s { ledger with published := run }) : Keeps owner I publish := by
  intro s ledger h
  refine .bind_get (Ends.bind_call (.publish s.run) trivial fun _ => ?_)
  exact .unwrap (hpublished h) fun _ _ => hpublished h

theorem evaluate_keeps {δ : Type} {into : δ → CoordinatorError} {x : Returns δ α} :
    Keeps owner I (evaluate into x) :=
  .bind .unwrap fun _ => .lift

theorem runState_keeps : Keeps owner I (runState action) := .bind .get fun _ => .lift

/-- The state of an action is read off the run. -/
theorem runState_ends {E : Execution → Ledger → Prop} {s : Execution} {ledger : Ledger}
    (h : E s ledger) :
    Ends owner (fun state s' ledger' => s' = s ∧ ledger' = ledger ∧ s.run.state action = .ok state)
      E (runState action) s ledger :=
  .bind_get (.lift h fun _ hstate => ⟨rfl, rfl, hstate⟩)

theorem publish_ends {E : Execution → Ledger → Prop} {s : Execution} {ledger : Ledger}
    (h : E s { ledger with published := some s.run }) :
    Ends owner (fun _ s' ledger' => s' = s ∧ ledger' = { ledger with published := some s.run })
      E publish s ledger :=
  .bind_get (Ends.bind_call (.publish s.run) trivial fun _ => .unwrap h fun _ _ => ⟨rfl, rfl⟩)

theorem checkReviewedPlan_keeps : Keeps owner I (checkReviewedPlan texts) :=
  .bind .get fun _ => .bind evaluate_keeps fun _ => .reject

theorem probe_keeps : Keeps owner I probe := by
  refine .bind (.ask (fun _ => trivial) fun _ _ => rfl) ?_
  rintro (⟨⟨⟩ | ⟨⟩⟩ | observed)
  all_goals first | exact .throw | exact .pure

theorem leaseFromLock_keeps : Keeps owner I (leaseFromLock action) := by
  refine .bind .get fun execution => .bind .lift fun _ => .bind .reject fun _ => ?_
  split
  · exact .fail
  · exact .pure

variable (hI : Stable I)
include hI

theorem tryRun_keeps {operation : ExecutionRun.RunM α} (hop : IsOperation operation) :
    Keeps owner I (tryRun operation) := by
  intro s ledger h
  refine .bind_get ?_
  split
  · exact h
  · next hcall => exact hI.called h (hop.called hcall)

/-- A run operation keeps a stable invariant. -/
theorem onRun_keeps {operation : ExecutionRun.RunM α} (hop : IsOperation operation) :
    Keeps owner I (onRun operation) :=
  .bind (tryRun_keeps hI hop) fun _ => .lift

omit hI in

/-- How a run operation ends. -/
theorem onRun_ends {operation : ExecutionRun.RunM α} {Q : α → Execution → Ledger → Prop}
    {E : Execution → Ledger → Prop} {s : Execution} {ledger : Ledger} (hpanic : E s ledger)
    (herror : ∀ error run, Stateful.call operation s.run = some (.error error, run) →
      E { s with run } ledger)
    (hok : ∀ value run, Stateful.call operation s.run = some (.ok value, run) →
      Q value { s with run } ledger) :
    Ends owner Q E (onRun operation) s ledger := by
  have htry : Ends owner (fun result s ledger => match result with
      | .ok value => Q value s ledger
      | .error _ => E s ledger) E (tryRun operation) s ledger := by
    refine .bind_get ?_
    split
    · exact hpanic
    · next result run hcall =>
      cases result with
      | error error => exact herror error run hcall
      | ok value => exact hok value run hcall
  refine .bind htry fun result s ledger h => ?_
  cases result with
  | error error => exact h
  | ok value => exact h

theorem orUnknown_keeps {x : Except CoordinatorError α} :
    Keeps owner I (orUnknown texts action x) := by
  cases x with
  | ok value => exact .pure
  | error error => exact .bind (onRun_keeps hI (.body (.markOutcomeUnknown _ _))) fun _ => .fail

theorem enterChecking_keeps : Keeps owner I (enterChecking action) := by
  refine .bind runState_keeps fun state => ?_
  cases state with
  | waiting => exact onRun_keeps hI (.body (.beginCheck _))
  | checking => exact .pure
  | _ => exact .fail

/-- The resolved action is what was resolved, or an error. -/
theorem requireEndpoint_ends {resolved : Option ResolvedAction} {s : Execution} {ledger : Ledger}
    (h : I s ledger) :
    Ends owner (fun value s ledger => I s ledger ∧ resolved = some value) I
      (requireEndpoint action resolved) s ledger := by
  cases resolved with
  | some resolved => exact ⟨h, rfl⟩
  | none =>
      exact .bind (onRun_keeps hI (.body (.markPreDispatchFailed _ _)) s ledger h)
        fun _ _ _ h => .fail h

theorem reportProgress_keeps {detail : String} : Keeps owner I (reportProgress action detail) := by
  refine .bind (tryRun_keeps hI (.body (.recordProgress _ _))) fun result => ?_
  cases result with
  | error error => exact .pure
  | ok value => exact publish_keeps hI.published

/-- A completion keeps a stable invariant. -/
theorem complete_keeps {resolved : ResolvedAction} {receipt : ExecutionReceipt} :
    Keeps owner I (complete texts action resolved receipt) :=
  .bind probe_keeps fun _ => .bind (orUnknown_keeps hI) fun _ =>
    .bind (orUnknown_keeps hI) fun _ => .bind .get fun _ =>
      .bind (tryRun_keeps hI (.body (.recordCompletion _))) fun _ => orUnknown_keeps hI

/-- A verification keeps a stable invariant. -/
theorem verify_keeps {resolved : ResolvedAction} {before : LiveObservation}
    {receipt : ExecutionReceipt} : Keeps owner I (verify texts action resolved before receipt) := by
  refine .bind runState_keeps fun state => ?_
  cases state with
  | verifying =>
      exact .bind .get fun _ => .bind .unwrap fun _ => .bind (orUnknown_keeps hI) fun _ =>
        .bind (onRun_keeps hI (.verification _)) fun _ => .pure
  | _ => exact .pure

end Keeps

/-! ### An attempt, from its admission to its end -/

section Attempt

variable {keys : ContractKeys} {owner plan : Uuid} {texts : CoordinatorText} {action : ActionId}
  {s : Execution} {ledger : Ledger} {attempt : ActiveAttempt} {resolved : ResolvedAction}

/-- Looking for an attempt needs the lock. -/
theorem requireNoAttempt_keeps {I : Execution → Ledger → Prop} {store : CheckpointStore}
    (hlocked : ∀ s ledger, I s ledger → ledger.locked = true) :
    Keeps owner I (requireNoAttempt store) := by
  intro s ledger h
  refine Ends.bind_call (.inspect store) (hlocked s ledger h) fun answer => ?_
  exact .bind (Keeps.returned s ledger h) fun _ s ledger h => .bind_reject (fun _ => h) fun _ => h

/-- An accepted endpoint is for the action. -/
theorem checkEndpoint_ends {I : Execution → Ledger → Prop} {observed : ProbedObservation}
    {decision : AdmissionDecision} (h : I s ledger) :
    Ends owner (fun _ s ledger => I s ledger ∧ resolved.actionId = action) I
      (checkEndpoint action observed decision resolved) s ledger := by
  refine .bind_get (.bind_reject (fun _ => h) fun hendpoint => ?_)
  rw [not_or, not_or, not_not, not_not] at hendpoint
  refine .bind_unwrap h fun planned _ => .bind_reject (fun _ => h) fun _ => ?_
  refine Ends.bind_call (.backendFor resolved.operation) trivial fun _ => ?_
  exact .bind_unwrap h fun _ _ => .reject (fun _ => h) fun _ => ⟨h, hendpoint.2.1⟩

/-- A decision has an endpoint for the action, or none. -/
theorem decideAdmission_ends {I : Execution → Ledger → Prop} {lease : ExecutionLease}
    (h : I s ledger) :
    Ends owner (fun result s ledger => I s ledger ∧ ∀ resolved, result.2.resolved = some resolved →
      resolved.actionId = action) I (decideAdmission action lease) s ledger := by
  refine .bind (probe_keeps s ledger h) fun _ s ledger h => .bind_lift h fun observed _ => ?_
  refine .bind_get (Ends.bind_call (.checkAdmission ..) trivial fun answer => ?_)
  refine .bind (Keeps.returned s ledger h) fun decision s ledger h => ?_
  cases hresolved : decision.resolved with
  | none => exact ⟨h, fun resolved hsome => absurd (hresolved.symm.trans hsome) nofun⟩
  | some resolved =>
      refine .bind (checkEndpoint_ends h) fun _ s ledger ⟨h, hid⟩ => ⟨h, fun other hother => ?_⟩
      rw [← Option.some_inj.mp (hresolved.symm.trans hother), hid]

/-- The attempt of an endpoint, as it is armed. -/
structure Prepares (owner plan : Uuid) (resolved : ResolvedAction) (attempt : ActiveAttempt) :
    Prop where
  runId : attempt.runId = owner
  planId : attempt.planId = plan
  actionId : attempt.actionId = resolved.actionId
  targets : attempt.targets = resolved.fingerprints
  backendId : attempt.backendId = resolved.backend

/-- Preparing arms the attempt. -/
theorem prepare_ends {store : CheckpointStore} {operation : Option OperationId}
    (h : At keys owner plan .ready s ledger) (hid : resolved.actionId = action) :
    Ends owner (fun result s ledger =>
        At keys owner plan { locked := true, halted := false, armed := some result.1 } s ledger ∧
          Prepares owner plan resolved result.1)
      (Sound keys owner true) (prepare texts store action operation resolved) s ledger := by
  have hstop : ∀ error s ledger, At keys owner plan .ready s ledger →
      Ends owner (fun result s ledger =>
        At keys owner plan { locked := true, halted := false, armed := some result.1 } s ledger ∧
          Prepares owner plan resolved result.1)
      (Sound keys owner true) (prepare.stop texts action error) s ledger := by
    intro error s ledger h
    exact .bind (onRun_keeps Sound.stable (.body (.markPreDispatchFailed _ _)) s ledger
      (At.ready_sound h)) fun _ _ _ h => .fail h
  have hsound : Sound keys owner true s ledger := At.ready_sound h
  refine .bind_get (.bind_unwrap hsound fun captured hcaptured => ?_)
  cases captured with
  | error error => exact hstop error s ledger h
  | ok attempt =>
      obtain ⟨hrun, hplan, haction, htargets, hbackend, -⟩ := ActiveAttempt.capture_eq hcaptured
      have hprepares : Prepares owner plan resolved attempt :=
        ⟨hrun.trans h.run, hplan.trans h.plan, haction.trans hid.symm, htargets, hbackend⟩
      refine Ends.bind_call (.arm store attempt) ⟨h.locked, h.armed⟩ ?_
      rintro ⟨(error | _) | _, store⟩
      · exact hstop error s ledger h
      · exact hsound
      · exact ⟨{ h with armed := rfl }, hprepares⟩

/-- Halting enters the halted phase. -/
theorem setHalted_ends {phase : Phase} {value : Bool} {E : Execution → Ledger → Prop}
    (h : At keys owner plan phase s ledger) :
    Ends owner (fun _ => At keys owner plan { phase with halted := value }) E (setHalted value) s
      ledger :=
  .modify (Q := fun _ => At keys owner plan { phase with halted := value }) { h with halted := rfl }

/-- The phase of an armed checkpoint. -/
abbrev armedPhase (attempt : ActiveAttempt) : Phase :=
  { locked := true, halted := true, armed := some attempt }

/-- The phase after the invocation. -/
abbrev invokedPhase (attempt : ActiveAttempt) (action : ActionId) : Phase :=
  { locked := true, halted := true, armed := some attempt, unsettled := some action }

/-- An accepted start: the action has never been invoked, and is running now. -/
theorem markDispatchStarted_ends (h : At keys owner plan (armedPhase attempt) s ledger) :
    Ends owner (fun _ s ledger => At keys owner plan (armedPhase attempt) s ledger ∧
        s.run.stateAt action.get = some .running ∧ action ∉ ledger.dispatched)
      (Sound keys owner true) (onRun (ExecutionRun.markDispatchStarted action)) s ledger := by
  refine onRun_ends (At.halted_sound h) (fun error run hcall => ?_) fun _ run hcall => ?_
  · exact At.halted_sound
      (At.stable.called h ((IsOperation.body (.markDispatchStarted action)).called hcall))
  · obtain ⟨hwas, hnow⟩ := ExecutionRun.markDispatchStarted_ok hcall
    refine ⟨At.stable.called h ((IsOperation.body (.markDispatchStarted action)).called hcall),
      hnow, fun hmem => ?_⟩
    obtain ⟨state, hstate, -, -, hpast⟩ := h.past action hmem
    exact hpast (Option.some_inj.mp (hstate.symm.trans hwas))

/-- The invocation is allowed, and from then on unsettled. -/
theorem dispatch_ends (h : At keys owner plan (armedPhase attempt) s ledger)
    (hprepares : Prepares owner plan resolved attempt) (hid : resolved.actionId = action)
    (hrunning : s.run.stateAt action.get = some .running) (hfirst : action ∉ ledger.dispatched) :
    Ends owner (fun _ => At keys owner plan (invokedPhase attempt action))
      (At keys owner plan (invokedPhase attempt action)) (dispatch texts action resolved) s
      ledger := by
  subst hid
  refine .bind_get (Ends.bind_call (.execute s.run resolved) ?_ fun answer => ?_)
  · refine ⟨h.run, hfirst, h.unsettled, h.locked, ⟨attempt, h.armed, ?_⟩, fun before hbefore => ?_⟩
    · exact ⟨hprepares.runId.trans h.run.symm, hprepares.planId.trans h.plan.symm,
        hprepares.actionId, hprepares.targets, hprepares.backendId⟩
    · exact h.reachable.serial.ancestors_verified hbefore hrunning nofun
  · have hat : At keys owner plan (invokedPhase attempt resolved.actionId) s
        (ledger.observe ⟨.execute s.run resolved, answer⟩) := { h with
      unsettled := rfl
      past := by
        intro id hmem
        rcases List.mem_cons.mp hmem with rfl | hmem
        · exact ⟨_, hrunning, nofun, nofun, nofun⟩
        · exact h.past id hmem }
    refine .bind (.forM (fun _ s ledger h => reportProgress_keeps At.stable s ledger h) _ hat)
      fun _ s ledger hat => ?_
    match answer.2 with
    | .ok receipt => exact hat
    | .error .panic => exact hat
    | .error (.error error) => exact hat

/-- Updating the bindings keeps what does not depend on them. -/
theorem updateBindings_keeps {I : Execution → Ledger → Prop}
    (hbound : ∀ {s : Execution} {ledger bindings}, I s ledger →
      I { s with coordinator := { s.coordinator with bindings } } ledger)
    {update : OutputBindings → ExecutionRun → Returns BindingError OutputBindings} :
    Keeps owner I (updateBindings update) := by
  refine .bind .get fun _ => .bind evaluate_keeps fun bindings => ?_
  intro s ledger h
  exact hbound h

/-- Recording outputs keeps what does not depend on the bindings. -/
theorem recordOutputs_keeps {I : Execution → Ledger → Prop}
    (hbound : ∀ {s : Execution} {ledger bindings}, I s ledger →
      I { s with coordinator := { s.coordinator with bindings } } ledger)
    {pending : Option PendingLvBinding × Option PendingFilesystemBinding} :
    Keeps owner I (recordOutputs action resolved pending) := by
  refine .bind (.option (fun _ => updateBindings_keeps hbound) _) fun _ => ?_
  refine .bind (.option (fun _ => updateBindings_keeps hbound) _) fun _ => ?_
  split
  · exact updateBindings_keeps hbound
  · exact .pure

/-- A clear is allowed for the armed attempt of a verified action; acknowledged, it settles the
invocation. -/
theorem clear_ends {store : CheckpointStore} {run : ExecutionRun}
    (h : At keys owner plan (invokedPhase attempt action) s { ledger with published := some run })
    (hverified : attempt.VerifiedIn run) (hid : attempt.actionId = action) :
    Ends owner (fun _ => At keys owner plan { locked := true, halted := true })
      (Sound keys owner true) (clear store attempt) s
      { ledger with published := some run } := by
  have hunsettled : ledger.unsettled = some attempt.actionId := hid ▸ h.unsettled
  have hfailed : At keys owner plan { locked := true, halted := true, unsettled := some action } s
      { ledger with published := some run, armed := none } := { h with armed := rfl }
  refine Ends.bind_call (.clear store attempt) ⟨h.locked, h.armed, run, rfl, hverified⟩ ?_
  rintro ⟨(error | _) | _, _⟩
  · exact At.halted_sound hfailed
  · exact At.halted_sound hfailed
  · have hsettled : At keys owner plan { locked := true, halted := true } s
        { ledger with published := some run, armed := none, unsettled := none } :=
      { h with armed := rfl, unsettled := rfl }
    have hledger : ({ ledger with published := some run } : Ledger).observe
        ⟨.clear store attempt, (.ok (), store)⟩ =
        { ledger with published := some run, armed := none, unsettled := none } := by
      simp [Ledger.observe, hunsettled, hverified]
    exact hledger ▸ hsettled

/-- A verified action is published as such, and then cleared; the latch is released only by an
acknowledged clear. -/
theorem settle_ends {store : CheckpointStore}
    {pending : Option PendingLvBinding × Option PendingFilesystemBinding}
    (h : At keys owner plan (invokedPhase attempt action) s ledger)
    (hrun : attempt.runId = owner) (hid : attempt.actionId = action) :
    Ends owner (fun _ => Sound keys owner true) (Sound keys owner true)
      (settle action resolved pending attempt store) s ledger := by
  refine .bind (runState_ends (At.halted_sound h)) ?_
  rintro state _ _ ⟨rfl, rfl, hstate⟩
  cases state with
  | verified =>
      -- From here on nothing moves an action.
      refine .bind (.mono (recordOutputs_keeps
        (I := fun s ledger => At keys owner plan (invokedPhase attempt action) s ledger ∧
          s.run.state action = .ok .verified)
        (fun h => ⟨At.stable.bound h.1, h.2⟩) _ _ ⟨h, hstate⟩) (fun _ _ _ h => h)
        fun _ _ h => At.halted_sound h.1) ?_
      rintro _ s ledger ⟨h, hstate⟩
      have hpublished : At keys owner plan (invokedPhase attempt action) s
          { ledger with published := some s.run } := At.stable.published h
      refine .bind (publish_ends (At.halted_sound hpublished)) ?_
      rintro _ s' _ ⟨rfl, rfl⟩
      have hverified : attempt.VerifiedIn s'.run := ⟨h.run.trans hrun.symm, hid ▸ hstate⟩
      refine .bind (clear_ends hpublished hverified hid) fun _ s ledger h => ?_
      have hready : At keys owner plan .ready
          { s with coordinator := { s.coordinator with halted := false } } ledger :=
        { h with halted := rfl }
      exact At.ready_sound hready
  | _ => exact At.halted_sound h

/-- From the armed checkpoint to the end of the attempt. -/
theorem invoke_ends {store : CheckpointStore} {before : LiveObservation}
    (h : At keys owner plan { locked := true, halted := false, armed := some attempt } s ledger)
    (hprepares : Prepares owner plan resolved attempt) (hid : resolved.actionId = action) :
    Ends owner (fun _ => Sound keys owner true) (Sound keys owner true)
      (invoke texts action resolved before attempt store) s ledger := by
  refine .bind (setHalted_ends h) fun _ s ledger h => ?_
  refine (publish_keeps At.stable.published).then At.halted_sound h fun _ s ledger h => ?_
  refine .bind (markDispatchStarted_ends h) ?_
  rintro _ s ledger ⟨h, hrunning, hfirst⟩
  refine .bind (publish_ends (At.halted_sound (At.stable.published h))) ?_
  rintro _ s _ ⟨rfl, rfl⟩
  refine .bind (.mono (dispatch_ends (At.stable.published h) hprepares hid hrunning hfirst)
    (fun _ _ _ h => h) fun _ _ => At.halted_sound) fun receipt s ledger h => ?_
  refine (complete_keeps At.stable).then At.halted_sound h fun _ s ledger h => ?_
  refine (publish_keeps At.stable.published).then At.halted_sound h fun _ s ledger h => ?_
  refine (verify_keeps At.stable).then At.halted_sound h fun pending s ledger h => ?_
  exact settle_ends h hprepares.runId (hprepares.actionId.trans hid)

/-- The part of an action under its lease: nothing is invoked without an armed checkpoint. -/
theorem executeLeased_ends {operation : Option OperationId} {lease : ExecutionLease}
    (h : At keys owner plan .ready s ledger) :
    Ends owner (fun _ => Sound keys owner true) (Sound keys owner true)
      (executeLeased texts action operation lease) s ledger := by
  refine (requireNoAttempt_keeps fun _ _ h => h.locked).then At.ready_sound h
    fun store s ledger h => ?_
  refine .bind (.mono (decideAdmission_ends h) (fun _ _ _ h => h) fun _ _ => At.ready_sound) ?_
  rintro ⟨observed, decision⟩ s ledger ⟨h, hid⟩
  refine (onRun_keeps At.stable (.admission _)).then At.ready_sound h fun admitted s ledger h => ?_
  refine (publish_keeps At.stable.published).then At.ready_sound h fun _ s ledger h => ?_
  split
  · refine .bind (.mono (requireEndpoint_ends At.stable h) (fun _ _ _ h => h)
      fun _ _ => At.ready_sound) ?_
    rintro resolved s ledger ⟨h, hresolved⟩
    refine .bind (prepare_ends h (hid resolved hresolved)) ?_
    rintro ⟨attempt, store⟩ s ledger ⟨h, hprepares⟩
    exact invoke_ends h hprepares (hid resolved hresolved)
  · exact runState_keeps s ledger (At.ready_sound h)

/-- A method of the owner goes on only when nothing is armed and nothing is unsettled. -/
theorem requireOwner_ends {locked : Bool} (h : Sound keys owner locked s ledger) :
    Ends owner (fun _ s ledger => ∃ plan, At keys owner plan { locked, halted := false } s ledger)
      (Sound keys owner locked) requireOwner s ledger := by
  refine .bind_get (.bind_reject (fun _ => h) fun _ => .reject (fun _ => h) fun hrunning => ?_)
  exact h.running (Bool.not_eq_true _ ▸ hrunning)

/-- The lock is released however the body ends. -/
theorem withHostLock_ends {α : Type} {body : CoordinatorM α}
    (h : At keys owner plan { locked := false, halted := false } s ledger)
    (hbody : ∀ s ledger, At keys owner plan .ready s ledger →
      Ends owner (fun _ => Sound keys owner true) (Sound keys owner true) body s ledger) :
    Ends owner (fun _ => Sound keys owner false) (Sound keys owner false) (withHostLock body) s
      ledger := by
  have hrelease : ∀ s ledger, Sound keys owner true s ledger →
      Program.Safe (Ledger.Allows owner)
        (fun ledger call answer ledger' => ledger' = ledger.observe ⟨call, answer⟩)
        (fun _ ledger => Sound keys owner false s ledger) (Program.ask RuntimeCall.releaseLock)
        ledger := by
    rintro s ledger ⟨plan, phase, hat, hlocked, hlatch⟩
    refine .ask (hat.locked.trans hlocked) ?_
    rintro _ _ rfl
    exact ⟨plan, { phase with locked := false }, { hat with locked := rfl }, rfl, hlatch⟩
  refine Ends.bind_call .tryLockHost ⟨h.locked, h.armed⟩ ?_
  rintro ((error | _) | _)
  · exact At.ready_sound h
  · exact At.ready_sound h
  · refine .bind (.pure (Q := fun _ => At keys owner plan .ready) { h with locked := rfl })
      fun _ s ledger h => ?_
    exact .ensuring (hbody s ledger h) (fun _ s ledger h => hrelease s ledger h) hrelease

/-- The lease of an action, on the run's lock or on its own. -/
theorem withLease_ends {α : Type} {body : ExecutionLease → CoordinatorM α} {locked : Bool}
    (h : At keys owner plan { locked, halted := false } s ledger)
    (hbody : ∀ lease s ledger, At keys owner plan .ready s ledger →
      Ends owner (fun _ => Sound keys owner true) (Sound keys owner true) (body lease) s ledger) :
    Ends owner (fun _ => Sound keys owner locked) (Sound keys owner locked)
      (withLease locked action body) s ledger := by
  cases locked with
  | true =>
      refine Ends.bind_call .tryCloneLock h.locked fun answer => ?_
      refine Keeps.returned.then At.ready_sound h fun _ s ledger h => ?_
      exact leaseFromLock_keeps.then At.ready_sound h fun lease s ledger h => hbody lease s ledger h
  | false =>
      refine .bind_get (.bind_lift (At.ready_sound h) fun _ _ => ?_)
      refine .bind_reject (fun _ => At.ready_sound h) fun _ => ?_
      refine withHostLock_ends h fun s ledger h => ?_
      exact leaseFromLock_keeps.then At.ready_sound h fun lease s ledger h => hbody lease s ledger h

/-- **One action.**  Whatever is answered, only allowed calls are made. -/
theorem executeActionLocked_keeps {operation : Option OperationId} {locked : Bool} :
    Keeps owner (Sound keys owner locked) (executeActionLocked texts action operation locked) := by
  intro s ledger h
  refine .bind (requireOwner_ends h) fun _ s ledger ⟨plan, h⟩ => ?_
  refine checkReviewedPlan_keeps.then At.ready_sound h fun _ s ledger h => ?_
  refine (enterChecking_keeps At.stable).then At.ready_sound h fun _ s ledger h => ?_
  refine (publish_keeps At.stable.published).then At.ready_sound h fun _ s ledger h => ?_
  exact withLease_ends h fun lease s ledger h => executeLeased_ends h

/-- The actions in order keep the session sound. -/
theorem executeOrdered_keeps : ∀ ordered : List ActionId,
    Keeps owner (Sound keys owner true) (executeOrdered texts ordered)
  | [] => .pure
  | action :: rest => by
      have hnext : Keeps owner (Sound keys owner true) (do
          let state ← executeActionLocked texts action none true
          publish
          if state = .verified then executeOrdered texts rest else return some action) := by
        refine .bind executeActionLocked_keeps fun state => ?_
        refine .bind (publish_keeps Sound.stable.published) fun _ => ?_
        split
        · exact executeOrdered_keeps rest
        · exact .pure
      refine .bind runState_keeps fun state => ?_
      cases state with
      | verified => exact executeOrdered_keeps rest
      | waiting => exact hnext
      | checking => exact hnext
      | _ => exact .fail

/-- The final verification keeps the session sound. -/
theorem verifyFinally_keeps {store : CheckpointStore} :
    Keeps owner (Sound keys owner true) (verifyFinally store) := by
  refine .bind probe_keeps fun _ => .bind .lift fun observed => .bind .get fun execution => ?_
  refine .bind (.ask (fun _ => trivial) fun _ _ => rfl) fun _ => .bind .returned fun report => ?_
  refine .bind .get fun _ => .bind .reject fun _ => ?_
  refine .bind (requireNoAttempt_keeps fun _ _ ⟨_, _, h, hlocked, _⟩ => h.locked.trans hlocked) ?_
  exact fun _ => .bind (onRun_keeps Sound.stable (.goal _)) fun _ => .pure

theorem summary_keeps {I : Execution → Ledger → Prop} {stopped : Option ActionId} :
    Keeps owner I (summary stopped) :=
  .bind .get fun _ => .pure

/-- A run under the lock keeps the session sound. -/
theorem executeRunLocked_keeps :
    Keeps owner (Sound keys owner true) (executeRunLocked texts) := by
  refine .bind (requireNoAttempt_keeps fun _ _ ⟨_, _, h, hlocked, _⟩ => h.locked.trans hlocked) ?_
  intro store
  refine .bind probe_keeps fun _ => .bind .lift fun initial => .bind .get fun execution => ?_
  refine .bind (.ask (fun _ => trivial) fun _ _ => rfl) fun _ => .bind .returned fun _ => ?_
  refine .bind .reject fun _ => .bind .get fun _ => .bind .unwrap fun ordered => ?_
  refine .bind (executeOrdered_keeps _) fun stopped => ?_
  cases stopped with
  | some action => exact summary_keeps
  | none => exact .bind verifyFinally_keeps fun _ => summary_keeps

/-- **One run.** -/
theorem executeRunWithUpdates_keeps :
    Keeps owner (Sound keys owner false) (executeRunWithUpdates texts) := by
  have hinner : Keeps owner (Sound keys owner false) (executeRunInner texts) := by
    intro s ledger h
    refine .bind (requireOwner_ends h) fun _ s ledger ⟨plan, h⟩ => ?_
    refine .bind_get (.bind_reject (fun _ => At.ready_sound h) fun _ => ?_)
    refine checkReviewedPlan_keeps.then At.ready_sound h fun _ s ledger h => ?_
    exact withHostLock_ends h fun s ledger h => executeRunLocked_keeps s ledger (At.ready_sound h)
  have hpublish : Keeps owner (Sound keys owner false) publish :=
    publish_keeps Sound.stable.published
  refine .bind hpublish fun _ => .bind ?_ fun _ => .bind hpublish fun _ => .pure
  intro s ledger h
  refine .tryCatch (hinner s ledger h) fun failure s ledger h => ?_
  cases failure with
  | panic => exact h
  | error error => exact .bind (hpublish s ledger h) fun _ _ _ h => .fail h

end Attempt

end CoordinatorM

end DisksGraph
