import DisksGraph.Engine.Execution

/-!
# Engine — Lifecycle

What the nine operations of a run can do, said once.

* `Step run run'`: one constructor for each way an operation succeeds, with the guards it has passed
  and the run it leaves behind, as a function of the run before.
* `RunOperation.atomic`: on a well-formed run every call takes a `Step`, or fails and changes
  nothing; it never panics.
* `Reachable`: the runs that any sequence of calls can produce.
-/

namespace DisksGraph

open Support (Returns Stateful)
open Support.Stateful (Atomic Completes Guards)

namespace ExecutionRun

/-! ### Pure updates -/

/-- Publishes one event. -/
def publish (run : ExecutionRun) (kind : RunEventKind) : ExecutionRun :=
  { run with
    events := Support.pushBounded MAX_RUN_EVENTS run.events
      ⟨run.runId, run.nextEventSequence, kind⟩
    nextEventSequence := run.nextEventSequence + 1 }

/-- Changes the record of one action. -/
def amend (run : ExecutionRun) (id : ActionId) (update : ActionRun → ActionRun) : ExecutionRun :=
  { run with actions := run.actions.modify id.get update }

/-- Retains an observation as the latest one. -/
def observe (run : ExecutionRun) (observation : LiveObservation) : ExecutionRun :=
  { run with latestObservation := some observation }

/-- Moves one action to a state and publishes it. -/
def enter (run : ExecutionRun) (id : ActionId) (state : ActionRunState) : ExecutionRun :=
  (run.amend id fun record => { record with state }).publish (.actionState id state)

/-- Retains an admission report and publishes its verdict. -/
def retainAdmission (run : ExecutionRun) (report : AdmissionReport) : ExecutionRun :=
  ((run.observe report.observation).amend report.action fun record =>
    { record with admission := some report }).publish
      (.admission report.action (admissionState report = .admitted))

/-- `observation` is newer than the latest one and well formed. -/
structure Fresh (run : ExecutionRun) (observation : LiveObservation) : Prop where
  notStale : isStale run.latestObservation observation.reference = false
  valid : observation.validate = .ok ()

/-- The frozen contract of an action. -/
def contractOf (run : ExecutionRun) (id : ActionId) : Option ActionContract :=
  (run.plan.actions[id.get]?).map (·.informationalContract)

/-! ### Steps -/

/-- One successful operation. -/
inductive Step (run : ExecutionRun) : ExecutionRun → Prop where
  | beginCheck {id : ActionId} {record : ActionRun}
      (hrecord : run.actions[id.get]? = some record)
      (hstate : record.state = .waiting)
      (hstopped : ∀ other ∈ run.actions, other.state.isStopped = false)
      (hbefore : ∀ edge ∈ run.plan.dependencies, edge.after = id →
        ∃ before, run.actions[edge.before.get]? = some before ∧ before.state = .verified)
      (hactive : ∀ other ∈ run.actions, other.state.isActive = false)
      (hroom : run.nextEventSequence + 1 < u64Bound) :
      Step run (run.enter id .checking)
  | undecided {report : AdmissionReport} {record : ActionRun}
      (hrecord : run.actions[report.action.get]? = some record)
      (hstate : record.state = .checking)
      (hfresh : run.Fresh report.observation)
      (hverdict : admissionState report = .checking)
      (hroom : run.nextEventSequence + 1 < u64Bound) :
      Step run (run.retainAdmission report)
  | decided {report : AdmissionReport} {record : ActionRun} {contract : ActionContract}
      (hrecord : run.actions[report.action.get]? = some record)
      (hstate : record.state = .checking)
      (hfresh : run.Fresh report.observation)
      (hcontract : run.contractOf report.action = some contract)
      (hcover : checksCover contract.prerequisites report.checks = true)
      (hheld : ∀ required ∈ contract.affectedResources, holds report.heldResources required = true)
      (hverdict : admissionState report ≠ .checking)
      (hroom : run.nextEventSequence + 2 < u64Bound) :
      Step run ((run.retainAdmission report).enter report.action (admissionState report))
  | dispatch {id : ActionId} {record : ActionRun}
      (hrecord : run.actions[id.get]? = some record)
      (hstate : record.state = .admitted)
      (hroom : run.nextEventSequence + 1 < u64Bound) :
      Step run (run.enter id .running)
  | preDispatchFailed {id : ActionId} {record : ActionRun} {reason : String}
      (hrecord : run.actions[id.get]? = some record)
      (hstate : record.state = .admitted)
      (hroom : run.nextEventSequence + 1 < u64Bound) :
      Step run ((run.amend id fun record =>
        { record with preDispatchFailure := some reason }).enter id .failed)
  | complete {completion : BackendCompletion} {record : ActionRun}
      (hrecord : run.actions[completion.action.get]? = some record)
      (hstate : record.state = .running)
      (hfresh : run.Fresh completion.observation)
      (hroom : run.nextEventSequence + 1 < u64Bound) :
      Step run (((run.observe completion.observation).amend completion.action fun record =>
        { record with completion := some completion }).enter completion.action
          (outcomeState completion.outcome))
  | verify {report : VerificationReport} {record : ActionRun} {contract : ActionContract}
      (hrecord : run.actions[report.action.get]? = some record)
      (hstate : record.state = .verifying)
      (hobservation : (record.completion.map fun completion => completion.observation.reference)
        = some report.observation)
      (hcontract : run.contractOf report.action = some contract)
      (hcover : checksCover contract.postconditions report.checks = true)
      (hroom : run.nextEventSequence + 1 < u64Bound) :
      Step run ((run.amend report.action fun record =>
        { record with verification := some report }).enter report.action
          (verificationState report))
  | outcomeUnknown {id : ActionId} {record : ActionRun} {reason : String}
      (hrecord : run.actions[id.get]? = some record)
      (hstate : record.state = .running ∨ record.state = .verifying)
      (hroom : run.nextEventSequence + 1 < u64Bound) :
      Step run ((run.amend id fun record =>
        { record with unknownReason := some reason }).enter id .outcomeUnknown)
  | progress {id : ActionId} {record : ActionRun} {detail : String}
      (hrecord : run.actions[id.get]? = some record)
      (hstate : record.state = .running)
      (hroom : run.nextEventSequence + 1 < u64Bound) :
      Step run (run.publish (.progress id detail))
  | goal {report : GoalVerificationReport}
      (hverified : ∀ record ∈ run.actions, record.state = .verified)
      (hfresh : run.Fresh report.observation)
      (hcover : checksCover run.goalAspects report.checks = true)
      (hroom : run.nextEventSequence + 1 < u64Bound) :
      Step run (({ run.observe report.observation with goalVerification := some report }).publish
        (.goalVerification report.succeeded))

/-! ### Well-formed runs -/

/-- One record per planned action, and an event counter in range. -/
structure WellFormed (run : ExecutionRun) : Prop where
  records : run.actions.length = run.plan.actions.length
  positive : 0 < run.nextEventSequence
  bounded : run.nextEventSequence < u64Bound

/-! ### Guards -/

section Guards

variable {run : ExecutionRun} {id : ActionId}

theorem action_guards : Guards (action id) run fun record => run.actions[id.get]? = some record := by
  refine Atomic.bind_get ?_
  cases h : run.actions[id.get]? with
  | none => exact .of_throw _
  | some record => exact Guards.of_pure rfl

/-- `require_state` refuses an action in another state. -/
theorem requireState_guards {expected : ActionRunState} :
    Guards (requireState id expected) run fun _ =>
      ∃ record, run.actions[id.get]? = some record ∧ record.state = expected := by
  refine Guards.bind action_guards fun record hrecord => ?_
  refine Atomic.mono Guards.of_reject ?_
  rintro _ _ ⟨rfl, hstate⟩
  exact ⟨rfl, record, hrecord, not_not.mp hstate⟩

theorem checkReportIdentity_guards {runId : Uuid} :
    Guards (checkReportIdentity runId) run fun _ => runId = run.runId := by
  refine Atomic.bind_get (Atomic.mono Guards.of_reject ?_)
  rintro _ _ ⟨rfl, h⟩
  exact ⟨rfl, not_not.mp h⟩

/-- An observation that is not newer is refused. -/
theorem checkFreshObservation_guards {observation : LiveObservation} :
    Guards (checkFreshObservation observation) run fun _ => run.Fresh observation := by
  refine Atomic.bind_get (Guards.bind Guards.of_reject fun _ hstale => ?_)
  cases h : observation.validate with
  | error error => exact .of_throw _
  | ok value => exact Guards.of_pure ⟨Bool.not_eq_true _ ▸ hstale, h⟩

/-- A run that cannot number its events is refused. -/
theorem ensureEventCapacity_guards {count : Nat} :
    Guards (ensureEventCapacity count) run fun _ => run.nextEventSequence + count < u64Bound := by
  refine Atomic.bind_get ?_
  rw [checkedAdd]
  by_cases h : run.nextEventSequence + count < u64Bound
  · rw [if_pos h]
    exact Guards.of_pure h
  · rw [if_neg h]
    exact .of_throw _

theorem contract_guards (hlt : id.get < run.plan.actions.length) :
    Guards (contract id) run fun contract => run.contractOf id = some contract := by
  refine Atomic.bind_get ?_
  rw [List.getElem?_eq_getElem hlt]
  exact Guards.of_pure (by rw [contractOf, List.getElem?_eq_getElem hlt, Option.map_some])

/-- A predecessor that is not verified is refused. -/
theorem checkPredecessor_guards {edge : ActionDependency} :
    Guards (checkPredecessor id edge) run fun _ => edge.after = id →
      ∃ before, run.actions[edge.before.get]? = some before ∧ before.state = .verified := by
  by_cases h : edge.after = id
  · rw [checkPredecessor, if_pos h]
    refine Guards.bind action_guards fun before hbefore => ?_
    refine Atomic.mono Guards.of_reject ?_
    rintro _ _ ⟨rfl, hstate⟩
    exact ⟨rfl, fun _ => ⟨before, hbefore, not_not.mp hstate⟩⟩
  · rw [checkPredecessor, if_neg h]
    exact Guards.of_pure fun h' => absurd h' h

end Guards

/-! ### Commits -/

section Commits

variable {run : ExecutionRun} {id : ActionId}

/-- With room for the events nothing changes. -/
theorem ensureEventCapacity_completes {count : Nat}
    (hroom : run.nextEventSequence + count < u64Bound) :
    Completes (ensureEventCapacity count) run fun _ run' => run' = run := by
  refine Completes.bind_get ?_
  rw [checkedAdd, if_pos hroom]
  exact .of_pure rfl

/-- A known action is amended. -/
theorem updateAction_completes {update : ActionRun → ActionRun}
    (hlt : id.get < run.actions.length) :
    Completes (updateAction id update) run fun _ run' => run' = run.amend id update := by
  refine Completes.bind_get ?_
  rw [if_pos hlt]
  exact .of_set rfl

/-- With room for it the event is published. -/
theorem pushEvent_completes {kind : RunEventKind} (hroom : run.nextEventSequence + 1 < u64Bound) :
    Completes (pushEvent kind) run fun _ run' => run' = run.publish kind := by
  refine Completes.bind (ensureEventCapacity_completes hroom) ?_
  rintro _ _ rfl
  refine Completes.bind_get ?_
  rw [checkedAdd, if_pos hroom]
  exact .of_set rfl

/-- A known action enters the state and the change is published. -/
theorem setState_completes {state : ActionRunState} (hlt : id.get < run.actions.length)
    (hroom : run.nextEventSequence + 1 < u64Bound) :
    Completes (setState id state) run fun _ run' => run' = run.enter id state := by
  refine Completes.bind (ensureEventCapacity_completes hroom) ?_
  rintro _ _ rfl
  refine Completes.bind (updateAction_completes hlt) ?_
  rintro _ _ rfl
  exact pushEvent_completes hroom

/-- `setState` checks for room itself, so it is atomic on its own. -/
theorem setState_atomic {state : ActionRunState} (hlt : id.get < run.actions.length) :
    Atomic (setState id state) run fun _ run' =>
      run.nextEventSequence + 1 < u64Bound ∧ run' = run.enter id state := by
  refine Atomic.bind_guard ensureEventCapacity_guards fun _ hroom => ?_
  refine Completes.atomic ?_
  refine Completes.bind (updateAction_completes hlt) ?_
  rintro _ _ rfl
  refine Completes.mono (pushEvent_completes ?_) ?_
  · exact hroom
  · rintro _ _ rfl
    exact ⟨hroom, rfl⟩

/-- Amending the record of an action and then moving it. -/
theorem amend_setState_completes {update : ActionRun → ActionRun} {state : ActionRunState}
    (hlt : id.get < run.actions.length) (hroom : run.nextEventSequence + 1 < u64Bound) :
    Completes (do updateAction id update; setState id state) run
      fun _ run' => run' = (run.amend id update).enter id state := by
  refine Completes.bind (updateAction_completes hlt) ?_
  rintro _ _ rfl
  exact setState_completes (by simpa [amend] using hlt) hroom

end Commits

theorem lt_of_record {run : ExecutionRun} {id : ActionId} {record : ActionRun}
    (h : run.actions[id.get]? = some record) : id.get < run.actions.length :=
  (List.getElem?_eq_some_iff.mp h).1

/-! ### The operations are steps -/

section Operations

variable {run : ExecutionRun}

theorem beginCheck_atomic (id : ActionId) : Atomic (beginCheck id) run fun _ => Step run := by
  refine Atomic.bind_guard requireState_guards ?_
  rintro _ ⟨record, hrecord, hstate⟩
  refine Atomic.bind_get ?_
  refine Atomic.bind_guard Guards.of_reject fun _ hstopped => ?_
  refine Atomic.bind_guard (Guards.of_forM fun _ _ => checkPredecessor_guards) fun _ hbefore => ?_
  refine Atomic.bind_guard Guards.of_reject fun _ hactive => ?_
  refine Atomic.mono (setState_atomic (lt_of_record hrecord)) ?_
  rintro _ _ ⟨hroom, rfl⟩
  simp only [List.any_eq_true, not_exists, not_and, Bool.not_eq_true] at hstopped hactive
  exact .beginCheck hrecord hstate hstopped hbefore hactive hroom

/-- `record_admission` takes a step or changes nothing. -/
theorem recordAdmission_atomic (hrun : run.WellFormed) (report : AdmissionReport) :
    Atomic (recordAdmission report) run fun _ => Step run := by
  refine Atomic.bind_guard requireState_guards ?_
  rintro _ ⟨record, hrecord, hstate⟩
  have hlt : report.action.get < run.actions.length := lt_of_record hrecord
  refine Atomic.bind_guard checkReportIdentity_guards fun _ _ => ?_
  refine Atomic.bind_guard checkFreshObservation_guards fun _ hfresh => ?_
  refine Atomic.bind_guard (contract_guards (hrun.records ▸ hlt)) fun contract hcontract => ?_
  refine Atomic.bind_guard Guards.of_reject fun _ hcover => ?_
  refine Atomic.bind_guard Guards.of_reject fun _ hheld => ?_
  refine Atomic.bind_guard ensureEventCapacity_guards fun _ hroom => ?_
  have hroom₁ : run.nextEventSequence + 1 < u64Bound := by split at hroom <;> omega
  -- From here on nothing fails: the capacity was checked for every event that follows.
  refine Completes.atomic (Completes.bind .of_modify ?_)
  rintro _ _ rfl
  refine Completes.bind (updateAction_completes hlt) ?_
  rintro _ _ rfl
  refine Completes.bind (pushEvent_completes hroom₁) ?_
  rintro _ _ rfl
  simp only [Bool.not_eq_true, Bool.not_eq_false'] at hcover
  simp only [List.any_eq_true, Bool.not_eq_true', not_exists, not_and, Bool.not_eq_false] at hheld
  by_cases hverdict : admissionState report = .checking
  · rw [recordAdmission.publishDecision, if_pos hverdict]
    exact .of_pure (.undecided hrecord hstate hfresh hverdict hroom₁)
  · rw [if_neg hverdict] at hroom
    rw [recordAdmission.publishDecision, if_neg hverdict]
    refine Completes.bind (@setState_completes (run.retainAdmission report) _ _ ?_ ?_) ?_
    · simpa [retainAdmission, amend, observe, publish] using hlt
    · simpa [retainAdmission, amend, observe, publish, Nat.add_assoc] using hroom
    · rintro _ _ rfl
      exact .of_pure (.decided hrecord hstate hfresh hcontract hcover hheld hverdict hroom)

theorem markDispatchStarted_atomic (id : ActionId) :
    Atomic (markDispatchStarted id) run fun _ => Step run := by
  refine Atomic.bind_guard requireState_guards ?_
  rintro _ ⟨record, hrecord, hstate⟩
  refine Atomic.mono (setState_atomic (lt_of_record hrecord)) ?_
  rintro _ _ ⟨hroom, rfl⟩
  exact .dispatch hrecord hstate hroom

/-- `mark_pre_dispatch_failed` takes a step or changes nothing. -/
theorem markPreDispatchFailed_atomic (id : ActionId) (reason : String) :
    Atomic (markPreDispatchFailed id reason) run fun _ => Step run := by
  refine Atomic.bind_guard requireState_guards ?_
  rintro _ ⟨record, hrecord, hstate⟩
  refine Atomic.bind_guard ensureEventCapacity_guards fun _ hroom => ?_
  refine Completes.atomic ((amend_setState_completes (lt_of_record hrecord) hroom).mono ?_)
  rintro _ _ rfl
  exact .preDispatchFailed hrecord hstate hroom

theorem recordCompletion_atomic (completion : BackendCompletion) :
    Atomic (recordCompletion completion) run fun _ => Step run := by
  refine Atomic.bind_guard requireState_guards ?_
  rintro _ ⟨record, hrecord, hstate⟩
  refine Atomic.bind_guard checkReportIdentity_guards fun _ _ => ?_
  refine Atomic.bind_guard checkFreshObservation_guards fun _ hfresh => ?_
  refine Atomic.bind_guard ensureEventCapacity_guards fun _ hroom => ?_
  refine Completes.atomic (Completes.bind .of_modify ?_)
  rintro _ _ rfl
  refine Completes.mono (@amend_setState_completes (run.observe completion.observation) _ _ _
    (lt_of_record hrecord) hroom) ?_
  rintro _ _ rfl
  exact .complete hrecord hstate hfresh hroom

/-- `record_verification` takes a step or changes nothing. -/
theorem recordVerification_atomic (hrun : run.WellFormed) (report : VerificationReport) :
    Atomic (recordVerification report) run fun _ => Step run := by
  refine Atomic.bind_guard requireState_guards ?_
  rintro _ ⟨record, hrecord, hstate⟩
  have hlt : report.action.get < run.actions.length := lt_of_record hrecord
  refine Atomic.bind_guard checkReportIdentity_guards fun _ _ => ?_
  refine Atomic.bind_guard action_guards fun found hfound => ?_
  obtain rfl : record = found := Option.some_inj.mp (hrecord.symm.trans hfound)
  refine Atomic.bind_guard Guards.of_reject fun _ hobservation => ?_
  refine Atomic.bind_guard (contract_guards (hrun.records ▸ hlt)) fun contract hcontract => ?_
  refine Atomic.bind_guard Guards.of_reject fun _ hcover => ?_
  refine Atomic.bind_guard ensureEventCapacity_guards fun _ hroom => ?_
  simp only [Bool.not_eq_true, Bool.not_eq_false'] at hcover
  refine Completes.atomic (Completes.bind (updateAction_completes hlt) ?_)
  rintro _ _ rfl
  refine Completes.bind (setState_completes ?_ ?_) ?_
  · simpa [amend] using hlt
  · exact hroom
  · rintro _ _ rfl
    exact .of_pure (.verify hrecord hstate (not_not.mp hobservation) hcontract hcover hroom)

/-- `mark_outcome_unknown` takes a step or changes nothing. -/
theorem markOutcomeUnknown_atomic (id : ActionId) (reason : String) :
    Atomic (markOutcomeUnknown id reason) run fun _ => Step run := by
  refine Atomic.bind_guard action_guards fun record hrecord => ?_
  refine Atomic.bind_guard Guards.of_reject fun _ hstate => ?_
  refine Atomic.bind_guard ensureEventCapacity_guards fun _ hroom => ?_
  refine Completes.atomic ((amend_setState_completes (lt_of_record hrecord) hroom).mono ?_)
  rintro _ _ rfl
  exact .outcomeUnknown hrecord (not_not.mp hstate) hroom

theorem recordProgress_atomic (id : ActionId) (detail : String) :
    Atomic (recordProgress id detail) run fun _ => Step run := by
  refine Atomic.bind_guard requireState_guards ?_
  rintro _ ⟨record, hrecord, hstate⟩
  refine Atomic.bind_guard Guards.of_reject fun _ _ => ?_
  refine Atomic.bind_guard ensureEventCapacity_guards fun _ hroom => ?_
  refine Completes.atomic (Completes.bind_get ?_)
  rw [checkedAdd, if_pos hroom]
  exact .of_set (.progress hrecord hstate hroom)

/-- `record_goal_verification` takes a step or changes nothing. -/
theorem recordGoalVerification_atomic (report : GoalVerificationReport) :
    Atomic (recordGoalVerification report) run fun _ => Step run := by
  refine Atomic.bind_get ?_
  refine Atomic.bind_guard Guards.of_reject fun _ hverified => ?_
  refine Atomic.bind_guard checkReportIdentity_guards fun _ _ => ?_
  refine Atomic.bind_guard checkFreshObservation_guards fun _ hfresh => ?_
  refine Atomic.bind_guard Guards.of_reject fun _ hcover => ?_
  refine Atomic.bind_guard ensureEventCapacity_guards fun _ hroom => ?_
  simp only [Bool.not_eq_true, Bool.not_eq_false', List.all_eq_true, beq_iff_eq]
    at hverified hcover
  refine Completes.atomic (Completes.bind .of_modify ?_)
  rintro _ _ rfl
  refine Completes.bind (pushEvent_completes ?_) ?_
  · exact hroom
  · rintro _ _ rfl
    exact .of_pure (.goal hverified hfresh hcover hroom)

end Operations

end ExecutionRun

open ExecutionRun in
/-- **Every call on a well-formed run is a step, or fails and changes nothing.** -/
theorem RunOperation.atomic {run : ExecutionRun} (hrun : run.WellFormed)
    (operation : RunOperation) : Atomic operation.body run fun _ => Step run := by
  cases operation with
  | beginCheck id => exact beginCheck_atomic id
  | recordAdmission report =>
      exact (recordAdmission_atomic hrun report).discard.mono fun _ _ ⟨_, h⟩ => h
  | markDispatchStarted id => exact markDispatchStarted_atomic id
  | markPreDispatchFailed id reason => exact markPreDispatchFailed_atomic id reason
  | recordCompletion completion => exact recordCompletion_atomic completion
  | recordVerification report =>
      exact (recordVerification_atomic hrun report).discard.mono fun _ _ ⟨_, h⟩ => h
  | markOutcomeUnknown id reason => exact markOutcomeUnknown_atomic id reason
  | recordProgress id detail => exact recordProgress_atomic id detail
  | recordGoalVerification report =>
      exact (recordGoalVerification_atomic report).discard.mono fun _ _ ⟨_, h⟩ => h

/-- One call, whatever it returned. -/
def Called (run run' : ExecutionRun) : Prop :=
  ∃ (operation : RunOperation) (result : Except ExecutionRunError Unit),
    operation.call run = some (result, run')

/-- The runs that some sequence of calls produces, failed calls included. -/
inductive Reachable (keys : ContractKeys) : ExecutionRun → Prop where
  | new {runId : Uuid} {document : PlanDocument} {run : ExecutionRun}
      (h : ExecutionRun.new keys runId document = pure run) : Reachable keys run
  | call {run run' : ExecutionRun} (hrun : Reachable keys run) (h : Called run run') :
      Reachable keys run'

/-- A call takes a step or changes nothing. -/
theorem Called.cases {run run' : ExecutionRun} (hrun : run.WellFormed) (h : Called run run') :
    run' = run ∨ ExecutionRun.Step run run' := by
  obtain ⟨operation, result, hcall⟩ := h
  cases result with
  | error error => exact .inl ((operation.atomic hrun).error hcall)
  | ok value => exact .inr ((operation.atomic hrun).ok hcall)

namespace ExecutionRun

section Frame

variable {run run' : ExecutionRun}

/-- No step changes what the run was created with. -/
theorem Step.frozen (h : Step run run') :
    run'.runId = run.runId ∧ run'.plan = run.plan ∧ run'.goalAspects = run.goalAspects ∧
      run'.actions.length = run.actions.length := by
  cases h <;> simp [enter, retainAdmission, amend, observe, publish]

/-- A step publishes, and its numbers fit. -/
theorem Step.sequence (h : Step run run') :
    run.nextEventSequence < run'.nextEventSequence ∧ run'.nextEventSequence < u64Bound := by
  cases h <;> simp only [enter, retainAdmission, amend, observe, publish] <;> omega

theorem WellFormed.step (hrun : run.WellFormed) (h : Step run run') : run'.WellFormed where
  records := by
    obtain ⟨-, hplan, -, hlength⟩ := h.frozen
    rw [hlength, hplan, hrun.records]
  positive := lt_trans hrun.positive h.sequence.1
  bounded := h.sequence.2

theorem WellFormed.called (hrun : run.WellFormed) (h : Called run run') : run'.WellFormed := by
  rcases h.cases hrun with rfl | h
  · exact hrun
  · exact hrun.step h

/-- Every record has a frozen contract. -/
theorem WellFormed.exists_contract (hrun : run.WellFormed) {id : ActionId} {record : ActionRun}
    (h : run.actions[id.get]? = some record) : ∃ contract, run.contractOf id = some contract := by
  have hlt : id.get < run.plan.actions.length := hrun.records ▸ lt_of_record h
  exact ⟨_, by rw [contractOf, List.getElem?_eq_getElem hlt, Option.map_some]⟩

/-- A new run has one waiting record per action and nothing else. -/
theorem new_eq {keys : ContractKeys} {runId : Uuid} {document : PlanDocument}
    (h : ExecutionRun.new keys runId document = pure run) :
    ∃ analysis : HistoricalAnalysis, document.analyseHistorical keys = pure analysis ∧
      run = {
        runId
        document
        plan := analysis.plan
        actions := analysis.plan.actions.map fun _ => {}
        goalAspects := analysis.report.goalChecks.map (·.aspect) } := by
  rw [ExecutionRun.new] at h
  split at h
  next => cases h
  next => cases h
  next analysis hanalysis => exact ⟨analysis, hanalysis, (Returns.pure_inj.mp h).symm⟩

/-- A new run is well formed. -/
theorem WellFormed.of_new {keys : ContractKeys} {runId : Uuid} {document : PlanDocument}
    (h : ExecutionRun.new keys runId document = pure run) : run.WellFormed := by
  obtain ⟨analysis, -, rfl⟩ := new_eq h
  exact ⟨List.length_map _, Nat.one_pos, by simp [u64Bound]⟩

end Frame

end ExecutionRun

/-- **Induction over a run**: what holds of a new run and survives every step holds throughout. -/
theorem Reachable.invariant {keys : ContractKeys} {P : ExecutionRun → Prop}
    (hnew : ∀ {runId document run}, ExecutionRun.new keys runId document = pure run → P run)
    (hstep : ∀ {run run'}, run.WellFormed → P run → ExecutionRun.Step run run' → P run')
    {run : ExecutionRun} (h : Reachable keys run) : run.WellFormed ∧ P run := by
  induction h with
  | new h => exact ⟨.of_new h, hnew h⟩
  | call _ h ih =>
      obtain ⟨hrun, hp⟩ := ih
      refine ⟨hrun.called h, ?_⟩
      rcases h.cases hrun with rfl | h
      · exact hp
      · exact hstep hrun hp h

/-- **Every reachable run is well formed.** -/
theorem Reachable.wellFormed {keys : ContractKeys} {run : ExecutionRun} (h : Reachable keys run) :
    run.WellFormed :=
  (h.invariant (P := fun _ => True) (fun _ => trivial) fun _ _ _ => trivial).1

/-! ### A small run -/

/-- The run after a sequence of calls. -/
def callAll : List RunOperation → ExecutionRun → Option ExecutionRun
  | [], run => some run
  | operation :: rest, run => (operation.call run).bind fun result => callAll rest result.2

theorem Reachable.callAll {keys : ContractKeys} {run' : ExecutionRun} :
    ∀ {run : ExecutionRun}, Reachable keys run → ∀ operations : List RunOperation,
      DisksGraph.callAll operations run = some run' → Reachable keys run'
  | _, h, [], hcall => Option.some_inj.mp hcall ▸ h
  | _, h, operation :: rest, hcall => by
      obtain ⟨⟨result, next⟩, hnext, hrest⟩ := Option.bind_eq_some_iff.mp hcall
      exact Reachable.callAll (.call h ⟨operation, result, hnext⟩) rest hrest

/-- A plan of one mount, whose goal is the mounted `/data`. -/
def sampleDocument : PlanDocument where
  schemaVersion := PLAN_SCHEMA_VERSION
  actionSemanticsVersion := ACTION_SEMANTICS_VERSION
  planId := 2#128
  baseline := ⟨1#128, sampleState, []⟩
  requestedGoal := { DesiredState.fromCurrent sampleState with
    mounts := { runtime := [⟨.tmpfs, sampleTarget, [], .host⟩] } }
  protectedScope := {}
  actions := [sampleAction]
  dependencies := []

/-- A run of one pending action. -/
def sampleRun : ExecutionRun where
  runId := 7#128
  document := sampleDocument
  plan := ⟨[sampleAction], []⟩
  actions := [{}]
  goalAspects := [.graph, .runtimeMount sampleTarget .host, .boot]

theorem reachable_sampleRun : Reachable sampleKeys sampleRun :=
  .new (show ExecutionRun.new sampleKeys 7#128 sampleDocument = pure sampleRun from rfl)

/-! ### Failed calls -/

/-- **Operations are atomic on error**: every call on a reachable run returns, whatever its
arguments and however close the event counter is to its limit, and a call that returns an error
leaves the whole run as it was. -/
theorem operations_atomic_on_error {keys : ContractKeys} {run : ExecutionRun}
    (h : Reachable keys run) (operation : RunOperation) :
    ∃ result run', operation.call run = some (result, run') ∧
      ∀ error, result = .error error → run' = run := by
  have hatomic := operation.atomic h.wellFormed
  obtain ⟨result, run', hcall⟩ := hatomic.returns
  refine ⟨result, run', hcall, ?_⟩
  rintro error rfl
  exact hatomic.error hcall

/-- A run at its first action: dispatching before any admission fails and changes nothing. -/
theorem dispatch_before_admission_atomic :
    ∃ result run', (RunOperation.markDispatchStarted ⟨0⟩).call sampleRun = some (result, run') ∧
      ∀ error, result = .error error → run' = sampleRun :=
  operations_atomic_on_error reachable_sampleRun (.markDispatchStarted ⟨0⟩)

end DisksGraph
