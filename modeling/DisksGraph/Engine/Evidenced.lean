import DisksGraph.Engine.Schedule

/-!
# Engine — Evidenced

What the retained reports of a run say about its actions.

* `checksCover_iff`: an accepted report has exactly the frozen conditions, once each.
* `Evidenced`: the reports an action must hold in its state.
* `verified_means_evidenced`: they are held in every reachable run.
-/

namespace DisksGraph

/-! ### Complete reports -/

/-- A report has exactly the required conditions, without repetition, all satisfied. -/
structure FullySatisfied {α : Type} (required : List α) (checks : List (LiveCheck α)) : Prop where
  conditions : ∀ condition, condition ∈ checks.map (·.condition) ↔ condition ∈ required
  nodup : (checks.map (·.condition)).Nodup
  satisfied : ∀ check ∈ checks, check.status = .satisfied

/-- No element of a list equals an earlier one exactly when the list has no repetition. -/
theorem nodup_iff_take {α : Type} {items : List α} :
    items.Nodup ↔ ∀ i item, items[i]? = some item → item ∉ items.take i := by
  rw [List.nodup_iff_pairwise_ne, List.pairwise_iff_getElem]
  constructor
  · intro h i item hi hmem
    obtain ⟨hlt, rfl⟩ := List.getElem?_eq_some_iff.mp hi
    obtain ⟨j, hj, hjeq⟩ := List.getElem_of_mem hmem
    rw [List.length_take] at hj
    exact h j i (by omega) hlt (by omega) (by rw [← hjeq, List.getElem_take])
  · intro h i j hi hj hij heq
    refine h j items[j] (List.getElem?_eq_getElem hj) ?_
    rw [← heq]
    exact List.mem_take_iff_getElem.mpr ⟨i, by omega, rfl⟩

/-- **`checks_cover` is exact.** -/
theorem checksCover_iff {α : Type} [DecidableEq α] {required : List α}
    {checks : List (LiveCheck α)} :
    checksCover required checks = true ↔
      (∀ condition, condition ∈ checks.map (·.condition) ↔ condition ∈ required) ∧
        (checks.map (·.condition)).Nodup := by
  have hfirst : (required.all fun condition =>
        checks.any fun check => decide (check.condition = condition)) = true ↔
      ∀ condition ∈ required, condition ∈ checks.map (·.condition) := by
    simp only [List.all_eq_true, List.any_eq_true, decide_eq_true_eq, List.mem_map]
  have hsecond : (checks.zipIdx.all fun entry => decide (entry.1.condition ∈ required) &&
        !(checks.take entry.2).any fun earlier =>
          decide (earlier.condition = entry.1.condition)) = true ↔
      ∀ i check, checks[i]? = some check → check.condition ∈ required ∧
        check.condition ∉ (checks.map (·.condition)).take i := by
    simp only [List.all_eq_true, Bool.and_eq_true, decide_eq_true_eq, Bool.not_eq_true',
      List.any_eq_false, Prod.forall, List.mem_zipIdx_iff_getElem?, ← List.map_take, List.mem_map,
      not_exists, not_and]
    exact ⟨fun h i check hi => h check i hi, fun h check i hi => h i check hi⟩
  rw [checksCover, Bool.and_eq_true, hfirst, hsecond, nodup_iff_take]
  constructor
  · rintro ⟨hall, heach⟩
    refine ⟨fun condition => ⟨fun hmem => ?_, hall condition⟩, fun i condition hi => ?_⟩
    · obtain ⟨check, hcheck, rfl⟩ := List.mem_map.mp hmem
      obtain ⟨i, hi⟩ := List.mem_iff_getElem?.mp hcheck
      exact (heach i check hi).1
    · rw [List.getElem?_map] at hi
      obtain ⟨check, hcheck, rfl⟩ := Option.map_eq_some_iff.mp hi
      exact (heach i check hcheck).2
  · rintro ⟨hsame, hnodup⟩
    refine ⟨fun condition => (hsame condition).mpr, fun i check hi => ⟨?_, ?_⟩⟩
    · exact (hsame _).mp (List.mem_map_of_mem (List.mem_of_getElem? hi))
    · exact hnodup i check.condition (by rw [List.getElem?_map, hi, Option.map_some])

/-- The verdict on the evidence is the good one only if all of it is satisfied. -/
theorem satisfied_of_evidenceState {unknown good : ActionRunState}
    (hunknown : good ≠ unknown) (hfailed : good ≠ .failed) {statuses : List LiveCheckStatus}
    (h : evidenceState unknown statuses good = good) :
    ∀ status ∈ statuses, status = .satisfied := by
  induction statuses with
  | nil => exact fun _ hmem => absurd hmem List.not_mem_nil
  | cons status rest ih =>
      cases status with
      | satisfied =>
          intro other hother
          rcases List.mem_cons.mp hother with rfl | hother
          · rfl
          · exact ih h other hother
      | violated reason => exact absurd h.symm hfailed
      | unknown reason =>
          -- From `unknown` the verdict can only stay or fail.
          rcases ExecutionRun.evidenceState_eq unknown rest unknown with h' | h' | h'
          · exact absurd (h.symm.trans h') hunknown
          · exact absurd (h.symm.trans h') hunknown
          · exact absurd (h.symm.trans h') hfailed

/-! ### What an action must hold -/

/-- An admission that permits dispatch under a frozen contract. -/
structure Admissible (contract : ActionContract) (report : AdmissionReport) : Prop where
  applicability : report.applicability = .satisfied
  checks : FullySatisfied contract.prerequisites report.checks
  held : ∀ required ∈ contract.affectedResources, ∃ access ∈ report.heldResources,
    access.resource = required.resource ∧ (access.mode = .write ∨ access.mode = required.mode)

/-- From the same probe instance, and strictly newer. -/
def NewerThan (old new : ObservationReference) : Prop :=
  new.probeInstance = old.probeInstance ∧ old.epoch < new.epoch

/-- The latest observation is from the same probe instance, and not older. -/
def NotAfter (reference : ObservationReference) (latest : Option LiveObservation) : Prop :=
  ∃ observation, latest = some observation ∧
    observation.reference.probeInstance = reference.probeInstance ∧
    reference.epoch ≤ observation.reference.epoch

/-- The reports an action must hold in its state, and their place in time. -/
structure Evidenced (latest : Option LiveObservation) (contract : ActionContract)
    (record : ActionRun) : Prop where
  admitted : record.state ∈ [.admitted, .running, .verifying, .verified] →
    ∃ report, record.admission = some report ∧ Admissible contract report ∧
      NotAfter report.observation.reference latest
  completed : record.state ∈ [.verifying, .verified] →
    ∃ report completion, record.admission = some report ∧ record.completion = some completion ∧
      completion.outcome = .succeeded ∧
      NewerThan report.observation.reference completion.observation.reference
  verified : record.state = .verified →
    ∃ completion report, record.completion = some completion ∧ record.verification = some report ∧
      report.observation = completion.observation.reference ∧
      FullySatisfied contract.postconditions report.checks

/-- Evidence is not lost as observations are added. -/
theorem Evidenced.mono {latest latest' : Option LiveObservation}
    {contract : ActionContract} {record : ActionRun}
    (hlatest : ∀ reference, NotAfter reference latest → NotAfter reference latest')
    (h : Evidenced latest contract record) : Evidenced latest' contract record where
  admitted hstate := by
    obtain ⟨report, hreport, hadmissible, hnot⟩ := h.admitted hstate
    exact ⟨report, hreport, hadmissible, hlatest _ hnot⟩
  completed := h.completed
  verified := h.verified

/-- An action that is neither admitted nor later owes no report. -/
theorem Evidenced.of_state {latest : Option LiveObservation}
    {contract : ActionContract} {record : ActionRun}
    (h : record.state ∉ [.admitted, .running, .verifying, .verified]) :
    Evidenced latest contract record where
  admitted hstate := absurd hstate h
  completed hstate := absurd (by simp_all) h
  verified hstate := absurd (by simp [hstate]) h

namespace ExecutionRun

/-- Every action holds its reports, and a goal report covers the whole goal. -/
structure Backed (run : ExecutionRun) : Prop where
  actions : ∀ (id : ActionId) record contract, run.actions[id.get]? = some record →
    run.contractOf id = some contract → Evidenced run.latestObservation contract record
  goal : ∀ report, run.goalVerification = some report →
    checksCover run.goalAspects report.checks = true

/-! ### Reports that permit a transition -/

theorem holds_iff {held : List ResourceAccess} {required : ResourceAccess} :
    holds held required = true ↔ ∃ access ∈ held, access.resource = required.resource ∧
      (access.mode = .write ∨ access.mode = required.mode) := by
  simp only [holds, List.any_eq_true, Bool.and_eq_true, Bool.or_eq_true, beq_iff_eq]

/-- An admission whose checks and locks suffice is admissible. -/
theorem admissible_of_admitted {report : AdmissionReport} {contract : ActionContract}
    (hcover : checksCover contract.prerequisites report.checks = true)
    (hheld : ∀ required ∈ contract.affectedResources, holds report.heldResources required = true)
    (h : admissionState report = .admitted) : Admissible contract report := by
  have hall := satisfied_of_evidenceState (by decide) (by decide) h
  obtain ⟨hconditions, hnodup⟩ := checksCover_iff.mp hcover
  refine ⟨hall _ List.mem_cons_self, ⟨hconditions, hnodup, fun check hcheck => ?_⟩, ?_⟩
  · exact hall _ (List.mem_cons_of_mem _ (List.mem_map_of_mem hcheck))
  · exact fun required hrequired => holds_iff.mp (hheld required hrequired)

/-- A verified report satisfies every postcondition. -/
theorem fullySatisfied_of_verified {report : VerificationReport} {contract : ActionContract}
    (hcover : checksCover contract.postconditions report.checks = true)
    (h : verificationState report = .verified) :
    FullySatisfied contract.postconditions report.checks := by
  have hall := satisfied_of_evidenceState (by decide) (by decide) h
  obtain ⟨hconditions, hnodup⟩ := checksCover_iff.mp hcover
  exact ⟨hconditions, hnodup, fun check hcheck => hall _ (List.mem_map_of_mem hcheck)⟩

/-! ### Time -/

section Time

variable {run : ExecutionRun} {observation : LiveObservation} {reference : ObservationReference}

/-- A fresh observation is newer than everything the run has accepted. -/
theorem Fresh.newerThan (h : run.Fresh observation)
    (hr : NotAfter reference run.latestObservation) :
    NewerThan reference observation.reference := by
  obtain ⟨latest, hlatest, hinstance, hepoch⟩ := hr
  have hstale := h.notStale
  simp only [isStale, hlatest, Option.any_some, Bool.or_eq_false_iff, bne_eq_false_iff_eq,
    decide_eq_false_iff_not, not_le] at hstale
  exact ⟨hstale.2.1.symm.trans hinstance, lt_of_le_of_lt hepoch hstale.2.2⟩

theorem Fresh.notAfter (h : run.Fresh observation) (hr : NotAfter reference run.latestObservation) :
    NotAfter reference (some observation) := by
  obtain ⟨hinstance, hepoch⟩ := h.newerThan hr
  exact ⟨observation, rfl, hinstance, hepoch.le⟩

theorem notAfter_self (observation : LiveObservation) :
    NotAfter observation.reference (some observation) :=
  ⟨observation, rfl, rfl, le_refl _⟩

end Time

/-! ### One step -/

section Backed

variable {run run' : ExecutionRun}

/-- A step that changes one record and moves the latest observation forward. -/
theorem Backed.update (hrun : run.Backed) (hplan : run'.plan = run.plan)
    (hgoal : run'.goalVerification = run.goalVerification)
    (haspects : run'.goalAspects = run.goalAspects)
    (hlatest : ∀ reference, NotAfter reference run.latestObservation →
      NotAfter reference run'.latestObservation)
    {id : ActionId} {record : ActionRun} {update : ActionRun → ActionRun}
    (hrecord : run.actions[id.get]? = some record)
    (hactions : run'.actions = run.actions.modify id.get update)
    (hnew : ∀ contract, run.contractOf id = some contract →
      Evidenced run.latestObservation contract record →
      Evidenced run'.latestObservation contract (update record)) : run'.Backed where
  actions other found contract hfound hcontract := by
    rw [contractOf, hplan] at hcontract
    rw [hactions, List.getElem?_modify] at hfound
    by_cases hsame : id.get = other.get
    · obtain rfl := ActionId.ext hsame
      simp only [hrecord, if_true, Option.map_eq_map, Option.map_some, Option.some_inj] at hfound
      exact hfound ▸ hnew contract hcontract (hrun.actions _ _ _ hrecord hcontract)
    · simp only [hsame, if_false, Option.map_eq_map, Option.map_id'] at hfound
      exact (hrun.actions _ _ _ hfound hcontract).mono hlatest
  goal report hreport := by
    rw [haspects]
    exact hrun.goal report (hgoal ▸ hreport)

/-- The record of an action that moves: its evidence first, then its state. -/
theorem actions_enter {id : ActionId} {update : ActionRun → ActionRun} {state : ActionRunState} :
    ((run.amend id update).enter id state).actions =
      run.actions.modify id.get fun record => { update record with state } := by
  simp only [enter, publish, amend, List.modify_modify_eq]
  rfl

theorem Backed.step (hrun : run.Backed) (h : Step run run') : run'.Backed := by
  cases h with
  | beginCheck hrecord =>
      exact hrun.update rfl rfl rfl (fun _ h => h) hrecord rfl fun _ _ _ =>
        .of_state (by simp)
  | undecided hrecord hstate hfresh =>
      exact hrun.update rfl rfl rfl (fun _ => hfresh.notAfter) hrecord rfl fun _ _ _ =>
        .of_state (by simp [hstate])
  | decided hrecord hstate hfresh hcontract hcover hheld hverdict =>
      refine hrun.update rfl rfl rfl (fun _ => hfresh.notAfter) hrecord actions_enter ?_
      intro contract hfrozen _
      obtain rfl := Option.some_inj.mp (hcontract.symm.trans hfrozen)
      cases hstate' : admissionState _ with
      | admitted =>
          refine ⟨fun _ => ⟨_, rfl, admissible_of_admitted hcover hheld hstate',
            notAfter_self _⟩, ?_, ?_⟩ <;> simp
      | failed => exact .of_state (by simp)
      -- An admission has no other outcome.
      | _ =>
          have := transition_admissionState hverdict
          rw [hstate'] at this
          cases this
  | dispatch hrecord hstate =>
      refine hrun.update rfl rfl rfl (fun _ h => h) hrecord rfl fun _ _ hold => ?_
      exact ⟨fun _ => hold.admitted (by simp [hstate]), by simp, by simp⟩
  | preDispatchFailed hrecord =>
      exact hrun.update rfl rfl rfl (fun _ h => h) hrecord actions_enter fun _ _ _ =>
        .of_state (by simp)
  | @complete completion record hrecord hstate hfresh =>
      refine hrun.update rfl rfl rfl (fun _ => hfresh.notAfter) hrecord actions_enter ?_
      intro contract _ hold
      obtain ⟨report, hreport, hadmissible, hnot⟩ := hold.admitted (by simp [hstate])
      cases houtcome : completion.outcome with
      -- The admission stays behind the completion that follows it.
      | succeeded =>
          refine ⟨fun _ => ⟨report, hreport, hadmissible, hfresh.notAfter hnot⟩, fun _ =>
            ⟨report, completion, hreport, rfl, houtcome, hfresh.newerThan hnot⟩, ?_⟩
          simp [outcomeState]
      | failed reason => exact .of_state (by simp [outcomeState])
      | outcomeUnknown reason => exact .of_state (by simp [outcomeState])
  | @verify report record _ hrecord hstate hobservation hcontract hcover =>
      refine hrun.update rfl rfl rfl (fun _ h => h) hrecord actions_enter ?_
      intro contract hfrozen hold
      obtain rfl := Option.some_inj.mp (hcontract.symm.trans hfrozen)
      have hcompleted := hold.completed (by simp [hstate])
      cases hstate' : verificationState report with
      | verified =>
          refine ⟨fun _ => hold.admitted (by simp [hstate]), fun _ => hcompleted, fun _ => ?_⟩
          obtain ⟨completion, hcompletion, hreference⟩ := Option.map_eq_some_iff.mp hobservation
          exact ⟨completion, report, hcompletion, rfl, hreference.symm,
            fullySatisfied_of_verified hcover hstate'⟩
      | failed => exact .of_state (by simp)
      | outcomeUnknown => exact .of_state (by simp)
      | _ =>
          have := transition_verificationState report
          rw [hstate'] at this
          cases this
  | outcomeUnknown hrecord =>
      exact hrun.update rfl rfl rfl (fun _ h => h) hrecord actions_enter fun _ _ _ =>
        .of_state (by simp)
  | progress => exact ⟨hrun.actions, hrun.goal⟩
  | goal hverified hfresh hcover =>
      refine ⟨fun id record contract hrecord hcontract => ?_, fun report hreport => ?_⟩
      · exact (hrun.actions id record contract hrecord hcontract).mono fun _ => hfresh.notAfter
      · cases hreport
        exact hcover

theorem Backed.of_new {keys : ContractKeys} {runId : Uuid} {document : PlanDocument}
    (h : ExecutionRun.new keys runId document = pure run) : run.Backed := by
  refine ⟨fun id record contract hrecord _ => .of_state ?_, fun report hreport => ?_⟩
  · rw [new_waiting h record (List.mem_of_getElem? hrecord)]
    decide
  · obtain ⟨analysis, -, rfl⟩ := new_eq h
    cases hreport

end Backed

end ExecutionRun

/-- **Every record of a reachable run is backed.** -/
theorem Reachable.backed {keys : ContractKeys} {run : ExecutionRun} (h : Reachable keys run) :
    run.Backed :=
  (h.invariant (P := ExecutionRun.Backed) .of_new fun _ hrun hstep => hrun.step hstep).2

/-! ### Whole runs -/

/-- **Verified means fully evidenced.**  In every reachable run, an action from `Admitted` on holds
an admission in which everything is satisfied; a verified action also holds a successful completion,
observed strictly after its admission, and a verification of exactly the frozen postconditions
against it; and a verified run has only verified actions and a goal report that covers the goal. -/
theorem verified_means_evidenced {keys : ContractKeys} {run : ExecutionRun}
    (h : Reachable keys run) :
    (∀ (id : ActionId) record, run.actions[id.get]? = some record →
      ∃ contract, run.contractOf id = some contract ∧
      (record.state ∈ [.admitted, .running, .verifying, .verified] →
        ∃ report, record.admission = some report ∧ Admissible contract report) ∧
      (record.state = .verified →
        ∃ admission completion report, record.admission = some admission ∧
          record.completion = some completion ∧ record.verification = some report ∧
          completion.outcome = .succeeded ∧
          NewerThan admission.observation.reference completion.observation.reference ∧
          report.observation = completion.observation.reference ∧
          FullySatisfied contract.postconditions report.checks)) ∧
    (run.isVerified = true →
      (∀ record ∈ run.actions, record.state = .verified) ∧
      ∃ report, run.goalVerification = some report ∧ report.preservation = .satisfied ∧
        FullySatisfied run.goalAspects report.checks) := by
  refine ⟨fun id record hrecord => ?_, fun hverified => ?_⟩
  · obtain ⟨contract, hcontract⟩ := h.wellFormed.exists_contract hrecord
    have hold := h.backed.actions id record contract hrecord hcontract
    refine ⟨contract, hcontract, fun hstate => ?_, fun hstate => ?_⟩
    · obtain ⟨report, hreport, hadmissible, -⟩ := hold.admitted hstate
      exact ⟨report, hreport, hadmissible⟩
    · obtain ⟨admission, completion, hadmission, hcompletion, houtcome, hnewer⟩ :=
        hold.completed (by simp [hstate])
      obtain ⟨completion', report, hcompletion', hreport, hreference, hchecks⟩ :=
        hold.verified hstate
      obtain rfl := Option.some_inj.mp (hcompletion.symm.trans hcompletion')
      exact ⟨admission, completion, report, hadmission, hcompletion, hreport, houtcome, hnewer,
        hreference, hchecks⟩
  · obtain ⟨report, hreport, hsucceeded⟩ := (Option.any_eq_true _ _).mp hverified
    simp only [GoalVerificationReport.succeeded, Bool.and_eq_true, beq_iff_eq,
      List.all_eq_true] at hsucceeded
    obtain ⟨hconditions, hnodup⟩ := checksCover_iff.mp (h.backed.goal report hreport)
    refine ⟨?_, report, hreport, hsucceeded.1, hconditions, hnodup, hsucceeded.2⟩
    exact ExecutionRun.mem_actions_iff.mpr (h.serial.goal (by simp [hreport]))

/-- The calls of a host that mounts `/data` and verifies everything. -/
def sampleCalls : List RunOperation :=
  let contract := sampleAction.informationalContract
  [.beginCheck ⟨0⟩,
    .recordAdmission { sampleRefusal with applicability := .satisfied },
    .markDispatchStarted ⟨0⟩,
    .recordProgress ⟨0⟩ "mounting",
    .recordCompletion ⟨7#128, ⟨0⟩, .succeeded, sampleObservation 2⟩,
    .recordVerification ⟨7#128, ⟨0⟩, ⟨9#128, 2⟩,
      contract.postconditions.map fun condition => ⟨condition, .satisfied⟩⟩,
    .recordGoalVerification ⟨7#128, sampleObservation 3,
      sampleRun.goalAspects.map fun condition => ⟨condition, .satisfied⟩, .satisfied⟩]

/-- The sample run after a verified mount. -/
def sampleVerified : ExecutionRun := (callAll sampleCalls sampleRun).getD sampleRun

theorem reachable_sampleVerified : Reachable sampleKeys sampleVerified :=
  reachable_sampleRun.callAll sampleCalls rfl

/-- A complete run: it is verified, and its only action holds the evidence for it. -/
theorem verified_run_evidenced :
    sampleVerified.isVerified = true ∧
      (∀ record ∈ sampleVerified.actions, record.state = .verified) ∧
      ∃ report, sampleVerified.goalVerification = some report ∧
        report.preservation = .satisfied ∧
        FullySatisfied sampleVerified.goalAspects report.checks :=
  ⟨rfl, (verified_means_evidenced reachable_sampleVerified).2 rfl⟩

end DisksGraph
