import DisksGraph.Engine.Lifecycle

/-!
# Engine — Schedule

Which action may run when.

* `Step.states`: an operation moves at most one action, along `Transition`; leaving `Waiting` needs
  verified predecessors, no stopped action and no active one.
* `Serial`: the invariant of a run.
* `scheduling_safety`: at most one active action, verified predecessors throughout, terminal states
  are never left, and a stopped run starts nothing and is never verified.
-/

namespace DisksGraph

/-- The action and the state that an event announces. -/
def RunEventKind.change : RunEventKind → Option (ActionId × ActionRunState)
  | .actionState action state => some (action, state)
  | _ => none

namespace ExecutionRun

/-- The lifecycle state of the action at an index. -/
def stateAt (run : ExecutionRun) (index : Nat) : Option ActionRunState :=
  (run.actions[index]?).map (·.state)

/-- The state changes of the lifecycle. -/
inductive Transition : ActionRunState → ActionRunState → Prop where
  | check : Transition .waiting .checking
  | admission : Transition .checking .admitted
  | refuse : Transition .checking .failed
  | dispatch : Transition .admitted .running
  | preDispatchFailed : Transition .admitted .failed
  | complete : Transition .running .verifying
  | backendFailed : Transition .running .failed
  | backendUnknown : Transition .running .outcomeUnknown
  | verify : Transition .verifying .verified
  | contradict : Transition .verifying .failed
  | verifyUnknown : Transition .verifying .outcomeUnknown

/-! ### The effect of an update on the states -/

section StateAt

variable {run : ExecutionRun} {id : ActionId} {index : Nat} {state : ActionRunState}

theorem mem_actions_iff {P : ActionRunState → Prop} :
    (∀ record ∈ run.actions, P record.state) ↔
      ∀ index state, run.stateAt index = some state → P state := by
  constructor
  · intro h index state hstate
    obtain ⟨record, hrecord, rfl⟩ := Option.map_eq_some_iff.mp hstate
    exact h record (List.mem_of_getElem? hrecord)
  · intro h record hrecord
    obtain ⟨index, hindex⟩ := List.mem_iff_getElem?.mp hrecord
    exact h index record.state (by rw [stateAt, hindex, Option.map_some])

theorem stateAt_of_record {record : ActionRun} (h : run.actions[id.get]? = some record) :
    run.stateAt id.get = some record.state := by
  rw [stateAt, h, Option.map_some]

/-- Amending evidence moves no action. -/
theorem stateAt_amend {update : ActionRun → ActionRun}
    (hupdate : ∀ record, (update record).state = record.state) :
    (run.amend id update).stateAt index = run.stateAt index := by
  rw [stateAt, amend, List.getElem?_modify]
  split
  · cases h : run.actions[index]? with
    | none => simp [stateAt, h]
    | some record => simp [stateAt, h, hupdate]
  · simp [stateAt]

/-- Entering a state changes the one action. -/
theorem stateAt_enter {old : ActionRunState} (h : run.stateAt id.get = some old) :
    (run.enter id state).stateAt index =
      if index = id.get then some state else run.stateAt index := by
  obtain ⟨record, hrecord, -⟩ := Option.map_eq_some_iff.mp h
  rw [stateAt, enter, publish, amend, List.getElem?_modify]
  by_cases hi : index = id.get
  · subst hi
    simp [hrecord]
  · simp [hi, Ne.symm hi, stateAt]

end StateAt

/-! ### Verdicts -/

/-- The state that evidence leads to is the result, or one of the two others. -/
theorem evidenceState_eq (unknown : ActionRunState) (statuses : List LiveCheckStatus)
    (result : ActionRunState) :
    evidenceState unknown statuses result = result ∨
      evidenceState unknown statuses result = unknown ∨
      evidenceState unknown statuses result = .failed := by
  induction statuses generalizing result with
  | nil => exact .inl rfl
  | cons status rest ih =>
      cases status with
      | satisfied => exact ih result
      | violated reason => exact .inr (.inr rfl)
      | unknown reason =>
          rcases ih unknown with h | h | h
          · exact .inr (.inl h)
          · exact .inr (.inl h)
          · exact .inr (.inr h)

/-- An admission leads from `Checking` to its state. -/
theorem transition_admissionState {report : AdmissionReport}
    (h : admissionState report ≠ .checking) : Transition .checking (admissionState report) := by
  rcases evidenceState_eq .checking (report.applicability :: report.checks.map (·.status))
    .admitted with h' | h' | h'
  · rw [admissionState, h']; exact .admission
  · exact absurd h' h
  · rw [admissionState, h']; exact .refuse

theorem transition_outcomeState (outcome : BackendOutcome) :
    Transition .running (outcomeState outcome) := by
  cases outcome with
  | succeeded => exact .complete
  | failed reason => exact .backendFailed
  | outcomeUnknown reason => exact .backendUnknown

/-- A report leads on from `Verifying`. -/
theorem transition_verificationState (report : VerificationReport) :
    Transition .verifying (verificationState report) := by
  rcases evidenceState_eq .outcomeUnknown (report.checks.map (·.status)) .verified with h | h | h
  · rw [verificationState, h]; exact .verify
  · rw [verificationState, h]; exact .verifyUnknown
  · rw [verificationState, h]; exact .contradict

/-! ### What a step publishes -/

/-- `run'` has the event log of `run` with `kinds` published. -/
structure Published (run run' : ExecutionRun) (kinds : List RunEventKind) : Prop where
  runId : run'.runId = (kinds.foldl publish run).runId
  events : run'.events = (kinds.foldl publish run).events
  sequence : run'.nextEventSequence = (kinds.foldl publish run).nextEventSequence

theorem Published.of_eq {run base : ExecutionRun} (hid : base.runId = run.runId)
    (hevents : base.events = run.events)
    (hsequence : base.nextEventSequence = run.nextEventSequence) : Published run base [] :=
  ⟨hid, hevents, hsequence⟩

/-- One more event is published. -/
theorem Published.publish {run base : ExecutionRun} {kinds : List RunEventKind}
    (h : Published run base kinds) (kind : RunEventKind) :
    Published run (base.publish kind) (kinds ++ [kind]) := by
  refine ⟨?_, ?_, ?_⟩ <;>
    simp only [List.foldl_append, List.foldl_cons, List.foldl_nil, ExecutionRun.publish, h.runId,
      h.events, h.sequence]

theorem published_retainAdmission (run : ExecutionRun) (report : AdmissionReport) :
    Published run (run.retainAdmission report)
      [.admission report.action (admissionState report = .admitted)] :=
  ⟨rfl, rfl, rfl⟩

/-! ### One step -/

/-- What has to hold for an action to leave `Waiting`. -/
structure MayStart (run : ExecutionRun) (id : ActionId) : Prop where
  stopped : ∀ index state, run.stateAt index = some state → state.isStopped = false
  active : ∀ index state, run.stateAt index = some state → state.isActive = false
  before : ∀ edge ∈ run.plan.dependencies, edge.after = id →
    run.stateAt edge.before.get = some .verified

/-- One action moves along a transition; every other one stays. -/
structure Moves (run run' : ExecutionRun) (id : ActionId) (old new : ActionRunState) : Prop where
  was : run.stateAt id.get = some old
  transition : Transition old new
  states : ∀ index, run'.stateAt index = if index = id.get then some new else run.stateAt index
  start : old = .waiting → run.MayStart id
  goal : run'.goalVerification = run.goalVerification
  log : ∃ kinds : List RunEventKind, kinds.length ≤ 1 ∧ (∀ kind ∈ kinds, kind.change = none) ∧
    Published run run' (kinds ++ [.actionState id new])

/-- No action moves. -/
structure Quiet (run run' : ExecutionRun) : Prop where
  states : ∀ index, run'.stateAt index = run.stateAt index
  goal : run'.goalVerification = run.goalVerification ∨
    ∀ index state, run.stateAt index = some state → state = .verified
  log : ∃ kind : RunEventKind, kind.change = none ∧ Published run run' [kind]

/-- Moving an action after changes that moved none and published at most one event. -/
theorem Moves.enter {run base : ExecutionRun} {id : ActionId} {old new : ActionRunState}
    {kinds : List RunEventKind} (hbase : ∀ index, base.stateAt index = run.stateAt index)
    (hgoal : base.goalVerification = run.goalVerification) (hlog : Published run base kinds)
    (hwas : run.stateAt id.get = some old) (htransition : Transition old new)
    (hstart : old = .waiting → run.MayStart id) (hlength : kinds.length ≤ 1)
    (hquiet : ∀ kind ∈ kinds, kind.change = none) : Moves run (base.enter id new) id old new where
  was := hwas
  transition := htransition
  states index := by rw [stateAt_enter ((hbase id.get).trans hwas), hbase]
  start := hstart
  goal := hgoal
  log := ⟨kinds, hlength, hquiet,
    have hamend : Published run (base.amend id _) kinds := ⟨hlog.runId, hlog.events, hlog.sequence⟩
    hamend.publish _⟩

/-- The same, where only evidence was changed before. -/
theorem Moves.enter_amend {run base : ExecutionRun} {id : ActionId} {old new : ActionRunState}
    (hbase : ∀ index, base.stateAt index = run.stateAt index)
    (hgoal : base.goalVerification = run.goalVerification) (hlog : Published run base [])
    (hwas : run.stateAt id.get = some old) (htransition : Transition old new)
    (hstart : old = .waiting → run.MayStart id) : Moves run (base.enter id new) id old new :=
  .enter hbase hgoal hlog hwas htransition hstart (Nat.zero_le _) nofun

/-- **One step moves at most one action.** -/
theorem Step.states {run run' : ExecutionRun} (h : Step run run') :
    (∃ id old new, Moves run run' id old new) ∨ Quiet run run' := by
  cases h with
  | beginCheck hrecord hstate hstopped hbefore hactive =>
      refine .inl ⟨_, _, _, .enter_amend (fun _ => rfl) rfl (.of_eq rfl rfl rfl)
        (hstate ▸ stateAt_of_record hrecord) .check fun _ => ⟨?_, ?_, ?_⟩⟩
      · exact mem_actions_iff.mp hstopped
      · exact mem_actions_iff.mp hactive
      · intro edge hedge hafter
        obtain ⟨before, hget, hverified⟩ := hbefore edge hedge hafter
        exact hverified ▸ stateAt_of_record hget
  | undecided =>
      exact .inr ⟨fun _ => stateAt_amend fun _ => rfl, .inl rfl, _, rfl,
        published_retainAdmission run _⟩
  | decided hrecord hstate _ _ _ _ hverdict =>
      exact .inl ⟨_, _, _, .enter (fun _ => stateAt_amend fun _ => rfl) rfl
        (published_retainAdmission run _) (hstate ▸ stateAt_of_record hrecord)
        (transition_admissionState hverdict) nofun (le_refl 1) (by simp [RunEventKind.change])⟩
  | dispatch hrecord hstate =>
      exact .inl ⟨_, _, _, .enter_amend (fun _ => rfl) rfl (.of_eq rfl rfl rfl)
        (hstate ▸ stateAt_of_record hrecord) .dispatch nofun⟩
  | preDispatchFailed hrecord hstate =>
      exact .inl ⟨_, _, _, .enter_amend (fun _ => stateAt_amend fun _ => rfl) rfl
        (.of_eq rfl rfl rfl) (hstate ▸ stateAt_of_record hrecord) .preDispatchFailed nofun⟩
  | complete hrecord hstate =>
      exact .inl ⟨_, _, _, .enter_amend (fun _ => stateAt_amend fun _ => rfl) rfl
        (.of_eq rfl rfl rfl) (hstate ▸ stateAt_of_record hrecord) (transition_outcomeState _) nofun⟩
  | verify hrecord hstate =>
      exact .inl ⟨_, _, _, .enter_amend (fun _ => stateAt_amend fun _ => rfl) rfl
        (.of_eq rfl rfl rfl) (hstate ▸ stateAt_of_record hrecord)
        (transition_verificationState _) nofun⟩
  | outcomeUnknown hrecord hstate =>
      rcases hstate with hstate | hstate
      · exact .inl ⟨_, _, _, .enter_amend (fun _ => stateAt_amend fun _ => rfl) rfl
          (.of_eq rfl rfl rfl) (hstate ▸ stateAt_of_record hrecord) .backendUnknown nofun⟩
      · exact .inl ⟨_, _, _, .enter_amend (fun _ => stateAt_amend fun _ => rfl) rfl
          (.of_eq rfl rfl rfl) (hstate ▸ stateAt_of_record hrecord) .verifyUnknown nofun⟩
  | @progress id _ detail =>
      exact .inr ⟨fun _ => rfl, .inl rfl, .progress id detail, rfl, ⟨rfl, rfl, rfl⟩⟩
  | @goal report hverified =>
      exact .inr ⟨fun _ => rfl, .inr (mem_actions_iff.mp hverified),
        .goalVerification report.succeeded, rfl, ⟨rfl, rfl, rfl⟩⟩

/-! ### The invariant -/

/-- A run executes one action at a time, after its predecessors, and is only verified when every
action is. -/
structure Serial (run : ExecutionRun) : Prop where
  single : ∀ i j s t, run.stateAt i = some s → run.stateAt j = some t →
    s.isActive = true → t.isActive = true → i = j
  before : ∀ edge ∈ run.plan.dependencies, ∀ s, run.stateAt edge.after.get = some s →
    s ≠ .waiting → run.stateAt edge.before.get = some .verified
  goal : run.goalVerification ≠ none →
    ∀ index state, run.stateAt index = some state → state = .verified

theorem Transition.not_verified {s t : ActionRunState} (h : Transition s t) : s ≠ .verified := by
  cases h <;> exact nofun

theorem Transition.not_stopped {s t : ActionRunState} (h : Transition s t) :
    s.isStopped = false := by
  cases h <;> rfl

/-- Only waiting and active actions move. -/
theorem Transition.source {s t : ActionRunState} (h : Transition s t) :
    s = .waiting ∨ s.isActive = true := by
  cases h <;> first | exact .inl rfl | exact .inr rfl

section Serial

variable {run run' : ExecutionRun} {id : ActionId} {old new : ActionRunState}

/-- A verified action stays verified when another action moves. -/
theorem Moves.verified (h : Moves run run' id old new) {index : Nat}
    (hi : run.stateAt index = some .verified) : run'.stateAt index = some .verified := by
  rw [h.states, if_neg, hi]
  rintro rfl
  exact h.transition.not_verified (Option.some_inj.mp (h.was.symm.trans hi))

/-- An active action after a move was active before, unless it has just started; then nothing else
is active. -/
theorem Moves.single (h : Moves run run' id old new) (hrun : run.Serial) :
    ∀ i j s t, run'.stateAt i = some s → run'.stateAt j = some t →
      s.isActive = true → t.isActive = true → i = j := by
  -- The other action was active before, so the moved one did not start now.
  have key : ∀ j t, run.stateAt j = some t → t.isActive = true → id.get = j := by
    intro j t hj ht
    rcases h.transition.source with hwait | hold
    · rw [(h.start hwait).active j t hj] at ht
      cases ht
    · exact hrun.single _ _ _ _ h.was hj hold ht
  intro i j s t hi hj hs ht
  rw [h.states] at hi hj
  split at hi <;> split at hj
  next hi' hj' => exact hi'.trans hj'.symm
  next hi' _ =>
    cases hi
    exact hi'.trans (key j t hj ht)
  next _ hj' =>
    cases hj
    exact (key i s hi hs).symm.trans hj'.symm
  next => exact hrun.single i j s t hi hj hs ht

/-- A move of one action keeps the run serial. -/
theorem Serial.moves (hrun : run.Serial) (hplan : run'.plan = run.plan)
    (h : Moves run run' id old new) : run'.Serial where
  single := h.single hrun
  before := by
    intro edge hedge s hs hne
    rw [hplan] at hedge
    rw [h.states] at hs
    apply h.verified
    split at hs
    next hafter =>
      -- The action that moved: it passed its predecessors now, or had left `Waiting` before.
      by_cases hwait : old = .waiting
      · exact (h.start hwait).before edge hedge (ActionId.ext hafter)
      · exact hrun.before edge hedge old (hafter ▸ h.was) hwait
    next => exact hrun.before edge hedge s hs hne
  goal := by
    intro hgoal
    rw [h.goal] at hgoal
    exact absurd (hrun.goal hgoal _ _ h.was) h.transition.not_verified

theorem Serial.step (hrun : run.Serial) (h : Step run run') : run'.Serial := by
  obtain ⟨-, hplan, -⟩ := h.frozen
  rcases h.states with ⟨id, old, new, hmoves⟩ | ⟨hstates, hgoal, -⟩
  · exact hrun.moves hplan hmoves
  · refine ⟨?_, ?_, ?_⟩
    · simpa only [hstates] using hrun.single
    · simpa only [hstates, hplan] using hrun.before
    · simp only [hstates]
      rcases hgoal with hgoal | hgoal
      · exact hgoal ▸ hrun.goal
      · exact fun _ => hgoal

end Serial

/-- Every action of a new run waits. -/
theorem new_waiting {keys : ContractKeys} {runId : Uuid} {document : PlanDocument}
    {run : ExecutionRun} (h : ExecutionRun.new keys runId document = pure run) :
    ∀ record ∈ run.actions, record.state = .waiting := by
  obtain ⟨analysis, -, rfl⟩ := new_eq h
  intro record hrecord
  obtain ⟨_, -, rfl⟩ := List.mem_map.mp hrecord
  rfl

/-- A new run is serial. -/
theorem Serial.of_new {keys : ContractKeys} {runId : Uuid} {document : PlanDocument}
    {run : ExecutionRun} (h : ExecutionRun.new keys runId document = pure run) : run.Serial := by
  have hwait := mem_actions_iff (P := (· = .waiting)).mp (new_waiting h)
  refine ⟨?_, ?_, ?_⟩
  · intro i j s t hi hj hs
    rw [hwait i s hi] at hs
    cases hs
  · intro edge _ s hs hne
    exact absurd (hwait _ s hs) hne
  · obtain ⟨analysis, -, rfl⟩ := new_eq h
    exact fun h => absurd rfl h

end ExecutionRun

/-- **Every reachable run is serial.** -/
theorem Reachable.serial {keys : ContractKeys} {run : ExecutionRun} (h : Reachable keys run) :
    run.Serial :=
  (h.invariant (P := ExecutionRun.Serial) .of_new fun _ hrun hstep => hrun.step hstep).2

/-! ### Whole runs -/

/-- The runs that further calls produce. -/
abbrev Later : ExecutionRun → ExecutionRun → Prop := Relation.ReflTransGen Called

theorem Reachable.later {keys : ContractKeys} {run run' : ExecutionRun} (h : Reachable keys run)
    (hlater : Later run run') : Reachable keys run' := by
  induction hlater with
  | refl => exact h
  | tail _ hcall ih => exact .call ih hcall

/-- The states that are never left. -/
def ActionRunState.isTerminal (state : ActionRunState) : Bool :=
  state == .verified || state.isStopped

namespace ExecutionRun

section Later

variable {keys : ContractKeys} {run run' : ExecutionRun}

/-- A property of one index that no step of a reachable run changes holds ever after. -/
theorem later_stateAt {state : ActionRunState} {index : Nat} {P : ExecutionRun → Prop}
    (hstep : ∀ {run run'}, run.WellFormed → P run → run.stateAt index = some state →
      Step run run' → P run' ∧ run'.stateAt index = some state)
    (h : Reachable keys run) (hp : P run) (hi : run.stateAt index = some state)
    (hlater : Later run run') : P run' ∧ run'.stateAt index = some state := by
  induction hlater with
  | refl => exact ⟨hp, hi⟩
  | tail hlater hcall ih =>
      have hrun := (h.later hlater).wellFormed
      rcases hcall.cases hrun with rfl | hcall
      · exact ih
      · exact hstep hrun ih.1 ih.2 hcall

/-- A terminal state stays. -/
theorem Step.terminal (h : Step run run') {index : Nat} {state : ActionRunState}
    (hi : run.stateAt index = some state) (hterminal : state.isTerminal = true) :
    run'.stateAt index = some state := by
  rcases h.states with ⟨id, old, new, hmoves⟩ | ⟨hstates, -⟩
  · rw [hmoves.states, if_neg, hi]
    rintro rfl
    obtain rfl := Option.some_inj.mp (hmoves.was.symm.trans hi)
    have hne := hmoves.transition.not_verified
    have hns := hmoves.transition.not_stopped
    simp [ActionRunState.isTerminal, hne, hns] at hterminal
  · rw [hstates, hi]

/-- With a stopped action no other action leaves `Waiting`. -/
theorem Step.waiting (h : Step run run') {index other : Nat} {state : ActionRunState}
    (hi : run.stateAt index = some .waiting) (ho : run.stateAt other = some state)
    (hstopped : state.isStopped = true) : run'.stateAt index = some .waiting := by
  rcases h.states with ⟨id, old, new, hmoves⟩ | ⟨hstates, -⟩
  · rw [hmoves.states, if_neg, hi]
    rintro rfl
    have hwait : old = .waiting := Option.some_inj.mp (hmoves.was.symm.trans hi)
    rw [(hmoves.start hwait).stopped other state ho] at hstopped
    cases hstopped
  · rw [hstates, hi]

/-- A run with a stopped action is not verified. -/
theorem Serial.not_verified_of_stopped (hrun : run.Serial) {index : Nat} {state : ActionRunState}
    (hi : run.stateAt index = some state) (hstopped : state.isStopped = true) :
    run.isVerified = false := by
  have hnone : run.goalVerification = none := by
    by_contra hgoal
    rw [hrun.goal hgoal index state hi] at hstopped
    cases hstopped
  rw [isVerified, hnone, Option.any_none]

/-- The predecessors of an action that is not waiting are verified, all the way up. -/
theorem Serial.ancestors_verified (hrun : run.Serial) {before after : ActionId}
    (h : Relation.TransGen (Precedes run.plan.dependencies) before after) {state : ActionRunState}
    (hi : run.stateAt after.get = some state) (hne : state ≠ .waiting) :
    run.stateAt before.get = some .verified := by
  induction h using Relation.TransGen.head_induction_on with
  | single h =>
      obtain ⟨edge, hedge, rfl, rfl⟩ := h
      exact hrun.before edge hedge state hi hne
  | head h _ ih =>
      obtain ⟨edge, hedge, rfl, rfl⟩ := h
      exact hrun.before edge hedge .verified ih nofun

end Later

end ExecutionRun

open ExecutionRun in
/-- **Scheduling safety.**  In every reachable run at most one action is active, and every action
that is not waiting has all its transitive predecessors verified.  However the run continues,
terminal states are kept; and once some action has failed or is unknown, no action leaves `Waiting`
and the run is not verified. -/
theorem scheduling_safety {keys : ContractKeys} {run : ExecutionRun} (h : Reachable keys run) :
    (∀ i j s t, run.stateAt i = some s → run.stateAt j = some t →
      s.isActive = true → t.isActive = true → i = j) ∧
    (∀ before after state, Relation.TransGen (Precedes run.plan.dependencies) before after →
      run.stateAt after.get = some state → state ≠ .waiting →
      run.stateAt before.get = some .verified) ∧
    ∀ run', Later run run' →
      (∀ index state, run.stateAt index = some state → state.isTerminal = true →
        run'.stateAt index = some state) ∧
      ((∃ index state, run.stateAt index = some state ∧ state.isStopped = true) →
        (∀ index, run.stateAt index = some .waiting → run'.stateAt index = some .waiting) ∧
        run'.isVerified = false) := by
  have hterminal : ∀ run', Later run run' → ∀ index state, run.stateAt index = some state →
      state.isTerminal = true → run'.stateAt index = some state := by
    intro run' hlater index state hi ht
    exact (later_stateAt (P := fun _ => True)
      (fun _ _ hi hstep => ⟨trivial, hstep.terminal hi ht⟩) h trivial hi hlater).2
  refine ⟨h.serial.single, fun before after state hpath hi hne =>
    h.serial.ancestors_verified hpath hi hne, fun run' hlater => ⟨hterminal run' hlater, ?_⟩⟩
  rintro ⟨other, state, hother, hstopped⟩
  have ht : state.isTerminal = true := by
    rw [ActionRunState.isTerminal, hstopped, Bool.or_true]
  constructor
  · intro index hi
    -- The stopped action is terminal, so it keeps every later `beginCheck` out.
    exact (later_stateAt (P := fun run => run.stateAt other = some state)
      (fun _ ho hi hstep => ⟨hstep.terminal ho ht, hstep.waiting hi ho hstopped⟩)
      h hother hi hlater).2
  · exact (h.later hlater).serial.not_verified_of_stopped (hterminal run' hlater _ _ hother ht)
      hstopped

/-- A first observation of nothing. -/
def sampleObservation (epoch : ProbeEpoch) : LiveObservation :=
  ⟨⟨9#128, epoch⟩, sampleState⟩

/-- The host refuses the mount. -/
def sampleRefusal : AdmissionReport where
  runId := 7#128
  action := ⟨0⟩
  observation := sampleObservation 1
  applicability := .violated "outside the approved scope"
  heldResources := sampleAction.informationalContract.affectedResources
  checks := sampleAction.informationalContract.prerequisites.map fun condition =>
    ⟨condition, .satisfied⟩

/-- The sample run after the refusal. -/
def sampleRefused : ExecutionRun :=
  (callAll [.beginCheck ⟨0⟩, .recordAdmission sampleRefusal] sampleRun).getD sampleRun

theorem reachable_sampleRefused : Reachable sampleKeys sampleRefused :=
  reachable_sampleRun.callAll [.beginCheck ⟨0⟩, .recordAdmission sampleRefusal] rfl

/-- A refused run stays refused: it is never verified, whatever is called on it. -/
theorem refused_never_verified :
    sampleRefused.stateAt 0 = some .failed ∧
      ¬ ∃ run', Later sampleRefused run' ∧ run'.isVerified = true := by
  refine ⟨rfl, ?_⟩
  rintro ⟨run', hlater, hverified⟩
  have hlast :=
    ((scheduling_safety reachable_sampleRefused).2.2 run' hlater).2 ⟨0, .failed, rfl, rfl⟩
  exact absurd hverified (by simp [hlast.2])

end DisksGraph
