import DisksGraph.Runtime.Ledger

/-!
# Runtime — Session

Every use of one coordinator, call after call.

A session is idle, or inside a method that has made some calls and waits for the answer of the next
one.  Between two methods the owner may call the run directly; a method may also be given a run of
another attempt.  A method that panics leaves the coordinator and the run as they are.

* `CoordinatorStep`: one step; `CoordinatorSession.ledger` is what the trace says.
* `CoordinatorSession.Sound`: the invariant, from `executeActionLocked_keeps` and
  `executeRunWithUpdates_keeps`.
* `at_most_once_dispatch`: every invocation is the first of its action, with its predecessors
  verified and its checkpoint armed; an unsettled one is the last.
-/

namespace DisksGraph

open Support (Effectful Failure Program)
open Support.Program (Safe)

/-- The public methods of a coordinator that can reach the dispatcher. -/
inductive CoordinatorCall where
  | executeRun
  | executeAction (action : ActionId) (operation : Option OperationId)

/-- A method that waits for an answer, or has returned. -/
abbrev MethodProgram : Type :=
  Program RuntimeCall RuntimeCall.Answer (Except (Failure CoordinatorError) Unit × Execution)

namespace CoordinatorCall

/-- The body of a method, without what it returns. -/
def body (texts : CoordinatorText) : CoordinatorCall → CoordinatorM Unit
  | .executeRun => do
      let _ ← CoordinatorM.executeRunWithUpdates texts
      return ()
  | .executeAction action operation => do
      let _ ← CoordinatorM.executeAction texts action operation
      return ()

/-- The method on a coordinator and a run. -/
def program (texts : CoordinatorText) (call : CoordinatorCall) (s : Execution) : MethodProgram :=
  (call.body texts).start s

end CoordinatorCall

/-- What the coordinator is doing.  `other` is the run of the coordinator while a method is given
another one. -/
inductive CoordinatorMode where
  | idle (coordinator : ExecutionCoordinator) (run : ExecutionRun)
  | busy (other : Option ExecutionRun) (program : MethodProgram)

/-- The calls of a coordinator so far, and what it is doing. -/
structure CoordinatorSession where
  trace : RuntimeTrace
  mode : CoordinatorMode

namespace CoordinatorSession

/-- A new coordinator. -/
def new (run : ExecutionRun) : CoordinatorSession := ⟨[], .idle (.new run) run⟩

/-- What the trace says. -/
def ledger (session : CoordinatorSession) : Ledger := session.trace.foldl Ledger.observe {}

/-- The session waits for the dispatcher. -/
def Invokes (session : CoordinatorSession) (run : ExecutionRun) (action : ResolvedAction) : Prop :=
  ∃ other next, session.mode = .busy other (.call (.execute run action) next)

end CoordinatorSession

/-- One step of a session. -/
inductive CoordinatorStep (texts : CoordinatorText) : CoordinatorSession → CoordinatorSession →
    Prop where
  | operate {trace : RuntimeTrace} {coordinator : ExecutionCoordinator} {run run' : ExecutionRun}
      (h : Called run run') :
      CoordinatorStep texts ⟨trace, .idle coordinator run⟩ ⟨trace, .idle coordinator run'⟩
  | invoke {trace : RuntimeTrace} {coordinator : ExecutionCoordinator} {run : ExecutionRun}
      (call : CoordinatorCall) :
      CoordinatorStep texts ⟨trace, .idle coordinator run⟩
        ⟨trace, .busy none (call.program texts ⟨coordinator, run⟩)⟩
  | invokeOther {trace : RuntimeTrace} {coordinator : ExecutionCoordinator}
      {run other : ExecutionRun} (call : CoordinatorCall) (h : other.runId ≠ run.runId) :
      CoordinatorStep texts ⟨trace, .idle coordinator run⟩
        ⟨trace, .busy (some run) (call.program texts ⟨coordinator, other⟩)⟩
  | answer {trace : RuntimeTrace} {other : Option ExecutionRun} {request : RuntimeCall}
      {next : request.Answer → MethodProgram} (answer : request.Answer) :
      CoordinatorStep texts ⟨trace, .busy other (.call request next)⟩
        ⟨trace ++ [⟨request, answer⟩], .busy other (next answer)⟩
  | finish {trace : RuntimeTrace} {other : Option ExecutionRun}
      {result : Except (Failure CoordinatorError) Unit} {s : Execution} :
      CoordinatorStep texts ⟨trace, .busy other (.ret (result, s))⟩
        ⟨trace, .idle s.coordinator (other.getD s.run)⟩

/-- The sessions of one coordinator, however it is used. -/
abbrev CoordinatorLater (texts : CoordinatorText) : CoordinatorSession → CoordinatorSession → Prop :=
  Relation.ReflTransGen (CoordinatorStep texts)

/-- The calls of a method are steps of the session. -/
theorem CoordinatorLater.of_steps {texts : CoordinatorText} {other : Option ExecutionRun}
    {program program' : MethodProgram} {calls : RuntimeTrace}
    (h : Program.Steps program calls program')
    (trace : RuntimeTrace) :
    CoordinatorLater texts ⟨trace, .busy other program⟩ ⟨trace ++ calls, .busy other program'⟩ := by
  induction h generalizing trace with
  | refl program => rw [List.append_nil]
  | @call request next answer calls _ _ ih =>
      have hrest := ih (trace ++ [⟨request, answer⟩])
      rw [List.append_assoc] at hrest
      exact .head (.answer answer) hrest

/-! ### The invariant -/

section Invariant

variable {keys : ContractKeys} {texts : CoordinatorText} {owner : Uuid} {s : Execution}
  {ledger : Ledger} {session session' : CoordinatorSession}

/-- The ledger after one more call. -/
theorem CoordinatorSession.ledger_append {trace : RuntimeTrace} {mode mode' : CoordinatorMode}
    {event : Program.Event RuntimeCall RuntimeCall.Answer} :
    CoordinatorSession.ledger ⟨trace ++ [event], mode⟩ =
      (CoordinatorSession.ledger ⟨trace, mode'⟩).observe event := by
  simp [CoordinatorSession.ledger]

/-- A program whose calls are allowed by a ledger that follows them. -/
abbrev LedgerSafe {α : Type} (allowed : Ledger → RuntimeCall → Prop) (Q : α → Ledger → Prop)
    (program : Program RuntimeCall RuntimeCall.Answer α) (ledger : Ledger) : Prop :=
  Safe allowed (fun ledger call answer ledger' => ledger' = ledger.observe ⟨call, answer⟩) Q program
    ledger

/-- The ledger up to what the observer was shown. -/
def Ledger.SameAttempts (ledger ledger' : Ledger) : Prop :=
  ∃ published, ledger' = { ledger with published }

/-- From `s`, the method only publishes; it returns in `Q` or fails in `E`. -/
abbrev OnlyPublishes {α : Type} (Q : α → Execution → Ledger → Prop) (E : Execution → Ledger → Prop)
    (x : CoordinatorM α) (s : Execution) (ledger : Ledger) : Prop :=
  Effectful.Ends (fun _ call => ∃ run, call = .publish run)
    (fun ledger call answer ledger' => ledger' = ledger.observe ⟨call, answer⟩) Q E x s ledger

/-- Publishing only publishes. -/
theorem publish_onlyPublishes {s' : Execution} {ledger' : Ledger} (hs : s' = s)
    (h : ledger.SameAttempts ledger') :
    OnlyPublishes (fun _ s' ledger' => s' = s ∧ ledger.SameAttempts ledger')
      (fun s' ledger' => s' = s ∧ ledger.SameAttempts ledger') CoordinatorM.publish s' ledger' := by
  obtain ⟨published, rfl⟩ := h
  refine .bind_get (.bind (Q := fun _ s' ledger' => s' = s ∧ ledger.SameAttempts ledger') ?_ ?_)
  · refine Effectful.Ends.ask (c := RuntimeCall.publish s'.run) ⟨_, rfl⟩ ?_
    rintro _ _ rfl
    exact ⟨hs, some s'.run, rfl⟩
  · exact fun _ _ _ h => .unwrap h fun _ _ => h

/-- A method that is refused publishes, and changes nothing. -/
theorem refused_safe (call : CoordinatorCall)
    (hrefused : s.coordinator.runId ≠ s.run.runId ∨ s.coordinator.halted = true) :
    LedgerSafe (fun _ call => ∃ run, call = .publish run)
      (fun result ledger' => result.2 = s ∧ ledger.SameAttempts ledger') (call.program texts s)
      ledger := by
  have howner : ∀ {s' ledger'}, s' = s → ledger.SameAttempts ledger' →
      OnlyPublishes (fun _ _ _ => False) (fun s' ledger' => s' = s ∧ ledger.SameAttempts ledger')
        CoordinatorM.requireOwner s' ledger' := by
    rintro _ ledger' rfl hledger
    refine .bind_get (.bind_reject (fun _ => ⟨rfl, hledger⟩) fun hrun => ?_)
    refine .reject (fun _ => ⟨rfl, hledger⟩) fun hhalted => ?_
    exact hrefused.elim hrun hhalted
  have hends : OnlyPublishes (fun _ s' ledger' => s' = s ∧ ledger.SameAttempts ledger')
      (fun s' ledger' => s' = s ∧ ledger.SameAttempts ledger') (call.body texts) s ledger := by
    have hstart : ledger.SameAttempts ledger := ⟨ledger.published, rfl⟩
    cases call with
    | executeRun =>
        refine .bind (Q := fun _ s' ledger' => s' = s ∧ ledger.SameAttempts ledger') ?_
          fun _ _ _ h => h
        refine .bind (publish_onlyPublishes rfl hstart) fun _ s' ledger' h => ?_
        refine .bind (Q := fun _ _ _ => False) ?_ fun _ _ _ h => h.elim
        refine .tryCatch
          (.bind (howner h.1 h.2) fun _ _ _ h => h.elim) fun failure s' ledger' h => ?_
        cases failure with
        | panic => exact h
        | error error => exact .bind (publish_onlyPublishes h.1 h.2) fun _ _ _ h => .fail h
    | executeAction action operation =>
        refine .bind (Q := fun _ _ _ => False) ?_ fun _ _ _ h => h.elim
        exact .bind (howner rfl hstart) fun _ _ _ h => h.elim
  exact hends.safe (fun _ _ _ h => h) fun _ _ _ h => h

/-- What holds of a session: between two methods the coordinator is sound; inside one every call is
allowed, and the method leaves it sound. -/
def CoordinatorSession.Sound (keys : ContractKeys) (owner : Uuid) (session : CoordinatorSession) :
    Prop :=
  match session.mode with
  | .idle coordinator run => DisksGraph.Sound keys owner false ⟨coordinator, run⟩ session.ledger
  | .busy other program =>
      LedgerSafe (Ledger.Allows owner) (fun result ledger =>
        DisksGraph.Sound keys owner false ⟨result.2.coordinator, other.getD result.2.run⟩ ledger)
        program session.ledger

/-- A coordinator call is safe and keeps the session sound. -/
theorem program_safe (call : CoordinatorCall) (h : Sound keys owner false s ledger) :
    LedgerSafe (Ledger.Allows owner) (fun result ledger => Sound keys owner false result.2 ledger)
      (call.program texts s) ledger := by
  have hends : CoordinatorM.Ends owner (fun _ => Sound keys owner false) (Sound keys owner false)
      (call.body texts) s ledger := by
    cases call with
    | executeRun =>
        exact .bind (CoordinatorM.executeRunWithUpdates_keeps s ledger h) fun _ _ _ h => h
    | executeAction action operation =>
        exact .bind (CoordinatorM.executeActionLocked_keeps s ledger h) fun _ _ _ h => h
  exact hends.safe (fun _ _ _ h => h) fun _ _ _ h => h

theorem CoordinatorSession.Sound.step (h : session.Sound keys owner)
    (hstep : CoordinatorStep texts session session') : session'.Sound keys owner := by
  cases hstep with
  | operate hcall => exact Sound.stable.called h hcall
  | invoke call => exact program_safe call h
  | @invokeOther _ coordinator run other call hother =>
      obtain ⟨plan, phase, hat, hlocked, hlatch⟩ := h
      have hrefused : coordinator.runId ≠ other.runId := fun heq =>
        hother (heq.symm.trans (hat.coordinator.trans hat.run.symm))
      refine Safe.allow (Safe.mono (refused_safe call (.inl hrefused)) ?_) ?_
      · rintro ⟨result, _⟩ _ ⟨rfl, published, rfl⟩
        exact ⟨plan, phase, At.stable.published hat, hlocked, hlatch⟩
      · rintro _ _ ⟨run, rfl⟩
        trivial
  | answer answer =>
      rw [CoordinatorSession.Sound, CoordinatorSession.ledger_append]
      exact h.2 answer _ rfl
  | finish => exact h

/-- **Every session reached is sound.** -/
theorem CoordinatorSession.Sound.later (h : session.Sound keys owner)
    (hlater : CoordinatorLater texts session session') : session'.Sound keys owner := by
  induction hlater with
  | refl => exact h
  | tail _ hstep ih => exact ih.step hstep

theorem CoordinatorSession.Sound.new {run : ExecutionRun} (h : Reachable keys run) :
    (CoordinatorSession.new run).Sound keys run.runId :=
  ⟨_, { locked := false, halted := false },
    { reachable := h, coordinator := rfl, run := rfl, plan := rfl, past := nofun, halted := rfl
      locked := rfl, armed := rfl, unsettled := rfl }, rfl, .inr ⟨rfl, rfl⟩⟩

/-- An unsettled invocation keeps an idle coordinator halted. -/
theorem CoordinatorSession.Sound.halted {coordinator : ExecutionCoordinator} {run : ExecutionRun}
    (h : session.Sound keys owner) (hmode : session.mode = .idle coordinator run)
    (hunsettled : session.ledger.unsettled ≠ none) : coordinator.halted = true := by
  rw [CoordinatorSession.Sound, hmode] at h
  obtain ⟨plan, phase, hat, -, hlatch | ⟨-, hlatch⟩⟩ := h
  · exact hat.halted.trans hlatch
  · exact absurd (hat.unsettled.trans hlatch) hunsettled

/-! ### A halted coordinator -/

/-- The coordinator is halted, or inside a method that is refused. -/
def CoordinatorSession.Stopped (session : CoordinatorSession) : Prop :=
  match session.mode with
  | .idle coordinator _ => coordinator.halted = true
  | .busy _ program =>
      LedgerSafe (fun _ call => ∃ run, call = .publish run)
        (fun result _ => result.2.coordinator.halted = true) program session.ledger

theorem CoordinatorSession.Stopped.step (h : session.Stopped)
    (hstep : CoordinatorStep texts session session') :
    session'.Stopped ∧ session'.ledger.dispatched = session.ledger.dispatched := by
  have hprogram : ∀ {s : Execution} {ledger : Ledger} (call : CoordinatorCall),
      s.coordinator.halted = true →
      LedgerSafe (fun _ call => ∃ run, call = .publish run)
        (fun result _ => result.2.coordinator.halted = true) (call.program texts s) ledger := by
    intro s ledger call hhalted
    refine Safe.mono (refused_safe call (.inr hhalted)) ?_
    rintro ⟨result, _⟩ _ ⟨rfl, -⟩
    exact hhalted
  cases hstep with
  | operate hcall => exact ⟨h, rfl⟩
  | invoke call => exact ⟨hprogram call h, rfl⟩
  | invokeOther call hother => exact ⟨hprogram call h, rfl⟩
  | @answer trace other request next answer =>
      obtain ⟨⟨run, rfl⟩, hnext⟩ := h
      have hledger : CoordinatorSession.ledger
          ⟨trace ++ [⟨.publish run, answer⟩], .busy other (next answer)⟩ =
          (CoordinatorSession.ledger ⟨trace, .busy other (.call (.publish run) next)⟩).observe
            ⟨.publish run, answer⟩ :=
        CoordinatorSession.ledger_append
      refine ⟨?_, by rw [hledger]; rfl⟩
      rw [CoordinatorSession.Stopped, hledger]
      exact hnext answer _ rfl
  | finish => exact ⟨h, rfl⟩

/-- A stopped session never dispatches again. -/
theorem CoordinatorSession.Stopped.later (h : session.Stopped)
    (hlater : CoordinatorLater texts session session') :
    session'.Stopped ∧ session'.ledger.dispatched = session.ledger.dispatched := by
  induction hlater with
  | refl => exact ⟨h, rfl⟩
  | tail _ hstep ih =>
      obtain ⟨hstopped, hdispatched⟩ := ih.1.step hstep
      exact ⟨hstopped, hdispatched.trans ih.2⟩

end Invariant

/-- **At most one dispatch.**  Whatever the host, the checkpoint store, the dispatcher and the
observer answer, and however the owner uses the coordinator and its run: the dispatcher is invoked
only for an action of the coordinator's run that it was never invoked for, with all its transitive
predecessors verified and the checkpoint of exactly this run, plan and action armed, and only when
every invocation before was settled.  A coordinator that is left with an unsettled invocation is
halted, stays halted and never invokes the dispatcher again. -/
theorem at_most_once_dispatch {keys : ContractKeys} {texts : CoordinatorText} {run : ExecutionRun}
    {session : CoordinatorSession} (hrun : Reachable keys run)
    (h : CoordinatorLater texts (.new run) session) :
    (∀ current action, session.Invokes current action →
      current.runId = run.runId ∧ action.actionId ∉ session.ledger.dispatched ∧
      (∀ before, Relation.TransGen (Precedes current.plan.dependencies) before action.actionId →
        current.stateAt before.get = some .verified) ∧
      (∃ attempt, session.ledger.armed = some attempt ∧ attempt.runId = current.runId ∧
        attempt.planId = current.document.planId ∧ attempt.actionId = action.actionId) ∧
      session.ledger.unsettled = none) ∧
    ∀ coordinator current, session.mode = .idle coordinator current →
      session.ledger.unsettled ≠ none → coordinator.halted = true ∧
      ∀ later, CoordinatorLater texts session later →
        later.ledger.dispatched = session.ledger.dispatched ∧
        (¬∃ current action, later.Invokes current action) ∧
        ∀ coordinator current, later.mode = .idle coordinator current →
          coordinator.halted = true := by
  have hsound := (CoordinatorSession.Sound.new hrun).later h
  refine ⟨?_, ?_⟩
  · rintro current action ⟨other, next, hmode⟩
    rw [CoordinatorSession.Sound, hmode] at hsound
    obtain ⟨attempt, harmed, hnames⟩ := hsound.1.armed
    exact ⟨hsound.1.owner, hsound.1.first, hsound.1.before,
      ⟨attempt, harmed, hnames.runId, hnames.planId, hnames.actionId⟩, hsound.1.settled⟩
  · intro coordinator current hmode hunsettled
    have hhalted := hsound.halted hmode hunsettled
    refine ⟨hhalted, fun later hlater => ?_⟩
    have hstopped : session.Stopped := by
      rw [CoordinatorSession.Stopped, hmode]
      exact hhalted
    obtain ⟨hstopped, hdispatched⟩ := hstopped.later hlater
    refine ⟨hdispatched, ?_, ?_⟩
    · rintro ⟨current, action, other, next, hmode⟩
      rw [CoordinatorSession.Stopped, hmode] at hstopped
      obtain ⟨run, hpublish⟩ := hstopped.1
      cases hpublish
    · intro coordinator current hmode
      rw [CoordinatorSession.Stopped, hmode] at hstopped
      exact hstopped

/-! ### The creation of a volume -/

/-- The JSON text of the specification of the created volume. -/
def sampleSpecText : String :=
  "\x7b\"kind\":\x7b\"LvmLv\":\x7b\"name\":\"data\",\"kind\":\"Linear\"\x7d\x7d,\"size\":4096\x7d"

/-- The JSON texts of the contract of `sampleCreation`. -/
def sampleVolumeKeys : ContractKeys := ContractTexts.keys {
  prerequisite := ⟨[
    (.nodeExists sampleVg, "\x7b\"node_exists\":\"00000000-0000-0000-0000-000000000003\"\x7d"),
    (.nodeKind sampleVg .lvmVg,
      "\x7b\"node_kind\":\x7b\"node\":\"00000000-0000-0000-0000-000000000003\"," ++
        "\"expected\":\"lvm_vg\"\x7d\x7d"),
    (.capacityAvailable (.lvmVolumeGroup sampleVg) (some 1),
      "\x7b\"capacity_available\":\x7b\"domain\":\x7b\"lvm_volume_group\":" ++
        "\"00000000-0000-0000-0000-000000000003\"\x7d,\"amount\":1\x7d\x7d")],
    by decide⟩
  output := ⟨[
    (.node sampleLv ⟨.lvmLv ⟨"data", .linear⟩, some 4096⟩,
      "\x7b\"node\":\x7b\"id\":\"00000000-0000-0000-0000-000000000004\",\"spec\":" ++
        sampleSpecText ++
        "\x7d\x7d")],
    by decide⟩
  resource := ⟨[
    (⟨.lvmMetadata sampleVg, .write⟩,
      "\x7b\"resource\":\x7b\"lvm_metadata\":\"00000000-0000-0000-0000-000000000003\"\x7d," ++
        "\"mode\":\"write\"\x7d"),
    (⟨.node sampleLv, .write⟩,
      "\x7b\"resource\":\x7b\"node\":\"00000000-0000-0000-0000-000000000004\"\x7d," ++
        "\"mode\":\"write\"\x7d")],
    by decide⟩
  fact := ⟨[
    (⟨.node sampleVg, .geometry⟩,
      "\x7b\"scope\":\x7b\"node\":\"00000000-0000-0000-0000-000000000003\"\x7d," ++
        "\"kind\":\"geometry\"\x7d"),
    (⟨.node sampleVg, .topology⟩,
      "\x7b\"scope\":\x7b\"node\":\"00000000-0000-0000-0000-000000000003\"\x7d," ++
        "\"kind\":\"topology\"\x7d")],
    by decide⟩
  postcondition := ⟨[
    (.nodeMatches sampleLv ⟨.lvmLv ⟨"data", .linear⟩, some 4096⟩,
      "\x7b\"node_matches\":\x7b\"id\":\"00000000-0000-0000-0000-000000000004\",\"spec\":" ++
        sampleSpecText ++ "\x7d\x7d"),
    (.dependencyPresent ⟨sampleVg, sampleLv, .provides⟩,
      "\x7b\"dependency_present\":\x7b\"from\":\"00000000-0000-0000-0000-000000000003\"," ++
        "\"to\":\"00000000-0000-0000-0000-000000000004\",\"kind\":\"Provides\"\x7d\x7d")],
    by decide⟩
  effect := ⟨[], List.nodup_nil⟩ }

/-- A plan whose goal is the created volume. -/
def sampleVolumeDocument : PlanDocument :=
  { sampleCreationRun.document with
    requestedGoal := { DesiredState.fromCurrent sampleGroupState with
      graph := (sampleGroup.setNode sampleLv
        ⟨⟨.lvmLv ⟨"data", .linear⟩, some 4096⟩, { presence := .present }⟩).insertDependency
          ⟨sampleVg, sampleLv, .provides⟩ } }

/-- The attempt before its check. -/
def sampleVolumeRun : ExecutionRun where
  runId := 7#128
  document := sampleVolumeDocument
  plan := ⟨[sampleCreation], []⟩
  actions := [{}]
  goalAspects := [.graph, .boot]

theorem reachable_sampleVolumeRun : Reachable sampleVolumeKeys sampleVolumeRun :=
  .new (show ExecutionRun.new sampleVolumeKeys 7#128 sampleVolumeDocument = pure sampleVolumeRun
    from rfl)

/-- A host with policies that approve, a store without an incident, and a dispatcher that
panics. -/
def sampleAnswers : (call : RuntimeCall) → call.Answer
  | .publish _ => some ()
  | .tryLockHost | .tryCloneLock => .ok ()
  | .releaseLock => ()
  | .inspect store => (.ok none, store)
  | .arm store _ | .clear store _ => (.ok (), store)
  | .probe => .ok sampleProbe
  | .checkPlan .. => .ok LiveCheckStatus.satisfied
  | .checkAdmission run action observed bindings lease =>
      ((LinuxLiveHost.checkAdmission ⟨some ⟨9#128, 1⟩⟩ sampleEncoding (fun _ => "") run action
        observed bindings lease).run.respond approving).2
  | .verifyGoal .. => .error .panic
  | .backendFor _ => some (⟨"lvm"⟩ : BackendId)
  | .execute .. =>
      (([], .error .panic) : List String × Except (Failure DispatchError) ExecutionReceipt)

/-- Texts that tell the values of the volume's run apart. -/
def sampleTexts : CoordinatorText := ⟨sampleVolumeKeys, sampleEncoding, fun _ => ""⟩

/-- The creation, after its first ten calls. -/
def sampleVolumeCalls : RuntimeTrace × MethodProgram :=
  ((CoordinatorCall.executeAction ⟨0⟩ none).program sampleTexts
    ⟨.new sampleVolumeRun, sampleVolumeRun⟩).advance sampleAnswers 10

/-- The session after the calls of the run, still busy. -/
def sampleVolumeSession : CoordinatorSession :=
  ⟨sampleVolumeCalls.1, .busy none sampleVolumeCalls.2⟩

/-- The run and the action that a session waits for. -/
def CoordinatorSession.invoked (session : CoordinatorSession) :
    Option (ExecutionRun × ResolvedAction) :=
  match session.mode with
  | .busy _ (.call (.execute run action) _) => some (run, action)
  | _ => none

/-- What is found to be invoked is invoked. -/
theorem CoordinatorSession.invokes_of_invoked {session : CoordinatorSession} {run : ExecutionRun}
    {action : ResolvedAction} (h : session.invoked = some (run, action)) :
    session.Invokes run action := by
  rw [invoked] at h
  split at h
  · next other run' action' next hmode =>
    obtain ⟨rfl, rfl⟩ := Prod.mk.inj (Option.some.inj h)
    exact ⟨other, next, hmode⟩
  · cases h

/-- The sample invokes its action, which is armed and not yet dispatched. -/
theorem sample_volume_dispatched_once :
    ∃ current action attempt, sampleVolumeSession.Invokes current action ∧
      action.actionId = ⟨0⟩ ∧ action.actionId ∉ sampleVolumeSession.ledger.dispatched ∧
      sampleVolumeSession.ledger.armed = some attempt ∧ attempt.runId = 7#128 ∧
      attempt.actionId = action.actionId := by
  have hlater : CoordinatorLater sampleTexts (.new sampleVolumeRun) sampleVolumeSession :=
    .head (.invoke (.executeAction ⟨0⟩ none))
      (CoordinatorLater.of_steps (Program.steps_advance sampleAnswers 10 _) [])
  have hinvoked : sampleVolumeSession.invoked.map (fun pair => pair.2.actionId) = some ⟨0⟩ := rfl
  obtain ⟨⟨current, action⟩, hpair, haction⟩ := Option.map_eq_some_iff.mp hinvoked
  have hinvokes := CoordinatorSession.invokes_of_invoked hpair
  obtain ⟨howner, hfirst, -, ⟨attempt, harmed, hrun, -, hid⟩, -⟩ :=
    (at_most_once_dispatch reachable_sampleVolumeRun hlater).1 current action hinvokes
  exact ⟨current, action, attempt, hinvokes, haction, hfirst, harmed, hrun.trans howner, hid⟩

end DisksGraph
