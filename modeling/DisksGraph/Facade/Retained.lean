import DisksGraph.Facade.Objects

/-!
# Facade — Retained

Requests keep what a protocol owns, whatever the host answers and however they end.

* `Coordinated`: a coordinator leaves what one of its runs leaves.
* `FacadeM`: the methods that only read are still; the others end in a kept protocol.
* `dispatch_keeps`, `callWithPolicy_keeps`: one request.
-/

namespace DisksGraph

open Support (Effectful Failure Program Returns Stateful)
open Support.Effectful (Ends Quiet)

/-! ### What the host answers -/

/-- A coordinator leaves what one of its runs leaves. -/
def Coordinated (texts : CoordinatorText) : Program.Event FacadeCall FacadeCall.Answer → Prop
  | ⟨.executeRun run, answer⟩ => ∃ calls execution,
      Program.Runs ((CoordinatorM.executeRunWithUpdates texts).start ⟨.new run, run⟩) calls
        ((answer : Except (Failure CoordinatorError) ExecutionSummary × ExecutionRun).1,
          execution) ∧
      execution.run =
        (answer : Except (Failure CoordinatorError) ExecutionSummary × ExecutionRun).2
  | _ => True

/-- What a coordinator leaves is a run of the same attempt. -/
theorem coordinated_reachable {texts : CoordinatorText} {run left : ExecutionRun}
    {result : Except (Failure CoordinatorError) ExecutionSummary}
    (hrun : Reachable texts.keys run)
    (h : Coordinated texts (⟨.executeRun run, (result, left)⟩ :
      Program.Event FacadeCall FacadeCall.Answer)) :
    Reachable texts.keys left ∧ left.runId = run.runId := by
  obtain ⟨calls, execution, hruns, rfl⟩ := h
  -- The coordinator of an attempt is a new one, so its ledger is empty.
  have hstart : Sound texts.keys run.runId false ⟨.new run, run⟩ {} :=
    CoordinatorSession.Sound.new hrun
  have hkeeps : CoordinatorM.Keeps run.runId (Sound texts.keys run.runId false)
      (CoordinatorM.executeRunWithUpdates texts) :=
    CoordinatorM.executeRunWithUpdates_keeps
  have hsafe := (hkeeps _ _ hstart).safe
    (P := fun result ledger => Sound texts.keys run.runId false result.2 ledger)
    (fun _ _ _ h => h) fun _ _ _ h => h
  have hended : Sound texts.keys run.runId false execution (calls.foldl Ledger.observe {}) :=
    Program.Safe.steps hsafe hruns
  obtain ⟨plan, phase, hat, -⟩ := hended
  exact ⟨hat.reachable, hat.run⟩

/-- Calls that neither give out a review nor use one up. -/
def FacadeCall.isPassive : FacadeCall → Bool
  | .reviewIncident | .acknowledgeIncident .. => false
  | _ => true

/-- A passive call is always allowed. -/
theorem ReviewLedger.allows_passive {call : FacadeCall} (h : call.isPassive = true)
    (ledger : ReviewLedger) : ledger.Allows call := by
  cases call with
  | acknowledgeIncident review confirmation => cases h
  | _ => trivial

/-- A passive call is not entered in the ledger. -/
theorem ReviewLedger.observe_passive {call : FacadeCall} (h : call.isPassive = true)
    (ledger : ReviewLedger) (answer : call.Answer) : ledger.observe ⟨call, answer⟩ = ledger := by
  cases call with
  | reviewIncident => cases h
  | acknowledgeIncident review confirmation => cases h
  | _ => rfl

/-- What a host answers, with a coordinator that is trusted or not, and what the ledger says. -/
def Answers.Honest (texts : CoordinatorText) (trusted : Prop) (ledger : ReviewLedger)
    (call : FacadeCall) (answer : call.Answer) (ledger' : ReviewLedger) : Prop :=
  (trusted → Coordinated texts ⟨call, answer⟩) ∧ ledger' = ledger.observe ⟨call, answer⟩

section Rules

variable {ε σ α β : Type} (texts : CoordinatorText) (trusted : Prop)

/-- Whatever the host answers, the program returns in `Q` or fails in `E`. -/
abbrev Ensures (Q : α → σ → ReviewLedger → Prop) (E : σ → ReviewLedger → Prop)
    (x : Effectful FacadeCall FacadeCall.Answer ε σ α) (s : σ) (ledger : ReviewLedger) : Prop :=
  Ends ReviewLedger.Allows (Answers.Honest texts trusted) Q E x s ledger

/-- Neither the value nor the ledger changes. -/
abbrev Still (x : Effectful FacadeCall FacadeCall.Answer ε σ α) : Prop :=
  Quiet ReviewLedger.Allows (Answers.Honest texts trusted) x

variable {texts trusted}

/-- Where a run ends that is answered so, and what it asks. -/
theorem Ensures.runs {P : σ → ReviewLedger → Prop}
    {x : Effectful FacadeCall FacadeCall.Answer ε σ α} {s s' : σ} {ledger : ReviewLedger}
    (h : Ensures texts trusted (fun _ => P) P x s ledger) {calls : FacadeTrace}
    {result : Except (Failure ε) α} (hrun : Program.Runs (x.start s) calls (result, s'))
    (hhonest : ∀ event ∈ calls, trusted → Coordinated texts event) :
    P s' (calls.foldl ReviewLedger.observe ledger) ∧
      Program.Granted ReviewLedger.Allows ReviewLedger.observe ledger calls := by
  have hsafe : Program.Safe ReviewLedger.Allows (fun ledger call answer ledger' =>
      (trusted → Coordinated texts ⟨call, answer⟩) ∧ ledger' = ledger.observe ⟨call, answer⟩)
      (fun result => P result.2) (x.start s) ledger :=
    Ends.safe h (fun _ _ _ hdone => hdone) fun _ _ _ hdone => hdone
  constructor
  · exact @Program.Safe.runs _ _ _ _ _ (fun event => trusted → Coordinated texts event)
      ReviewLedger.observe _ _ _ hsafe _ _ hrun hhonest
  · exact @Program.Safe.granted _ _ _ _ _ (fun event => trusted → Coordinated texts event)
      ReviewLedger.observe _ _ _ hsafe _ _ hrun hhonest

/-- A passive call leaves everything still. -/
theorem Still.ask {call : FacadeCall} (h : call.isPassive = true) :
    Still texts trusted
      (Effectful.ask call : Effectful FacadeCall FacadeCall.Answer ε σ call.Answer) := by
  refine Quiet.ask call (ReviewLedger.allows_passive h) ?_
  rintro ledger answer _ ⟨-, rfl⟩
  exact ReviewLedger.observe_passive h ledger answer

end Rules

/-! ### Methods of the application -/

namespace FacadeM

variable {texts : CoordinatorText} {trusted : Prop} {application : Application}
  {ledger : ReviewLedger}

section Reads

theorem newId_still : Still texts trusted newId := Still.ask rfl

/-- A session that is looked up is one of those held, or the method fails. -/
theorem session_ends {id : SessionId} {Q : PlanSession → Application → ReviewLedger → Prop}
    {E : Application → ReviewLedger → Prop} (hE : E application ledger)
    (hQ : ∀ session, application.sessions.lookup id = some session → Q session application ledger) :
    Ensures texts trusted Q E (FacadeM.session id) application ledger := by
  refine .bind_get ?_
  cases hsession : application.sessions.lookup id with
  | none => exact .fail hE
  | some session => exact .pure (hQ session hsession)

theorem session_still (id : SessionId) : Still texts trusted (FacadeM.session id) :=
  fun _ _ => session_ends ⟨rfl, rfl⟩ fun _ _ => ⟨rfl, rfl⟩

/-- A plan that is exported is one of those held, or the method fails. -/
theorem exportPlan_ends {id : PlanId} {Q : PlanDocument → Application → ReviewLedger → Prop}
    {E : Application → ReviewLedger → Prop} (hE : E application ledger)
    (hQ : ∀ document, application.plans.lookup id = some document → Q document application ledger) :
    Ensures texts trusted Q E (exportPlan id) application ledger := by
  refine .bind_get ?_
  cases hplan : application.plans.lookup id with
  | none => exact .fail hE
  | some document => exact .pure (hQ document hplan)

theorem exportPlan_still (id : PlanId) : Still texts trusted (exportPlan id) :=
  fun _ _ => exportPlan_ends ⟨rfl, rfl⟩ fun _ _ => ⟨rfl, rfl⟩

theorem exportDraft_still (id : SessionId) : Still texts trusted (exportDraft id) :=
  .bind (session_still id) fun _ => .pure _

theorem run_still (id : RunId) : Still texts trusted (FacadeM.run id) := by
  refine .bind .get fun application => ?_
  cases application.runs.lookup id with
  | none => exact .throw _
  | some record => exact .pure record

theorem runSnapshot_still (id : RunId) : Still texts trusted (runSnapshot id) :=
  .bind (run_still id) fun _ => .unwrap _

theorem events_still (id : RunId) (since : Nat) : Still texts trusted (events id since) :=
  .bind (run_still id) fun _ => .evaluate _ _

theorem hostProbe_still : Still texts trusted hostProbe :=
  .bind (Still.ask rfl) fun _ => .returned _ _

theorem probe_still : Still texts trusted probe := .bind hostProbe_still fun _ => .pure _

theorem probeBaseline_still : Still texts trusted probeBaseline :=
  .bind hostProbe_still fun _ => .bind newId_still fun _ => .pure _

theorem capability_still (observed : ProbedObservation) (operation : ProviderAction) :
    Still texts trusted (capability observed operation) := by
  refine .bind (Still.ask rfl) fun route => .bind (.unwrap _) fun backend => ?_
  exact .bind (Still.ask rfl) fun answer => .bind (.unwrap _) fun availability => .pure _

/-- Asking for capabilities leaves everything still. -/
theorem capabilities_still (operations : List ProviderAction) :
    Still texts trusted (capabilities operations) := by
  have hlocked : Still texts trusted (capabilitiesLocked operations) := by
    refine .bind (Still.ask rfl) fun answer => .bind (.returned _ _) fun marker => ?_
    refine .bind hostProbe_still fun observed => .bind (.mapM ?_ operations) fun _ => .pure _
    exact capability_still observed
  refine .bind (.reject _ _) fun _ => .bind (Still.ask rfl) fun answer => ?_
  refine .bind (.returned _ _) fun _ => hlocked.ensuring fun ledger => ⟨trivial, ?_⟩
  exact fun answer ledger' h => h.2.trans (ReviewLedger.observe_passive rfl ledger answer)

theorem incident_still : Still texts trusted incident :=
  .bind (Still.ask rfl) fun _ => .returned _ _

/-- Freezing a draft leaves the sessions still. -/
theorem freeze_still (keys : ContractKeys) (id : SessionId) (revision : DraftRevision) :
    Still texts trusted (freeze keys id revision) :=
  .bind (session_still id) fun _ => .bind newId_still fun _ => .evaluate _ _

end Reads

/-- A rebase is prepared from a session of the application. -/
theorem prepareRebase_ends {text : EditingText} {id : SessionId} {revision : DraftRevision}
    {Q : RebasePreview → Application → ReviewLedger → Prop}
    {E : Application → ReviewLedger → Prop} (hE : E application ledger)
    (hQ : ∀ candidate session, application.sessions.lookup id = some session →
      candidate.Prepared text session → Q candidate application ledger) :
    Ensures texts trusted Q E (prepareRebase text.keys id revision) application ledger := by
  refine (session_still id).andThen hE fun _ => ?_
  refine (Quiet.reject _ _).andThen hE fun _ => ?_
  refine probeBaseline_still.andThen hE fun baseline => ?_
  refine Ends.bind (session_ends (Q := fun session application' ledger' =>
    application' = application ∧ ledger' = ledger ∧
      application.sessions.lookup id = some session) hE fun session h => ⟨rfl, rfl, h⟩) ?_
  rintro session _ _ ⟨rfl, rfl, hsession⟩
  refine .evaluate hE fun candidate hcandidate => ?_
  exact hQ candidate session hsession ⟨revision, baseline, hcandidate⟩

/-- What a coordinator leaves of an attempt. -/
theorem coordinate_ends {attempt : ExecutionRun}
    {Q : ExecutionRun × Option DisksGraphError → Application → ReviewLedger → Prop}
    {E : Application → ReviewLedger → Prop} (hattempt : Reachable texts.keys attempt)
    (hE : E application ledger)
    (hQ : ∀ left error, (trusted → Reachable texts.keys left ∧ left.runId = attempt.runId) →
      Q (left, error) application ledger) :
    Ensures texts trusted Q E (coordinate attempt) application ledger := by
  refine Ends.bind_ask FacadeCall.tryCloneRoot trivial ?_
  rintro (cloned : Except (Failure LeaseError) Unit) _ ⟨-, rfl⟩
  match cloned with
  | .error .panic => exact .throw hE
  -- Without a lease the attempt stays as it was made.
  | .error (.error error) => exact .pure (hQ _ _ fun _ => ⟨hattempt, rfl⟩)
  | .ok () =>
      refine Ends.bind_ask (FacadeCall.executeRun attempt) trivial ?_
      rintro (answer : Except (Failure CoordinatorError) ExecutionSummary × ExecutionRun) _
        ⟨hcoordinated, rfl⟩
      obtain ⟨result, left⟩ := answer
      have hleft : trusted → Reachable texts.keys left ∧ left.runId = attempt.runId :=
        fun htrusted => coordinated_reachable hattempt (hcoordinated htrusted)
      match result with
      | .error .panic => exact .throw hE
      | .error (.error error) => exact .pure (hQ _ _ hleft)
      | .ok summary => exact .pure (hQ _ _ hleft)

end FacadeM

/-! ### Requests -/

/-- What requests keep. -/
structure Protocol.Holds (text : EditingText) (past : SessionId → PlanSession → Prop)
    (trusted : Prop) (protocol : Protocol) (ledger : ReviewLedger) : Prop where
  kept : protocol.Kept text past trusted
  accounts : Accounts protocol.reviews ledger

/-- The answer of a method on a session is dropped. -/
theorem call_adapt_discard {δ ε σ β : Type} {x : Stateful δ σ β} (into : δ → ε) {s s' : σ}
    {result : Except δ β} (h : Stateful.call x s = some (result, s')) :
    ∃ result', Stateful.call (Functor.discard (ExceptT.adapt into x) : Stateful ε σ PUnit) s =
      some (result', s') := by
  have hx : x s = some (result, s') := h
  cases result with
  | error error =>
      have hadapt : Stateful.call (ExceptT.adapt into x : Stateful ε σ β) s =
          some (.error (into error), s') := by
        change (x s).bind _ = _
        rw [hx]
        rfl
      exact ⟨_, Stateful.call_bind_error hadapt⟩
  | ok value =>
      have hadapt : Stateful.call (ExceptT.adapt into x : Stateful ε σ β) s =
          some (.ok value, s') := by
        change (x s).bind _ = _
        rw [hx]
        rfl
      exact ⟨_, Stateful.call_bind_ok hadapt⟩

/-- From any protocol, however the method ends, everything still holds. -/
def ProtocolM.Keeps {α : Type} (texts : CoordinatorText) (past : SessionId → PlanSession → Prop)
    (trusted : Prop) (text : EditingText) (x : ProtocolM α) : Prop :=
  ∀ protocol ledger, protocol.Holds text past trusted ledger →
    Ensures texts trusted (fun _ protocol ledger => protocol.Holds text past trusted ledger)
      (fun protocol ledger => protocol.Holds text past trusted ledger) x protocol ledger

/-- The same for a method of the application, in a protocol. -/
abbrev FacadeM.Keeps {α : Type} (texts : CoordinatorText) (past : SessionId → PlanSession → Prop)
    (trusted : Prop) (text : EditingText) (protocol : Protocol) (x : FacadeM α)
    (ledger : ReviewLedger) : Prop :=
  Ensures texts trusted
    (fun _ app ledger => Protocol.Holds text past trusted { protocol with app } ledger)
    (fun app ledger => Protocol.Holds text past trusted { protocol with app } ledger)
    x protocol.app ledger

namespace FacadeM

variable {texts : CoordinatorText} {past : SessionId → PlanSession → Prop} {trusted : Prop}
  {text : EditingText} {protocol : Protocol}
  {ledger : ReviewLedger}

/-- A method that leads to a reachable session keeps what is held. -/
theorem onSession_keeps {ε α : Type} {id : SessionId} {into : ε → DisksGraphError}
    {method : SessionM ε α} (h : protocol.Holds text past trusted ledger)
    (hnext : ∀ session result next, session.Reachable text →
      Stateful.call method session = some (result, next) → next.Reachable text) :
    Keeps texts past trusted text protocol (onSession id into method) ledger := by
  refine Ends.bind (session_ends (Q := fun session app ledger' => app = protocol.app ∧
    ledger' = ledger ∧ protocol.app.sessions.lookup id = some session) h
      fun session hsession => ⟨rfl, rfl, hsession⟩) ?_
  rintro session _ _ ⟨rfl, rfl, hsession⟩
  have hreach := h.kept.sessions id session hsession
  cases hcall : Stateful.call method session with
  | none => exact .throw h
  | some answer =>
      obtain ⟨result, next⟩ := answer
      have hholds : Protocol.Holds text past trusted { protocol with
          app := { protocol.app with sessions := protocol.app.sessions.replace id next } } _ :=
        ⟨h.kept.replaceSession (hnext session result next hreach hcall) id, h.accounts⟩
      refine Ends.bind (Q := fun _ app ledger =>
        Protocol.Holds text past trusted { protocol with app } ledger)
        (Ends.modify hholds) fun _ _ _ hdone => ?_
      exact .lift hdone fun _ _ => hdone

/-- An edit keeps what is held. -/
theorem edit_keeps {id : SessionId} {revision : DraftRevision} {command : PlanEdit}
    (h : protocol.Holds text past trusted ledger) :
    Keeps texts past trusted text protocol (edit text.keys id revision command) ledger := by
  refine newId_still.andThen h fun operation => newId_still.andThen h fun node => ?_
  refine onSession_keeps h fun session result next hreach hcall => ?_
  obtain ⟨_, hrun⟩ := call_adapt_discard Sum.inl hcall
  have hprep : (SessionCall.edit revision command ⟨operation⟩ ⟨node⟩).Prepared text.keys := trivial
  exact .call hreach hprep hrun

/-- Undo keeps what is held. -/
theorem undo_keeps {id : SessionId} {revision : DraftRevision}
    (h : protocol.Holds text past trusted ledger) :
    Keeps texts past trusted text protocol (undo text.keys id revision) ledger := by
  refine onSession_keeps h fun session result next hreach hcall => ?_
  obtain ⟨_, hrun⟩ := call_adapt_discard Sum.inl hcall
  have hprep : (SessionCall.undo revision).Prepared text.keys := trivial
  exact .call hreach hprep hrun

/-- Redo keeps what is held. -/
theorem redo_keeps {id : SessionId} {revision : DraftRevision}
    (h : protocol.Holds text past trusted ledger) :
    Keeps texts past trusted text protocol (redo text.keys id revision) ledger := by
  refine onSession_keeps h fun session result next hreach hcall => ?_
  obtain ⟨_, hrun⟩ := call_adapt_discard Sum.inl hcall
  have hprep : (SessionCall.redo revision).Prepared text.keys := trivial
  exact .call hreach hprep hrun

/-- An accepted rebase keeps what is held. -/
theorem acceptRebase_keeps {id : SessionId} {revision : DraftRevision} {candidate : RebasePreview}
    (h : protocol.Holds text past trusted ledger) {source : PlanSession}
    (hprepared : candidate.Prepared text source) :
    Keeps texts past trusted text protocol (acceptRebase id revision candidate) ledger := by
  refine onSession_keeps h fun session result next hreach hcall => ?_
  obtain ⟨_, hrun⟩ := call_adapt_discard Sum.inr hcall
  have hprep : (SessionCall.acceptRebase revision candidate).Prepared text.keys :=
    ⟨source, hprepared⟩
  exact .call hreach hprep hrun

/-- Sessions are opened below the bound. -/
theorem checkSessionLimit_andThen {α : Type} {f : Unit → FacadeM α}
    (h : protocol.Holds text past trusted ledger)
    (hf : protocol.app.sessions.keys.length < MAX_APPLICATION_OBJECTS →
      Keeps texts past trusted text protocol (f ()) ledger) :
    Keeps texts past trusted text protocol (checkSessionLimit >>= f) ledger := by
  refine Ends.bind (Q := fun _ app ledger' => app = protocol.app ∧ ledger' = ledger ∧
    protocol.app.sessions.keys.length < MAX_APPLICATION_OBJECTS) ?_ ?_
  · exact .bind_get (.reject (fun _ => h) fun hroom => ⟨rfl, rfl, not_le.mp hroom⟩)
  · rintro _ _ _ ⟨rfl, rfl, hroom⟩
    exact hf hroom

/-- A session that is kept may be held. -/
theorem insertSession_keeps {session : PlanSession} (h : protocol.Holds text past trusted ledger)
    (hreach : session.Reachable text)
    (hroom : protocol.app.sessions.keys.length < MAX_APPLICATION_OBJECTS) :
    Keeps texts past trusted text protocol (insertSession session) ledger := by
  refine newId_still.andThen h fun id => ?_
  have hholds : Protocol.Holds text past trusted { protocol with
      app := { protocol.app with sessions := protocol.app.sessions.insert ⟨id⟩ session } } ledger :=
    ⟨h.kept.insertSession hreach hroom ⟨id⟩, h.accounts⟩
  exact Ends.bind (Ends.modify hholds) fun _ _ _ hdone => .pure hdone

/-- Opening a session keeps what is held. -/
theorem createSession_keeps (h : protocol.Holds text past trusted ledger) :
    Keeps texts past trusted text protocol (createSession text.keys) ledger := by
  refine checkSessionLimit_andThen h fun hroom => ?_
  refine probeBaseline_still.andThen h fun baseline => newId_still.andThen h fun id => ?_
  refine Ends.bind (Q := fun session app ledger' => app = protocol.app ∧ ledger' = ledger ∧
    session.Reachable text) (.evaluate h fun session hnew => ⟨rfl, rfl, .new hnew⟩) ?_
  rintro session _ _ ⟨rfl, rfl, hreach⟩
  exact insertSession_keeps h hreach hroom

/-- Importing a draft keeps what is held. -/
theorem importDraft_keeps {document : DraftDocument} (h : protocol.Holds text past trusted ledger) :
    Keeps texts past trusted text protocol (importDraft text document) ledger := by
  refine checkSessionLimit_andThen h fun hroom => ?_
  refine Ends.bind (Q := fun session app ledger' => app = protocol.app ∧ ledger' = ledger ∧
    session.Reachable text) (.evaluate h fun session hnew => ⟨rfl, rfl, .fromDocument hnew⟩) ?_
  rintro session _ _ ⟨rfl, rfl, hreach⟩
  exact insertSession_keeps h hreach hroom

/-- Importing a plan keeps what is held. -/
theorem importPlan_keeps {document : PlanDocument} (h : protocol.Holds text past trusted ledger) :
    Keeps texts past trusted text protocol (importPlan text.keys document) ledger := by
  refine .bind_get (.bind_reject (fun _ => h) fun hroom => ?_)
  refine Ends.bind (Q := fun _ app ledger' => app = protocol.app ∧ ledger' = ledger ∧
    ∃ analysis, document.analyseHistorical text.keys = pure analysis) ?_ ?_
  · exact Ends.bind (.evaluate h fun analysis hanalysis => ⟨rfl, rfl, analysis, hanalysis⟩)
      fun _ _ _ hdone => .pure hdone
  · rintro _ _ _ ⟨rfl, rfl, hanalysed⟩
    refine newId_still.andThen h fun id => ?_
    have hholds : Protocol.Holds text past trusted { protocol with
        app := { protocol.app with plans := protocol.app.plans.insert ⟨id⟩ document } } _ :=
      ⟨h.kept.insertPlan hanalysed (not_le.mp hroom) ⟨id⟩, h.accounts⟩
    exact Ends.bind (Ends.modify hholds) fun _ _ _ hdone => .pure hdone

/-- Closing a plan keeps what is held. -/
theorem closePlan_keeps {id : PlanId} (h : protocol.Holds text past trusted ledger) :
    Keeps texts past trusted text protocol (closePlan id) ledger := by
  refine .bind_get (.bind_reject (fun _ => h) fun _ => ?_)
  have hholds : Protocol.Holds text past trusted { protocol with
      app := { protocol.app with plans := protocol.app.plans.erase id } } ledger :=
    ⟨h.kept.closePlan id, h.accounts⟩
  exact hholds

/-- Closing a run keeps what is held. -/
theorem closeRun_keeps {id : RunId} (h : protocol.Holds text past trusted ledger) :
    Keeps texts past trusted text protocol (closeRun id) ledger := by
  refine .bind_get (.bind_reject (fun _ => h) fun _ => ?_)
  have hholds : Protocol.Holds text past trusted { protocol with
      app := { protocol.app with runs := protocol.app.runs.erase id } } ledger :=
    ⟨h.kept.closeRun id, h.accounts⟩
  exact hholds

/-- An attempt is retained as the coordinator leaves it. -/
theorem applyPlan_keeps {plan : PlanId} (hkeys : texts.keys = text.keys)
    (h : protocol.Holds text past trusted ledger) :
    Keeps texts past trusted text protocol (applyPlan text.keys plan) ledger := by
  refine (exportPlan_still plan).andThen h fun document => ?_
  refine .bind_get (.bind_reject (fun _ => h) fun hroom => ?_)
  refine (Still.ask rfl).andThen h fun reserved => (Quiet.lift _ _).andThen h fun _ => ?_
  refine newId_still.andThen h fun runId => ?_
  refine Ends.bind (Q := fun attempt app ledger' => app = protocol.app ∧ ledger' = ledger ∧
    Reachable text.keys attempt) (.evaluate h fun attempt hnew => ⟨rfl, rfl, .new hnew⟩) ?_
  rintro attempt _ _ ⟨rfl, rfl, hattempt⟩
  refine Ends.bind (Q := fun ended app ledger' => app = protocol.app ∧ ledger' = _ ∧
    (trusted → Reachable text.keys ended.1 ∧ ended.1.runId = attempt.runId))
    (coordinate_ends (hkeys ▸ hattempt) h fun left error hleft =>
      ⟨rfl, rfl, hkeys ▸ hleft⟩) ?_
  rintro ⟨left, error⟩ _ _ ⟨rfl, rfl, hleft⟩
  refine Ends.bind (Q := fun _ app ledger =>
    Protocol.Holds text past trusted { protocol with app } ledger)
    (Ends.modify ⟨h.kept.insertRun hleft (not_le.mp hroom), h.accounts⟩) ?_
  intro _ _ _ hdone
  cases error with
  | none => exact .pure hdone
  | some error => exact .fail hdone

end FacadeM

namespace ProtocolM

variable {texts : CoordinatorText} {past : SessionId → PlanSession → Prop} {trusted : Prop}
  {text : EditingText}

section Rules

variable {α β : Type}

/-- What leaves everything still keeps what is held. -/
theorem Keeps.of_still {x : ProtocolM α} (h : Still texts trusted x) :
    Keeps texts past trusted text x := by
  intro protocol ledger hholds
  refine (h protocol ledger).mono ?_ ?_
  · rintro _ _ _ ⟨rfl, rfl⟩
    exact hholds
  · rintro _ _ ⟨rfl, rfl⟩
    exact hholds

/-- Methods in sequence keep what is held. -/
theorem Keeps.bind {x : ProtocolM α} {f : α → ProtocolM β} (hx : Keeps texts past trusted text x)
    (hf : ∀ a, Keeps texts past trusted text (f a)) : Keeps texts past trusted text (x >>= f) :=
  fun protocol ledger h => Ends.bind (hx protocol ledger h) fun a _ _ hnext => hf a _ _ hnext

/-- A method of the application keeps what is held. -/
theorem Keeps.onApp {method : FacadeM α} (h : ∀ protocol ledger,
    protocol.Holds text past trusted ledger →
      FacadeM.Keeps texts past trusted text protocol method ledger) :
    Keeps texts past trusted text (onApp method) :=
  fun protocol ledger hholds => Ends.zoom (h protocol ledger hholds)

/-- A still method of the application is one of the protocol. -/
theorem onApp_still {method : FacadeM α} (h : Still texts trusted method) :
    Still texts trusted (onApp method) :=
  h.zoom (fun _ => rfl) _

end Rules

variable {Value : Type} {json : Json Value}

theorem toValue_still (payload : Payload) : Still texts trusted (toValue json payload) := .lift _ _

theorem encode_still (payload : Payload) : Still texts trusted (encode json payload) := .unwrap _

/-- A method that reads, and its reply. -/
theorem Keeps.read {α : Type} {method : FacadeM α} (h : Still texts trusted method)
    (payload : α → Payload) :
    Keeps texts past trusted text (ProtocolM.onApp method >>= fun a => toValue json (payload a)) :=
  .of_still ((onApp_still h).bind fun a => toValue_still (payload a))

/-- A method that changes the application, and its reply. -/
theorem Keeps.reply {α : Type} {method : FacadeM α} (h : ∀ protocol ledger,
    protocol.Holds text past trusted ledger →
      FacadeM.Keeps texts past trusted text protocol method ledger)
    (payload : α → Payload) :
    Keeps texts past trusted text (ProtocolM.onApp method >>= fun a => encode json (payload a)) :=
  .bind (.onApp h) fun a => .of_still (encode_still (payload a))

theorem Keeps.close {method : FacadeM Unit} (h : ∀ protocol ledger,
    protocol.Holds text past trusted ledger →
      FacadeM.Keeps texts past trusted text protocol method ledger) :
    Keeps texts past trusted text (ProtocolM.onApp method >>= fun _ => pure json.null) :=
  .bind (.onApp h) fun _ => .of_still (.pure _)

variable {protocol : Protocol} {ledger : ReviewLedger}

/-- Reviews are reserved below the bound. -/
theorem reserveReview_andThen {α : Type} {f : Unit → ProtocolM α}
    (h : protocol.Holds text past trusted ledger)
    (hf : protocol.reviews.keys.length < MAX_APPLICATION_OBJECTS →
      Ensures texts trusted (fun _ protocol ledger => protocol.Holds text past trusted ledger)
        (fun protocol ledger => protocol.Holds text past trusted ledger) (f ()) protocol ledger) :
    Ensures texts trusted (fun _ protocol ledger => protocol.Holds text past trusted ledger)
      (fun protocol ledger => protocol.Holds text past trusted ledger)
        (reserveReview >>= f) protocol
      ledger := by
  refine Ends.bind (Q := fun _ protocol' ledger' => protocol' = protocol ∧ ledger' = ledger ∧
    protocol.reviews.keys.length < MAX_APPLICATION_OBJECTS) ?_ ?_
  · refine .bind_get (.bind_reject (fun _ => h) fun hroom => ?_)
    refine (Still.ask rfl).andThen h fun reserved => ?_
    exact .lift h fun _ _ => ⟨rfl, rfl, not_le.mp hroom⟩
  · rintro _ _ _ ⟨rfl, rfl, hroom⟩
    exact hf hroom

/-- A rebase is retained with the session that it was prepared from. -/
theorem prepareRebase_keeps (session : SessionId) (revision : DraftRevision)
    (h : protocol.Holds json.text past trusted ledger)
    (hpast : ∀ id found, protocol.app.sessions.lookup id = some found → past id found) :
    Ensures texts trusted (fun _ protocol ledger => protocol.Holds json.text past trusted ledger)
      (fun protocol ledger => protocol.Holds json.text past trusted ledger)
      (prepareRebase json session revision) protocol ledger := by
  refine reserveReview_andThen h fun hroom => ?_
  refine Ends.bind (Q := fun candidate protocol' ledger' => protocol' = protocol ∧
    ledger' = ledger ∧ ∃ source, protocol.app.sessions.lookup session = some source ∧
      candidate.Prepared json.text source)
    (Ends.zoom (FacadeM.prepareRebase_ends h fun candidate source hsource hprepared =>
      ⟨rfl, rfl, source, hsource, hprepared⟩)) ?_
  rintro candidate _ _ ⟨rfl, rfl, source, hsource, hprepared⟩
  refine (onApp_still FacadeM.newId_still).andThen h fun review => ?_
  refine (encode_still _).andThen h fun result => ?_
  refine Ends.bind (Q := fun _ protocol ledger => protocol.Holds json.text past trusted ledger)
    (Ends.modify ?_) fun _ _ _ hdone => .pure hdone
  refine ⟨h.kept.insertReview ?_ hroom review, h.accounts.insertRebase session candidate⟩
  intro owner other heq
  cases heq
  refine ⟨AList.lookup_isSome.mp (Option.isSome_iff_exists.mpr ⟨source, hsource⟩), source, ?_⟩
  exact ⟨hpast session source hsource, h.kept.sessions session source hsource, hprepared⟩

theorem removeReview_keeps (review : Uuid) : Keeps texts past trusted text (removeReview review) :=
  fun _ _ h => Ends.modify ⟨h.kept.eraseReview review, h.accounts.erase⟩

theorem acceptRebase_keeps (session : SessionId) (revision : DraftRevision) (review : Uuid) :
    Keeps texts past trusted json.text (acceptRebase json session revision review) := by
  intro protocol ledger h
  refine .bind_get ?_
  cases hreview : protocol.reviews.lookup review with
  | none => exact .fail h
  | some retained =>
      cases retained with
      | incident candidate => exact .fail h
      | rebase owner candidate =>
          -- What the review was prepared from is known before it is taken out.
          obtain ⟨-, source, -, -, hprepared⟩ := h.kept.rebases review owner candidate hreview
          refine .bind_reject (fun _ => h) fun _ => ?_
          refine Ends.bind (removeReview_keeps review protocol ledger h) fun _ next _ hnext => ?_
          refine Keeps.bind (.onApp ?_) (fun a => .of_still (encode_still _)) next _ hnext
          exact fun protocol ledger hholds => FacadeM.acceptRebase_keeps hholds hprepared

/-- Closing a review keeps the rest. -/
theorem closeReview_keeps (review : Uuid) :
    Keeps texts past trusted text (closeReview json review) := by
  intro protocol ledger h
  refine .bind_get (.bind_reject (fun _ => h) fun _ => ?_)
  exact Ends.bind (removeReview_keeps review protocol ledger h) fun _ _ _ hdone => .pure hdone

/-- Closing a session drops its rebases with it. -/
theorem closeSession_keeps (session : SessionId) :
    Keeps texts past trusted text (closeSession json session) := by
  intro protocol ledger h
  refine Ends.bind (Q := fun _ protocol' ledger' => ledger' = ledger ∧ protocol' = { protocol with
    app := { protocol.app with sessions := protocol.app.sessions.erase session } }) ?_ ?_
  · refine Ends.zoom (.bind_get (.bind_reject (fun _ => h) fun _ => ?_))
    exact ⟨rfl, rfl⟩
  · rintro _ _ _ ⟨rfl, rfl⟩
    refine Ends.bind (Q := fun _ protocol ledger => protocol.Holds text past trusted ledger)
      (Ends.modify ?_) fun _ _ _ hdone => .pure hdone
    exact ⟨h.kept.closeSession session rfl, h.accounts.sublist List.filter_sublist⟩

/-- A run to its end is held as a reachable run. -/
theorem applyBlocking_keeps (hkeys : texts.keys = json.text.keys) (plan : PlanId) :
    Keeps texts past trusted json.text (applyBlocking json plan) := by
  have hsnapshot (run : RunId) : Keeps texts past trusted json.text
      (ProtocolM.onApp (FacadeM.runSnapshot run) >>= fun snapshot =>
        toValue json (.snapshot snapshot)) :=
    .read (FacadeM.runSnapshot_still run) _
  refine .bind ?_ hsnapshot
  intro protocol ledger h
  refine .tryCatch (Keeps.onApp (fun _ _ hholds => FacadeM.applyPlan_keeps hkeys hholds)
    protocol ledger h) fun failure _ _ hfailed => ?_
  -- A failed attempt that is retained is answered with its snapshot.
  split
  · split
    · exact .pure hfailed
    · exact .fail hfailed
  · exact .throw hfailed

theorem reviewIncident_holds :
    Keeps texts past trusted text (reviewIncident json) := by
  intro protocol ledger h
  refine reserveReview_andThen h fun hroom => ?_
  refine Ends.bind (Q := fun found protocol' ledger' => protocol' = protocol ∧
    (found = none ∧ ledger' = ledger ∨ ∃ candidate, found = some candidate ∧
      ledger' = { ledger with found := candidate :: ledger.found })) ?_ ?_
  · refine Ends.zoom (Ends.bind_ask FacadeCall.reviewIncident trivial ?_)
    rintro (answer : Except (Failure IncidentError) (Option IncidentReview)) _ ⟨-, rfl⟩
    match answer with
    | .error .panic => exact .throw h
    | .error (.error error) => exact .fail h
    | .ok none => exact .pure ⟨rfl, .inl ⟨rfl, rfl⟩⟩
    | .ok (some candidate) => exact .pure ⟨rfl, .inr ⟨candidate, rfl, rfl⟩⟩
  · rintro found _ _ ⟨rfl, ⟨rfl, rfl⟩ | ⟨candidate, rfl, rfl⟩⟩
    · exact Keeps.of_still (encode_still _) _ _ h
    -- Up to its insertion the review has been given out, and may be lost to a failure.
    · have hfound := Protocol.Holds.mk h.kept (h.accounts.found candidate)
      refine (onApp_still FacadeM.newId_still).andThen hfound fun review => ?_
      refine (encode_still _).andThen hfound fun result => ?_
      refine Ends.bind (Q := fun _ protocol ledger => protocol.Holds text past trusted ledger)
        (Ends.modify ?_) fun _ _ _ hdone => .pure hdone
      refine ⟨h.kept.insertReview ?_ hroom review, h.accounts.insertIncident candidate⟩
      intro owner other heq
      cases heq

/-- An acknowledged incident is dropped from the reviews. -/
theorem acknowledgeIncident_keeps (review runId token : Uuid) :
    Keeps texts past trusted text (acknowledgeIncident json review runId token) := by
  intro protocol ledger h
  refine .bind_get ?_
  cases hreview : protocol.reviews.lookup review with
  | none => exact .fail h
  | some retained =>
      cases retained with
      | rebase owner candidate => exact .fail h
      | incident candidate =>
          refine .bind_reject (fun _ => h) fun hmatch => ?_
          obtain ⟨-, rfl⟩ : candidate.inspection.attempt.runId = runId ∧
              candidate.token = token := by
            simpa using hmatch
          -- The review is taken out first; whatever the host answers, it is not put back.
          refine Ends.bind (Q := fun _ protocol' ledger' => ledger' = ledger ∧
            protocol' = { protocol with reviews := protocol.reviews.erase review })
            (Ends.modify ⟨rfl, rfl⟩) ?_
          rintro _ _ _ ⟨rfl, rfl⟩
          refine Ends.bind (Q := fun _ protocol ledger => protocol.Holds text past trusted ledger)
            (Ends.zoom (Ends.bind_ask (FacadeCall.acknowledgeIncident candidate candidate.token)
              (h.accounts.allows hreview) ?_)) fun incident _ _ hdone =>
                Keeps.of_still (encode_still _) _ _ hdone
          rintro (answer : Except (Failure IncidentError) IncidentInspection) _ ⟨-, rfl⟩
          have hdone := Protocol.Holds.mk (h.kept.eraseReview review)
            (h.accounts.acknowledge hreview)
          exact .returned hdone fun _ _ => hdone

/-- A request keeps everything, whatever the host answers and however the request ends. -/
theorem dispatch_keeps (hkeys : texts.keys = json.text.keys) (request : Request)
    (h : protocol.Holds json.text past trusted ledger)
    (hpast : ∀ id found, protocol.app.sessions.lookup id = some found → past id found) :
    Ensures texts trusted (fun _ protocol ledger => protocol.Holds json.text past trusted ledger)
      (fun protocol ledger => protocol.Holds json.text past trusted ledger) (dispatch json request)
      protocol ledger := by
  have hkept {x : ProtocolM Value} (hx : Keeps texts past trusted json.text x) :
      Ensures texts trusted (fun _ protocol ledger => protocol.Holds json.text past trusted ledger)
        (fun protocol ledger => protocol.Holds json.text past trusted ledger) x protocol ledger :=
    hx protocol ledger h
  cases request with
  | probe => exact hkept (.read FacadeM.probe_still _)
  | sessionCreate => exact hkept (.reply (fun _ _ h => FacadeM.createSession_keeps h) _)
  | sessionImport draft => exact hkept (.reply (fun _ _ h => FacadeM.importDraft_keeps h) _)
  | sessionEdit session revision edit =>
      exact hkept
        (.bind (.onApp fun _ _ h => FacadeM.edit_keeps h) fun _ => .of_still (toValue_still _))
  | sessionUndo session revision => exact hkept (.reply (fun _ _ h => FacadeM.undo_keeps h) _)
  | sessionRedo session revision => exact hkept (.reply (fun _ _ h => FacadeM.redo_keeps h) _)
  | sessionPreview session => exact hkept (.read (FacadeM.session_still session) _)
  | sessionExport session => exact hkept (.read (FacadeM.exportDraft_still session) _)
  | sessionFreeze session revision =>
      exact hkept (.read (FacadeM.freeze_still _ session revision) _)
  | sessionPrepareRebase session revision => exact prepareRebase_keeps session revision h hpast
  | sessionAcceptRebase session revision review =>
      exact hkept (acceptRebase_keeps session revision review)
  | reviewClose review => exact hkept (closeReview_keeps review)
  | sessionClose session => exact hkept (closeSession_keeps session)
  | planImport document => exact hkept (.reply (fun _ _ h => FacadeM.importPlan_keeps h) _)
  | planExport plan => exact hkept (.read (FacadeM.exportPlan_still plan) _)
  | planClose plan => exact hkept (.close fun _ _ h => FacadeM.closePlan_keeps h)
  | capabilities operations => exact hkept (.read (FacadeM.capabilities_still operations) _)
  | applyBlocking plan => exact hkept (applyBlocking_keeps hkeys plan)
  -- Jobs are served by the transport.
  | applyStart _ | jobPoll _ _ | jobClose _ | jobCancel _ => exact hkept (.of_still (.throw _))
  | runSnapshot run => exact hkept (.read (FacadeM.runSnapshot_still run) _)
  | runEvents run since => exact hkept (.read (FacadeM.events_still run since) _)
  | runClose run => exact hkept (.close fun _ _ h => FacadeM.closeRun_keeps h)
  | incidentInspect => exact hkept (.read FacadeM.incident_still _)
  | incidentReview => exact hkept (reviewIncident_holds)
  | incidentAcknowledge review runId token =>
      exact hkept (acknowledgeIncident_keeps review runId token)

/-- **A request keeps what the protocol holds.** -/
theorem callWithPolicy_keeps (hkeys : texts.keys = json.text.keys) (request : Request)
    (h : protocol.Holds json.text past trusted ledger)
    (hpast : ∀ id found, protocol.app.sessions.lookup id = some found → past id found) :
    Ensures texts trusted (fun _ protocol ledger => protocol.Holds json.text past trusted ledger)
      (fun protocol ledger => protocol.Holds json.text past trusted ledger)
      (callWithPolicy json request) protocol ledger := by
  refine .bind_get (.bind_reject (fun _ => h) fun _ => ?_)
  exact dispatch_keeps hkeys request h hpast

end ProtocolM

end DisksGraph
