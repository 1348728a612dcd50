import DisksGraph.Transport.Linked
import DisksGraph.Transport.Undisturbed

/-!
# Transport — Owner

What a context is for: one owner that serves one request after the other.

* `Owner`, `OwnerStep`: the owner without calls, channels or threads.  It has one protocol, and it
  executes one accepted job between two requests.
* `Context.Owned`: the owner that the worker and its channel stand for.
* `contexts_serial`: what any interleaving shows of a context is a run of its owner.
-/

namespace DisksGraph

open Support (Failure Machine Program)

/-- One owner, with the protocol that it has come to. -/
inductive Owner (Value : Type) where
  | unopened
  | idle (protocol : Protocol)
  | pending (protocol : Protocol) (plan : PlanId) (job : Nat)
  | running (protocol : Protocol) (plan : PlanId) (job : Nat)
  | concluded (protocol : Protocol) (job : Nat) (result : Except (Failure ProtocolError) Value)
  | stopped

/-- A panicked owner stops. -/
def Owner.after {Value : Type} (protocol : Protocol) :
    Except (Failure ProtocolError) Value → Owner Value
  | .error .panic => .stopped
  | _ => .idle protocol

/-- An owner that has not panicked goes on. -/
theorem Owner.after_eq_idle {Value : Type} {protocol : Protocol}
    {result : Except (Failure ProtocolError) Value} (h : result ≠ .error .panic) :
    Owner.after protocol result = .idle protocol := by
  cases result with
  | ok result => rfl
  | error failure =>
      cases failure with
      | error error => rfl
      | panic => exact absurd rfl h

/-- What an owner may do next. -/
inductive OwnerStep {Value : Type} (text : TransportJson Value) :
    Owner Value → ContextEvent Value → Owner Value → Prop where
  | opens (protocol : Protocol) : OwnerStep text .unopened (.serving protocol) (.idle protocol)
  | serves {protocol after : Protocol} {call : Nat} {request : Request} {calls : FacadeTrace}
      {result : Except (Failure ProtocolError) Value}
      (hrun : Program.Runs ((ProtocolM.callWithPolicy text.json request).start protocol) calls
        (result, after)) :
      OwnerStep text (.idle protocol) (.served call request calls result) (.after after result)
  | accepts (protocol : Protocol) (call : Nat) (plan : PlanId) (job : Nat) :
      OwnerStep text (.idle protocol) (.accepted call plan job) (.pending protocol plan job)
  | starts (protocol : Protocol) (plan : PlanId) (job : Nat) :
      OwnerStep text (.pending protocol plan job) (.started plan job) (.running protocol plan job)
  | executes {protocol after : Protocol} {plan : PlanId} {job : Nat} {calls : FacadeTrace}
      {updates : List RunUpdate} {result : Except (Failure ProtocolError) Value}
      (hrun : Program.Runs
        ((ObservedM.applyPlanWithUpdates text.json plan).start (protocol, [])) calls
        (result, (after, updates))) :
      OwnerStep text (.running protocol plan job) (.executed job calls result)
        (.concluded after job result)
  | ends (protocol : Protocol) (job : Nat) (result : Except (Failure ProtocolError) Value) :
      OwnerStep text (.concluded protocol job result) (.ended job result) (.after protocol result)
  -- A start that is accepted while the worker leaves its loop is never executed.
  | forgets (call : Nat) (plan : PlanId) (job : Nat) :
      OwnerStep text .stopped (.accepted call plan job) .stopped

/-- One owner. -/
def owner {Value : Type} (text : TransportJson Value) :
    Machine (Owner Value) (ContextEvent Value) where
  start state := state = .unopened
  step := OwnerStep text

/-- What an event shows of its owner. -/
def ContextEvent.shown {Value : Type} : ContextEvent Value → Option (ContextEvent Value)
  | .internal | .published _ => none
  | event => some event

/-- What an event shows of a context. -/
def RegistryEvent.shown {Value : Type} (id : Nat) :
    RegistryEvent Value → Option (ContextEvent Value)
  | .context other event => if other = id then event.shown else none
  | _ => none

/-- Where an owner may be left. -/
def Owner.Rests {Value : Type} (owner : Owner Value) : Prop :=
  owner = .unopened ∨ owner = .stopped ∨ ∃ protocol, owner = .idle protocol

theorem RegistryEvent.eq_of_shown {Value : Type} {id : Nat} {event : RegistryEvent Value}
    {seen : ContextEvent Value} (h : event.shown id = some seen) : event = .context id seen := by
  cases event with
  | context other event =>
      rw [shown] at h
      split at h
      · next hsame =>
        cases event with
        | internal => cases h
        | published job => cases h
        | _ =>
            cases h
            rw [hsame]
      · cases h
  | _ => cases h

section Runs

variable {Value : Type} {text : TransportJson Value} {shown : List (ContextEvent Value)}
  {state : Owner Value}

/-- A request or a job has panicked. -/
def Panicked (shown : List (ContextEvent Value)) : Prop :=
  (∃ call request calls, .served call request calls (.error .panic) ∈ shown) ∨
    ∃ job, .ended job (.error .panic) ∈ shown

theorem Panicked.mono {more : List (ContextEvent Value)} (h : Panicked shown)
    (hmore : shown ⊆ more) : Panicked more := by
  rcases h with ⟨call, request, calls, hmem⟩ | ⟨job, hmem⟩
  · exact .inl ⟨call, request, calls, hmore hmem⟩
  · exact .inr ⟨job, hmore hmem⟩

/-- An owner stops where a request or a job has panicked. -/
theorem owner_stopped (h : (owner text).Run shown state) (hstopped : state = .stopped) :
    Panicked shown := by
  revert hstopped
  refine h.recorded (I := fun shown state => state = .stopped → Panicked shown) ?_ ?_
  · rintro _ rfl hstopped
    cases hstopped
  · intro shown state event state' _ ih hstep hstopped
    cases hstep with
    | @serves protocol after call request calls result hrun =>
        cases result with
        | ok value => cases hstopped
        | error failure =>
            cases failure with
            | error error => cases hstopped
            | panic => exact .inl ⟨call, request, calls, by simp⟩
    | ends protocol job result =>
        cases result with
        | ok value => cases hstopped
        | error failure =>
            cases failure with
            | error error => cases hstopped
            | panic => exact .inr ⟨job, by simp⟩
    | forgets call plan job => exact (ih rfl).mono (List.subset_append_left ..)
    | _ => cases hstopped

/-- The job that an owner has accepted and that has not ended. -/
def Owner.Holds (owner : Owner Value) (job : Nat) : Prop :=
  ∃ protocol, (∃ plan, owner = .pending protocol plan job ∨ owner = .running protocol plan job) ∨
    ∃ result, owner = .concluded protocol job result

/-- A job that was accepted has ended, is held, or is lost to a panic. -/
theorem owner_accounts (h : (owner text).Run shown state) {call job : Nat} {plan : PlanId}
    (hmem : .accepted call plan job ∈ shown) :
    (∃ result, .ended job result ∈ shown) ∨ Panicked shown ∨ state.Holds job := by
  revert hmem
  refine h.recorded (I := fun shown state => .accepted call plan job ∈ shown →
    (∃ result, .ended job result ∈ shown) ∨ Panicked shown ∨ state.Holds job) ?_ ?_
  · exact fun _ _ hmem => absurd hmem List.not_mem_nil
  · intro shown state event state' hrun ih hstep hmem
    have hmore : shown ⊆ shown ++ [event] := List.subset_append_left ..
    rw [List.mem_append, List.mem_singleton] at hmem
    rcases hmem with hmem | rfl
    · rcases ih hmem with ⟨result, hended⟩ | hpanicked |
        ⟨protocol, ⟨plan, hstate | hstate⟩ | ⟨result, hstate⟩⟩
      · exact .inl ⟨result, hmore hended⟩
      · exact .inr (.inl (hpanicked.mono hmore))
      -- A job that is held is started, executed and ended.
      · cases hstep with
        | starts protocol plan job =>
            cases hstate
            exact .inr (.inr ⟨protocol, .inl ⟨plan, .inr rfl⟩⟩)
        | _ => cases hstate
      · cases hstep with
        | executes hrun =>
            cases hstate
            exact .inr (.inr ⟨_, .inr ⟨_, rfl⟩⟩)
        | _ => cases hstate
      · cases hstep with
        | ends protocol job result =>
            cases hstate
            exact .inl ⟨result, by simp⟩
        | _ => cases hstate
    · cases hstep with
      | accepts protocol => exact .inr (.inr ⟨protocol, .inl ⟨plan, .inl rfl⟩⟩)
      | forgets => exact .inr (.inl ((owner_stopped hrun rfl).mono hmore))

/-- Between the acceptance of a job and its end nothing else happens. -/
theorem owner_alone {before after : List (ContextEvent Value)} {call job : Nat} {plan : PlanId}
    (h : (owner text).Run (before ++ .accepted call plan job :: after) state) :
    (Panicked before ∧ ∀ event ∈ after, ∃ call plan job, event = .accepted call plan job) ∨
      after = [] ∨ after = [.started plan job] ∨ ∃ calls result rest,
        after = .started plan job :: .executed job calls result :: rest ∧
          (rest = [] ∨ ∃ others, rest = .ended job result :: others) := by
  obtain ⟨middle, hbefore, hpath⟩ := h.split rfl
  cases hpath with
  | cons hstep hpath =>
      cases hstep with
      | forgets =>
          refine .inl ⟨owner_stopped hbefore rfl, ?_⟩
          refine hpath.shows (I := fun state => state = .stopped) ?_ rfl
          rintro _ event state' rfl hstep
          cases hstep with
          | forgets call plan job => exact ⟨⟨call, plan, job, rfl⟩, rfl⟩
      | accepts =>
          refine .inr ?_
          cases hpath with
          | nil => exact .inl rfl
          | cons hstep hpath =>
              cases hstep with
              | starts =>
                  cases hpath with
                  | nil => exact .inr (.inl rfl)
                  | cons hstep hpath =>
                      cases hstep with
                      | executes =>
                          refine .inr (.inr ⟨_, _, _, rfl, ?_⟩)
                          cases hpath with
                          | nil => exact .inl rfl
                          | cons hstep hpath =>
                              cases hstep with
                              | ends => exact .inr ⟨_, rfl⟩

end Runs

section Owned

variable {Value : Type} (text : TransportJson Value)

/-- The owner that a context stands for. -/
def Context.Owned (context : Context Value) (owner : Owner Value) : Prop :=
  match context.worker with
  | .initializing => owner = .unopened
  | .receiving protocol => (∃ plan job, context.queue = [.apply plan job] ∧
      owner = .pending protocol plan job) ∨
      (∀ plan job, context.queue ≠ [.apply plan job]) ∧ owner = .idle protocol
  | .answering protocol _ _ => owner = .idle protocol
  | .applying protocol plan job => owner = .running protocol plan job
  | .concluding protocol job _ result => owner = .concluded protocol job result
  | .leaving => owner = .stopped ∨ context.joined = true ∧ ∃ protocol, owner = .idle protocol
  | .ending | .exited => owner.Rests

/-- An owner follows an event, as far as it shows. -/
def Owner.Moves (owner : Owner Value) (event : ContextEvent Value) (owner' : Owner Value) : Prop :=
  match event.shown with
  | none => owner' = owner
  | some seen => OwnerStep text owner seen owner'

variable {text} {context context' : Context Value} {event : ContextEvent Value} {call : Nat}
  {owner : Owner Value}

/-- What the owner of a context depends on. -/
theorem Context.Owned.carry (h : context.Owned owner) (hworker : context'.worker = context.worker)
    (hqueue : context'.queue = context.queue)
    (hjoined : context.joined = true → context'.joined = true) :
    context'.Owned owner := by
  rw [Owned, hworker, hqueue]
  rw [Owned] at h
  cases hleaving : context.worker with
  | leaving =>
      rw [hleaving] at h
      exact h.imp_right (And.imp_left hjoined)
  | _ =>
      rw [hleaving] at h
      exact h

/-- A message that is no job leaves the owner alone. -/
theorem Context.Owned.sent (h : context.Owned owner) (hempty : context.queue = [])
    (hworker : context'.worker = context.worker) (hjoined : context'.joined = context.joined)
    (hqueue : ∀ plan job, context'.queue ≠ [.apply plan job]) : context'.Owned owner := by
  rw [Owned, hworker, hjoined]
  rw [Owned] at h
  cases hreceiving : context.worker with
  | receiving protocol =>
      rw [hreceiving] at h
      obtain ⟨plan, job, hpending, -⟩ | ⟨-, hidle⟩ := h
      · simp [hempty] at hpending
      · exact .inr ⟨hqueue, hidle⟩
  | _ =>
      rw [hreceiving] at h
      exact h

/-- A start is accepted by an idle owner, or by one that has stopped. -/
theorem Context.Owned.accepted {plan : PlanId} {job : Job Value} (h : context.Owned owner)
    (hsound : context.Sound) (hguard : context.guard = some (call, .starting plan job))
    (hempty : context.queue = []) (hreceives : context.worker.receives = true) :
    (∃ protocol, context.worker = .receiving protocol ∧ owner = .idle protocol) ∨
      context.worker = .leaving ∧ owner = .stopped := by
  obtain ⟨hjob, hjoined, -⟩ := hsound.stage _ _ hguard
  have hfree (hretains : ∃ id, context.Retains id) : False := by
    obtain ⟨id, mailbox, hmailbox, -⟩ := hretains
    simp [hjob] at hmailbox
  rw [Owned] at h
  cases hworker : context.worker with
  | initializing =>
      obtain ⟨-, other, hother⟩ := hsound.flight.uninitialized (by rw [hworker]; rfl)
      simp [hguard] at hother
  | receiving protocol =>
      rw [hworker] at h
      obtain ⟨plan, job, hpending, -⟩ | ⟨-, hidle⟩ := h
      · simp [hempty] at hpending
      · exact .inl ⟨protocol, rfl, hidle⟩
  | answering protocol caller request =>
      obtain ⟨-, hwaits⟩ := hsound.flight.answered (by rw [hworker]; rfl)
      simp [hguard] at hwaits
  | applying protocol plan job =>
      exact (hfree ⟨job, (hsound.flight.executed (by rw [hworker]; rfl)).1⟩).elim
  | concluding protocol job updates result =>
      exact (hfree ⟨job, (hsound.flight.executed (by rw [hworker]; rfl)).1⟩).elim
  | leaving =>
      rw [hworker] at h
      rcases h with hstopped | ⟨hjoin, -⟩
      · exact .inr ⟨rfl, hstopped⟩
      · simp [hjoined] at hjoin
  | ending => simp [hworker, Worker.receives] at hreceives
  | exited => simp [hworker, Worker.receives] at hreceives

/-- A step of the call that holds the guard is one of the owner, or shows nothing. -/
theorem GuardStep.owned (hstep : GuardStep text call context event context')
    (hsound : context.Sound) (h : context.Owned owner) :
    ∃ owner', owner.Moves text event owner' ∧ context'.Owned owner' := by
  cases hstep with
  | @start plan job hguard hqueue hreceives =>
      obtain ⟨protocol, hworker, rfl⟩ | ⟨hworker, rfl⟩ :=
        h.accepted hsound hguard hqueue hreceives
      · refine ⟨.pending protocol plan job.id, .accepts protocol call plan job.id, ?_⟩
        simp [Context.Owned, Context.reach, hworker]
      · refine ⟨.stopped, .forgets call plan job.id, ?_⟩
        simp [Context.Owned, Context.reach, hworker]
  | send hguard hqueue hreceives =>
      exact ⟨owner, rfl, h.sent hqueue rfl rfl (by simp [Context.reach])⟩
  | stop hguard hqueue hreceives =>
      exact ⟨owner, rfl, h.sent hqueue rfl rfl (by simp [Context.reach])⟩
  | @enter input hguard =>
      have henters := Context.enters text context input
      generalize context.enter text input = entered at henters ⊢
      cases henters <;> exact ⟨owner, rfl, h⟩
  | _ => exact ⟨owner, rfl, h⟩

/-- A step of the worker is one of the owner, or shows nothing. -/
theorem WorkerStep.owned (hstep : WorkerStep text context event context')
    (hsound : context.Sound) (h : context.Owned owner) :
    ∃ owner', owner.Moves text event owner' ∧ context'.Owned owner' := by
  cases hstep with
  | serve hworker =>
      rw [Context.Owned, hworker] at h
      obtain rfl := h
      obtain ⟨hqueue, -⟩ := hsound.flight.uninitialized (by rw [hworker]; rfl)
      exact ⟨.idle _, .opens _, .inr ⟨by simp [hqueue], rfl⟩⟩
  | fail hworker =>
      rw [Context.Owned, hworker] at h
      exact ⟨owner, rfl, .inl h⟩
  | takeCall hworker hqueue =>
      rw [Context.Owned, hworker] at h
      obtain ⟨plan, job, hpending, -⟩ | ⟨-, hidle⟩ := h
      · simp [hqueue] at hpending
      · exact ⟨owner, rfl, hidle⟩
  | @answer protocol after caller request calls result value hworker hrun hvalue =>
      obtain ⟨hqueue, hguard⟩ := hsound.flight.answered (by rw [hworker]; rfl)
      rw [Context.Owned, hworker] at h
      obtain rfl := h
      have hafter : Owner.after after result = .idle after := by
        refine Owner.after_eq_idle ?_
        rintro rfl
        cases hvalue
      rw [Context.respond_eq hguard]
      exact ⟨.after after result, .serves hrun, .inr ⟨by simp [hqueue], hafter⟩⟩
  | panic hworker hrun =>
      obtain ⟨hqueue, hguard⟩ := hsound.flight.answered (by rw [hworker]; rfl)
      rw [Context.Owned, hworker] at h
      obtain rfl := h
      rw [Context.respond_eq hguard]
      exact ⟨.stopped, .serves hrun, .inl rfl⟩
  | @takeApply protocol plan job rest hworker hqueue =>
      rw [Context.Owned, hworker] at h
      have hpending := hsound.flight.idled (by rw [hworker]; rfl)
      obtain ⟨plan', job', hpending', rfl⟩ | ⟨hnone, -⟩ := h
      · obtain ⟨hmessage, -⟩ := List.cons.inj (hqueue.symm.trans hpending')
        cases hmessage
        exact ⟨.running protocol plan job, .starts protocol plan job, rfl⟩
      · cases hpending with
        | nothing hnothing => simp [hnothing] at hqueue
        | call hcall => simp [hcall] at hqueue
        | apply happly => exact absurd happly (hnone _ _)
        | stop hstop => simp [hstop] at hqueue
  | publish hworker => exact ⟨owner, rfl, h.carry rfl rfl id⟩
  | conclude hworker hrun =>
      rw [Context.Owned, hworker] at h
      obtain rfl := h
      exact ⟨.concluded _ _ _, .executes hrun, rfl⟩
  | publishLast hworker =>
      rw [Context.Owned, hworker] at h
      exact ⟨owner, rfl, h⟩
  | @finish protocol job result hworker hpanic =>
      obtain ⟨-, hqueue⟩ := hsound.flight.executed (by rw [hworker]; rfl)
      rw [Context.Owned, hworker] at h
      obtain rfl := h
      have hafter : Owner.after protocol result = .idle protocol := Owner.after_eq_idle hpanic
      refine ⟨.after protocol result, .ends protocol job result, .inr ⟨?_, hafter⟩⟩
      rcases hqueue with hqueue | ⟨hqueue, -⟩
      · simp [Context.updateJob, hqueue]
      · simp [Context.updateJob, hqueue]
  | finishPanicked hworker =>
      rw [Context.Owned, hworker] at h
      obtain rfl := h
      exact ⟨.stopped, .ends _ _ _, .inl rfl⟩
  | @takeStop protocol rest hworker hqueue =>
      rw [Context.Owned, hworker] at h
      obtain ⟨plan, job, hpending, -⟩ | ⟨-, hidle⟩ := h
      · simp [hqueue] at hpending
      · have hpending := hsound.flight.idled (by rw [hworker]; rfl)
        cases hpending with
        | nothing hnothing => simp [hnothing] at hqueue
        | call hcall => simp [hcall] at hqueue
        | apply happly => simp [happly] at hqueue
        | stop hstop hjoins =>
            obtain ⟨joiner, outcome, hguard⟩ := hjoins
            exact ⟨owner, rfl, .inr ⟨(hsound.stage _ _ hguard).1, protocol, hidle⟩⟩
  | drop hworker =>
      rw [Context.Owned, hworker] at h
      exact ⟨owner, rfl, .inr (h.imp_right fun hjoined => hjoined.2)⟩
  | exit hworker =>
      rw [Context.Owned, hworker] at h
      exact ⟨owner, rfl, h⟩

end Owned

namespace Registry

variable {Value : Type} {text : TransportJson Value} {registry registry' : Registry Value}
  {event : RegistryEvent Value} {id : Nat} {state : Owner Value}

/-- No worker was ever spawned for the handle. -/
def Unspawned (registry : Registry Value) (id : Nat) : Prop :=
  registry.nextContext ≤ id ∨ ∃ call live, registry.calls call = .numbered id live

/-- The owner that the entry of a handle stands for. -/
def Owns (id : Nat) (registry : Registry Value) (state : Owner Value) : Prop :=
  (registry.Unspawned id → state = .unopened) ∧
    (registry.entries id = none → state.Rests) ∧
    ∀ context, registry.entries id = some context → context.Owned state

/-- A step that shows nothing of the context and leaves its worker alone. -/
theorem Owns.carry (h : registry.Owns id state)
    (hunspawned : registry'.Unspawned id → registry.Unspawned id)
    (hnone : registry'.entries id = none → registry.entries id = none)
    (hsome : ∀ context', registry'.entries id = some context' → ∃ context,
      registry.entries id = some context ∧ context'.worker = context.worker ∧
        context'.queue = context.queue ∧ (context.joined = true → context'.joined = true)) :
    registry'.Owns id state := by
  refine ⟨fun hnew => h.1 (hunspawned hnew), fun hgone => h.2.1 (hnone hgone), ?_⟩
  intro context' hentry'
  obtain ⟨context, hentry, hworker, hqueue, hjoined⟩ := hsome context' hentry'
  exact (h.2.2 context hentry).carry hworker hqueue hjoined

/-- A step that does nothing with the entry. -/
theorem Owns.elsewhere (h : registry.Owns id state)
    (hunspawned : registry'.Unspawned id → registry.Unspawned id)
    (hentries : registry'.entries id = registry.entries id) : registry'.Owns id state :=
  h.carry hunspawned (fun hgone => hentries ▸ hgone) fun context hentry =>
    ⟨context, hentries ▸ hentry, rfl, rfl, fun hjoined => hjoined⟩

/-- A worker is spawned for a handle at most once. -/
theorem unspawned_of_step (hstep : RegistryStep text registry event registry')
    (h : registry'.Unspawned id) : registry.Unspawned id := by
  revert h
  simp only [Unspawned]
  cases hstep with
  | _ =>
      simp only [move_calls, move_nextContext, store_calls, store_nextContext]
      grind [checkedAdd, Caller.enter, cases Invocation]

theorem Linked.entries_unspawned (hlinked : registry.Linked) (h : registry.Unspawned id) :
    registry.entries id = none := by
  rcases h with hnext | ⟨call, live, hcall⟩
  · by_contra hentry
    exact absurd (hlinked.numbered id hentry) (Nat.not_lt.mpr hnext)
  · exact (hlinked.drawn call id live hcall).2

/-- What the holder of a guard or a worker does. -/
theorem Owns.moved {other : Nat} {context context' : Context Value} {event : ContextEvent Value}
    (h : registry.Owns id state) (hlinked : registry.Linked)
    (hunspawned : registry'.Unspawned id → registry.Unspawned id)
    (hentries : registry'.entries = Function.update registry.entries other (some context'))
    (hentry : registry.entries other = some context)
    (howned : ∀ state, context.Owned state →
      ∃ state', state.Moves text event state' ∧ context'.Owned state') :
    ∃ state', (match (RegistryEvent.context other event).shown id with
      | none => state' = state
      | some seen => OwnerStep text state seen state') ∧ registry'.Owns id state' := by
  by_cases hsame : other = id
  · obtain rfl := hsame
    obtain ⟨state', hmoves, howned'⟩ := howned state (h.2.2 context hentry)
    refine ⟨state', ?_, ?_, ?_, ?_⟩
    · rw [RegistryEvent.shown, if_pos rfl]
      exact hmoves
    · intro hnew
      simp [hlinked.entries_unspawned (hunspawned hnew)] at hentry
    · intro hgone
      simp [hentries] at hgone
    · intro found hfound
      rw [hentries, Function.update_self] at hfound
      exact Option.some.inj hfound ▸ howned'
  · rw [RegistryEvent.shown, if_neg hsame]
    refine ⟨state, rfl, h.elsewhere hunspawned ?_⟩
    rw [hentries, Function.update_of_ne (Ne.symm hsame)]

/-- What a call does with the guard, the lookup or the slots. -/
theorem Owns.kept {other : Nat} {context context' : Context Value} (h : registry.Owns id state)
    (hunspawned : registry'.Unspawned id → registry.Unspawned id)
    (hentries : registry'.entries = Function.update registry.entries other (some context'))
    (hentry : registry.entries other = some context) (hworker : context'.worker = context.worker)
    (hqueue : context'.queue = context.queue)
    (hjoined : context.joined = true → context'.joined = true) : registry'.Owns id state := by
  by_cases hsame : other = id
  · obtain rfl := hsame
    refine h.carry hunspawned (fun hgone => ?_) (fun found hfound => ?_)
    · simp [hentries] at hgone
    · rw [hentries, Function.update_self] at hfound
      obtain rfl := Option.some.inj hfound
      exact ⟨context, hentry, hworker, hqueue, hjoined⟩
  · refine h.elsewhere hunspawned ?_
    rw [hentries, Function.update_of_ne (Ne.symm hsame)]

/-- A step of the transport is one of the owner, or shows nothing of the context. -/
theorem Owns.step (h : registry.Owns id state) (hlinked : registry.Linked)
    (hstep : RegistryStep text registry event registry') :
    ∃ state', (match event.shown id with
      | none => state' = state
      | some seen => OwnerStep text state seen state') ∧ registry'.Owns id state' := by
  have hunspawned : registry'.Unspawned id → registry.Unspawned id := unspawned_of_step hstep
  -- A step on the entry, of which nothing is shown.
  have hkept {other : Nat} {context context' : Context Value}
      (hentries : registry'.entries = Function.update registry.entries other (some context'))
      (hentry : registry.entries other = some context) (hworker : context'.worker = context.worker)
      (hqueue : context'.queue = context.queue)
      (hjoined : context.joined = true → context'.joined = true) :
      ∃ state', state' = state ∧ registry'.Owns id state' :=
    ⟨state, rfl, h.kept hunspawned hentries hentry hworker hqueue hjoined⟩
  cases hstep with
  | guard hcall hentry hguarded =>
      exact h.moved hlinked hunspawned rfl hentry fun _ howned =>
        hguarded.owned (hlinked.entries _ _ hentry) howned
  | work hentry hworked =>
      exact h.moved hlinked hunspawned rfl hentry fun _ howned =>
        hworked.owned (hlinked.entries _ _ hentry) howned
  | @spawn call other live hcall =>
      by_cases hsame : other = id
      · obtain rfl := hsame
        obtain rfl := h.1 (.inr ⟨call, live, hcall⟩)
        refine ⟨.unopened, rfl, fun _ => rfl, fun _ => .inl rfl, ?_⟩
        intro context hentry
        rw [move_entries, store_entries, if_pos rfl] at hentry
        obtain rfl := Option.some.inj hentry
        rfl
      · exact ⟨state, rfl, h.elsewhere hunspawned (Function.update_of_ne (Ne.symm hsame) ..)⟩
  | @free call other outcome context hcall hlast hentry hjoined =>
      have hexited := hlinked.exited hcall hlast hentry hjoined
      by_cases hsame : other = id
      · obtain rfl := hsame
        have hrests := h.2.2 context hentry
        rw [Context.Owned, hexited] at hrests
        refine ⟨state, rfl, fun hnew => h.1 (hunspawned hnew), fun _ => hrests, ?_⟩
        intro found hfound
        rw [move_entries, store_entries, if_pos rfl] at hfound
        cases hfound
      · exact ⟨state, rfl, h.elsewhere hunspawned (Function.update_of_ne (Ne.symm hsame) ..)⟩
  | tryLock hcall hentry => exact hkept rfl hentry rfl rfl fun hjoined => hjoined
  | lock hcall hentry => exact hkept rfl hentry rfl rfl fun _ => rfl
  | allocate hcall hentry => exact hkept rfl hentry rfl rfl fun hjoined => hjoined
  | allocateFails hcall hentry => exact hkept rfl hentry rfl rfl fun hjoined => hjoined
  | register hcall hentry => exact hkept rfl hentry rfl rfl fun hjoined => hjoined
  | release hcall hentry => exact hkept rfl hentry rfl rfl fun hjoined => hjoined
  | unwind hcall hentry => exact hkept rfl hentry rfl rfl fun hjoined => hjoined
  | shutdown hcall hlast hentry => exact hkept rfl hentry rfl rfl fun _ => rfl
  | _ => exact ⟨state, rfl, h.elsewhere hunspawned rfl⟩

/-- The transport simulates one owner for each handle. -/
theorem simulates_owner (text : TransportJson Value) (id : Nat) :
    (transport text).Simulates (owner text) (RegistryEvent.shown id) (Owns id) where
  start := by
    rintro _ rfl
    exact ⟨.unopened, rfl, fun _ => rfl, fun _ => .inl rfl, fun _ hentry => nomatch hentry⟩
  silent hrun h hstep hview := by
    obtain ⟨state', hmoves, howns⟩ := h.step (linked hrun) hstep
    rw [hview] at hmoves
    exact hmoves ▸ howns
  shown hrun h hstep hview := by
    obtain ⟨state', hmoves, howns⟩ := h.step (linked hrun) hstep
    rw [hview] at hmoves
    exact ⟨state', hmoves, howns⟩

/-- What a run shows of a context is a run of the owner that its entry stands for. -/
theorem owns {trace : List (RegistryEvent Value)} (hrun : (transport text).Run trace registry)
    (id : Nat) : ∃ state, (owner text).Run (trace.filterMap (RegistryEvent.shown id)) state ∧
      (registry.entries id = none → state.Rests) ∧
      ∀ context, registry.entries id = some context → context.Owned state := by
  obtain ⟨state, howner, howns⟩ := (simulates_owner text id).run hrun
  exact ⟨state, howner, howns.2⟩

/-- **A context is one serial owner.**  However calls, polls, openings and closings of any number of
threads are interleaved with its worker, what a context shows is a run of one owner: it starts from
the protocol that the host has opened, and every request and every job runs on the protocol that the
one before it has left.  After a job was accepted nothing else happens in the context before the job
has been started, executed and ended, unless a panic has stopped the owner before. -/
theorem contexts_serial {trace : List (RegistryEvent Value)}
    (hrun : (transport text).Run trace registry) (id : Nat) :
    (∃ state, (owner text).Run (trace.filterMap (RegistryEvent.shown id)) state ∧
      (registry.entries id = none → state.Rests) ∧
      ∀ context, registry.entries id = some context → context.Owned state) ∧
    ∀ before call plan job after,
      trace.filterMap (RegistryEvent.shown id) = before ++ .accepted call plan job :: after →
      (Panicked before ∧ ∀ event ∈ after, ∃ call plan job, event = .accepted call plan job) ∨
        after = [] ∨ after = [.started plan job] ∨ ∃ calls result rest,
          after = .started plan job :: .executed job calls result :: rest ∧
            (rest = [] ∨ ∃ others, rest = .ended job result :: others) := by
  refine ⟨owns hrun id, fun before call plan job after htrace => ?_⟩
  obtain ⟨state, howner, -⟩ := owns hrun id
  exact owner_alone (htrace ▸ howner)

/-- The job of the run has been started, executed and ended before anything else. -/
theorem contexts_serial_sample :
    ∃ state before after,
      (owner sampleTransport).Run (sampleTrace.filterMap (RegistryEvent.shown 1)) state ∧
      sampleTrace.filterMap (RegistryEvent.shown 1) = before ++ .accepted 5 ⟨7#128⟩ 1 :: after ∧
      ((Panicked before ∧ ∀ event ∈ after, ∃ call plan job, event = .accepted call plan job) ∨
        after = [] ∨ after = [.started ⟨7#128⟩ 1] ∨ ∃ calls result rest,
          after = .started ⟨7#128⟩ 1 :: .executed 1 calls result :: rest ∧
            (rest = [] ∨ ∃ others, rest = .ended 1 result :: others)) := by
  obtain ⟨registry, hrun⟩ := sample_run
  obtain ⟨⟨state, howner, -⟩, halone⟩ := contexts_serial hrun 1
  exact ⟨state, _, _, howner, rfl, halone (((sampleTrace.filterMap (RegistryEvent.shown 1)).take 5))
    5 ⟨7#128⟩ 1 ((sampleTrace.filterMap (RegistryEvent.shown 1)).drop 6) rfl⟩

end Registry

end DisksGraph
