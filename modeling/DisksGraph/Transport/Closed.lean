import DisksGraph.Transport.Owner

/-!
# Transport — Closed

What a close leaves behind.

* `Registry.Gone`: the handle is unlisted for good, and its worker has exited.
* `Registry.Closing`: a close that is about to return has joined the worker.
* `closed_for_good`: nothing happens in a context after its close has returned, its owner rests, and
  every later call finds no context.
-/

namespace DisksGraph

open Support (Machine)

/-- The handle that a call is about. -/
def Invocation.names : Invocation → Option Nat
  | .opens _ => none
  | .calls id _ | .closes id => some id

section Stages

variable {Value : Type} {text : TransportJson Value} {context context' : Context Value}
  {event : ContextEvent Value} {call id : Nat} {stage stage' : Stage Value}

/-- The call has its outcome. -/
def Stage.ended : Stage Value → Option (Outcome Value)
  | .waiting (some reply) => some (.ok reply)
  | .leaving outcome => some outcome
  | _ => none

/-- The call joins the worker before it has its outcome. -/
def Stage.ending : Stage Value → Option (Outcome Value)
  | .stopping outcome | .joining outcome => some outcome
  | _ => none

theorem WorkerStep.not_exited (h : WorkerStep text context event context') :
    context.worker ≠ .exited := by
  cases h <;> simp [*]

/-- A call that comes to the outcome of a close has joined the worker. -/
theorem GuardStep.ended (h : GuardStep text call context event context')
    (hguard : context.guard = some (call, stage)) (hguard' : context'.guard = some (call, stage'))
    (hended : stage'.ended = some (.ok (.closed id))) :
    stage.ended = some (.ok (.closed id)) ∨
      stage.ending = some (.ok (.closed id)) ∧ context.worker = .exited := by
  cases h with
  | ready => cases hguard'; cases hended
  | refused => cases hguard'; cases hended
  | unready => cases hguard'; cases hended
  | @enter input =>
      have henters := Context.enters text context input
      generalize context.enter text input = entered at henters hguard'
      cases hguard'
      cases henters with
      | leaves hlocal =>
          cases hended
          exact hlocal.elim
      | polls hjob hlocal =>
          cases hended
          exact hlocal.elim
      | _ => cases hended
  | start => cases hguard'; cases hended
  | startFails => cases hguard'; cases hended
  | send => cases hguard'; cases hended
  | sendFails => cases hguard'; cases hended
  | receive hother =>
      cases hguard'
      obtain ⟨-, rfl⟩ := Prod.mk.inj (Option.some.inj (hguard.symm.trans hother))
      exact .inl hended
  | hungUp => cases hguard'; cases hended
  | stop => cases hguard'; cases hended
  | stopFails => cases hguard'; cases hended
  | join hother hexited =>
      cases hguard'
      obtain ⟨-, rfl⟩ := Prod.mk.inj (Option.some.inj (hguard.symm.trans hother))
      exact .inr ⟨hended, hexited⟩

theorem GuardStep.ending (h : GuardStep text call context event context')
    (hguard : context.guard = some (call, stage)) (hguard' : context'.guard = some (call, stage'))
    {outcome : Outcome Value} (hending : stage'.ending = some outcome) :
    stage.ending = some outcome := by
  cases h with
  | stop hother =>
      cases hguard'
      obtain ⟨-, rfl⟩ := Prod.mk.inj (Option.some.inj (hguard.symm.trans hother))
      exact hending
  | stopFails hother =>
      cases hguard'
      obtain ⟨-, rfl⟩ := Prod.mk.inj (Option.some.inj (hguard.symm.trans hother))
      exact hending
  | @enter input =>
      have henters := Context.enters text context input
      generalize context.enter text input = entered at henters hguard'
      cases hguard'
      cases henters <;> cases hending
  | _ => cases hguard'; cases hending

/-- The worker gives no call the outcome of a close. -/
theorem Context.respond_guard {caller : Nat} {reply : Reply Value}
    (hreply : ∀ id, reply ≠ .closed id) (worker : Worker Value)
    (h : ({ context with worker }.respond caller reply).guard = some (call, stage)) :
    context.guard = some (call, stage) ∨
      (∀ id, stage.ended ≠ some (.ok (.closed id))) ∧ stage.ending = none := by
  rw [Context.respond] at h
  split at h
  · split at h
    · cases h
      refine .inr ⟨fun id hended => ?_, rfl⟩
      exact hreply id (Except.ok.inj (Option.some.inj hended))
    · exact .inl h
  · exact .inl h

theorem WorkerStep.guard (h : WorkerStep text context event context')
    (hguard : context'.guard = some (call, stage)) :
    context.guard = some (call, stage) ∨
      (∀ id, stage.ended ≠ some (.ok (.closed id))) ∧ stage.ending = none := by
  cases h with
  | answer => exact Context.respond_guard (by simp) _ hguard
  | panic => exact Context.respond_guard (by simp) _ hguard
  | _ => exact .inl hguard

end Stages

namespace Registry

variable {Value : Type} {text : TransportJson Value} {registry registry' : Registry Value}
  {event : RegistryEvent Value} {call id : Nat} {trace : List (RegistryEvent Value)}

/-- The handle was given out and is unlisted for good, and its worker has exited. -/
structure Gone (registry : Registry Value) (id : Nat) : Prop where
  spawned : ¬registry.Unspawned id
  unlisted : id ∉ registry.contexts
  exited : ∀ context, registry.entries id = some context →
    context.joined = true ∧ context.worker = .exited

theorem Gone.step (h : registry.Gone id) (hlinked : registry.Linked)
    (hstep : RegistryStep text registry event registry') : registry'.Gone id := by
  have hunspawned := h.spawned
  have hunlisted := h.unlisted
  have hexited := h.exited
  have hspawned : ∀ call live, registry.calls call ≠ .numbered id live :=
    fun call live hcall => h.spawned (.inr ⟨call, live, hcall⟩)
  refine ⟨fun hnew => h.spawned (unspawned_of_step hstep hnew), ?_, ?_⟩
  · cases hstep with
    -- A context that is being opened has not been joined.
    | register hcall hentry hguard =>
        have hfresh := ((hlinked.entries _ _ hentry).stage _ _ hguard).1.2.1
        simp only [move_contexts, store_contexts]
        grind
    | _ => (simp only [move_contexts, store_contexts]; grind)
  · cases hstep with
    | guard hcall hentry hguarded =>
        have hworker := hguarded.worker
        have hjoined := hguarded.keeps.joined
        simp only [store_entries]
        grind
    | work hentry hworked =>
        have hworker := hworked.not_exited
        simp only [store_entries]
        grind
    | _ => (simp only [move_entries, store_entries]; grind [Context.reach])

/-- A close that is about to return has joined the worker. -/
structure Closing (registry : Registry Value) : Prop where
  ended : ∀ other context call stage id, registry.entries other = some context →
    context.guard = some (call, stage) → stage.ended = some (.ok (.closed id)) → registry.Gone id
  ending : ∀ other context call stage id, registry.entries other = some context →
    context.guard = some (call, stage) → stage.ending = some (.ok (.closed id)) →
      other = id ∨ registry.Gone id
  dropping : ∀ call other id, registry.calls call = .dropping other (.ok (.closed id)) →
    registry.Gone id
  returning : ∀ call id, registry.calls call = .returning (.ok (.closed id)) → registry.Gone id

/-- An entry that shutdown has joined is gone. -/
theorem Linked.gone {context : Context Value} (hlinked : registry.Linked)
    (hentry : registry.entries id = some context) (hjoined : context.joined = true)
    (hexited : context.worker = .exited) : registry.Gone id where
  spawned hnew := by simp [hlinked.entries_unspawned hnew] at hentry
  unlisted hmem := by simp [hlinked.unjoined id context hmem hentry] at hjoined
  exited found hfound := by
    obtain rfl := Option.some.inj (hentry.symm.trans hfound)
    exact ⟨hjoined, hexited⟩

/-- A step of the entry, of its worker or of the call inside. -/
theorem Closing.stored {other : Nat} {context' : Context Value} (h : registry.Closing)
    (hgone : ∀ id, registry.Gone id → registry'.Gone id)
    (hentries : registry'.entries = Function.update registry.entries other (some context'))
    (hended : ∀ call stage id, context'.guard = some (call, stage) →
      stage.ended = some (.ok (.closed id)) → registry'.Gone id)
    (hending : ∀ call stage id, context'.guard = some (call, stage) →
      stage.ending = some (.ok (.closed id)) → other = id ∨ registry'.Gone id)
    (hdropping : ∀ call other id, registry'.calls call = .dropping other (.ok (.closed id)) →
      registry'.Gone id)
    (hreturning : ∀ call id, registry'.calls call = .returning (.ok (.closed id)) →
      registry'.Gone id) : registry'.Closing := by
  refine ⟨?_, ?_, hdropping, hreturning⟩
  · intro found context call stage id hentry hguard hstage
    rw [hentries, Function.update_apply] at hentry
    split at hentry
    · obtain rfl := Option.some.inj hentry
      exact hended call stage id hguard hstage
    · exact hgone id (h.ended found context call stage id hentry hguard hstage)
  · intro found context call stage id hentry hguard hstage
    rw [hentries, Function.update_apply] at hentry
    split at hentry
    · next hsame =>
      obtain rfl := Option.some.inj hentry
      exact hsame ▸ hending call stage id hguard hstage
    · exact (h.ending found context call stage id hentry hguard hstage).imp_right (hgone id)

theorem Closing.step (h : registry.Closing) (hlinked : registry.Linked)
    (hstep : RegistryStep text registry event registry') : registry'.Closing := by
  have hgone (id : Nat) (hbefore : registry.Gone id) : registry'.Gone id :=
    hbefore.step hlinked hstep
  have hdropping {caller : Nat} {next : Caller Value}
      (hnext : ∀ other id, next = .dropping other (.ok (.closed id)) → registry'.Gone id)
      (hcalls : registry'.calls = Function.update registry.calls caller next) (call other id : Nat)
      (hcall : registry'.calls call = .dropping other (.ok (.closed id))) : registry'.Gone id := by
    rw [hcalls, Function.update_apply] at hcall
    split at hcall
    · exact hnext other id hcall
    · exact hgone id (h.dropping call other id hcall)
  have hreturning {caller : Nat} {next : Caller Value}
      (hnext : ∀ id, next = .returning (.ok (.closed id)) → registry'.Gone id)
      (hcalls : registry'.calls = Function.update registry.calls caller next) (call id : Nat)
      (hcall : registry'.calls call = .returning (.ok (.closed id))) : registry'.Gone id := by
    rw [hcalls, Function.update_apply] at hcall
    split at hcall
    · exact hnext id hcall
    · exact hgone id (h.returning call id hcall)
  have hmoved {caller : Nat} {next : Caller Value}
      (hdrop : ∀ other id, next = .dropping other (.ok (.closed id)) → registry'.Gone id)
      (hreturn : ∀ id, next = .returning (.ok (.closed id)) → registry'.Gone id)
      (hcalls : registry'.calls = Function.update registry.calls caller next)
      (hentries : ∀ other context, registry'.entries other = some context →
        registry.entries other = some context) : registry'.Closing := by
    refine ⟨?_, ?_, hdropping hdrop hcalls, hreturning hreturn hcalls⟩
    · exact fun other context call stage id hentry hguard hstage =>
        hgone id (h.ended other context call stage id (hentries other context hentry) hguard hstage)
    · exact fun other context call stage id hentry hguard hstage =>
        (h.ending other context call stage id (hentries other context hentry) hguard
          hstage).imp_right (hgone id)
  have hheld (hcalls : registry'.calls = registry.calls) :
      (∀ call other id, registry'.calls call = .dropping other (.ok (.closed id)) →
        registry'.Gone id) ∧
      ∀ call id, registry'.calls call = .returning (.ok (.closed id)) → registry'.Gone id := by
    rw [hcalls]
    exact ⟨fun call other id hcall => hgone id (h.dropping call other id hcall),
      fun call id hcall => hgone id (h.returning call id hcall)⟩
  cases hstep with
  | begin invocation hcall =>
      refine hmoved ?_ ?_ rfl fun _ _ hentry => hentry
      · cases invocation <;> simp [Caller.enter]
      · cases invocation <;> simp [Caller.enter]
  | spawn hcall =>
      exact h.stored hgone rfl (by rintro _ _ _ ⟨⟩ ⟨⟩) (by rintro _ _ _ ⟨⟩ ⟨⟩)
        (hdropping (by simp) rfl) (hreturning (by simp) rfl)
  | tryLock hcall hentry hguard =>
      exact h.stored hgone rfl (by rintro _ _ _ ⟨⟩ ⟨⟩) (by rintro _ _ _ ⟨⟩ ⟨⟩)
        (hdropping (by simp) rfl) (hreturning (by simp) rfl)
  | @lock call id context hcall hentry hguard =>
      refine h.stored hgone rfl ?_ ?_ (hdropping (by simp) rfl) (hreturning (by simp) rfl)
      · rintro caller stage other hstage hended
        obtain ⟨-, rfl⟩ := Prod.mk.inj (Option.some.inj hstage)
        split at hended
        -- The worker was joined by a shutdown before.
        · next hjoined =>
          obtain rfl : id = other := by cases hended; rfl
          rcases (hlinked.entries id context hentry).joined hjoined with hexited |
            ⟨_, _, hstop | hstop⟩
          · exact hgone id (hlinked.gone hentry hjoined hexited)
          · simp [hguard] at hstop
          · simp [hguard] at hstop
        · cases hended
      · rintro caller stage other hstage hending
        obtain ⟨-, rfl⟩ := Prod.mk.inj (Option.some.inj hstage)
        split at hending
        · cases hending
        · exact .inl (by cases hending; rfl)
  | @guard _ other context context' event hcall hentry hguarded =>
      obtain ⟨⟨call, stage⟩, hguard, rfl⟩ := Option.map_eq_some_iff.mp hguarded.holder
      have hholder := hguarded.keeps.holder.trans hguarded.holder
      have hsound := hlinked.entries other context hentry
      refine h.stored hgone rfl ?_ ?_ (hheld rfl).1 (hheld rfl).2
      · intro caller stage' id hguard' hended
        obtain rfl : caller = call := by simpa [Context.holder, hguard'] using hholder
        rcases hguarded.ended hguard hguard' hended with hbefore | ⟨hending, hexited⟩
        · exact hgone id (h.ended other context caller stage id hentry hguard hbefore)
        · rcases h.ending other context caller stage id hentry hguard hending with rfl | hbefore
          · refine hgone other (hlinked.gone hentry ?_ hexited)
            have htold := hsound.stage _ _ hguard
            cases stage with
            | stopping outcome => exact htold
            | joining outcome => exact htold.1
            | _ => cases hending
          · exact hgone id hbefore
      · intro caller stage' id hguard' hending
        obtain rfl : caller = call := by simpa [Context.holder, hguard'] using hholder
        exact (h.ending other context caller stage id hentry hguard
          (hguarded.ending hguard hguard' hending)).imp_right (hgone id)
  | @work other context context' event hentry hworked =>
      refine h.stored hgone rfl ?_ ?_ (hheld rfl).1 (hheld rfl).2
      · intro caller stage id hguard' hended
        rcases hworked.guard hguard' with hguard | ⟨hnone, -⟩
        · exact hgone id (h.ended other context caller stage id hentry hguard hended)
        · exact absurd hended (hnone id)
      · intro caller stage id hguard' hending
        rcases hworked.guard hguard' with hguard | ⟨-, hnone⟩
        · exact (h.ending other context caller stage id hentry hguard hending).imp_right (hgone id)
        · rw [hnone] at hending
          cases hending
  | allocate hcall hentry hguard hjob =>
      exact h.stored hgone rfl (by rintro _ _ _ ⟨⟩ ⟨⟩) (by rintro _ _ _ ⟨⟩ ⟨⟩)
        (hheld rfl).1 (hheld rfl).2
  | allocateFails hcall hentry hguard hjob =>
      exact h.stored hgone rfl (by rintro _ _ _ ⟨⟩ ⟨⟩) (by rintro _ _ _ ⟨⟩ ⟨⟩)
        (hheld rfl).1 (hheld rfl).2
  | register hcall hentry hguard =>
      exact h.stored hgone rfl (by rintro _ _ _ ⟨⟩) (by rintro _ _ _ ⟨⟩)
        (hdropping (by simp) rfl) (hreturning (by simp) rfl)
  | @release call other context outcome hcall hentry hguard =>
      refine h.stored hgone rfl (by rintro _ _ _ ⟨⟩)
        (by rintro _ _ _ ⟨⟩) (hdropping ?_ rfl) (hreturning (by simp) rfl)
      rintro found id ⟨⟩
      exact hgone id (h.ended other context call _ id hentry hguard rfl)
  | unwind hcall hentry hguard =>
      exact h.stored hgone rfl (by rintro _ _ _ ⟨⟩) (by rintro _ _ _ ⟨⟩)
        (hdropping (by simp) rfl) (hreturning (by simp) rfl)
  | @drop call other outcome hcall hlast =>
      refine hmoved (by simp) ?_ rfl fun _ _ hentry => hentry
      rintro id ⟨⟩
      exact hgone id (h.dropping call other id hcall)
  | @free call other outcome context hcall hlast hentry hjoined =>
      refine hmoved (by simp) ?_ rfl fun found context hfound => ?_
      · rintro id ⟨⟩
        exact hgone id (h.dropping call other id hcall)
      · rw [move_entries, store_entries] at hfound
        split at hfound
        · cases hfound
        · exact hfound
  | @shutdown call other outcome context hcall hlast hentry hjoined =>
      refine h.stored hgone rfl (by rintro _ _ _ ⟨⟩ ⟨⟩) ?_ (hdropping (by simp) rfl)
        (hreturning (by simp) rfl)
      rintro caller stage id ⟨⟩ ⟨⟩
      exact .inr (hgone id (h.dropping call other id hcall))
  | _ => exact hmoved (by simp) (by simp) rfl fun _ _ hentry => hentry

/-- In every reachable state a close that is about to return has joined the worker. -/
theorem closing (hrun : (transport text).Run trace registry) : registry.Closing := by
  refine hrun.recorded (I := fun _ registry => registry.Closing) ?_
    fun _ _ _ _ hrun h hstep => h.step (linked hrun) hstep
  rintro _ rfl
  exact ⟨by simp, by simp, by simp, by simp⟩

/-- A gone handle shows nothing more. -/
theorem Gone.shown (h : registry.Gone id) (hstep : RegistryStep text registry event registry') :
    event.shown id = none := by
  cases hstep with
  | @guard call other context context' event hcall hentry hguarded =>
      rw [RegistryEvent.shown]
      split
      · next hsame =>
        have hexited := (h.exited context (hsame ▸ hentry)).2
        cases hguarded with
        | start hguard hqueue hreceives => simp [hexited, Worker.receives] at hreceives
        | _ => rfl
      · rfl
  | @work other context context' event hentry hworked =>
      rw [RegistryEvent.shown]
      split
      · next hsame =>
        exact absurd (h.exited context (hsame ▸ hentry)).2 hworked.not_exited
      · rfl
  | _ => rfl

/-! ### Later calls -/

/-- A call that has found no context. -/
def Refuses (invocation : Invocation) (outcome : Outcome Value) : Prop :=
  outcome = .error .unknownContext ∨ ∃ id input, invocation = .calls id input ∧
    MAX_REQUEST_BYTES < input.utf8ByteSize ∧ outcome = .error .resourceLimit

/-- A call that finds no context, or has found none. -/
def Refused (registry : Registry Value) (call : Nat) (invocation : Invocation) : Prop :=
  registry.calls call = .enter invocation ∨
    ∃ outcome, (registry.calls call = .returning outcome ∨
      registry.calls call = .returned outcome) ∧
      Refuses invocation outcome

/-- A call on a context that is gone is refused. -/
theorem Refused.step {invocation : Invocation} (h : registry.Refused call invocation)
    (hnames : invocation.names = some id) (hgone : registry.Gone id)
    (hstep : RegistryStep text registry event registry') :
    (∀ outcome, event = .returned call outcome → Refuses invocation outcome) ∧
      registry'.Refused call invocation := by
  have hunlisted := hgone.unlisted
  have hmoved (hquiet : ∀ outcome, event ≠ .returned call outcome)
      (hcalls : registry'.calls call = registry.calls call) :
      (∀ outcome, event = .returned call outcome → Refuses invocation outcome) ∧
        registry'.Refused call invocation := by
    refine ⟨fun outcome heq => absurd heq (hquiet outcome), ?_⟩
    rw [Refused, hcalls]
    exact h
  have hended {caller : Nat} {outcome : Outcome Value}
    (hquiet : ∀ outcome, event ≠ .returned call outcome)
      (hcalls : registry'.calls = Function.update registry.calls caller (.returning outcome))
      (houtcome : call = caller → Refuses invocation outcome) :
      (∀ outcome, event = .returned call outcome → Refuses invocation outcome) ∧
        registry'.Refused call invocation := by
    by_cases hsame : call = caller
    · refine ⟨fun outcome heq => absurd heq (hquiet outcome),
        .inr ⟨outcome, .inl ?_, houtcome hsame⟩⟩
      rw [hcalls, hsame, Function.update_self]
    · exact hmoved hquiet (by rw [hcalls, Function.update_of_ne hsame])
  cases hstep with
  | guard => exact hmoved (by simp) rfl
  | work => exact hmoved (by simp) rfl
  | allocate => exact hmoved (by simp) rfl
  | allocateFails => exact hmoved (by simp) rfl
  | @unknown caller found asked hcall =>
      exact hended (by simp) rfl fun _ => .inl rfl
  | @absent caller found hcall => exact hended (by simp) rfl fun _ => .inl rfl
  | @tooLarge caller found asked hcall hlarge =>
      refine hended (by simp) rfl ?_
      rintro rfl
      rcases h with h | ⟨outcome, h | h, -⟩
      · rw [hcall] at h
        cases invocation with
        | calls id input =>
            obtain ⟨-, rfl⟩ := Caller.looking.inj h
            exact .inr ⟨id, asked, rfl, hlarge, rfl⟩
        | _ => cases h
      · simp [hcall] at h
      · simp [hcall] at h
  | @deliver caller outcome hcall =>
      by_cases hsame : call = caller
      · obtain rfl := hsame
        obtain ⟨found, hfound, hrefuses⟩ : ∃ found, registry.calls call = .returning found ∧
            Refuses invocation found := by
          rcases h with h | ⟨found, h | h, hrefuses⟩
          · cases invocation <;> simp [hcall, Caller.enter] at h
          · exact ⟨found, h, hrefuses⟩
          · simp [hcall] at h
        obtain rfl := Caller.returning.inj (hcall.symm.trans hfound)
        refine ⟨?_, .inr ⟨outcome, .inr (Function.update_self ..), hrefuses⟩⟩
        rintro _ ⟨⟩
        exact hrefuses
      · exact hmoved (by simp [Ne.symm hsame]) (by simp [hsame])
  -- No other step is one of a call that finds nothing.
  | _ =>
      refine hmoved (by simp) ?_
      simp only [Refused] at h
      simp only [move_calls, store_calls]
      grind [Caller.enter, Invocation.names, cases Invocation]

/-- A handle is gone when a close returns it. -/
theorem gone_of_returned (hrun : (transport text).Run trace registry)
    (hstep : RegistryStep text registry (.returned call (.ok (.closed id))) registry') :
    registry.Gone id := by
  cases hstep with
  | deliver hcall => exact (closing hrun).returning call id hcall

/-- What a close has returned is gone. -/
theorem gone_of_closed {before after : List (RegistryEvent Value)}
    (hrun : (transport text).Run (before ++ .returned call (.ok (.closed id)) :: after) registry) :
    registry.Gone id := by
  obtain ⟨closed, hbefore, hpath⟩ := hrun.split rfl
  have hlinked := linked hbefore
  cases hpath with
  | cons hstep hpath =>
      have hgone : closed.Gone id := gone_of_returned hbefore hstep
      refine (hpath.invariant (I := fun registry => registry.Linked ∧ registry.Gone id) ?_
        ⟨hlinked.step hstep, hgone.step hlinked hstep⟩).2
      exact fun _ _ _ h hstep => ⟨h.1.step hstep, h.2.step h.1 hstep⟩

/-- The owner of a gone handle rests. -/
theorem Gone.rests {state : Owner Value} (h : registry.Gone id)
    (hnone : registry.entries id = none → state.Rests)
    (howned : ∀ context, registry.entries id = some context → context.Owned state) :
    state.Rests := by
  cases hentry : registry.entries id with
  | none => exact hnone hentry
  | some context =>
      have hrests := howned context hentry
      rwa [Context.Owned, (h.exited context hentry).2] at hrests

/-- **A close is for good.**  When a close has returned its handle, the worker has exited and its
owner rests: every job that was accepted has ended, unless a panic has stopped the owner.
Afterwards nothing happens in the context, however long other calls still refer to it, and a call
that begins later finds no context. -/
theorem closed_for_good (hrun : (transport text).Run trace registry) :
    ∀ before call id after, trace = before ++ .returned call (.ok (.closed id)) :: after →
      (∀ caller plan job, .context id (.accepted caller plan job) ∈ before →
        (∃ result, .context id (.ended job result) ∈ before) ∨
          Panicked (before.filterMap (RegistryEvent.shown id))) ∧
      (∀ event ∈ after, event.shown id = none) ∧
      ∀ middle other invocation later, after = middle ++ .began other invocation :: later →
        invocation.names = some id → ∀ outcome, .returned other outcome ∈ later →
          Refuses invocation outcome := by
  rintro before call id after rfl
  refine ⟨?_, ?_, ?_⟩
  · intro caller plan job hmem
    obtain ⟨closed, hbefore, hpath⟩ := hrun.split rfl
    have hgone : closed.Gone id := by
      cases hpath with
      | cons hstep hpath => exact gone_of_returned hbefore hstep
    obtain ⟨state, howner, hnone, howned⟩ := owns hbefore id
    have haccepted : .accepted caller plan job ∈ before.filterMap (RegistryEvent.shown id) :=
      List.mem_filterMap.mpr ⟨_, hmem, if_pos rfl⟩
    rcases owner_accounts howner haccepted with ⟨result, hended⟩ | hpanicked | hheld
    · obtain ⟨event, hevent, hshown⟩ := List.mem_filterMap.mp hended
      exact .inl ⟨result, RegistryEvent.eq_of_shown hshown ▸ hevent⟩
    · exact .inr hpanicked
    · rcases hgone.rests hnone howned with rfl | rfl | ⟨resting, rfl⟩
      · simp [Owner.Holds] at hheld
      · simp [Owner.Holds] at hheld
      · simp [Owner.Holds] at hheld
  · have hsplit : before ++ .returned call (.ok (.closed id)) :: after =
        (before ++ [.returned call (.ok (.closed id))]) ++ after := by simp
    obtain ⟨closed, hbefore, hpath⟩ := hrun.split hsplit
    refine hpath.shows (I := fun registry => registry.Linked ∧ registry.Gone id) ?_
      ⟨linked hbefore, gone_of_closed hbefore⟩
    exact fun _ _ _ h hstep => ⟨h.2.shown hstep, h.1.step hstep, h.2.step h.1 hstep⟩
  · rintro middle other invocation later rfl hnames outcome hmem
    have hsplit : before ++ .returned call (.ok (.closed id)) ::
        (middle ++ .began other invocation :: later) =
          (before ++ .returned call (.ok (.closed id)) :: middle) ++
            .began other invocation :: later := by simp
    obtain ⟨closed, hbefore, hpath⟩ := hrun.split hsplit
    have hlinked := linked hbefore
    have hgone := gone_of_closed hbefore
    cases hpath with
    | cons hstep hpath =>
        cases hstep with
        | begin invocation hcall =>
            have hstep : RegistryStep text closed (.began other invocation)
              (closed.move other (.enter invocation)) := .begin invocation hcall
            refine hpath.shows (I := fun registry => registry.Linked ∧ registry.Gone id ∧
              registry.Refused other invocation)
              (P := fun event => ∀ outcome, event = .returned other outcome →
                Refuses invocation outcome) ?_
              ⟨hlinked.step hstep, hgone.step hlinked hstep, .inl (Function.update_self ..)⟩
              _ hmem outcome rfl
            intro s event s' h hstep
            obtain ⟨hreturns, hrefused⟩ := h.2.2.step hnames h.2.1 hstep
            exact ⟨hreturns, h.1.step hstep, h.2.1.step h.1 hstep, hrefused⟩

/-- The call 7 of the run has closed the context after its job, and the call 8 finds no context. -/
theorem closed_for_good_sample :
    ∃ registry, (transport sampleTransport).Run sampleTrace registry ∧
      (∀ caller plan job, .context 1 (.accepted caller plan job) ∈ closeTrace.dropLast →
        (∃ result, .context 1 (.ended job result) ∈ closeTrace.dropLast) ∨
          Panicked (closeTrace.dropLast.filterMap (RegistryEvent.shown 1))) ∧
      .context 1 (.accepted 5 ⟨7#128⟩ 1) ∈ closeTrace.dropLast ∧
      ∀ outcome : Outcome Unit, .returned 8 outcome ∈ (unknownTrace 8 1 reviewInput).drop 1 →
        Refuses (.calls 1 reviewInput) outcome := by
  obtain ⟨registry, hrun⟩ := sample_run
  obtain ⟨hended, -, hlater⟩ := closed_for_good hrun closeTrace.dropLast 7 1 _ rfl
  refine ⟨registry, hrun, hended, ?_, hlater [] 8 (.calls 1 reviewInput) _ rfl rfl⟩
  simp [closeTrace, workTrace, busyTrace, startedTrace, closingTrace]

end Registry

end DisksGraph
