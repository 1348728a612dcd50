import DisksGraph.Transport.Sound

/-!
# Transport — Linked

The invariant of the registry.

* `Registry.Linked`: every entry is sound, and the lookup, the entries and the calls agree on who
  refers to what.  Handles are below the counter, and the ones that are being opened are distinct.
* `Linked.step`, `linked_of_run`: every step keeps it, so every reachable state has it.
-/

namespace DisksGraph

open Support (Machine)

namespace Context

variable {Value : Type}

/-- The call that holds the guard. -/
def holder (context : Context Value) : Option Nat := context.guard.map Prod.fst

/-- The call that opens the context. -/
def opener (context : Context Value) : Option Nat :=
  match context.guard with
  | some (call, .awaiting) | some (call, .registering) => some call
  | _ => none

/-- What the steps of a context leave alone. -/
structure Keeps (context context' : Context Value) : Prop where
  live : context'.live = context.live
  joined : context'.joined = context.joined
  holder : context'.holder = context.holder
  opener : ∀ call, context'.opener = some call → context.opener = some call

end Context

/-- What no call opens is opened by none afterwards. -/
theorem Context.Keeps.unopened {Value : Type} {context context' : Context Value}
    (h : context.Keeps context') (hnone : context.opener = none) : context'.opener = none := by
  by_contra hsome
  obtain ⟨call, hopener⟩ := Option.ne_none_iff_exists'.mp hsome
  rw [h.opener call hopener] at hnone
  cases hnone

section Keeps

variable {Value : Type} {text : TransportJson Value} {context context' : Context Value}
  {event : ContextEvent Value} {call : Nat}

theorem GuardStep.holder (h : GuardStep text call context event context') :
    context.holder = some call := by
  cases h <;> simp [Context.holder, *]

theorem GuardStep.keeps (h : GuardStep text call context event context') :
    context.Keeps context' := by
  have hholder := h.holder
  cases h with
  | @enter input hguard =>
      have henters := Context.enters text context input
      generalize context.enter text input = entered at henters ⊢
      cases henters <;> exact ⟨rfl, rfl, hholder.symm, by simp [Context.opener, Context.reach]⟩
  | ready hguard => exact ⟨rfl, rfl, hholder.symm, by simp [Context.opener, Context.reach, hguard]⟩
  | _ => exact ⟨rfl, rfl, hholder.symm, by simp [Context.opener, Context.reach]⟩

theorem GuardStep.worker (h : GuardStep text call context event context') :
    context'.worker = context.worker := by
  cases h with
  | @enter input hguard =>
      have henters := Context.enters text context input
      generalize context.enter text input = entered at henters ⊢
      cases henters <;> rfl
  | _ => rfl

theorem Context.respond_keeps (worker : Worker Value) (caller : Nat) (reply : Reply Value) :
    context.Keeps ({ context with worker }.respond caller reply) := by
  rw [Context.respond]
  split
  · next hguard =>
    split
    · have hholder : context.guard = some (_, .waiting none) := hguard
      exact ⟨rfl, rfl, by simp [Context.holder, hholder], by simp [Context.opener]⟩
    · exact ⟨rfl, rfl, rfl, fun _ => id⟩
  · exact ⟨rfl, rfl, rfl, fun _ => id⟩

theorem WorkerStep.keeps (h : WorkerStep text context event context') :
    context.Keeps context' := by
  cases h with
  | answer => exact Context.respond_keeps ..
  | panic => exact Context.respond_keeps ..
  | _ => exact ⟨rfl, rfl, rfl, fun _ => id⟩

end Keeps

namespace Context

variable {Value : Type} {text : TransportJson Value} {context : Context Value}

/-- A guard that was free is taken. -/
theorem Sound.regard {call : Nat} {stage : Stage Value} (h : context.Sound)
    (hguard : context.guard = none) (joined : Bool)
    (htold : Says ({ context with joined }.reach call stage) call stage)
    (hjoined : joined = true → context.joined = true ∨ ∃ outcome, stage = .stopping outcome) :
    Sound ({ context with joined }.reach call stage) := by
  have hapart : Apart { context with joined } :=
    (h.flight.apart (not_bears_none hguard)).keep rfl rfl fun _ => id
  refine ⟨hapart.flight _, says_reach htold, fun hjoin => ?_⟩
  rcases hjoined hjoin with hbefore | ⟨outcome, rfl⟩
  · rcases h.joined hbefore with hexited | ⟨call, outcome, hstop | hstop⟩
    · exact .inl hexited
    · simp [hguard] at hstop
    · simp [hguard] at hstop
  · exact .inr ⟨call, outcome, .inl rfl⟩

/-- The guard is given back. -/
theorem Sound.release {call : Nat} {stage : Stage Value} (h : context.Sound)
    (hguard : context.guard = some (call, stage)) (hfree : context.Frees call stage)
    (hstopping : ∀ outcome, stage ≠ .stopping outcome)
    (hjoining : ∀ outcome, stage ≠ .joining outcome) (poisoned : Bool) :
    Sound { context with guard := none, poisoned } := by
  have hapart : Apart { context with guard := none, poisoned } :=
    (h.flight.apart (not_bears hguard hfree)).keep rfl rfl fun _ => id
  exact ⟨hapart.flight none, fun _ _ hother => by simp at hother,
    fun hjoin => .inl (h.joined.exited hguard hstopping hjoining hjoin)⟩

/-- A context whose worker was spawned just now. -/
theorem Sound.spawned (live : Bool) (call : Nat) :
    Context.Sound { live, guard := some (call, (.awaiting : Stage Value)) } := by
  refine ⟨.initializing rfl rfl rfl, ?_, .of_false rfl⟩
  rintro other stage ⟨⟩
  exact ⟨⟨rfl, rfl, rfl⟩, .inl ⟨rfl, rfl⟩⟩

end Context

namespace Registry

variable {Value : Type} {text : TransportJson Value} {registry registry' : Registry Value}
  {event : RegistryEvent Value} {call id : Nat}

/-- The lookup, the entries and the calls agree on who refers to what. -/
structure Linked (registry : Registry Value) : Prop where
  entries : ∀ id context, registry.entries id = some context → context.Sound
  refers : ∀ call id, (registry.calls call).refers = some id → registry.entries id ≠ none
  holder : ∀ id context call, registry.entries id = some context →
    (context.holder = some call ↔ registry.calls call = .inside id)
  listed : ∀ id ∈ registry.contexts, registry.entries id ≠ none
  unjoined : ∀ id context, id ∈ registry.contexts → registry.entries id = some context →
    context.joined = false
  alone : ∀ id context call, registry.entries id = some context → context.opener = some call →
    registry.Last call id
  owned : ∀ id, registry.entries id ≠ none →
    id ∈ registry.contexts ∨ ∃ call, (registry.calls call).refers = some id
  removed : ∀ call id, registry.calls call = .removed id → id ∉ registry.contexts
  numbered : ∀ id, registry.entries id ≠ none → id < registry.nextContext
  drawn : ∀ call id live, registry.calls call = .numbered id live →
    id < registry.nextContext ∧ registry.entries id = none
  distinct : ∀ call other id live live', registry.calls call = .numbered id live →
    registry.calls other = .numbered id live' → call = other

namespace Linked

/-- Nobody holds the guard of an entry that only one call still drops. -/
theorem unguarded {outcome : Outcome Value} {context : Context Value} (h : registry.Linked)
    (hcall : registry.calls call = .dropping id outcome) (hlast : registry.Last call id)
    (hentry : registry.entries id = some context) : context.guard = none := by
  cases hguard : context.guard with
  | none => rfl
  | some guard =>
      have hinside := (h.holder id context guard.1 hentry).mp (by
        rw [Context.holder, hguard, Option.map_some])
      by_cases hsame : guard.1 = call
      · rw [hsame, hcall] at hinside
        cases hinside
      · exact absurd (by rw [hinside]; rfl) (hlast.2 guard.1 hsame)

/-- An entry is freed after its worker has exited. -/
theorem exited {outcome : Outcome Value} {context : Context Value} (h : registry.Linked)
    (hcall : registry.calls call = .dropping id outcome) (hlast : registry.Last call id)
    (hentry : registry.entries id = some context) (hjoined : context.joined = true) :
    context.worker = .exited := by
  have hguard := h.unguarded hcall hlast hentry
  rcases (h.entries id context hentry).joined hjoined with hexited |
    ⟨caller, outcome, hstop | hstop⟩
  · exact hexited
  · simp [hguard] at hstop
  · simp [hguard] at hstop

/-- A call is inside the entry whose guard it holds, and inside no other. -/
theorem inside_ne {other : Nat} {context : Context Value} (h : registry.Linked)
    (hentry : registry.entries id = some context) (hholder : context.holder ≠ some call)
    (hinside : registry.calls call = .inside other) : other ≠ id := by
  rintro rfl
  exact hholder ((h.holder other context call hentry).mpr hinside)

variable (h : registry.Linked) (hstep : RegistryStep text registry event registry')

include h hstep

/-- Every context stays sound. -/
theorem entries_step (id : Nat) (context : Context Value)
    (hentry' : registry'.entries id = some context) : context.Sound := by
  have hkept (hsame : registry'.entries = registry.entries) : context.Sound :=
    h.entries id context (hsame ▸ hentry')
  have hstored {other : Nat} {changed : Context Value}
      (hsame : registry'.entries = Function.update registry.entries other (some changed))
      (hsound : changed.Sound) : context.Sound := by
    rw [hsame, Function.update_apply] at hentry'
    split at hentry'
    · exact Option.some.inj hentry' ▸ hsound
    · exact h.entries id context hentry'
  cases hstep with
  | spawn => exact hstored rfl (.spawned _ _)
  | tryLock hcall hentry hguard =>
      exact hstored rfl ((h.entries _ _ hentry).regard hguard _ trivial .inl)
  | lock hcall hentry hguard =>
      refine hstored rfl ((h.entries _ _ hentry).regard hguard true ?_ ?_)
      · split
        · trivial
        · rfl
      · intro _
        split
        · next hjoined => exact .inl hjoined
        · exact .inr ⟨_, rfl⟩
  | guard hcall hentry hguarded => exact hstored rfl ((h.entries _ _ hentry).guardStep hguarded)
  | allocate hcall hentry hguard hjob =>
      have hsound := h.entries _ _ hentry
      have htold := hsound.stage _ _ hguard
      refine hstored rfl (hsound.advance hguard trivial ⟨htold.1, htold.2, ?_⟩ (.of_false htold.2))
      rw [Job.new] at hjob
      split at hjob
      · cases hjob
      · cases hjob
        rfl
  | allocateFails hcall hentry hguard =>
      have hsound := h.entries _ _ hentry
      have htold := hsound.stage _ _ hguard
      exact hstored rfl (hsound.advance hguard trivial trivial (.of_false htold.2))
  | register hcall hentry hguard =>
      exact hstored rfl ((h.entries _ _ hentry).release hguard trivial (by simp) (by simp) _)
  | release hcall hentry hguard =>
      exact hstored rfl ((h.entries _ _ hentry).release hguard trivial (by simp) (by simp) _)
  | unwind hcall hentry hguard =>
      exact hstored rfl ((h.entries _ _ hentry).release hguard trivial (by simp) (by simp) _)
  | free =>
      rw [move_entries, store_entries] at hentry'
      split at hentry'
      · cases hentry'
      · exact h.entries id context hentry'
  | shutdown hcall hlast hentry hjoined =>
      have hguard := h.unguarded hcall hlast hentry
      exact hstored rfl ((h.entries _ _ hentry).regard hguard true rfl fun _ => .inr ⟨_, rfl⟩)
  | work hentry hworked => exact hstored rfl ((h.entries _ _ hentry).workerStep hworked)
  | _ => exact hkept rfl

/-- A call refers to a context that is there. -/
theorem refers_step (call id : Nat) (hrefers : (registry'.calls call).refers = some id) :
    registry'.entries id ≠ none := by
  have hbefore := h.refers
  have hlisted := h.listed
  revert hrefers
  cases hstep with
  | _ =>
      simp only [move_calls, move_entries, store_entries, store_calls]
      grind [Caller.refers, Last, Caller.enter, cases Invocation]

/-- The holder of a guard is the call inside. -/
theorem holder_step (id : Nat) (context : Context Value) (call : Nat)
    (hentry : registry'.entries id = some context) :
    context.holder = some call ↔ registry'.calls call = .inside id := by
  have hrefers := h.refers
  have hbefore := h.holder
  have hdrawn := h.drawn
  revert hentry
  cases hstep with
  | guard hcall hentry hguarded =>
      have hkept := hguarded.keeps.holder
      simp only [store_entries, store_calls]
      grind
  | work hentry hworked =>
      have hkept := hworked.keeps.holder
      simp only [store_entries, store_calls]
      grind
  | _ =>
      simp only [move_calls, move_entries, store_entries, store_calls]
      grind [Caller.refers, Last, Context.holder, Context.reach, Caller.enter, cases Invocation]

theorem listed_step (id : Nat) (hmem : id ∈ registry'.contexts) : registry'.entries id ≠ none := by
  have hrefers := h.refers
  have hbefore := h.listed
  revert hmem
  cases hstep with
  | _ =>
      simp only [move_entries, move_contexts, store_entries, store_contexts]
      grind [Caller.refers, Last]

/-- A listed context has not been joined. -/
theorem unjoined_step (id : Nat) (context : Context Value) (hmem : id ∈ registry'.contexts)
    (hentry : registry'.entries id = some context) : context.joined = false := by
  have hbefore := h.unjoined
  have hremoved := h.removed
  revert hmem hentry
  cases hstep with
  | guard hcall hentry hguarded =>
      have hkept := hguarded.keeps.joined
      simp only [store_entries, store_contexts]
      grind
  | work hentry hworked =>
      have hkept := hworked.keeps.joined
      simp only [store_entries, store_contexts]
      grind
  -- Only an opening lists a context, and nobody can have closed it before.
  | register hcall hentry hguard =>
      have hfresh := ((h.entries _ _ hentry).stage _ _ hguard).1.2.1
      simp only [move_entries, move_contexts, store_entries, store_contexts]
      grind
  | _ =>
      have hlisted := h.listed
      simp only [move_entries, move_contexts, store_entries, store_contexts]
      grind [Last, Context.reach]

/-- An opening is alone in its context. -/
theorem alone_step (id : Nat) (context : Context Value) (call : Nat)
    (hentry : registry'.entries id = some context) (hopener : context.opener = some call) :
    registry'.Last call id := by
  have hrefers := h.refers
  have hlisted := h.listed
  have hbefore := h.alone
  have hdrawn := h.drawn
  revert hentry hopener
  cases hstep with
  | guard hcall hentry hguarded =>
      have hkept := hguarded.keeps.opener
      simp only [Last, store_entries, store_calls, store_contexts]
      grind [Last]
  | work hentry hworked =>
      have hkept := hworked.keeps.opener
      simp only [Last, store_entries, store_calls, store_contexts]
      grind [Last]
  | _ =>
      simp only [Last, move_calls, move_entries, move_contexts, store_entries, store_calls,
        store_contexts]
      grind [Caller.refers, Last, Context.reach, Context.opener, Caller.enter, cases Invocation]

/-- A context is listed, or some call refers to it. -/
theorem owned_step (id : Nat) (hentry : registry'.entries id ≠ none) :
    id ∈ registry'.contexts ∨ ∃ call, (registry'.calls call).refers = some id := by
  have hbefore := h.owned
  revert hentry
  cases hstep with
  | _ =>
      simp only [move_calls, move_entries, move_contexts, store_entries, store_calls,
        store_contexts]
      grind [Caller.refers, Last, Caller.enter, cases Invocation]

theorem removed_step (call id : Nat) (hcall : registry'.calls call = .removed id) :
    id ∉ registry'.contexts := by
  have hbefore := h.removed
  revert hcall
  cases hstep with
  -- A context that is opened is referred to by its opening only.
  | @register call id context hcall hentry hguard =>
      have halone := h.alone _ _ call hentry (by simp [Context.opener, hguard])
      simp only [move_calls, move_contexts, store_calls, store_contexts]
      grind [Last, Caller.refers]
  | _ =>
      simp only [move_calls, move_contexts, store_calls, store_contexts]
      grind [Caller.enter, cases Invocation]

theorem numbered_step (id : Nat) (hentry : registry'.entries id ≠ none) :
    id < registry'.nextContext := by
  have hbefore := h.numbered
  have hdrawn := h.drawn
  revert hentry
  cases hstep with
  | _ =>
      simp only [move_entries, move_nextContext, store_entries, store_nextContext]
      grind [checkedAdd]

/-- A drawn number is fresh. -/
theorem drawn_step (call id : Nat) (live : Bool)
    (hcall : registry'.calls call = .numbered id live) :
    id < registry'.nextContext ∧ registry'.entries id = none := by
  have hnumbered := h.numbered
  have hbefore := h.drawn
  have hdistinct := h.distinct
  revert hcall
  cases hstep with
  | _ =>
      simp only [move_calls, move_entries, move_nextContext, store_entries, store_calls,
        store_nextContext]
      grind [checkedAdd, Caller.enter, cases Invocation]

/-- No two calls have drawn one number. -/
theorem distinct_step (call other id : Nat) (live live' : Bool)
    (hcall : registry'.calls call = .numbered id live)
    (hother : registry'.calls other = .numbered id live') : call = other := by
  have hdrawn := h.drawn
  have hbefore := h.distinct
  revert hcall hother
  cases hstep with
  | _ =>
      simp only [move_calls, store_calls]
      grind [Caller.enter, cases Invocation]

/-- A step of the transport keeps the links. -/
theorem step : registry'.Linked where
  entries := h.entries_step hstep
  refers := h.refers_step hstep
  holder := h.holder_step hstep
  listed := h.listed_step hstep
  unjoined := h.unjoined_step hstep
  alone := h.alone_step hstep
  owned := h.owned_step hstep
  removed := h.removed_step hstep
  numbered := h.numbered_step hstep
  drawn := h.drawn_step hstep
  distinct := h.distinct_step hstep

end Linked

/-- Before the first call nothing refers to anything. -/
theorem linked_start : Linked ({} : Registry Value) := by
  constructor <;> simp [Caller.refers]

/-- Every reachable state is linked. -/
theorem linked {trace : List (RegistryEvent Value)} (hrun : (transport text).Run trace registry) :
    registry.Linked :=
  hrun.invariant (fun _ hstart => by rw [hstart]; exact linked_start) fun _ _ _ h => h.step

end Registry

end DisksGraph
