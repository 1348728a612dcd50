import DisksGraph.Transport.Calls
import DisksGraph.Transport.Owner

/-!
# Transport — Handles

The identities that the transport gives out (`NEXT_CONTEXT`, `Job::new`).

* `Registry.Announced`: the handle of an opening that has returned, or is about to.
* `handles_distinct`: no two openings return the same handle, and no two starts the same job.
-/

namespace DisksGraph

open Support (Machine)

namespace RegistryEvent

variable {Value : Type}

/-- The handle that an opening returns. -/
def opened : RegistryEvent Value → Option Nat
  | .returned _ (.ok (.context id _)) => some id
  | _ => none

/-- The job of a start that the worker has accepted. -/
def drawn : RegistryEvent Value → Option Nat
  | .context _ (.accepted _ _ job) => some job
  | _ => none

end RegistryEvent

section Outcomes

variable {Value : Type} {text : TransportJson Value}

/-- An outcome that is no handle. -/
theorem Concludes.not_opened {invocation : Invocation} {services : List (Service Value)}
    {outcome : Outcome Value} (h : Concludes text invocation services outcome) (id : Nat)
    (live : Bool) : outcome ≠ .ok (.context id live) := by
  cases h with
  | refused hlocal =>
      rintro rfl
      exact hlocal
  | answered hparse hserial result =>
      cases result with
      | ok value => simp [Reply.of]
      | error failure => cases failure <;> simp [Reply.of]
  | _ => simp

end Outcomes

/-- The job that a context is about to accept. -/
def Context.starts {Value : Type} (context : Context Value) : Option Nat :=
  match context.guard with
  | some (_, .starting _ job) => some job.id
  | _ => none

section Starts

variable {Value : Type} {text : TransportJson Value} {context context' : Context Value}
  {event : ContextEvent Value} {call : Nat}

/-- Only the acceptance ends a start, and nothing but an allocation begins one. -/
theorem GuardStep.starts (h : GuardStep text call context event context') :
    (event = .internal ∧ ∀ job, context'.starts = some job → context.starts = some job) ∨
      ∃ plan job, event = .accepted call plan job ∧ context.starts = some job ∧
        context'.starts = none := by
  cases h with
  | @start plan job hguard =>
      exact .inr ⟨plan, job.id, rfl, by rw [Context.starts, hguard], rfl⟩
  | @enter input hguard =>
      refine .inl ⟨rfl, ?_⟩
      have henters := Context.enters text context input
      generalize context.enter text input = entered at henters ⊢
      cases henters <;> simp [Context.starts, Context.reach]
  | _ => exact .inl ⟨rfl, by simp [Context.starts, Context.reach]⟩

/-- A response starts no job. -/
theorem Context.respond_starts (worker : Worker Value) (caller : Nat) (reply : Reply Value)
    (job : Nat) (h : ({ context with worker }.respond caller reply).starts = some job) :
    context.starts = some job := by
  rw [Context.respond] at h
  split at h
  · split at h
    · cases h
    · exact h
  · exact h

theorem WorkerStep.starts (h : WorkerStep text context event context') (job : Nat)
    (hstarts : context'.starts = some job) : context.starts = some job := by
  cases h with
  | answer => exact Context.respond_starts _ _ _ job hstarts
  | panic => exact Context.respond_starts _ _ _ job hstarts
  | _ => exact hstarts

end Starts

namespace Registry

variable {Value : Type} {text : TransportJson Value} {registry registry' : Registry Value}
  {event : RegistryEvent Value} {id : Nat} {trace : List (RegistryEvent Value)}

/-- The opening of a handle is over. -/
def Announced (registry : Registry Value) (id : Nat) : Prop :=
  ¬registry.Unspawned id ∧
    ∀ context, registry.entries id = some context → context.opener = none

theorem Announced.step (h : registry.Announced id)
    (hstep : RegistryStep text registry event registry') : registry'.Announced id := by
  refine ⟨fun hnew => h.1 (unspawned_of_step hstep hnew), ?_⟩
  have hbefore := h.2
  have hspawned : ∀ call live, registry.calls call ≠ .numbered id live :=
    fun call live hcall => h.1 (.inr ⟨call, live, hcall⟩)
  cases hstep with
  | guard hcall hentry hguarded =>
      have hkept := hguarded.keeps.unopened
      simp only [store_entries]
      grind
  | work hentry hworked =>
      have hkept := hworked.keeps.unopened
      simp only [store_entries]
      grind
  | _ =>
      simp only [move_entries, store_entries]
      grind [Context.reach, Context.opener]

/-- The handles that were returned, and the openings that are about to return one. -/
structure Numbers (trace : List (RegistryEvent Value)) (registry : Registry Value) : Prop where
  opened : ∀ id ∈ trace.filterMap RegistryEvent.opened, registry.Announced id ∧
    ∀ call live, registry.calls call ≠ .returning (.ok (.context id live))
  opening : ∀ call id live, registry.calls call = .returning (.ok (.context id live)) →
    registry.Announced id
  once : ∀ call other id live live', registry.calls call = .returning (.ok (.context id live)) →
    registry.calls other = .returning (.ok (.context id live')) → call = other
  distinct : (trace.filterMap RegistryEvent.opened).Nodup

/-- A step that returns no handle. -/
theorem Numbers.quiet (h : Numbers trace registry)
    (hannounced : ∀ id, registry.Announced id → registry'.Announced id)
    (hquiet : event.opened = none)
    (hreturning : ∀ call id live, registry'.calls call = .returning (.ok (.context id live)) →
      registry.calls call = .returning (.ok (.context id live))) :
    Numbers (trace ++ [event]) registry' := by
  have hsame : (trace ++ [event]).filterMap RegistryEvent.opened =
      trace.filterMap RegistryEvent.opened := by
    rw [Machine.filterMap_snoc, hquiet, Option.toList_none, List.append_nil]
  refine ⟨?_, ?_, ?_, by rw [hsame]; exact h.distinct⟩
  · intro id hmem
    obtain ⟨hbefore, hfree⟩ := h.opened id (hsame ▸ hmem)
    exact ⟨hannounced id hbefore, fun call live hcall => hfree call live (hreturning _ _ _ hcall)⟩
  · exact fun call id live hcall => hannounced id (h.opening call id live (hreturning _ _ _ hcall))
  · exact fun call other id live live' hcall hother =>
      h.once call other id live live' (hreturning _ _ _ hcall) (hreturning _ _ _ hother)

/-- A step keeps the numbers of contexts distinct. -/
theorem Numbers.step (h : Numbers trace registry) (hlinked : registry.Linked)
    (htracks : ∀ call, registry.Tracks text trace call)
    (hstep : RegistryStep text registry event registry') :
    Numbers (trace ++ [event]) registry' := by
  have hannounced (id : Nat) (h : registry.Announced id) : registry'.Announced id := h.step hstep
  have hconcluded {call : Nat} {outcome : Outcome Value} {other : Nat}
      (hcall : registry.calls call = .dropping other outcome) (id : Nat) (live : Bool) :
      (.returning outcome : Caller Value) ≠ .returning (.ok (.context id live)) := by
    obtain ⟨invocation, -, hfollows⟩ := (htracks call).busy (by simp [hcall])
    rw [hcall] at hfollows
    exact fun heq => Concludes.not_opened hfollows id live (Caller.returning.inj heq)
  have hmoved {caller : Nat} {next : Caller Value}
      (hnext : ∀ id live, next ≠ .returning (.ok (.context id live)))
      (hcalls : registry'.calls = Function.update registry.calls caller next) (call id : Nat)
      (live : Bool) (hcall : registry'.calls call = .returning (.ok (.context id live))) :
      registry.calls call = .returning (.ok (.context id live)) := by
    rw [hcalls, Function.update_apply] at hcall
    split at hcall
    · exact absurd hcall (hnext id live)
    · exact hcall
  cases hstep with
  | begin invocation hcall =>
      refine h.quiet hannounced rfl (hmoved (fun id live => ?_) rfl)
      cases invocation <;> simp [Caller.enter]
  | guard hcall hentry hguarded => exact h.quiet hannounced rfl fun _ _ _ hcall => hcall
  | work hentry hworked => exact h.quiet hannounced rfl fun _ _ _ hcall => hcall
  | allocate hcall hentry => exact h.quiet hannounced rfl fun _ _ _ hcall => hcall
  | allocateFails hcall hentry => exact h.quiet hannounced rfl fun _ _ _ hcall => hcall
  | drop hcall hlast => exact h.quiet hannounced rfl (hmoved (hconcluded hcall) rfl)
  | free hcall hlast => exact h.quiet hannounced rfl (hmoved (hconcluded hcall) rfl)
  -- What a call opens was announced by no call before.
  | @register call id context hcall hentry hguard =>
      have hopener : context.opener = some call := by rw [Context.opener, hguard]
      have hfresh : ¬registry.Announced id := fun hbefore => by
        simp [hbefore.2 context hentry] at hopener
      have hafter : Announced (({ registry with contexts := insert id registry.contexts }.store id
          (some { context with guard := none })).move call
            (.returning (.ok (.context id context.live)))) id := by
        refine ⟨fun hnew => ?_, fun found hfound => ?_⟩
        · have hregistered : RegistryStep text registry .internal _ :=
            .register hcall hentry hguard
          have hnone := hlinked.entries_unspawned (unspawned_of_step hregistered hnew)
          simp [hnone] at hentry
        · rw [move_entries, store_entries, if_pos rfl] at hfound
          obtain rfl := Option.some.inj hfound
          rfl
      have hcalls {other found : Nat} {live : Bool}
          (hother : (({ registry with contexts := insert id registry.contexts }.store id
            (some { context with guard := none })).move call
              (.returning (.ok (.context id context.live)))).calls other =
                .returning (.ok (.context found live))) :
          (other = call ∧ found = id) ∨
            registry.calls other = .returning (.ok (.context found live)) := by
        rw [move_calls] at hother
        split at hother
        · next hsame => exact .inl ⟨hsame, by cases hother; rfl⟩
        · exact .inr hother
      have hsame : (trace ++ [RegistryEvent.internal]).filterMap RegistryEvent.opened =
          trace.filterMap RegistryEvent.opened := by simp [RegistryEvent.opened]
      refine ⟨?_, ?_, ?_, by rw [hsame]; exact h.distinct⟩
      · intro found hmem
        obtain ⟨hbefore, hfree⟩ := h.opened found (hsame ▸ hmem)
        refine ⟨hannounced found hbefore, fun other live hother => ?_⟩
        rcases hcalls hother with ⟨-, rfl⟩ | hother
        · exact hfresh hbefore
        · exact hfree other live hother
      · intro other found live hother
        rcases hcalls hother with ⟨-, rfl⟩ | hother
        · exact hafter
        · exact hannounced found (h.opening other found live hother)
      · intro first second found live live' hfirst hsecond
        rcases hcalls hfirst with ⟨rfl, rfl⟩ | hearlier
        · rcases hcalls hsecond with ⟨rfl, -⟩ | hother
          · rfl
          · exact absurd (h.opening second found live' hother) hfresh
        · rcases hcalls hsecond with ⟨rfl, rfl⟩ | hother
          · exact absurd (h.opening first found live hearlier) hfresh
          · exact h.once first second found live live' hearlier hother
  | @deliver call outcome hcall =>
      have hreturned (id : Nat) (live : Bool) :
          (.returned outcome : Caller Value) ≠ .returning (.ok (.context id live)) := by simp
      have hkept := hmoved hreturned rfl
      cases hopened : (RegistryEvent.returned call outcome).opened with
      | none => exact h.quiet hannounced hopened hkept
      | some id =>
          obtain ⟨live, rfl⟩ : ∃ live, outcome = .ok (.context id live) := by
            simp only [RegistryEvent.opened] at hopened
            split at hopened
            · next found live heq =>
              cases heq
              cases hopened
              exact ⟨live, rfl⟩
            · cases hopened
          have hfree : id ∉ trace.filterMap RegistryEvent.opened := fun hmem =>
            (h.opened id hmem).2 call live hcall
          have hmore : (trace ++ [RegistryEvent.returned call (.ok (.context id live))]).filterMap
              RegistryEvent.opened = trace.filterMap RegistryEvent.opened ++ [id] := by
            rw [Machine.filterMap_snoc, hopened, Option.toList_some]
          refine ⟨?_, ?_, ?_, ?_⟩
          · intro found hmem
            rw [hmore, List.mem_append, List.mem_singleton] at hmem
            rcases hmem with hmem | rfl
            · obtain ⟨hbefore, hnone⟩ := h.opened found hmem
              exact ⟨hannounced found hbefore, fun other live hother =>
                hnone other live (hkept _ _ _ hother)⟩
            · refine ⟨hannounced found (h.opening call found live hcall), ?_⟩
              intro other live' hother
              have hsame := h.once other call found live' live (hkept _ _ _ hother) hcall
              rw [hsame, move_calls, if_pos rfl] at hother
              cases hother
          · exact fun other found live hother =>
              hannounced found (h.opening other found live (hkept _ _ _ hother))
          · exact fun first second found live live' hfirst hsecond =>
              h.once first second found live live' (hkept _ _ _ hfirst) (hkept _ _ _ hsecond)
          · rw [hmore]
            exact List.nodup_append.mpr ⟨h.distinct, List.nodup_singleton id, by
              rintro found hmem _ hsingle rfl
              exact hfree (List.mem_singleton.mp hsingle ▸ hmem)⟩
  | _ => exact h.quiet hannounced rfl (hmoved (by simp) rfl)

/-! ### Jobs -/

/-- The job that a context is about to accept. -/
def starts (registry : Registry Value) (id : Nat) : Option Nat :=
  (registry.entries id).bind Context.starts

/-- What a step does to the jobs that were drawn. -/
theorem starts_step (hstep : RegistryStep text registry event registry') :
    (event.drawn = none ∧ registry'.nextJob = registry.nextJob ∧
      ∀ id job, registry'.starts id = some job → registry.starts id = some job) ∨
    (∃ id job, event.drawn = some job ∧ registry'.nextJob = registry.nextJob ∧
      registry.starts id = some job ∧ registry'.starts id = none ∧
      ∀ other found, registry'.starts other = some found → registry.starts other = some found) ∨
    ∃ id, event.drawn = none ∧ registry'.nextJob = registry.nextJob + 1 ∧
      ∀ other job, registry'.starts other = some job →
        other = id ∧ job = registry.nextJob ∨ registry.starts other = some job := by
  have hstored {id : Nat} {context context' : Context Value}
      (hentries : registry'.entries = Function.update registry.entries id (some context'))
      (hentry : registry.entries id = some context)
      (hstarts : ∀ job, context'.starts = some job → context.starts = some job) (other job : Nat)
      (h : registry'.starts other = some job) : registry.starts other = some job := by
    rw [starts, hentries, Function.update_apply] at h
    split at h
    · next hsame =>
      rw [hsame, starts, hentry]
      exact hstarts job h
    · exact h
  cases hstep with
  | @guard caller id context context' event hcall hentry hguarded =>
      rcases hguarded.starts with ⟨rfl, hkept⟩ | ⟨plan, job, rfl, hbefore, hafter⟩
      · exact .inl ⟨rfl, rfl, hstored rfl hentry hkept⟩
      · refine .inr (.inl ⟨id, job, rfl, rfl, ?_, ?_, hstored rfl hentry fun found hfound => ?_⟩)
        · rw [starts, hentry]
          exact hbefore
        · rw [starts, store_entries, if_pos rfl]
          exact hafter
        · rw [hafter] at hfound
          cases hfound
  | work hentry hworked =>
      exact .inl ⟨by cases hworked <;> rfl, rfl, hstored rfl hentry hworked.starts⟩
  | @allocate caller id next context plan job hcall hentry hguard hjob =>
      obtain ⟨rfl, rfl⟩ : next = registry.nextJob + 1 ∧ job = { id := registry.nextJob } := by
        rw [Job.new, checkedAdd] at hjob
        split at hjob
        · cases hjob
        · next after hafter =>
          split at hafter
          · cases hafter
            cases hjob
            exact ⟨rfl, rfl⟩
          · cases hafter
      refine .inr (.inr ⟨id, rfl, rfl, fun other found hfound => ?_⟩)
      rw [starts, store_entries] at hfound
      split at hfound
      · next hsame => exact .inl ⟨hsame, (Option.some.inj hfound).symm⟩
      · exact .inr hfound
  | spawn =>
      refine .inl ⟨rfl, rfl, fun other found hfound => ?_⟩
      rw [starts, move_entries, store_entries] at hfound
      split at hfound
      · cases hfound
      · exact hfound
  | free =>
      refine .inl ⟨rfl, rfl, fun other found hfound => ?_⟩
      rw [starts, move_entries, store_entries] at hfound
      split at hfound
      · cases hfound
      · exact hfound
  | tryLock hcall hentry => exact .inl ⟨rfl, rfl, hstored rfl hentry (by rintro _ ⟨⟩)⟩
  | lock hcall hentry =>
      refine .inl ⟨rfl, rfl, hstored rfl hentry fun job hjob => ?_⟩
      rw [Context.starts, Context.reach] at hjob
      split at hjob
      · next heq =>
        split at heq
        · cases heq
        · cases heq
      · cases hjob
  | allocateFails hcall hentry => exact .inl ⟨rfl, rfl, hstored rfl hentry (by rintro _ ⟨⟩)⟩
  | register hcall hentry => exact .inl ⟨rfl, rfl, hstored rfl hentry (by rintro _ ⟨⟩)⟩
  | release hcall hentry => exact .inl ⟨rfl, rfl, hstored rfl hentry (by rintro _ ⟨⟩)⟩
  | unwind hcall hentry => exact .inl ⟨rfl, rfl, hstored rfl hentry (by rintro _ ⟨⟩)⟩
  | shutdown hcall hlast hentry => exact .inl ⟨rfl, rfl, hstored rfl hentry (by rintro _ ⟨⟩)⟩
  | _ => exact .inl ⟨rfl, rfl, fun _ _ h => h⟩

/-- The jobs that were accepted, and the ones that are about to be. -/
structure Draws (trace : List (RegistryEvent Value)) (registry : Registry Value) : Prop where
  accepted : ∀ job ∈ trace.filterMap RegistryEvent.drawn, job < registry.nextJob ∧
    ∀ id, registry.starts id ≠ some job
  starting : ∀ id job, registry.starts id = some job → job < registry.nextJob
  once : ∀ id other job, registry.starts id = some job → registry.starts other = some job →
    id = other
  distinct : (trace.filterMap RegistryEvent.drawn).Nodup

theorem Draws.step (h : Draws trace registry)
    (hstep : RegistryStep text registry event registry') : Draws (trace ++ [event]) registry' := by
  rcases starts_step hstep with ⟨hnone, hnext, hkept⟩ |
    ⟨id, job, hsome, hnext, hbefore, hafter, hkept⟩ |
    ⟨id, hnone, hnext, hkept⟩
  · have hsame : (trace ++ [event]).filterMap RegistryEvent.drawn =
        trace.filterMap RegistryEvent.drawn := by
      rw [Machine.filterMap_snoc, hnone, Option.toList_none, List.append_nil]
    refine ⟨?_, ?_, ?_, hsame ▸ h.distinct⟩
    · intro job hmem
      obtain ⟨hlt, hfree⟩ := h.accepted job (hsame ▸ hmem)
      exact ⟨hnext ▸ hlt, fun id hid => hfree id (hkept id job hid)⟩
    · exact fun id job hid => hnext ▸ h.starting id job (hkept id job hid)
    · exact fun id other job hid hother =>
        h.once id other job (hkept id job hid) (hkept other job hother)
  -- The job leaves the start, and joins the accepted ones.
  · have hmore : (trace ++ [event]).filterMap RegistryEvent.drawn =
        trace.filterMap RegistryEvent.drawn ++ [job] := by
      rw [Machine.filterMap_snoc, hsome, Option.toList_some]
    refine ⟨?_, ?_, ?_, ?_⟩
    · intro found hmem
      rw [hmore, List.mem_append, List.mem_singleton] at hmem
      rcases hmem with hmem | rfl
      · obtain ⟨hlt, hfree⟩ := h.accepted found hmem
        exact ⟨hnext ▸ hlt, fun other hother => hfree other (hkept other found hother)⟩
      · refine ⟨hnext ▸ h.starting id found hbefore, fun other hother => ?_⟩
        have hsame := h.once other id found (hkept other found hother) hbefore
        rw [hsame, hafter] at hother
        cases hother
    · exact fun other found hother => hnext ▸ h.starting other found (hkept other found hother)
    · exact fun first second found hfirst hsecond =>
        h.once first second found (hkept first found hfirst) (hkept second found hsecond)
    · rw [hmore]
      refine List.nodup_append.mpr ⟨h.distinct, List.nodup_singleton job, ?_⟩
      rintro found hmem other hother rfl
      exact (h.accepted found hmem).2 id (List.mem_singleton.mp hother ▸ hbefore)
  -- The counter has passed every job that was drawn before.
  · have hsame : (trace ++ [event]).filterMap RegistryEvent.drawn =
        trace.filterMap RegistryEvent.drawn := by
      rw [Machine.filterMap_snoc, hnone, Option.toList_none, List.append_nil]
    refine ⟨?_, ?_, ?_, hsame ▸ h.distinct⟩
    · intro job hmem
      obtain ⟨hlt, hfree⟩ := h.accepted job (hsame ▸ hmem)
      refine ⟨hnext ▸ Nat.lt_succ_of_lt hlt, fun other hother => ?_⟩
      rcases hkept other job hother with ⟨-, rfl⟩ | hbefore
      · exact absurd hlt (Nat.lt_irrefl _)
      · exact hfree other hbefore
    · intro other job hother
      rcases hkept other job hother with ⟨-, rfl⟩ | hbefore
      · exact hnext ▸ Nat.lt_succ_self _
      · exact hnext ▸ Nat.lt_succ_of_lt (h.starting other job hbefore)
    · intro first second job hfirst hsecond
      rcases hkept first job hfirst with ⟨rfl, rfl⟩ | hbefore
      · rcases hkept second _ hsecond with ⟨rfl, -⟩ | hother
        · rfl
        · exact absurd (h.starting second _ hother) (Nat.lt_irrefl _)
      · rcases hkept second job hsecond with ⟨rfl, rfl⟩ | hother
        · exact absurd (h.starting first _ hbefore) (Nat.lt_irrefl _)
        · exact h.once first second job hbefore hother

/-- **No identity is given out twice.**  In any interleaving the handles that openings return are
pairwise distinct, and so are the jobs of the starts that the workers of any contexts have
accepted. -/
theorem handles_distinct (hrun : (transport text).Run trace registry) :
    (trace.filterMap RegistryEvent.opened).Nodup ∧ (trace.filterMap RegistryEvent.drawn).Nodup := by
  have hnumbers : Numbers trace registry := by
    refine hrun.recorded ?_ fun _ _ _ _ hrun h hstep => h.step (linked hrun) (tracks hrun) hstep
    rintro _ rfl
    exact ⟨by simp, by simp, by simp, by simp⟩
  have hdraws : Draws trace registry := by
    refine hrun.recorded ?_ fun _ _ _ _ _ h hstep => h.step hstep
    rintro _ rfl
    exact ⟨by simp, by simp [starts], by simp [starts], by simp⟩
  exact ⟨hnumbers.distinct, hdraws.distinct⟩

/-- Two openings and one accepted start. -/
theorem handles_distinct_sample : ∃ registry,
    (transport sampleTransport).Run sampleTrace registry ∧
      sampleTrace.filterMap RegistryEvent.opened = [1, 2] ∧
      sampleTrace.filterMap RegistryEvent.drawn = [1] ∧
      (sampleTrace.filterMap RegistryEvent.opened).Nodup ∧
      (sampleTrace.filterMap RegistryEvent.drawn).Nodup := by
  obtain ⟨registry, hrun⟩ := sample_run
  exact ⟨registry, hrun, rfl, rfl, handles_distinct hrun⟩

end Registry

end DisksGraph
