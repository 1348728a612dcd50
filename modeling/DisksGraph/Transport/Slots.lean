import DisksGraph.Transport.Linked
import DisksGraph.Transport.Undisturbed
import Mathlib.Data.Set.Card

/-!
# Transport — Slots

The slot counter of the registry (`Slot`, `Drop for Slot`).

* `Registry.reserving`, `Registry.held`: the calls and the entries that a slot is counted for.
* `slots_counted`: the counter is their number in every reachable state, and at most `MAX_CONTEXTS`.
-/

namespace DisksGraph

open Support (Machine)

namespace Registry

variable {Value : Type} {text : TransportJson Value} {registry registry' : Registry Value}
  {event : RegistryEvent Value} {call id : Nat}

/-- The calls that hold a slot which belongs to no context yet. -/
def reserving (registry : Registry Value) : Set Nat :=
  {call | (registry.calls call).reserves = true}

/-- The contexts that exist: listed, or still referred to. -/
def held (registry : Registry Value) : Set Nat := {id | registry.entries id ≠ none}

/-- What the slots are taken for. -/
noncomputable def taken (registry : Registry Value) : ENat :=
  registry.reserving.encard + registry.held.encard

/-- A caller that moves on with its reservation keeps it. -/
theorem reserving_move {caller : Caller Value} (h : caller.reserves = true) :
    (registry.move call caller).reserving = insert call registry.reserving := by
  ext other
  by_cases hsame : other = call
  · simp [reserving, hsame, h]
  · simp [reserving, hsame]

/-- A caller that moves on without it gives it back. -/
theorem reserving_leave {caller : Caller Value} (h : caller.reserves = false) :
    (registry.move call caller).reserving = registry.reserving \ {call} := by
  ext other
  by_cases hsame : other = call
  · simp [reserving, hsame, h]
  · simp [reserving, hsame]

theorem held_store (context : Context Value) :
    (registry.store id (some context)).held = insert id registry.held := by
  ext other
  by_cases hsame : other = id
  · simp [held, hsame]
  · simp [held, hsame]

theorem held_drop : (registry.store id none).held = registry.held \ {id} := by
  ext other
  by_cases hsame : other = id
  · simp [held, hsame]
  · simp [held, hsame]

/-- A step that takes no slot and gives none back. -/
theorem taken_congr
    (hcalls : ∀ call, (registry'.calls call).reserves = (registry.calls call).reserves)
    (hentries : ∀ id, registry'.entries id = none ↔ registry.entries id = none) :
    registry'.taken = registry.taken := by
  simp only [taken, reserving, held, hcalls, ne_eq, hentries]

/-- What a step does to the slots. -/
theorem taken_step (h : registry.Linked) (hstep : RegistryStep text registry event registry') :
    (registry'.taken = registry.taken ∧ registry'.slots = registry.slots) ∨
      (registry'.taken = registry.taken + 1 ∧ registry'.slots = registry.slots + 1 ∧
        registry.slots < MAX_CONTEXTS) ∨
      (registry'.taken + 1 = registry.taken ∧ registry'.slots = registry.slots - 1) := by
  cases hstep with
  | @reserve call input config hcall hconfig hslots =>
      have hfree : call ∉ registry.reserving := by simp [reserving, hcall, Caller.reserves]
      refine .inr (.inl ⟨?_, rfl, hslots⟩)
      calc
        _ = (insert call registry.reserving).encard + registry.held.encard := by
          rw [taken, reserving_move rfl]
          rfl
        _ = registry.taken + 1 := by
          rw [Set.encard_insert_of_notMem hfree, add_right_comm, taken]
  | @exhausted call live hcall hnext =>
      have hheld : call ∈ registry.reserving := by simp [reserving, hcall, Caller.reserves]
      refine .inr (.inr ⟨?_, rfl⟩)
      rw [taken, reserving_leave rfl, add_right_comm, taken,
        ← Set.encard_sdiff_singleton_add_one hheld]
      rfl
  | @spawn call id live hcall =>
      have hheld : call ∈ registry.reserving := by simp [reserving, hcall, Caller.reserves]
      have hfree : id ∉ registry.held := by simp [held, (h.drawn call id live hcall).2]
      refine .inl ⟨?_, rfl⟩
      calc
        _ = (registry.reserving \ {call}).encard + (insert id registry.held).encard := by
          rw [taken, reserving_leave rfl, ← held_store]
          rfl
        _ = registry.taken := by
          rw [Set.encard_insert_of_notMem hfree, add_comm registry.held.encard, ← add_assoc,
            Set.encard_sdiff_singleton_add_one hheld, taken]
  | @spawnFails call id live message hcall =>
      have hheld : call ∈ registry.reserving := by simp [reserving, hcall, Caller.reserves]
      refine .inr (.inr ⟨?_, rfl⟩)
      rw [taken, reserving_leave rfl, add_right_comm, taken,
        ← Set.encard_sdiff_singleton_add_one hheld]
      rfl
  | @free call id outcome context hcall hlast hentry hjoined =>
      have hfree : call ∉ registry.reserving := by simp [reserving, hcall, Caller.reserves]
      have hheld : id ∈ registry.held := by simp [held, hentry]
      refine .inr (.inr ⟨?_, rfl⟩)
      calc
        _ = (registry.reserving \ {call}).encard + ((registry.held \ {id}).encard + 1) := by
          rw [taken, reserving_leave rfl, ← held_drop, add_assoc]
          rfl
        _ = registry.taken := by
          rw [Set.encard_sdiff_singleton_add_one hheld, Set.sdiff_singleton_eq_self hfree, taken]
  | _ =>
      refine .inl ⟨taken_congr (fun other => ?_) fun other => ?_, rfl⟩
      · simp only [move_calls, store_calls] <;>
          grind [Caller.reserves, Caller.enter, cases Invocation]
      · simp only [move_entries, store_entries] <;> grind

/-- The counter is the number of the contexts that exist, with the openings that will make one. -/
theorem taken_of_run {trace : List (RegistryEvent Value)}
    (hrun : (transport text).Run trace registry) :
    registry.taken = registry.slots ∧ registry.slots ≤ MAX_CONTEXTS := by
  refine Machine.Run.recorded (I := fun _ registry =>
    registry.taken = registry.slots ∧ registry.slots ≤ MAX_CONTEXTS) ?_ ?_ hrun
  · rintro _ rfl
    refine ⟨?_, Nat.zero_le _⟩
    simp [taken, reserving, held, Caller.reserves]
  · rintro trace registry event registry' hrun ⟨htaken, hbound⟩ hstep
    rcases taken_step (linked hrun) hstep with ⟨hsame, hslots⟩ | ⟨hmore, hslots, hroom⟩ |
      ⟨hless, hslots⟩
    · rw [hsame, hslots]
      exact ⟨htaken, hbound⟩
    · rw [hmore, hslots, htaken]
      exact ⟨rfl, hroom⟩
    · have hcount : registry'.taken + 1 = (registry.slots : ENat) := hless.trans htaken
      obtain ⟨count, hcount'⟩ := ENat.ne_top_iff_exists.mp
        (fun htop : registry'.taken = ⊤ => by simp [htop] at hcount)
      rw [← hcount'] at hcount ⊢
      rw [hslots]
      norm_cast at hcount ⊢
      exact ⟨by omega, by omega⟩

/-- **The slot counter is exact.**  In every reachable state it counts the contexts that exist and
the openings that will make one, which are at most `MAX_CONTEXTS`; a context exists while it is
listed or a call refers to it; and a slot is given back by an opening that made no context, or when
the thread of its context has exited with nothing left in its channel. -/
theorem slots_counted {trace : List (RegistryEvent Value)}
    (hrun : (transport text).Run trace registry) :
    registry.reserving.encard + registry.held.encard = registry.slots ∧
      registry.slots ≤ MAX_CONTEXTS ∧
      (∀ id, id ∈ registry.held ↔
        id ∈ registry.contexts ∨ ∃ call, (registry.calls call).refers = some id) ∧
      ∀ event registry', (transport text).step registry event registry' →
        registry'.slots < registry.slots → registry'.slots + 1 = registry.slots ∧
          ((∃ call ∈ registry.reserving, ∃ error,
            registry'.calls call = .returning (.error error)) ∨
            ∃ id context, registry.entries id = some context ∧ id ∉ registry'.held ∧
              context.worker = .exited ∧ context.queue = []) := by
  have hlinked := linked hrun
  obtain ⟨htaken, hbound⟩ := taken_of_run hrun
  refine ⟨htaken, hbound, fun id => ⟨hlinked.owned id, ?_⟩, ?_⟩
  · rintro (hlisted | ⟨call, hrefers⟩)
    · exact hlinked.listed id hlisted
    · exact hlinked.refers call id hrefers
  · intro event registry' hstep hless
    cases hstep with
    | @exhausted call live hcall hnext =>
        refine ⟨Nat.succ_pred_eq_of_pos (Nat.zero_lt_of_lt hless), .inl ⟨call, ?_, ?_⟩⟩
        · simp [reserving, hcall, Caller.reserves]
        · exact ⟨_, Function.update_self ..⟩
    | @spawnFails call id live message hcall =>
        refine ⟨Nat.succ_pred_eq_of_pos (Nat.zero_lt_of_lt hless), .inl ⟨call, ?_, ?_⟩⟩
        · simp [reserving, hcall, Caller.reserves]
        · exact ⟨_, Function.update_self ..⟩
    | @free call id outcome context hcall hlast hentry hjoined =>
        have hexited := hlinked.exited hcall hlast hentry hjoined
        have hsound := hlinked.entries id context hentry
        refine ⟨Nat.succ_pred_eq_of_pos (Nat.zero_lt_of_lt hless), .inr ⟨id, context, hentry, ?_,
          hexited, hsound.flight.abandoned (by rw [hexited]; rfl)⟩⟩
        simp [held]
    | reserve => exact absurd hless (Nat.not_lt.mpr (Nat.le_succ _))
    | _ => exact absurd hless (Nat.lt_irrefl _)

/-- Two contexts hold the slots of the run while a job is executed. -/
theorem slots_counted_busy : ∃ registry, (transport sampleTransport).Run busyTrace registry ∧
    registry.reserving.encard + registry.held.encard = (2 : Nat) ∧
    registry.slots ≤ MAX_CONTEXTS ∧ 1 ∈ registry.held ∧ 2 ∈ registry.held := by
  obtain ⟨registry, hrun, hworks⟩ := busy_run
  obtain ⟨hcount, hbound, hheld, -⟩ := slots_counted hrun
  rw [hworks.slots] at hcount
  refine ⟨registry, hrun, hcount, hbound, (hheld 1).mpr (.inl ?_), (hheld 2).mpr (.inl ?_)⟩
  · simp [hworks.contexts]
  · simp [hworks.contexts]

end Registry

end DisksGraph
