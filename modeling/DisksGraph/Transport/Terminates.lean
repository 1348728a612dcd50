import DisksGraph.Transport.Owner
import DisksGraph.Transport.Progress
import Mathlib.Algebra.BigOperators.Group.Finset.Piecewise
import Mathlib.Algebra.Order.BigOperators.Group.Finset
import Mathlib.Data.Prod.Lex

/-!
# Transport — Terminates

The transport comes to rest.

* `Worker.rank`, `Stage.rank`, `Caller.rank`: how many steps are left, without the passive updates
  of mailboxes.
* `calls_return`: without new calls the transport comes to rest, and then every call has returned.
-/

namespace DisksGraph

open Support (Machine)

section Rank

variable {Value : Type}

/-- How many steps a message is still good for. -/
def Message.rank : Message → Nat
  | .call .. => 6
  | .apply .. => 8
  | .stop => 1

/-- How many steps a worker takes before it waits or ends. -/
def Worker.rank : Worker Value → Nat
  | .initializing => 30
  | .receiving _ => 10
  | .answering .. => 15
  | .applying .. => 17
  | .concluding .. => 16
  | .leaving => 3
  | .ending => 2
  | .exited => 0

/-- The updates that the end of a job still has to publish. -/
def Worker.unpublished : Worker Value → Nat
  | .concluding _ _ updates _ => updates.length
  | _ => 0

/-- How many steps the holder of a guard takes. -/
def Stage.rank : Stage Value → Nat
  | .awaiting => 8
  | .registering => 1
  | .entered _ => 15
  | .allocating _ => 14
  | .starting .. | .forwarding _ => 13
  | .waiting none => 5
  | .waiting (some _) => 4
  | .stopping _ => 8
  | .joining _ => 5
  | .leaving _ | .unwinding => 3

namespace Context

/-- A worker is joined once. -/
def joinRank : Bool → Nat
  | true => 0
  | false => 10

/-- The steps that a queue is still good for. -/
def queueRank (queue : List Message) : Nat := (queue.map Message.rank).sum

/-- The steps of whoever holds the guard. -/
def guardRank : Option (Nat × Stage Value) → Nat
  | none => 0
  | some (_, stage) => stage.rank

/-- What is left of a context. -/
def rank (context : Context Value) : Nat :=
  joinRank context.joined + context.worker.rank + queueRank context.queue + guardRank context.guard

/-- The events that the worker has yet to publish. -/
def unpublished (context : Context Value) : Nat := context.worker.unpublished

end Context

/-- How many steps a caller outside a context takes. -/
def Caller.rank : Caller Value → Nat
  | .opening _ => 53
  | .reserved _ => 52
  | .numbered .. => 51
  | .looking .. => 19
  | .found .. => 18
  | .closing _ => 7
  | .removed _ => 6
  | .inside _ | .dropping .. => 2
  | .returning _ => 1
  | .idle | .returned _ => 0

variable {text : TransportJson Value} {context context' : Context Value}
  {event : ContextEvent Value} {call : Nat}

/-- A call that holds the guard comes nearer to its return. -/
theorem GuardStep.rank (h : GuardStep text call context event context') :
    context'.rank < context.rank := by
  have hjoined := h.keeps.joined
  have hworker := h.worker
  suffices hless : Context.queueRank context'.queue + Context.guardRank context'.guard <
      Context.queueRank context.queue + Context.guardRank context.guard by
    rw [Context.rank, Context.rank, hjoined, hworker]
    omega
  cases h with
  | @enter input hguard =>
      have henters := Context.enters text context input
      generalize context.enter text input = entered at henters ⊢
      cases henters <;> simp [Context.guardRank, Context.reach, hguard, Stage.rank]
  | start hguard hqueue =>
      simp [Context.queueRank, Context.guardRank, Context.reach, hguard, hqueue, Stage.rank,
        Message.rank]
  | send hguard hqueue =>
      simp [Context.queueRank, Context.guardRank, Context.reach, hguard, hqueue, Stage.rank,
        Message.rank]
  | stop hguard hqueue =>
      simp [Context.queueRank, Context.guardRank, Context.reach, hguard, hqueue, Stage.rank,
        Message.rank]
  | _ => simp [Context.guardRank, Context.reach, Stage.rank, *]

/-- A reply moves the call that waits for it. -/
theorem Context.respond_rank (worker : Worker Value) (caller : Nat) (reply : Reply Value) :
    ({ context with worker }.respond caller reply).rank ≤
    { context with worker : Context Value }.rank := by
  rw [Context.respond]
  split
  · next hguard =>
    have hholder : context.guard = some (_, .waiting none) := hguard
    split
    · simp [Context.rank, Context.guardRank, hholder, Stage.rank]
    · exact Nat.le_refl _
  · exact Nat.le_refl _

/-- A worker comes nearer to its next message, or publishes an update of a job that has ended. -/
theorem WorkerStep.rank {id : Nat} (h : WorkerStep text context event context')
    (hadvances : (RegistryEvent.context id event).advances = true) :
    context'.rank < context.rank ∨
      context'.rank = context.rank ∧ context'.unpublished < context.unpublished := by
  have hjoined := h.keeps.joined
  have hless (hguard : context'.guard = context.guard)
      (hless : context'.worker.rank + Context.queueRank context'.queue <
        context.worker.rank + Context.queueRank context.queue) :
      context'.rank < context.rank ∨
        context'.rank = context.rank ∧ context'.unpublished < context.unpublished := by
    rw [Context.rank, Context.rank, hjoined, hguard]
    omega
  cases h with
  | answer hworker =>
      refine .inl (Nat.lt_of_le_of_lt (Context.respond_rank ..) ?_)
      simp [Context.rank, hworker, Worker.rank]
  | panic hworker =>
      refine .inl (Nat.lt_of_le_of_lt (Context.respond_rank ..) ?_)
      simp [Context.rank, hworker, Worker.rank]
  | publish => cases hadvances
  | publishLast hworker =>
      refine .inr ⟨?_, ?_⟩
      · simp [Context.rank, Context.updateJob, hworker, Worker.rank]
      · simp [Context.unpublished, Context.updateJob, hworker, Worker.unpublished]
  | takeCall hworker hqueue =>
      refine hless rfl ?_
      simp only [Context.queueRank, hworker, hqueue, Worker.rank, Message.rank, List.map_cons,
        List.sum_cons]
      omega
  | takeApply hworker hqueue =>
      refine hless rfl ?_
      simp only [Context.queueRank, hworker, hqueue, Worker.rank, Message.rank, List.map_cons,
        List.sum_cons]
      omega
  | takeStop hworker hqueue =>
      refine hless rfl ?_
      simp only [Context.queueRank, hworker, hqueue, Worker.rank, Message.rank, List.map_cons,
        List.sum_cons]
      omega
  | fail hworker =>
      refine hless rfl ?_
      simp only [Context.queueRank, hworker, Worker.rank, List.map_nil, List.sum_nil]
      omega
  | drop hworker =>
      refine hless rfl ?_
      simp only [Context.queueRank, hworker, Worker.rank, List.map_nil, List.sum_nil]
      omega
  | _ => exact hless rfl (by simp [Context.updateJob, Worker.rank, *])

end Rank

namespace Registry

variable {Value : Type} {text : TransportJson Value} {registry registry' : Registry Value}
  {event : RegistryEvent Value} {call id n : Nat}

/-- What one index adds to a sum that is updated there. -/
theorem sum_update {α : Type} (indices : Finset Nat) (f : Nat → α) (g : α → Nat) (i : Nat) (b : α)
    (hmem : i ∈ indices) :
    ∑ j ∈ indices, g (Function.update f i b j) + g (f i) = ∑ j ∈ indices, g (f j) + g b := by
  have hcomp : ∀ j, g (Function.update f i b j) = Function.update (fun j => g (f j)) i (g b) j := by
    intro j
    by_cases hsame : j = i
    · rw [hsame, Function.update_self, Function.update_self]
    · rw [Function.update_of_ne hsame, Function.update_of_ne hsame]
  rw [Finset.sum_congr rfl fun j _ => hcomp j, Finset.sum_update_of_mem hmem,
    ← Finset.add_sum_erase indices (fun j => g (f j)) hmem, Finset.erase_eq]
  omega

/-- What is left of an entry. -/
def entryRank : Option (Context Value) → Nat
  | none => 0
  | some context => context.rank

/-- The events that the worker of an entry has yet to publish. -/
def entryUnpublished : Option (Context Value) → Nat
  | none => 0
  | some context => context.unpublished

/-- What is left of the first calls. -/
def callsRank (registry : Registry Value) (n : Nat) : Nat :=
  ∑ call ∈ Finset.range n, (registry.calls call).rank

/-- What is left of the contexts that were ever numbered. -/
def entriesRank (registry : Registry Value) : Nat :=
  ∑ id ∈ Finset.range registry.nextContext, entryRank (registry.entries id)

/-- The events that the workers of a registry have yet to publish. -/
def unpublished (registry : Registry Value) : Nat :=
  ∑ id ∈ Finset.range registry.nextContext, entryUnpublished (registry.entries id)

/-- What is left of the transport, with the updates that are not published. -/
def measure (registry : Registry Value) (n : Nat) : ℕ ×ₗ ℕ :=
  toLex (registry.callsRank n + registry.entriesRank, registry.unpublished)

/-- Only the first calls have begun. -/
def Begun (registry : Registry Value) (n : Nat) : Prop :=
  ∀ call, n ≤ call → registry.calls call = .idle

theorem measure_lt (h : registry'.callsRank n + registry'.entriesRank <
    registry.callsRank n + registry.entriesRank) : registry'.measure n < registry.measure n :=
  Prod.Lex.toLex_lt_toLex.mpr (.inl h)

/-- A call moves on. -/
theorem callsRank_moved {next : Caller Value} (hbegun : registry.Begun n)
    (hbusy : registry.calls call ≠ .idle)
    (hcalls : registry'.calls = Function.update registry.calls call next) :
    registry'.callsRank n + (registry.calls call).rank = registry.callsRank n + next.rank := by
  rw [callsRank, hcalls]
  refine sum_update _ _ Caller.rank _ _ (Finset.mem_range.mpr ?_)
  by_contra hlate
  exact hbusy (hbegun call (Nat.le_of_not_lt hlate))

/-- An entry changes. -/
theorem entriesRank_stored {entry : Option (Context Value)}
    (hid : id < registry.nextContext) (hnext : registry'.nextContext = registry.nextContext)
    (hentries : registry'.entries = Function.update registry.entries id entry) :
    registry'.entriesRank + entryRank (registry.entries id) =
      registry.entriesRank + entryRank entry := by
  rw [entriesRank, hnext, hentries]
  exact sum_update _ _ entryRank _ _ (Finset.mem_range.mpr hid)

/-- A call that has begun stays one of the first calls. -/
theorem Begun.step (h : registry.Begun n) (hstep : RegistryStep text registry event registry')
    (hadvances : event.advances = true) : registry'.Begun n := by
  intro other hlate
  have hidle := h other hlate
  cases hstep with
  | begin => cases hadvances
  | _ =>
      simp only [move_calls, store_calls]
      grind

/-- Every step that advances leaves less. -/
theorem Linked.measure_lt (hlinked : registry.Linked) (hbegun : registry.Begun n)
    (hstep : RegistryStep text registry event registry') (hadvances : event.advances = true) :
    registry'.measure n < registry.measure n := by
  have hmoved {call : Nat} {next : Caller Value} (hbusy : registry.calls call ≠ .idle)
      (hcalls : registry'.calls = Function.update registry.calls call next)
      (hentries : registry'.entriesRank = registry.entriesRank)
      (hrank : next.rank < (registry.calls call).rank) :
      registry'.measure n < registry.measure n := by
    have hcallsRank := callsRank_moved hbegun hbusy hcalls
    exact Registry.measure_lt (by omega)
  have hboth {call id : Nat} {next : Caller Value} {entry : Option (Context Value)}
      (hid : id < registry.nextContext) (hbusy : registry.calls call ≠ .idle)
      (hcalls : registry'.calls = Function.update registry.calls call next)
      (hentries : registry'.entries = Function.update registry.entries id entry)
      (hnext : registry'.nextContext = registry.nextContext)
      (hrank : next.rank + entryRank entry <
        (registry.calls call).rank + entryRank (registry.entries id)) :
      registry'.measure n < registry.measure n := by
    have hcallsRank := callsRank_moved hbegun hbusy hcalls
    have hentriesRank := entriesRank_stored hid hnext hentries
    exact Registry.measure_lt (by omega)
  have hstored {id : Nat} {context context' : Context Value}
      (hentry : registry.entries id = some context) (hcalls : registry'.calls = registry.calls)
      (hentries : registry'.entries = Function.update registry.entries id (some context'))
      (hnext : registry'.nextContext = registry.nextContext)
        (hrank : context'.rank < context.rank) :
      registry'.measure n < registry.measure n := by
    have hid := hlinked.numbered id (by simp [hentry])
    have hentriesRank := entriesRank_stored hid hnext hentries
    rw [hentry, entryRank, entryRank] at hentriesRank
    have hcallsRank : registry'.callsRank n = registry.callsRank n := by
      rw [callsRank, callsRank, hcalls]
    exact Registry.measure_lt (by omega)
  cases hstep with
  | begin => cases hadvances
  -- Nothing was spawned for the handle that is drawn.
  | @number call next live hcall hnext =>
      obtain rfl : next = registry.nextContext + 1 := by
        rw [checkedAdd] at hnext
        split at hnext
        · exact (Option.some.inj hnext).symm
        · cases hnext
      refine hmoved (by simp [hcall]) rfl ?_ (by simp [Caller.rank, hcall])
      have hnone : registry.entries registry.nextContext = none :=
        hlinked.entries_unspawned (.inl (Nat.le_refl _))
      calc
        _ = registry.entriesRank + entryRank (registry.entries registry.nextContext) :=
          Finset.sum_range_succ ..
        _ = registry.entriesRank := by rw [hnone, entryRank, Nat.add_zero]
  | spawn hcall =>
      refine hboth (hlinked.drawn _ _ _ hcall).1 (by simp [hcall]) rfl rfl rfl ?_
      rw [hcall, (hlinked.drawn _ _ _ hcall).2]
      simp [entryRank, Caller.rank, Context.rank, Context.joinRank, Context.queueRank,
        Context.guardRank, Worker.rank, Stage.rank]
  | tryLock hcall hentry hguard =>
      refine hboth (hlinked.numbered _ (by simp [hentry])) (by simp [hcall]) rfl rfl rfl ?_
      simp only [hcall, hentry, entryRank, Caller.rank, Context.rank, Context.guardRank,
        Context.reach, hguard, Stage.rank]
      omega
  | @lock call id context hcall hentry hguard =>
      refine hboth (hlinked.numbered _ (by simp [hentry])) (by simp [hcall]) rfl rfl rfl ?_
      cases hjoined : context.joined <;>
        simp [hcall, hentry, hjoined, entryRank, Caller.rank, Context.rank, Context.guardRank,
          Context.joinRank, Context.reach, hguard, Stage.rank] <;> omega
  | guard hcall hentry hguarded => exact hstored hentry rfl rfl rfl hguarded.rank
  | allocate hcall hentry hguard hjob =>
      refine hstored hentry rfl rfl rfl ?_
      simp [Context.rank, Context.guardRank, Context.reach, hguard, Stage.rank]
  | allocateFails hcall hentry hguard hjob =>
      refine hstored hentry rfl rfl rfl ?_
      simp [Context.rank, Context.guardRank, Context.reach, hguard, Stage.rank]
  | register hcall hentry hguard =>
      refine hboth (hlinked.numbered _ (by simp [hentry])) (by simp [hcall]) rfl rfl rfl ?_
      simp only [hcall, hentry, entryRank, Caller.rank, Context.rank, Context.guardRank, hguard,
        Stage.rank]
      omega
  | release hcall hentry hguard =>
      refine hboth (hlinked.numbered _ (by simp [hentry])) (by simp [hcall]) rfl rfl rfl ?_
      simp only [hcall, hentry, entryRank, Caller.rank, Context.rank, Context.guardRank, hguard,
        Stage.rank]
      omega
  | unwind hcall hentry hguard =>
      refine hboth (hlinked.numbered _ (by simp [hentry])) (by simp [hcall]) rfl rfl rfl ?_
      simp only [hcall, hentry, entryRank, Caller.rank, Context.rank, Context.guardRank, hguard,
        Stage.rank]
      omega
  | free hcall hlast hentry hjoined =>
      refine hboth (hlinked.numbered _ (by simp [hentry])) (by simp [hcall]) rfl rfl rfl ?_
      simp only [hcall, hentry, entryRank, Caller.rank]
      omega
  | shutdown hcall hlast hentry hjoined =>
      have hguard := hlinked.unguarded hcall hlast hentry
      refine hboth (hlinked.numbered _ (by simp [hentry])) (by simp [hcall]) rfl rfl rfl ?_
      simp only [hcall, hentry, entryRank, Caller.rank, Context.rank, Context.guardRank,
        Context.joinRank, Context.reach, hguard, hjoined, Stage.rank]
      omega
  | @work id context context' event hentry hworked =>
      rcases hworked.rank hadvances with hrank | ⟨hrank, hless⟩
      · exact hstored hentry rfl rfl rfl hrank
      · have hid := hlinked.numbered id (by simp [hentry])
        have hentriesRank : (registry.store id (some context')).entriesRank + _ = _ + _ :=
          entriesRank_stored hid rfl rfl
        have hunpublished : (registry.store id (some context')).unpublished +
            entryUnpublished (registry.entries id) =
              registry.unpublished + entryUnpublished (some context') :=
          sum_update _ _ entryUnpublished _ _ (Finset.mem_range.mpr hid)
        rw [hentry, entryRank, entryRank, hrank] at hentriesRank
        rw [hentry, entryUnpublished, entryUnpublished] at hunpublished
        refine Prod.Lex.toLex_lt_toLex.mpr (.inr ⟨?_, by omega⟩)
        rw [Nat.add_right_cancel hentriesRank]
        rfl
  | _ => exact hmoved (by simp [*]) rfl rfl (by simp [Caller.rank, *])

/-- Only finitely many calls have begun. -/
theorem begun {trace : List (RegistryEvent Value)} (hrun : (transport text).Run trace registry) :
    ∃ n, registry.Begun n := by
  refine hrun.invariant (I := fun registry => ∃ n, registry.Begun n) ?_ ?_
  · rintro _ rfl
    exact ⟨0, fun _ _ => rfl⟩
  · rintro s event s' ⟨n, hbegun⟩ hstep
    cases hadvances : event.advances with
    | true => exact ⟨n, hbegun.step hstep hadvances⟩
    | false =>
        cases hstep with
        | @begin call invocation hcall =>
            refine ⟨max n (call + 1), fun other hlate => ?_⟩
            have hother : other ≠ call := by omega
            rw [move_calls, if_neg hother]
            exact hbegun other (le_trans (le_max_left ..) hlate)
        | guard => exact ⟨n, hbegun⟩
        | work => exact ⟨n, hbegun⟩
        | _ => cases hadvances

theorem linked_advanced {last : Registry Value} (h : registry.Linked)
    (hpath : Relation.ReflTransGen (Registry.Advances text) registry last) : last.Linked := by
  induction hpath with
  | refl => exact h
  | tail _ hstep ih =>
      obtain ⟨event, hstep, -⟩ := hstep
      exact ih.step hstep

/-- **Every call returns.**  Without new calls the transport comes to rest after finitely many steps
and updates of mailboxes, whatever the interleaving.  At rest every call that has begun has
returned, every context that exists is listed and unguarded, and its worker waits for a message or
has exited. -/
theorem calls_return {trace : List (RegistryEvent Value)}
    (hrun : (transport text).Run trace registry) :
    Acc (fun next registry => registry.Advances text next) registry ∧
      ∀ last, Relation.ReflTransGen (Registry.Advances text) registry last →
        (∀ next, ¬last.Advances text next) →
        (∀ call, last.calls call = .idle ∨ ∃ outcome, last.calls call = .returned outcome) ∧
        ∀ id context, last.entries id = some context →
          id ∈ last.contexts ∧ context.guard = none ∧ context.Waits := by
  refine ⟨?_, ?_⟩
  · obtain ⟨n, hbegun⟩ := begun hrun
    refine Machine.acc_of_decreases (I := fun registry => registry.Linked ∧ registry.Begun n)
      (fun registry => registry.measure n) ?_ ⟨linked hrun, hbegun⟩
    rintro s s' ⟨hlinked, hbegun⟩ ⟨event, hstep, hadvances⟩
    exact ⟨⟨hlinked.step hstep, hbegun.step hstep hadvances⟩,
      hlinked.measure_lt hbegun hstep hadvances⟩
  · intro last hpath hrest
    have hlinked := linked_advanced (linked hrun) hpath
    have hcalls (call : Nat) : last.calls call = .idle ∨
        ∃ outcome, last.calls call = .returned outcome := by
      by_contra hbusy
      rw [not_or, not_exists] at hbusy
      obtain ⟨next, hnext⟩ := hlinked.advances text hbusy.1 hbusy.2
      exact hrest next hnext
    refine ⟨hcalls, fun id context hentry => ⟨?_, ?_, ?_⟩⟩
    · rcases hlinked.owned id (by simp [hentry]) with hlisted | ⟨call, hrefers⟩
      · exact hlisted
      · rcases hcalls call with hcall | ⟨outcome, hcall⟩
        · simp [hcall, Caller.refers] at hrefers
        · simp [hcall, Caller.refers] at hrefers
    · cases hguard : context.guard with
      | none => rfl
      | some held =>
          obtain ⟨next, hnext⟩ := hlinked.advances_inside text hentry hguard
          exact absurd hnext (hrest next)
    · by_contra hmoves
      obtain ⟨next, hnext⟩ := advances_work text hentry hmoves
      exact hrest next hnext

/-- While a job is executed the transport goes on, and comes to rest. -/
theorem calls_return_busy : ∃ registry, (transport sampleTransport).Run busyTrace registry ∧
    (∃ next, registry.Advances sampleTransport next) ∧
    Acc (fun next registry => registry.Advances sampleTransport next) registry := by
  obtain ⟨registry, hrun, hworks⟩ := busy_run
  have hexecutes := RegistryStep.work hworks.entry (.conclude rfl executed_runs)
  exact ⟨registry, hrun, ⟨_, _, hexecutes, rfl⟩, (calls_return hrun).1⟩

end Registry

end DisksGraph
