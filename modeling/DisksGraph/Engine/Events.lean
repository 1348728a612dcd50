import DisksGraph.Engine.Evidenced

/-!
# Engine — Events

The event log of a run, next to the full history of what was published.

* `published`: the events one call adds.  `Session` is a run, its history, and a client that polls
  it at any time with the last cursor it was given.
* `Logged`: the retained events are the last `MAX_RUN_EVENTS` of the history, the history is
  numbered from one, and the last state event of each action names its state.
* `event_log_faithful`: what follows for pages and for the client.
-/

namespace DisksGraph

open Support (Returns Retains Numbered)

/-- The events that were not there before. -/
def published (run run' : ExecutionRun) : List RunEvent :=
  run'.events.filter fun event => event.sequence ≥ run.nextEventSequence

/-- A client of the event pages. -/
structure Client where
  cursor : Nat := 0
  received : List RunEvent := []
  gap : Bool := false

/-- What the client knows after one page. -/
def Client.receive (client : Client) (page : EventsPage) : Client where
  cursor := page.nextSequence
  received := client.received ++ page.events
  gap := client.gap || page.gap

/-- Calls on a run and polls of its events, in any order. -/
inductive Session (keys : ContractKeys) : ExecutionRun → List RunEvent → Client → Prop where
  | new {runId : Uuid} {document : PlanDocument} {run : ExecutionRun}
      (h : ExecutionRun.new keys runId document = pure run) : Session keys run [] {}
  | call {run run' : ExecutionRun} {history : List RunEvent} {client : Client}
      (h : Session keys run history client) (hcall : Called run run') :
      Session keys run' (history ++ published run run') client
  | poll {run : ExecutionRun} {history : List RunEvent} {client : Client} {page : EventsPage}
      (h : Session keys run history client) (hpage : run.eventsPage client.cursor = pure page) :
      Session keys run history (client.receive page)

/-- The state that the last state event of an action names, `Waiting` if there is none. -/
def lastState (history : List RunEvent) (id : ActionId) : ActionRunState :=
  ((history.filterMap fun event => (event.kind.change.filter (·.1 = id)).map (·.2)).getLast?).getD
    .waiting

/-! ### Publishing -/

section Publish

variable {run : ExecutionRun} {history : List RunEvent}

/-- The retained events are the end of a numbered history that the counter has reached. -/
structure Numbering (run : ExecutionRun) (history : List RunEvent) : Prop where
  retains : Retains MAX_RUN_EVENTS run.events history
  numbered : Numbered RunEvent.sequence history
  next : run.nextEventSequence = history.length + 1

/-- The events that a list of kinds becomes. -/
def numberedEvents (run : ExecutionRun) : List RunEventKind → List RunEvent
  | [] => []
  | kind :: rest =>
      ⟨run.runId, run.nextEventSequence, kind⟩ :: numberedEvents (run.publish kind) rest

/-- A published event gets the next number. -/
theorem Numbering.publish (h : Numbering run history) (kind : RunEventKind) :
    Numbering (run.publish kind) (history ++ [⟨run.runId, run.nextEventSequence, kind⟩]) where
  retains := h.retains.push (by decide) _
  numbered := h.numbered.snoc h.next
  next := by simp [ExecutionRun.publish, h.next]

/-- Events published in turn get the next numbers. -/
theorem Numbering.publishAll (h : Numbering run history) (kinds : List RunEventKind) :
    Numbering (kinds.foldl ExecutionRun.publish run) (history ++ numberedEvents run kinds) := by
  induction kinds generalizing run history with
  | nil => simpa [numberedEvents] using h
  | cons kind rest ih => simpa [numberedEvents] using ih (h.publish kind)

theorem numberedEvents_kind : ∀ {kinds : List RunEventKind} {run : ExecutionRun},
    (numberedEvents run kinds).map (·.kind) = kinds
  | [], _ => rfl
  | kind :: rest, run => by
      rw [numberedEvents, List.map_cons, numberedEvents_kind]

/-- Publishing no more than the queue holds adds exactly the new events. -/
theorem published_eq {run' : ExecutionRun} {new : List RunEvent} (h : Numbering run history)
    (h' : Numbering run' (history ++ new)) (hroom : new.length ≤ MAX_RUN_EVENTS) :
    published run run' = new := by
  have hfilter : published run run' =
      run'.events.filter fun event => event.sequence > history.length := by
    rw [published, h.next]
    rfl
  rw [hfilter, h'.retains, h'.numbered.filter_drop, List.length_append,
    show max (history.length + new.length - MAX_RUN_EVENTS) history.length = history.length by omega,
    List.drop_left]

end Publish

/-! ### States -/

/-- The last state after more events is read off these, if they have one. -/
theorem lastState_append {history new : List RunEvent} {id : ActionId} :
    lastState (history ++ new) id =
      ((new.filterMap fun event => (event.kind.change.filter (·.1 = id)).map (·.2)).getLast?).getD
        (lastState history id) := by
  rw [lastState, lastState, List.filterMap_append, List.getLast?_append]
  cases (new.filterMap fun event =>
    (event.kind.change.filter (·.1 = id)).map (·.2)).getLast? <;> rfl

/-- Events that announce no state leave the last state of every action. -/
theorem lastState_quiet {history new : List RunEvent} {id : ActionId}
    (h : ∀ event ∈ new, event.kind.change = none) :
    lastState (history ++ new) id = lastState history id := by
  have hnil : (new.filterMap fun event =>
      (event.kind.change.filter (·.1 = id)).map (·.2)) = [] := by
    rw [List.filterMap_eq_nil_iff]
    intro event hevent
    rw [h event hevent]
    rfl
  rw [lastState_append, hnil]
  rfl

/-- A state change sets the last state of its action. -/
theorem lastState_change {history : List RunEvent} {event : RunEvent} {id other : ActionId}
    {state : ActionRunState} (h : event.kind = .actionState other state) :
    lastState (history ++ [event]) id = if id = other then state else lastState history id := by
  rw [lastState_append]
  by_cases hid : id = other
  · subst hid
    simp [h, RunEventKind.change]
  · simp [h, RunEventKind.change, hid, Ne.symm hid]

/-! ### The invariant -/

/-- The log of a run, against its history. -/
structure Logged (run : ExecutionRun) (history : List RunEvent) : Prop where
  numbering : Numbering run history
  states : ∀ id : ActionId, id.get < run.actions.length →
    run.stateAt id.get = some (lastState history id)

section Logged

variable {run run' : ExecutionRun} {history : List RunEvent}

/-- The history of a step: one numbered event for each kind it published. -/
theorem Numbering.published {kinds : List RunEventKind} (h : Numbering run history)
    (hkinds : run.Published run' kinds) (hlength : kinds.length ≤ 2) :
    ∃ new : List RunEvent, DisksGraph.published run run' = new ∧ new.map (·.kind) = kinds ∧
      Numbering run' (history ++ new) := by
  obtain ⟨hretains, hnumbered, hnext⟩ := h.publishAll kinds
  have hrun' : Numbering run' (history ++ numberedEvents run kinds) :=
    ⟨hkinds.events ▸ hretains, hnumbered, hkinds.sequence.trans hnext⟩
  refine ⟨numberedEvents run kinds, published_eq h hrun' ?_, numberedEvents_kind, hrun'⟩
  rw [← List.length_map, numberedEvents_kind]
  exact hlength.trans (by decide)

theorem Logged.step (h : Logged run history) (hstep : ExecutionRun.Step run run') :
    Logged run' (history ++ published run run') := by
  obtain ⟨-, -, -, hsize⟩ := hstep.frozen
  rcases hstep.states with ⟨id, old, new, hmoves⟩ | hquiet
  · obtain ⟨kinds, hlength, hchange, hpublished⟩ := hmoves.log
    obtain ⟨events, heq, hkinds, hrun'⟩ := h.numbering.published hpublished (by simpa using hlength)
    refine ⟨heq ▸ hrun', fun other hother => ?_⟩
    -- The last event announces the move; those before it announce none.
    obtain ⟨before, last, rfl, rfl, hlast⟩ := List.map_eq_append_iff.mp hkinds
    obtain ⟨event, rfl, hevent⟩ := List.map_eq_singleton_iff.mp hlast
    have hbefore : ∀ e ∈ before, e.kind.change = none := fun e he =>
      hchange _ (List.mem_map_of_mem he)
    rw [heq, ← List.append_assoc, lastState_change hevent, lastState_quiet hbefore, hmoves.states]
    by_cases hsame : other = id
    · subst hsame
      rw [if_pos rfl, if_pos rfl]
    · rw [if_neg fun hget => hsame (ActionId.ext hget), if_neg hsame]
      exact h.states other (hsize ▸ hother)
  · obtain ⟨kind, hchange, hpublished⟩ := hquiet.log
    obtain ⟨events, heq, hkinds, hrun'⟩ := h.numbering.published hpublished (by simp)
    refine ⟨heq ▸ hrun', fun other hother => ?_⟩
    have hevents : ∀ e ∈ events, e.kind.change = none := by
      intro e he
      have := List.mem_map_of_mem (f := RunEvent.kind) he
      rw [hkinds, List.mem_singleton] at this
      rw [this, hchange]
    rw [heq, lastState_quiet hevents, hquiet.states]
    exact h.states other (hsize ▸ hother)

/-- A call appends what it publishes to the history. -/
theorem Logged.called (hrun : run.WellFormed) (h : Logged run history) (hcall : Called run run') :
    Logged run' (history ++ published run run') := by
  rcases hcall.cases hrun with rfl | hstep
  · have hsame := h.numbering
    rw [← List.append_nil history] at hsame
    rw [published_eq h.numbering hsame (Nat.zero_le _), List.append_nil]
    exact h
  · exact h.step hstep

/-- A new run has published nothing. -/
theorem Logged.of_new {keys : ContractKeys} {runId : Uuid} {document : PlanDocument}
    (h : ExecutionRun.new keys runId document = pure run) : Logged run [] := by
  refine ⟨?_, fun id hlt => ?_⟩
  · obtain ⟨analysis, -, rfl⟩ := ExecutionRun.new_eq h
    exact ⟨.nil _, .nil _, rfl⟩
  · have hmem := List.getElem_mem hlt
    rw [ExecutionRun.stateAt, List.getElem?_eq_getElem hlt, Option.map_some,
      ExecutionRun.new_waiting h _ hmem]
    rfl

/-- Every reachable run has a history. -/
theorem Reachable.logged {keys : ContractKeys} (h : Reachable keys run) :
    ∃ history, Logged run history := by
  induction h with
  | new h => exact ⟨[], .of_new h⟩
  | call h hcall ih =>
      obtain ⟨history, hlogged⟩ := ih
      exact ⟨_, hlogged.called h.wellFormed hcall⟩

end Logged

/-! ### Pages -/

section Pages

variable {run : ExecutionRun} {history : List RunEvent} {since : Nat}

/-- A cursor past the end is refused. -/
theorem Numbering.eventsPage_error (h : Numbering run history) (hsince : history.length < since) :
    run.eventsPage since = throw (.invalidEventCursor since history.length) := by
  rw [ExecutionRun.eventsPage, checkedSub, h.next, if_pos (by omega)]
  simp [hsince]

/-- A page holds what is left from the cursor on, and says whether events were lost. -/
theorem Numbering.eventsPage_ok (h : Numbering run history) (hsince : since ≤ history.length) :
    run.eventsPage since = pure ⟨run.eventsSince since, history.length,
      decide (since < history.length - run.events.length)⟩ := by
  rw [ExecutionRun.eventsPage, checkedSub, h.next, if_pos (by omega)]
  simp only [Nat.add_sub_cancel, if_neg (Nat.not_lt.mpr hsince)]
  cases hevents : run.events with
  | nil =>
      -- An empty queue has an empty history, so nothing was evicted.
      have hempty : [] = history.drop (history.length - MAX_RUN_EVENTS) := hevents ▸ h.retains
      have hlength : history.length = 0 := by
        have hpos : 0 < MAX_RUN_EVENTS := by decide
        have hle := List.drop_eq_nil_iff.mp hempty.symm
        omega
      simp [hlength]
  | cons first rest =>
      have hmap := h.numbered.retained h.retains
      rw [hevents, List.map_cons, List.length_cons, List.range'_succ] at hmap
      have hfirst : first.sequence = history.length - (rest.length + 1) + 1 :=
        (List.cons.inj hmap).1
      simp [checkedSub, hfirst]

end Pages

/-! ### Sessions -/

section Sessions

variable {keys : ContractKeys} {run : ExecutionRun} {history : List RunEvent} {client : Client}

theorem Session.reachable (h : Session keys run history client) : Reachable keys run := by
  induction h with
  | new h => exact .new h
  | call _ hcall ih => exact .call ih hcall
  | poll _ _ ih => exact ih

theorem Session.logged (h : Session keys run history client) : Logged run history := by
  induction h with
  | new h => exact .of_new h
  | call h hcall ih => exact ih.called h.reachable.wellFormed hcall
  | poll _ _ ih => exact ih

/-- The client has seen everything up to its cursor, once and in order, unless a page had a gap. -/
structure Caught (history : List RunEvent) (client : Client) : Prop where
  cursor : client.cursor ≤ history.length
  received : client.gap = false → client.received = history.take client.cursor

/-- New events do not undo what a client has caught. -/
theorem Caught.append (h : Caught history client) (new : List RunEvent) :
    Caught (history ++ new) client where
  cursor := h.cursor.trans (by simp)
  received hgap := by rw [List.take_append_of_le_length h.cursor, h.received hgap]

/-- A page brings the client up to the end of the history. -/
theorem Caught.receive (h : Caught history client) (hlog : Numbering run history)
    {page : EventsPage} (hpage : run.eventsPage client.cursor = pure page) :
    Caught history (client.receive page) := by
  rw [hlog.eventsPage_ok h.cursor, Returns.pure_inj] at hpage
  subst hpage
  refine ⟨le_refl _, fun hgap => ?_⟩
  obtain ⟨hold, hnew⟩ := Bool.or_eq_false_iff.mp hgap
  rw [decide_eq_false_iff_not, hlog.retains, List.length_drop] at hnew
  have hevents : run.eventsSince client.cursor = history.drop client.cursor := by
    have hcursor := h.cursor
    rw [ExecutionRun.eventsSince, hlog.retains, hlog.numbered.filter_drop,
      Nat.max_eq_right (by omega)]
  change client.received ++ run.eventsSince client.cursor = history.take history.length
  rw [h.received hold, hevents, List.take_append_drop, List.take_length]

theorem Session.caught (h : Session keys run history client) : Caught history client := by
  induction h with
  | new => exact ⟨le_refl _, fun _ => rfl⟩
  | call _ _ ih => exact ih.append _
  | poll h hpage ih => exact ih.receive h.logged.numbering hpage

end Sessions

/-- **The event log is a faithful bounded suffix.**  The retained events are the contiguous end of
the history `1, 2, …, next - 1`, at most `MAX_RUN_EVENTS` of them.  A page is an error exactly for a
cursor beyond the last event; otherwise it has exactly the retained events after the cursor, and a
gap exactly when one of those events was evicted.  A client that polls with the cursor it was given
has received the history up to that cursor, unless a page reported a gap.  The last state event of
each action names its state. -/
theorem event_log_faithful {keys : ContractKeys} {run : ExecutionRun} {history : List RunEvent}
    {client : Client} (h : Session keys run history client) :
    (history.map (·.sequence) = List.range' 1 (run.nextEventSequence - 1) ∧
      run.events <:+ history ∧
      run.events.map (·.sequence) =
        List.range' (run.nextEventSequence - run.events.length) run.events.length ∧
      run.events.length ≤ MAX_RUN_EVENTS) ∧
    (∀ since, run.nextEventSequence - 1 < since →
      run.eventsPage since = throw (.invalidEventCursor since (run.nextEventSequence - 1))) ∧
    (∀ since, since ≤ run.nextEventSequence - 1 →
      ∃ page, run.eventsPage since = pure page ∧
        page.events = run.events.filter (fun event => event.sequence > since) ∧
        page.nextSequence = run.nextEventSequence - 1 ∧
        (page.gap = true ↔ ∃ event ∈ history, since < event.sequence ∧ event ∉ run.events)) ∧
    ((∃ page, run.eventsPage client.cursor = pure page) ∧
      (client.gap = false → client.received = history.take client.cursor)) ∧
    ∀ id : ActionId, id.get < run.actions.length →
      run.stateAt id.get = some (lastState history id) := by
  obtain ⟨hlog, hstates⟩ := h.logged
  have hlatest : run.nextEventSequence - 1 = history.length := by rw [hlog.next]; rfl
  have hle : run.events.length ≤ history.length := hlog.retains.suffix.length_le
  refine ⟨⟨?_, hlog.retains.suffix, ?_, hlog.retains.length_le⟩, ?_, ?_, ⟨?_, ?_⟩, hstates⟩
  · rw [hlatest]
    exact hlog.numbered
  · rw [hlog.numbered.retained hlog.retains, hlog.next]
    congr 1
    omega
  · intro since hsince
    rw [hlatest] at hsince ⊢
    exact hlog.eventsPage_error hsince
  · intro since hsince
    rw [hlatest] at hsince ⊢
    refine ⟨_, hlog.eventsPage_ok hsince, rfl, rfl, ?_⟩
    rw [decide_eq_true_iff, hlog.numbered.evicted hlog.retains]
  · exact ⟨_, hlog.eventsPage_ok h.caught.cursor⟩
  · exact h.caught.received

/-- The sample run during its first check, with a client that polled it. -/
def sampleChecking : ExecutionRun := (callAll [.beginCheck ⟨0⟩] sampleRun).getD sampleRun

/-- The event of action 0 entering its check. -/
def sampleChecked : RunEvent := ⟨7#128, 1, .actionState ⟨0⟩ .checking⟩

theorem session_sampleChecking :
    Session sampleKeys sampleChecking [sampleChecked] ⟨1, [sampleChecked], false⟩ :=
  have hnew : Session sampleKeys sampleRun [] {} :=
    .new (show ExecutionRun.new sampleKeys 7#128 sampleDocument = pure sampleRun from rfl)
  have hcall : Session sampleKeys sampleChecking [sampleChecked] {} :=
    hnew.call ⟨.beginCheck ⟨0⟩, _, rfl⟩
  hcall.poll (show sampleChecking.eventsPage 0 = pure ⟨[sampleChecked], 1, false⟩ from rfl)

theorem sample_client_caught_up :
    sampleChecking.stateAt 0 = some .checking ∧
      sampleChecking.stateAt 0 = some (lastState [sampleChecked] ⟨0⟩) :=
  ⟨rfl, (event_log_faithful session_sampleChecking).2.2.2.2 ⟨0⟩ (by decide)⟩

end DisksGraph
