import DisksGraph.Engine.Events
import DisksGraph.Engine.Schedule
import DisksGraph.Facade.Runs

/-!
# Facade — Mailbox

The passive mailbox through which a remote client follows a background run
(`disksgraph-ffi/src/jobs.rs`).

* `Job`: the last published snapshot and page, behind a lock that a panic poisons.  `poll` writes
  its JSON under the lock, and `json!` panics on a snapshot that has none.
* `Answers`: a poll says of a cursor what the run says of it.
* `Mailbox`: the mailboxes that any order of updates, polls and returns produces.
* `mailbox_follows_run`: polls agree with the run as long as the snapshots can be written.
-/

namespace DisksGraph

open Support (Returns)

/-- Transport errors of a mailbox. -/
inductive JobError where
  | resourceLimit
  | invalidEventCursor
  | stopped
deriving DecidableEq, Repr

/-- One mailbox, shared with the worker as passive evidence.  `Value` is the JSON of an error. -/
structure Job (Value : Type) where
  id : Nat
  poisoned : Bool := false
  snapshot : Option RunSnapshot := none
  events : EventsPage := ⟨[], 0, false⟩
  finished : Bool := false
  error : Option Value := none

/-- What one poll writes. -/
structure JobReply (Value : Type) where
  job : Nat
  finished : Bool
  snapshot : Option RunSnapshot
  events : EventsPage
  error : Option Value

namespace Job

variable {Value : Type}

/-- Allocates a mailbox under the next identity, and the identity after it. -/
def new (nextJob : Nat) : Except JobError (Job Value × Nat) :=
  match checkedAdd nextJob 1 with
  | none => .error .resourceLimit
  | some after => .ok ({ id := nextJob }, after)

/-- Publishes a whole coherent replacement; a poisoned mailbox remains inaccessible. -/
def update (job : Job Value) (snapshot : RunSnapshot) (events : EventsPage) : Job Value :=
  if job.poisoned then job else { job with snapshot := some snapshot, events }

/-- Marks the owner's return. -/
def finish (job : Job Value) (error : Option Value) : Job Value :=
  if job.poisoned then job else { job with error, finished := true }

/-- The `json!` of a poll: it panics when a path of the snapshot has no JSON form. -/
def write (job : Job Value) (page : EventsPage) : Returns JobError (JobReply Value) :=
  if job.snapshot.all (·.isUtf8) then
    pure ⟨job.id, job.finished, job.snapshot, page.redacted, job.error⟩
  else Returns.never

/-- The body of a poll, under the lock. -/
def reply (job : Job Value) (since : Nat) : Returns JobError (JobReply Value) :=
  if since > job.events.nextSequence then throw .invalidEventCursor
  else
    let events := job.events.events.filter fun event => event.sequence > since
    match job.events.events.head? with
    | none => job.write ⟨events, job.events.nextSequence, false⟩
    | some first =>
        match checkedSub first.sequence 1 with
        | none => Returns.never
        | some before => job.write ⟨events, job.events.nextSequence, since < before⟩

/-- Returns bounded exclusive replay with exact future-cursor rejection and eviction-gap semantics.
A panic leaves the lock poisoned. -/
def poll (job : Job Value) (since : Nat) : Returns JobError (JobReply Value) × Job Value :=
  if job.poisoned then (throw .stopped, job)
  else match job.reply since with
    | none => (Returns.never, { job with poisoned := true })
    | some result => (Returns.lift result, job)

end Job

/-- What a poll says against what the run says: the page as it is written, or a rejection. -/
def Answers {Value : Type} (result : Returns JobError (JobReply Value)) :
    Returns ExecutionRunError EventsPage → Prop
  | some (.ok page) => ∃ reply, result = pure reply ∧ reply.events = page.redacted
  | some (.error _) => result = throw .invalidEventCursor
  | none => result = Returns.never

/-- The mailbox answers every cursor as the run does. -/
def Job.Follows {Value : Type} (job : Job Value) (run : ExecutionRun) : Prop :=
  ∀ since, Answers (job.poll since).1 (run.eventsPage since)

/-- The two updates of `apply_plan_with_updates`: from the executing run, or from its record. -/
inductive Updates (run : ExecutionRun) : RunSnapshot → EventsPage → Prop where
  | live {snapshot : RunSnapshot} {page : EventsPage}
      (h : run.liveUpdate = some (snapshot, page)) : Updates run snapshot page
  | final {record : RunRecord} {snapshot : RunSnapshot} {page : EventsPage}
      (hrun : record.run = run) (h : record.finalUpdate = pure (snapshot, page)) :
      Updates run snapshot page

/-- A mailbox in use: the run of its last update, and every snapshot that was published. -/
inductive Mailbox {Value : Type} (keys : ContractKeys) :
    Job Value → Option ExecutionRun → List RunSnapshot → Prop where
  | new {nextJob after : Nat} {job : Job Value} (h : Job.new nextJob = .ok (job, after)) :
      Mailbox keys job none []
  | update {job : Job Value} {source : Option ExecutionRun} {shown : List RunSnapshot}
      {run : ExecutionRun} {snapshot : RunSnapshot} {page : EventsPage}
      (h : Mailbox keys job source shown) (hrun : Reachable keys run)
      (hupdate : Updates run snapshot page) :
      Mailbox keys (job.update snapshot page) (some run) (snapshot :: shown)
  | finish {job : Job Value} {source : Option ExecutionRun} {shown : List RunSnapshot}
      (h : Mailbox keys job source shown) (error : Option Value) :
      Mailbox keys (job.finish error) source shown
  | poll {job : Job Value} {source : Option ExecutionRun} {shown : List RunSnapshot}
      (h : Mailbox keys job source shown) (since : Nat) :
      Mailbox keys (job.poll since).2 source shown

/-! ### Copies of the log -/

/-- A page that copies the whole log of a run. -/
structure Copies (page : EventsPage) (run : ExecutionRun) : Prop where
  events : page.events = run.events
  next : run.nextEventSequence = page.nextSequence + 1

section Copies

variable {keys : ContractKeys} {run : ExecutionRun} {snapshot : RunSnapshot} {page : EventsPage}

/-- Numbers start at one, so the first cursor asks for everything that is retained. -/
theorem Reachable.eventsSince_zero (h : Reachable keys run) : run.eventsSince 0 = run.events := by
  obtain ⟨history, ⟨hretains, hnumbered, -⟩, -⟩ := h.logged
  rw [ExecutionRun.eventsSince, hretains, hnumbered.filter_drop, Nat.max_zero]

theorem Reachable.latest (h : Reachable keys run) :
    checkedSub run.nextEventSequence 1 = some (run.nextEventSequence - 1) := by
  have hpos := h.wellFormed.positive
  rw [checkedSub, if_pos (by omega)]

theorem Updates.copies (h : Reachable keys run) (hupdate : Updates run snapshot page) :
    Copies page run := by
  have hpos := h.wellFormed.positive
  cases hupdate with
  | live hlive =>
      rw [ExecutionRun.liveUpdate, ExecutionRun.snapshot, h.latest] at hlive
      obtain ⟨-, rfl⟩ := Prod.mk.inj (Option.some.inj hlive)
      refine ⟨h.eventsSince_zero, ?_⟩
      change run.nextEventSequence = run.nextEventSequence - 1 + 1
      omega
  | final hrun hfinal =>
      subst hrun
      obtain ⟨snapshot', -, hfinal⟩ := Returns.bind_eq_pure.mp hfinal
      obtain ⟨page', hpage, hfinal⟩ := Returns.bind_eq_pure.mp hfinal
      obtain ⟨-, rfl⟩ := Prod.mk.inj (Returns.pure_inj.mp hfinal)
      have hevents := Returns.mapError_eq_pure.mp hpage
      obtain ⟨history, hlog, -⟩ := h.logged
      rw [hlog.eventsPage_ok (Nat.zero_le _)] at hevents
      obtain rfl := Returns.pure_inj.mp hevents
      exact ⟨h.eventsSince_zero, hlog.next⟩

/-- A mailbox that was never updated has the log of a run without events. -/
theorem Reachable.copies_blank (h : Reachable keys run) (hevents : run.events = []) :
    Copies ⟨[], 0, false⟩ run := by
  obtain ⟨history, hlog, -⟩ := h.logged
  have hempty : [] = history.drop (history.length - MAX_RUN_EVENTS) := hevents ▸ hlog.retains
  rw [eq_comm, List.drop_eq_nil_iff] at hempty
  have hpos : 0 < MAX_RUN_EVENTS := by decide
  refine ⟨hevents.symm, ?_⟩
  rw [hlog.next]
  change history.length + 1 = 0 + 1
  omega

end Copies

/-! ### Polls -/

section Polls

variable {Value : Type} {job : Job Value} {run : ExecutionRun}

/-- Over a copy of the log, the body of a poll is `events_page` and the JSON of its page. -/
theorem Job.reply_eq (h : Copies job.events run) (since : Nat) :
    job.reply since = match run.eventsPage since with
      | some (.ok page) => job.write page
      | some (.error _) => throw .invalidEventCursor
      | none => Returns.never := by
  have hlatest : checkedSub run.nextEventSequence 1 = some job.events.nextSequence := by
    rw [h.next]
    simp [checkedSub]
  rw [Job.reply, ExecutionRun.eventsPage, hlatest, h.events]
  by_cases hsince : since > job.events.nextSequence
  · simp only [if_pos hsince]
    rfl
  · simp only [if_neg hsince]
    cases run.events.head? with
    | none => rfl
    | some first =>
        cases hfirst : checkedSub first.sequence 1 with
        | none =>
            simp only [hfirst]
            rfl
        | some before =>
            simp only [hfirst]
            rfl

theorem Job.poll_fst (hjob : job.poisoned = false) (since : Nat) :
    (job.poll since).1 = job.reply since := by
  rw [Job.poll, hjob]
  cases h : job.reply since with
  | none => rfl
  | some result => rfl

/-- Polls of a mailbox over a copy of the log agree with the run exactly when its snapshot can be
written: cursor zero is always asked for a page. -/
theorem Job.follows_iff {keys : ContractKeys} (hrun : Reachable keys run)
    (h : Copies job.events run) (hjob : job.poisoned = false) :
    job.Follows run ↔ job.snapshot.all (·.isUtf8) = true := by
  obtain ⟨history, hlog, -⟩ := hrun.logged
  constructor
  · intro hfollows
    have hzero := hfollows 0
    rw [Job.poll_fst hjob, Job.reply_eq h, hlog.eventsPage_ok (Nat.zero_le _)] at hzero
    obtain ⟨reply, hreply, -⟩ := hzero
    by_contra hsnapshot
    change job.write _ = _ at hreply
    rw [Job.write, if_neg hsnapshot] at hreply
    exact Returns.never_ne_pure hreply
  · intro hsnapshot since
    rw [Job.poll_fst hjob, Job.reply_eq h]
    cases run.eventsPage since with
    | none => rfl
    | some result =>
        cases result with
        | error error => rfl
        | ok page =>
            refine ⟨_, if_pos hsnapshot, rfl⟩

end Polls

/-! ### Mailboxes -/

section Mailboxes

variable {Value : Type} {keys : ContractKeys} {job : Job Value} {source : Option ExecutionRun}
  {shown : List RunSnapshot} {run : ExecutionRun} {snapshot : RunSnapshot} {page : EventsPage}

/-- An update of a job that did not panic. -/
theorem Job.update_eq (hjob : job.poisoned = false) :
    job.update snapshot page = { job with snapshot := some snapshot, events := page } := by
  rw [Job.update, hjob]
  rfl

/-- The end of a job that did not panic. -/
theorem Job.finish_eq {error : Option Value} (hjob : job.poisoned = false) :
    job.finish error = { job with error, finished := true } := by
  rw [Job.finish, hjob]
  rfl

/-- A body that returns leaves the mailbox as it was. -/
theorem Job.poll_snd {since : Nat} (h : job.reply since ≠ Returns.never) :
    (job.poll since).2 = job := by
  by_cases hjob : job.poisoned
  · rw [Job.poll, if_pos hjob]
  · rw [Job.poll, if_neg hjob]
    cases hreply : job.reply since with
    | none => exact absurd hreply h
    | some result => rfl

/-- A mailbox before its first update rejects every cursor but zero. -/
theorem Job.reply_blank {since : Nat} (hevents : job.events = ⟨[], 0, false⟩)
    (hsnapshot : job.snapshot.all (·.isUtf8) = true) : job.reply since ≠ Returns.never := by
  rw [Job.reply, hevents]
  by_cases hsince : since > 0
  · simp only [if_pos hsince]
    exact nofun
  · simp only [if_neg hsince, Job.write, if_pos hsnapshot]
    exact nofun

/-- A reply to a copy of the run does not panic. -/
theorem Job.reply_copy {since : Nat} (hrun : Reachable keys run) (h : Copies job.events run)
    (hsnapshot : job.snapshot.all (·.isUtf8) = true) : job.reply since ≠ Returns.never := by
  obtain ⟨history, hlog, -⟩ := hrun.logged
  rw [Job.reply_eq h]
  by_cases hsince : since ≤ history.length
  · rw [hlog.eventsPage_ok hsince]
    change job.write _ ≠ _
    rw [Job.write, if_pos hsnapshot]
    exact nofun
  · rw [hlog.eventsPage_error (Nat.not_le.mp hsince)]
    exact nofun

/-- A mailbox whose published snapshots can all be written. -/
structure Clean (keys : ContractKeys) (job : Job Value) (source : Option ExecutionRun) : Prop where
  healthy : job.poisoned = false
  written : job.snapshot.all (·.isUtf8) = true
  blank : source = none → job.events = ⟨[], 0, false⟩
  copy : ∀ run, source = some run → Reachable keys run ∧ Copies job.events run

theorem Clean.poll (h : Clean keys job source) (since : Nat) : (job.poll since).2 = job := by
  refine Job.poll_snd ?_
  cases hsource : source with
  | none => exact Job.reply_blank (h.blank hsource) h.written
  | some run =>
      obtain ⟨hrun, hcopy⟩ := h.copy run hsource
      exact Job.reply_copy hrun hcopy h.written

/-- Induction on the use of the mailbox: every operation keeps it clean. -/
theorem Mailbox.clean (h : Mailbox keys job source shown)
    (hshown : ∀ snapshot ∈ shown, snapshot.isUtf8 = true) : Clean keys job source := by
  induction h with
  | @new nextJob after job h =>
      rw [Job.new] at h
      cases hnext : checkedAdd nextJob 1 with
      | none => simp [hnext] at h
      | some next =>
          simp only [hnext, Except.ok.injEq, Prod.mk.injEq] at h
          obtain ⟨rfl, -⟩ := h
          refine ⟨rfl, rfl, fun _ => rfl, fun run hsource => ?_⟩
          exact absurd hsource (Option.some_ne_none run).symm
  | @update job source shown run snapshot page h hrun hupdate ih =>
      obtain ⟨hsnapshot, hrest⟩ := List.forall_mem_cons.mp hshown
      rw [Job.update_eq (ih hrest).healthy]
      refine ⟨(ih hrest).healthy, hsnapshot, fun hnone => absurd hnone (Option.some_ne_none run), ?_⟩
      intro run' hsource
      obtain rfl := Option.some.inj hsource
      exact ⟨hrun, hupdate.copies hrun⟩
  | @finish job source shown h error ih =>
      have hclean := ih hshown
      rw [Job.finish_eq hclean.healthy]
      exact ⟨hclean.healthy, hclean.written, hclean.blank, hclean.copy⟩
  | poll h since ih =>
      rw [(ih hshown).poll since]
      exact ih hshown

theorem Mailbox.shown_nil (h : Mailbox keys job none shown) : shown = [] := by
  generalize hsource : (none : Option ExecutionRun) = source at h
  induction h with
  | new => rfl
  | update => cases hsource
  | finish _ _ ih => exact ih hsource
  | poll _ _ ih => exact ih hsource

/-- After an update the mailbox follows the run exactly when no panic has poisoned it and the
snapshot can be written. -/
theorem Job.follows_update (hrun : Reachable keys run) (hupdate : Updates run snapshot page)
    (job : Job Value) :
    (job.update snapshot page).Follows run ↔
      job.poisoned = false ∧ snapshot.isUtf8 = true := by
  by_cases hjob : job.poisoned
  · simp only [hjob, Bool.true_eq_false, false_and, iff_false]
    intro hfollows
    obtain ⟨history, hlog, -⟩ := hrun.logged
    have hzero := hfollows 0
    rw [hlog.eventsPage_ok (Nat.zero_le _), Job.update, if_pos hjob, Job.poll, if_pos hjob] at hzero
    obtain ⟨reply, hreply, -⟩ := hzero
    exact Returns.throw_ne_pure hreply
  · rw [Bool.not_eq_true] at hjob
    have hcopy : Copies (job.update snapshot page).events run := by
      rw [Job.update_eq hjob]
      exact hupdate.copies hrun
    have hhealthy : (job.update snapshot page).poisoned = false := by rw [Job.update_eq hjob, hjob]
    rw [Job.follows_iff hrun hcopy hhealthy, Job.update_eq hjob]
    simp [hjob]

end Mailboxes

/-- **A mailbox follows its run while its snapshots can be written.**  After an update from a
reachable run, live or final, polls answer every cursor as `events_page` does exactly when no panic
has poisoned the mailbox and every path of the snapshot is UTF-8.  So in any use of a mailbox whose
published snapshots are UTF-8, however updates, polls and returns follow each other, polls answer as
the run of the last update does; and before any update they answer as a run without events does. -/
theorem mailbox_follows_run {Value : Type} {keys : ContractKeys} {job : Job Value}
    {source : Option ExecutionRun} {shown : List RunSnapshot} (h : Mailbox keys job source shown) :
    (∀ run snapshot page, Reachable keys run → Updates run snapshot page →
      ((job.update snapshot page).Follows run ↔
        job.poisoned = false ∧ snapshot.isUtf8 = true)) ∧
    ((∀ snapshot ∈ shown, snapshot.isUtf8 = true) →
      job.poisoned = false ∧ ∀ run, source = some run → job.Follows run) ∧
    (source = none → ∀ run, Reachable keys run → run.events = [] → job.Follows run) := by
  refine ⟨fun run snapshot page hrun hupdate => Job.follows_update hrun hupdate job, ?_, ?_⟩
  · intro hshown
    have hclean := h.clean hshown
    refine ⟨hclean.healthy, fun run hsource => ?_⟩
    obtain ⟨hrun, hcopy⟩ := hclean.copy run hsource
    exact (Job.follows_iff hrun hcopy hclean.healthy).mpr hclean.written
  · rintro rfl run hrun hevents
    have hclean := h.clean (by simp [h.shown_nil])
    refine (Job.follows_iff hrun ?_ hclean.healthy).mpr hclean.written
    rw [hclean.blank rfl]
    exact hrun.copies_blank hevents

/-! ### Two runs -/

/-- The job of the refused sample run, after one live update. -/
def sampleMailbox : Option (Job Unit) :=
  sampleRefused.liveUpdate.map fun update => Job.update { id := 1 } update.1 update.2

theorem sample_mailbox_follows :
    ∃ job, sampleMailbox = some job ∧ job.poisoned = false ∧ job.Follows sampleRefused := by
  have hfresh : Mailbox sampleKeys ({ id := 1 } : Job Unit) none [] :=
    .new (show Job.new 1 = .ok (({ id := 1 } : Job Unit), 2) from rfl)
  have hused := hfresh.update reachable_sampleRefused (.live rfl)
  obtain ⟨hhealthy, hfollows⟩ := (mailbox_follows_run hused).2.1 (by decide)
  exact ⟨_, rfl, hhealthy, hfollows sampleRefused rfl⟩

/-- A refusal of the mount whose observation has a file system mounted at a path that is not
UTF-8. -/
def latinRefusal : AdmissionReport :=
  { sampleRefusal with
    observation :=
      ⟨⟨9#128, 1⟩, { sampleState with
        mounts := [⟨.tmpfs, ⟨[.rootDir, .nonUtf8 ⟨[0xff], not_isValidUTF8_ff⟩]⟩, [], .host⟩] }⟩ }

/-- The sample run after that refusal. -/
def latinRun : ExecutionRun :=
  (callAll [.beginCheck ⟨0⟩, .recordAdmission latinRefusal] sampleRun).getD sampleRun

/-- The run has a first page, but the first poll of its mailbox panics, and every later one is
told that the mailbox stopped. -/
theorem latin_path_poisons_mailbox :
    Reachable sampleKeys latinRun ∧
      ∃ snapshot page, Updates latinRun snapshot page ∧
        (∃ events, latinRun.eventsPage 0 = pure events) ∧
        ((({ id := 1 } : Job Unit).update snapshot page).poll 0).1 = Returns.never ∧
        (((({ id := 1 } : Job Unit).update snapshot page).poll 0).2.poll 0).1 = throw .stopped ∧
        ¬ (({ id := 1 } : Job Unit).update snapshot page).Follows latinRun := by
  refine ⟨reachable_sampleRun.callAll [.beginCheck ⟨0⟩, .recordAdmission latinRefusal] rfl, _, _,
    .live rfl, ⟨_, rfl⟩, rfl, rfl, fun hfollows => ?_⟩
  obtain ⟨reply, hreply, -⟩ := hfollows 0
  exact absurd hreply nofun

end DisksGraph
