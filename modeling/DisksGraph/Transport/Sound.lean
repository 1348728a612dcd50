import DisksGraph.Transport.Registry

/-!
# Transport — Sound

The invariant of one context.

* `Context.Pending`, `Context.Flight`: at most one message is pending, and it is what the holder of
  the guard waits for, a job whose mailbox is retained, or the stop of a shutdown.
* `Context.Says`: what the stage of the guard says about the worker and the mailbox.
* `Sound.guardStep`, `Sound.workerStep`: the steps keep it.
-/

namespace DisksGraph

/-- What a worker is occupied with. -/
inductive Task where
  | initializing
  | idle
  | answering (caller : Nat) (request : Request)
  | executing (job : Nat)
  | gone

/-- A worker that has left its loop is idle until it gives up the channel. -/
def Worker.task {Value : Type} : Worker Value → Task
  | .initializing => .initializing
  | .receiving _ | .leaving => .idle
  | .answering _ caller request => .answering caller request
  | .applying _ _ job | .concluding _ job _ _ => .executing job
  | .ending | .exited => .gone

theorem Worker.task_eq_gone {Value : Type} {worker : Worker Value} :
    worker.task = .gone ↔ worker.receives = false := by
  cases worker <;> simp [task, receives]

namespace Context

variable {Value : Type}

/-- The retained mailbox belongs to a job that has not ended. -/
def Retains (context : Context Value) (job : Nat) : Prop :=
  ∃ mailbox, context.job = some mailbox ∧ mailbox.id = job ∧ mailbox.finished = false

/-- A shutdown waits for the worker. -/
def Joins (context : Context Value) : Prop :=
  ∃ call outcome, context.guard = some (call, .joining outcome)

/-- What the pending message is for. -/
inductive Pending (context : Context Value) : Prop where
  | nothing (hqueue : context.queue = [])
  | call {caller : Nat} {request : Request} (hqueue : context.queue = [.call caller request])
      (hguard : context.guard = some (caller, .waiting none))
  | apply {plan : PlanId} {job : Nat} (hqueue : context.queue = [.apply plan job])
      (hretains : context.Retains job)
  | stop (hqueue : context.queue = [.stop]) (hjoins : context.Joins)

/-- What is in flight between the calls and the worker. -/
inductive Flight (context : Context Value) : Prop where
  | initializing {call : Nat} (htask : context.worker.task = .initializing)
      (hqueue : context.queue = []) (hguard : context.guard = some (call, .awaiting))
  | idle (htask : context.worker.task = .idle) (hpending : context.Pending)
  | answering {caller : Nat} {request : Request}
      (htask : context.worker.task = .answering caller request) (hqueue : context.queue = [])
      (hguard : context.guard = some (caller, .waiting none))
  | executing {job : Nat} (htask : context.worker.task = .executing job)
      (hretains : context.Retains job)
      (hqueue : context.queue = [] ∨ context.queue = [.stop] ∧ context.Joins)
  | gone (htask : context.worker.task = .gone) (hqueue : context.queue = [])

/-- Nothing has used the context yet. -/
def Fresh (context : Context Value) : Prop :=
  context.job = none ∧ context.joined = false ∧ context.queue = []

/-- What the stage of the guard says. -/
def Says (context : Context Value) (call : Nat) : Stage Value → Prop
  | .awaiting => context.Fresh ∧
      (context.worker = .initializing ∧ context.ready = none ∨
        (∃ protocol, context.worker = .receiving protocol) ∧ context.ready = some (.ok ()) ∨
        context.worker.receives = false ∧ context.ready ≠ some (.ok ()))
  | .registering => context.Fresh ∧ ∃ protocol, context.worker = .receiving protocol
  | .allocating _ => context.job = none ∧ context.joined = false
  | .starting _ job => context.job = none ∧ context.joined = false ∧ job.finished = false
  | .forwarding _ => (∀ job, ¬context.Retains job) ∧ context.joined = false
  | .waiting none =>
      context.joined = false ∧ (context.Answers call ∨ context.worker.receives = false)
  | .waiting (some _) => context.joined = false
  | .stopping _ => context.joined = true
  | .joining _ => context.joined = true ∧
      (context.queue = [.stop] ∨ context.worker = .leaving ∨ context.worker.receives = false)
  | .entered _ | .leaving _ | .unwinding => True

/-- A worker that was taken is being joined, or it has been. -/
def Joined (context : Context Value) : Prop :=
  context.joined = true → context.worker = .exited ∨
    ∃ call outcome, context.guard = some (call, .stopping outcome) ∨
      context.guard = some (call, .joining outcome)

/-- The invariant of a context. -/
structure Sound (context : Context Value) : Prop where
  flight : context.Flight
  stage : ∀ call stage, context.guard = some (call, stage) → context.Says call stage
  joined : context.Joined

/-! ### Away from the guard -/

section Apart

variable {context context' : Context Value} {call job : Nat} {stage : Stage Value}

/-- The worker and the queue, where nothing is there for the guard. -/
inductive Apart (context : Context Value) : Prop where
  | idle (htask : context.worker.task = .idle)
      (hqueue : context.queue = [] ∨ ∃ plan job, context.queue = [.apply plan job] ∧
        context.Retains job)
  | executing {job : Nat} (htask : context.worker.task = .executing job)
      (hretains : context.Retains job) (hqueue : context.queue = [])
  | gone (htask : context.worker.task = .gone) (hqueue : context.queue = [])

/-- The guard is there for an unfinished opening, an answer, or a shutdown. -/
def Bears (context : Context Value) : Prop :=
  (context.worker.task = .initializing ∧ ∃ call, context.guard = some (call, .awaiting)) ∨
    (∃ call, context.guard = some (call, .waiting none) ∧ context.Answers call) ∨
    (context.Joins ∧ context.worker.task ≠ .gone)

theorem answers_of_task {request : Request}
    (h : context.worker.task = .answering call request) : context.Answers call := by
  cases hworker : context.worker with
  | answering protocol caller found =>
      rw [hworker] at h
      cases h
      exact .inr ⟨protocol, request, hworker⟩
  | _ => simp [hworker, Worker.task] at h

theorem Flight.apart (h : context.Flight) (hfree : ¬context.Bears) : context.Apart := by
  cases h with
  | initializing htask hqueue hguard => exact absurd (.inl ⟨htask, _, hguard⟩) hfree
  | idle htask hpending =>
      cases hpending with
      | nothing hqueue => exact .idle htask (.inl hqueue)
      | call hqueue hguard =>
          refine absurd (.inr (.inl ⟨_, hguard, .inl ?_⟩)) hfree
          exact ⟨_, hqueue ▸ List.mem_singleton_self _⟩
      | apply hqueue hretains => exact .idle htask (.inr ⟨_, _, hqueue, hretains⟩)
      | stop hqueue hjoins => exact absurd (.inr (.inr ⟨hjoins, by simp [htask]⟩)) hfree
  | answering htask hqueue hguard =>
      exact absurd (.inr (.inl ⟨_, hguard, answers_of_task htask⟩)) hfree
  | executing htask hretains hqueue =>
      refine .executing htask hretains (hqueue.resolve_right fun hstop => hfree ?_)
      exact .inr (.inr ⟨hstop.2, by simp [htask]⟩)
  | gone htask hqueue => exact .gone htask hqueue

/-- The guard is not there for what its stage could be for. -/
def Frees (context : Context Value) (call : Nat) : Stage Value → Prop
  | .awaiting => context.worker.task ≠ .initializing
  | .waiting none => ¬context.Answers call
  | .joining _ => context.worker.task = .gone
  | _ => True

theorem not_bears (hguard : context.guard = some (call, stage)) (h : context.Frees call stage) :
    ¬context.Bears := by
  rintro (⟨hinit, other, hother⟩ | ⟨other, hother, hanswers⟩ | ⟨⟨other, outcome, hother⟩, htask⟩)
  · obtain ⟨rfl, rfl⟩ := Prod.mk.inj (Option.some.inj (hguard.symm.trans hother))
    exact h hinit
  · obtain ⟨rfl, rfl⟩ := Prod.mk.inj (Option.some.inj (hguard.symm.trans hother))
    exact h hanswers
  · obtain ⟨rfl, rfl⟩ := Prod.mk.inj (Option.some.inj (hguard.symm.trans hother))
    exact htask h

theorem not_bears_none (hguard : context.guard = none) : ¬context.Bears := by
  rintro (⟨-, call, h⟩ | ⟨call, h, -⟩ | ⟨⟨call, outcome, h⟩, -⟩)
  · simp [hguard] at h
  · simp [hguard] at h
  · simp [hguard] at h

/-- What is apart from the guard stays in flight whatever becomes of the guard. -/
theorem Apart.flight (h : context.Apart) (guard : Option (Nat × Stage Value)) :
    Flight { context with guard } := by
  cases h with
  | idle htask hqueue =>
      refine .idle htask ?_
      rcases hqueue with hqueue | ⟨plan, job, hqueue, hretains⟩
      · exact .nothing hqueue
      · exact .apply hqueue hretains
  | executing htask hretains hqueue => exact .executing htask hretains (.inl hqueue)
  | gone htask hqueue => exact .gone htask hqueue

/-- A change of the mailbox that forgets no job. -/
theorem Apart.keep (h : context.Apart) (hworker : context'.worker = context.worker)
    (hqueue : context'.queue = context.queue)
    (hretains : ∀ job, context.Retains job → context'.Retains job) : context'.Apart := by
  cases h with
  | idle htask hpending =>
      refine .idle (hworker ▸ htask) ?_
      rw [hqueue]
      rcases hpending with hnothing | ⟨plan, job, happly, hjob⟩
      · exact .inl hnothing
      · exact .inr ⟨plan, job, happly, hretains job hjob⟩
  | executing htask hjob hnothing =>
      exact .executing (hworker ▸ htask) (hretains _ hjob) (hqueue.trans hnothing)
  | gone htask hnothing => exact .gone (hworker ▸ htask) (hqueue.trans hnothing)

end Apart

/-! ### What a call does first -/


theorem poll_keeps (mailbox : Job Value) (since : Nat) :
    (mailbox.poll since).2.id = mailbox.id ∧
      (mailbox.poll since).2.finished = mailbox.finished := by
  rw [Job.poll]
  split
  · exact ⟨rfl, rfl⟩
  · split
    · exact ⟨rfl, rfl⟩
    · exact ⟨rfl, rfl⟩

section Enter

variable {text : TransportJson Value} {context : Context Value} {input : String} {job : Nat}

/-- An outcome that a call reaches without the worker: it answers the request that was made, only a
request of the job lifecycle is refused in the words of the application, and an error is one that
refuses a call. -/
def Local (text : TransportJson Value) (input : String) : Outcome Value → Prop
  | .error error => error.refuses = true
  | .ok (.rejected error) => parseRequest text.library text.decode input = .error error
  | .ok (.application result) => (∃ error, result = .error error) ∧
      ∃ request, parseRequest text.library text.decode input = .ok request ∧ request.isJob = true
  | .ok (.transport _) | .ok (.polled _) =>
      ∃ job since, parseRequest text.library text.decode input = .ok (.jobPoll job since)
  | .ok (.job _) => ∃ plan, parseRequest text.library text.decode input = .ok (.applyStart plan)
  | .ok .null => ∃ job, parseRequest text.library text.decode input = .ok (.jobClose job)
  | .ok (.context ..) | .ok (.closed _) => False

/-- What a call does under the lock, before anything that can block. -/
inductive Enters (text : TransportJson Value) (context : Context Value) (input : String) :
    Stage Value × Context Value → Prop where
  | leaves {outcome : Outcome Value} (hlocal : Local text input outcome) :
      Enters text context input (.leaving outcome, context)
  | polls {mailbox : Job Value} {since : Nat} {outcome : Outcome Value}
      (hjob : context.job = some mailbox) (hlocal : Local text input outcome) :
      Enters text context input
        (.leaving outcome, { context with job := some (mailbox.poll since).2 })
  | unwinds {mailbox : Job Value} {since : Nat} (hjob : context.job = some mailbox) :
      Enters text context input
        (.unwinding, { context with job := some (mailbox.poll since).2 })
  | releases {mailbox : Job Value} (hjob : context.job = some mailbox)
      (hfinished : mailbox.finished = true) (hlocal : Local text input (.ok .null)) :
      Enters text context input (.leaving (.ok .null), { context with job := none })
  | allocates {plan : PlanId} (hjob : context.job = none) (hjoined : context.joined = false)
      (hparse : parseRequest text.library text.decode input = .ok (.applyStart plan)) :
      Enters text context input (.allocating plan, context)
  | forwards {request : Request} (hjob : ∀ job, ¬context.Retains job)
      (hjoined : context.joined = false)
      (hparse : parseRequest text.library text.decode input = .ok request)
      (hserial : request.isJob = false) :
      Enters text context input (.forwarding request, context)

theorem isFinished_eq_ok {mailbox : Job Value} {finished : Bool}
    (h : mailbox.isFinished = .ok finished) : mailbox.finished = finished := by
  rw [Job.isFinished] at h
  split at h
  · cases h
  · exact Except.ok.inj h

/-- A mailbox that was poisoned. -/
theorem isFinished_refuses {mailbox : Job Value} {error : JobError}
    (h : mailbox.isFinished = .error error) : error.transport.refuses = true := by
  rw [Job.isFinished] at h
  split at h
  · obtain rfl := Except.error.inj h
    rfl
  · cases h

/-- The identities of jobs are used up. -/
theorem new_refuses {next : Nat} {error : JobError}
    (h : (Job.new next : Except JobError (Job Value × Nat)) = .error error) :
    error.transport.refuses = true := by
  rw [Job.new] at h
  split at h
  · obtain rfl := Except.error.inj h
    rfl
  · cases h

theorem ownJob_refuses {error : TransportError} (h : context.ownJob job = .error error) :
    error.refuses = true := by
  rw [ownJob] at h
  split at h
  · split at h
    · cases h
    · obtain rfl := Except.error.inj h
      rfl
  · obtain rfl := Except.error.inj h
    rfl

theorem settled_refuses {error : TransportError} (h : context.settled = .error error) :
    error.refuses = true := by
  rw [settled] at h
  split at h
  · cases h
  · split at h
    · next hfinished =>
      obtain rfl := Except.error.inj h
      exact isFinished_refuses hfinished
    · cases h

theorem ownJob_eq_ok {mailbox : Job Value} (h : context.ownJob job = .ok mailbox) :
    context.job = some mailbox := by
  rw [ownJob] at h
  split at h
  · split at h
    · next hjob _ => exact Except.ok.inj h ▸ hjob
    · cases h
  · cases h

/-- A poll enters as its request says. -/
theorem pollJob_enters {since : Nat} (hparse : parseRequest text.library text.decode input = .ok
    (.jobPoll job since)) : Enters text context input (context.pollJob job since) := by
  rw [pollJob]
  split
  · next hown => exact .leaves (ownJob_refuses hown)
  · next mailbox hown =>
    have hjob := ownJob_eq_ok hown
    split
    · next polled heq =>
      have hpolled : polled = (mailbox.poll since).2 := by rw [heq]
      exact hpolled ▸ .unwinds hjob
    · next polled heq =>
      have hpolled : polled = (mailbox.poll since).2 := by rw [heq]
      exact hpolled ▸ .polls hjob ⟨job, since, hparse⟩
    · next polled heq =>
      have hpolled : polled = (mailbox.poll since).2 := by rw [heq]
      exact hpolled ▸ .polls hjob ⟨job, since, hparse⟩

/-- A release enters as its request says. -/
theorem closeJob_enters (hparse : parseRequest text.library text.decode input = .ok
    (.jobClose job)) : Enters text context input (context.closeJob job) := by
  rw [closeJob]
  split
  · next hown => exact .leaves (ownJob_refuses hown)
  · next mailbox hown =>
    split
    · next hfinished => exact .leaves (isFinished_refuses hfinished)
    · exact .leaves rfl
    · next hfinished =>
      exact .releases (ownJob_eq_ok hown) (isFinished_eq_ok hfinished) ⟨job, hparse⟩

/-- A cancellation enters as its request says. -/
theorem cancelJob_enters (hparse : parseRequest text.library text.decode input = .ok
    (.jobCancel job)) : Enters text context input (context.cancelJob job, context) := by
  rw [cancelJob]
  split
  · next hown => exact .leaves (ownJob_refuses hown)
  · exact .leaves ⟨⟨_, rfl⟩, _, hparse, rfl⟩

/-- A start enters as its request says. -/
theorem startJob_enters {plan : PlanId} (hjoined : context.joined = false)
    (hparse : parseRequest text.library text.decode input = .ok (.applyStart plan)) :
    Enters text context input (context.startJob plan, context) := by
  rw [startJob]
  split
  · exact .leaves ⟨⟨_, rfl⟩, _, hparse, rfl⟩
  · split
    · next hjob => exact .allocates hjob hjoined hparse
    · split
      · next hfinished => exact .leaves (isFinished_refuses hfinished)
      · exact .leaves rfl
      · exact .leaves rfl

/-- Any other request is forwarded to the worker. -/
theorem forward_enters {request : Request} (hjoined : context.joined = false)
    (hparse : parseRequest text.library text.decode input = .ok request)
    (hserial : request.isJob = false) :
    Enters text context input (context.forward request, context) := by
  rw [forward]
  split
  · next hsettled => exact .leaves (settled_refuses hsettled)
  · exact .leaves rfl
  · next hsettled =>
    refine .forwards ?_ hjoined hparse hserial
    rintro other ⟨mailbox, hjob, -, hfinished⟩
    simp only [settled, hjob] at hsettled
    split at hsettled
    · cases hsettled
    · next h =>
      rw [isFinished_eq_ok h, Except.ok.inj hsettled] at hfinished
      cases hfinished

variable (text context input) in
/-- Everything that a call may do under the lock, before anything that can block. -/
theorem enters : Enters text context input (context.enter text input) := by
  rw [enter]
  split
  · exact .leaves rfl
  · next hjoined =>
    have hjoined := Bool.eq_false_iff.mpr hjoined
    split
    · next hparse => exact .leaves hparse
    · next hparse => exact pollJob_enters hparse
    · next hparse => exact closeJob_enters hparse
    · next hparse => exact cancelJob_enters hparse
    · next hparse => exact startJob_enters hjoined hparse
    · next request hpoll hclose hcancel hstart hparse =>
      refine forward_enters hjoined hparse ?_
      cases request with
      | jobPoll job since => exact absurd rfl (hpoll _ _)
      | jobClose job => exact absurd rfl (hclose _)
      | jobCancel job => exact absurd rfl (hcancel _)
      | applyStart plan => exact absurd rfl (hstart _)
      | _ => rfl

end Enter

/-! ### Steps of the guard -/

section Guard

variable {text : TransportJson Value} {context context' : Context Value}
  {event : ContextEvent Value} {call : Nat} {stage : Stage Value}

/-- What is said of the only stage there is. -/
theorem says_reach (h : (context.reach call stage).Says call stage) :
    ∀ other found, (context.reach call stage).guard = some (other, found) →
      (context.reach call stage).Says other found := by
  intro other found heq
  obtain ⟨rfl, rfl⟩ := Prod.mk.inj (Option.some.inj heq)
  exact h

theorem Joined.of_false (h : context.joined = false) : context.Joined := by
  intro hjoined
  rw [h] at hjoined
  cases hjoined

/-- A worker that was joined is gone, unless the guard is there for the joining. -/
theorem Joined.exited (h : context.Joined) (hguard : context.guard = some (call, stage))
    (hstopping : ∀ outcome, stage ≠ .stopping outcome)
    (hjoining : ∀ outcome, stage ≠ .joining outcome) (hjoined : context.joined = true) :
    context.worker = .exited := by
  rcases h hjoined with hexited | ⟨other, outcome, hstop | hjoin⟩
  · exact hexited
  · rw [hguard] at hstop
    exact absurd (Prod.mk.inj (Option.some.inj hstop)).2 (hstopping outcome)
  · rw [hguard] at hjoin
    exact absurd (Prod.mk.inj (Option.some.inj hjoin)).2 (hjoining outcome)

/-- A poll does not make a job forgotten. -/
theorem Apart.polled {mailbox : Job Value} (h : context.Apart) (hjob : context.job = some mailbox)
    (since : Nat) : Apart { context with job := some (mailbox.poll since).2 } := by
  refine h.keep rfl rfl ?_
  rintro job ⟨retained, hretained, hid, hfinished⟩
  obtain rfl := Option.some.inj (hjob.symm.trans hretained)
  obtain ⟨hpolledId, hpolledFinished⟩ := poll_keeps mailbox since
  exact ⟨_, rfl, hpolledId.trans hid, hpolledFinished.trans hfinished⟩

/-- The call moves to its next stage. -/
theorem Sound.advance {next : Stage Value} (h : context.Sound)
    (hguard : context.guard = some (call, stage)) (hfree : context.Frees call stage)
    (htold : (context.reach call next).Says call next)
    (hjoined : (context.reach call next).Joined) :
    (context.reach call next).Sound :=
  ⟨(h.flight.apart (not_bears hguard hfree)).flight _, says_reach htold, hjoined⟩

/-- A step of the call that holds the guard keeps the invariant. -/
theorem Sound.guardStep (h : context.Sound) (hstep : GuardStep text call context event context') :
    context'.Sound := by
  cases hstep with
  | ready hguard hready =>
      obtain ⟨hfresh, hstart⟩ := h.stage _ _ hguard
      obtain ⟨protocol, hworker⟩ : ∃ protocol, context.worker = .receiving protocol := by
        simpa [hready] using hstart
      exact h.advance hguard (by simp [Frees, hworker, Worker.task]) ⟨hfresh, protocol, hworker⟩
        (.of_false hfresh.2.1)
  | refused hguard hready =>
      obtain ⟨hfresh, hstart⟩ := h.stage _ _ hguard
      have hgone : context.worker.receives = false := by simpa [hready] using hstart
      have htask := Worker.task_eq_gone.mpr hgone
      exact h.advance hguard (by simp [Frees, htask]) trivial (.of_false hfresh.2.1)
  | unready hguard hready hgone =>
      have htask := Worker.task_eq_gone.mpr hgone
      exact h.advance hguard (by simp [Frees, htask]) trivial
        (.of_false (h.stage _ _ hguard).1.2.1)
  | @enter input hguard =>
      have hapart := h.flight.apart (not_bears hguard trivial)
      have hexited : context.joined = true → context.worker = .exited :=
        h.joined.exited hguard (by simp) (by simp)
      have henters := enters text context input
      generalize context.enter text input = entered at henters ⊢
      cases henters with
      | leaves hlocal =>
          exact ⟨hapart.flight _, says_reach trivial, fun hjoined => .inl (hexited hjoined)⟩
      | polls hjob hlocal =>
          exact ⟨(hapart.polled hjob _).flight _, says_reach trivial,
            fun hjoined => .inl (hexited hjoined)⟩
      | unwinds hjob =>
          exact ⟨(hapart.polled hjob _).flight _, says_reach trivial,
            fun hjoined => .inl (hexited hjoined)⟩
      | releases hjob hfinished hlocal =>
          have hreleased : Apart { context with job := none } := by
            refine hapart.keep rfl rfl ?_
            rintro job ⟨mailbox, hretained, -, hunfinished⟩
            obtain rfl := Option.some.inj (hjob.symm.trans hretained)
            rw [hfinished] at hunfinished
            cases hunfinished
          exact ⟨hreleased.flight _, says_reach trivial, fun hjoined => .inl (hexited hjoined)⟩
      | allocates hjob hjoined hparse =>
          exact h.advance hguard trivial ⟨hjob, hjoined⟩ (.of_false hjoined)
      | forwards hjob hjoined hparse hserial =>
          exact h.advance hguard trivial ⟨hjob, hjoined⟩ (.of_false hjoined)
  | start hguard hqueue hreceives =>
      obtain ⟨hjob, hjoined, hfinished⟩ := h.stage _ _ hguard
      refine ⟨?_, says_reach trivial, .of_false hjoined⟩
      cases h.flight.apart (not_bears hguard trivial) with
      | idle htask _ => exact .idle htask (.apply rfl ⟨_, rfl, rfl, hfinished⟩)
      | executing htask hretains _ =>
          obtain ⟨mailbox, hretained, -⟩ := hretains
          rw [hjob] at hretained
          cases hretained
      | gone htask _ =>
          rw [Worker.task_eq_gone, hreceives] at htask
          cases htask
  | startFails hguard hreceives =>
      exact h.advance hguard trivial trivial (.of_false (h.stage _ _ hguard).2.1)
  | send hguard hqueue hreceives =>
      obtain ⟨hnone, hjoined⟩ := h.stage _ _ hguard
      refine ⟨?_, says_reach ⟨hjoined, .inl (.inl ⟨_, List.mem_singleton_self _⟩)⟩,
        .of_false hjoined⟩
      cases h.flight.apart (not_bears hguard trivial) with
      | idle htask _ => exact .idle htask (.call rfl rfl)
      | executing htask hretains _ => exact absurd hretains (hnone _)
      | gone htask _ =>
          rw [Worker.task_eq_gone, hreceives] at htask
          cases htask
  | sendFails hguard hreceives =>
      exact h.advance hguard trivial trivial (.of_false (h.stage _ _ hguard).2)
  | receive hguard => exact h.advance hguard trivial trivial (.of_false (h.stage _ _ hguard))
  | hungUp hguard hgone => exact h.advance hguard hgone trivial (.of_false (h.stage _ _ hguard).1)
  | stop hguard hqueue hreceives =>
      have hjoined : context.joined = true := h.stage _ _ hguard
      refine ⟨?_, says_reach ⟨hjoined, .inl rfl⟩, fun _ => .inr ⟨_, _, .inr rfl⟩⟩
      cases h.flight.apart (not_bears hguard trivial) with
      | idle htask _ => exact .idle htask (.stop rfl ⟨_, _, rfl⟩)
      | executing htask hretains _ =>
          exact .executing htask hretains (.inr ⟨rfl, _, _, rfl⟩)
      | gone htask _ =>
          rw [Worker.task_eq_gone, hreceives] at htask
          cases htask
  | stopFails hguard hreceives =>
      exact h.advance hguard trivial ⟨h.stage _ _ hguard, .inr (.inr hreceives)⟩
        fun _ => .inr ⟨_, _, .inr rfl⟩
  | join hguard hexited =>
      exact h.advance hguard (by simp [Frees, hexited, Worker.task]) trivial
        fun _ => .inl hexited

end Guard

/-! ### Steps of the worker -/

section Work

variable {text : TransportJson Value} {context context' : Context Value}
  {event : ContextEvent Value} {call job : Nat} {stage : Stage Value}

/-- An update changes neither the id nor whether the job is finished. -/
theorem update_keeps (mailbox : Job Value) (snapshot : RunSnapshot) (events : EventsPage) :
    (mailbox.update snapshot events).id = mailbox.id ∧
      (mailbox.update snapshot events).finished = mailbox.finished := by
  rw [Job.update]
  split
  · exact ⟨rfl, rfl⟩
  · exact ⟨rfl, rfl⟩

/-- A job that has finished was not unfinished by it. -/
theorem finish_keeps (mailbox : Job Value) (error : Option Value) :
    (mailbox.finish error).id = mailbox.id ∧
      ((mailbox.finish error).finished = false → mailbox.finished = false) := by
  rw [Job.finish]
  split
  · exact ⟨rfl, id⟩
  · exact ⟨rfl, fun h => by simp at h⟩

/-- A change of the mailbox that neither renames it nor ends the job. -/
theorem Retains.updateJob {other : Nat} {update : Job Value → Job Value} (h : context.Retains job)
    (hupdate : ∀ mailbox, (update mailbox).id = mailbox.id ∧
      (update mailbox).finished = mailbox.finished) :
    (context.updateJob other update).Retains job := by
  obtain ⟨mailbox, hjob, hid, hfinished⟩ := h
  refine ⟨if mailbox.id = other then update mailbox else mailbox, by simp [Context.updateJob, hjob],
    ?_, ?_⟩
  · split
    · exact (hupdate mailbox).1.trans hid
    · exact hid
  · split
    · exact (hupdate mailbox).2.trans hfinished
    · exact hfinished

/-- A change of the mailbox does not retain another job. -/
theorem Retains.of_updateJob {other : Nat} {update : Job Value → Job Value}
    (h : (context.updateJob other update).Retains job)
    (hupdate : ∀ mailbox, (update mailbox).id = mailbox.id ∧
      ((update mailbox).finished = false → mailbox.finished = false)) : context.Retains job := by
  obtain ⟨mailbox, hjob, hid, hfinished⟩ := h
  obtain ⟨before, hbefore, rfl⟩ := Option.map_eq_some_iff.mp hjob
  refine ⟨before, hbefore, ?_⟩
  split at hid
  · next hother =>
    rw [if_pos hother] at hfinished
    exact ⟨(hupdate before).1.symm.trans hid, (hupdate before).2 hfinished⟩
  · next hother =>
    rw [if_neg hother] at hfinished
    exact ⟨hid, hfinished⟩

/-- Stages that say something about the worker or the queue. -/
def Watches : Stage Value → Bool
  | .awaiting | .registering | .waiting none | .joining _ => true
  | _ => false

/-- What the other stages say does not depend on the worker. -/
theorem Says.carry (h : context.Says call stage) (hwatches : Watches stage = false)
    (hjoined : context'.joined = context.joined) (hjob : context.job = none → context'.job = none)
    (hretains : ∀ job, context'.Retains job → context.Retains job) : context'.Says call stage := by
  cases stage with
  | awaiting => cases hwatches
  | registering => cases hwatches
  | entered input => trivial
  | allocating plan => exact ⟨hjob h.1, hjoined.trans h.2⟩
  | starting plan job => exact ⟨hjob h.1, hjoined.trans h.2.1, h.2.2⟩
  | forwarding request => exact ⟨fun job hjob => h.1 job (hretains job hjob), hjoined.trans h.2⟩
  | waiting response =>
      cases response with
      | none => cases hwatches
      | some reply => exact hjoined.trans h
  | stopping outcome => exact hjoined.trans h
  | joining outcome => cases hwatches
  | leaving outcome => trivial
  | unwinding => trivial

/-- While a job is executed, its mailbox is retained, and only a stop may be pending. -/
theorem Flight.executed (h : context.Flight) (htask : context.worker.task = .executing job) :
    context.Retains job ∧ (context.queue = [] ∨ context.queue = [.stop] ∧ context.Joins) := by
  cases h with
  | initializing hother => simp [htask] at hother
  | idle hother => simp [htask] at hother
  | answering hother => simp [htask] at hother
  | executing hother hretains hqueue =>
      rw [htask] at hother
      cases hother
      exact ⟨hretains, hqueue⟩
  | gone hother => simp [htask] at hother

theorem Flight.idled (h : context.Flight) (htask : context.worker.task = .idle) :
    context.Pending := by
  cases h with
  | initializing hother => simp [htask] at hother
  | idle _ hpending => exact hpending
  | answering hother => simp [htask] at hother
  | executing hother => simp [htask] at hother
  | gone hother => simp [htask] at hother

theorem Flight.abandoned (h : context.Flight) (htask : context.worker.task = .gone) :
    context.queue = [] := by
  cases h with
  | initializing _ hqueue => exact hqueue
  | idle hother => simp [htask] at hother
  | answering _ hqueue => exact hqueue
  | executing hother => simp [htask] at hother
  | gone _ hqueue => exact hqueue

/-- Before the handshake the opener waits alone. -/
theorem Flight.uninitialized (h : context.Flight) (htask : context.worker.task = .initializing) :
    context.queue = [] ∧ ∃ call, context.guard = some (call, .awaiting) := by
  cases h with
  | initializing _ hqueue hguard => exact ⟨hqueue, _, hguard⟩
  | idle hother => simp [htask] at hother
  | answering hother => simp [htask] at hother
  | executing hother => simp [htask] at hother
  | gone hother => simp [htask] at hother

/-- A worker that answers was asked by the holder of the guard. -/
theorem Flight.answered {caller : Nat} {request : Request} (h : context.Flight)
    (htask : context.worker.task = .answering caller request) :
    context.queue = [] ∧ context.guard = some (caller, .waiting none) := by
  cases h with
  | initializing hother => simp [htask] at hother
  | idle hother => simp [htask] at hother
  | answering hother hqueue hguard =>
      rw [htask] at hother
      cases hother
      exact ⟨hqueue, hguard⟩
  | executing hother => simp [htask] at hother
  | gone hother => simp [htask] at hother

/-- A caller that waits is sent its reply. -/
theorem respond_eq {worker : Worker Value} {reply : Reply Value}
    (hguard : context.guard = some (call, .waiting none)) :
    { context with worker }.respond call reply =
      { context with worker, guard := some (call, .waiting (some reply)) } := by
  simp [respond, hguard]

/-- The worker moves on, and the guard stays. -/
theorem Joined.carry (h : context.Joined) (hexited : context.worker ≠ .exited)
    (hjoined : context'.joined = context.joined) (hguard : context'.guard = context.guard) :
    context'.Joined := by
  intro hjoined'
  rcases h (hjoined.symm.trans hjoined') with hexit | hstop
  · exact absurd hexit hexited
  · rw [hguard]
    exact .inr hstop

/-- What an execution leaves of what the stages say. -/
theorem Sound.executes (h : context.Sound) (htask : context.worker.task = .executing job)
    (hqueue : context'.queue = context.queue) (hguard : context'.guard = context.guard)
    (hjoined : context'.joined = context.joined) (hjob : context.job = none → context'.job = none)
    (hretains : ∀ job, context'.Retains job → context.Retains job) :
    ∀ call stage, context'.guard = some (call, stage) → context'.Says call stage := by
  intro call stage hstage
  have htold := h.stage call stage (hguard ▸ hstage)
  have hpending := (h.flight.executed htask).2
  cases hwatches : Watches stage with
  | false => exact htold.carry hwatches hjoined hjob hretains
  | true =>
      cases stage with
      | awaiting =>
          obtain ⟨-, ⟨hworker, -⟩ | ⟨⟨protocol, hworker⟩, -⟩ | ⟨hgone, -⟩⟩ := htold
          · simp [hworker, Worker.task] at htask
          · simp [hworker, Worker.task] at htask
          · simp [Worker.task_eq_gone.mpr hgone] at htask
      | registering =>
          obtain ⟨-, protocol, hworker⟩ := htold
          simp [hworker, Worker.task] at htask
      | waiting response =>
          cases response with
          | some reply => cases hwatches
          | none =>
              obtain ⟨-, (⟨request, hmem⟩ | ⟨protocol, request, hworker⟩) | hgone⟩ := htold
              · rcases hpending with hqueue | ⟨hqueue, -⟩
                · simp [hqueue] at hmem
                · simp [hqueue] at hmem
              · simp [hworker, Worker.task] at htask
              · simp [Worker.task_eq_gone.mpr hgone] at htask
      | joining outcome =>
          obtain ⟨hjoined', hstop | hworker | hgone⟩ := htold
          · exact ⟨hjoined.trans hjoined', .inl (hqueue.trans hstop)⟩
          · simp [hworker, Worker.task] at htask
          · simp [Worker.task_eq_gone.mpr hgone] at htask
      | _ => cases hwatches

/-- A step of the worker keeps the invariant. -/
theorem Sound.workerStep (h : context.Sound) (hstep : WorkerStep text context event context') :
    context'.Sound := by
  cases hstep with
  | serve hworker =>
      obtain ⟨hqueue, call, hguard⟩ := h.flight.uninitialized (by simp [hworker, Worker.task])
      have hfresh := (h.stage _ _ hguard).1
      refine ⟨.idle rfl (.nothing hqueue), ?_, .of_false hfresh.2.1⟩
      intro other stage hother
      obtain ⟨rfl, rfl⟩ := Prod.mk.inj (Option.some.inj (hguard.symm.trans hother))
      exact ⟨hfresh, .inr (.inl ⟨⟨_, rfl⟩, rfl⟩)⟩
  | fail hworker =>
      obtain ⟨hqueue, call, hguard⟩ := h.flight.uninitialized (by simp [hworker, Worker.task])
      have hfresh := (h.stage _ _ hguard).1
      refine ⟨.gone rfl rfl, ?_, .of_false hfresh.2.1⟩
      intro other stage hother
      obtain ⟨rfl, rfl⟩ := Prod.mk.inj (Option.some.inj (hguard.symm.trans hother))
      refine ⟨⟨hfresh.1, hfresh.2.1, rfl⟩, .inr (.inr ⟨rfl, ?_⟩)⟩
      intro hready
      obtain ⟨error, -, hok⟩ := Option.map_eq_some_iff.mp hready
      cases hok
  | takeCall hworker hqueue =>
      have hpending := h.flight.idled (by simp [hworker, Worker.task])
      cases hpending with
      | nothing hnothing => simp [hnothing] at hqueue
      | call hcall hguard =>
          obtain ⟨hmessage, hrest⟩ := List.cons.inj (hqueue.symm.trans hcall)
          cases hmessage
          have htold := h.stage _ _ hguard
          refine ⟨.answering rfl hrest hguard, ?_, .of_false htold.1⟩
          intro other stage hother
          obtain ⟨rfl, rfl⟩ := Prod.mk.inj (Option.some.inj (hguard.symm.trans hother))
          exact ⟨htold.1, .inl (.inr ⟨_, _, rfl⟩)⟩
      | apply happly => simp [happly] at hqueue
      | stop hstop => simp [hstop] at hqueue
  | answer hworker hrun hvalue =>
      obtain ⟨hqueue, hguard⟩ := h.flight.answered (by rw [hworker]; rfl)
      have hjoined := (h.stage _ _ hguard).1
      rw [respond_eq hguard]
      refine ⟨.idle rfl (.nothing hqueue), ?_, .of_false hjoined⟩
      rintro other stage ⟨⟩
      exact hjoined
  | panic hworker hrun =>
      obtain ⟨hqueue, hguard⟩ := h.flight.answered (by rw [hworker]; rfl)
      have hjoined := (h.stage _ _ hguard).1
      rw [respond_eq hguard]
      refine ⟨.idle rfl (.nothing hqueue), ?_, .of_false hjoined⟩
      rintro other stage ⟨⟩
      exact hjoined
  | takeApply hworker hqueue =>
      have htask : context.worker.task = .idle := by simp [hworker, Worker.task]
      have hpending := h.flight.idled htask
      cases hpending with
      | nothing hnothing => simp [hnothing] at hqueue
      | call hcall => simp [hcall] at hqueue
      | apply happly hretains =>
          obtain ⟨hmessage, hrest⟩ := List.cons.inj (hqueue.symm.trans happly)
          cases hmessage
          refine ⟨.executing rfl hretains (.inl hrest), ?_,
            h.joined.carry (by simp [hworker]) rfl rfl⟩
          intro call stage hguard
          have htold := h.stage call stage hguard
          cases hwatches : Watches stage with
          | false => exact htold.carry hwatches rfl id fun _ => id
          | true =>
              cases stage with
              | awaiting => simp [htold.1.2.2] at happly
              | registering => simp [htold.1.2.2] at happly
              | waiting response =>
                  cases response with
                  | some reply => cases hwatches
                  | none => simp [Says, Answers, hworker, happly, Worker.receives] at htold
              | joining outcome => simp [Says, hworker, happly, Worker.receives] at htold
              | _ => cases hwatches
      | stop hstop => simp [hstop] at hqueue
  | publish hworker hrun hupdate =>
      have htask := congrArg Worker.task hworker
      obtain ⟨hretains, hqueue⟩ := h.flight.executed htask
      refine ⟨.executing htask (hretains.updateJob fun mailbox => update_keeps mailbox _ _) hqueue,
        ?_, h.joined.carry (by simp [hworker]) rfl rfl⟩
      refine h.executes htask rfl rfl rfl (fun hjob => by simp [updateJob, hjob]) fun job hjob => ?_
      refine hjob.of_updateJob fun mailbox => ?_
      exact (update_keeps mailbox _ _).imp_right fun hsame hfalse => hsame.symm.trans hfalse
  | conclude hworker hrun =>
      have htask := congrArg Worker.task hworker
      obtain ⟨hretains, hqueue⟩ := h.flight.executed htask
      exact ⟨.executing rfl hretains hqueue, h.executes htask rfl rfl rfl id fun _ => id,
        h.joined.carry (by simp [hworker]) rfl rfl⟩
  | publishLast hworker =>
      have htask := congrArg Worker.task hworker
      obtain ⟨hretains, hqueue⟩ := h.flight.executed htask
      refine ⟨.executing rfl (hretains.updateJob fun mailbox => update_keeps mailbox _ _) hqueue, ?_,
        h.joined.carry (by simp [hworker]) rfl rfl⟩
      refine h.executes htask rfl rfl rfl (fun hjob => by simp [updateJob, hjob]) fun job hjob => ?_
      refine hjob.of_updateJob fun mailbox => ?_
      exact (update_keeps mailbox _ _).imp_right fun hsame hfalse => hsame.symm.trans hfalse
  | finish hworker hpanic =>
      have htask := congrArg Worker.task hworker
      obtain ⟨-, hqueue⟩ := h.flight.executed htask
      refine ⟨.idle rfl (hqueue.elim (.nothing ·) fun hstop => .stop hstop.1 hstop.2), ?_,
        h.joined.carry (by simp [hworker]) rfl rfl⟩
      refine h.executes htask rfl rfl rfl (fun hjob => by simp [updateJob, hjob]) fun job hjob => ?_
      exact hjob.of_updateJob fun mailbox => finish_keeps mailbox _
  | finishPanicked hworker =>
      have htask := congrArg Worker.task hworker
      obtain ⟨-, hqueue⟩ := h.flight.executed htask
      refine ⟨.idle rfl (hqueue.elim (.nothing ·) fun hstop => .stop hstop.1 hstop.2), ?_,
        h.joined.carry (by simp [hworker]) rfl rfl⟩
      refine h.executes htask rfl rfl rfl (fun hjob => by simp [updateJob, hjob]) fun job hjob => ?_
      exact hjob.of_updateJob fun mailbox => finish_keeps mailbox _
  | takeStop hworker hqueue =>
      have hpending := h.flight.idled (by simp [hworker, Worker.task])
      cases hpending with
      | nothing hnothing => simp [hnothing] at hqueue
      | call hcall => simp [hcall] at hqueue
      | apply happly => simp [happly] at hqueue
      | stop hstop hjoins =>
          obtain ⟨-, hrest⟩ := List.cons.inj (hqueue.symm.trans hstop)
          obtain ⟨call, outcome, hguard⟩ := hjoins
          refine ⟨.idle rfl (.nothing hrest), ?_, h.joined.carry (by simp [hworker]) rfl rfl⟩
          intro other stage hother
          obtain ⟨rfl, rfl⟩ := Prod.mk.inj (Option.some.inj (hguard.symm.trans hother))
          exact ⟨(h.stage _ _ hguard).1, .inr (.inl rfl)⟩
  | drop hworker =>
      refine ⟨.gone rfl rfl, ?_, h.joined.carry (by simp [hworker]) rfl rfl⟩
      intro call stage hguard
      have htold := h.stage call stage hguard
      cases hwatches : Watches stage with
      | false => exact htold.carry hwatches rfl id fun _ => id
      | true =>
          cases stage with
          | awaiting => simp [Says, hworker, Worker.receives] at htold
          | registering => simp [Says, hworker] at htold
          | waiting response =>
              cases response with
              | some reply => cases hwatches
              | none => exact ⟨htold.1, .inr rfl⟩
          | joining outcome => exact ⟨htold.1, .inr (.inr rfl)⟩
          | _ => cases hwatches
  | exit hworker =>
      have htask : context.worker.task = .gone := by rw [hworker]; rfl
      have hqueue := h.flight.abandoned htask
      refine ⟨.gone rfl hqueue, ?_, fun _ => .inl rfl⟩
      intro call stage hguard
      have htold := h.stage call stage hguard
      cases hwatches : Watches stage with
      | false => exact htold.carry hwatches rfl id fun _ => id
      | true =>
          cases stage with
          | awaiting =>
              obtain ⟨hfresh, ⟨hinit, -⟩ | ⟨⟨protocol, hother⟩, -⟩ | ⟨-, hready⟩⟩ := htold
              · simp [hworker] at hinit
              · simp [hworker] at hother
              · exact ⟨hfresh, .inr (.inr ⟨rfl, hready⟩)⟩
          | registering => simp [Says, hworker] at htold
          | waiting response =>
              cases response with
              | some reply => cases hwatches
              | none => exact ⟨htold.1, .inr rfl⟩
          | joining outcome => exact ⟨htold.1, .inr (.inr rfl)⟩
          | _ => cases hwatches

end Work

end Context

end DisksGraph
