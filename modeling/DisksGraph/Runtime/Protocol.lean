import DisksGraph.Runtime.Directory
import DisksGraph.Runtime.Incident
import DisksGraph.Runtime.Session

/-!
# Runtime — Protocol

Coordinators and incident functions that work on one checkpoint root, in any interleaving.

A party is a coordinator or one call of an incident function.  Its store operations are the programs
of `Store`, one system call at a time, so a party can be killed and an I/O error can occur between
any two of them.  A power failure ends every party and leaves one of the recoverable entries.  The
host lock excludes: it is granted to one party at a time and released when the party ends.

* `PartyStep` is labelled by its `Effect` on what the parties share.
* `Party.Fits`: the invariant of one party.  A party that does not hold the lock does not depend on
  the directory (`Party.Fits.frame`).
* `World.Sound`: the invariant of the whole.
* `checkpoint_protocol`: what an acknowledged `arm` promises, whatever happens.
-/

namespace DisksGraph

open Support (Effectful Failure Program)
open Support.Program (Safe)

/-! ### Parties -/

/-- What a step does to the shared state. -/
inductive Effect where
  | internal
  | lock
  | release
  | system (call : StoreCall) (answer : call.Answer)
  | armed (attempt : ActiveAttempt)

namespace RuntimeCall

/-- The calls that the checkpoint store answers. -/
def implementation (encoding : CheckpointEncoding) :
    (call : RuntimeCall) → Option (Program StoreCall StoreCall.Answer call.Answer)
  | .inspect store => some (CheckpointStore.inspect.start store)
  | .arm store attempt => some ((CheckpointStore.arm encoding attempt).start store)
  | .clear store attempt => some ((CheckpointStore.clear attempt).start store)
  | _ => none

/-- The effect of an answer from outside; the store answers its calls itself. -/
def outside : (call : RuntimeCall) → call.Answer → Option Effect
  | .tryLockHost, answer =>
      match (answer : Except (Failure LeaseError) Unit) with
      | .ok () => some .lock
      | .error _ => some .internal
  | .releaseLock, _ => some .release
  | .inspect _, _ | .arm .., _ | .clear .., _ => none
  | _, _ => some .internal

/-- The effect of an answer of the store. -/
def acknowledged : (call : RuntimeCall) → call.Answer → Effect
  | .arm _ attempt, answer =>
      match (answer : Except (Failure CheckpointError) Unit × CheckpointStore).1 with
      | .ok () => .armed attempt
      | .error _ => .internal
  | _, _ => .internal

end RuntimeCall

namespace IncidentCall

/-- The calls that the checkpoint store answers. -/
def implementation :
    (call : IncidentCall) → Option (Program StoreCall StoreCall.Answer call.Answer)
  | .inspect store => some (CheckpointStore.inspect.start store)
  | .clear store attempt => some ((CheckpointStore.clear attempt).start store)
  | _ => none

/-- The effect of an answer from outside. -/
def outside : (call : IncidentCall) → call.Answer → Option Effect
  | .tryLockHost, answer =>
      match (answer : Except (Failure LeaseError) Unit) with
      | .ok () => some .lock
      | .error _ => some .internal
  | .releaseLock, _ => some .release
  | .inspect _, _ | .clear .., _ => none
  | _, _ => some .internal

end IncidentCall

/-- An incident function that waits for an answer, or has returned. -/
abbrev IncidentProgram : Type :=
  Program IncidentCall IncidentCall.Answer (Except (Failure IncidentError) Unit × Unit)

/-- The calls of an incident function with their answers. -/
abbrev IncidentTrace : Type := List (Program.Event IncidentCall IncidentCall.Answer)

namespace IncidentTrace

/-- The lock after one call. -/
def lockAfter (locked : Bool) : Program.Event IncidentCall IncidentCall.Answer → Bool
  | ⟨.tryLockHost, answer⟩ =>
      match (answer : Except (Failure LeaseError) Unit) with
      | .ok () => true
      | .error _ => locked
  | ⟨.releaseLock, _⟩ => false
  | _ => locked

/-- The lock is held after these calls. -/
def locked (trace : IncidentTrace) : Bool := trace.foldl lockAfter false

theorem locked_append {trace : IncidentTrace}
    {event : Program.Event IncidentCall IncidentCall.Answer} :
    IncidentTrace.locked (trace ++ [event]) = lockAfter trace.locked event := by
  rw [locked, List.foldl_append]
  rfl

end IncidentTrace

/-- A coordinator or an incident function; `storing` and `incidentStoring` are inside a store
operation. -/
inductive Party where
  | coordinator (session : CoordinatorSession)
  | storing (trace : RuntimeTrace) (other : Option ExecutionRun) (request : RuntimeCall)
      (next : request.Answer → MethodProgram)
      (inner : Program StoreCall StoreCall.Answer request.Answer)
  | incident (review : Option IncidentReview) (trace : IncidentTrace) (program : IncidentProgram)
  | incidentStoring (review : Option IncidentReview) (trace : IncidentTrace)
      (request : IncidentCall) (next : request.Answer → IncidentProgram)
      (inner : Program StoreCall StoreCall.Answer request.Answer)

/-- What the calls of a coordinator say. -/
def ledgerOf (trace : RuntimeTrace) : Ledger := trace.foldl Ledger.observe {}

/-- The party has been granted the lock. -/
def Party.locked : Party → Bool
  | .coordinator session => session.ledger.locked
  | .storing trace .. => (ledgerOf trace).locked
  | .incident _ trace _ => trace.locked
  | .incidentStoring _ trace .. => trace.locked

/-- One step of one party. -/
inductive PartyStep (texts : CoordinatorText) : Party → Effect → Party → Prop where
  | session {session session' : CoordinatorSession} (h : CoordinatorStep texts session session')
      (htrace : session'.trace = session.trace) :
      PartyStep texts (.coordinator session) .internal (.coordinator session')
  | answer {trace : RuntimeTrace} {other : Option ExecutionRun} {request : RuntimeCall}
      {next : request.Answer → MethodProgram} {effect : Effect} (answer : request.Answer)
      (h : request.outside answer = some effect) :
      PartyStep texts (.coordinator ⟨trace, .busy other (.call request next)⟩) effect
        (.coordinator ⟨trace ++ [⟨request, answer⟩], .busy other (next answer)⟩)
  | enter {trace : RuntimeTrace} {other : Option ExecutionRun} {request : RuntimeCall}
      {next : request.Answer → MethodProgram}
      {inner : Program StoreCall StoreCall.Answer request.Answer}
      (h : request.implementation texts.encoding = some inner) :
      PartyStep texts (.coordinator ⟨trace, .busy other (.call request next)⟩) .internal
        (.storing trace other request next inner)
  | serve {trace : RuntimeTrace} {other : Option ExecutionRun} {request : RuntimeCall}
      {next : request.Answer → MethodProgram} {call : StoreCall}
      {rest : call.Answer → Program StoreCall StoreCall.Answer request.Answer}
      (answer : call.Answer) :
      PartyStep texts (.storing trace other request next (.call call rest)) (.system call answer)
        (.storing trace other request next (rest answer))
  | leave {trace : RuntimeTrace} {other : Option ExecutionRun} {request : RuntimeCall}
      {next : request.Answer → MethodProgram} {answer : request.Answer} :
      PartyStep texts (.storing trace other request next (.ret answer))
        (request.acknowledged answer)
        (.coordinator ⟨trace ++ [⟨request, answer⟩], .busy other (next answer)⟩)
  | incidentAnswer {review : Option IncidentReview} {trace : IncidentTrace} {request : IncidentCall}
      {next : request.Answer → IncidentProgram} {effect : Effect} (answer : request.Answer)
      (h : request.outside answer = some effect) :
      PartyStep texts (.incident review trace (.call request next)) effect
        (.incident review (trace ++ [⟨request, answer⟩]) (next answer))
  | incidentEnter {review : Option IncidentReview} {trace : IncidentTrace} {request : IncidentCall}
      {next : request.Answer → IncidentProgram}
      {inner : Program StoreCall StoreCall.Answer request.Answer}
      (h : request.implementation = some inner) :
      PartyStep texts (.incident review trace (.call request next)) .internal
        (.incidentStoring review trace request next inner)
  | incidentServe {review : Option IncidentReview} {trace : IncidentTrace} {request : IncidentCall}
      {next : request.Answer → IncidentProgram} {call : StoreCall}
      {rest : call.Answer → Program StoreCall StoreCall.Answer request.Answer}
      (answer : call.Answer) :
      PartyStep texts (.incidentStoring review trace request next (.call call rest))
        (.system call answer) (.incidentStoring review trace request next (rest answer))
  | incidentLeave {review : Option IncidentReview} {trace : IncidentTrace} {request : IncidentCall}
      {next : request.Answer → IncidentProgram} {answer : request.Answer} :
      PartyStep texts (.incidentStoring review trace request next (.ret answer)) .internal
        (.incident review (trace ++ [⟨request, answer⟩]) (next answer))

/-! ### The world -/

/-- The incident functions. -/
inductive IncidentFunction where
  | inspect
  | review
  | acknowledge (review : IncidentReview) (confirmation : Uuid)

namespace IncidentFunction

/-- The review that an acknowledgment is given. -/
def given : IncidentFunction → Option IncidentReview
  | .acknowledge reviewed _ => some reviewed
  | _ => none

/-- The body of a function, without what it returns. -/
def body : IncidentFunction → IncidentM Unit
  | .inspect => do
      let _ ← IncidentM.inspectIncident
      return ()
  | .review => do
      let _ ← IncidentM.reviewIncident
      return ()
  | .acknowledge reviewed confirmation => do
      let _ ← IncidentM.acknowledgeIncident reviewed confirmation
      return ()

end IncidentFunction

/-- An `arm` that returned, and an active file that disappeared. -/
inductive WorldEvent where
  | armed (attempt : ActiveAttempt)
  | removed (attempt : ActiveAttempt)

/-- The shared state, the parties, and what happened, the latest first. -/
structure World where
  directory : Directory
  holder : Option Nat
  parties : Nat → Option Party
  history : List WorldEvent

/-- The attempt was armed, and its file has not been removed since. -/
def Outstanding (attempt : ActiveAttempt) : List WorldEvent → Prop
  | [] => False
  | .armed other :: rest => attempt = other ∨ Outstanding attempt rest
  | .removed other :: rest => attempt ≠ other ∧ Outstanding attempt rest

/-- A change of the directory, as the history has it. -/
def recordChange (before after : Directory) (history : List WorldEvent) : List WorldEvent :=
  match before.content with
  | some attempt => if after.content = some attempt then history else .removed attempt :: history
  | none => history

namespace Effect

/-- The directory after an effect. -/
def Serves (directory directory' : Directory) : Effect → Prop
  | .system call answer => directory.Serves call answer directory'
  | _ => directory' = directory

/-- Neither a system call nor an acknowledgment of the store. -/
def Quiet : Effect → Prop
  | .system .. | .armed _ => False
  | _ => True

/-- The holder of the lock after an effect of a party. -/
def holder (actor : Nat) (holder : Option Nat) : Effect → Option Nat
  | .lock => some actor
  | .release => none
  | _ => holder

/-- The history after an effect. -/
def record (before after : Directory) (history : List WorldEvent) : Effect → List WorldEvent
  | .armed attempt => .armed attempt :: history
  | _ => recordChange before after history

end Effect

/-- A root before its first use by these parties. -/
def World.initial (directory : Directory) : World := ⟨directory, none, fun _ => none, []⟩

/-- One step of the world; `actor` is the party that takes it. -/
inductive WorldStep (keys : ContractKeys) (texts : CoordinatorText) :
    (actor : Option Nat) → World → World → Prop where
  | start {world : World} (index : Nat) {run : ExecutionRun} (hfree : world.parties index = none)
      (hrun : Reachable keys run) :
      WorldStep keys texts none world { world with
        parties := Function.update world.parties index (some (.coordinator (.new run))) }
  | startIncident {world : World} (index : Nat) (function : IncidentFunction)
      (hfree : world.parties index = none) :
      WorldStep keys texts none world { world with
        parties := Function.update world.parties index
          (some (.incident function.given [] (function.body.start ()))) }
  | act {world : World} {index : Nat} {party party' : Party} {effect : Effect}
      {directory : Directory} (hparty : world.parties index = some party)
      (hstep : PartyStep texts party effect party')
      (hserves : effect.Serves world.directory directory)
      (hlock : effect = .lock → world.holder = none) :
      WorldStep keys texts (some index) world {
        directory
        holder := effect.holder index world.holder
        parties := Function.update world.parties index (some party')
        history := effect.record world.directory directory world.history }
  | crash {world : World} (index : Nat) :
      WorldStep keys texts none world { world with
        holder := if world.holder = some index then none else world.holder
        parties := Function.update world.parties index none }
  | powerFailure {world : World} {directory : Directory}
      (h : world.directory.Recovers directory) :
      WorldStep keys texts none world {
        directory
        holder := none
        parties := fun _ => none
        history := recordChange world.directory directory world.history }

/-- The worlds that any interleaving leads to. -/
abbrev WorldLater (keys : ContractKeys) (texts : CoordinatorText) : World → World → Prop :=
  Relation.ReflTransGen fun world world' => ∃ actor, WorldStep keys texts actor world world'

/-- A party that may remove the file of an attempt: a coordinator whose published run has its action
verified, or the acknowledgment of exactly this reviewed attempt, with an unchanged observation and
a satisfied policy. -/
inductive MayRemove (attempt : ActiveAttempt) : Party → Prop where
  | verified {trace : RuntimeTrace} {other : Option ExecutionRun} {store : CheckpointStore}
      {next : (RuntimeCall.clear store attempt).Answer → MethodProgram}
      {inner : Program StoreCall StoreCall.Answer (RuntimeCall.clear store attempt).Answer}
      {run : ExecutionRun} (hpublished : (ledgerOf trace).published = some run)
      (hverified : attempt.VerifiedIn run) :
      MayRemove attempt (.storing trace other (.clear store attempt) next inner)
  | acknowledged {review : IncidentReview} {trace : IncidentTrace} {store : CheckpointStore}
      {next : (IncidentCall.clear store attempt).Answer → IncidentProgram}
      {inner : Program StoreCall StoreCall.Answer (IncidentCall.clear store attempt).Answer}
      {fresh : IncidentInspection} (hreviewed : review.inspection.attempt = attempt)
      (hfresh : fresh.attempt = attempt)
      (hsame : review.inspection.sameObservations fresh = .ok true)
      (hpolicy : ⟨.check review.inspection fresh, some LiveCheckStatus.satisfied⟩ ∈ trace) :
      MayRemove attempt (.incidentStoring (some review) trace (.clear store attempt) next inner)

/-! ### One party -/

/-- The attempt that a store call is to clear. -/
def RuntimeCall.expected : RuntimeCall → Option ActiveAttempt
  | .clear _ attempt => some attempt
  | _ => none

/-- What an answer of the store leaves. -/
def RuntimeCall.Leaves : (call : RuntimeCall) → call.Answer → Directory → Prop
  | .arm _ attempt, answer, directory =>
      (answer : Except (Failure CheckpointError) Unit × CheckpointStore).1 = .ok () →
        directory.Holds attempt
  | .inspect _, _, _ | .clear .., _, _ => True
  | _, _, _ => False

/-- The attempt that a store call is to clear. -/
def IncidentCall.expected : IncidentCall → Option ActiveAttempt
  | .clear _ attempt => some attempt
  | _ => none

/-- What an answer of the store leaves, to a function that has found `active`. -/
def IncidentCall.Leaves (active : Option ActiveAttempt) :
    (call : IncidentCall) → call.Answer → Directory → Prop
  | .inspect _, answer, directory => directory.content = active ∧
      ∀ found, (answer : Except (Failure CheckpointError) (Option ActiveAttempt) ×
        CheckpointStore).1 = .ok found → found = active
  | .clear .., _, _ => True
  | _, _, _ => False

/-- The ledger of an incident function, next to its trace and the directory. -/
structure IncidentLedger.Reflects (ledger : IncidentLedger) (trace : IncidentTrace) : Prop where
  locked : ledger.locked = trace.locked
  approved : ∀ reviewed fresh, ledger.approved = some (reviewed, fresh) →
    ⟨.check reviewed fresh, some LiveCheckStatus.satisfied⟩ ∈ trace

/-- An incident function is safe from its ledger. -/
abbrev IncidentSafe (review : Option IncidentReview) (program : IncidentProgram)
    (ledger : IncidentLedger) : Prop :=
  Safe (IncidentLedger.Allows review) IncidentLedger.Observes
    (fun _ ledger => ledger.locked = false) program ledger

/-- The invariant of one party. -/
def Party.Fits (keys : ContractKeys) (directory : Directory) : Party → Prop
  | .coordinator session => ∃ owner, session.Sound keys owner ∧
      (session.ledger.locked = true → ∀ attempt, session.ledger.armed = some attempt →
        directory.Holds attempt)
  | .storing trace other request next inner => ∃ owner,
      CoordinatorSession.Sound keys owner ⟨trace, .busy other (.call request next)⟩ ∧
      (ledgerOf trace).locked = true ∧
      (request.expected = none → ∀ attempt, (ledgerOf trace).armed = some attempt →
        directory.Holds attempt) ∧
      Safe (StoreAllows request.expected) Directory.Serves request.Leaves inner directory
  | .incident review trace program => ∃ ledger : IncidentLedger, ledger.Reflects trace ∧
      IncidentSafe review program ledger ∧
      (ledger.locked = true → directory.content = ledger.active)
  | .incidentStoring review trace request next inner => ∃ ledger : IncidentLedger,
      ledger.Reflects trace ∧ IncidentSafe review (.call request next) ledger ∧
      ledger.locked = true ∧
      Safe (StoreAllows request.expected) Directory.Serves (request.Leaves ledger.active) inner
        directory

section Party

variable {keys : ContractKeys} {texts : CoordinatorText} {directory directory' : Directory}
  {party party' : Party} {effect : Effect}

/-- A party without the lock does not depend on the directory. -/
theorem Party.Fits.frame (h : party.Fits keys directory) (hlocked : party.locked = false) :
    party.Fits keys directory' := by
  cases party with
  | coordinator session =>
      obtain ⟨owner, hsound, -⟩ := h
      refine ⟨owner, hsound, fun hlocked' => ?_⟩
      exact absurd (hlocked.symm.trans hlocked') nofun
  | storing trace other request next inner =>
      obtain ⟨-, -, hlocked', -⟩ := h
      exact absurd (hlocked.symm.trans hlocked') nofun
  | incident review trace program =>
      obtain ⟨ledger, hreflects, hsafe, -⟩ := h
      refine ⟨ledger, hreflects, hsafe, fun hlocked' => ?_⟩
      exact absurd (hlocked.symm.trans (hreflects.locked.symm.trans hlocked')) nofun
  | incidentStoring review trace request next inner =>
      obtain ⟨ledger, hreflects, -, hlocked', -⟩ := h
      exact absurd (hlocked.symm.trans (hreflects.locked.symm.trans hlocked')) nofun

/-- What the ledger allows is known when a call is made. -/
theorem CoordinatorSession.Sound.allows {owner : Uuid} {trace : RuntimeTrace}
    {other : Option ExecutionRun} {request : RuntimeCall} {next : request.Answer → MethodProgram}
    (h : CoordinatorSession.Sound keys owner ⟨trace, .busy other (.call request next)⟩) :
    (ledgerOf trace).Allows owner request :=
  h.1

/-- The store call of a coordinator, from its start. -/
theorem implementation_safe {request : RuntimeCall}
    {inner : Program StoreCall StoreCall.Answer request.Answer}
    (h : request.implementation texts.encoding = some inner) :
    Safe (StoreAllows request.expected) Directory.Serves request.Leaves inner directory := by
  cases request with
  | inspect store =>
      obtain rfl := Option.some.inj h
      exact CheckpointStore.inspect_ends.safe (fun _ _ _ _ => trivial) fun _ _ _ _ => trivial
  | arm store attempt =>
      obtain rfl := Option.some.inj h
      exact CheckpointStore.arm_ends.safe (fun _ _ _ h _ => h) fun _ _ _ _ => nofun
  | clear store attempt =>
      obtain rfl := Option.some.inj h
      exact CheckpointStore.clear_ends.safe (fun _ _ _ _ => trivial) fun _ _ _ _ => trivial
  | _ => cases h

/-- A coordinator holds the lock when it calls the store. -/
theorem implementation_locked {owner : Uuid} {ledger : Ledger} {request : RuntimeCall}
    {inner : Program StoreCall StoreCall.Answer request.Answer}
    (h : request.implementation texts.encoding = some inner)
    (hallows : ledger.Allows owner request) : ledger.locked = true := by
  cases request with
  | inspect store => exact hallows
  | arm store attempt => exact hallows.1
  | clear store attempt => exact hallows.1
  | _ => cases h

/-- A call from outside touches neither the directory nor an armed checkpoint. -/
theorem outside_armed {owner : Uuid} {ledger : Ledger} {request : RuntimeCall}
    {answer : request.Answer} {attempt : ActiveAttempt} (h : request.outside answer = some effect)
    (hallows : ledger.Allows owner request)
    (hlocked : (ledger.observe ⟨request, answer⟩).locked = true)
    (harmed : (ledger.observe ⟨request, answer⟩).armed = some attempt) :
    ledger.locked = true ∧ ledger.armed = some attempt := by
  cases request with
  | tryLockHost =>
      match answer, hlocked, harmed with
      | .ok (), _, harmed => exact absurd (hallows.2.symm.trans harmed) nofun
      | .error _, hlocked, harmed => exact ⟨hlocked, harmed⟩
  | releaseLock => cases hlocked
  | inspect store => cases h
  | arm store attempt => cases h
  | clear store attempt => cases h
  | _ => exact ⟨hlocked, harmed⟩

theorem Effect.Quiet.serves (h : effect.Quiet) (hserves : effect.Serves directory directory') :
    directory' = directory := by
  cases effect with
  | system call answer => exact h.elim
  | _ => exact hserves

theorem Effect.Quiet.rest (h : effect.Quiet) : effect.Serves directory directory := by
  cases effect with
  | system call answer => exact h.elim
  | _ => rfl

/-- How an effect moves the lock of its party. -/
inductive Effect.Moves (locked locked' : Bool) : Effect → Prop where
  | internal (h : locked' = locked) : Effect.Moves locked locked' .internal
  | lock (h : locked = false) (h' : locked' = true) : Effect.Moves locked locked' .lock
  | release (h : locked = true) (h' : locked' = false) : Effect.Moves locked locked' .release
  | system {call : StoreCall} {answer : call.Answer} (h : locked = true) (h' : locked' = true) :
      Effect.Moves locked locked' (.system call answer)
  | armed {attempt : ActiveAttempt} (h : locked' = locked) :
      Effect.Moves locked locked' (.armed attempt)

/-- An effect outside the calls moves the lock as the ledger sees it. -/
theorem outside_moves {owner : Uuid} {ledger : Ledger} {request : RuntimeCall}
    {answer : request.Answer} (h : request.outside answer = some effect)
    (hallows : ledger.Allows owner request) :
    effect.Moves ledger.locked (ledger.observe ⟨request, answer⟩).locked := by
  cases request with
  | tryLockHost =>
      match answer, h with
      | .ok (), rfl => exact .lock hallows.1 rfl
      | .error _, rfl => exact .internal rfl
  | releaseLock =>
      cases h
      exact .release hallows rfl
  | inspect store => cases h
  | arm store attempt => cases h
  | clear store attempt => cases h
  | _ =>
      cases h
      exact .internal rfl

/-- Nothing from outside is a system call or an acknowledgment of the store. -/
theorem outside_quiet {request : RuntimeCall} {answer : request.Answer}
    (h : request.outside answer = some effect) : effect.Quiet := by
  cases request with
  | tryLockHost =>
      match answer, h with
      | .ok (), rfl => trivial
      | .error _, rfl => trivial
  | inspect store => cases h
  | arm store attempt => cases h
  | clear store attempt => cases h
  | _ =>
      cases h
      trivial

theorem acknowledged_moves {ledger : Ledger} {request : RuntimeCall} {answer : request.Answer}
    (hleaves : request.Leaves answer directory) :
    (request.acknowledged answer).Moves ledger.locked
    (ledger.observe ⟨request, answer⟩).locked := by
  cases request with
  | inspect store => exact .internal rfl
  | arm store attempt =>
      match answer with
      | (.ok (), _) => exact .armed rfl
      | (.error _, _) => exact .internal rfl
  | clear store attempt =>
      refine .internal ?_
      match answer with
      | (.ok (), _) =>
          simp only [Ledger.observe]
          split <;> rfl
      | (.error _, _) => rfl
  | _ => exact hleaves.elim

theorem acknowledged_serves {request : RuntimeCall} {answer : request.Answer}
    (hserves : (request.acknowledged answer).Serves directory directory') :
    directory' = directory := by
  cases request with
  | arm store attempt =>
      match answer, hserves with
      | (.ok (), _), hserves => exact hserves
      | (.error _, _), hserves => exact hserves
  | _ => exact hserves

theorem acknowledged_rest {request : RuntimeCall} {answer : request.Answer} :
    (request.acknowledged answer).Serves directory directory := by
  cases request with
  | arm store attempt =>
      match answer with
      | (.ok (), _) => rfl
      | (.error _, _) => rfl
  | _ => rfl

/-- An `arm` that returns leaves its attempt in the active file. -/
theorem acknowledged_holds {request : RuntimeCall} {answer : request.Answer}
    {attempt : ActiveAttempt} (hleaves : request.Leaves answer directory)
    (h : request.acknowledged answer = .armed attempt) : directory.Holds attempt := by
  cases request with
  | arm store other =>
      match answer with
      | (.ok (), _) =>
          obtain rfl := Effect.armed.inj h
          exact hleaves rfl
      | (.error _, _) => cases h
  | _ => cases h

/-- The checkpoint that is armed after a store call is in the active file. -/
theorem leave_armed {ledger : Ledger} {request : RuntimeCall} {answer : request.Answer}
    {attempt : ActiveAttempt}
    (hkept : request.expected = none → ∀ attempt, ledger.armed = some attempt →
      directory.Holds attempt) (hleaves : request.Leaves answer directory)
    (harmed : (ledger.observe ⟨request, answer⟩).armed = some attempt) :
    directory.Holds attempt := by
  cases request with
  | inspect store => exact hkept rfl attempt harmed
  | arm store other =>
      match answer, hleaves, harmed with
      | (.ok (), _), hleaves, harmed => exact Option.some.inj harmed ▸ hleaves rfl
      | (.error _, _), _, harmed => exact hkept rfl attempt harmed
  | clear store other =>
      match answer, harmed with
      | (.ok (), _), harmed =>
          simp only [Ledger.observe] at harmed
          split at harmed <;> cases harmed
      | (.error _, _), harmed => cases harmed
  | _ => exact hleaves.elim

/-- A call that approves nothing. -/
theorem IncidentLedger.Reflects.append {ledger ledger' : IncidentLedger} {trace : IncidentTrace}
    {event : Program.Event IncidentCall IncidentCall.Answer} (h : ledger.Reflects trace)
    (hlocked : ledger'.locked = IncidentTrace.lockAfter ledger.locked event)
    (happroved : ledger'.approved = ledger.approved) : ledger'.Reflects (trace ++ [event]) where
  locked := by rw [hlocked, h.locked, IncidentTrace.locked_append]
  approved reviewed fresh hpair :=
    List.mem_append_left _ (h.approved reviewed fresh (happroved ▸ hpair))

/-- The ledger of an incident function after an answer from outside. -/
theorem incident_outside {ledger : IncidentLedger} {trace : IncidentTrace} {request : IncidentCall}
    {answer : request.Answer} (h : request.outside answer = some effect)
    (hreflects : ledger.Reflects trace)
    (hactive : ledger.locked = true → directory.content = ledger.active) :
    ∃ ledger', ledger.Observes request answer ledger' ∧
      ledger'.Reflects (trace ++ [⟨request, answer⟩]) ∧
      (ledger'.locked = true → directory.content = ledger'.active) := by
  cases request with
  | tryLockHost =>
      match answer with
      | .ok () =>
          exact ⟨{ ledger with locked := true, active := directory.content }, ⟨_, rfl⟩,
            hreflects.append rfl rfl, fun _ => rfl⟩
      | .error _ => exact ⟨ledger, rfl, hreflects.append rfl rfl, hactive⟩
  | releaseLock => exact ⟨{ ledger with locked := false }, rfl, hreflects.append rfl rfl, nofun⟩
  | check reviewed fresh =>
      match answer with
      | some .satisfied =>
          refine ⟨{ ledger with approved := some (reviewed, fresh) }, rfl, ?_, hactive⟩
          refine ⟨by rw [IncidentTrace.locked_append]; exact hreflects.locked, ?_⟩
          intro reviewed' fresh' happroved
          obtain ⟨rfl, rfl⟩ := Prod.mk.inj (Option.some.inj happroved)
          exact List.mem_append_right _ List.mem_cons_self
      | some (.violated _) => exact ⟨ledger, rfl, hreflects.append rfl rfl, hactive⟩
      | some (.unknown _) => exact ⟨ledger, rfl, hreflects.append rfl rfl, hactive⟩
      | none => exact ⟨ledger, rfl, hreflects.append rfl rfl, hactive⟩
  | inspect store => cases h
  | clear store attempt => cases h
  | _ => exact ⟨ledger, rfl, hreflects.append rfl rfl, hactive⟩

/-- The ledger of an incident function after an answer of the store. -/
theorem incident_leave {ledger : IncidentLedger} {trace : IncidentTrace} {request : IncidentCall}
    {answer : request.Answer} (hreflects : ledger.Reflects trace)
    (hleaves : request.Leaves ledger.active answer directory) :
    ∃ ledger', ledger.Observes request answer ledger' ∧
      ledger'.Reflects (trace ++ [⟨request, answer⟩]) ∧
      (ledger'.locked = true → directory.content = ledger'.active) := by
  cases request with
  | inspect store =>
      exact ⟨ledger, ⟨rfl, hleaves.2⟩, hreflects.append rfl rfl, fun _ => hleaves.1⟩
  | clear store attempt =>
      exact ⟨{ ledger with active := directory.content }, ⟨_, rfl⟩, hreflects.append rfl rfl,
        fun _ => rfl⟩
  | _ => exact hleaves.elim

/-- The store call of an incident function, from its start. -/
theorem incident_implementation_safe {request : IncidentCall}
    {inner : Program StoreCall StoreCall.Answer request.Answer}
    (h : request.implementation = some inner) :
    Safe (StoreAllows request.expected) Directory.Serves (request.Leaves directory.content) inner
      directory := by
  cases request with
  | inspect store =>
      obtain rfl := Option.some.inj h
      refine CheckpointStore.inspect_ends.safe ?_ ?_
      · rintro found store _ ⟨rfl, rfl⟩
        exact ⟨rfl, fun found' hfound => (Except.ok.inj hfound).symm⟩
      · rintro failure store _ rfl
        refine ⟨rfl, fun found hfound => ?_⟩
        cases hfound
  | clear store attempt =>
      obtain rfl := Option.some.inj h
      exact CheckpointStore.clear_ends.safe (fun _ _ _ _ => trivial) fun _ _ _ _ => trivial
  | _ => cases h

/-- The calls of an incident are implemented under the lock. -/
theorem incident_implementation_locked {review : Option IncidentReview} {ledger : IncidentLedger}
    {request : IncidentCall} {inner : Program StoreCall StoreCall.Answer request.Answer}
    (h : request.implementation = some inner) (hallows : ledger.Allows review request) :
    ledger.locked = true := by
  cases request with
  | inspect store => exact hallows
  | clear store attempt => exact hallows.1
  | _ => cases h

/-- An effect outside an incident moves the lock as its ledger sees it. -/
theorem incident_outside_moves {review : Option IncidentReview} {ledger : IncidentLedger}
    {trace : IncidentTrace} {request : IncidentCall} {answer : request.Answer}
    (h : request.outside answer = some effect) (hreflects : ledger.Reflects trace)
    (hallows : ledger.Allows review request) :
    effect.Moves trace.locked (IncidentTrace.locked (trace ++ [⟨request, answer⟩])) := by
  rw [IncidentTrace.locked_append, ← hreflects.locked]
  cases request with
  | tryLockHost =>
      match answer, h with
      | .ok (), rfl => exact .lock hallows rfl
      | .error _, rfl => exact .internal rfl
  | releaseLock =>
      cases h
      exact .release hallows rfl
  | inspect store => cases h
  | clear store attempt => cases h
  | _ =>
      cases h
      exact .internal rfl

theorem incident_outside_quiet {request : IncidentCall} {answer : request.Answer}
    (h : request.outside answer = some effect) : effect.Quiet := by
  cases request with
  | tryLockHost =>
      match answer, h with
      | .ok (), rfl => trivial
      | .error _, rfl => trivial
  | inspect store => cases h
  | clear store attempt => cases h
  | _ =>
      cases h
      trivial

/-- A store operation that clears nothing unlinks nothing. -/
theorem not_unlink_of_allows {call : StoreCall} (h : StoreAllows none directory call) :
    call ≠ .io .unlinkActive := by
  rintro rfl
  obtain ⟨attempt, hnone, -⟩ := h
  cases hnone

theorem ledger_eq_ledgerOf {trace : RuntimeTrace} {mode : CoordinatorMode} :
    CoordinatorSession.ledger ⟨trace, mode⟩ = ledgerOf trace :=
  rfl

theorem ledgerOf_append {trace : RuntimeTrace}
    {event : Program.Event RuntimeCall RuntimeCall.Answer} :
    ledgerOf (trace ++ [event]) = (ledgerOf trace).observe event := by
  simp [ledgerOf]

/-- **One step of one party** keeps its invariant. -/
theorem Party.Fits.step (h : party.Fits keys directory)
    (hstep : PartyStep texts party effect party')
    (hserves : effect.Serves directory directory') : party'.Fits keys directory' := by
  cases hstep with
  -- A call outside the store leaves the directory; the calls of the store move it one by one.
  | session hstep htrace =>
      obtain rfl : directory' = directory := hserves
      obtain ⟨owner, hsound, harmed⟩ := h
      refine ⟨owner, hsound.step hstep, ?_⟩
      rw [CoordinatorSession.ledger, htrace]
      exact harmed
  | @answer trace other request next effect answer houtside =>
      obtain rfl := (outside_quiet houtside).serves hserves
      obtain ⟨owner, hsound, harmed⟩ := h
      have hanswer : CoordinatorStep texts ⟨trace, .busy other (.call request next)⟩
          ⟨trace ++ [⟨request, answer⟩], .busy other (next answer)⟩ := .answer answer
      refine ⟨owner, hsound.step hanswer, fun hlocked attempt hnow => ?_⟩
      rw [ledger_eq_ledgerOf, ledgerOf_append] at hlocked hnow
      obtain ⟨hlocked, hnow⟩ := outside_armed houtside hsound.allows hlocked hnow
      exact harmed hlocked attempt hnow
  | enter himplementation =>
      obtain rfl : directory' = directory := hserves
      obtain ⟨owner, hsound, harmed⟩ := h
      have hlocked := implementation_locked himplementation hsound.allows
      exact ⟨owner, hsound, hlocked, fun _ => harmed hlocked, implementation_safe himplementation⟩
  | serve answer =>
      obtain ⟨owner, hsound, hlocked, harmed, hallows, hrest⟩ := h
      refine ⟨owner, hsound, hlocked, fun hnone attempt hnow => ?_, hrest answer _ hserves⟩
      rw [hnone] at hallows
      exact (harmed hnone attempt hnow).serves hserves (not_unlink_of_allows hallows)
  | @leave trace other request next answer =>
      obtain rfl := acknowledged_serves hserves
      obtain ⟨owner, hsound, hlocked, harmed, hleaves⟩ := h
      have hanswer : CoordinatorStep texts ⟨trace, .busy other (.call request next)⟩
          ⟨trace ++ [⟨request, answer⟩], .busy other (next answer)⟩ := .answer answer
      refine ⟨owner, hsound.step hanswer, fun _ attempt hnow => ?_⟩
      rw [ledger_eq_ledgerOf, ledgerOf_append] at hnow
      exact leave_armed harmed hleaves hnow
  -- The same four steps of a party that resolves an incident, with its ledger beside it.
  | incidentAnswer answer houtside =>
      obtain rfl := (incident_outside_quiet houtside).serves hserves
      obtain ⟨ledger, hreflects, hsafe, hactive⟩ := h
      obtain ⟨ledger', hobserves, hreflects', hactive'⟩ :=
        incident_outside houtside hreflects hactive
      exact ⟨ledger', hreflects', hsafe.2 answer ledger' hobserves, hactive'⟩
  | incidentEnter himplementation =>
      obtain rfl : directory' = directory := hserves
      obtain ⟨ledger, hreflects, hsafe, hactive⟩ := h
      have hlocked := incident_implementation_locked himplementation hsafe.1
      refine ⟨ledger, hreflects, hsafe, hlocked, ?_⟩
      rw [← hactive hlocked]
      exact incident_implementation_safe himplementation
  | incidentServe answer =>
      obtain ⟨ledger, hreflects, hsafe, hlocked, -, hrest⟩ := h
      exact ⟨ledger, hreflects, hsafe, hlocked, hrest answer _ hserves⟩
  | incidentLeave =>
      obtain rfl : directory' = directory := hserves
      obtain ⟨ledger, hreflects, hsafe, -, hleaves⟩ := h
      obtain ⟨ledger', hobserves, hreflects', hactive'⟩ := incident_leave hreflects hleaves
      exact ⟨ledger', hreflects', hsafe.2 _ ledger' hobserves, hactive'⟩

theorem Party.Fits.moves (h : party.Fits keys directory)
    (hstep : PartyStep texts party effect party') : effect.Moves party.locked party'.locked := by
  cases hstep with
  | session hstep htrace =>
      refine .internal ?_
      simp only [Party.locked, CoordinatorSession.ledger, htrace]
  | answer answer houtside =>
      obtain ⟨owner, hsound, -⟩ := h
      have hmoves := outside_moves houtside hsound.allows
      rw [← ledgerOf_append] at hmoves
      exact hmoves
  | enter himplementation => exact .internal rfl
  | serve answer => exact .system h.choose_spec.2.1 h.choose_spec.2.1
  | @leave trace other request next answer =>
      obtain ⟨owner, hsound, hlocked, harmed, hleaves⟩ := h
      rw [Party.locked, Party.locked, ledger_eq_ledgerOf, ledgerOf_append]
      exact acknowledged_moves hleaves
  | incidentAnswer answer houtside =>
      obtain ⟨ledger, hreflects, hsafe, -⟩ := h
      exact incident_outside_moves houtside hreflects hsafe.1
  | incidentEnter himplementation => exact .internal rfl
  | incidentServe answer =>
      obtain ⟨ledger, hreflects, -, hlocked, -⟩ := h
      exact .system (hreflects.locked.symm.trans hlocked) (hreflects.locked.symm.trans hlocked)
  | @incidentLeave review trace request next answer =>
      obtain ⟨ledger, hreflects, hsafe, -, hleaves⟩ := h
      refine .internal ?_
      rw [Party.locked, Party.locked, IncidentTrace.locked_append]
      cases request with
      | inspect store => rfl
      | clear store attempt => rfl
      | _ => exact hleaves.elim

theorem Party.Fits.armed {attempt : ActiveAttempt} (h : party.Fits keys directory)
    (hstep : PartyStep texts party effect party') (heffect : effect = .armed attempt) :
    directory.Holds attempt := by
  cases hstep with
  | answer answer houtside => exact (heffect ▸ outside_quiet houtside : (Effect.armed _).Quiet).elim
  | incidentAnswer answer houtside =>
      exact (heffect ▸ incident_outside_quiet houtside : (Effect.armed _).Quiet).elim
  | leave =>
      obtain ⟨owner, hsound, hlocked, harmed, hleaves⟩ := h
      exact acknowledged_holds hleaves heffect
  | _ => cases heffect

/-- **A file that disappears was removed by a party that may do so.** -/
theorem Party.Fits.removes {attempt : ActiveAttempt} (h : party.Fits keys directory)
    (hstep : PartyStep texts party effect party') (hserves : effect.Serves directory directory')
    (hcontent : directory.content = some attempt) (hgone : directory'.content ≠ some attempt) :
    MayRemove attempt party := by
  have hchanged : directory' ≠ directory := fun hsame => hgone (hsame ▸ hcontent)
  have hunlink : ∀ {call : StoreCall} {answer : call.Answer} {expected : Option ActiveAttempt},
      directory.Serves call answer directory' → StoreAllows expected directory call →
      expected = some attempt := by
    intro call answer expected hserves hallows
    by_cases hcall : call = .io .unlinkActive
    · subst hcall
      obtain ⟨other, hexpected, hother⟩ := hallows
      exact hexpected.trans (hother.symm.trans hcontent)
    · have hactive := (hserves.active (Directory.active_ne_none hcontent) hcall).1
      refine absurd ?_ hgone
      rw [Directory.content, hactive]
      exact hcontent
  cases hstep with
  | session hstep htrace => exact absurd hserves hchanged
  | answer answer houtside => exact absurd ((outside_quiet houtside).serves hserves) hchanged
  | enter himplementation => exact absurd hserves hchanged
  | @serve trace other request next call rest answer =>
      obtain ⟨owner, hsound, hlocked, harmed, hallows, hrest⟩ := h
      have hexpected := hunlink hserves hallows
      cases request with
      | clear store other =>
          obtain rfl := Option.some.inj hexpected
          obtain ⟨-, -, run, hpublished, hverified⟩ := hsound.allows
          exact .verified hpublished hverified
      | _ => cases hexpected
  | leave => exact absurd (acknowledged_serves hserves) hchanged
  | incidentAnswer answer houtside =>
      exact absurd ((incident_outside_quiet houtside).serves hserves) hchanged
  | incidentEnter himplementation => exact absurd hserves hchanged
  | @incidentServe review trace request next call rest answer =>
      obtain ⟨ledger, hreflects, hsafe, hlocked, hallows, hrest⟩ := h
      have hexpected := hunlink hserves hallows
      cases request with
      | clear store other =>
          obtain rfl := Option.some.inj hexpected
          obtain ⟨-, reviewed, rfl, hreviewed, fresh, happroved, hfresh, hsame⟩ := hsafe.1
          exact .acknowledged hreviewed hfresh hsame (hreflects.approved _ _ happroved)
      | _ => cases hexpected
  | incidentLeave => exact absurd hserves hchanged

/-- A new coordinator fits any directory. -/
theorem Party.Fits.new {run : ExecutionRun} (h : Reachable keys run) :
    (Party.coordinator (.new run)).Fits keys directory :=
  ⟨run.runId, .new h, nofun⟩

/-- So does a new call of an incident function. -/
theorem Party.Fits.newIncident (function : IncidentFunction) :
    (Party.incident function.given [] (function.body.start ())).Fits keys directory := by
  have hends : IncidentM.Ends function.given (fun _ ledger => ledger.locked = false)
      (fun ledger => ledger.locked = false) function.body {} := by
    cases function with
    | inspect => exact .bind (IncidentM.inspectIncident_ends rfl) fun _ _ _ h => h
    | review => exact .bind (IncidentM.reviewIncident_ends rfl) fun _ _ _ h => h
    | acknowledge reviewed confirmation =>
        exact .bind (IncidentM.acknowledgeIncident_ends rfl) fun _ _ _ h => h
  have hsafe : IncidentSafe function.given (function.body.start ()) {} :=
    hends.safe (fun _ _ _ h => h) fun _ _ _ h => h
  refine ⟨{}, ⟨rfl, fun _ _ h => ?_⟩, hsafe, fun h => ?_⟩
  · cases h
  · cases h

end Party

/-! ### The whole -/

/-- The invariant of the world. -/
structure World.Sound (keys : ContractKeys) (world : World) : Prop where
  fits : ∀ index party, world.parties index = some party → party.Fits keys world.directory
  held : ∀ index party, world.parties index = some party → party.locked = true →
    world.holder = some index
  armed : ∀ attempt, Outstanding attempt world.history → world.directory.Holds attempt

section World

variable {keys : ContractKeys} {texts : CoordinatorText} {world world' : World}

theorem World.Sound.initial {directory : Directory} : (World.initial directory).Sound keys where
  fits _ _ h := nomatch h
  held _ _ h := nomatch h
  armed _ h := h.elim

/-- The parties after one of them changes. -/
theorem update_cases {parties : Nat → Option Party} {index other : Nat} {slot : Option Party}
    {party : Party} (h : Function.update parties index slot other = some party) :
    other = index ∧ slot = some party ∨ other ≠ index ∧ parties other = some party := by
  by_cases heq : other = index
  · subst heq
    rw [Function.update_self] at h
    exact .inl ⟨rfl, h⟩
  · rw [Function.update_of_ne heq] at h
    exact .inr ⟨heq, h⟩

/-- What is outstanding after a change was outstanding before it, and is still there. -/
theorem outstanding_recordChange {before after : Directory} {history : List WorldEvent}
    {attempt : ActiveAttempt}
    (hbefore : ∀ attempt, Outstanding attempt history → before.Holds attempt)
    (h : Outstanding attempt (recordChange before after history)) :
    before.Holds attempt ∧ after.content = some attempt := by
  rw [recordChange] at h
  split at h
  · next other hcontent =>
    split at h
    · next hkept =>
      have hholds := hbefore attempt h
      obtain rfl := Option.some.inj (hcontent.symm.trans hholds.active)
      exact ⟨hholds, hkept⟩
    · obtain ⟨hne, hold⟩ := h
      exact absurd (Option.some.inj ((hbefore attempt hold).active.symm.trans hcontent)) hne
  · next hcontent => exact absurd (hcontent.symm.trans (hbefore attempt h).active) nofun

/-- A new party. -/
theorem World.Sound.start {index : Nat} {party : Party} (h : world.Sound keys)
    (hfits : party.Fits keys world.directory) (hlocked : party.locked = false) :
    World.Sound keys
      { world with parties := Function.update world.parties index (some party) } where
  fits other party' hparty := by
    rcases update_cases hparty with ⟨rfl, hslot⟩ | ⟨-, hold⟩
    · exact Option.some.inj hslot ▸ hfits
    · exact h.fits other party' hold
  held other party' hparty hlocked' := by
    rcases update_cases hparty with ⟨rfl, hslot⟩ | ⟨-, hold⟩
    · obtain rfl := Option.some.inj hslot
      exact absurd (hlocked.symm.trans hlocked') nofun
    · exact h.held other party' hold hlocked'
  armed := h.armed

/-- A step of one party keeps the others. -/
theorem World.Sound.act {index : Nat} {party party' : Party} {effect : Effect}
    {directory : Directory} (h : world.Sound keys) (hparty : world.parties index = some party)
    (hstep : PartyStep texts party effect party')
    (hserves : effect.Serves world.directory directory)
    (hlock : effect = .lock → world.holder = none) :
    World.Sound keys {
      directory
      holder := effect.holder index world.holder
      parties := Function.update world.parties index (some party')
      history := effect.record world.directory directory world.history } := by
  have hfits := h.fits index party hparty
  have hmoves := hfits.moves hstep
  -- A party with the lock excludes every other one.
  have hothers : ∀ other party, other ≠ index → world.parties other = some party →
      world.holder = some index → party.locked = false := by
    intro other party hne hold hholder
    refine Bool.eq_false_iff.mpr fun hlocked => hne ?_
    exact Option.some.inj ((h.held other party hold hlocked).symm.trans hholder)
  refine ⟨fun other party'' hnow => ?_, fun other party'' hnow hlocked => ?_, ?_⟩
  · rcases update_cases hnow with ⟨rfl, hslot⟩ | ⟨hne, hold⟩
    · exact Option.some.inj hslot ▸ hfits.step hstep hserves
    · cases effect with
      | system call answer =>
          cases hmoves with
          | system hlocked _ =>
              have hholder := h.held index party hparty hlocked
              exact (h.fits other party'' hold).frame (hothers other party'' hne hold hholder)
      | _ =>
          obtain rfl : directory = world.directory := hserves
          exact h.fits other party'' hold
  · rcases update_cases hnow with ⟨rfl, hslot⟩ | ⟨hne, hold⟩
    · obtain rfl := Option.some.inj hslot
      cases hmoves with
      | internal hsame => exact h.held other party hparty (hsame ▸ hlocked)
      | lock _ _ => rfl
      | release _ hreleased => exact absurd (hreleased.symm.trans hlocked) nofun
      | system hwas _ => exact h.held other party hparty hwas
      | armed hsame => exact h.held other party hparty (hsame ▸ hlocked)
    · have hholder := h.held other party'' hold hlocked
      cases hmoves with
      | lock _ _ => exact absurd (hholder.symm.trans (hlock rfl)) nofun
      | release hwas _ =>
          have hfree := hothers other party'' hne hold (h.held index party hparty hwas)
          exact absurd (hfree.symm.trans hlocked) nofun
      | _ => exact hholder
  · intro attempt houtstanding
    cases effect with
    | armed other =>
        obtain rfl : directory = world.directory := hserves
        rcases houtstanding with rfl | hold
        · exact hfits.armed hstep rfl
        · exact h.armed attempt hold
    | system call answer =>
        obtain ⟨hholds, hcontent⟩ := outstanding_recordChange h.armed houtstanding
        exact hholds.kept hserves hcontent
    | _ =>
        obtain rfl : directory = world.directory := hserves
        exact (outstanding_recordChange h.armed houtstanding).1

theorem World.Sound.step {actor : Option Nat} (h : world.Sound keys)
    (hstep : WorldStep keys texts actor world world') : world'.Sound keys := by
  cases hstep with
  | start index hfree hrun => exact h.start (.new hrun) rfl
  | startIncident index function hfree => exact h.start (.newIncident function) rfl
  | act hparty hstep hserves hlock => exact h.act hparty hstep hserves hlock
  | crash index =>
      refine ⟨fun other party hparty => ?_, fun other party hparty hlocked => ?_, h.armed⟩
      · rcases update_cases hparty with ⟨-, hslot⟩ | ⟨-, hold⟩
        · cases hslot
        · exact h.fits other party hold
      · rcases update_cases hparty with ⟨-, hslot⟩ | ⟨hne, hold⟩
        · cases hslot
        · have hholder := h.held other party hold hlocked
          rw [if_neg fun hindex => hne (Option.some.inj (hholder.symm.trans hindex))]
          exact hholder
  | powerFailure hrecovers =>
      refine ⟨fun _ _ h => (nomatch h), fun _ _ h => (nomatch h), fun attempt houtstanding => ?_⟩
      exact (outstanding_recordChange h.armed houtstanding).1.recovers hrecovers

/-- **Every world reached is sound.** -/
theorem World.Sound.later (h : world.Sound keys) (hlater : WorldLater keys texts world world') :
    world'.Sound keys := by
  induction hlater with
  | refl => exact h
  | tail _ hstep ih => exact ih.step hstep.choose_spec

/-- A coordinator that waits for the dispatcher holds the lock, and its checkpoint is the active
file. -/
theorem World.Sound.invokes {index : Nat} {session : CoordinatorSession} {run : ExecutionRun}
    {action : ResolvedAction} (h : world.Sound keys)
    (hparty : world.parties index = some (.coordinator session))
    (hinvokes : session.Invokes run action) :
    world.holder = some index ∧
      ∃ attempt, world.directory.Holds attempt ∧ Ledger.Names attempt run action := by
  obtain ⟨other, next, hmode⟩ := hinvokes
  obtain ⟨trace, mode⟩ := session
  obtain rfl : mode = .busy other (.call (.execute run action) next) := hmode
  obtain ⟨owner, hsound, hholds⟩ := h.fits index _ hparty
  have hdispatch : (ledgerOf trace).MayDispatch owner run action := hsound.allows
  obtain ⟨attempt, harmed, hnames⟩ := hdispatch.armed
  exact ⟨h.held index _ hparty hdispatch.locked, attempt,
    hholds hdispatch.locked attempt harmed, hnames⟩

/-- Who takes a file away. -/
theorem World.Sound.removes {actor : Option Nat} {attempt : ActiveAttempt} (h : world.Sound keys)
    (hstep : WorldStep keys texts actor world world')
    (hcontent : world.directory.content = some attempt)
    (hgone : world'.directory.content ≠ some attempt) :
    (∃ index party, actor = some index ∧ world.parties index = some party ∧
      MayRemove attempt party) ∨
    actor = none ∧ ¬Outstanding attempt world.history := by
  cases hstep with
  | start index hfree hrun => exact absurd hcontent hgone
  | startIncident index function hfree => exact absurd hcontent hgone
  | @act _ index party party' effect directory hparty hstep hserves hlock =>
      have hremoves := (h.fits index party hparty).removes hstep hserves hcontent hgone
      exact .inl ⟨index, party, rfl, hparty, hremoves⟩
  | crash index => exact absurd hcontent hgone
  | powerFailure hrecovers =>
      refine .inr ⟨rfl, fun houtstanding => hgone ?_⟩
      exact ((h.armed attempt houtstanding).recovers hrecovers).active

end World

/-- **The checkpoint protocol.**  For every interleaving of coordinators and incident functions on
one root, with a kill, an I/O error or a power failure at every system call of the store:

* an attempt whose `arm` returned is the one in the active file until that file is removed, over
  power failures too, so there is never a second one;
* the active file is removed only by a coordinator whose published run has the action verified, or
  by the acknowledgment of exactly this reviewed attempt with an unchanged observation and a
  satisfied policy; a power failure can only undo an `arm` that never returned;
* a coordinator that calls the dispatcher holds the lock, and the active file names its call. -/
theorem checkpoint_protocol {keys : ContractKeys} {texts : CoordinatorText} {directory : Directory}
    {world : World} (h : WorldLater keys texts (.initial directory) world) :
    (∀ attempt, Outstanding attempt world.history → world.directory.Holds attempt ∧
      ∀ other, Outstanding other world.history → other = attempt) ∧
    (∀ actor world' attempt, WorldStep keys texts actor world world' →
      world.directory.content = some attempt → world'.directory.content ≠ some attempt →
      (∃ index party, actor = some index ∧ world.parties index = some party ∧
        MayRemove attempt party) ∨
      actor = none ∧ ¬Outstanding attempt world.history) ∧
    ∀ index session run action, world.parties index = some (.coordinator session) →
      session.Invokes run action → world.holder = some index ∧
      ∃ attempt, world.directory.Holds attempt ∧ Ledger.Names attempt run action := by
  have hsound : world.Sound keys := World.Sound.initial.later h
  refine ⟨fun attempt houtstanding => ⟨hsound.armed attempt houtstanding, ?_⟩, ?_, ?_⟩
  · intro other hother
    exact Option.some.inj ((hsound.armed other hother).active.symm.trans
      (hsound.armed attempt houtstanding).active)
  · exact fun actor world' attempt hstep hcontent hgone => hsound.removes hstep hcontent hgone
  · exact fun index session run action hparty hinvokes => hsound.invokes hparty hinvokes

/-! ### A coordinator on its own -/

/-- One party, and nobody else. -/
def World.alone (directory : Directory) (holder : Option Nat) (party : Party)
    (history : List WorldEvent) : World :=
  ⟨directory, holder, Function.update (fun _ => none) 0 (some party), history⟩

/-- The world after an effect of the only party; a lock that is held is not granted. -/
def granted (directory : Directory) (holder : Option Nat) (party : Party) :
    Effect → Option (Directory × Option Nat × Party)
  | .lock => if holder = none then some (directory, some 0, party) else none
  | effect => some (directory, effect.holder 0 holder, party)

/-- The next step of a coordinator that is alone with a system without faults. -/
def soloStep (texts : CoordinatorText) (answers : (call : RuntimeCall) → call.Answer)
    (directory : Directory) (holder : Option Nat) :
    Party → Option (Directory × Option Nat × Party)
  | .coordinator ⟨trace, .busy other (.call request next)⟩ =>
      match request.implementation texts.encoding with
      | some inner => some (directory, holder, .storing trace other request next inner)
      | none => request.outside (answers request) >>= granted directory holder (.coordinator
          ⟨trace ++ [⟨request, answers request⟩], .busy other (next (answers request))⟩)
  | .storing trace other request next (.call call rest) =>
      some ((directory.serve call).2, holder,
        .storing trace other request next (rest (directory.serve call).1))
  | .storing trace other request next (.ret answer) =>
      granted directory holder (.coordinator
        ⟨trace ++ [⟨request, answer⟩], .busy other (next answer)⟩) (request.acknowledged answer)
  | _ => none

section Solo

variable {keys : ContractKeys} {texts : CoordinatorText}
  {answers : (call : RuntimeCall) → call.Answer} {directory directory' : Directory}
  {holder holder' : Option Nat} {party party' : Party} {history : List WorldEvent}

theorem granted_eq_some {after : Party} {effect : Effect}
    (h : granted directory holder after effect = some (directory', holder', party')) :
    directory' = directory ∧ party' = after ∧ effect.holder 0 holder = holder' ∧
      (effect = .lock → holder = none) := by
  cases effect with
  | lock =>
      rw [granted] at h
      split at h
      · next hfree =>
        cases h
        exact ⟨rfl, rfl, rfl, fun _ => hfree⟩
      · cases h
  | _ =>
      cases h
      exact ⟨rfl, rfl, rfl, nofun⟩

theorem alone_party : (World.alone directory holder party history).parties 0 = some party := by
  simp only [World.alone, Function.update_self]

/-- An effect of the only party is a step of the world. -/
theorem alone_act {effect : Effect} (hstep : PartyStep texts party effect party')
    (hserves : effect.Serves directory directory') (hholder : effect.holder 0 holder = holder')
    (hlock : effect = .lock → holder = none) :
    ∃ history', WorldStep keys texts (some 0) (.alone directory holder party history)
      (.alone directory' holder' party' history') := by
  have hworld := @WorldStep.act keys texts (.alone directory holder party history) 0 party party'
    effect directory' alone_party hstep hserves hlock
  have hparties : Function.update (World.alone directory holder party history).parties 0
      (some party') = Function.update (fun _ => none) 0 (some party') :=
    Function.update_idem _ _ _
  rw [hparties] at hworld
  exact ⟨_, hholder ▸ hworld⟩

/-- The steps of a coordinator on its own are steps of the world. -/
theorem soloStep_step
    (h : soloStep texts answers directory holder party = some (directory', holder', party')) :
    ∃ history', WorldStep keys texts (some 0) (.alone directory holder party history)
      (.alone directory' holder' party' history') := by
  cases party with
  | coordinator session =>
      obtain ⟨trace, mode⟩ := session
      cases mode with
      | idle coordinator run => cases h
      | busy other program =>
          cases program with
          | ret result => cases h
          | call request next =>
              rw [soloStep] at h
              split at h
              · next inner himplementation =>
                cases h
                exact alone_act (.enter himplementation) rfl rfl nofun
              · obtain ⟨effect, houtside, hgranted⟩ := Option.bind_eq_some_iff.mp h
                obtain ⟨rfl, rfl, hholder, hlock⟩ := granted_eq_some hgranted
                exact alone_act (.answer _ houtside) (outside_quiet houtside).rest hholder hlock
  | storing trace other request next inner =>
      cases inner with
      | call call rest =>
          cases h
          exact alone_act (.serve _) (Directory.serve_serves _ _) rfl nofun
      | ret answer =>
          obtain ⟨rfl, rfl, hholder, hlock⟩ := granted_eq_some h
          exact alone_act .leave acknowledged_rest hholder hlock
  | _ => cases h

end Solo

/-- A host without an incident. -/
def sampleDirectory : Directory := ⟨none, fun _ => none, [none]⟩

/-- The creation of a volume on its own, after some steps. -/
def sampleVolumeAlone : Nat → Option (Directory × Option Nat × Party)
  | 0 => some (sampleDirectory, none, .coordinator ⟨[], .busy none
      ((CoordinatorCall.executeAction ⟨0⟩ none).program sampleTexts
        ⟨.new sampleVolumeRun, sampleVolumeRun⟩)⟩)
  | n + 1 => sampleVolumeAlone n >>= fun (directory, holder, party) =>
      soloStep sampleTexts sampleAnswers directory holder party

/-- The sample's steps lead through reachable worlds. -/
theorem sampleVolumeAlone_later {n : Nat} {directory : Directory} {holder : Option Nat}
    {party : Party} (h : sampleVolumeAlone n = some (directory, holder, party)) :
    ∃ history, WorldLater sampleVolumeKeys sampleTexts (.initial sampleDirectory)
      (.alone directory holder party history) := by
  induction n generalizing directory holder party with
  | zero =>
      cases h
      have hstart : WorldStep sampleVolumeKeys sampleTexts none (.initial sampleDirectory)
          (.alone sampleDirectory none (.coordinator (.new sampleVolumeRun)) []) :=
        .start 0 rfl reachable_sampleVolumeRun
      obtain ⟨history, hinvoke⟩ := alone_act (.session (.invoke (.executeAction ⟨0⟩ none)) rfl) rfl
        rfl nofun
      exact ⟨history, .tail (.single ⟨_, hstart⟩) ⟨_, hinvoke⟩⟩
  | succ n ih =>
      obtain ⟨⟨before, holder', party'⟩, hbefore, hstep⟩ := Option.bind_eq_some_iff.mp h
      obtain ⟨history, hlater⟩ := ih hbefore
      obtain ⟨history', hstep⟩ := soloStep_step hstep
      exact ⟨history', hlater.tail ⟨_, hstep⟩⟩

/-- The action that the party waits for. -/
def Party.invoked : Party → Option (CoordinatorSession × ExecutionRun × ResolvedAction)
  | .coordinator session => session.invoked.map (session, ·)
  | _ => none

/-- Its twenty-third step is the call of the dispatcher. -/
theorem sample_volume_checkpointed :
    ∃ world session current action attempt,
      WorldLater sampleVolumeKeys sampleTexts (.initial sampleDirectory) world ∧
      world.parties 0 = some (.coordinator session) ∧ session.Invokes current action ∧
      world.holder = some 0 ∧ world.directory.Holds attempt ∧
      attempt.actionId = action.actionId := by
  have hsome : ((sampleVolumeAlone 23).bind fun state => state.2.2.invoked).isSome = true := rfl
  obtain ⟨⟨session, current, action⟩, hinvoked⟩ := Option.isSome_iff_exists.mp hsome
  obtain ⟨⟨directory, holder, party⟩, halone, hparty⟩ := Option.bind_eq_some_iff.mp hinvoked
  obtain ⟨history, hlater⟩ := sampleVolumeAlone_later halone
  cases party with
  | coordinator session' =>
      obtain ⟨⟨run, chosen⟩, hpair, heq⟩ := Option.map_eq_some_iff.mp hparty
      cases heq
      have hinvokes := CoordinatorSession.invokes_of_invoked hpair
      obtain ⟨hholder, attempt, hholds, hnames⟩ :=
        (checkpoint_protocol hlater).2.2 0 session current action alone_party hinvokes
      exact ⟨_, session, current, action, attempt, hlater, alone_party, hinvokes, hholder, hholds,
        hnames.actionId⟩
  | _ => cases hparty

end DisksGraph
