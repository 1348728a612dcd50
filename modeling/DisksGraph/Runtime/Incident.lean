import DisksGraph.Runtime.Store
import DisksGraph.Wire.Observation

/-!
# Runtime — Incident

Inspection, review and acknowledgment of one interrupted attempt (`incident.rs`).

The functions are programs over the lock, the store, the provider pass, the identity of the
directory, the challenge of a review and the acknowledgment policy.

* `IncidentLedger`: what the calls say, next to the attempt in the active file, which nobody else
  can change while the lock is held.
* `acknowledgeIncident_ends`: the checkpoint is cleared only for the reviewed attempt, after a
  satisfied policy check on an unchanged observation.
-/

namespace DisksGraph

open Support (Effectful Failure Program)

/-- Inspection failures preserve the incident marker and block new execution. -/
inductive IncidentError where
  | lease (error : LeaseError)
  | checkpoint (error : CheckpointError)
  | confirmationMismatch
  | changed
  | wrongRoot
  | safety (status : LiveCheckStatus)
  | document (error : PlanDocumentError)
  | probe (error : ObservationError)
deriving DecidableEq

/-- Observed diagnostic compatibility, not proof of causality, completion, or backend quiescence. -/
inductive IncidentAssessment where
  | effectObserved
  | indeterminate
deriving DecidableEq, Repr

/-- One active attempt inspected against an actual provider pass while the shared lock was held. -/
structure IncidentInspection where
  attempt : ActiveAttempt
  freshState : HeldObservation
  assessment : IncidentAssessment

/-- One immutable inspection and its explicit confirmation token, tied to the actual root inode. -/
structure IncidentReview where
  inspection : IncidentInspection
  token : Uuid
  directory : Nat × Nat

/-! ### Assessment -/

namespace ExternalId

/-- Whether the identity is a logical volume's UUID. -/
def isLvmLvUuid : ExternalId → Bool
  | .lvmLvUuid _ => true
  | _ => false

/-- Whether it is one without surrounding blanks. -/
def isTrimmedLvUuid : ExternalId → Bool
  | .lvmLvUuid uuid => isTrimmedText uuid
  | _ => false

end ExternalId

/-- The LVs of a name that a VG provides. -/
def providedLvs (graph : NodeGraph) (vg : NodeId) (name : String) : List (NodeId × LvmLv × Node) :=
  graph.dependencies.filterMap fun edge =>
    if edge.source = vg ∧ edge.kind = .provides then
      (graph.node edge.target).bind fun node =>
        match node.kind.kind with
        | .lvmLv lv => if lv.name = name then some (edge.target, lv, node) else none
        | _ => none
    else none

/-- The LV has the requested geometry and layout, one parent and one unique UUID. -/
def isRequestedLv (graph : NodeGraph) (id : NodeId) (lv : LvmLv) (node : Node) (size : Bytes)
    (layout : LvmLvKind) : Bool :=
  node.size.presence == .present && node.kind.size == some size && lv.kind == layout &&
    graph.dependencies.countP (fun edge => edge.target == id) == 1 &&
    node.size.identities.countP ExternalId.isLvmLvUuid == 1 &&
    match node.size.identities.filter ExternalId.isTrimmedLvUuid with
    | [identity] => (graph.carriers identity).length == 1
    | _ => false

/-- Recognizes only a unique UUID-qualified VG and an LV with the exact requested geometry and
layout. -/
def assess (attempt : ActiveAttempt) (observed : LiveObservation) : IncidentAssessment :=
  let graph := observed.snapshot.graph
  if observed.snapshot.diagnostics.any (·.severity != .warning) then .indeterminate
  else match attempt.action with
    | .lvm (.createLv vg _ name size layout) =>
        match attempt.targets.find? fun target => target.plannedId == vg with
        | none => .indeterminate
        | some fingerprint =>
            match fingerprint.externalIds.filter ExternalId.isLvmVgUuid with
            | [identity] =>
                match graph.carriers identity with
                | [(vgId, node)] =>
                    if node.size.presence != .present || !node.kind.kind.isLvmVg ||
                        node.size.identities.countP ExternalId.isLvmVgUuid != 1 then .indeterminate
                    else match providedLvs graph vgId name with
                      | [(id, lv, lvNode)] =>
                          if isRequestedLv graph id lv lvNode size layout then .effectObserved
                          else .indeterminate
                      | _ => .indeterminate
                | _ => .indeterminate
            | _ => .indeterminate
    | _ => .indeterminate

/-- The observation has not changed between two inspections. -/
def IncidentInspection.sameObservations (reviewed fresh : IncidentInspection) :
    Except PlanDocumentError Bool :=
  hasSameObservations (normalizedObservation reviewed.freshState)
    (normalizedObservation fresh.freshState)

/-! ### The functions -/

/-- The calls of an incident function. -/
inductive IncidentCall where
  | tryLockHost
  | releaseLock
  | directoryIdentity
  | inspect (store : CheckpointStore)
  | collect
  | newToken
  | check (reviewed fresh : IncidentInspection)
  | clear (store : CheckpointStore) (attempt : ActiveAttempt)

/-- What they answer. -/
def IncidentCall.Answer : IncidentCall → Type
  | .tryLockHost => Except (Failure LeaseError) Unit
  | .releaseLock => Unit
  | .directoryIdentity => Except String (Nat × Nat)
  | .inspect _ => Except (Failure CheckpointError) (Option ActiveAttempt) × CheckpointStore
  | .collect => Except (Failure ObservationError) HeldObservation
  | .newToken => Uuid
  | .check .. => Option LiveCheckStatus
  | .clear .. => Except (Failure CheckpointError) Unit × CheckpointStore

/-- An incident function. -/
abbrev IncidentM : Type → Type :=
  Effectful IncidentCall IncidentCall.Answer IncidentError Unit

/-- Makes one call. -/
def IncidentCall.ask (call : IncidentCall) : IncidentM call.Answer := Effectful.ask call

namespace IncidentM

/-- Runs a body while the host lock is held. -/
def withHostLock {α : Type} (body : IncidentM α) : IncidentM α := do
  let answer : Except (Failure LeaseError) Unit ← IncidentCall.tryLockHost.ask
  Effectful.returned .lease answer
  body.ensuring (Program.ask IncidentCall.releaseLock)

/-- `store.inspect()?`. -/
def inspect (store : CheckpointStore) : IncidentM (Option ActiveAttempt × CheckpointStore) := do
  let answer : Except (Failure CheckpointError) (Option ActiveAttempt) × CheckpointStore ←
    (IncidentCall.inspect store).ask
  let active ← Effectful.returned .checkpoint answer.1
  return (active, answer.2)

/-- Shares the same read and probe ordering with explicit review and acknowledgment under an
existing lock. -/
def inspectLocked (store : CheckpointStore) :
    IncidentM (Option IncidentInspection × CheckpointStore) := do
  match ← inspect store with
  | (none, store) => return (none, store)
  | (some attempt, store) => do
      let answer : Except (Failure ObservationError) HeldObservation ← IncidentCall.collect.ask
      let freshState ← Effectful.returned .probe answer
      return (some ⟨attempt, freshState, assess attempt freshState.observation⟩, store)

/-- Pins reviews to the checked directory, even if identical marker contents are copied
elsewhere. -/
def directoryIdentity : IncidentM (Nat × Nat) := do
  let answer : Except String (Nat × Nat) ← IncidentCall.directoryIdentity.ask
  Effectful.lift (fun message => .lease (.io message)) answer

/-- Inspects under the ordinary host lock without reconstructing a run or invoking a backend. -/
def inspectIncident : IncidentM (Option IncidentInspection) :=
  withHostLock do
    let result ← inspectLocked .new
    return result.1

/-- Opens a new review without granting permission to clear or retry any action. -/
def reviewIncident : IncidentM (Option IncidentReview) :=
  withHostLock do
    let directory ← directoryIdentity
    match ← inspectLocked .new with
    | (none, _) => return none
    | (some inspection, _) => do
        let token : Uuid ← IncidentCall.newToken.ask
        return some ⟨inspection, token, directory⟩

/-- `store.inspect()?.as_ref() != Some(&reviewed)`. -/
def requireAttempt (store : CheckpointStore) (reviewed : ActiveAttempt) :
    IncidentM CheckpointStore := do
  let (active, store) ← inspect store
  Effectful.reject (active ≠ some reviewed) .changed
  return store

/-- A fresh inspection, with the reviewed observation. -/
def requireUnchanged (store : CheckpointStore) (reviewed : IncidentInspection) :
    IncidentM (IncidentInspection × CheckpointStore) := do
  let (found, store) ← inspectLocked store
  match found with
  | none => Effectful.fail .changed
  | some fresh => do
      let same ← Effectful.lift .document (reviewed.sameObservations fresh)
      Effectful.reject (same = false) .changed
      return (fresh, store)

/-- The trusted policy on the reviewed and the fresh state. -/
def requireSafe (reviewed fresh : IncidentInspection) : IncidentM Unit := do
  let answer : Option LiveCheckStatus ← (IncidentCall.check reviewed fresh).ask
  let status ← Effectful.unwrap answer
  Effectful.reject (status ≠ .satisfied) (.safety status)

/-- `store.clear(&attempt)?`. -/
def clear (store : CheckpointStore) (attempt : ActiveAttempt) : IncidentM Unit := do
  let answer : Except (Failure CheckpointError) Unit × CheckpointStore ←
    (IncidentCall.clear store attempt).ask
  Effectful.returned .checkpoint answer.1

/-- The part of an acknowledgment that holds the lock. -/
def acknowledgeLocked (review : IncidentReview) : IncidentM IncidentInspection := do
  let directory ← directoryIdentity
  Effectful.reject (directory ≠ review.directory) .wrongRoot
  let store ← requireAttempt .new review.inspection.attempt
  let (fresh, store) ← requireUnchanged store review.inspection
  requireSafe review.inspection fresh
  -- Trusted callbacks cannot accidentally authorize a replacement with the same identities.
  let store ← requireAttempt store review.inspection.attempt
  clear store fresh.attempt
  return fresh

/-- Consumes conscious confirmation, re-probes, and clears only the unchanged reviewed incident. -/
def acknowledgeIncident (review : IncidentReview) (confirmation : Uuid) :
    IncidentM IncidentInspection := do
  Effectful.reject (confirmation ≠ review.token) .confirmationMismatch
  withHostLock (acknowledgeLocked review)

end IncidentM

/-! ### What an acknowledgment clears -/

/-- What the calls say, next to the attempt in the active file while the lock is held. -/
structure IncidentLedger where
  locked : Bool := false
  active : Option ActiveAttempt := none
  approved : Option (IncidentInspection × IncidentInspection) := none

namespace IncidentLedger

/-- A call and its answer.  Nobody else changes the active file while the lock is held, so an
inspection that succeeds returns its attempt; a clear may leave anything. -/
def Observes (ledger : IncidentLedger) :
    (call : IncidentCall) → call.Answer → IncidentLedger → Prop
  | .tryLockHost, answer, ledger' =>
      match (answer : Except (Failure LeaseError) Unit) with
      | .ok () => ∃ active, ledger' = { ledger with locked := true, active }
      | .error _ => ledger' = ledger
  | .releaseLock, _, ledger' => ledger' = { ledger with locked := false }
  | .inspect _, answer, ledger' =>
      ledger' = ledger ∧ ∀ found,
        (answer : Except (Failure CheckpointError) (Option ActiveAttempt) × CheckpointStore).1 =
          .ok found → found = ledger.active
  | .check reviewed fresh, answer, ledger' =>
      match (answer : Option LiveCheckStatus) with
      | some .satisfied => ledger' = { ledger with approved := some (reviewed, fresh) }
      | _ => ledger' = ledger
  | .clear .., _, ledger' => ∃ active, ledger' = { ledger with active }
  | _, _, ledger' => ledger' = ledger

/-- The policy was satisfied for the review and this attempt, on an unchanged observation. -/
structure Acknowledges (ledger : IncidentLedger) (review : IncidentReview)
    (attempt : ActiveAttempt) : Prop where
  reviewed : review.inspection.attempt = attempt
  approved : ∃ fresh, ledger.approved = some (review.inspection, fresh) ∧ fresh.attempt = attempt ∧
    review.inspection.sameObservations fresh = .ok true

/-- What has to hold when an incident function makes a call; only an acknowledgment has a review. -/
def Allows (review : Option IncidentReview) (ledger : IncidentLedger) : IncidentCall → Prop
  | .tryLockHost => ledger.locked = false
  | .releaseLock | .inspect _ => ledger.locked = true
  | .clear _ attempt => ledger.locked = true ∧
      ∃ reviewed, review = some reviewed ∧ ledger.Acknowledges reviewed attempt
  | _ => True

end IncidentLedger

/-- Every call is allowed; the function returns in `Q` or fails in `E`. -/
abbrev IncidentM.Ends {α : Type} (review : Option IncidentReview) (Q : α → IncidentLedger → Prop)
    (E : IncidentLedger → Prop) (x : IncidentM α) (ledger : IncidentLedger) : Prop :=
  Effectful.Ends (IncidentLedger.Allows review) IncidentLedger.Observes (fun a _ => Q a)
    (fun _ => E) x () ledger

namespace IncidentM

section Ends

variable {α : Type} {review : Option IncidentReview} {ledger : IncidentLedger}

/-- The lock is released however the body ends. -/
theorem withHostLock_ends {body : IncidentM α} (h : ledger.locked = false)
    (hbody : ∀ ledger : IncidentLedger, ledger.locked = true →
      Ends review (fun _ ledger => ledger.locked = true) (fun ledger => ledger.locked = true) body
        ledger) :
    Ends review (fun _ ledger => ledger.locked = false) (fun ledger => ledger.locked = false)
      (withHostLock body) ledger := by
  refine .bind_ask IncidentCall.tryLockHost h fun answer ledger' hobserves => ?_
  match answer, hobserves with
  | .error (.error _), hobserves => exact hobserves ▸ h
  | .error .panic, hobserves => exact hobserves ▸ h
  | .ok (), hobserves =>
      obtain ⟨active, rfl⟩ := hobserves
      have hrelease : ∀ ledger : IncidentLedger, ledger.locked = true →
          Program.Safe (IncidentLedger.Allows review) IncidentLedger.Observes
            (fun _ ledger => ledger.locked = false)
              (Program.ask IncidentCall.releaseLock) ledger := by
        intro ledger h
        refine .ask h ?_
        rintro _ _ rfl
        rfl
      exact .ensuring (hbody _ rfl) (fun _ _ ledger h => hrelease ledger h)
        fun _ ledger h => hrelease ledger h

/-- A successful inspection returns the attempt in the active file. -/
theorem inspect_ends {store : CheckpointStore} (h : ledger.locked = true) :
    Ends review (fun result ledger' => ledger' = ledger ∧ result.1 = ledger.active)
      (fun ledger => ledger.locked = true) (inspect store) ledger := by
  refine .bind_ask (IncidentCall.inspect store) h ?_
  rintro answer ledger ⟨rfl, hfound⟩
  refine .bind (.returned (Q := fun found _ ledger' => ledger' = ledger ∧ found = ledger.active) h
    fun found hok => ⟨rfl, hfound found hok⟩) fun _ _ _ hkept => hkept

/-- Inspection under the lock finds the active attempt. -/
theorem inspectLocked_ends {store : CheckpointStore} (h : ledger.locked = true) :
    Ends review (fun result ledger' => ledger' = ledger ∧
        result.1.map (·.attempt) = ledger.active)
      (fun ledger => ledger.locked = true) (inspectLocked store) ledger := by
  refine .bind (inspect_ends h) ?_
  rintro ⟨_ | attempt, store⟩ _ _ ⟨rfl, hactive⟩
  · exact ⟨rfl, hactive⟩
  · refine .bind_ask IncidentCall.collect trivial ?_
    rintro answer ledger rfl
    exact .bind (.returned (Q := fun _ _ ledger' => ledger' = ledger) h fun _ _ => rfl)
      fun _ _ _ hkept => ⟨hkept, hactive⟩

theorem directoryIdentity_ends (h : ledger.locked = true) :
    Ends review (fun _ ledger' => ledger' = ledger) (fun ledger => ledger.locked = true)
      directoryIdentity ledger := by
  refine .bind_ask IncidentCall.directoryIdentity trivial ?_
  rintro answer _ rfl
  exact .lift h fun _ _ => rfl

theorem inspectIncident_ends (h : ledger.locked = false) :
    Ends review (fun _ ledger => ledger.locked = false) (fun ledger => ledger.locked = false)
      inspectIncident ledger :=
  withHostLock_ends h fun _ h => .bind (inspectLocked_ends h) fun _ _ _ hkept => hkept.1 ▸ h

theorem reviewIncident_ends (h : ledger.locked = false) :
    Ends review (fun _ ledger => ledger.locked = false) (fun ledger => ledger.locked = false)
      reviewIncident ledger := by
  refine withHostLock_ends h fun ledger h => ?_
  refine .bind (directoryIdentity_ends h) ?_
  rintro directory _ _ rfl
  refine .bind (inspectLocked_ends h) ?_
  rintro ⟨_ | inspection, store⟩ _ _ ⟨rfl, -⟩
  · exact h
  · refine .bind_ask IncidentCall.newToken trivial ?_
    rintro token _ rfl
    exact h

/-- The reviewed attempt is in the active file. -/
theorem requireAttempt_ends {store : CheckpointStore} {attempt : ActiveAttempt}
    (h : ledger.locked = true) :
    Ends review (fun _ ledger' => ledger' = ledger ∧ ledger.active = some attempt)
      (fun ledger => ledger.locked = true) (requireAttempt store attempt) ledger := by
  refine .bind (inspect_ends h) ?_
  rintro ⟨active, store⟩ _ _ ⟨rfl, hactive⟩
  refine .bind_reject (fun _ => h) fun hattempt => ⟨rfl, ?_⟩
  exact hactive.symm.trans (not_not.mp hattempt)

/-- A fresh inspection is of the attempt in the active file, with the reviewed observation. -/
theorem requireUnchanged_ends {store : CheckpointStore} {reviewed : IncidentInspection}
    (h : ledger.locked = true) :
    Ends review (fun result ledger' => ledger' = ledger ∧
        ledger.active = some result.1.attempt ∧ reviewed.sameObservations result.1 = .ok true)
      (fun ledger => ledger.locked = true) (requireUnchanged store reviewed) ledger := by
  refine .bind (inspectLocked_ends h) ?_
  rintro ⟨_ | fresh, store⟩ _ ledger ⟨rfl, hactive⟩
  · exact .fail h
  · refine .bind (.lift (Q := fun same _ ledger' => ledger' = ledger ∧
      reviewed.sameObservations fresh = .ok same) h fun same hok => ⟨rfl, hok⟩) ?_
    rintro same _ _ ⟨rfl, hok⟩
    refine .bind_reject (fun _ => h) fun hsame => ⟨rfl, hactive.symm, ?_⟩
    exact (Bool.not_eq_false _ ▸ hsame) ▸ hok

/-- Only a satisfied policy is passed. -/
theorem requireSafe_ends {reviewed fresh : IncidentInspection} (h : ledger.locked = true) :
    Ends review (fun _ ledger' => ledger' = { ledger with approved := some (reviewed, fresh) })
      (fun ledger => ledger.locked = true) (requireSafe reviewed fresh) ledger := by
  refine .bind_ask (IncidentCall.check reviewed fresh) trivial fun answer ledger' hobserves => ?_
  match answer, hobserves with
  | none, hobserves => exact hobserves ▸ h
  | some .satisfied, hobserves => exact hobserves
  | some (.violated _), hobserves => exact hobserves ▸ h
  | some (.unknown _), hobserves => exact hobserves ▸ h

/-- A clear ends the acknowledgment of its attempt. -/
theorem clear_ends {store : CheckpointStore} {attempt : ActiveAttempt} {reviewed : IncidentReview}
    (h : ledger.locked = true) (hreview : ledger.Acknowledges reviewed attempt) :
    Ends (some reviewed) (fun _ ledger => ledger.locked = true) (fun ledger => ledger.locked = true)
      (clear store attempt) ledger := by
  refine .bind_ask (IncidentCall.clear store attempt) ⟨h, reviewed, rfl, hreview⟩ ?_
  rintro answer _ ⟨active, rfl⟩
  exact .returned h fun _ _ => h

/-- **An acknowledgment clears the reviewed attempt only.** -/
theorem acknowledgeIncident_ends {reviewed : IncidentReview} {confirmation : Uuid}
    (h : ledger.locked = false) :
    Ends (some reviewed) (fun _ ledger => ledger.locked = false)
      (fun ledger => ledger.locked = false)
      (acknowledgeIncident reviewed confirmation) ledger := by
  refine .bind_reject (fun _ => h) fun _ => withHostLock_ends h fun ledger h => ?_
  refine .bind (directoryIdentity_ends h) ?_
  rintro directory _ _ rfl
  refine .bind_reject (fun _ => h) fun _ => ?_
  refine .bind (requireAttempt_ends h) ?_
  rintro store _ _ ⟨rfl, hactive⟩
  refine .bind (requireUnchanged_ends h) ?_
  rintro ⟨fresh, store⟩ _ _ ⟨rfl, hfresh, hsame⟩
  -- The lock is held throughout, so both inspections saw the same file.
  have hattempt : reviewed.inspection.attempt = fresh.attempt :=
    Option.some_inj.mp (hactive.symm.trans hfresh)
  refine .bind (requireSafe_ends h) ?_
  rintro _ _ _ rfl
  refine .bind (requireAttempt_ends h) ?_
  rintro store _ _ ⟨rfl, -⟩
  exact .bind (clear_ends h ⟨hattempt, fresh, rfl, rfl, hsame⟩) fun _ _ _ h => h

end Ends

end IncidentM

end DisksGraph
