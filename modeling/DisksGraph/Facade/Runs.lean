import DisksGraph.Facade.Error
import DisksGraph.Facade.Text

/-!
# Facade — Runs

What the application shows of an execution attempt (`execution.rs`, `disksgraph/src/runs.rs`).

* `ExecutionRun.snapshot`: the complete evidence of a run, independent of event eviction.
* `RunRecord`: an attempt whose blocking call has returned, with the error it ended with.
* `ExecutionRun.liveUpdate` and `RunRecord.finalUpdate`: the snapshot and the page that
  `apply_plan_with_updates` hands to its observer while the run executes and after it ended.
-/

namespace DisksGraph

open Support (Returns)

/-! ### The state of a run -/

/-- Complete evidence of one action. -/
structure ActionStatus where
  action : ActionId
  state : ActionRunState
  applicability : Option LiveCheckStatus
  admissionObservation : Option ObservationReference
  completionObservation : Option ObservationReference
  prerequisites : List (LiveCheck ActionPrerequisite)
  outcome : Option BackendOutcome
  postconditions : Option (List (LiveCheck Postcondition))
  preDispatchFailure : Option String
  unknownReason : Option String

/-- Complete current execution view used after an event gap; not a resumable run document. -/
structure ExecutionSnapshot where
  runId : Uuid
  planId : Uuid
  actions : List ActionStatus
  finished : Bool
  verified : Bool
  eventSequence : Nat
  observation : Option LiveObservation
  goalVerification : Option GoalVerificationReport

/-- The reported status of one action of a run. -/
def ActionRun.status (planned : PlannedAction) (action : ActionRun) : ActionStatus where
  action := planned.id
  state := action.state
  applicability := action.admission.map (·.applicability)
  admissionObservation := action.admission.map (·.observation.reference)
  completionObservation := action.completion.map (·.observation.reference)
  prerequisites := (action.admission.map (·.checks)).getD []
  outcome := action.completion.map (·.outcome)
  postconditions := action.verification.map (·.checks)
  preDispatchFailure := action.preDispatchFailure
  unknownReason := action.unknownReason

/-- Copies current action and evidence state.  `next_event_sequence - 1` panics at zero. -/
def ExecutionRun.snapshot (run : ExecutionRun) : Option ExecutionSnapshot :=
  (checkedSub run.nextEventSequence 1).map fun latest => {
    runId := run.runId
    planId := run.document.planId
    actions := List.zipWith ActionRun.status run.plan.actions run.actions
    finished := run.goalVerification.isSome || run.nextEventSequence == u64Bound - 1 ||
      run.actions.any (·.state.isStopped)
    verified := run.isVerified
    eventSequence := latest
    observation := run.latestObservation
    goalVerification := run.goalVerification }

/-! ### The application's view -/

/-- Complete application view of an attempt. -/
structure RunSnapshot where
  execution : ExecutionSnapshot
  sourceMap : List OperationActions
  error : Option DisksGraphError

/-- Process-local run evidence of an attempt whose blocking call has returned. -/
structure RunRecord where
  run : ExecutionRun
  sourceMap : List OperationActions
  error : Option DisksGraphError

/-- What the observer gets while the coordinator is executing: live snapshots always have
`finished = false`. -/
def ExecutionRun.liveUpdate (run : ExecutionRun) : Option (RunSnapshot × EventsPage) :=
  run.snapshot.map fun execution =>
    let events := run.eventsSince 0
    ({ execution := { execution with finished := false }, sourceMap := [], error := none },
      { events
        nextSequence := execution.eventSequence
        gap := events.head?.any fun event => event.sequence > 1 })

namespace RunRecord

/-- Current evidence even after event eviction or a failure before the first event. -/
def snapshot (record : RunRecord) : Option RunSnapshot :=
  record.run.snapshot.map fun execution =>
    -- Every record is published only after its blocking coordinator call has ended.
    { execution := { execution with finished := true }
      sourceMap := record.sourceMap
      error := record.error }

/-- Replays retained updates using an exclusive cursor. -/
def events (record : RunRecord) (since : Nat) : Returns DisksGraphError EventsPage :=
  Returns.mapError DisksGraphError.fromRun (record.run.eventsPage since)

/-- What the observer gets after the attempt: `run_snapshot(id)?` and `events(id, 0)?`. -/
def finalUpdate (record : RunRecord) : Returns DisksGraphError (RunSnapshot × EventsPage) := do
  let snapshot ← Returns.unwrap record.snapshot
  let page ← record.events 0
  return (snapshot, page)

end RunRecord

/-! ### JSON -/

/-- Whether every path of the status is UTF-8. -/
def ActionStatus.isUtf8 (status : ActionStatus) : Bool :=
  status.prerequisites.all (·.condition.isUtf8) &&
    status.postconditions.all fun checks => checks.all (·.condition.isUtf8)

/-- Every path of the snapshot is UTF-8.  Its texts and error messages never fail to encode: the
serializers of the messages do not read them. -/
def RunSnapshot.isUtf8 (snapshot : RunSnapshot) : Bool :=
  snapshot.execution.actions.all (·.isUtf8) &&
    snapshot.execution.observation.all (·.isUtf8) &&
    snapshot.execution.goalVerification.all (·.isUtf8)

/-- What takes the place of a diagnostic text in JSON. -/
def REDACTED : String := "[diagnostic redacted]"

/-- What the serializer writes of an event: progress messages are replaced. -/
def RunEventKind.redacted : RunEventKind → RunEventKind
  | .progress action _ => .progress action REDACTED
  | kind => kind

/-- What the serializer writes of a page. -/
def EventsPage.redacted (page : EventsPage) : EventsPage :=
  { page with events := page.events.map fun event => { event with kind := event.kind.redacted } }

end DisksGraph
