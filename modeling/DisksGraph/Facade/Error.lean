import DisksGraph.Editing.Freeze
import DisksGraph.Runtime.Coordinator
import DisksGraph.Runtime.Incident

/-!
# Facade — Error

Stable application error categories (`disksgraph/src/error.rs`).  The message of an error is the
`Display` of what it was made from; the model keeps that value in place of its text.
-/

namespace DisksGraph

/-- Machine-readable application errors. -/
inductive ErrorCode where
  | unknownSession
  | unknownPlan
  | unknownRun
  | resourceLimit
  | revisionConflict
  | editRejected
  | invalidDraft
  | invalidPlan
  | cannotFreeze
  | rebaseRejected
  | probeFailed
  | leaseUnavailable
  | checkpointBlocked
  | planUnavailable
  | admissionRejected
  | executionStopped
  | verificationFailed
  | invalidEventCursor
  | eventSequenceExhausted
  | incidentRejected
deriving DecidableEq, Repr

/-- What a message displays. -/
inductive ErrorMessage where
  | text (message : String)
  | run (error : ExecutionRunError)
  | edit (error : EditError)
  | freeze (error : FreezeError)
  | rebase (error : RebaseError)
  | draftDocument (error : DraftDocumentError)
  | draftBuild (error : DraftBuildError)
  | document (error : PlanDocumentError)
  | lease (error : LeaseError)
  | checkpoint (error : CheckpointError)
  | host (error : HostError)
  | probe (error : ObservationError)
  | binding (error : BindingError)
  | receipt (error : DispatchError)
  | coordinator (error : CoordinatorError)
  | incident (error : IncidentError)

/-- Identity of an execution attempt. -/
structure RunId where
  get : Uuid
deriving DecidableEq, Repr

/-- Serializable diagnostic with a stable code. -/
structure DisksGraphError where
  code : ErrorCode
  message : ErrorMessage
  runId : Option RunId := none

namespace DisksGraphError

/-- Retains distinct cursor and exhaustion failures. -/
def fromRun (error : ExecutionRunError) : DisksGraphError where
  code := match error with
    | .invalidEventCursor .. => .invalidEventCursor
    | .eventSequenceExhausted => .eventSequenceExhausted
    | .document _ => .invalidPlan
    | _ => .executionStopped
  message := .run error

/-- Editing conflicts remain distinguishable from rejected commands. -/
def fromEdit (error : EditError) : DisksGraphError where
  code := match error with
    | .revisionConflict .. => .revisionConflict
    | _ => .editRejected
  message := .edit error

/-- Freezing invalid forecasts cannot be mistaken for authorization failure. -/
def fromFreeze (error : FreezeError) : DisksGraphError where
  code := match error with
    | .revisionConflict .. => .revisionConflict
    | .document _ => .invalidPlan
    | _ => .cannotFreeze
  message := .freeze error

/-- Failed correlation and stale editing revisions remain explicit. -/
def fromRebase (error : RebaseError) : DisksGraphError where
  code := match error with
    | .revisionConflict .. => .revisionConflict
    | _ => .rebaseRejected
  message := .rebase error

/-- A draft document that could not be read. -/
def fromDraftDocument (error : DraftDocumentError) : DisksGraphError where
  code := .invalidDraft
  message := .draftDocument error

/-- A draft that does not build. -/
def fromDraftBuild (error : DraftBuildError) : DisksGraphError where
  code := .invalidDraft
  message := .draftBuild error

/-- A plan document that could not be read or verified. -/
def fromDocument (error : PlanDocumentError) : DisksGraphError where
  code := .invalidPlan
  message := .document error

/-- The execution lease was not granted. -/
def fromLease (error : LeaseError) : DisksGraphError where
  code := .leaseUnavailable
  message := .lease error

/-- A checkpoint stands in the way. -/
def fromCheckpoint (error : CheckpointError) : DisksGraphError where
  code := .checkpointBlocked
  message := .checkpoint error

/-- Classifies runtime boundaries without turning unknown evidence into a known contradiction. -/
def fromHost : HostError → DisksGraphError
  | .run error => fromRun error
  | .document error => fromDocument error
  | .checkpoint error => fromCheckpoint error
  | .probe error => { code := .probeFailed, message := .probe error }
  | .binding error => { code := .verificationFailed, message := .binding error }
  | .activeAttempt => { code := .checkpointBlocked, message := .host .activeAttempt }
  | error => { code := .admissionRejected, message := .host error }

/-- Preserves the coordinator's failure boundary and diagnostic class. -/
def fromCoordinator : CoordinatorError → DisksGraphError
  | .host error => fromHost error
  | .lease error => fromLease error
  | .checkpoint error => fromCheckpoint error
  | .run error => fromRun error
  | .binding error => { code := .verificationFailed, message := .binding error }
  | .receipt error => { code := .verificationFailed, message := .receipt error }
  | .planUnavailable status =>
      { code := .planUnavailable, message := .coordinator (.planUnavailable status) }
  | error => { code := .executionStopped, message := .coordinator error }

/-- An incident request was refused. -/
def fromIncident (error : IncidentError) : DisksGraphError where
  code := .incidentRejected
  message := .incident error

end DisksGraphError

end DisksGraph
