import DisksGraph.Editing.Session

/-!
# Editing — Freeze

The planning status of a forecast and the capture of one revision for offline review
(`editing/preview.rs`, `editing/document.rs`).
-/

namespace DisksGraph

open Support (Returns)

/-- All planning obligations are met, and every goal and intent is satisfied. -/
def SimulationReport.isComplete (report : SimulationReport) : Bool :=
  report.protectionViolations.isEmpty && report.unresolvedObligations.isEmpty &&
    report.goalChecks.all (·.status = .satisfied) && report.intentCoverage.all (·.covered)

/-- Planning readiness of the current draft, never permission to execute. -/
inductive PreviewStatus where
  | invalid
  | blocked
  | conditional
  | complete
deriving DecidableEq, Repr

/-- Distinguishes blockers from missing evidence without weakening `is_complete()`. -/
def PlanPreview.status (preview : PlanPreview) : PreviewStatus :=
  if !preview.report.protectionViolations.isEmpty ||
      preview.requestCoverage.any (!·.covered) ||
      preview.report.intentCoverage.any (!·.covered) ||
      preview.report.goalChecks.any (·.status.isViolated) ||
      preview.diagnostics.any (·.diagnostic.severity = .error) then .blocked
  else if preview.report.isComplete then .complete
  else .conditional

/-- Current planning status, never execution authorization. -/
def PreviewState.status : PreviewState → PreviewStatus
  | .calculated preview => preview.status
  | .invalid _ => .invalid

/-- One captured revision: the reanalysed document and the action ownership of that revision. -/
structure FrozenPlan where
  sessionId : Uuid
  revision : DraftRevision
  document : PlanDocument
  sourceMap : List OperationActions

/-- Failure to capture a revision for offline review; no write admission was attempted. -/
inductive FreezeError where
  | revisionConflict (expected actual : DraftRevision)
  | unavailable (status : PreviewStatus)
  | document (error : PlanDocumentError)
deriving DecidableEq

/-- Captures one revision and its source map; unknown evidence remains conditional.  `planId` is the
identity `Uuid::now_v7` would draw. -/
def PlanSession.freeze (keys : ContractKeys) (planId : Uuid) (session : PlanSession)
    (expectedRevision : DraftRevision) : Returns FreezeError FrozenPlan :=
  if expectedRevision ≠ session.revision then
    throw (.revisionConflict expectedRevision session.revision)
  else match session.preview with
    | .invalid _ => throw (.unavailable .invalid)
    | .calculated preview =>
        if preview.status ≠ .complete ∧ preview.status ≠ .conditional then
          throw (.unavailable preview.status)
        else do
          let document ← Returns.mapError .document
            (PlanDocument.captureWithBaseline keys planId preview.plan session.baseline
              preview.report.simulation.desired session.draft.protectedScope)
          return ⟨session.id, session.revision, document, preview.sourceMap⟩

end DisksGraph
