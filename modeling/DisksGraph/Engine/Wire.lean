import DisksGraph.Engine.Compose

/-!
# Engine — Wire

The versioned historical plan document (`wire.rs`): what is captured from a composed plan, and the
analysis every importer repeats.

`Uuid::now_v7` is a source of fresh identities outside the repository; `capture` takes the
identities it would have drawn.
-/

namespace DisksGraph

open Support (Returns)

/-- Supported plan document schema. -/
def PLAN_SCHEMA_VERSION : Nat := 3

/-- Version of the shared provider action-contract catalogue. -/
def ACTION_SEMANTICS_VERSION : Nat := 11

/-- Saved observations and provider evidence used only for historical analysis. -/
structure HistoricalBaseline where
  id : Uuid
  snapshot : CurrentState
  capacityEvidence : List CapacityEvidence

/-- Serializable, untrusted representation of a frozen plan and its review context. -/
structure PlanDocument where
  schemaVersion : Nat
  actionSemanticsVersion : Nat
  planId : Uuid
  baseline : HistoricalBaseline
  requestedGoal : DesiredState
  protectedScope : ProtectedScope
  actions : List PlannedAction
  dependencies : List ActionDependency

/-- Recalculated historical result; it is never a live admission or execution result. -/
structure HistoricalAnalysis where
  planId : Uuid
  baselineId : Uuid
  plan : ExecutionPlan
  report : SimulationReport

/-- Failure to encode or validate a historical plan document.  `invalidGraph error` is the source's
`Structure(error.to_string())`; the baseline error is raised by no modelled function. -/
inductive PlanDocumentError where
  | json (message : String)
  | schemaVersion (version : Nat)
  | semanticsVersion (version : Nat)
  | invalidIdentity
  | invalidGraph (error : GraphError)
  | structure (message : String)
  | simulation (error : PlanSimulationError)
  | composition (error : CompositionError)
  | goalViolation (aspect : GoalAspect)
  | uncoveredIntent (index : Nat)
  | protectionViolation (violation : ProtectionViolation)
deriving DecidableEq

namespace PlanDocument

/-- The sets the action loop of `structural_plan` accumulates. -/
structure SeenActions where
  localIds : List (FragmentId × LocalActionId) := []
  origins : List (FragmentId × FragmentOrigin) := []

/-- One round of the action loop of `structural_plan`. -/
def checkAction (seen : SeenActions) (entry : PlannedAction × Nat) :
    Except PlanDocumentError SeenActions :=
  let action := entry.1
  if action.id.get ≠ entry.2 then
    .error (.structure "action IDs must be unique and contiguous from zero")
  else if (action.fragment, action.localId) ∈ seen.localIds then
    .error (.structure "duplicate fragment-local action identity")
  else if (seen.origins.lookup action.fragment).any (· ≠ action.origin) then
    .error (.structure "inconsistent origin within one fragment")
  else
    .ok { localIds := (action.fragment, action.localId) :: seen.localIds
          origins := (action.fragment, action.origin) :: seen.origins }

/-- One round of the edge loop of `structural_plan`. -/
def checkEdge (actionCount : Nat) (edges : List (ActionId × ActionId)) (edge : ActionDependency) :
    Except PlanDocumentError (List (ActionId × ActionId)) :=
  if actionCount ≤ edge.before.get || actionCount ≤ edge.after.get || edge.before = edge.after ||
      (edge.before, edge.after) ∈ edges then
    .error (.structure "invalid or duplicate dependency endpoints")
  else .ok ((edge.before, edge.after) :: edges)

/-- One round of the graph loop of `structural_plan`. -/
def checkGraph (graph : NodeGraph) : Except PlanDocumentError Unit :=
  match graph.validateStructure with
  | .error error => .error (.invalidGraph error)
  | .ok () => .ok ()

/-- Validates indices and references before any array-indexing DAG algorithm runs. -/
def structuralPlan (document : PlanDocument) : Returns PlanDocumentError ExecutionPlan := do
  Returns.lift (checkGraph document.baseline.snapshot.graph)
  Returns.lift (checkGraph document.requestedGoal.graph)
  let actions := sortById document.actions
  let _ ← Returns.lift (actions.zipIdx.foldlM checkAction {})
  let _ ← Returns.lift (document.dependencies.foldlM (checkEdge actions.length) [])
  match topologicalOrder actions.length document.dependencies with
  | none => Returns.never
  | some (.error error) => throw (.composition error)
  | some (.ok _) => return ⟨actions, document.dependencies⟩

/-- The first verdict of a report that rejects the document. -/
def rejection (report : SimulationReport) : Option PlanDocumentError :=
  match report.protectionViolations with
  | violation :: _ => some (.protectionViolation violation)
  | [] =>
      match report.goalChecks.find? fun check => check.status.isViolated with
      | some check => some (.goalViolation check.aspect)
      | none =>
          match report.intentCoverage.find? fun intent => !intent.covered with
          | some intent => some (.uncoveredIntent intent.index)
          | none => none

/-- Reanalyses saved observations as historical data, never as current system evidence. -/
def analyseHistorical (keys : ContractKeys) (document : PlanDocument) :
    Returns PlanDocumentError HistoricalAnalysis := do
  if document.schemaVersion ≠ PLAN_SCHEMA_VERSION then
    throw (.schemaVersion document.schemaVersion)
  if document.actionSemanticsVersion ≠ ACTION_SEMANTICS_VERSION then
    throw (.semanticsVersion document.actionSemanticsVersion)
  if document.planId.isNil || document.baseline.id.isNil then throw .invalidIdentity
  let draft ← document.structuralPlan
  match replayPlan keys document.baseline.snapshot draft document.baseline.capacityEvidence with
  | none => Returns.never
  | some (.error error) => throw (.simulation error)
  | some (.ok (plan, _)) =>
      let contracts := plan.actions.map fun action => (action.id, action.informationalContract)
      match validateResourceOrder contracts plan.dependencies with
      | .error error => throw (.composition error)
      | .ok () =>
          match simulatePlanForGoalWithPolicy keys document.baseline.snapshot plan
              document.requestedGoal document.baseline.capacityEvidence
              document.protectedScope with
          | none => Returns.never
          | some (.error error) => throw (.simulation error)
          | some (.ok report) =>
              match rejection report with
              | some error => throw error
              | none =>
                  return {
                    planId := document.planId
                    baselineId := document.baseline.id
                    plan
                    report }

/-- Captures a new plan document while retaining the caller's immutable baseline identity. -/
def captureWithBaseline (keys : ContractKeys) (planId : Uuid) (plan : ExecutionPlan)
    (baseline : HistoricalBaseline) (goal : DesiredState) (scope : ProtectedScope) :
    Returns PlanDocumentError PlanDocument := do
  let document : PlanDocument := {
    schemaVersion := PLAN_SCHEMA_VERSION
    actionSemanticsVersion := ACTION_SEMANTICS_VERSION
    planId
    baseline
    requestedGoal := goal
    protectedScope := scope
    actions := plan.actions
    dependencies := plan.dependencies }
  let _ ← document.analyseHistorical keys
  return document

/-- Captures a validated plan with a fresh document and historical-baseline identity. -/
def capture (keys : ContractKeys) (baselineId planId : Uuid) (plan : ExecutionPlan)
    (current : CurrentState) (goal : DesiredState) (capacityEvidence : List CapacityEvidence)
    (scope : ProtectedScope) : Returns PlanDocumentError PlanDocument :=
  captureWithBaseline keys planId plan ⟨baselineId, current, capacityEvidence⟩ goal scope

end PlanDocument

end DisksGraph
