import DisksGraph.Editing.Request
import DisksGraph.Engine.Wire

/-!
# Editing — Build

A user draft rebuilt against one historical baseline (`build.rs`), with the coverage check of
`coverage.rs` and the classification of `preview.rs`.

* `validateDraft` checks identities and references before anything is lowered.
* `requestedOrdering` chains the fragments in user order, from the sinks of one to the roots of the
  next.
* `buildPreview` composes and analyses the result through the existing engine.
-/

namespace DisksGraph

open Support (Returns)

/-! ### Results -/

/-- Per-build links between a stable user request and its generated actions. -/
structure OperationActions where
  operation : OperationId
  fragments : List FragmentId
  actions : List ActionId
deriving DecidableEq

/-- Existing storage diagnostic attributed to the request that produced it. -/
structure OperationDiagnostic where
  operation : Option OperationId
  diagnostic : Diagnostic
  checks : List PrerequisiteCheck := []
deriving DecidableEq

/-- Whether exactly the allowed recipe implements one user request. -/
structure RequestCoverage where
  operation : OperationId
  covered : Bool
  diagnostics : List Diagnostic
deriving DecidableEq

/-- Current calculated forecast; it never supplies permission for real writes. -/
structure PlanPreview where
  plan : ExecutionPlan
  report : SimulationReport
  sourceMap : List OperationActions
  requestCoverage : List RequestCoverage
  diagnostics : List OperationDiagnostic

/-- A rejected draft retains its original typed storage error and action ownership. -/
inductive DraftBuildError where
  | draft (diagnostics : List OperationDiagnostic)
  | composition (source : CompositionError) (sourceMap : List OperationActions)
  | simulation (source : PlanSimulationError) (sourceMap : List OperationActions)
deriving DecidableEq

/-- Internal contract/identity failures must abort a session edit instead of publishing it. -/
def DraftBuildError.isInternal : DraftBuildError → Bool
  | .composition (.missingRequirementCheck _) _ | .composition (.missingAnalysedContract _) _
  | .composition (.requirementNotInContract _) _ | .composition (.unknownLocalDependency _) _
  | .composition (.unknownRequirementAction ..) _ | .composition (.duplicateLocalAction ..) _
  | .composition (.unknownOrderingAction _) _ => true
  | .simulation (.contractMismatch _) _ | .simulation (.unknownIntentOrigin ..) _ => true
  | _ => false

/-! ### Coverage -/

/-- Exactly the recipe of the request, with its own parameters and the reserved output. -/
def PlanRequest.coveredBy (createdNode : Option NodeId) :
    PlanRequest → List ProviderAction → Bool
  | .createPartition table number offset size role attributes,
      [.partition (.create table' node number' offset' size' role' attributes')] =>
      table == table' && createdNode == some node && number == number' && offset == offset' &&
        size == size' && role == role' && attributes == attributes'
  | .formatLuks backing version credential, [.luks (.format target node version' credential')] =>
      backing == target && createdNode == some node && version == version' &&
        credential == credential'
  | .openLuks container mappingName credential readOnly,
      [.luks (.open container' node mappingName' credential' readOnly')] =>
      container == container' && createdNode == some node && mappingName == mappingName' &&
        credential == credential' && readOnly == readOnly'
  | .createLv vg name size layout activate, .lvm (.createLv vg' node name' size' layout') :: tail =>
      layout == .linear && vg == vg' && createdNode == some node && name == name' &&
        size == size' && layout == layout' &&
        if activate then
          match tail with
          | [.lvm (.setActivation target true)] => target == node
          | _ => false
        else tail.isEmpty
  | .resizeLv lv newSize, [.lvm (.resizeLv lv' newSize')] => lv == lv' && newSize == newSize'
  | .resizeFilesystem filesystem newSize, [.filesystem (.resize filesystem' newSize')] =>
      filesystem == filesystem' && newSize == newSize'
  | .deletePartition partition, [.partition (.delete partition')] => partition == partition'
  | .removeLv lv, [.lvm (.removeLv lv')] => lv == lv'
  | .closeLuks mapping, [.luks (.close mapping')] => mapping == mapping'
  | .createFilesystem backing filesystem label,
      [.filesystem (.create backing' node filesystem' label')] =>
      filesystem == .ext4 && backing == backing' && createdNode == some node &&
        filesystem == filesystem' && label == label'
  | .mount entry, [.mount (.mount source target options context)] =>
      entry.source == source && entry.target == target && entry.options == options &&
        entry.context == context
  | .persistMount entry, [.mount (.persist entry')] => entry == entry'
  | .unmount target context, [.mount (.unmount target' context')] =>
      target == target' && context == context'
  | .removePersistentMount target context, [.mount (.removePersistent target' context')] =>
      target == target' && context == context'
  | .setFilesystemLabel filesystem label, [.filesystem (.setLabel filesystem' label')] =>
      filesystem == filesystem' && label == label'
  | .maintenance (.check target force), [.filesystem (.check filesystem force')] =>
      actionsCoverIntent (.check target force) [.filesystem (.check filesystem force')]
  | _, _ => false

/-- Checks exact parameters and rejects all extra actions outside the initial supported recipes. -/
def requestCoverage (operation : PlanOperation) (actions : List ProviderAction) :
    RequestCoverage :=
  let covered := operation.request.coveredBy operation.createdNode actions
  { operation := operation.id
    covered
    diagnostics := if covered then [] else [draftDiagnostic "draft.request_uncovered"
      "generated actions do not exactly implement the supported request recipe"] }

/-! ### Validation -/

/-- What the identity loop of `validate_draft` accumulates. -/
structure SeenIdentities where
  diagnostics : List OperationDiagnostic := []
  operations : List OperationId := []
  outputs : List NodeId := []

namespace SeenIdentities

/-- One more issue. -/
def issue (seen : SeenIdentities) (operation : Option OperationId) (code message : String) :
    SeenIdentities :=
  { seen with diagnostics := seen.diagnostics ++ [⟨operation, draftDiagnostic code message, []⟩] }

/-- The identity of one operation: non-nil and new. -/
def checkOperation (seen : SeenIdentities) (operation : PlanOperation) : SeenIdentities :=
  if operation.id.asUuid.isNil || operation.id ∈ seen.operations then
    seen.issue (some operation.id) "draft.operation_identity"
      "operation identities must be non-nil and unique"
  else { seen with operations := operation.id :: seen.operations }

/-- The kind of a request decides whether it has an output. -/
def checkCreated (seen : SeenIdentities) (operation : PlanOperation) : SeenIdentities :=
  if operation.request.createsNode ≠ operation.createdNode.isSome then
    seen.issue (some operation.id) "draft.created_node"
      "output identity does not match the request kind"
  else seen

/-- The output of one operation: non-nil, new and absent from the baseline. -/
def checkOutput (graph : NodeGraph) (seen : SeenIdentities) (operation : PlanOperation) :
    SeenIdentities :=
  match operation.createdNode with
  | none => seen
  | some node =>
      if node.asUuid.isNil || graph.contains node || node ∈ seen.outputs then
        seen.issue (some operation.id) "draft.output_identity"
          "planned nodes must be non-nil, unique, and absent from the baseline"
      else { seen with outputs := node :: seen.outputs }

/-- One round of the identity loop. -/
def check (graph : NodeGraph) (seen : SeenIdentities) (operation : PlanOperation) :
    SeenIdentities :=
  ((seen.checkOperation operation).checkCreated operation).checkOutput graph operation

end SeenIdentities

/-- The inputs of one operation that nothing supplies. -/
def unresolvedInputs (graph : NodeGraph) (outputs : List NodeId) (operation : PlanOperation) :
    List OperationDiagnostic :=
  (operation.request.referencedNodes.filter fun node =>
    !graph.contains node && node ∉ outputs).map fun _ =>
      ⟨some operation.id, draftDiagnostic "draft.unresolved_input"
        "request input is absent from the baseline and draft outputs", []⟩

/-- Validates untrusted draft identity and input references before lowering can allocate actions. -/
def validateDraft (baseline : HistoricalBaseline) (draft : PlanDraft) :
    Except DraftBuildError Unit :=
  let graph := baseline.snapshot.graph
  let start : SeenIdentities :=
    if baseline.id.isNil then
      ({} : SeenIdentities).issue none "draft.baseline_identity" "baseline identity must not be nil"
    else {}
  let seen := draft.operations.foldl (SeenIdentities.check graph) start
  let diagnostics := seen.diagnostics ++
    draft.operations.flatMap (unresolvedInputs graph seen.outputs)
  if diagnostics.isEmpty then .ok () else .error (.draft diagnostics)

/-! ### Building -/

/-- The index of a maintenance request, which is the next intent, and the intents with it. -/
def PlanRequest.registerIntent (intents : List OperationIntent) :
    PlanRequest → Option Nat × List OperationIntent
  | .maintenance intent => (some intents.length, intents ++ [intent])
  | _ => (none, intents)

/-- The fragments and intents that the requests become. -/
def lowerOperations : List OperationIntent → List PlanOperation →
    Except DraftBuildError (List PlanFragment × List OperationIntent)
  | intents, [] => .ok ([], intents)
  | intents, operation :: rest => do
      let (index, intents) := operation.request.registerIntent intents
      match lowerOperation operation index with
      | .error errors =>
          throw (.draft (errors.map fun diagnostic => ⟨some operation.id, diagnostic, []⟩))
      | .ok fragment =>
          let (fragments, intents) ← lowerOperations intents rest
          return (fragment :: fragments, intents)

/-- The actions of a fragment that come after no other of it. -/
def fragmentRoots (entry : PlanFragment × Nat) : List FragmentActionRef :=
  (entry.1.actions.filter fun action =>
    !entry.1.dependencies.any fun edge => edge.after == action.id).map fun action =>
      ⟨⟨entry.2⟩, action.id⟩

/-- The actions of a fragment that come before no other of it. -/
def fragmentSinks (entry : PlanFragment × Nat) : List FragmentActionRef :=
  (entry.1.actions.filter fun action =>
    !entry.1.dependencies.any fun edge => edge.before == action.id).map fun action =>
      ⟨⟨entry.2⟩, action.id⟩

/-- One round of the ordering loop: the edges so far, and the sinks of the last fragment. -/
def orderFragment (state : List FragmentOrdering × List FragmentActionRef)
    (entry : PlanFragment × Nat) : List FragmentOrdering × List FragmentActionRef :=
  if entry.1.actions.isEmpty then state
  else (state.1 ++ state.2.flatMap fun before =>
    (fragmentRoots entry).map fun after => ⟨before, after, .requestedOrder⟩, fragmentSinks entry)

/-- The user order, as edges between consecutive fragments. -/
def requestedOrdering (fragments : List PlanFragment) : List FragmentOrdering :=
  (fragments.zipIdx.foldl orderFragment ([], [])).1

/-- The diagnostics of the fragments, with the requests they come from. -/
def fragmentDiagnostics (draft : PlanDraft) (fragments : List PlanFragment) :
    List OperationDiagnostic :=
  (draft.operations.zip fragments).flatMap fun entry =>
    entry.2.diagnostics.map fun diagnostic => ⟨some entry.1.id, diagnostic, []⟩

/-- Action ownership under the identities that composition assigns. -/
def sourceMap (draft : PlanDraft) (fragments : List PlanFragment) (ids : ActionIds) :
    Option (List OperationActions) :=
  (draft.operations.zip fragments).zipIdx.mapM fun entry => do
    let actions ← entry.1.2.actions.mapM fun action => ids.lookup (entry.2, action.id)
    return ⟨entry.1.1.id, [⟨entry.2⟩], actions⟩

/-- The coverage of each request by the actions it owns. -/
def coverages (draft : PlanDraft) (plan : ExecutionPlan) (sources : List OperationActions) :
    Option (List RequestCoverage) :=
  (draft.operations.zip sources).mapM fun entry => do
    let actions ← entry.2.actions.mapM fun id => plan.actions[id.get]?
    return requestCoverage entry.1 (actions.map (·.operation))

/-- Composes lowered fragments with exact input identities, retaining ownership on failure. -/
def buildFragments (keys : ContractKeys) (baseline : HistoricalBaseline) (draft : PlanDraft)
    (fragments : List PlanFragment) (intents : List OperationIntent) :
    Returns DraftBuildError PlanPreview := do
  let ids ← Returns.mapError (.composition · []) (Returns.lift (fragmentActionIds fragments))
  let sources ← Returns.unwrap (sourceMap draft fragments ids)
  let plan ← Returns.mapError (.composition · sources)
    (composePlanWithOrdering baseline.snapshot fragments
    (requestedOrdering fragments) baseline.capacityEvidence)
  let report ← Returns.mapError (.simulation · sources)
    (analysePlan keys baseline.snapshot plan intents
    baseline.capacityEvidence draft.protectedScope)
  let requestCoverage ← Returns.unwrap (coverages draft plan sources)
  return {
    plan
    report
    sourceMap := sources
    requestCoverage
    diagnostics := fragmentDiagnostics draft fragments }

/-- Computes a fresh forecast without modifying the baseline or retaining a second future graph. -/
def buildPreview (keys : ContractKeys) (baseline : HistoricalBaseline) (draft : PlanDraft) :
    Returns DraftBuildError PlanPreview := do
  Returns.lift (validateDraft baseline draft)
  let (fragments, intents) ← Returns.lift (lowerOperations [] draft.operations)
  buildFragments keys baseline draft fragments intents

end DisksGraph
