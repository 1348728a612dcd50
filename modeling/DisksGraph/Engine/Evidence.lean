import DisksGraph.Provider.Logical
import Mathlib.Data.Finset.Basic

/-!
# Engine — Evidence

Temporary simulation guarantees (`simulation_evidence.rs`): runtime claims supplied by predecessor
actions, the capacity ledger, and the baseline observations that planned effects have made stale.

A `HashMap` that the source only looks up, inserts into and removes from is its lookup function.

* `activationScope` and `checkScope`: the nodes that a revocation reaches.
* `SimulationEvidence.invalidateObservations`: what one call expands and revokes.
-/

namespace DisksGraph

/-! ### The ledger -/

/-- Temporary checks and resource accounting; configuration belongs exclusively to
`DesiredState`. -/
structure SimulationEvidence where
  projectedPersistentTargets : List (PathBuf × MountContext) := []
  activations : NodeId → Option Bool := fun _ => none
  blockInterfaces : NodeId → Option BlockInterfaceAccess := fun _ => none
  availableCapacity : AllocationDomain → Option AllocationQuantity := fun _ => none
  projectedAllocations : Finset AllocationDomain := ∅
  projectedGraphNodes : List NodeId := []
  checkedFilesystems : Finset NodeId := ∅
  projectedRuntimeMounts : Bool := false
  invalidatedFacts : List FactInvalidation := []

/-- Read-only provider evidence about one allocation domain. -/
structure CapacityEvidence where
  domain : AllocationDomain
  available : AllocationQuantity
deriving DecidableEq, Repr

/-- Two capacities for one domain. -/
inductive CapacityEvidenceError where
  | duplicateDomain (domain : AllocationDomain)
deriving DecidableEq, Repr

/-- Failure to apply a predicted effect atomically. -/
inductive EffectApplicationError where
  | structure (error : GraphError)
  | duplicateNode (node : NodeId)
  | missingNode (node : NodeId)
  | wrongNodeKind (node : NodeId) (effect : String)
  | missingDependency
  | missingRelation
  | occupiedMountTarget (target : PathBuf)
  | mountedDescendant (target : PathBuf)
  | insufficientCapacity (domain : AllocationDomain)
  | capacityOverflow (domain : AllocationDomain)
deriving DecidableEq

/-- Origin of evidence used to satisfy a prerequisite. -/
inductive CheckEvidence where
  | observedSnapshot
  | predictedEffect
deriving DecidableEq, Repr

/-- Three-valued result of evaluating an action prerequisite. -/
inductive CheckStatus where
  | satisfied (evidence : CheckEvidence)
  | violated (reason : String)
  | unknown (requiredEvidence : String)
deriving DecidableEq, Repr

/-- Whether the check fails. -/
def CheckStatus.isViolated : CheckStatus → Bool
  | .violated _ => true
  | _ => false

/-- Evaluation result tied to the exact prerequisite that produced it. -/
structure PrerequisiteCheck where
  prerequisite : ActionPrerequisite
  status : CheckStatus
deriving DecidableEq, Repr

/-- Failure to simulate one typed provider action. -/
inductive ActionSimulationError where
  | validation (diagnostics : List Diagnostic)
  | prerequisitesViolated (checks : List PrerequisiteCheck)
  | effect (error : EffectApplicationError)
deriving DecidableEq

/-- Public qualifications of a prediction. -/
structure SimulationEvidenceSummary where
  invalidatedFacts : List FactInvalidation := []
  determinedPersistentTargets : List (PathBuf × MountContext) := []
deriving DecidableEq, Repr

namespace SimulationEvidence

/-- `SimulationEvidence::new`, from a ledger under construction. -/
def addCapacity (evidence : SimulationEvidence) :
    List CapacityEvidence → Except CapacityEvidenceError SimulationEvidence
  | [] => .ok evidence
  | item :: rest =>
      if (evidence.availableCapacity item.domain).isSome then .error (.duplicateDomain item.domain)
      else addCapacity { evidence with
        availableCapacity :=
          Function.update evidence.availableCapacity item.domain (some item.available) } rest

/-- Initializes the ledger with unique baseline provider observations. -/
def new (capacity : List CapacityEvidence) : Except CapacityEvidenceError SimulationEvidence :=
  addCapacity {} capacity

/-- A new ledger holds the observed capacity and nothing else. -/
theorem eq_of_new {capacity : List CapacityEvidence} {evidence : SimulationEvidence}
    (h : new capacity = .ok evidence) :
    evidence = { availableCapacity := evidence.availableCapacity } := by
  have hadd : ∀ start : SimulationEvidence, start.addCapacity capacity = .ok evidence →
      evidence = { start with availableCapacity := evidence.availableCapacity } := by
    clear h
    induction capacity with
    | nil =>
        intro start h
        rw [← Except.ok.inj h]
    | cons item rest ih =>
        intro start h
        rw [addCapacity] at h
        split at h
        · cases h
        · have hrest := ih _ h
          exact hrest
  exact hadd {} h

/-- `SimulationEvidenceSummary::from`. -/
def summary (evidence : SimulationEvidence) : SimulationEvidenceSummary where
  invalidatedFacts := evidence.invalidatedFacts
  determinedPersistentTargets := evidence.projectedPersistentTargets

/-- Reports invalidation of an observation aspect. -/
def isObservationStale (evidence : SimulationEvidence) (scope : FactScope) (kind : FactKind) :
    Bool :=
  evidence.invalidatedFacts.any fun item => item.scope == scope && item.kind == kind

/-- Marks a persistent mount target as determined by a predicted effect. -/
def markPersistentTarget (evidence : SimulationEvidence) (target : PathBuf)
    (context : MountContext) : SimulationEvidence :=
  if evidence.projectedPersistentTargets.any fun candidate =>
      candidate.1 == target && candidate.2 == context
  then evidence
  else { evidence with
    projectedPersistentTargets := evidence.projectedPersistentTargets ++ [(target, context)] }

/-- The runtime guarantee of one output. -/
def applyOutput (evidence : SimulationEvidence) : ActionOutput → SimulationEvidence
  | .blockInterface node access =>
      { evidence with
        blockInterfaces := Function.update evidence.blockInterfaces node (some access) }
  | .filesystemCheckPassed filesystem =>
      { evidence with checkedFilesystems := insert filesystem evidence.checkedFilesystems }
  | _ => evidence

/-- Records runtime guarantees exported by a successfully projected action. -/
def applyOutputs (evidence : SimulationEvidence) (outputs : List ActionOutput) :
    SimulationEvidence :=
  outputs.foldl applyOutput evidence

/-- Applies one reserve or release effect to known capacity evidence. -/
def applyAllocationEffect (evidence : SimulationEvidence) :
    AllocationEffect → Except EffectApplicationError SimulationEvidence
  | .invalidate domain =>
      .ok { evidence with
        availableCapacity := Function.update evidence.availableCapacity domain none
        projectedAllocations := insert domain evidence.projectedAllocations }
  | .reserve domain amount =>
      match evidence.availableCapacity domain with
      | none => .ok evidence
      | some available =>
          match checkedSub available amount with
          | none => .error (.insufficientCapacity domain)
          | some remaining =>
              .ok { evidence with
                availableCapacity :=
                  Function.update evidence.availableCapacity domain (some remaining)
                projectedAllocations := insert domain evidence.projectedAllocations }
  | .release domain amount =>
      match evidence.availableCapacity domain with
      | none => .ok evidence
      | some available =>
          match checkedAdd available amount with
          | none => .error (.capacityOverflow domain)
          | some total =>
              .ok { evidence with
                availableCapacity := Function.update evidence.availableCapacity domain (some total)
                projectedAllocations := insert domain evidence.projectedAllocations }

/-- Applies cumulative reserve and release effects to known capacity evidence. -/
def applyAllocationEffects (evidence : SimulationEvidence) (effects : List AllocationEffect) :
    Except EffectApplicationError SimulationEvidence :=
  effects.foldlM applyAllocationEffect evidence

end SimulationEvidence

/-! ### Revocation -/

/-- The children of a node, sorted by UUID. -/
def sortedConsumers (graph : NodeGraph) (node : NodeId) : List NodeId :=
  (graph.consumers node).insertionSort fun a b => a.asUuid.toNat ≤ b.asUuid.toNat

/-- A node and its descendants, in the order `invalidate_observations` visits them. -/
def activationScope (graph : NodeGraph) (node : NodeId) : List NodeId :=
  (Support.explore (sortedConsumers graph) (1 + graph.dependencies.length) [node] []).reverse

/-- The invalidation of the activation of a node. -/
def activationFact (node : NodeId) : FactInvalidation := ⟨.node node, .activation⟩

namespace FactInvalidation

/-- The node whose activation is invalidated. -/
def activationNode : FactInvalidation → Option NodeId
  | ⟨.node node, .activation⟩ => some node
  | _ => none

/-- The node whose runtime claims are revoked. -/
def revokedNode : FactInvalidation → Option NodeId
  | ⟨.node node, .activation⟩ | ⟨.node node, .presence⟩ => some node
  | _ => none

/-- The node whose clean-check guarantee is revoked. -/
def uncheckedNode : FactInvalidation → Option NodeId
  | ⟨.node node, .content⟩ | ⟨.node node, .geometry⟩ | ⟨.node node, .presence⟩ => some node
  | _ => none

end FactInvalidation

/-- Appends what is not present yet. -/
def pushNew (facts : List FactInvalidation) (fact : FactInvalidation) : List FactInvalidation :=
  if fact ∈ facts then facts else facts ++ [fact]

/-- The invalidations, with every activation propagated to the descendants of its node. -/
def expandInvalidations (graph : NodeGraph) (invalidations : List FactInvalidation) :
    List FactInvalidation :=
  invalidations.foldl (fun expanded invalidation =>
    match invalidation.activationNode with
    | some node => ((activationScope graph node).map activationFact).foldl pushNew expanded
    | none => expanded) invalidations

namespace SimulationEvidence

/-- Records one stale aspect and revokes the runtime claims it affects. -/
def revoke (evidence : SimulationEvidence) (invalidation : FactInvalidation) :
    SimulationEvidence :=
  let evidence := { evidence with
    invalidatedFacts := pushNew evidence.invalidatedFacts invalidation }
  match invalidation.revokedNode with
  | some node =>
      { evidence with
        blockInterfaces := Function.update evidence.blockInterfaces node none
        activations := Function.update evidence.activations node none }
  | none => evidence

/-- Records stale baseline aspects and revokes runtime claims affected by activation changes. -/
def invalidateObservations (graph : NodeGraph) (evidence : SimulationEvidence)
    (invalidations : List FactInvalidation) : List FactInvalidation × SimulationEvidence :=
  let expanded := expandInvalidations graph invalidations
  (expanded, expanded.foldl revoke evidence)

end SimulationEvidence

/-- The consumers a node backs or contains. -/
def backedConsumers (graph : NodeGraph) (node : NodeId) : List NodeId :=
  (graph.dependencies.filter fun edge =>
    edge.source == node && (edge.kind.isBacks || edge.kind.isContains)).map (·.target)

/-- The nodes whose clean-check guarantee a list of invalidations revokes. -/
def checkScope (graph : NodeGraph) (invalidations : List FactInvalidation) : List NodeId :=
  let affected := invalidations.filterMap FactInvalidation.uncheckedNode
  Support.explore (backedConsumers graph) (affected.length + graph.dependencies.length)
    affected.reverse []

namespace SimulationEvidence

/-- Revokes clean-check guarantees when content or backing geometry changes. -/
def invalidateFilesystemChecks (graph : NodeGraph) (evidence : SimulationEvidence)
    (invalidations : List FactInvalidation) : SimulationEvidence :=
  { evidence with
    checkedFilesystems := evidence.checkedFilesystems.filter
      (· ∉ checkScope graph invalidations) }

end SimulationEvidence

end DisksGraph
