import DisksGraph.Engine.Simulate

/-!
# Engine — Compose

Composition of provider fragments into one validated action DAG (`compose.rs`).

A `HashMap` built while composing is the list of its entries, in the order they were inserted; its
keys are distinct.  `simulate_order` restarts whenever it adds an edge; the model gives it one
restart per ordered pair of actions, and does not return if that were not enough.
-/

namespace DisksGraph

open Support (Returns)

/-! ### Drafts -/

/-- Mutable action retained only while a plan is being composed. -/
structure DraftAction where
  id : ActionId
  operation : ProviderAction
  fragment : FragmentId
  localId : LocalActionId
  origin : FragmentOrigin
deriving DecidableEq

/-- External requirement resolved after the first contract trace. -/
structure PendingRequirement where
  action : ActionId
  prerequisite : ActionPrerequisite
deriving DecidableEq, Repr

/-- Structural draft produced before planned inputs and requirements are bound. -/
structure FlattenedFragments where
  actions : List DraftAction
  dependencies : List ActionDependency
  requirements : List PendingRequirement

/-- Trusted contracts and their checks in one candidate predecessor trace. -/
structure AnalysedOrder where
  contracts : List (ActionId × ActionContract) := []
  checks : List (ActionId × List PrerequisiteCheck) := []

/-- Global identities by fragment position and local identity. -/
abbrev ActionIds : Type := List ((Nat × LocalActionId) × ActionId)

/-- `u32::try_from` of a position. -/
def narrow (index : Nat) : Except CompositionError Nat :=
  if index < u32Bound then .ok index else .error .planTooLarge

/-- Adds one non-reflexive dependency while preserving the first reason. -/
def addDependency (dependencies : List ActionDependency) (before after : ActionId)
    (reason : DependencyReason) : Except CompositionError (List ActionDependency) :=
  if before = after then .error (.selfDependency before)
  else if dependencies.any fun edge => edge.before == before && edge.after == after then
    .ok dependencies
  else .ok (dependencies ++ [⟨before, after, reason⟩])

/-! ### Flattening -/

/-- Numbers the actions of one fragment. -/
def numberActions (index : Nat) : ActionIds → List FragmentAction →
    Except CompositionError ActionIds
  | ids, [] => .ok ids
  | ids, action :: rest => do
      let id ← narrow ids.length
      if (ids.lookup (index, action.id)).isSome then
        throw (.duplicateLocalAction ⟨index⟩ action.id)
      numberActions index (ids ++ [((index, action.id), ⟨id⟩)]) rest

/-- Assigns the same global IDs to composer actions and editing source maps. -/
def fragmentActionIds (fragments : List PlanFragment) : Except CompositionError ActionIds :=
  fragments.zipIdx.foldlM (fun ids entry => do
    let index ← narrow entry.2
    numberActions index ids entry.1.actions) []

/-- The draft actions of one fragment. -/
def draftActions (ids : ActionIds) (entry : PlanFragment × Nat) :
    Returns CompositionError (List DraftAction) := do
  let index ← Returns.lift (narrow entry.2)
  if entry.1.diagnostics.any (·.severity == .error) then throw (.fragmentHasErrors ⟨index⟩)
  entry.1.actions.mapM fun action =>
    match ids.lookup (entry.2, action.id) with
    | none => Returns.never
    | some id => pure ⟨id, action.operation, ⟨index⟩, action.id, entry.1.origin⟩

/-- The global form of one local dependency. -/
def flattenDependency (ids : ActionIds) (index : Nat) (dependencies : List ActionDependency)
    (dependency : FragmentDependency) : Except CompositionError (List ActionDependency) :=
  match ids.lookup (index, dependency.before), ids.lookup (index, dependency.after) with
  | some before, some after => addDependency dependencies before after dependency.reason
  | _, _ => .error (.unknownLocalDependency ⟨index⟩)

/-- The global form of one external requirement. -/
def flattenRequirement (ids : ActionIds) (index : Nat) (requirement : ExternalRequirement) :
    Except CompositionError PendingRequirement :=
  match ids.lookup (index, requirement.action) with
  | none => .error (.unknownRequirementAction ⟨index⟩ requirement.action)
  | some action => .ok ⟨action, requirement.prerequisite⟩

/-- The dependencies and requirements of one fragment, after those of the fragments before it. -/
def flattenFragment (ids : ActionIds)
    (result : List ActionDependency × List PendingRequirement) (entry : PlanFragment × Nat) :
    Except CompositionError (List ActionDependency × List PendingRequirement) := do
  let index ← narrow entry.2
  let dependencies ← entry.1.dependencies.foldlM (flattenDependency ids index) result.1
  let requirements ← entry.1.externalRequirements.mapM (flattenRequirement ids index)
  return (dependencies, result.2 ++ requirements)

/-- Assigns global identities and preserves fragment-local structure. -/
def flattenFragments (fragments : List PlanFragment) :
    Returns CompositionError FlattenedFragments := do
  let ids ← Returns.lift (fragmentActionIds fragments)
  let draft ← fragments.zipIdx.mapM (draftActions ids)
  let (dependencies, requirements) ←
    Returns.lift (fragments.zipIdx.foldlM (flattenFragment ids) ([], []))
  return ⟨draft.flatten, dependencies, requirements⟩

/-- Adds the explicit cross-fragment edges. -/
def addOrdering (draft : List DraftAction) (dependencies : List ActionDependency)
    (edge : FragmentOrdering) : Except CompositionError (List ActionDependency) := do
  let before ← resolve edge.before
  let after ← resolve edge.after
  addDependency dependencies before after edge.reason
where
  /-- The global identity of an endpoint. -/
  resolve (endpoint : FragmentActionRef) : Except CompositionError ActionId :=
    match draft.find? fun action =>
        action.fragment == endpoint.fragment && action.localId == endpoint.action with
    | none => .error (.unknownOrderingAction endpoint)
    | some action => .ok action.id

/-! ### Intent coverage -/

/-- Reports whether matching-origin actions completely implement one supported intent. -/
def intentIsCovered (index : Nat) (intent : OperationIntent) (fragments : List PlanFragment) :
    Bool :=
  actionsCoverIntent intent
    ((fragments.filter fun fragment => fragment.origin == .intent index).flatMap fun fragment =>
      fragment.actions.map (·.operation))

/-- The origin of one fragment names an intent of the goal. -/
def checkIntentOrigin (intents : List OperationIntent) (entry : PlanFragment × Nat) :
    Except CompositionError Unit :=
  match entry.1.origin with
  | .intent index =>
      if intents.length ≤ index then do
        let fragment ← narrow entry.2
        throw (.unknownIntentOrigin ⟨fragment⟩ index)
      else .ok ()
  | _ => .ok ()

/-- Ensures each explicit intent owns actions that implement its typed operation. -/
def validateIntentCoverage (intents : List OperationIntent) (fragments : List PlanFragment) :
    Except CompositionError Unit := do
  fragments.zipIdx.forM (checkIntentOrigin intents)
  intents.zipIdx.forM fun entry =>
    if intentIsCovered entry.2 entry.1 fragments then .ok ()
    else .error (.uncoveredIntent entry.2)

/-! ### Inferred edges -/

/-- Returns the stable node created by an action, when it creates one. -/
def plannedNode : ProviderAction → Option NodeId
  | .partition (.createTable _ plannedNodeId _) => some plannedNodeId
  | .partition (.create _ plannedNodeId ..) => some plannedNodeId
  | .luks (.format _ plannedNodeId ..) => some plannedNodeId
  | .luks (.open _ plannedNodeId ..) => some plannedNodeId
  | .lvm (.createPv _ plannedNodeId) => some plannedNodeId
  | .lvm (.createVg plannedNodeId ..) => some plannedNodeId
  | .lvm (.createLv _ plannedNodeId ..) => some plannedNodeId
  | .filesystem (.create _ plannedNodeId ..) => some plannedNodeId
  | .btrfs (.create _ plannedNodeId ..) => some plannedNodeId
  | .btrfs (.createSubvolume _ plannedNodeId ..) => some plannedNodeId
  | _ => none

/-- The inputs of an action, as its parameters list them. -/
def actionInputs : ProviderAction → List NodeId
  | .partition (.createTable disk ..) => [disk]
  | .partition (.create table ..) => [table]
  | .partition (.resize partition _) | .partition (.delete partition)
  | .partition (.setAttributes partition _) => [partition]
  | .luks (.format target ..) => [target]
  | .luks (.open container ..) => [container]
  | .luks (.close mapping) | .luks (.resize mapping _) => [mapping]
  | .lvm (.createPv backing _) => [backing]
  | .lvm (.createVg _ _ pvs) => pvs
  | .lvm (.createLv vg ..) => [vg]
  | .lvm (.resizeLv lv _) | .lvm (.removeLv lv) => [lv]
  | .lvm (.setActivation target _) => [target]
  | .filesystem (.create backing ..) => [backing]
  | .filesystem (.resize filesystem _) | .filesystem (.check filesystem _)
  | .filesystem (.repair filesystem _) | .filesystem (.setLabel filesystem _) => [filesystem]
  | .btrfs (.create members ..) => members
  | .btrfs (.addDevice filesystem device) | .btrfs (.removeDevice filesystem device) =>
      [filesystem, device]
  | .btrfs (.convertProfiles filesystem _) | .btrfs (.createSubvolume filesystem ..) => [filesystem]
  | .mount (.mount source ..) => source.node.toList
  | .mount (.persist entry) => entry.source.node.toList
  | .mount (.unmount ..) | .mount (.removePersistent ..) => []

/-- Keeps the first occurrence of each node. -/
def keepFirst : List NodeId → (seen : List NodeId) → List NodeId
  | [], _ => []
  | node :: rest, seen =>
      if node ∈ seen then keepFirst rest seen else node :: keepFirst rest (node :: seen)

/-- Returns graph nodes structurally referenced as action inputs. -/
def referencedNodes (action : ProviderAction) : List NodeId := keepFirst (actionInputs action) []

/-- The creator of each planned node. -/
def collectCreators (current : CurrentState) :
    List (NodeId × ActionId) → List DraftAction →
      Except CompositionError (List (NodeId × ActionId))
  | creators, [] => .ok creators
  | creators, action :: rest =>
      match plannedNode action.operation with
      | none => collectCreators current creators rest
      | some node =>
          if current.graph.contains node then .error (.plannedNodeAlreadyExists node)
          else match creators.lookup node with
            | some first => .error (.duplicatePlannedNode node first action.id)
            | none => collectCreators current (creators ++ [(node, action.id)]) rest

/-- Orders one action after the creator of one of its inputs. -/
def bindInput (current : CurrentState) (creators : List (NodeId × ActionId)) (action : ActionId)
    (dependencies : List ActionDependency) (input : NodeId) :
    Except CompositionError (List ActionDependency) :=
  if current.graph.contains input then .ok dependencies
  else match creators.lookup input with
    | none => .error (.unresolvedInput action input)
    | some creator => addDependency dependencies creator action .inputCreation

/-- Adds creation-order edges and rejects ambiguous planned identities. -/
def bindPlannedNodes (current : CurrentState) (actions : List DraftAction)
    (dependencies : List ActionDependency) : Except CompositionError (List ActionDependency) := do
  let creators ← collectCreators current [] actions
  actions.foldlM (fun dependencies action =>
    (referencedNodes action.operation).foldlM (bindInput current creators action.id) dependencies)
    dependencies

/-- Returns namespace-qualified targets only for runtime mount changes. -/
def runtimeMountTarget : ProviderAction → Option (PathBuf × MountContext)
  | .mount (.mount _ target _ context) | .mount (.unmount target context) => some (target, context)
  | _ => none

/-- Whether the action unmounts something. -/
def isUnmount : ProviderAction → Bool
  | .mount (.unmount ..) => true
  | _ => false

/-- Orders one pair of runtime mount changes.  Explicit recipes can contain repeated phases, so a
pair that is already ordered is left to the replay. -/
def bindMountPair (parent : DraftAction) (dependencies : List ActionDependency)
    (child : DraftAction) : Except CompositionError (List ActionDependency) :=
  match runtimeMountTarget parent.operation, runtimeMountTarget child.operation with
  | some (parentTarget, parentContext), some (childTarget, childContext) =>
      if parentContext ≠ childContext || parentTarget = childTarget ||
          !childTarget.startsWith parentTarget then .ok dependencies
      else if dependencyPath parent.id child.id dependencies ||
          dependencyPath child.id parent.id dependencies then .ok dependencies
      else if isUnmount child.operation then
        addDependency dependencies child.id parent.id .mountOrder
      else addDependency dependencies parent.id child.id .mountOrder
  | _, _ => .ok dependencies

/-- Adds child-removal and parent-preparation edges before the first simulation trace. -/
def bindMountOrder (actions : List DraftAction) (dependencies : List ActionDependency) :
    Except CompositionError (List ActionDependency) :=
  actions.foldlM (fun dependencies parent => actions.foldlM (bindMountPair parent) dependencies)
    dependencies

/-! ### Requirements -/

/-- Reports whether an action output establishes an external condition. -/
def outputSatisfies : ActionOutput → ActionPrerequisite → Bool
  | .node id _, .nodeExists node => id == node
  | .node id spec, .nodeKind node expected => id == node && matchesKind spec.kind expected
  | .filesystemCheckPassed filesystem, .filesystemCheckPassed required => filesystem == required
  | .blockInterface node .readWrite, .writable required => node == required
  | _, _ => false

/-- Selects one output provider, honoring explicit phases and rejecting unordered alternatives. -/
def requirementProvider (requirement : PendingRequirement)
    (contracts : List (ActionId × ActionContract)) (dependencies : List ActionDependency) :
    Except CompositionError (Option ActionId) :=
  let providers := (contracts.filter fun entry =>
    entry.1 ≠ requirement.action &&
      !dependencyPath requirement.action entry.1 dependencies &&
      entry.2.providedOutputs.any (outputSatisfies · requirement.prerequisite)).map (·.1)
  -- A unique latest explicitly ordered predecessor supplies a multi-phase recipe.
  let predecessors := providers.filter fun provider =>
    dependencyPath provider requirement.action dependencies
  match predecessors.find? fun candidate => predecessors.all fun other =>
      other = candidate || dependencyPath other candidate dependencies with
  | some latest => .ok (some latest)
  | none =>
      match providers with
      | [] => .ok none
      | [provider] => .ok (some provider)
      | _ => .error (.ambiguousRequirement requirement.action)

/-- Whether the check holds. -/
def CheckStatus.isSatisfied : CheckStatus → Bool
  | .satisfied _ => true
  | _ => false

/-- The loop over the requirements an action owns; `some` is the list with the new edge. -/
def bindOwned (projection : Projection) (action : DraftAction) (contract : ActionContract)
    (providers : List (ActionId × ActionContract)) (dependencies : List ActionDependency) :
    List PendingRequirement → Except CompositionError (Option (List ActionDependency))
  | [] => .ok none
  | requirement :: rest => do
      if requirement.prerequisite ∉ contract.prerequisites then
        throw (.requirementNotInContract action.id)
      if (evaluatePrerequisite projection.desired projection.evidence
          requirement.prerequisite).isSatisfied then
        bindOwned projection action contract providers dependencies rest
      else
        match ← requirementProvider requirement providers dependencies with
        | some provider =>
            return some (← addDependency dependencies provider action.id .interfacePreparation)
        | none => bindOwned projection action contract providers dependencies rest

/-- Binds a missing declared output in the consumer's current predecessor context.  Already replayed
actions cannot supply a revoked guarantee by being retried implicitly. -/
def bindContextualOutputs (projection : Projection) (action : DraftAction)
    (actions : List DraftAction) (emitted : List (ActionId × ActionContract))
    (requirements : List PendingRequirement) (dependencies : List ActionDependency) :
    Except CompositionError (Option (List ActionDependency)) :=
  let owned := requirements.filter fun requirement => requirement.action == action.id
  if owned.isEmpty then .ok none
  else
    let contract := describeAction action.operation projection.graph
    let providers := (actions.filter fun candidate => (emitted.lookup candidate.id).isNone).map
      fun candidate => (candidate.id, describeAction candidate.operation projection.graph)
    bindOwned projection action contract providers dependencies owned

/-- Ensures fragment requirements still match trusted final contracts. -/
def validateDeclaredRequirements (requirements : List PendingRequirement)
    (contracts : List (ActionId × ActionContract)) : Except CompositionError Unit :=
  requirements.forM fun requirement =>
    match contracts.lookup requirement.action with
    | none => .error (.missingAnalysedContract requirement.action)
    | some contract =>
        if requirement.prerequisite ∈ contract.prerequisites then .ok ()
        else .error (.requirementNotInContract requirement.action)

/-- Resolves one requirement.  Satisfied effects without named outputs still require resource
ordering; unknown trusted conditions remain explicit live obligations. -/
def resolveRequirement (trace : AnalysedOrder) (dependencies : List ActionDependency)
    (requirement : PendingRequirement) : Except CompositionError (List ActionDependency) := do
  match (trace.checks.lookup requirement.action).bind fun checks =>
      checks.find? fun check => check.prerequisite == requirement.prerequisite with
  | none => throw (.missingRequirementCheck requirement.action)
  | some check =>
      if check.status = .satisfied .observedSnapshot then return dependencies
      match ← requirementProvider requirement trace.contracts dependencies with
      | some provider =>
          addDependency dependencies provider requirement.action .interfacePreparation
      | none =>
          if check.status.isViolated then throw (.unresolvedRequirement requirement.action)
          return dependencies

/-- Resolves requirements from the consumer's predecessor checks, never its final state. -/
def resolveRequirements (requirements : List PendingRequirement) (trace : AnalysedOrder)
    (dependencies : List ActionDependency) : Except CompositionError (List ActionDependency) := do
  validateDeclaredRequirements requirements trace.contracts
  requirements.foldlM (resolveRequirement trace) dependencies

/-! ### Resource order -/

/-- The two accesses name one resource and at least one of them writes it. -/
def accessesConflict (left right : ResourceAccess) : Bool :=
  left.resource == right.resource && (left.mode == .write || right.mode == .write)

/-- Returns one shared resource for which at least one action requests a write. -/
def conflictingResource (first second : ActionContract) : Option ActionResource :=
  first.affectedResources.findSome? fun left =>
    second.affectedResources.findSome? fun right =>
      if accessesConflict left right then some left.resource else none

/-- Checks one pair of actions. -/
def checkResourcePair (dependencies : List ActionDependency)
    (first second : ActionId × ActionContract) : Except CompositionError Unit :=
  match conflictingResource first.2 second.2 with
  | none => .ok ()
  | some resource =>
      if dependencyPath first.1 second.1 dependencies ||
          dependencyPath second.1 first.1 dependencies then .ok ()
      else .error (.ambiguousResourceOrder first.1 second.1 resource)

/-- Checks every pair of a list. -/
def checkResourcePairs (dependencies : List ActionDependency) :
    List (ActionId × ActionContract) → Except CompositionError Unit
  | [] => .ok ()
  | first :: rest => do
      rest.forM (checkResourcePair dependencies first)
      checkResourcePairs dependencies rest

/-- Rejects conflicting accesses when the DAG does not define their order. -/
def validateResourceOrder (contracts : List (ActionId × ActionContract))
    (dependencies : List ActionDependency) : Except CompositionError Unit :=
  checkResourcePairs dependencies
    (contracts.insertionSort fun a b => a.1.get ≤ b.1.get)

/-! ### Composition -/

/-- The error of one action of a candidate order. -/
def CompositionError.ofSimulation (action : ActionId) : ActionSimulationError → CompositionError
  | .validation diagnostics => .actionValidation action diagnostics
  | .prerequisitesViolated checks => .actionRejected action checks
  | .effect error => .effect action error

/-- One pass over a candidate order: the trace, or the dependencies with one more edge. -/
def simulatePass (actions : List DraftAction) (requirements : List PendingRequirement)
    (dependencies : List ActionDependency) :
    Projection → AnalysedOrder → List ActionId →
      Returns CompositionError (AnalysedOrder ⊕ List ActionDependency)
  | _, trace, [] => pure (.inl trace)
  | projection, trace, id :: rest =>
      match actions[id.get]? with
      | none => Returns.never
      | some action =>
          match bindContextualOutputs projection action actions trace.contracts requirements
              dependencies with
          | .error error => throw error
          | .ok (some dependencies) => pure (.inr dependencies)
          | .ok none =>
              match simulateAction projection action.operation with
              | .error error => throw (.ofSimulation id error)
              | .ok (result, next) =>
                  simulatePass actions requirements dependencies next
                    { contracts := trace.contracts ++ [(id, result.contract)]
                      checks := trace.checks ++ [(id, result.checks)] } rest

/-- Replays a candidate order, restarting from the baseline whenever a contextual output adds an
edge. -/
def simulateOrder (current : CurrentState) (capacityEvidence : List CapacityEvidence)
    (actions : List DraftAction) (requirements : List PendingRequirement) :
    Nat → List ActionDependency → Returns CompositionError (AnalysedOrder × List ActionDependency)
  | 0, _ => Returns.never
  | restarts + 1, dependencies => do
      let order ← topologicalOrder actions.length dependencies
      match SimulationEvidence.new capacityEvidence with
      | .error error => throw (.capacityEvidence error)
      | .ok evidence =>
          match ← simulatePass actions requirements dependencies (.initial current evidence) {}
              order with
          | .inl trace => return (trace, dependencies)
          | .inr dependencies =>
              simulateOrder current capacityEvidence actions requirements restarts dependencies

/-- One restart for every ordered pair of actions, and the last pass. -/
def restartBound (actions : List DraftAction) : Nat := actions.length * actions.length + 1

/-- The frozen form of one draft action. -/
def freezeAction (contracts : List (ActionId × ActionContract)) (action : DraftAction) :
    Except CompositionError PlannedAction :=
  match contracts.lookup action.id with
  | none => .error (.missingAnalysedContract action.id)
  | some contract =>
      .ok ⟨action.id, action.operation, action.fragment, action.localId, action.origin, contract⟩

/-- Builds a plan with explicit cross-fragment edges before any transition is simulated. -/
def composePlanWithOrdering (current : CurrentState) (fragments : List PlanFragment)
    (ordering : List FragmentOrdering) (capacityEvidence : List CapacityEvidence) :
    Returns CompositionError ExecutionPlan := do
  match current.graph.validateStructure with
  | .error error => throw (.structure error)
  | .ok () =>
      let flattened ← flattenFragments fragments
      let draft := flattened.actions
      let requirements := flattened.requirements
      let dependencies ←
        Returns.lift (ordering.foldlM (addOrdering draft) flattened.dependencies)
      let dependencies ← Returns.lift (bindPlannedNodes current draft dependencies)
      let dependencies ← Returns.lift (bindMountOrder draft dependencies)
      let (first, dependencies) ←
        simulateOrder current capacityEvidence draft requirements (restartBound draft) dependencies
      let dependencies ← Returns.lift (resolveRequirements requirements first dependencies)
      let (final, dependencies) ←
        simulateOrder current capacityEvidence draft [] (restartBound draft) dependencies
      Returns.lift (validateDeclaredRequirements requirements final.contracts)
      Returns.lift (validateResourceOrder final.contracts dependencies)
      let actions ← Returns.lift (draft.mapM (freezeAction final.contracts))
      return ⟨actions, dependencies⟩

/-- Builds one immutable plan using provider capacity evidence for the baseline. -/
def composePlanWithEvidence (current : CurrentState) (fragments : List PlanFragment)
    (capacityEvidence : List CapacityEvidence) : Returns CompositionError ExecutionPlan :=
  composePlanWithOrdering current fragments [] capacityEvidence

/-- Builds a goal-covering plan while rejecting changes to explicitly protected objects. -/
def composePlanForGoalWithPolicy (keys : ContractKeys) (current : CurrentState)
    (goal : DesiredState) (fragments : List PlanFragment)
    (capacityEvidence : List CapacityEvidence) (scope : ProtectedScope) :
    Returns CompositionError ExecutionPlan := do
  Returns.lift (validateIntentCoverage goal.intents fragments)
  let plan ← composePlanWithEvidence current fragments capacityEvidence
  match simulatePlanForGoalWithPolicy keys current plan goal capacityEvidence scope with
  | none => Returns.never
  | some (.error error) => throw (.finalSimulation error)
  | some (.ok report) =>
      match report.protectionViolations with
      | violation :: _ => throw (.protectedScopeViolation violation.action violation.aspect)
      | [] =>
          match report.goalChecks.find? fun check => check.status.isViolated with
          | some check => throw (.goalNotReached check.aspect)
          | none => return plan

end DisksGraph
