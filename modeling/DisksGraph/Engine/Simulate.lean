import DisksGraph.Engine.Plan
import DisksGraph.Provider.Canonical

/-!
# Engine — Simulate

Whole-plan simulation and goal comparison (`simulate.rs`), with the preservation check of
`validate.rs` and the intent matching of `compose.rs` that it calls.
-/

namespace DisksGraph

open Support (Returns)

/-! ### Replay -/

/-- One trusted action result in plan order. -/
structure SimulatedStep where
  action : ActionId
  checks : List PrerequisiteCheck
  invalidatedFacts : List FactInvalidation
deriving DecidableEq

/-- Conditional desired configuration produced without mutating the observed baseline. -/
structure SimulationResult where
  desired : DesiredState
  evidence : SimulationEvidenceSummary
  steps : List SimulatedStep

/-- The projection a replay starts from. -/
def Projection.initial (current : CurrentState) (evidence : SimulationEvidence) : Projection :=
  ⟨DesiredState.fromCurrent current, evidence⟩

/-- The contracts of planned actions as they are held, with the keys that they are sorted by. -/
structure ContractKeys where
  spelling : ContractSpelling
  /-- What is recalculated for an action, in the spelling of its operation and of the graph. -/
  trusted (action : PlannedAction) (graph : NodeGraph) : Described spelling action.operation graph
  /-- What a plan says of an action, in the spelling of the plan. -/
  imported (action : PlannedAction) :
    { held : HeldContract spelling // held.value = action.informationalContract }

/-- One round of the loop of `replay_plan`: the stored contract is compared with the trusted one,
and only the trusted one is retained. -/
def replayAction (keys : ContractKeys) (projection : Projection) (action : PlannedAction) :
    Except PlanSimulationError ((PlannedAction × SimulatedStep) × Projection) :=
  match verifyImportedContract (keys.trusted action projection.graph) (keys.imported action).1 with
  | none => .error (.contractMismatch action.id)
  | some _ =>
      match simulateAction projection action.operation with
      | .error source => .error (.action action.id source)
      | .ok (result, next) =>
          .ok (({ action with informationalContract := result.contract },
            ⟨action.id, result.checks, result.invalidatedFacts⟩), next)

/-- A round that succeeds. -/
theorem replayAction_ok {keys : ContractKeys} {projection next : Projection}
    {action : PlannedAction}
    {entry : PlannedAction × SimulatedStep}
    (h : replayAction keys projection action = .ok (entry, next)) :
    contractsAgree (keys.trusted action projection.graph).1 (keys.imported action).1 = true ∧
    ∃ result, simulateAction projection action.operation = .ok (result, next) ∧
      entry = ({ action with informationalContract := result.contract },
        ⟨action.id, result.checks, result.invalidatedFacts⟩) := by
  unfold replayAction verifyImportedContract at h
  split at h
  · cases h
  · next hverified =>
    split at h
    · cases h
    · next result _ hsimulated =>
      obtain ⟨rfl, rfl⟩ := Prod.mk.inj (Except.ok.inj h)
      refine ⟨?_, result, hsimulated, rfl⟩
      by_contra hagree
      rw [if_neg hagree] at hverified
      cases hverified

/-- The loop of `replay_plan`. -/
def replayActions (keys : ContractKeys) :
    Projection → List PlannedAction →
      Except PlanSimulationError (List (PlannedAction × SimulatedStep) × Projection)
  | projection, [] => .ok ([], projection)
  | projection, action :: rest => do
      let (entry, next) ← replayAction keys projection action
      let (entries, last) ← replayActions keys next rest
      return (entry :: entries, last)

/-- A replay of a sequence is a replay of its first part, and of the rest from there. -/
theorem replayActions_append {keys : ContractKeys} {projection last : Projection}
    {done rest : List PlannedAction} {entries : List (PlannedAction × SimulatedStep)}
    (h : replayActions keys projection (done ++ rest) = .ok (entries, last)) :
    ∃ before mid after, replayActions keys projection done = .ok (before, mid) ∧
      replayActions keys mid rest = .ok (after, last) ∧ entries = before ++ after := by
  induction done generalizing projection entries with
  | nil => exact ⟨[], projection, entries, rfl, h, rfl⟩
  | cons action done ih =>
      obtain ⟨⟨entry, next⟩, hentry, h⟩ := Support.except_bind_eq_ok.mp h
      obtain ⟨⟨tail, last'⟩, htail, h⟩ := Support.except_bind_eq_ok.mp h
      obtain ⟨rfl, rfl⟩ := Prod.mk.inj (Except.ok.inj h)
      obtain ⟨before, mid, after, hbefore, hafter, rfl⟩ := ih htail
      refine ⟨entry :: before, mid, after, ?_, hafter, rfl⟩
      exact Support.except_bind_eq_ok.mpr
        ⟨_, hentry, Support.except_bind_eq_ok.mpr ⟨_, hbefore, rfl⟩⟩

/-- `sort_by_key(|action| action.id)`. -/
def sortById (actions : List PlannedAction) : List PlannedAction :=
  actions.insertionSort fun a b => a.id.get ≤ b.id.get

/-- Replays through the shared interpreter and retains only recalculated trusted contracts. -/
def replayPlan (keys : ContractKeys) (current : CurrentState) (plan : ExecutionPlan)
    (capacityEvidence : List CapacityEvidence) :
    Returns PlanSimulationError (ExecutionPlan × SimulationResult) :=
  match current.graph.validateStructure with
  | .error error => throw (.structure error)
  | .ok () =>
      match SimulationEvidence.new capacityEvidence with
      | .error error => throw (.capacityEvidence error)
      | .ok evidence =>
          match plan.orderedActions with
          | none => Returns.never
          | some ordered =>
              match replayActions keys (.initial current evidence) ordered with
              | .error error => throw error
              | .ok (entries, last) =>
                  pure (⟨sortById (entries.map (·.1)), plan.dependencies⟩,
                    ⟨last.desired, last.evidence.summary, entries.map (·.2)⟩)

/-- A replay that returns went through the loop once. -/
theorem replayPlan_eq_pure {keys : ContractKeys} {current : CurrentState}
    {plan trusted : ExecutionPlan}
    {capacityEvidence : List CapacityEvidence} {simulation : SimulationResult}
    (h : replayPlan keys current plan capacityEvidence = pure (trusted, simulation)) :
    current.graph.validateStructure = .ok () ∧ ∃ evidence ordered entries last,
      SimulationEvidence.new capacityEvidence = .ok evidence ∧ plan.orderedActions = some ordered ∧
      replayActions keys (.initial current evidence) ordered = .ok (entries, last) ∧
      trusted = ⟨sortById (entries.map (·.1)), plan.dependencies⟩ ∧
      simulation = ⟨last.desired, last.evidence.summary, entries.map (·.2)⟩ := by
  unfold replayPlan at h
  split at h
  · cases h
  · next hstructure =>
    split at h
    · cases h
    · next evidence hevidence =>
      split at h
      · cases h
      · next ordered hordered =>
        split at h
        · cases h
        · next entries last hreplay =>
          obtain ⟨rfl, rfl⟩ := Prod.mk.inj (Returns.pure_inj.mp h)
          exact ⟨hstructure, evidence, ordered, entries, last, hevidence, hordered, hreplay, rfl, rfl⟩

/-- One step for each action. -/
theorem replayActions_length {keys : ContractKeys} {projection last : Projection}
    {actions : List PlannedAction} {entries : List (PlannedAction × SimulatedStep)}
    (h : replayActions keys projection actions = .ok (entries, last)) :
    entries.length = actions.length := by
  induction actions generalizing projection entries with
  | nil =>
      obtain ⟨rfl, -⟩ := Prod.mk.inj (Except.ok.inj h)
      rfl
  | cons action rest ih =>
      obtain ⟨⟨entry, next⟩, -, h⟩ := Support.except_bind_eq_ok.mp h
      obtain ⟨⟨tail, last'⟩, htail, h⟩ := Support.except_bind_eq_ok.mp h
      obtain ⟨rfl, rfl⟩ := Prod.mk.inj (Except.ok.inj h)
      exact congrArg Nat.succ (ih htail)

/-- Simulates a complete plan with baseline provider capacity evidence. -/
def simulatePlanWithEvidence (keys : ContractKeys) (current : CurrentState) (plan : ExecutionPlan)
    (capacityEvidence : List CapacityEvidence) : Returns PlanSimulationError SimulationResult := do
  let (_, simulation) ← replayPlan keys current plan capacityEvidence
  return simulation

/-! ### Protected scope -/

/-- Uses the same lexical absolute-path constraints as provider mount actions. -/
def validPolicyPath (path : PathBuf) : Bool :=
  path.isAbsolute && !path.containsNul && !path.components.any (· == .parentDir)

/-- Both paths of a protected mount are unambiguous. -/
def ProtectedMount.isValid (mount : ProtectedMount) : Bool :=
  validPolicyPath mount.target &&
    match mount.context with
    | .targetRoot root => validPolicyPath root
    | .host | .namespaced _ => true

/-- Rejects ambiguous paths before they can silently bypass a mount policy. -/
def validateProtectedScope (scope : ProtectedScope) : Except PlanSimulationError Unit :=
  match (scope.runtimeMounts ++ scope.persistentMounts).find? fun mount => !mount.isValid with
  | some mount => .error (.invalidProtectedMount mount)
  | none => .ok ()

/-- Protects incident topology as well as direct node properties. -/
def graphEffectTouches (effect : GraphEffect) (node : NodeId) : Bool :=
  match effect with
  | .insertNode id _ | .removeNode id | .invalidateNodeSize id | .setNodeSize id _
  | .setActivation id _ | .setPartitionAttributes id _ | .setFilesystemLabel id _
  | .setBtrfsAllocation id _ => id == node
  | .insertDependency edge | .removeDependency edge => edge.source == node || edge.target == node
  | .insertRelation link | .removeRelation link => link.source == node || link.target == node

/-- Adds one action/aspect conflict once, even if the policy repeats an object. -/
def pushViolation (violations : List ProtectionViolation) (violation : ProtectionViolation) :
    List ProtectionViolation :=
  if violation ∈ violations then violations else violations ++ [violation]

namespace ActionContract

/-- A read-only inspection may refresh content evidence without changing protected data. -/
def isMutating (contract : ActionContract) : Bool :=
  contract.affectedResources.any (·.mode == .write) || !contract.predictedEffect.graph.isEmpty ||
    !contract.predictedEffect.mounts.isEmpty || !contract.predictedEffect.allocations.isEmpty

/-- A write access names the node as itself, as a partition table or as a volume group. -/
def writesNode (contract : ActionContract) (node : NodeId) : Bool :=
  contract.affectedResources.any fun access =>
    access.mode == .write &&
      match access.resource with
      | .node id | .partitionTable id | .lvmMetadata id => id == node
      | _ => false

end ActionContract

/-- The action touches a protected node. -/
def touchesNode (contract : ActionContract) (step : SimulatedStep) (node : NodeId) : Bool :=
  contract.writesNode node ||
    (contract.isMutating && step.invalidatedFacts.any (·.scope == .node node)) ||
    contract.predictedEffect.graph.any (graphEffectTouches · node)

/-- The effect changes the runtime mounts at, above or below a protected target. -/
def mountEffectTouches (effect : MountEffect) (mount : ProtectedMount) : Bool :=
  match effect with
  | .addRuntime _ target _ context | .removeRuntime target context =>
      context == mount.context &&
        (target.startsWith mount.target || mount.target.startsWith target)
  | .setPersistent _ | .removePersistent .. => false

/-- Whether the contract changes a protected runtime mount. -/
def touchesRuntimeMount (contract : ActionContract) (mount : ProtectedMount) : Bool :=
  contract.predictedEffect.mounts.any (mountEffectTouches · mount)

/-- Whether the contract writes the configuration a protected mount stands in. -/
def touchesPersistentMount (contract : ActionContract) (mount : ProtectedMount) : Bool :=
  contract.affectedResources.any fun access =>
    access.mode == .write && access.resource == .persistentMountConfig mount.context

/-- The protected aspects one action touches, in the order of the policy. -/
def touchedAspects (contract : ActionContract) (step : SimulatedStep) (scope : ProtectedScope) :
    List ProtectedAspect :=
  (scope.nodes.filter (touchesNode contract step)).map .node ++
    (scope.runtimeMounts.filter (touchesRuntimeMount contract)).map .runtimeMount ++
    (scope.persistentMounts.filter (touchesPersistentMount contract)).map .persistentMount

/-- The violations of one action and its step. -/
def stepViolations (scope : ProtectedScope) (entry : PlannedAction × SimulatedStep) :
    List ProtectionViolation :=
  (touchedAspects entry.1.informationalContract entry.2 scope).map fun aspect =>
    ⟨entry.1.id, aspect⟩

/-- Checks replayed contracts and expanded invalidations in action order. -/
def checkProtectedScope (plan : ExecutionPlan) (simulation : SimulationResult)
    (scope : ProtectedScope) : Option (List ProtectionViolation) :=
  plan.orderedActions.map fun ordered =>
    ((ordered.zip simulation.steps).flatMap (stepViolations scope)).foldl pushViolation []

/-! ### Intents -/

/-- Shares typed intent matching between composition and simulation reports.  A reformat needs
explicit replacement semantics before a creation can prove coverage. -/
def actionsCoverIntent (intent : OperationIntent) (actions : List ProviderAction) : Bool :=
  match intent with
  | .check target force => actions.contains (.filesystem (.check target force))
  | .repair target force => actions.contains (.filesystem (.repair target force))
  | .convertBtrfsProfiles filesystem target =>
      actions.contains (.btrfs (.convertProfiles filesystem target))
  | .setActivation target active => actions.contains (.lvm (.setActivation target active))
  | .replaceMember group old new =>
      actions.contains (.btrfs (.removeDevice group old)) &&
        actions.contains (.btrfs (.addDevice group new))
  | .reformat .. => false

/-- Coverage of an explicit request by typed actions, without claiming execution. -/
structure IntentCoverage where
  index : Nat
  actions : List ActionId
  covered : Bool
deriving DecidableEq, Repr

/-- The coverage of one intent by the ordered actions. -/
def intentCoverage (ordered : List PlannedAction) (entry : OperationIntent × Nat) :
    IntentCoverage :=
  let actions := ordered.filter fun action => action.origin == .intent entry.2
  { index := entry.2
    actions := actions.map (·.id)
    covered := actionsCoverIntent entry.1 (actions.map (·.operation)) }

/-! ### Goals -/

/-- A goal node whose requested size differs from a known projected one. -/
def sizeMismatch (projected : NodeGraph) (entry : NodeId × Node) : Bool :=
  match entry.2.kind.size, knownSize projected entry.1 with
  | some required, some actual => actual ≠ required
  | _, _ => false

/-- A goal node whose requested size cannot be compared. -/
def sizeUnknown (projected : NodeGraph) (entry : NodeId × Node) : Bool :=
  entry.2.kind.size.isSome && (knownSize projected entry.1).isNone

/-- Compares exact topology/kinds and the specifically managed capacity field.  The source returns
at the first size that contradicts the request. -/
def compareGraph (projected requested : NodeGraph) : GoalStatus :=
  let topologyMatches :=
    projected.nodeList.length == requested.nodeList.length &&
    (projected.nodeList.all fun entry =>
      (requested.kindOf entry.1).any (· == entry.2.kind.kind)) &&
    projected.dependencies.length == requested.dependencies.length &&
    (projected.dependencies.all fun edge => requested.dependencies.contains edge) &&
    projected.relations.length == requested.relations.length &&
    (projected.relations.all fun link => requested.relations.contains link)
  if !topologyMatches then
    .violated "projected storage topology or node properties do not match the requested graph"
  else if requested.nodeList.any (sizeMismatch projected) then
    .violated "projected capacity does not match the requested size"
  else if requested.nodeList.any (sizeUnknown projected) then
    .unknown "provider capacity evidence for nodes with explicitly requested sizes"
  else .satisfied

/-- Checks one requested runtime mount relation; option sequences are compared exactly. -/
def runtimeMountCheck (mounts : List MountEntry) (entry : MountEntry) : GoalCheck where
  aspect := .runtimeMount entry.target entry.context
  status :=
    if mounts.contains entry then .satisfied
    else .violated "requested runtime mount is absent from the projection"

/-- Distinguishes an explicitly predicted persistent target from the unread baseline. -/
def SimulationEvidenceSummary.persistentMountWasProjected (evidence : SimulationEvidenceSummary)
    (target : PathBuf) (context : MountContext) : Bool :=
  evidence.determinedPersistentTargets.contains (target, context)

/-- Checks a persistent entry without treating an unread baseline as empty. -/
def persistentMountCheck (desired : DesiredState) (evidence : SimulationEvidenceSummary)
    (requested : MountEntry) : GoalCheck where
  aspect := .persistentMount requested.target requested.context
  status :=
    if desired.mounts.persistent.contains requested then .satisfied
    else if evidence.persistentMountWasProjected requested.target requested.context then
      .violated "planned persistent mount entry does not match the request"
    else .unknown "persistent mount configuration baseline or planned effect"

/-- The boot aspect: nothing verifies a managed boot yet. -/
def bootCheck (goal : DesiredState) : GoalCheck where
  aspect := .boot
  status :=
    match goal.boot with
    | .unmanaged => .satisfied
    | .uefi | .bios => .unknown "boot planning and verification"

/-- Compares predicted configuration with the requested semantic goal using its evidence
summary. -/
def compareGoal (desired : DesiredState) (evidence : SimulationEvidenceSummary)
    (goal : DesiredState) : List GoalCheck :=
  ⟨.graph, compareGraph desired.graph goal.graph⟩ ::
    (goal.mounts.runtime.map (runtimeMountCheck desired.mounts.runtime) ++
      goal.mounts.persistent.map (persistentMountCheck desired evidence) ++ [bootCheck goal])

/-! ### Reports -/

/-- Evidence missing from a successful but conditional simulation. -/
inductive SimulationObligation where
  | prerequisite (action : ActionId) (prerequisite : ActionPrerequisite)
      (requiredEvidence : String)
  | goal (aspect : GoalAspect) (requiredEvidence : String)
deriving DecidableEq

/-- Plan analysis with optional goal comparison; never grants live execution permission. -/
structure SimulationReport where
  simulation : SimulationResult
  goalChecks : List GoalCheck
  intentCoverage : List IntentCoverage
  unresolvedObligations : List SimulationObligation
  protectionViolations : List ProtectionViolation

/-- The obligations left by the checks of one step. -/
def stepObligations (step : SimulatedStep) : List SimulationObligation :=
  step.checks.filterMap fun check =>
    match check.status with
    | .unknown requiredEvidence =>
        some (.prerequisite step.action check.prerequisite requiredEvidence)
    | _ => none

/-- The obligations left by the goal checks. -/
def goalObligations (checks : List GoalCheck) : List SimulationObligation :=
  checks.filterMap fun check =>
    match check.status with
    | .unknown requiredEvidence => some (.goal check.aspect requiredEvidence)
    | _ => none

/-- The first action whose provenance names an absent intent. -/
def unknownIntentOrigin (plan : ExecutionPlan) (intents : List OperationIntent) :
    Option PlanSimulationError :=
  plan.actions.findSome? fun action =>
    match action.origin with
    | .intent index =>
        if intents.length ≤ index then some (.unknownIntentOrigin action.id index) else none
    | _ => none

/-- Analyses requests and protected scope without requiring an independently supplied goal. -/
def analysePlan (keys : ContractKeys) (current : CurrentState) (plan : ExecutionPlan)
    (intents : List OperationIntent) (capacityEvidence : List CapacityEvidence)
    (scope : ProtectedScope) : Returns PlanSimulationError SimulationReport := do
  match validateProtectedScope scope with
  | .error error => throw error
  | .ok () =>
      match unknownIntentOrigin plan intents with
      | some error => throw error
      | none =>
          let simulation ← simulatePlanWithEvidence keys current plan capacityEvidence
          let simulation := { simulation with desired := { simulation.desired with intents } }
          match checkProtectedScope plan simulation scope, plan.orderedActions with
          | some protectionViolations, some ordered =>
              return {
                simulation
                goalChecks := []
                intentCoverage := intents.zipIdx.map (intentCoverage ordered)
                unresolvedObligations := simulation.steps.flatMap stepObligations
                protectionViolations }
          | _, _ => Returns.never

/-- Replays a plan against the goal and an explicit protected area, retaining every conflict. -/
def simulatePlanForGoalWithPolicy (keys : ContractKeys) (current : CurrentState)
    (plan : ExecutionPlan) (goal : DesiredState) (capacityEvidence : List CapacityEvidence)
    (scope : ProtectedScope) : Returns PlanSimulationError SimulationReport := do
  match goal.graph.validateStructure with
  | .error error => throw (.structure error)
  | .ok () =>
      let report ← analysePlan keys current plan goal.intents capacityEvidence scope
      let goalChecks := compareGoal report.simulation.desired report.simulation.evidence goal
      return { report with
        goalChecks
        unresolvedObligations := report.unresolvedObligations ++ goalObligations goalChecks }

/-! ### A plan of one mount -/

/-- `/data`. -/
def sampleTarget : PathBuf := ⟨[.rootDir, .normal "data"]⟩

/-- Mount a `tmpfs` at `/data`. -/
def sampleOperation : ProviderAction := .mount (.mount .tmpfs sampleTarget [] .host)

/-- The planned unmount of the sample target. -/
def sampleAction : PlannedAction where
  id := ⟨0⟩
  operation := sampleOperation
  fragment := ⟨0⟩
  localId := ⟨0⟩
  origin := .mount sampleTarget .host
  informationalContract := describeAction sampleOperation .empty

/-- Nothing was observed. -/
def sampleState : CurrentState := ⟨.empty, [], {}, []⟩

/-- The JSON texts of some values, each of another value. -/
abbrev TextTable (α : Type) : Type :=
  { texts : List (α × String) // (texts.map Prod.snd).Nodup }

/-- Values that are spelled in one way only, with the texts of a table. -/
def TextTable.spelling {α : Type} [DecidableEq α] (table : TextTable α) : Spelling α where
  Held := α
  value := id
  text value := (table.1.find? fun entry => entry.1 = value).map Prod.snd
  faithful a b htext hsome := by
    obtain ⟨text, ha⟩ := Option.isSome_iff_exists.mp hsome
    obtain ⟨first, hfirst, rfl⟩ := Option.map_eq_some_iff.mp ha
    obtain ⟨second, hsecond, hsame⟩ := Option.map_eq_some_iff.mp (htext.symm.trans ha)
    have hentry : second = first := List.inj_on_of_nodup_map table.2
      (List.mem_of_find?_eq_some hsecond) (List.mem_of_find?_eq_some hfirst) hsame
    have hfirstValue : first.1 = a := by simpa using List.find?_some hfirst
    have hsecondValue : second.1 = b := by simpa using List.find?_some hsecond
    rw [← hfirstValue, ← hsecondValue, hentry]

/-- The texts of the values in some contracts whose paths are spelled in one way. -/
structure ContractTexts where
  prerequisite : TextTable ActionPrerequisite
  output : TextTable ActionOutput
  resource : TextTable ResourceAccess
  fact : TextTable FactInvalidation
  postcondition : TextTable Postcondition
  effect : TextTable GraphEffect

namespace ContractTexts

variable (texts : ContractTexts)

/-- Each value is held as it is. -/
def spelling : ContractSpelling where
  prerequisite := texts.prerequisite.spelling
  output := texts.output.spelling
  resource := texts.resource.spelling
  fact := texts.fact.spelling
  postcondition := texts.postcondition.spelling
  effect := texts.effect.spelling

/-- A contract held as it is. -/
def held (contract : ActionContract) :
    { held : HeldContract texts.spelling // held.value = contract } where
  val :=
    { prerequisites := contract.prerequisites
      providedOutputs := contract.providedOutputs
      affectedResources := contract.affectedResources
      graph := contract.predictedEffect.graph
      mounts := contract.predictedEffect.mounts
      allocations := contract.predictedEffect.allocations
      invalidatedFacts := contract.invalidatedFacts
      postconditions := contract.postconditions
      restartPolicy := contract.restartPolicy }
  property := by simp [HeldContract.value, spelling, TextTable.spelling]

/-- Every contract is held as it is. -/
def keys : ContractKeys where
  spelling := texts.spelling
  trusted action graph := texts.held (describeAction action.operation graph)
  imported action := texts.held action.informationalContract

end ContractTexts

/-- The JSON texts of the contract of `sampleAction`. -/
def sampleKeys : ContractKeys := ContractTexts.keys {
  prerequisite := ⟨[
    (.mountDescendantsAbsent sampleTarget .host,
      "\x7b\"mount_descendants_absent\":\x7b\"target\":\"/data\",\"context\":\"host\"\x7d\x7d"),
    (.mountTargetAvailable sampleTarget .host,
      "\x7b\"mount_target_available\":\x7b\"target\":\"/data\",\"context\":\"host\"\x7d\x7d")],
    by decide⟩
  output := ⟨[
    (.mount .tmpfs sampleTarget .host,
      "\x7b\"mount\":\x7b\"source\":\"tmpfs\",\"target\":\"/data\",\"context\":\"host\"\x7d\x7d")],
    by decide⟩
  resource := ⟨[
    (⟨.runtimeMountState, .write⟩,
      "\x7b\"resource\":\"runtime_mount_state\",\"mode\":\"write\"\x7d"),
    (⟨.mountTarget sampleTarget .host, .write⟩,
      "\x7b\"resource\":\x7b\"mount_target\":\x7b\"target\":\"/data\"," ++
        "\"context\":\"host\"\x7d\x7d,\"mode\":\"write\"\x7d")],
    by decide⟩
  fact := ⟨[
    (⟨.mountTarget sampleTarget .host, .mount⟩,
      "\x7b\"scope\":\x7b\"mount_target\":\x7b\"target\":\"/data\"," ++
        "\"context\":\"host\"\x7d\x7d,\"kind\":\"mount\"\x7d")],
    by decide⟩
  postcondition := ⟨[
    (.runtimeMountPresent .tmpfs sampleTarget .host,
      "\x7b\"runtime_mount_present\":\x7b\"source\":\"tmpfs\",\"target\":\"/data\"," ++
        "\"context\":\"host\"\x7d\x7d")],
    by decide⟩
  effect := ⟨[], by decide⟩ }

end DisksGraph
