import DisksGraph.Engine.Execution
import DisksGraph.Engine.Observed
import DisksGraph.Model.Rename
import DisksGraph.Support.Matching

/-!
# Engine — Goal

Comparison of the requested final state with one actual observation (`live/goal.rs` and the mount
options of `live/mount.rs`).

* `graphStatus` maps every goal node to one observed node, compares the properties, then the
  topology, then the last activation request of each volume.
* `observed_goal_isomorphic`: a satisfied graph aspect makes that map an isomorphism.
-/

namespace DisksGraph

open Support (Returns)

/-- Immutable reviewed context supplied to the trusted runtime checker. -/
structure ExecutionContext where
  runId : Uuid
  planId : Uuid
  plan : ExecutionPlan
  historicalBaseline : HistoricalBaseline
  requestedGoal : DesiredState
  protectedScope : ProtectedScope

/-- What the goal check of a run reads. -/
def ExecutionRun.context (run : ExecutionRun) : ExecutionContext where
  runId := run.runId
  planId := run.document.planId
  plan := run.plan
  historicalBaseline := run.document.baseline
  requestedGoal := run.document.requestedGoal
  protectedScope := run.document.protectedScope

/-! ### Mount options -/

/-- The part of an option before its first `=`. -/
def optionKey (option : String) : List Char := option.toList.takeWhile (· ≠ '=')

/-- One option that stands for nothing but itself. -/
def isExplicitOption (option : String) : Bool :=
  !option.isEmpty && option != "defaults" &&
    !(option.toList.any fun c => c == ',' || c == '\x00' || isWhiteSpace c) &&
    !(optionKey option).isEmpty

/-- Options of which at most one may be given. -/
def exclusiveOptions : List (List String) :=
  [["exec", "noexec"], ["suid", "nosuid"], ["dev", "nodev"],
    ["atime", "noatime", "relatime", "strictatime"], ["diratime", "nodiratime"]]

/-- Sorting is safe only after excluding duplicate keys, contradictory flags and implicit
defaults. -/
def explicitOptions (options : List String) : Option (List String) :=
  if !options.all isExplicitOption || ¬(options.map optionKey).Nodup then none
  else if options.contains "rw" == options.contains "ro" then none
  else if exclusiveOptions.any fun group => decide (1 < group.countP options.contains) then none
  else some (options.insertionSort (· ≤ ·))

/-- Compares explicit option sets without guessing expansion of defaults or precedence of
duplicates. -/
def optionsStatus (requested observed : List String) : LiveCheckStatus :=
  match explicitOptions requested, explicitOptions observed with
  | some requested, some observed =>
      if requested = observed then .satisfied
      else .violated "observed mount options differ from the requested goal"
  | _, _ => .unknown "explicit normalized mount options with one access mode are required"

/-! ### Nodes -/

/-- The managed properties of one goal node against those of its observed node. -/
def compareGoalNode (requested actual : Node) : Except LiveCheckStatus Unit :=
  if requested.kind.kind ≠ actual.kind.kind then
    .error (.violated "final node properties differ from the requested goal")
  else match requested.kind.size, actual.kind.size with
    | none, _ => .ok ()
    | some size, some actual =>
        if actual = size then .ok ()
        else .error (.violated "final node capacity differs from the requested goal")
    | some _, none => .error (.unknown "final managed node capacity is unknown")

/-- One round of the loop over the goal nodes; `mapping` is what was matched before. -/
def matchGoalNode (baseline : HistoricalBaseline) (observed : LiveObservation)
    (bindings : List NodeCorrelation) (mapping : List (NodeId × NodeId)) (entry : NodeId × Node) :
    Except LiveCheckStatus (List (NodeId × NodeId)) := do
  let (target, actual) ← resultNode baseline observed entry.1 bindings
  if target ∈ mapping.map (·.2) then
    .error (.unknown "final graph correlation is not one-to-one")
  else do
    compareGoalNode entry.2 actual
    return mapping ++ [(entry.1, target)]

/-! ### Topology -/

/-- A goal dependency between the observed nodes; the source indexes the map without a check. -/
def mapDependency (mapping : List (NodeId × NodeId)) (edge : Dependency) : Option Dependency := do
  let source ← mapping.lookup edge.source
  let target ← mapping.lookup edge.target
  return { edge with source, target }

/-- The same for a relation. -/
def mapRelation (mapping : List (NodeId × NodeId)) (edge : Relation) : Option Relation := do
  let source ← mapping.lookup edge.source
  let target ← mapping.lookup edge.target
  return { edge with source, target }

/-- The goal has as many nodes and edges as the observation, and its edges are observed. -/
def sameTopology (mapping : List (NodeId × NodeId)) (goal actual : NodeGraph) : Option Bool := do
  let dependencies ← goal.dependencies.mapM (mapDependency mapping)
  let relations ← goal.relations.mapM (mapRelation mapping)
  return goal.nodeList.length == actual.nodeList.length &&
    goal.dependencies.length == actual.dependencies.length &&
    goal.relations.length == actual.relations.length &&
    dependencies.all (· ∈ actual.dependencies) && relations.all (· ∈ actual.relations)

/-! ### Activation -/

/-- The node and the state of an activation request. -/
def activationRequest : ProviderAction → Option (NodeId × Bool)
  | .lvm (.setActivation target active) => some (target, active)
  | _ => none

/-- The activation requests of a list of actions. -/
def activationRequests (actions : List PlannedAction) : List (NodeId × Bool) :=
  actions.filterMap fun action => activationRequest action.operation

/-- The first request of each node that was not seen before.  The source scans the actions from the
last one, so that this is the final request of the node. -/
def firstRequests : List (NodeId × Bool) → (seen : List NodeId) → List (NodeId × Bool)
  | [], _ => []
  | request :: rest, seen =>
      if request.1 ∈ seen then firstRequests rest seen
      else request :: firstRequests rest (request.1 :: seen)

/-- The endpoint is writable, with known geometry and a path. -/
def isWritableInterface (node : Node) : Bool :=
  node.size.block.any fun block =>
    block.readOnly == some false && block.geometry.isSome && !block.paths.isEmpty

/-- Rechecks final LV activation and the writable interface promised by the initial active-LV
recipe. -/
def activationStatus (context : ExecutionContext) (observed : LiveObservation)
    (bindings : List NodeCorrelation) (request : NodeId × Bool) : LiveCheckStatus :=
  match resultNode context.historicalBaseline observed request.1 bindings with
  | .error status => status
  | .ok (_, node) =>
      if !node.kind.kind.isLvmLv then
        .unknown "final activation verification supports only logical volumes"
      else match node.size.lvmActive with
        | none => .unknown "final LV activation state is unknown"
        | some actual =>
            if actual ≠ request.2 then
              .violated "final LV activation differs from the reviewed request"
            else if request.2 && !isWritableInterface node then
              .unknown "final active LV requires a known writable block interface"
            else .satisfied

/-- The evidence of one requested intent. -/
def intentStatus (context : ExecutionContext) (observed : LiveObservation)
    (bindings : List NodeCorrelation) : OperationIntent → LiveCheckStatus
  | .setActivation target active => activationStatus context observed bindings (target, active)
  | _ => .unknown "independent final evidence for the requested operation intent is required"

/-- The first status that is not satisfied. -/
def firstUnsatisfied (statuses : List LiveCheckStatus) : LiveCheckStatus :=
  (statuses.find? (· ≠ .satisfied)).getD .satisfied

/-! ### The goal -/

/-- The activation loops: the final requests of the plan, then the requested intents. -/
def requestsStatus (context : ExecutionContext) (observed : LiveObservation)
    (bindings : List NodeCorrelation) (ordered : List PlannedAction) : LiveCheckStatus :=
  firstUnsatisfied
    ((firstRequests (activationRequests ordered.reverse) []).map
        (activationStatus context observed bindings) ++
      context.requestedGoal.intents.map (intentStatus context observed bindings))

/-- Compares exact graph topology and managed properties after one-to-one stable correlation.
`none` is a panic. -/
def graphStatus (context : ExecutionContext) (observed : LiveObservation)
    (bindings : List NodeCorrelation) : Option LiveCheckStatus :=
  match context.requestedGoal.graph.nodeList.foldlM
      (matchGoalNode context.historicalBaseline observed bindings) [] with
  | .error status => some status
  | .ok mapping => do
      if ← sameTopology mapping context.requestedGoal.graph observed.snapshot.graph then
        return requestsStatus context observed bindings (← context.plan.orderedActions)
      else return .violated "final topology differs from the requested goal"

/-- One requested runtime mount. -/
def mountCheck (context : ExecutionContext) (observed : LiveObservation)
    (bindings : List NodeCorrelation) (mount : MountEntry) : LiveCheck GoalAspect where
  condition := .runtimeMount mount.target mount.context
  status := qualifyObservedStatus observed <|
    match observedMount context.historicalBaseline observed mount.source mount.target mount.context
        bindings with
    | .ok actual => optionsStatus mount.options actual.options
    | .error status => status

/-- One requested persistent mount. -/
def persistentCheck (mount : MountEntry) : LiveCheck GoalAspect where
  condition := .persistentMount mount.target mount.context
  status := .unknown "independent persistent configuration verification is required"

/-- The requested boot configuration. -/
def liveBootCheck (boot : BootSpec) : LiveCheck GoalAspect where
  condition := .boot
  status :=
    if boot = .unmanaged then .satisfied
    else .unknown "independent managed boot verification is required"

/-- The representation checks in front of the comparison. -/
def checkGoalObservable (context : ExecutionContext) (observed : LiveObservation) :
    Except ObservationError Unit := do
  checkObservable context.historicalBaseline observed
  match context.requestedGoal.graph.validateStructure with
  | .error error => .error (.graph error)
  | .ok () => .ok ()

/-- Checks every requested aspect using one actual publication and runtime-verified output
identities. -/
def checkObservedGoal (context : ExecutionContext) (observed : LiveObservation)
    (bindings : List NodeCorrelation) : Returns ObservationError (List (LiveCheck GoalAspect)) := do
  Returns.lift (checkGoalObservable context observed)
  let status ← Returns.unwrap (graphStatus context observed bindings)
  return ⟨.graph, qualifyObservedStatus observed status⟩ ::
    (context.requestedGoal.mounts.runtime.map (mountCheck context observed bindings) ++
      context.requestedGoal.mounts.persistent.map persistentCheck ++
      [liveBootCheck context.requestedGoal.boot])

/-! ### Matching -/

section Matching

variable {baseline : HistoricalBaseline} {observed : LiveObservation}
  {bindings : List NodeCorrelation}
  {id target : NodeId} {node requested actual : Node} {mapping mapping' : List (NodeId × NodeId)}
  {entries : List (NodeId × Node)}

theorem correlatedNode_node (h : correlatedNode baseline observed id = .ok (target, node)) :
    observed.snapshot.graph.node target = some node := by
  unfold correlatedNode at h
  split at h
  · cases h
  · cases h
  · split at h
    · cases h
    · next hnode =>
      obtain ⟨rfl, rfl⟩ := Prod.mk.inj (Except.ok.inj h)
      exact hnode

/-- A result is a node of the observation. -/
theorem resultNode_node (h : resultNode baseline observed id bindings = .ok (target, node)) :
    observed.snapshot.graph.node target = some node := by
  unfold resultNode at h
  split at h
  · exact correlatedNode_node h
  · split at h
    · cases h
    · split at h
      · cases h
      · split at h
        · cases h
        · split at h
          · cases h
          · next hnode =>
            split at h
            · cases h
            · obtain ⟨rfl, rfl⟩ := Prod.mk.inj (Except.ok.inj h)
              exact hnode

/-- Where no result is found, nothing is contradicted. -/
theorem resultNode_unknown {status : LiveCheckStatus}
    (h : resultNode baseline observed id bindings = .error status) :
    ∃ reason, status = .unknown reason := by
  have hcorrelated : ∀ {status}, correlatedNode baseline observed id = .error status →
      ∃ reason, status = .unknown reason := by
    intro status h
    unfold correlatedNode at h
    split at h
    · exact ⟨_, (Except.error.inj h).symm⟩
    · exact ⟨_, (Except.error.inj h).symm⟩
    · split at h
      · exact ⟨_, (Except.error.inj h).symm⟩
      · cases h
  unfold resultNode at h
  split at h
  · exact hcorrelated h
  · split at h
    · exact ⟨_, (Except.error.inj h).symm⟩
    · split at h
      · exact ⟨_, (Except.error.inj h).symm⟩
      · split at h
        · exact ⟨_, (Except.error.inj h).symm⟩
        · split at h
          · exact ⟨_, (Except.error.inj h).symm⟩
          · split at h
            · exact ⟨_, (Except.error.inj h).symm⟩
            · cases h

/-- The observed node has the kind of the goal node, and its size if one is requested. -/
def SameProperties (requested actual : Node) : Prop :=
  requested.kind.kind = actual.kind.kind ∧
    ∀ size, requested.kind.size = some size → actual.kind.size = some size

/-- The observed node has another kind, or another known size. -/
def Differs (requested actual : Node) : Prop :=
  requested.kind.kind ≠ actual.kind.kind ∨ ∃ size known, requested.kind.size = some size ∧
    actual.kind.size = some known ∧ known ≠ size

/-- The observed node has the kind of the goal node, and no known size where one is requested. -/
def SizeUnknown (requested actual : Node) : Prop :=
  requested.kind.kind = actual.kind.kind ∧ requested.kind.size ≠ none ∧ actual.kind.size = none

/-- What the comparison of one node finds. -/
inductive Comparison (requested actual : Node) : Except LiveCheckStatus Unit → Prop where
  | same (h : SameProperties requested actual) : Comparison requested actual (.ok ())
  | differs (reason : String) (h : Differs requested actual) :
      Comparison requested actual (.error (.violated reason))
  | sizeUnknown (reason : String) (h : SizeUnknown requested actual) :
      Comparison requested actual (.error (.unknown reason))

theorem compareGoalNode_spec :
    Comparison requested actual (compareGoalNode requested actual) := by
  unfold compareGoalNode
  by_cases hkind : requested.kind.kind = actual.kind.kind
  · rw [if_neg (not_not_intro hkind)]
    cases hsize : requested.kind.size with
    | none => exact .same ⟨hkind, fun size h => by rw [hsize] at h; cases h⟩
    | some size =>
        cases hknown : actual.kind.size with
        | none => exact .sizeUnknown _ ⟨hkind, by rw [hsize]; exact nofun, hknown⟩
        | some known =>
            dsimp only
            by_cases hsame : known = size
            · rw [if_pos hsame]
              refine .same ⟨hkind, fun size' h => ?_⟩
              rw [hknown, hsame, ← hsize, h]
            · rw [if_neg hsame]
              exact .differs _ (.inr ⟨size, known, hsize, hknown, hsame⟩)
  · rw [if_pos hkind]
    exact .differs _ (.inl hkind)

theorem SameProperties.not_differs (h : SameProperties requested actual) :
    ¬Differs requested actual := by
  rintro (hkind | ⟨size, known, hsize, hknown, hdiffers⟩)
  · exact hkind h.1
  · exact hdiffers (Option.some.inj (hknown.symm.trans (h.2 size hsize)))

theorem SizeUnknown.not_differs (h : SizeUnknown requested actual) : ¬Differs requested actual := by
  rintro (hkind | ⟨_, _, -, hknown, -⟩)
  · exact hkind h.1
  · exact absurd (hknown.symm.trans h.2.2) nofun

theorem compareGoalNode_eq_ok :
    compareGoalNode requested actual = .ok () ↔ SameProperties requested actual := by
  have hspec := @compareGoalNode_spec requested actual
  constructor
  · intro h
    rw [h] at hspec
    cases hspec with
    | same h => exact h
  · intro h
    generalize compareGoalNode requested actual = result at hspec
    cases hspec with
    | same _ => rfl
    | differs _ hdiffers => exact absurd hdiffers h.not_differs
    | sizeUnknown _ hunknown =>
        obtain ⟨size, hsize⟩ := Option.ne_none_iff_exists'.mp hunknown.2.1
        exact absurd ((h.2 size hsize).symm.trans hunknown.2.2) nofun

/-- The observed node of a goal node. -/
def goalTarget (baseline : HistoricalBaseline) (observed : LiveObservation)
    (bindings : List NodeCorrelation) (id : NodeId) : NodeId :=
  match resultNode baseline observed id bindings with
  | .ok (target, _) => target
  | .error _ => id

theorem goalTarget_eq (h : resultNode baseline observed id bindings = .ok (target, node)) :
    goalTarget baseline observed bindings id = target := by
  rw [goalTarget, h]

/-- A goal node has an observed node with its managed properties. -/
def Conforms (baseline : HistoricalBaseline) (observed : LiveObservation)
    (bindings : List NodeCorrelation) (entry : NodeId × Node) : Prop :=
  ∃ actual, resultNode baseline observed entry.1 bindings =
      .ok (goalTarget baseline observed bindings entry.1, actual) ∧
    compareGoalNode entry.2 actual = .ok ()

/-- A goal node is matched exactly when it conforms and its target is free. -/
theorem matchGoalNode_eq_ok {entry : NodeId × Node} :
    matchGoalNode baseline observed bindings mapping entry = .ok mapping' ↔
      Conforms baseline observed bindings entry ∧
        goalTarget baseline observed bindings entry.1 ∉ mapping.map (·.2) ∧
        mapping' = mapping ++ [(entry.1, goalTarget baseline observed bindings entry.1)] := by
  rw [matchGoalNode, Support.except_bind_eq_ok]
  constructor
  · rintro ⟨⟨target, actual⟩, hresult, h⟩
    obtain rfl := goalTarget_eq hresult
    dsimp only at h
    split at h
    · cases h
    · next hfresh =>
      obtain ⟨⟨⟩, hcompare, h⟩ := Support.except_bind_eq_ok.mp h
      exact ⟨⟨actual, hresult, hcompare⟩, hfresh, (Except.ok.inj h).symm⟩
  · rintro ⟨⟨actual, hresult, hcompare⟩, hfresh, rfl⟩
    refine ⟨_, hresult, ?_⟩
    dsimp only
    rw [if_neg hfresh, hcompare]
    rfl

/-- **The loop over the goal nodes succeeds** when every node conforms and no two of them have one
observed node. -/
theorem foldlM_matchGoalNode :
    entries.foldlM (matchGoalNode baseline observed bindings) mapping = .ok mapping' ↔
      (∀ entry ∈ entries, Conforms baseline observed bindings entry) ∧
        (entries.map fun entry => goalTarget baseline observed bindings entry.1).Nodup ∧
        (∀ entry ∈ entries, goalTarget baseline observed bindings entry.1 ∉ mapping.map (·.2)) ∧
        mapping' = mapping ++
          entries.map fun entry => (entry.1, goalTarget baseline observed bindings entry.1) := by
  induction entries generalizing mapping with
  | nil => simp [pure, Except.pure, eq_comm]
  | cons entry rest ih =>
      simp only [List.foldlM_cons, Support.except_bind_eq_ok, matchGoalNode_eq_ok, ih]
      constructor
      · rintro ⟨_, ⟨hentry, hfresh, rfl⟩, hrest, hnodup, hapart, rfl⟩
        refine ⟨List.forall_mem_cons.mpr ⟨hentry, hrest⟩, ?_, ?_, by simp⟩
        · rw [List.map_cons, List.nodup_cons, List.mem_map]
          refine ⟨?_, hnodup⟩
          rintro ⟨other, hother, hsame⟩
          refine hapart other hother ?_
          rw [hsame, List.map_append]
          exact List.mem_append_right _ List.mem_cons_self
        · refine List.forall_mem_cons.mpr ⟨hfresh, fun other hother hmem => ?_⟩
          refine hapart other hother ?_
          rw [List.map_append]
          exact List.mem_append_left _ hmem
      · rintro ⟨hall, hnodup, hapart, rfl⟩
        obtain ⟨hentry, hrest⟩ := List.forall_mem_cons.mp hall
        obtain ⟨hfresh, hapart⟩ := List.forall_mem_cons.mp hapart
        rw [List.map_cons, List.nodup_cons, List.mem_map] at hnodup
        refine ⟨_, ⟨hentry, hfresh, rfl⟩, hrest, hnodup.2, fun other hother hmem => ?_, by simp⟩
        rw [List.map_append, List.mem_append] at hmem
        rcases hmem with hmem | hmem
        · exact hapart other hother hmem
        · exact hnodup.1 ⟨other, hother, List.mem_singleton.mp hmem⟩

/-- A goal node has an observed node that differs from it. -/
def Contradicts (baseline : HistoricalBaseline) (observed : LiveObservation)
    (bindings : List NodeCorrelation) (entry : NodeId × Node) : Prop :=
  ∃ target actual, resultNode baseline observed entry.1 bindings = .ok (target, actual) ∧
    Differs entry.2 actual

/-- Evidence about a goal node is missing: it has no observed node, or none of a known size. -/
def Undecided (baseline : HistoricalBaseline) (observed : LiveObservation)
    (bindings : List NodeCorrelation) (entry : NodeId × Node) : Prop :=
  (∃ status, resultNode baseline observed entry.1 bindings = .error status) ∨
    ∃ target actual, resultNode baseline observed entry.1 bindings = .ok (target, actual) ∧
      SizeUnknown entry.2 actual

/-- What contradicts a goal node does not conform to it. -/
theorem Contradicts.not_conforms {entry : NodeId × Node}
    (h : Contradicts baseline observed bindings entry) :
    ¬Conforms baseline observed bindings entry := by
  rintro ⟨actual, hresult, hcompare⟩
  obtain ⟨_, _, hresult', hdiffers⟩ := h
  obtain ⟨-, rfl⟩ := Prod.mk.inj (Except.ok.inj (hresult.symm.trans hresult'))
  exact (compareGoalNode_eq_ok.mp hcompare).not_differs hdiffers

/-- What a round finds: a contradiction, or missing evidence. -/
theorem matchGoalNode_eq_error {entry : NodeId × Node} {status : LiveCheckStatus}
    (h : matchGoalNode baseline observed bindings mapping entry = .error status) :
    (∃ reason, status = .violated reason ∧ Contradicts baseline observed bindings entry) ∨
      ∃ reason, status = .unknown reason ∧ (Undecided baseline observed bindings entry ∨
        goalTarget baseline observed bindings entry.1 ∈ mapping.map (·.2)) := by
  unfold matchGoalNode at h
  cases hresult : resultNode baseline observed entry.1 bindings with
  | error status' =>
      rw [hresult] at h
      obtain rfl := Except.error.inj h
      obtain ⟨reason, rfl⟩ := resultNode_unknown hresult
      exact .inr ⟨reason, rfl, .inl (.inl ⟨_, hresult⟩)⟩
  | ok result =>
      rw [hresult, Support.except_ok_bind] at h
      dsimp only at h
      by_cases htaken : result.1 ∈ mapping.map (·.2)
      · rw [if_pos htaken] at h
        refine .inr ⟨_, (Except.error.inj h).symm, .inr ?_⟩
        rwa [goalTarget_eq hresult]
      · rw [if_neg htaken] at h
        have hspec := @compareGoalNode_spec entry.2 result.2
        cases hcompare : compareGoalNode entry.2 result.2 with
        | ok _ =>
            rw [hcompare] at h
            cases h
        | error status' =>
            rw [hcompare] at h hspec
            obtain rfl := Except.error.inj h
            cases hspec with
            | differs reason hdiffers => exact .inl ⟨reason, rfl, _, _, hresult, hdiffers⟩
            | sizeUnknown reason hunknown =>
                exact .inr ⟨reason, rfl, .inl (.inr ⟨_, _, hresult, hunknown⟩)⟩

end Matching

/-! ### Verdicts -/

section Verdict

variable {context : ExecutionContext} {observed : LiveObservation} {bindings : List NodeCorrelation}
  {goal actual : NodeGraph} {f : NodeId → NodeId}

/-- As many nodes and edges, and the goal edges between the observed nodes. -/
structure SameTopology (f : NodeId → NodeId) (goal actual : NodeGraph) : Prop where
  nodes : goal.nodeList.length = actual.nodeList.length
  dependencyCount : goal.dependencies.length = actual.dependencies.length
  relationCount : goal.relations.length = actual.relations.length
  dependencies : ∀ edge ∈ goal.dependencies, edge.rename f ∈ actual.dependencies
  relations : ∀ edge ∈ goal.relations, edge.rename f ∈ actual.relations

theorem lookup_pairs {id : NodeId} {ids : List NodeId} (h : id ∈ ids) :
    (ids.map fun id => (id, f id)).lookup id = some (f id) := by
  induction ids with
  | nil => cases h
  | cons first rest ih =>
      rw [List.map_cons, List.lookup_cons]
      by_cases hfirst : id = first
      · rw [hfirst, beq_self_eq_true]
      · rw [beq_eq_false_iff_ne.mpr hfirst]
        exact ih ((List.mem_cons.mp h).resolve_left hfirst)

/-- The endpoints of a valid goal are among its nodes, so no edge is looked up in vain. -/
theorem sameTopology_eq (hvalid : goal.validateStructure = .ok ()) :
    ∃ same, sameTopology (goal.nodeList.map fun entry => (entry.1, f entry.1)) goal actual =
      some same ∧ (same = true ↔ SameTopology f goal actual) := by
  obtain ⟨hlinks, hedges, -⟩ := NodeGraph.validateStructure_eq_ok.mp hvalid
  have hmapping : (goal.nodeList.map fun entry => (entry.1, f entry.1)) =
      (goal.nodeList.map (·.1)).map fun id => (id, f id) := by
    rw [List.map_map]
    rfl
  have hlookup : ∀ {id}, goal.contains id = true →
      (goal.nodeList.map fun entry => (entry.1, f entry.1)).lookup id = some (f id) := by
    intro id hid
    rw [hmapping]
    exact lookup_pairs (NodeGraph.mem_ids.mpr hid)
  have hdependencies : goal.dependencies.mapM
        (mapDependency (goal.nodeList.map fun entry => (entry.1, f entry.1))) =
      some (goal.dependencies.map (·.rename f)) := by
    refine Support.option_mapM_eq_map fun edge hedge => ?_
    rw [mapDependency, hlookup (hedges edge hedge).source, hlookup (hedges edge hedge).target]
    rfl
  have hrelations : goal.relations.mapM
        (mapRelation (goal.nodeList.map fun entry => (entry.1, f entry.1))) =
      some (goal.relations.map (·.rename f)) := by
    refine Support.option_mapM_eq_map fun edge hedge => ?_
    rw [mapRelation, hlookup (hlinks edge hedge).1, hlookup (hlinks edge hedge).2]
    rfl
  rw [sameTopology, hdependencies, hrelations]
  refine ⟨_, rfl, ?_⟩
  simp only [Bool.and_eq_true, beq_iff_eq, List.all_eq_true, List.mem_map, forall_exists_index,
    and_imp, forall_apply_eq_imp_iff₂, decide_eq_true_eq]
  exact ⟨fun ⟨⟨⟨⟨hn, hd⟩, hr⟩, hds⟩, hrs⟩ => ⟨hn, hd, hr, hds, hrs⟩,
    fun ⟨hn, hd, hr, hds, hrs⟩ => ⟨⟨⟨⟨hn, hd⟩, hr⟩, hds⟩, hrs⟩⟩

/-- What is compared once every goal node has its own observed node. -/
theorem graphStatus_matched
    (hvalid : context.requestedGoal.graph.validateStructure = .ok ())
    (hall : ∀ entry ∈ context.requestedGoal.graph.nodeList,
      Conforms context.historicalBaseline observed bindings entry)
    (hnodup : (context.requestedGoal.graph.nodeList.map fun entry =>
      goalTarget context.historicalBaseline observed bindings entry.1).Nodup) :
    (SameTopology (goalTarget context.historicalBaseline observed bindings)
        context.requestedGoal.graph observed.snapshot.graph →
      graphStatus context observed bindings =
        context.plan.orderedActions.map (requestsStatus context observed bindings)) ∧
    (¬SameTopology (goalTarget context.historicalBaseline observed bindings)
        context.requestedGoal.graph observed.snapshot.graph →
      graphStatus context observed bindings =
        some (.violated "final topology differs from the requested goal")) := by
  obtain ⟨same, hsame, htopology⟩ := @sameTopology_eq context.requestedGoal.graph
    observed.snapshot.graph (goalTarget context.historicalBaseline observed bindings) hvalid
  have hloop := foldlM_matchGoalNode.mpr
    (⟨hall, hnodup, fun _ _ hmem => absurd hmem List.not_mem_nil, rfl⟩ :
      _ ∧ _ ∧ (∀ entry ∈ _, _ ∉ ([] : List (NodeId × NodeId)).map (·.2)) ∧ _)
  unfold graphStatus
  rw [hloop, List.nil_append]
  dsimp only
  rw [hsame]
  constructor
  · intro h
    rw [htopology.mpr h]
    cases context.plan.orderedActions <;> rfl
  · intro h
    rw [Bool.eq_false_iff.mpr fun hsame => h (htopology.mp hsame)]
    rfl

/-- No status is unsatisfied exactly when all are satisfied. -/
theorem firstUnsatisfied_eq_satisfied {statuses : List LiveCheckStatus} :
    firstUnsatisfied statuses = .satisfied ↔ ∀ status ∈ statuses, status = .satisfied := by
  unfold firstUnsatisfied
  cases hfind : statuses.find? (· ≠ .satisfied) with
  | none =>
      rw [List.find?_eq_none] at hfind
      simpa using hfind
  | some status =>
      have hstatus := List.find?_some hfind
      rw [decide_eq_true_eq] at hstatus
      constructor
      · exact fun h => absurd h hstatus
      · exact fun h => absurd (h status (List.mem_of_find?_eq_some hfind)) hstatus

/-- The scan keeps the first request of every node. -/
theorem mem_firstRequests {requests : List (NodeId × Bool)} {seen : List NodeId}
    {request : NodeId × Bool} :
    request ∈ firstRequests requests seen ↔
      request.1 ∉ seen ∧ requests.lookup request.1 = some request.2 := by
  induction requests generalizing seen with
  | nil => simp [firstRequests]
  | cons first rest ih =>
      obtain ⟨target, active⟩ := first
      obtain ⟨id, state⟩ := request
      rw [firstRequests, List.lookup_cons]
      by_cases hid : id = target
      · subst hid
        split
        · simp_all
        · simp_all [eq_comm]
      · rw [beq_eq_false_iff_ne.mpr hid]
        split <;> simp_all

/-- The last activation request for a node. -/
def lastRequest (requests : List (NodeId × Bool)) (target : NodeId) : Option Bool :=
  requests.reverse.lookup target

/-- The volume has the requested state, and an interface if it is active. -/
def Activated (context : ExecutionContext) (observed : LiveObservation)
    (bindings : List NodeCorrelation) (request : NodeId × Bool) : Prop :=
  ∃ target node, resultNode context.historicalBaseline observed request.1 bindings =
      .ok (target, node) ∧ node.kind.kind.isLvmLv = true ∧ node.size.lvmActive = some request.2 ∧
    (request.2 = true → isWritableInterface node = true)

/-- The activation holds exactly when the observed volume is activated as asked. -/
theorem activationStatus_eq_satisfied {request : NodeId × Bool} :
    activationStatus context observed bindings request = .satisfied ↔
      Activated context observed bindings request := by
  unfold activationStatus Activated
  cases hresult : resultNode context.historicalBaseline observed request.1 bindings with
  | error status =>
      obtain ⟨reason, rfl⟩ := resultNode_unknown hresult
      simp
  | ok result =>
      obtain ⟨target, node⟩ := result
      dsimp only
      by_cases hkind : node.kind.kind.isLvmLv = true
      · rw [if_neg (by simp [hkind])]
        cases hactive : node.size.lvmActive with
        | none => simp [hactive]
        | some actual =>
            by_cases hsame : actual = request.2
            · subst hsame
              cases hrequest : request.2 <;> cases hwritable : isWritableInterface node <;>
                simp_all
            · simp_all
      · rw [if_pos (by simp [hkind])]
        simp [hkind]

/-- The activation loops succeed when every volume is as its last request in the plan and every
intent is an activation that the observation shows. -/
theorem requestsStatus_eq_satisfied {ordered : List PlannedAction} :
    requestsStatus context observed bindings ordered = .satisfied ↔
      (∀ target active, lastRequest (activationRequests ordered) target = some active →
        Activated context observed bindings (target, active)) ∧
      ∀ intent ∈ context.requestedGoal.intents, ∃ target active,
        intent = .setActivation target active ∧
          Activated context observed bindings (target, active) := by
  have hreverse : activationRequests ordered.reverse = (activationRequests ordered).reverse :=
    List.filterMap_reverse
  rw [requestsStatus, firstUnsatisfied_eq_satisfied, List.forall_mem_append, List.forall_mem_map,
    List.forall_mem_map, hreverse]
  refine and_congr ?_ (forall₂_congr fun intent _ => ?_)
  · simp only [mem_firstRequests, activationStatus_eq_satisfied, List.not_mem_nil,
      not_false_eq_true,
      true_and, lastRequest, Prod.forall]
  · cases intent with
    | setActivation target active =>
        rw [intentStatus, activationStatus_eq_satisfied]
        constructor
        · exact fun h => ⟨target, active, rfl, h⟩
        · rintro ⟨_, _, heq, h⟩
          cases heq
          exact h
    | _ => simp [intentStatus]

/-- What a satisfied graph aspect went through. -/
theorem graphStatus_eq_satisfied (hvalid : context.requestedGoal.graph.validateStructure = .ok ()) :
    graphStatus context observed bindings = some .satisfied ↔
      (∀ entry ∈ context.requestedGoal.graph.nodeList,
        Conforms context.historicalBaseline observed bindings entry) ∧
      (context.requestedGoal.graph.nodeList.map fun entry =>
        goalTarget context.historicalBaseline observed bindings entry.1).Nodup ∧
      SameTopology (goalTarget context.historicalBaseline observed bindings)
        context.requestedGoal.graph observed.snapshot.graph ∧
      ∃ ordered, context.plan.orderedActions = some ordered ∧
        requestsStatus context observed bindings ordered = .satisfied := by
  constructor
  · intro h
    cases hloop : context.requestedGoal.graph.nodeList.foldlM
        (matchGoalNode context.historicalBaseline observed bindings) [] with
    | error status =>
        rw [graphStatus, hloop] at h
        obtain rfl := Option.some.inj h
        obtain ⟨_, entry, _, mapping, -, -, hround⟩ := Support.foldlM_eq_error.mp hloop
        rcases matchGoalNode_eq_error hround with ⟨_, hstatus, -⟩ |
          ⟨_, hstatus, -⟩ <;> cases hstatus
    | ok mapping =>
        obtain ⟨hall, hnodup, -, -⟩ := foldlM_matchGoalNode.mp hloop
        obtain ⟨hsame, hdiffers⟩ := graphStatus_matched hvalid hall hnodup
        refine ⟨hall, hnodup, ?_⟩
        by_cases htopology : SameTopology (goalTarget context.historicalBaseline observed bindings)
            context.requestedGoal.graph observed.snapshot.graph
        · rw [hsame htopology, Option.map_eq_some_iff] at h
          exact ⟨htopology, h⟩
        · rw [hdiffers htopology] at h
          cases h
  · rintro ⟨hall, hnodup, htopology, ordered, hordered, hstatus⟩
    rw [(graphStatus_matched hvalid hall hnodup).1 htopology, hordered, Option.map_some, hstatus]

/-- A returned list of checks starts with the graph aspect. -/
theorem checkObservedGoal_eq_pure {checks : List (LiveCheck GoalAspect)}
    (h : checkObservedGoal context observed bindings = pure checks) :
    checkGoalObservable context observed = .ok () ∧ ∃ status rest,
      graphStatus context observed bindings = some status ∧
      checks = ⟨.graph, qualifyObservedStatus observed status⟩ :: rest ∧
      ∀ check ∈ rest, check.condition ≠ .graph := by
  obtain ⟨⟨⟩, hobservable, h⟩ := Returns.bind_eq_pure.mp h
  obtain ⟨status, hstatus, h⟩ := Returns.bind_eq_pure.mp h
  refine ⟨Returns.lift_eq_pure.mp hobservable, status, _, Returns.unwrap_eq_pure.mp hstatus,
    (Returns.pure_inj.mp h).symm, fun check hcheck => ?_⟩
  rw [List.mem_append, List.mem_append, List.mem_map, List.mem_map, List.mem_singleton] at hcheck
  rcases hcheck with (⟨mount, -, rfl⟩ | ⟨mount, -, rfl⟩) | rfl <;> exact nofun

/-- What is observable has both snapshots sound. -/
theorem checkGoalObservable_eq_ok (h : checkGoalObservable context observed = .ok ()) :
    checkObservable context.historicalBaseline observed = .ok () ∧
      context.requestedGoal.graph.validateStructure = .ok () := by
  obtain ⟨⟨⟩, hobservable, h⟩ := Support.except_bind_eq_ok.mp h
  refine ⟨hobservable, ?_⟩
  split at h
  · cases h
  · next hvalid => exact hvalid

/-- **`observed_goal_isomorphic`** — when the graph aspect is satisfied, the goal nodes and the
observed nodes correspond one to one, with equal kinds, the requested sizes and exactly the same
edges; and every volume is as the last activation request of the plan asks. -/
theorem observed_goal_isomorphic {checks : List (LiveCheck GoalAspect)}
    (h : checkObservedGoal context observed bindings = pure checks)
    (hsatisfied : ⟨.graph, .satisfied⟩ ∈ checks) :
    ∃ f : NodeId → NodeId,
      Set.BijOn f {id | context.requestedGoal.graph.contains id = true}
        {id | observed.snapshot.graph.contains id = true} ∧
      (∀ id requested, context.requestedGoal.graph.node id = some requested → ∃ actual,
        resultNode context.historicalBaseline observed id bindings = .ok (f id, actual) ∧
        observed.snapshot.graph.node (f id) = some actual ∧
        requested.kind.kind = actual.kind.kind ∧
        ∀ size, requested.kind.size = some size → actual.kind.size = some size) ∧
      (∀ edge, edge ∈ observed.snapshot.graph.dependencies ↔
        ∃ requested ∈ context.requestedGoal.graph.dependencies, requested.rename f = edge) ∧
      (∀ edge, edge ∈ observed.snapshot.graph.relations ↔
        ∃ requested ∈ context.requestedGoal.graph.relations, requested.rename f = edge) ∧
      ∃ ordered, context.plan.orderedActions = some ordered ∧
        ∀ target active, lastRequest (activationRequests ordered) target = some active →
          ∃ id node, resultNode context.historicalBaseline observed target bindings = .ok
            (id, node) ∧
            node.kind.kind.isLvmLv = true ∧ node.size.lvmActive = some active ∧
            (active = true → isWritableInterface node = true) := by
  obtain ⟨hobservable, status, rest, hstatus, rfl, hrest⟩ := checkObservedGoal_eq_pure h
  obtain ⟨-, hvalid⟩ := checkGoalObservable_eq_ok hobservable
  -- The graph check comes first, and no other check has its condition.
  have hstatus : graphStatus context observed bindings = some .satisfied := by
    rcases List.mem_cons.mp hsatisfied with hhead | hrest'
    · have hqualified := (LiveCheck.mk.inj hhead).2
      unfold qualifyObservedStatus at hqualified
      split at hqualified
      · cases hqualified
      · rw [hstatus, hqualified]
    · exact absurd rfl (hrest _ hrest')
  obtain ⟨hall, hnodup, htopology, ordered, hordered, hrequests⟩ :=
    (graphStatus_eq_satisfied hvalid).mp hstatus
  obtain ⟨hlinks, hedges, -⟩ := NodeGraph.validateStructure_eq_ok.mp hvalid
  let f := goalTarget context.historicalBaseline observed bindings
  let goal := context.requestedGoal.graph
  have hmaps : ∀ id requested, goal.node id = some requested → ∃ actual,
      resultNode context.historicalBaseline observed id bindings = .ok (f id, actual) ∧
      observed.snapshot.graph.node (f id) = some actual ∧ SameProperties requested actual := by
    intro id requested hrequested
    obtain ⟨actual, hresult, hcompare⟩ :=
      hall (id, requested) (NodeGraph.mem_nodeList.mpr hrequested)
    exact ⟨actual, hresult, resultNode_node hresult, compareGoalNode_eq_ok.mp hcompare⟩
  have hinj : ∀ a ∈ goal.nodeList.map (·.1), ∀ b ∈ goal.nodeList.map (·.1), f a = f b → a = b := by
    have hnodup' : ((goal.nodeList.map (·.1)).map f).Nodup := by
      rw [List.map_map]
      exact hnodup
    exact fun a ha b hb => List.inj_on_of_nodup_map hnodup' ha hb
  -- The targets were collected without repetition, so the goal nodes go to different nodes.
  have hinj' : ∀ {a b}, goal.contains a = true → goal.contains b = true → f a = f b → a = b :=
    fun ha hb => hinj _ (NodeGraph.mem_ids.mpr ha) _ (NodeGraph.mem_ids.mpr hb)
  -- Each goal edge is found and there are not more of them: the renamed edges are all edges.
  have hdependencies := Support.perm_map_of_injOn goal.nodup_dependencies
    (fun edge hedge other hother => Dependency.rename_inj
      (hinj' (hedges edge hedge).source (hedges other hother).source)
      (hinj' (hedges edge hedge).target (hedges other hother).target))
    htopology.dependencies htopology.dependencyCount.ge
  have hrelations := Support.perm_map_of_injOn goal.nodup_relations
    (fun edge hedge other hother => Relation.rename_inj
      (hinj' (hlinks edge hedge).1 (hlinks other hother).1)
      (hinj' (hlinks edge hedge).2 (hlinks other hother).2))
    htopology.relations htopology.relationCount.ge
  refine ⟨f, ?_, hmaps, fun edge => ?_, fun edge => ?_, ordered, hordered, ?_⟩
  · suffices hbij : Set.BijOn f {id | id ∈ goal.nodeList.map (·.1)}
        {id | id ∈ observed.snapshot.graph.nodeList.map (·.1)} by
      simpa only [NodeGraph.mem_ids] using hbij
    refine Support.bijOn_of_injOn NodeGraph.nodup_ids hinj ?_ ?_
    · intro id hid
      obtain ⟨requested, hrequested⟩ := NodeGraph.contains_iff.mp (NodeGraph.mem_ids.mp hid)
      obtain ⟨actual, -, hactual, -⟩ := hmaps id requested hrequested
      exact NodeGraph.mem_ids.mpr (NodeGraph.contains_iff.mpr ⟨actual, hactual⟩)
    · rw [List.length_map, List.length_map]
      exact htopology.nodes.ge
  · rw [← hdependencies.mem_iff, List.mem_map]
  · rw [← hrelations.mem_iff, List.mem_map]
  · exact (requestsStatus_eq_satisfied.mp hrequests).1

end Verdict

/-! ### A volume group and its volume -/

/-- One volume group with one logical volume, as one publication identifies them. -/
def liveGroup (vg lv : NodeId) (vgUuid : String) (size : Bytes) (active : Bool) : CurrentState where
  graph :=
    ((NodeGraph.empty.setNode lv ⟨⟨.lvmLv ⟨"data", .linear⟩, some size⟩,
      { lvmActive := some active, presence := .present, identities := [.lvmLvUuid "lv-uuid"],
        block := some ⟨[⟨[.rootDir, .normal "dev", .normal "dm-0"]⟩], ⟨253, 0⟩,
          some ⟨⟨512, nonZero_512⟩, none, none, none, none⟩, some false⟩ }⟩).setNode vg
      ⟨⟨.lvmVg "vg" (some 4096), some 65536⟩,
        { presence := .present, identities := [.lvmVgUuid vgUuid] }⟩).insertDependency
      ⟨vg, lv, .provides⟩
  mounts := []
  diagnostics := []

/-- Requests for the activation of the volume, one after the other. -/
def liveContext (requests : List Bool) : ExecutionContext where
  runId := 7#128
  planId := 5#128
  plan := {
    actions := requests.zipIdx.map fun request => {
      id := ⟨request.2⟩
      operation := .lvm (.setActivation ⟨2#128⟩ request.1)
      fragment := ⟨request.2⟩
      localId := ⟨0⟩
      origin := .intent request.2
      informationalContract := describeAction (.lvm (.setActivation ⟨2#128⟩ request.1))
        (liveGroup ⟨1#128⟩ ⟨2#128⟩ "vg-uuid" 4096 false).graph }
    dependencies := requests.zipIdx.tail.map fun request =>
      ⟨⟨request.2 - 1⟩, ⟨request.2⟩, .resourceCoordination⟩ }
  historicalBaseline := ⟨6#128, liveGroup ⟨1#128⟩ ⟨2#128⟩ "vg-uuid" 4096 false, []⟩
  requestedGoal :=
    { DesiredState.fromCurrent (liveGroup ⟨1#128⟩ ⟨2#128⟩ "vg-uuid" 4096 false) with
      intents := requests.map fun active => .setActivation ⟨2#128⟩ active }
  protectedScope := {}

/-- A later publication of the group, under other node identities. -/
def liveLater (vgUuid : String) (size : Bytes) (active : Bool) : LiveObservation :=
  ⟨⟨9#128, 2⟩, liveGroup ⟨11#128⟩ ⟨12#128⟩ vgUuid size active⟩

/-- The activated volume is the goal, whatever its nodes are called. -/
theorem observed_goal_isomorphic_activated :
    ∃ f : NodeId → NodeId,
      Set.BijOn f {id | (liveContext [true]).requestedGoal.graph.contains id = true}
        {id | (liveLater "vg-uuid" 4096 true).snapshot.graph.contains id = true} := by
  obtain ⟨checks, hchecks, hsatisfied⟩ : ∃ checks,
      checkObservedGoal (liveContext [true]) (liveLater "vg-uuid" 4096 true) [] = pure checks ∧
        ⟨.graph, .satisfied⟩ ∈ checks := ⟨_, rfl, by decide +kernel⟩
  obtain ⟨f, hbijective, -⟩ := observed_goal_isomorphic hchecks hsatisfied
  exact ⟨f, hbijective⟩

end DisksGraph
