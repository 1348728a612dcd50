import DisksGraph.Engine.Effects
import DisksGraph.Support.Kahn
import DisksGraph.Support.Returns

/-!
# Engine — Plan

The frozen plan (`plan.rs`), the preservation policy (`validate.rs`), the aspects of a goal
(`simulate.rs`) and the errors of composition and simulation, together with the two DAG helpers of
`compose.rs` that every later stage shares: `topological_order` and `dependency_path`.

* `dependencyPath_iff`: the search decides whether a nonempty path exists.
-/

namespace DisksGraph

open Support (Returns)

/-! ### Identities and data -/

/-- Action identity scoped to one execution plan (`u32`). -/
@[ext] structure ActionId where
  get : Nat
deriving DecidableEq, Repr

/-- Fragment identity assigned during composition (`u32`). -/
structure FragmentId where
  get : Nat
deriving DecidableEq, Repr

/-- `u32::MAX + 1`. -/
def u32Bound : Nat := 2 ^ 32

/-- Address of a provider action within the inputs of one composition. -/
structure FragmentActionRef where
  fragment : FragmentId
  action : LocalActionId
deriving DecidableEq, Repr

/-- Explicit ordering supplied before transition and resource validation. -/
structure FragmentOrdering where
  before : FragmentActionRef
  after : FragmentActionRef
  reason : DependencyReason
deriving DecidableEq, Repr

/-- One action in a composed execution plan. -/
structure PlannedAction where
  id : ActionId
  operation : ProviderAction
  fragment : FragmentId
  localId : LocalActionId
  origin : FragmentOrigin
  informationalContract : ActionContract
deriving DecidableEq

/-- Required ordering between two actions in the global DAG. -/
structure ActionDependency where
  before : ActionId
  after : ActionId
  reason : DependencyReason
deriving DecidableEq, Repr

/-- Frozen result of composing provider fragments into one action DAG. -/
structure ExecutionPlan where
  actions : List PlannedAction
  dependencies : List ActionDependency
deriving DecidableEq

/-- One namespace-qualified mount target in a preservation policy. -/
structure ProtectedMount where
  target : PathBuf
  context : MountContext
deriving DecidableEq, Repr

/-- Objects that must remain untouched throughout every predicted transition. -/
structure ProtectedScope where
  nodes : List NodeId := []
  runtimeMounts : List ProtectedMount := []
  persistentMounts : List ProtectedMount := []
deriving DecidableEq, Repr

/-- Protected object touched by a planned change. -/
inductive ProtectedAspect where
  | node (id : NodeId)
  | runtimeMount (mount : ProtectedMount)
  | persistentMount (mount : ProtectedMount)
deriving DecidableEq, Repr

/-- A planned action that intersects an explicitly protected object. -/
structure ProtectionViolation where
  action : ActionId
  aspect : ProtectedAspect
deriving DecidableEq, Repr

/-- Requested aspect evaluated against the predicted `DesiredState`. -/
inductive GoalAspect where
  | graph
  | runtimeMount (target : PathBuf) (context : MountContext)
  | persistentMount (target : PathBuf) (context : MountContext)
  | boot
deriving DecidableEq, Repr

/-- Three-valued result of comparing one goal aspect. -/
inductive GoalStatus where
  | satisfied
  | violated (reason : String)
  | unknown (requiredEvidence : String)
deriving DecidableEq, Repr

/-- Whether the goal fails. -/
def GoalStatus.isViolated : GoalStatus → Bool
  | .violated _ => true
  | _ => false

/-- One aspect of the goal and how it stands. -/
structure GoalCheck where
  aspect : GoalAspect
  status : GoalStatus
deriving DecidableEq, Repr

/-! ### Errors -/

/-- Failure while replaying a frozen execution plan. -/
inductive PlanSimulationError where
  | structure (error : GraphError)
  | invalidProtectedMount (mount : ProtectedMount)
  | unknownIntentOrigin (action : ActionId) (index : Nat)
  | capacityEvidence (error : CapacityEvidenceError)
  | action (action : ActionId) (source : ActionSimulationError)
  | contractMismatch (action : ActionId)
deriving DecidableEq

/-- Failure to compose provider fragments into a safe global DAG. -/
inductive CompositionError where
  | unknownOrderingAction (endpoint : FragmentActionRef)
  | structure (error : GraphError)
  | protectedScopeViolation (action : ActionId) (aspect : ProtectedAspect)
  | actionValidation (action : ActionId) (diagnostics : List Diagnostic)
  | planTooLarge
  | fragmentHasErrors (fragment : FragmentId)
  | duplicateLocalAction (fragment : FragmentId) (action : LocalActionId)
  | unknownLocalDependency (fragment : FragmentId)
  | unknownRequirementAction (fragment : FragmentId) (action : LocalActionId)
  | plannedNodeAlreadyExists (node : NodeId)
  | duplicatePlannedNode (node : NodeId) (first second : ActionId)
  | unresolvedInput (action : ActionId) (node : NodeId)
  | selfDependency (action : ActionId)
  | dependencyCycle
  | actionRejected (action : ActionId) (checks : List PrerequisiteCheck)
  | effect (action : ActionId) (error : EffectApplicationError)
  | unresolvedRequirement (action : ActionId)
  | ambiguousRequirement (action : ActionId)
  | requirementNotInContract (action : ActionId)
  | missingRequirementCheck (action : ActionId)
  | missingAnalysedContract (action : ActionId)
  | capacityEvidence (error : CapacityEvidenceError)
  | ambiguousResourceOrder (first second : ActionId) (resource : ActionResource)
  | unknownIntentOrigin (fragment : FragmentId) (index : Nat)
  | uncoveredIntent (index : Nat)
  | finalSimulation (error : PlanSimulationError)
  | goalNotReached (aspect : GoalAspect)
deriving DecidableEq

/-! ### Topological order -/

/-- `indegree[after] -= 1` for every edge of a list; an underflow panics. -/
def releaseSuccessors (indegree : Nat → Nat) : List ActionDependency → Option (Nat → Nat)
  | [] => some indegree
  | edge :: rest =>
      if indegree edge.after.get = 0 then none
      else releaseSuccessors
        (Function.update indegree edge.after.get (indegree edge.after.get - 1)) rest

/-- The least index that is not emitted and has no open predecessor. -/
def nextReady (actionCount : Nat) (indegree : Nat → Nat) (emitted : List ActionId) : Option Nat :=
  (List.range actionCount).find? fun index => ⟨index⟩ ∉ emitted && indegree index = 0

/-- The `while` loop of `topological_order`; the first argument is what `order` still lacks. -/
def topologicalLoop (actionCount : Nat) (dependencies : List ActionDependency) :
    Nat → (Nat → Nat) → List ActionId → Returns CompositionError (List ActionId)
  | 0, _, order => pure order
  | missing + 1, indegree, order =>
      match nextReady actionCount indegree order with
      | none => throw .dependencyCycle
      | some next =>
          if u32Bound ≤ next then throw .planTooLarge
          else
            match releaseSuccessors indegree
                (dependencies.filter fun edge => edge.before.get = next) with
            | none => Returns.never
            | some indegree =>
                topologicalLoop actionCount dependencies missing indegree (order ++ [⟨next⟩])

/-- Calculates a stable topological order or reports a cycle.  An edge that ends outside the
actions indexes out of bounds and panics. -/
def topologicalOrder (actionCount : Nat) (dependencies : List ActionDependency) :
    Returns CompositionError (List ActionId) :=
  if dependencies.any fun edge => actionCount ≤ edge.after.get then Returns.never
  else topologicalLoop actionCount dependencies actionCount
    (fun index => dependencies.countP fun edge => edge.after.get = index) []

/-- The loop appends ready actions, each once. -/
theorem topologicalLoop_eq_pure {actionCount missing : Nat} {dependencies : List ActionDependency}
    {indegree : Nat → Nat} {start order : List ActionId} (hstart : start.Nodup)
    (h : topologicalLoop actionCount dependencies missing indegree start = pure order) :
    order.Nodup ∧ ∃ tail, order = start ++ tail ∧ tail.length = missing ∧
      ∀ id ∈ tail, id.get < actionCount := by
  induction missing generalizing indegree start with
  | zero =>
      obtain rfl := Returns.pure_inj.mp h
      exact ⟨hstart, [], (List.append_nil _).symm, rfl, nofun⟩
  | succ missing ih =>
      rw [topologicalLoop] at h
      split at h
      · cases h
      · next next hnext =>
        split at h
        · cases h
        · split at h
          · cases h
          · obtain ⟨hready, hless⟩ : ⟨next⟩ ∉ start ∧ next < actionCount := by
              have hfound := List.find?_some hnext
              have hrange := List.mem_range.mp (List.mem_of_find?_eq_some hnext)
              simp only [Bool.and_eq_true, decide_eq_true_eq] at hfound
              exact ⟨hfound.1, hrange⟩
            have hnodup : (start ++ [ActionId.mk next]).Nodup :=
              hstart.append (List.nodup_singleton _) (List.disjoint_singleton.mpr hready)
            obtain ⟨horder, tail, rfl, hlength, htail⟩ := ih hnodup h
            refine ⟨horder, ⟨next⟩ :: tail, by rw [List.append_assoc]; rfl,
              congrArg Nat.succ hlength, fun id hid => ?_⟩
            rcases List.mem_cons.mp hid with rfl | hid
            · exact hless
            · exact htail id hid

/-- A topological order has every action once. -/
theorem topologicalOrder_eq_pure {actionCount : Nat} {dependencies : List ActionDependency}
    {order : List ActionId} (h : topologicalOrder actionCount dependencies = pure order) :
    order.Nodup ∧ order.length = actionCount ∧ ∀ id, id ∈ order ↔ id.get < actionCount := by
  rw [topologicalOrder] at h
  split at h
  · cases h
  · obtain ⟨hnodup, tail, htail', hlength, htail⟩ := topologicalLoop_eq_pure List.nodup_nil h
    obtain rfl : order = tail := htail'
    refine ⟨hnodup, hlength, fun id => ⟨htail id, fun hid => ?_⟩⟩
    have hget : (order.map ActionId.get).Nodup := hnodup.map fun a b hab => ActionId.ext hab
    have hsubset : order.map ActionId.get ⊆ List.range actionCount := fun n hn => by
      obtain ⟨id, hid, rfl⟩ := List.mem_map.mp hn
      exact List.mem_range.mpr (htail id hid)
    have hperm : (order.map ActionId.get).Perm (List.range actionCount) :=
      (hget.subperm hsubset).perm_of_length_le (by simp [hlength])
    obtain ⟨other, hother, hsame⟩ := List.mem_map.mp (hperm.mem_iff.mpr (List.mem_range.mpr hid))
    exact ActionId.ext hsame ▸ hother

/-- Releasing the edges of a list lowers the count of every index by the edges that end there. -/
theorem releaseSuccessors_eq_some {indegree released : Nat → Nat} {edges : List ActionDependency}
    (h : releaseSuccessors indegree edges = some released) (index : Nat) :
    released index + edges.countP (fun edge => edge.after.get = index) = indegree index := by
  induction edges generalizing indegree with
  | nil =>
      obtain rfl := Option.some.inj h
      rfl
  | cons edge rest ih =>
      unfold releaseSuccessors at h
      split at h
      · cases h
      · next hopen =>
        have hrest := ih h
        rw [List.countP_cons]
        by_cases hindex : edge.after.get = index
        · subst hindex
          rw [Function.update_self] at hrest
          simp only [decide_true, if_true]
          omega
        · rw [Function.update_of_ne (Ne.symm hindex)] at hrest
          simpa [hindex] using hrest

/-- Releasing no more edges than are counted does not underflow. -/
theorem releaseSuccessors_isSome {indegree : Nat → Nat} {edges : List ActionDependency}
    (h : ∀ index, edges.countP (fun edge => edge.after.get = index) ≤ indegree index) :
    ∃ released, releaseSuccessors indegree edges = some released := by
  induction edges generalizing indegree with
  | nil => exact ⟨indegree, rfl⟩
  | cons edge rest ih =>
      have hfirst := h edge.after.get
      rw [List.countP_cons_of_pos (by simp)] at hfirst
      rw [releaseSuccessors, if_neg (by omega)]
      refine ih fun index => ?_
      by_cases hindex : index = edge.after.get
      · subst hindex
        rw [Function.update_self]
        omega
      · rw [Function.update_of_ne hindex]
        exact ((List.sublist_cons_self _ _).countP_le).trans (h index)

/-- The edges to an index that are still open when `emitted` has been emitted. -/
def openEdges (dependencies : List ActionDependency) (emitted : List ActionId) (index : Nat) : Nat :=
  dependencies.countP fun edge => edge.after.get = index ∧ edge.before ∉ emitted

/-- Emitting an action closes its outgoing edges. -/
theorem openEdges_emit {dependencies : List ActionDependency} {emitted : List ActionId} {next : Nat}
    (hnext : ⟨next⟩ ∉ emitted) (index : Nat) :
    openEdges dependencies (emitted ++ [⟨next⟩]) index +
      (dependencies.filter fun edge => edge.before.get = next).countP
        (fun edge => edge.after.get = index) = openEdges dependencies emitted index := by
  unfold openEdges
  rw [List.countP_filter]
  induction dependencies with
  | nil => rfl
  | cons edge rest ih =>
      have hhead : (if edge.after.get = index ∧ edge.before ∉ emitted ++ [⟨next⟩] then 1 else 0) +
          (if edge.after.get = index ∧ edge.before.get = next then 1 else 0) =
          if edge.after.get = index ∧ edge.before ∉ emitted then 1 else 0 := by
        by_cases hsame : edge.before = ⟨next⟩
        · simp [hsame, hnext]
        · have hget : edge.before.get ≠ next := fun h => hsame (ActionId.ext h)
          simp [hsame, hget]
      simp only [List.countP_cons, Bool.and_eq_true, decide_eq_true_eq] at ih hhead ⊢
      omega

/-- The invariant of the loop: the counts are the open edges, and whatever was emitted came after
all its predecessors. -/
structure Emitted (dependencies : List ActionDependency) (indegree : Nat → Nat)
    (order : List ActionId) : Prop where
  counts : ∀ index, indegree index = openEdges dependencies order index
  closed : ∀ before id after, order = before ++ id :: after →
    ∀ edge ∈ dependencies, edge.after = id → edge.before ∈ before

theorem topologicalLoop_closed {actionCount missing : Nat} {dependencies : List ActionDependency}
    {indegree : Nat → Nat} {start order : List ActionId}
    (hstart : Emitted dependencies indegree start)
    (h : topologicalLoop actionCount dependencies missing indegree start = pure order) :
    ∃ indegree, Emitted dependencies indegree order := by
  induction missing generalizing indegree start with
  | zero =>
      obtain rfl := Returns.pure_inj.mp h
      exact ⟨indegree, hstart⟩
  | succ missing ih =>
      rw [topologicalLoop] at h
      split at h
      · cases h
      · next next hnext =>
        split at h
        · cases h
        · split at h
          · cases h
          · next released hreleased =>
            have hfound := List.find?_some hnext
            simp only [Bool.and_eq_true, decide_eq_true_eq] at hfound
            refine ih ⟨fun index => ?_, ?_⟩ h
            · have hrelease := releaseSuccessors_eq_some hreleased index
              have hemit := @openEdges_emit dependencies _ _ hfound.1 index
              have hcount := hstart.counts index
              omega
            · refine Support.Sorted.concat hstart.closed fun edge hedge hafter => ?_
              have hzero := hstart.counts next
              rw [hfound.2, openEdges, eq_comm, List.countP_eq_zero] at hzero
              by_contra hopen
              exact hzero edge hedge (decide_eq_true ⟨congrArg ActionId.get hafter, hopen⟩)

/-- The loop ends with an order or an error. -/
theorem topologicalLoop_returns {actionCount missing : Nat} {dependencies : List ActionDependency}
    {indegree : Nat → Nat} {start : List ActionId}
    (hstart : ∀ index, indegree index = openEdges dependencies start index) :
    ∃ result, topologicalLoop actionCount dependencies missing indegree start = some result := by
  induction missing generalizing indegree start with
  | zero => exact ⟨_, rfl⟩
  | succ missing ih =>
      rw [topologicalLoop]
      split
      · exact ⟨_, rfl⟩
      · next next hnext =>
        split
        · exact ⟨_, rfl⟩
        · have hfound := List.find?_some hnext
          simp only [Bool.and_eq_true, decide_eq_true_eq] at hfound
          obtain ⟨released, hreleased⟩ := @releaseSuccessors_isSome indegree
            (dependencies.filter fun edge => edge.before.get = next) fun index => by
              have hemit := @openEdges_emit dependencies _ _ hfound.1 index
              have hcount := hstart index
              omega
          rw [hreleased]
          refine ih fun index => ?_
          have hrelease := releaseSuccessors_eq_some hreleased index
          have hemit := @openEdges_emit dependencies _ _ hfound.1 index
          have hcount := hstart index
          omega

theorem topologicalOrder_returns {actionCount : Nat} {dependencies : List ActionDependency}
    (h : ∀ edge ∈ dependencies, edge.after.get < actionCount) :
    ∃ result, topologicalOrder actionCount dependencies = some result := by
  rw [topologicalOrder, if_neg]
  · exact topologicalLoop_returns fun index => by simp [openEdges]
  · rw [List.any_eq_true]
    rintro ⟨edge, hedge, hle⟩
    exact absurd (h edge hedge) (Nat.not_lt.mpr (of_decide_eq_true hle))

/-- Whatever precedes an action of the order stands before it. -/
theorem topologicalOrder_closed {actionCount : Nat} {dependencies : List ActionDependency}
    {order before after : List ActionId} {id : ActionId}
    (h : topologicalOrder actionCount dependencies = pure order)
    (horder : order = before ++ id :: after)
    {edge : ActionDependency} (hedge : edge ∈ dependencies) (hafter : edge.after = id) :
    edge.before ∈ before := by
  rw [topologicalOrder] at h
  split at h
  · cases h
  · have hinit : Emitted dependencies
        (fun index => dependencies.countP fun edge => edge.after.get = index) [] := by
      refine ⟨fun index => ?_, fun before id after hsplit => ?_⟩
      · simp [openEdges]
      · simp at hsplit
    obtain ⟨_, hemitted⟩ := topologicalLoop_closed hinit h
    exact hemitted.closed before id after horder edge hedge hafter

/-- **A topological order respects its edges.** -/
theorem topologicalOrder_respects {actionCount : Nat} {dependencies : List ActionDependency}
    {order : List ActionId} (h : topologicalOrder actionCount dependencies = pure order)
    {edge : ActionDependency} (hedge : edge ∈ dependencies) (hafter : edge.after ∈ order) :
    order.idxOf edge.before < order.idxOf edge.after := by
  have hsorted : Support.Sorted ActionDependency.before ActionDependency.after dependencies order :=
    fun _ _ _ horder _ hedge hafter => topologicalOrder_closed h horder hedge hafter
  exact hsorted.idxOf_lt (topologicalOrder_eq_pure h).1 hedge hafter

/-- Returns actions in the deterministic topological order used for validation; `none` is the
`unreachable!` of a plan that is not a DAG over its actions. -/
def ExecutionPlan.orderedActions (plan : ExecutionPlan) : Option (List PlannedAction) :=
  match topologicalOrder plan.actions.length plan.dependencies with
  | some (.ok order) => order.mapM fun id => plan.actions[id.get]?
  | _ => none

/-! ### Paths -/

/-- The actions directly after one action. -/
def successors (dependencies : List ActionDependency) (action : ActionId) : List ActionId :=
  (dependencies.filter fun edge => edge.before == action).map (·.after)

/-- Reports whether the dependency DAG orders one action before another.  The source stops its
search at the first visited action with an edge to `after`. -/
def dependencyPath (before after : ActionId) (dependencies : List ActionDependency) : Bool :=
  (Support.explore (successors dependencies) (1 + dependencies.length) [before] []).any
    fun current => (successors dependencies current).contains after

/-- One ordering edge from `a` to `b`. -/
def Precedes (dependencies : List ActionDependency) (a b : ActionId) : Prop :=
  ∃ edge ∈ dependencies, edge.before = a ∧ edge.after = b

theorem mem_successors {dependencies : List ActionDependency} {a b : ActionId} :
    b ∈ successors dependencies a ↔ Precedes dependencies a b := by
  simp only [successors, Precedes, List.mem_map, List.mem_filter, beq_iff_eq, and_assoc]

theorem bounded_successors (dependencies : List ActionDependency) :
    Support.Bounded (successors dependencies) ActionDependency.before dependencies := by
  intro x
  simp [successors, List.countP_eq_length_filter, beq_eq_decide]

/-- **`dependencyPath_iff`** — the search finds exactly the nonempty paths. -/
theorem dependencyPath_iff {dependencies : List ActionDependency} {before after : ActionId} :
    dependencyPath before after dependencies = true ↔
      Relation.TransGen (Precedes dependencies) before after := by
  have hreach : ∀ current,
      current ∈ Support.explore (successors dependencies) (1 + dependencies.length) [before] [] ↔
        Relation.ReflTransGen (Precedes dependencies) before current := by
    intro current
    rw [Support.mem_explore (bounded_successors dependencies)
      (by rw [List.length_singleton])]
    simp only [Support.Reachable, mem_successors, List.mem_singleton, exists_eq_left]
  simp only [dependencyPath, List.any_eq_true, List.contains_iff_mem, mem_successors, hreach,
    Relation.TransGen.tail'_iff]

end DisksGraph
