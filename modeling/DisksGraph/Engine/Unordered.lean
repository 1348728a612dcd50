import DisksGraph.Engine.Fragments
import DisksGraph.Engine.Inferred
import DisksGraph.Engine.Reorder

/-!
# Engine — Unordered

Composition does not depend on the iteration order of its hash tables.

`Unordered.composePlanWithOrdering` is composition with every such order left open: before each
action the graph is taken in any order, the candidate providers of a requirement are met in any
order, and so are the contracts of an analysis.  Every way it can end is alike to the one end of
`composePlanWithOrdering`.

* `Unordered.follows_simulatePass`, `Unordered.follows_simulateOrder`: one pass, and its restarts.
* `Unordered.follows_composePlanWithOrdering`: the whole composition.
-/

namespace DisksGraph

open Support (Returns Alike Choices)

/-! ### What an error tells -/

/-- `std::mem::discriminant` of a composition error. -/
inductive CompositionErrorKind where
  | unknownOrderingAction
  | graphStructure
  | protectedScopeViolation
  | actionValidation
  | planTooLarge
  | fragmentHasErrors
  | duplicateLocalAction
  | unknownLocalDependency
  | unknownRequirementAction
  | plannedNodeAlreadyExists
  | duplicatePlannedNode
  | unresolvedInput
  | selfDependency
  | dependencyCycle
  | actionRejected
  | effect
  | unresolvedRequirement
  | ambiguousRequirement
  | requirementNotInContract
  | missingRequirementCheck
  | missingAnalysedContract
  | capacityEvidence
  | ambiguousResourceOrder
  | unknownIntentOrigin
  | uncoveredIntent
  | finalSimulation
  | goalNotReached
deriving DecidableEq, Repr

/-- The stage at which composing failed. -/
def CompositionError.kind : CompositionError → CompositionErrorKind
  | .unknownOrderingAction _ => .unknownOrderingAction
  | .structure _ => .graphStructure
  | .protectedScopeViolation .. => .protectedScopeViolation
  | .actionValidation .. => .actionValidation
  | .planTooLarge => .planTooLarge
  | .fragmentHasErrors _ => .fragmentHasErrors
  | .duplicateLocalAction .. => .duplicateLocalAction
  | .unknownLocalDependency _ => .unknownLocalDependency
  | .unknownRequirementAction .. => .unknownRequirementAction
  | .plannedNodeAlreadyExists _ => .plannedNodeAlreadyExists
  | .duplicatePlannedNode .. => .duplicatePlannedNode
  | .unresolvedInput .. => .unresolvedInput
  | .selfDependency _ => .selfDependency
  | .dependencyCycle => .dependencyCycle
  | .actionRejected .. => .actionRejected
  | .effect .. => .effect
  | .unresolvedRequirement _ => .unresolvedRequirement
  | .ambiguousRequirement _ => .ambiguousRequirement
  | .requirementNotInContract _ => .requirementNotInContract
  | .missingRequirementCheck _ => .missingRequirementCheck
  | .missingAnalysedContract _ => .missingAnalysedContract
  | .capacityEvidence _ => .capacityEvidence
  | .ambiguousResourceOrder .. => .ambiguousResourceOrder
  | .unknownIntentOrigin .. => .unknownIntentOrigin
  | .uncoveredIntent _ => .uncoveredIntent
  | .finalSimulation _ => .finalSimulation
  | .goalNotReached _ => .goalNotReached

/-- Two errors of one kind. -/
def SameKind (error other : CompositionError) : Prop := error.kind = other.kind

theorem SameKind.symm {error other : CompositionError} (h : SameKind error other) :
    SameKind other error := Eq.symm h

theorem SameKind.trans {error other third : CompositionError} (h : SameKind error other)
    (h' : SameKind other third) : SameKind error third := Eq.trans h h'

theorem SameKind.of_simulation {id : ActionId} {error other : ActionSimulationError}
    (h : error.kind = other.kind) :
    SameKind (.ofSimulation id error) (.ofSimulation id other) := by
  cases error <;> cases other <;> first | rfl | cases h

/-! ### Composition in any order -/

namespace Unordered

/-- `bind_contextual_outputs`, with the candidate providers in any order. -/
def bindContextualOutputs (projection : Projection) (action : DraftAction)
    (actions : List DraftAction) (emitted : List (ActionId × ActionContract))
    (requirements : List PendingRequirement) (dependencies : List ActionDependency) :
    Choices CompositionError (Option (List ActionDependency)) :=
  let owned := requirements.filter fun requirement => requirement.action == action.id
  if owned.isEmpty then pure none
  else do
    let contract := describeAction action.operation projection.graph
    let providers ← Choices.pick
      ((actions.filter fun candidate => (emitted.lookup candidate.id).isNone).map fun candidate =>
        (candidate.id, describeAction candidate.operation projection.graph)).Perm
    Choices.lift (Returns.lift (bindOwned projection action contract providers dependencies owned))

/-- One pass over a candidate order, with the graph in any order before each action. -/
def simulatePass (actions : List DraftAction) (requirements : List PendingRequirement)
    (dependencies : List ActionDependency) :
    Projection → AnalysedOrder → List ActionId →
      Choices CompositionError (AnalysedOrder ⊕ List ActionDependency)
  | _, trace, [] => pure (.inl trace)
  | projection, trace, id :: rest =>
      match actions[id.get]? with
      | none => Choices.lift Returns.never
      | some action => do
          let projection ← Choices.pick projection.Reorders
          match ← bindContextualOutputs projection action actions trace.contracts requirements
              dependencies with
          | some dependencies => pure (.inr dependencies)
          | none =>
              match simulateAction projection action.operation with
              | .error error => Choices.lift (throw (.ofSimulation id error))
              | .ok (result, next) =>
                  simulatePass actions requirements dependencies next
                    { contracts := trace.contracts ++ [(id, result.contract)]
                      checks := trace.checks ++ [(id, result.checks)] } rest

/-- `simulate_order`: the passes and their restarts. -/
def simulateOrder (current : CurrentState) (capacityEvidence : List CapacityEvidence)
    (actions : List DraftAction) (requirements : List PendingRequirement) :
    Nat → List ActionDependency →
      Choices CompositionError (AnalysedOrder × List ActionDependency)
  | 0, _ => Choices.lift Returns.never
  | restarts + 1, dependencies => do
      let order ← Choices.lift (topologicalOrder actions.length dependencies)
      match SimulationEvidence.new capacityEvidence with
      | .error error => Choices.lift (throw (.capacityEvidence error))
      | .ok evidence =>
          match ← simulatePass actions requirements dependencies (.initial current evidence) {}
              order with
          | .inl trace => return (trace, dependencies)
          | .inr dependencies =>
              simulateOrder current capacityEvidence actions requirements restarts dependencies

/-- `compose_plan_with_ordering`, with the graph and the analysed contracts in any order. -/
def composePlanWithOrdering (current : CurrentState) (fragments : List PlanFragment)
    (ordering : List FragmentOrdering) (capacityEvidence : List CapacityEvidence) :
    Choices CompositionError ExecutionPlan := do
  let graph ← Choices.pick current.graph.Reorders
  match graph.validateStructure with
  | .error error => Choices.lift (throw (.structure error))
  | .ok () =>
      let flattened ← Choices.lift (flattenFragments fragments)
      let draft := flattened.actions
      let requirements := flattened.requirements
      let dependencies ← Choices.lift
        (Returns.lift (ordering.foldlM (addOrdering draft) flattened.dependencies))
      let dependencies ← Choices.lift (Returns.lift (bindPlannedNodes current draft dependencies))
      let dependencies ← Choices.lift (Returns.lift (bindMountOrder draft dependencies))
      let (first, dependencies) ←
        simulateOrder current capacityEvidence draft requirements (restartBound draft) dependencies
      let contracts ← Choices.pick first.contracts.Perm
      let dependencies ← Choices.lift
        (Returns.lift (resolveRequirements requirements { first with contracts } dependencies))
      let (final, dependencies) ←
        simulateOrder current capacityEvidence draft [] (restartBound draft) dependencies
      let contracts ← Choices.pick final.contracts.Perm
      Choices.lift (Returns.lift (validateDeclaredRequirements requirements contracts))
      Choices.lift (Returns.lift (validateResourceOrder contracts dependencies))
      let actions ← Choices.lift (Returns.lift (draft.mapM (freezeAction contracts)))
      return ⟨actions, dependencies⟩

/-! ### One pass -/

section Pass

variable {actions : List DraftAction} {requirements : List PendingRequirement}
  {dependencies : List ActionDependency} {projection other : Projection}

/-- Two entries of one action that differ in the order of what is a set. -/
def EntryReorders (entry other : ActionId × ActionContract) : Prop :=
  entry.1 = other.1 ∧ entry.2.Reorders other.2

/-- Two analyses of the same actions in the same order. -/
structure TraceReorders (trace other : AnalysedOrder) : Prop where
  contracts : List.Forall₂ EntryReorders trace.contracts other.contracts
  checks : List.Forall₂ (fun entry other => entry.1 = other.1 ∧ checkOf entry.2 = checkOf other.2)
    trace.checks other.checks

theorem offers_eq {contracts others : List (ActionId × ActionContract)}
    (h : List.Forall₂ EntryReorders contracts others) : offers contracts = offers others := by
  induction h with
  | nil => rfl
  | cons hentry _ ih => exact congrArg₂ List.cons (Prod.ext hentry.1 hentry.2.outputs) ih

/-- The entries of an action in two analyses. -/
theorem lookup_rel {α β : Type} {R : α → β → Prop} {entries : List (ActionId × α)}
    {others : List (ActionId × β)}
    (h : List.Forall₂ (fun a b => a.1 = b.1 ∧ R a.2 b.2) entries others) (id : ActionId) :
    Option.Rel R (entries.lookup id) (others.lookup id) := by
  induction h with
  | nil => exact .none
  | @cons a b _ _ hentry _ ih =>
      obtain ⟨key, value⟩ := a
      obtain ⟨key', value'⟩ := b
      obtain ⟨rfl, hvalue⟩ := hentry
      rw [List.lookup_cons, List.lookup_cons]
      cases id == key with
      | true => exact .some hvalue
      | false => exact ih

/-- The loop over the requirements of an action takes the same way in every order. -/
theorem bindOwned_reorders (h : projection.Reorders other)
    (hvalid : projection.graph.validateStructure = .ok ()) (hacyclic : Acyclic dependencies)
    {action : DraftAction} {contract contract' : ActionContract}
    {providers providers' : List (ActionId × ActionContract)} {owned : List PendingRequirement}
    (hcontract : contract.Reorders contract')
    (hproviders : (offers providers).Perm (offers providers')) :
    bindOwned other action contract' providers' dependencies owned =
      bindOwned projection action contract providers dependencies owned := by
  have hstatus : evaluatePrerequisite other.desired other.evidence =
      evaluatePrerequisite projection.desired projection.evidence := by
    obtain ⟨graph, hgraph, rfl⟩ := h
    funext condition
    exact evaluatePrerequisite_reorders hgraph hvalid condition
  induction owned with
  | nil => rfl
  | cons requirement rest ih =>
      rw [bindOwned, bindOwned, hstatus, ih, requirementProvider_perm hacyclic hproviders]
      simp only [hcontract.prerequisites.mem_iff]

/-- The binding of the outputs of one action takes the same way in every order. -/
theorem follows_bindContextualOutputs (h : projection.Reorders other)
    (hvalid : projection.graph.validateStructure = .ok ()) (hacyclic : Acyclic dependencies)
    {action : DraftAction} {emitted emitted' : List (ActionId × ActionContract)}
    (hemitted : List.Forall₂ EntryReorders emitted emitted') :
    (Unordered.bindContextualOutputs other action actions emitted' requirements
      dependencies).Follows SameKind Eq
        (Returns.lift
          (DisksGraph.bindContextualOutputs projection action actions emitted requirements
          dependencies)) := by
  have hfresh : ∀ candidate : DraftAction, (emitted'.lookup candidate.id).isNone =
      (emitted.lookup candidate.id).isNone := by
    intro candidate
    have hlookup := lookup_rel hemitted candidate.id
    generalize emitted.lookup candidate.id = entry at hlookup ⊢
    generalize emitted'.lookup candidate.id = entry' at hlookup ⊢
    cases hlookup <;> rfl
  have hoffers : offers ((actions.filter fun candidate =>
          (emitted.lookup candidate.id).isNone).map fun candidate =>
            (candidate.id, describeAction candidate.operation projection.graph)) =
      offers ((actions.filter fun candidate =>
          (emitted'.lookup candidate.id).isNone).map fun candidate =>
            (candidate.id, describeAction candidate.operation other.graph)) := by
    simp only [hfresh, offers, List.map_map]
    refine List.map_congr_left fun candidate _ => ?_
    exact Prod.ext rfl (describeAction_reorders h.graph hvalid candidate.operation).outputs
  unfold Unordered.bindContextualOutputs DisksGraph.bindContextualOutputs
  dsimp only
  split
  · exact .pure rfl
  · refine .pick fun providers hproviders => .lift (.of_eq (fun _ => rfl) (fun _ => rfl) ?_)
    rw [bindOwned_reorders h hvalid hacyclic (describeAction_reorders h.graph hvalid _) ?_]
    rw [hoffers]
    exact hproviders.map _

/-- Two ways a pass can end. -/
def PassReorders : AnalysedOrder ⊕ List ActionDependency → AnalysedOrder ⊕ List ActionDependency → Prop
  | .inl trace, .inl other => TraceReorders other trace
  | .inr dependencies, .inr other => dependencies = other
  | _, _ => False

/-- One action of a pass. -/
theorem simulatePass_cons {id : ActionId} {rest : List ActionId} {trace : AnalysedOrder}
    {action : DraftAction} (haction : actions[id.get]? = some action) :
    DisksGraph.simulatePass actions requirements dependencies projection trace (id :: rest) = (do
      match ← Returns.lift (DisksGraph.bindContextualOutputs projection action actions
          trace.contracts requirements dependencies) with
      | some dependencies => pure (.inr dependencies)
      | none =>
          match simulateAction projection action.operation with
          | .error error => throw (.ofSimulation id error)
          | .ok (result, next) =>
              DisksGraph.simulatePass actions requirements dependencies next
                { contracts := trace.contracts ++ [(id, result.contract)]
                  checks := trace.checks ++ [(id, result.checks)] } rest) := by
  rw [DisksGraph.simulatePass, haction]
  dsimp only
  cases DisksGraph.bindContextualOutputs projection action actions trace.contracts requirements
    dependencies with
  | error error => rfl
  | ok bound => cases bound <;> rfl

/-- **A pass ends alike in every order.** -/
theorem follows_simulatePass (hacyclic : Acyclic dependencies) {trace trace' : AnalysedOrder}
    {order : List ActionId} (h : projection.Reorders other)
    (hvalid : projection.graph.validateStructure = .ok ()) (htrace : TraceReorders trace trace') :
    (Unordered.simulatePass actions requirements dependencies other trace' order).Follows SameKind
      PassReorders
      (DisksGraph.simulatePass actions requirements dependencies projection trace order) := by
  induction order generalizing projection other trace trace' with
  | nil => exact .pure htrace
  | cons id rest ih =>
      unfold Unordered.simulatePass
      cases haction : actions[id.get]? with
      | none =>
          rw [DisksGraph.simulatePass, haction]
          exact .lift .never
      | some action =>
          rw [simulatePass_cons haction]
          refine .pick fun picked hpicked => ?_
          have hpicked := h.trans hpicked
          refine (follows_bindContextualOutputs hpicked hvalid hacyclic htrace.contracts).bind ?_
          rintro bound _ rfl -
          cases bound with
          | some extended => exact .pure rfl
          | none =>
              have hstep := simulateAction_reorders hpicked hvalid action.operation
              cases hfirst : simulateAction projection action.operation with
              | error error =>
                  cases hsecond : simulateAction picked action.operation with
                  | error error' =>
                      rw [hfirst, hsecond] at hstep
                      cases hstep with
                      | throw hkind => exact .lift (.throw (.of_simulation hkind.symm))
                  | ok step =>
                      rw [hfirst, hsecond] at hstep
                      cases hstep
              | ok step =>
                  cases hsecond : simulateAction picked action.operation with
                  | error error' =>
                      rw [hfirst, hsecond] at hstep
                      cases hstep
                  | ok step' =>
                      rw [hfirst, hsecond] at hstep
                      cases hstep with
                      | pure hstep =>
                          obtain ⟨hresult, hnext⟩ := hstep
                          obtain ⟨-, -, -, -, -, -, -, hvalid⟩ := simulateAction_desired hfirst
                          refine ih hnext hvalid ⟨?_, ?_⟩
                          · exact List.rel_append htrace.contracts
                              (.cons ⟨rfl, hresult.contract⟩ .nil)
                          · exact List.rel_append htrace.checks (.cons ⟨rfl, hresult.checks⟩ .nil)

end Pass

/-! ### Restarts -/

section Restarts

variable {current : CurrentState} {capacity : List CapacityEvidence} {actions : List DraftAction}
  {requirements : List PendingRequirement}

/-- Two analyses that end with the same edges. -/
def OrderReorders (result other : AnalysedOrder × List ActionDependency) : Prop :=
  TraceReorders other.1 result.1 ∧ result.2 = other.2

/-- **The restarts end alike in every order.** -/
theorem follows_simulateOrder (hvalid : current.graph.validateStructure = .ok ()) {restarts : Nat}
    {dependencies : List ActionDependency} :
    (Unordered.simulateOrder current capacity actions requirements restarts dependencies).Follows
      SameKind OrderReorders
      (DisksGraph.simulateOrder current capacity actions requirements restarts dependencies) := by
  induction restarts generalizing dependencies with
  | zero => exact .lift .never
  | succ restarts ih =>
      unfold Unordered.simulateOrder DisksGraph.simulateOrder
      refine Choices.Follows.bind (R := Eq) (.lift (.of_eq (fun _ => rfl) (fun _ => rfl) rfl)) ?_
      rintro order _ rfl horder
      have hacyclic := acyclic_of_topologicalOrder horder
      cases SimulationEvidence.new capacity with
      | error error => exact .lift (.throw rfl)
      | ok evidence =>
          refine (follows_simulatePass hacyclic (.refl (.initial current evidence)) hvalid
            ⟨.nil, .nil⟩).bind ?_
          rintro ended other hended -
          cases ended with
          | inl trace' =>
              cases other with
              | inl trace => exact .pure ⟨hended, rfl⟩
              | inr _ => cases hended
          | inr extended =>
              cases other with
              | inl trace => cases hended
              | inr _ =>
                  cases hended
                  exact ih

end Restarts

/-! ### The remaining stages -/

section Rest

variable {contracts others picked : List (ActionId × ActionContract)}
  {requirements : List PendingRequirement} {dependencies : List ActionDependency}

/-- Two tables of contracts, each in its own order. -/
structure TableReorders (contracts others : List (ActionId × ActionContract)) : Prop where
  lookup : ∀ id, Option.Rel ActionContract.Reorders (contracts.lookup id) (others.lookup id)
  offers : (offers contracts).Perm (offers others)
  sorted : List.Forall₂ EntryReorders
    (contracts.insertionSort fun a b => a.1.get ≤ b.1.get)
    (others.insertionSort fun a b => a.1.get ≤ b.1.get)

theorem lookup_perm (hunique : (others.map (·.1)).Nodup) (h : others.Perm picked) (id : ActionId) :
    picked.lookup id = others.lookup id := by
  cases hlookup : others.lookup id with
  | none =>
      rw [List.lookup_eq_none_iff] at hlookup ⊢
      exact fun entry hentry => hlookup entry (h.mem_iff.mpr hentry)
  | some contract =>
      obtain ⟨before, after, heq, -⟩ := List.lookup_eq_some_iff.mp hlookup
      have hentry : (id, contract) ∈ others := heq ▸ List.mem_append_right _ List.mem_cons_self
      obtain ⟨contract', hlookup', hentry'⟩ :=
        lookup_of_mem_keys (List.mem_map_of_mem (h.mem_iff.mp hentry))
      have hsame := List.inj_on_of_nodup_map hunique (h.mem_iff.mpr hentry') hentry rfl
      rw [hlookup', (Prod.mk.inj hsame).2]

theorem sort_rel (h : List.Forall₂ EntryReorders contracts others) :
    List.Forall₂ EntryReorders (contracts.insertionSort fun a b => a.1.get ≤ b.1.get)
      (others.insertionSort fun a b => a.1.get ≤ b.1.get) := by
  have hinsert : ∀ {a b : ActionId × ActionContract} {entries entries' : List _},
      EntryReorders a b → List.Forall₂ EntryReorders entries entries' →
      List.Forall₂ EntryReorders (entries.orderedInsert (fun a b => a.1.get ≤ b.1.get) a)
        (entries'.orderedInsert (fun a b => a.1.get ≤ b.1.get) b) := by
    intro a b entries entries' hab hentries
    induction hentries with
    | nil => exact .cons hab .nil
    | cons hfirst hrest ih =>
        rw [List.orderedInsert_cons, List.orderedInsert_cons, hab.1, hfirst.1]
        split
        · exact .cons hab (.cons hfirst hrest)
        · exact .cons hfirst ih
  induction h with
  | nil => exact .nil
  | cons hentry _ ih =>
      rw [List.insertionSort_cons, List.insertionSort_cons]
      exact hinsert hentry ih

theorem keys_eq (h : List.Forall₂ EntryReorders contracts others) :
    others.map (·.1) = contracts.map (·.1) := by
  induction h with
  | nil => rfl
  | cons hentry _ ih => exact congrArg₂ List.cons hentry.1.symm ih

/-- The contracts of two analyses, one of them taken in any order. -/
theorem TableReorders.of_perm (h : List.Forall₂ EntryReorders contracts others)
    (hunique : (contracts.map (·.1)).Nodup) (hperm : others.Perm picked) :
    TableReorders contracts picked := by
  have hunique' : (others.map (·.1)).Nodup := keys_eq h ▸ hunique
  refine ⟨fun id => ?_, ?_, ?_⟩
  · rw [lookup_perm hunique' hperm]
    exact lookup_rel h id
  · rw [offers_eq h]
    exact hperm.map _
  · rw [sortContracts_perm hunique' hperm.symm]
    exact sort_rel h

/-- Validating requirements ends alike over reordered tables. -/
theorem alike_validateDeclaredRequirements (h : TableReorders contracts others) :
    Alike SameKind (fun _ _ => True)
      (Returns.lift (validateDeclaredRequirements requirements others))
      (Returns.lift (validateDeclaredRequirements requirements contracts)) := by
  refine Alike.forM (List.forall₂_same.mpr fun requirement _ => ?_)
  have hlookup := h.lookup requirement.action
  generalize contracts.lookup requirement.action = entry at hlookup ⊢
  generalize others.lookup requirement.action = entry' at hlookup ⊢
  cases hlookup with
  | none => exact .throw rfl
  | some hcontract =>
      dsimp only
      simp only [hcontract.prerequisites.mem_iff]
      split
      · exact .pure trivial
      · exact .throw rfl

/-- One requirement is resolved in the same way in every order. -/
theorem resolveRequirement_reorders {trace trace' : AnalysedOrder}
    (htrace : TraceReorders trace trace')
    (h : TableReorders trace.contracts others) (hacyclic : Acyclic dependencies)
    (requirement : PendingRequirement) :
    resolveRequirement { trace' with contracts := others } dependencies requirement =
      resolveRequirement trace dependencies requirement := by
  have hcheck : ((trace'.checks.lookup requirement.action).bind fun checks =>
        checks.find? fun check => check.prerequisite == requirement.prerequisite) =
      (trace.checks.lookup requirement.action).bind fun checks =>
        checks.find? fun check => check.prerequisite == requirement.prerequisite := by
    have hlookup := @lookup_rel _ _ (fun checks checks' => checkOf checks = checkOf checks') _ _
      htrace.checks requirement.action
    generalize trace.checks.lookup requirement.action = entry at hlookup ⊢
    generalize trace'.checks.lookup requirement.action = entry' at hlookup ⊢
    cases hlookup with
    | none => rfl
    | some hchecks => exact (congrFun hchecks requirement.prerequisite).symm
  unfold resolveRequirement
  dsimp only
  rw [hcheck, requirementProvider_perm hacyclic h.offers]

/-- Resolving requirements ends alike over reordered tables. -/
theorem alike_resolveRequirements {trace trace' : AnalysedOrder}
    (htrace : TraceReorders trace trace')
    (h : TableReorders trace.contracts others) (hacyclic : Acyclic dependencies) :
    Alike SameKind Eq
      (Returns.lift
        (resolveRequirements requirements { trace' with contracts := others } dependencies))
      (Returns.lift (resolveRequirements requirements trace dependencies)) := by
  have hloop : ∀ {dependencies : List ActionDependency}, Acyclic dependencies →
      requirements.foldlM (resolveRequirement { trace' with contracts := others }) dependencies =
        requirements.foldlM (resolveRequirement trace) dependencies := by
    induction requirements with
    | nil => exact fun _ => rfl
    | cons requirement rest ih =>
        intro dependencies hacyclic
        rw [List.foldlM_cons, List.foldlM_cons, resolveRequirement_reorders htrace h hacyclic]
        cases hround : resolveRequirement trace dependencies requirement with
        | error error => rfl
        | ok extended => exact ih (hacyclic.resolveRequirement hround)
  unfold resolveRequirements
  rw [Returns.lift_bind, Returns.lift_bind]
  refine (alike_validateDeclaredRequirements h).bind fun _ _ _ => ?_
  exact .of_eq (fun _ => rfl) (fun _ => rfl) (congrArg _ (hloop hacyclic))

/-- Two contracts conflict in every order or in none. -/
theorem conflictingResource_isSome {first first' second second' : ActionContract}
    (hfirst : first.Reorders first') (hsecond : second.Reorders second') :
    (conflictingResource first' second').isSome = (conflictingResource first second).isSome := by
  have hiff : ∀ {first second : ActionContract}, (conflictingResource first second).isSome = true ↔
      ∃ left ∈ first.affectedResources, ∃ right ∈ second.affectedResources,
        accessesConflict left right = true := by
    intro first second
    simp [conflictingResource, List.findSome?_isSome_iff]
  rw [Bool.eq_iff_iff, hiff, hiff]
  simp only [hfirst.resources.mem_iff, hsecond.resources.mem_iff]

/-- Checking a pair ends alike over reordered contracts. -/
theorem alike_checkResourcePair {first first' second second' : ActionId × ActionContract}
    (hfirst : EntryReorders first first') (hsecond : EntryReorders second second') :
    Alike SameKind (fun _ _ => True)
      (Returns.lift (checkResourcePair dependencies first' second'))
      (Returns.lift (checkResourcePair dependencies first second)) := by
  have hsome := conflictingResource_isSome hfirst.2 hsecond.2
  unfold checkResourcePair
  rw [← hfirst.1, ← hsecond.1]
  cases hconflict : conflictingResource first.2 second.2 with
  | none =>
      rw [hconflict, Option.isSome_none, Option.isSome_eq_false_iff,
        Option.isNone_iff_eq_none] at hsome
      rw [hsome]
      exact .pure trivial
  | some resource =>
      rw [hconflict, Option.isSome_some, Option.isSome_iff_exists] at hsome
      obtain ⟨resource', hconflict'⟩ := hsome
      rw [hconflict']
      dsimp only
      split
      · exact .pure trivial
      · exact .throw rfl

/-- Checking resources ends alike over reordered tables. -/
theorem alike_validateResourceOrder (h : TableReorders contracts others) :
    Alike SameKind (fun _ _ => True)
      (Returns.lift (validateResourceOrder others dependencies))
      (Returns.lift (validateResourceOrder contracts dependencies)) := by
  have hpairs : ∀ {entries entries' : List (ActionId × ActionContract)},
      List.Forall₂ EntryReorders entries entries' →
      Alike SameKind (fun _ _ => True)
        (Returns.lift (checkResourcePairs dependencies entries'))
        (Returns.lift (checkResourcePairs dependencies entries)) := by
    intro entries entries' hentries
    induction hentries with
    | nil => exact .pure trivial
    | cons hfirst hrest ih =>
        rw [checkResourcePairs, checkResourcePairs, Returns.lift_bind, Returns.lift_bind]
        refine (Alike.forM (hrest.flip.imp fun _ _ hsecond => ?_)).bind fun _ _ _ => ih
        exact alike_checkResourcePair hfirst hsecond
  exact hpairs h.sorted

/-- Two planned actions that differ in the order of their contract. -/
structure ActionReorders (action other : PlannedAction) : Prop where
  contract : action.informationalContract.Reorders other.informationalContract
  same : { action with informationalContract := other.informationalContract } = other

/-- Freezing an action ends alike over reordered tables. -/
theorem alike_freezeAction (h : TableReorders contracts others) (action : DraftAction) :
    Alike SameKind (fun a b => ActionReorders b a) (Returns.lift (freezeAction others action))
      (Returns.lift (freezeAction contracts action)) := by
  unfold freezeAction
  have hlookup := h.lookup action.id
  generalize contracts.lookup action.id = entry at hlookup ⊢
  generalize others.lookup action.id = entry' at hlookup ⊢
  cases hlookup with
  | none => exact .throw rfl
  | some hcontract => exact .pure ⟨hcontract, rfl⟩

end Rest

/-! ### Composition -/

section Composed

variable {current : CurrentState} {fragments : List PlanFragment} {ordering : List FragmentOrdering}
  {capacity : List CapacityEvidence}

/-- Two plans with the same edges, whose actions differ in the order of their contracts. -/
structure PlanReorders (plan other : ExecutionPlan) : Prop where
  actions : List.Forall₂
    (fun action other => ActionReorders other action) plan.actions other.actions
  dependencies : plan.dependencies = other.dependencies

/-- **Composition ends alike in every order.** -/
theorem follows_composePlanWithOrdering :
    (Unordered.composePlanWithOrdering current fragments ordering capacity).Follows SameKind
      PlanReorders (DisksGraph.composePlanWithOrdering current fragments ordering capacity) := by
  have hsame : ∀ {α : Type} (x : Returns CompositionError α),
      (Choices.lift x).Follows SameKind Eq x := fun x =>
    .lift (.of_eq (fun _ => rfl) (fun _ => rfl) rfl)
  unfold Unordered.composePlanWithOrdering DisksGraph.composePlanWithOrdering
  refine .pick fun graph hgraph => ?_
  cases hvalid : current.graph.validateStructure with
  | error error =>
      cases hvalid' : graph.validateStructure with
      | error error' => exact .lift (.throw rfl)
      | ok _ =>
          rw [hgraph.validateStructure.mp hvalid'] at hvalid
          cases hvalid
  | ok _ =>
      rw [hgraph.validateStructure.mpr hvalid]
      refine (hsame _).bind ?_
      rintro flattened _ rfl hflattened
      obtain ⟨hactions, -⟩ := flattenFragments_actions hflattened
      dsimp only
      rw [hactions]
      refine (hsame _).bind ?_
      rintro requested _ rfl -
      refine (hsame _).bind ?_
      rintro planned _ rfl -
      refine (hsame _).bind ?_
      rintro mounted _ rfl -
      refine (follows_simulateOrder hvalid).bind ?_
      rintro ⟨first', analysed⟩ ⟨first, _⟩ ⟨hfirst, rfl⟩ hordered
      dsimp only
      refine .pick fun contracts hcontracts => ?_
      have htable :=
        TableReorders.of_perm hfirst.contracts (simulateOrder_nodup hordered) hcontracts
      obtain ⟨-, order, _, horder, -⟩ := simulateOrder_eq_pure hordered
      refine (Choices.Follows.lift (alike_resolveRequirements hfirst htable
        (acyclic_of_topologicalOrder horder))).bind ?_
      rintro resolved _ rfl -
      refine (follows_simulateOrder hvalid).bind ?_
      rintro ⟨final', last⟩ ⟨final, _⟩ ⟨hfinal, rfl⟩ hordered
      dsimp only
      refine .pick fun contracts hcontracts => ?_
      have htable :=
        TableReorders.of_perm hfinal.contracts (simulateOrder_nodup hordered) hcontracts
      refine (Choices.Follows.lift
        (alike_validateDeclaredRequirements htable)).bind fun _ _ _ _ => ?_
      refine (Choices.Follows.lift (alike_validateResourceOrder htable)).bind fun _ _ _ _ => ?_
      refine (Choices.Follows.lift
        (Alike.mapM fun action _ => alike_freezeAction htable action)).bind
        fun actions' actions hactions _ => ?_
      exact .pure ⟨hactions, rfl⟩

end Composed

end Unordered

end DisksGraph
