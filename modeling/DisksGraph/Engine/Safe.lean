import DisksGraph.Engine.Unordered

/-!
# Engine — Safe

Composition ends, closes no cycle of its own, and does not depend on the order of its hash tables.

* `Unordered.mem_composePlanWithOrdering`: the composition of `compose.rs` is one of the ways.
* `Acyclic.composePlanWithOrdering_spares`: no inferred edge is the cause of a cycle.
* `composition_terminates_safely`: the three together, for every state, evidence, fragments and
  ordering.
-/

namespace DisksGraph

open Support (Returns Alike Choices Spares)

namespace Unordered

section Members

variable {current : CurrentState} {capacity : List CapacityEvidence} {actions : List DraftAction}
  {requirements : List PendingRequirement} {dependencies : List ActionDependency}
  {projection : Projection} {trace : AnalysedOrder} {order : List ActionId}

/-! ### The composition of the source -/

/-- The function's result is one of the relation's. -/
theorem mem_bindContextualOutputs {action : DraftAction}
    {emitted : List (ActionId × ActionContract)} :
    Unordered.bindContextualOutputs projection action actions emitted requirements dependencies
      (Returns.lift (DisksGraph.bindContextualOutputs projection action actions emitted requirements
        dependencies)) := by
  unfold Unordered.bindContextualOutputs DisksGraph.bindContextualOutputs
  dsimp only
  split
  · rfl
  · exact Choices.mem_pick (.refl _) rfl

theorem mem_simulatePass :
    Unordered.simulatePass actions requirements dependencies projection trace order
      (DisksGraph.simulatePass actions requirements dependencies projection trace order) := by
  induction order generalizing projection trace with
  | nil => rfl
  | cons id rest ih =>
      unfold Unordered.simulatePass
      cases haction : actions[id.get]? with
      | none =>
          rw [DisksGraph.simulatePass, haction]
          rfl
      | some action =>
          rw [simulatePass_cons haction]
          refine Choices.mem_pick (.refl projection) ?_
          refine Choices.mem_bind mem_bindContextualOutputs fun bound _ => ?_
          cases bound with
          | some extended => rfl
          | none =>
              cases simulateAction projection action.operation with
              | error error => rfl
              | ok step => exact ih

/-- The loop is one of those over any hash order. -/
theorem mem_simulateOrder {restarts : Nat} :
    Unordered.simulateOrder current capacity actions requirements restarts dependencies
      (DisksGraph.simulateOrder current capacity actions requirements restarts dependencies) := by
  induction restarts generalizing dependencies with
  | zero => rfl
  | succ restarts ih =>
      unfold Unordered.simulateOrder DisksGraph.simulateOrder
      refine Choices.mem_bind rfl fun order _ => ?_
      cases SimulationEvidence.new capacity with
      | error error => rfl
      | ok evidence =>
          refine Choices.mem_bind mem_simulatePass fun ended _ => ?_
          cases ended with
          | inl trace => rfl
          | inr extended => exact ih

/-- **The composition of the source is one of the ways to compose in any order.** -/
theorem mem_composePlanWithOrdering {fragments : List PlanFragment}
    {ordering : List FragmentOrdering} :
    Unordered.composePlanWithOrdering current fragments ordering capacity
      (DisksGraph.composePlanWithOrdering current fragments ordering capacity) := by
  unfold Unordered.composePlanWithOrdering DisksGraph.composePlanWithOrdering
  refine Choices.mem_pick (.refl _) ?_
  cases current.graph.validateStructure with
  | error error => rfl
  | ok _ =>
      refine Choices.mem_bind rfl fun flattened _ => ?_
      refine Choices.mem_bind rfl fun requested _ => ?_
      refine Choices.mem_bind rfl fun planned _ => ?_
      refine Choices.mem_bind rfl fun mounted _ => ?_
      refine Choices.mem_bind mem_simulateOrder fun first _ => ?_
      refine Choices.mem_pick (.refl _) ?_
      refine Choices.mem_bind rfl fun resolved _ => ?_
      refine Choices.mem_bind mem_simulateOrder fun final _ => ?_
      refine Choices.mem_pick (.refl _) ?_
      refine Choices.mem_bind rfl fun _ _ => ?_
      refine Choices.mem_bind rfl fun _ _ => ?_
      exact Choices.mem_bind rfl fun _ _ => rfl

/-! ### Restarts -/

/-- **A restart closes no cycle**, whatever the order in which the pass met things. -/
theorem simulatePass_acyclic {extended : List ActionDependency} (hacyclic : Acyclic dependencies)
    (h : Unordered.simulatePass actions requirements dependencies projection trace order
      (pure (.inr extended))) : Acyclic extended := by
  induction order generalizing projection trace with
  | nil => cases h
  | cons id rest ih =>
      unfold Unordered.simulatePass at h
      cases haction : actions[id.get]? with
      | none =>
          rw [haction] at h
          cases h
      | some action =>
          rw [haction] at h
          obtain ⟨picked, -, h⟩ := Choices.bind_pure_iff.mp h
          obtain ⟨bound, hbound, h⟩ := Choices.bind_pure_iff.mp h
          cases bound with
          | some added =>
              obtain rfl := Sum.inr.inj (Returns.pure_inj.mp h)
              unfold Unordered.bindContextualOutputs at hbound
              dsimp only at hbound
              by_cases howned : (requirements.filter fun requirement =>
                  requirement.action == action.id).isEmpty = true
              · rw [if_pos howned] at hbound
                cases hbound
              · rw [if_neg howned] at hbound
                obtain ⟨providers, -, hbound⟩ := Choices.bind_pure_iff.mp hbound
                refine hacyclic.bindOwned (fun requirement hrequirement => ?_)
                  (Returns.lift_eq_pure.mp hbound.symm)
                exact eq_of_beq (List.mem_filter.mp hrequirement).2
          | none =>
              dsimp only at h
              cases hstep : simulateAction picked action.operation with
              | error error =>
                  rw [hstep] at h
                  cases h
              | ok step =>
                  rw [hstep] at h
                  exact ih h

end Members

end Unordered

/-! ### No cycle of its own -/

section Cycles

variable {current : CurrentState} {capacity : List CapacityEvidence} {fragments : List PlanFragment}
  {ordering : List FragmentOrdering} {requirements : List PendingRequirement}
  {dependencies : List ActionDependency}

/-- The restarts of an acyclic order meet no cycle. -/
theorem Acyclic.simulateOrder_spares (hacyclic : Acyclic dependencies)
    (hvalid : ValidEdges (draftsOf fragments).length dependencies) {restarts : Nat} :
    (simulateOrder current capacity (draftsOf fragments) requirements restarts dependencies).Spares
      (· = .dependencyCycle) := by
  induction restarts generalizing dependencies with
  | zero => trivial
  | succ restarts ih =>
      refine Returns.Spares.bind (hacyclic.topologicalOrder_spares hvalid.before) fun order _ => ?_
      split
      · exact nofun
      · refine Returns.Spares.bind (simulatePass_spares (fun _ error => ?_) fun _ _ _ _ => ?_)
          fun result hresult => ?_
        · cases error <;> exact nofun
        · unfold bindContextualOutputs
          dsimp only
          split
          · trivial
          · exact bindOwned_spares (fun _ => nofun) (fun _ => nofun) fun _ _ _ => nofun
        · cases result with
          | inl trace => trivial
          | inr extended =>
              have hextended := Unordered.simulatePass_acyclic hacyclic
                (hresult ▸ Unordered.mem_simulatePass)
              exact ih hextended ((simulatePass_inr hresult).valid hvalid)

theorem validateDeclaredRequirements_acyclic {contracts : List (ActionId × ActionContract)} :
    Spares (· = .dependencyCycle) (validateDeclaredRequirements requirements contracts) := by
  refine Spares.forM fun requirement _ => ?_
  split
  · exact nofun
  · split
    · trivial
    · exact nofun

theorem resolveRequirements_acyclic {trace : AnalysedOrder} :
    Spares (· = .dependencyCycle) (resolveRequirements requirements trace dependencies) := by
  refine validateDeclaredRequirements_acyclic.bind fun _ _ => ?_
  refine Spares.foldlM (fun requirement _ dependencies => ?_) _
  unfold resolveRequirement
  split
  · exact nofun
  · next check _ =>
    by_cases hobserved : check.status = .satisfied .observedSnapshot
    · rw [if_pos hobserved]
      trivial
    · rw [if_neg hobserved]
      refine (requirementProvider_spares fun _ => nofun).bind fun provider _ => ?_
      cases provider with
      | some provider => exact addDependency_spares fun _ => nofun
      | none =>
          dsimp only
          split
          · exact nofun
          · trivial

theorem validateResourceOrder_acyclic {contracts : List (ActionId × ActionContract)} :
    Spares (· = .dependencyCycle) (validateResourceOrder contracts dependencies) := by
  unfold validateResourceOrder
  generalize contracts.insertionSort (fun a b => a.1.get ≤ b.1.get) = sorted
  induction sorted with
  | nil => trivial
  | cons first rest ih =>
      refine Spares.bind (Spares.forM fun second _ => ?_) fun _ _ => ih
      unfold checkResourcePair
      split
      · trivial
      · split
        · trivial
        · exact nofun

/-- **Composition finds no cycle that was not there after `bind_planned_nodes`.** -/
theorem Acyclic.composePlanWithOrdering_spares {flattened : FlattenedFragments}
    {requested planned : List ActionDependency}
    (hflattened : flattenFragments fragments = pure flattened)
    (hrequested : ordering.foldlM (addOrdering flattened.actions) flattened.dependencies =
      .ok requested)
    (hplanned : bindPlannedNodes current flattened.actions requested = .ok planned)
    (hacyclic : Acyclic planned) :
    (composePlanWithOrdering current fragments ordering capacity).Spares
    (· = .dependencyCycle) := by
  obtain ⟨hactions, -⟩ := flattenFragments_actions hflattened
  obtain ⟨hedges, hbound⟩ := flattenFragments_edges hflattened
  unfold composePlanWithOrdering
  split
  · exact nofun
  · rw [hflattened, pure_bind]
    dsimp only
    rw [hrequested, show Returns.lift (Except.ok requested) = pure requested from rfl, pure_bind,
      hplanned, show Returns.lift (Except.ok planned) = pure planned from rfl, pure_bind]
    rw [hactions] at hrequested hplanned ⊢
    have hplanned' : Extends (draftsOf fragments).length flattened.dependencies planned :=
      .trans (foldlM_extends (fun edge _ _ _ => addOrdering_extends) hrequested)
        (bindPlannedNodes_extends hplanned)
    refine Returns.Spares.bind (Returns.Spares.lift (bindMountOrder_spares fun _ => nofun))
      fun mounted hmounted => ?_
    have hmounted := Returns.lift_eq_pure.mp hmounted
    have hmounted' := hplanned'.trans (bindMountOrder_extends hmounted)
    refine Returns.Spares.bind ((hacyclic.bindMountOrder hmounted).simulateOrder_spares
      (hmounted'.valid hedges)) fun ⟨first, analysed⟩ hfirst => ?_
    obtain ⟨hanalysed, order, _, horder, -⟩ := simulateOrder_eq_pure hfirst
    refine Returns.Spares.bind (Returns.Spares.lift resolveRequirements_acyclic)
      fun resolved hresolved => ?_
    have hresolved := Returns.lift_eq_pure.mp hresolved
    have hresolved' := (hmounted'.trans hanalysed).trans
      (resolveRequirements_extends hbound (simulateOrder_bound hfirst) hresolved)
    refine Returns.Spares.bind
      (((acyclic_of_topologicalOrder horder).resolveRequirements hresolved).simulateOrder_spares
        (hresolved'.valid hedges)) fun ⟨final, last⟩ _ => ?_
    refine Returns.Spares.bind (Returns.Spares.lift validateDeclaredRequirements_acyclic)
      fun _ _ => ?_
    refine Returns.Spares.bind (Returns.Spares.lift validateResourceOrder_acyclic) fun _ _ => ?_
    refine Returns.Spares.bind (Returns.Spares.lift (Spares.mapM fun action _ => ?_))
      fun _ _ => trivial
    unfold freezeAction
    split
    · exact nofun
    · trivial

end Cycles

/-! ### Safe composition -/

/-- One restart of `simulate_order`: a pass over an order of the edges ends with one more edge. -/
def Rebinds (current : CurrentState) (capacity : List CapacityEvidence) (actions : List DraftAction)
    (requirements : List PendingRequirement) (dependencies extended : List ActionDependency) : Prop :=
  ∃ evidence order, SimulationEvidence.new capacity = .ok evidence ∧
    topologicalOrder actions.length dependencies = pure order ∧
    Unordered.simulatePass actions requirements dependencies (.initial current evidence) {} order
      (pure (.inr extended))

/-- No number of restarts closes a cycle. -/
theorem Acyclic.rebinds {current : CurrentState} {capacity : List CapacityEvidence}
    {actions : List DraftAction} {requirements : List PendingRequirement}
    {dependencies extended : List ActionDependency} (hacyclic : Acyclic dependencies)
    (h : Relation.ReflTransGen
      (Rebinds current capacity actions requirements) dependencies extended) :
    Acyclic extended := by
  induction h with
  | refl => exact hacyclic
  | tail _ hlast ih =>
      obtain ⟨_, _, -, -, hpass⟩ := hlast
      exact Unordered.simulatePass_acyclic ih hpass

/-- The same actions, with contracts of one canonical form: whichever way the values of the first
contract are held, the second one has the same values. -/
structure SameAction (action other : PlannedAction) : Prop where
  same : { action with informationalContract := other.informationalContract } = other
  contract : ∀ (spelling : ContractSpelling) (held : HeldContract spelling),
    held.value = action.informationalContract → ∃ held' : HeldContract spelling,
      held'.value = other.informationalContract ∧
        canonicalizeContract held = canonicalizeContract held'

/-- The same actions, edges and canonical contracts. -/
structure SamePlan (plan other : ExecutionPlan) : Prop where
  actions : List.Forall₂ SameAction plan.actions other.actions
  dependencies : plan.dependencies = other.dependencies

/-- Two plans that differ from a third in the order of their contracts are the same. -/
theorem SamePlan.of_reorders {plan other third : ExecutionPlan}
    (h : Unordered.PlanReorders plan third) (h' : Unordered.PlanReorders other third) :
    SamePlan plan other := by
  have hactions : ∀ {actions others thirds : List PlannedAction},
      List.Forall₂ (fun action third => Unordered.ActionReorders third action) actions thirds →
      List.Forall₂ (fun other third => Unordered.ActionReorders third other) others thirds →
      List.Forall₂ SameAction actions others := by
    intro actions others thirds hleft hright
    induction hleft generalizing others with
    | nil =>
        cases hright
        exact .nil
    | cons hfirst _ ih =>
        obtain _ | ⟨hsecond, hrest⟩ := hright
        refine .cons ⟨?_, fun spelling held hheld => ?_⟩ (ih hrest)
        · rw [← hfirst.same]
          exact hsecond.same
        · obtain ⟨mid, hmid, hcanonical⟩ := hfirst.contract.symm.canonicalizeContract hheld
          obtain ⟨held', hheld', hcanonical'⟩ := hsecond.contract.canonicalizeContract hmid
          exact ⟨held', hheld', hcanonical.trans hcanonical'⟩
  exact ⟨hactions h.actions h'.actions, h.dependencies.trans h'.dependencies.symm⟩

/-- **`composition_terminates_safely`** — composition is one of the ways to compose with the hash
tables in any order; none of these runs forever; edges that are acyclic after `bind_planned_nodes`
stay so through the mount order, the restarts and the resolution of the requirements, and no cycle
is reported; and any two of them end with the same plan or with errors of one kind. -/
theorem composition_terminates_safely (current : CurrentState) (fragments : List PlanFragment)
    (ordering : List FragmentOrdering)
    (capacity : List CapacityEvidence) :
    Unordered.composePlanWithOrdering current fragments ordering capacity
      (composePlanWithOrdering current fragments ordering capacity) ∧
    ¬Unordered.composePlanWithOrdering current fragments ordering capacity Returns.never ∧
    (∀ flattened requested planned, flattenFragments fragments = pure flattened →
      ordering.foldlM (addOrdering flattened.actions) flattened.dependencies = .ok requested →
      bindPlannedNodes current flattened.actions requested = .ok planned → Acyclic planned →
      (∀ mounted, bindMountOrder flattened.actions planned = .ok mounted → Acyclic mounted ∧
        ∀ analysed, Relation.ReflTransGen (Rebinds current capacity flattened.actions
            flattened.requirements) mounted analysed → Acyclic analysed ∧
          ∀ trace resolved,
            resolveRequirements flattened.requirements trace analysed = .ok resolved →
              Acyclic resolved) ∧
      ¬Unordered.composePlanWithOrdering current fragments ordering capacity
        (throw .dependencyCycle)) ∧
    ∀ run run', Unordered.composePlanWithOrdering current fragments ordering capacity run →
      Unordered.composePlanWithOrdering current fragments ordering capacity run' →
      Alike SameKind SamePlan run run' := by
  have hfollows := @Unordered.follows_composePlanWithOrdering current fragments ordering capacity
  refine ⟨Unordered.mem_composePlanWithOrdering, fun hnever => ?_, ?_,
    fun run run' hrun hrun' => ?_⟩
  · obtain ⟨result, hresult⟩ :=
      @composePlanWithOrdering_returns current fragments ordering capacity
    have halike := hfollows _ hnever
    rw [hresult] at halike
    cases halike
  · intro flattened requested planned hflattened hrequested hplanned hacyclic
    refine ⟨fun mounted hmounted => ?_, fun hcycle => ?_⟩
    · have hmounted := hacyclic.bindMountOrder hmounted
      refine ⟨hmounted, fun analysed hanalysed => ?_⟩
      have hanalysed := hmounted.rebinds hanalysed
      exact ⟨hanalysed, fun _ _ hresolved => hanalysed.resolveRequirements hresolved⟩
    · have hspares := @Acyclic.composePlanWithOrdering_spares current capacity _ _ _ _ _ hflattened
        hrequested hplanned hacyclic
      have halike := hfollows _ hcycle
      generalize composePlanWithOrdering current fragments ordering capacity = run at hspares halike
      cases halike with
      | @throw _ error hkind =>
          refine hspares.not_bad rfl ?_
          cases error <;> first | rfl | cases hkind
  · have halike := hfollows.agree (fun _ _ => .symm) (fun _ _ _ => .trans) hrun hrun'
    refine halike.mono (fun _ _ hkind => hkind) fun plan other hthird => ?_
    obtain ⟨third, hplan, hother⟩ := hthird
    exact .of_reorders hplan hother

/-- Whatever the order of the hash tables, the creation and the two mounts are composed to one plan,
and no cycle is reported. -/
theorem home_mounts_composed_safely :
    ∃ plan, plan.dependencies = [⟨⟨2⟩, ⟨1⟩, .inputCreation⟩, ⟨⟨1⟩, ⟨0⟩, .mountOrder⟩] ∧
      (∀ run, Unordered.composePlanWithOrdering homeState homeFragments [] [] run →
        Alike SameKind SamePlan run (pure plan)) ∧
      ¬Unordered.composePlanWithOrdering homeState homeFragments [] []
        (throw .dependencyCycle) := by
  have hrun : (composePlanWithOrdering homeState homeFragments [] []).toOption.map
      (·.dependencies) = some [⟨⟨2⟩, ⟨1⟩, .inputCreation⟩, ⟨⟨1⟩, ⟨0⟩, .mountOrder⟩] := by
    decide +kernel
  obtain ⟨plan, hplan, hedges⟩ := Option.map_eq_some_iff.mp hrun
  have hcomposed := Returns.toOption_eq_some.mp hplan
  -- What `bind_planned_nodes` leaves is the edge from the creation to the mount.
  have hacyclic : Acyclic [⟨⟨2⟩, ⟨1⟩, .inputCreation⟩] := by
    intro id hcycle
    obtain ⟨next, hfirst, hrest⟩ := Relation.TransGen.head'_iff.mp hcycle
    obtain ⟨edge, hedge, rfl, rfl⟩ := hfirst
    obtain rfl := List.mem_singleton.mp hedge
    rcases Relation.ReflTransGen.cases_head hrest with hsame | ⟨_, ⟨other, hother, hbefore, -⟩, -⟩
    · cases hsame
    · obtain rfl := List.mem_singleton.mp hother
      cases hbefore
  obtain ⟨hsource, -, hsafe, hsame⟩ :=
    composition_terminates_safely homeState homeFragments [] []
  rw [hcomposed] at hsource
  exact ⟨plan, hedges, fun run hrun => hsame run _ hrun hsource,
    (hsafe _ _ _ rfl rfl rfl hacyclic).2⟩

end DisksGraph
