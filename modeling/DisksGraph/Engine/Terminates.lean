import DisksGraph.Engine.Agree
import Mathlib.Data.List.ProdSigma

/-!
# Engine — Terminates

Composition and analysis always return.

The only loop without an obvious bound is the restart of `simulate_order`.  A pass stops early with
one more edge: the provider it binds has not been replayed yet, so no edge of the current order
leads from it to the consumer.  There are no more edges than ordered pairs of actions.

* `simulateOrder_returns`: the restarts end.
* `composePlanWithOrdering_returns`: a plan or an error.
-/

namespace DisksGraph

open Support (Returns)

/-! ### Restarts -/

section Restarts

variable {fragments : List PlanFragment} {requirements : List PendingRequirement}
  {dependencies extended : List ActionDependency} {projection : Projection}
  {trace : AnalysedOrder} {order : List ActionId} {current : CurrentState}
  {capacity : List CapacityEvidence}

/-- There are no more edges than ordered pairs. -/
theorem ValidEdges.length_le {count : Nat} (h : ValidEdges count dependencies) :
    dependencies.length ≤ count * count := by
  have hsubset : dependencies.map (fun edge => (edge.before, edge.after)) ⊆
      ((List.range count).map ActionId.mk) ×ˢ ((List.range count).map ActionId.mk) := by
    intro pair hpair
    obtain ⟨edge, hedge, rfl⟩ := List.mem_map.mp hpair
    refine List.mem_product.mpr ⟨?_, ?_⟩
    · exact List.mem_map.mpr ⟨_, List.mem_range.mpr (h.before edge hedge), rfl⟩
    · exact List.mem_map.mpr ⟨_, List.mem_range.mpr (h.after edge hedge), rfl⟩
  have hle := (h.unique.subperm hsubset).length_le
  rwa [List.length_map, List.length_product, List.length_map, List.length_range] at hle

theorem addDependency_length {before after : ActionId} {reason : DependencyReason}
    (hnew : ¬Precedes dependencies before after)
    (h : addDependency dependencies before after reason = .ok extended) :
    extended.length = dependencies.length + 1 := by
  unfold addDependency at h
  split at h
  · cases h
  · split at h
    · next hany =>
      obtain ⟨edge, hedge, hsame⟩ := List.any_eq_true.mp hany
      rw [Bool.and_eq_true, beq_iff_eq, beq_iff_eq] at hsame
      exact absurd ⟨edge, hedge, hsame⟩ hnew
    · obtain rfl := Except.ok.inj h
      rw [List.length_append, List.length_singleton]

/-- Binding with a new provider adds a dependency. -/
theorem bindOwned_length {action : DraftAction} {contract : ActionContract}
    {providers : List (ActionId × ActionContract)} {owned : List PendingRequirement}
    (hproviders : ∀ entry ∈ providers, ¬Precedes dependencies entry.1 action.id)
    (h : bindOwned projection action contract providers dependencies owned = .ok (some extended)) :
    extended.length = dependencies.length + 1 := by
  induction owned with
  | nil => cases h
  | cons requirement rest ih =>
      unfold bindOwned at h
      by_cases hdeclared : requirement.prerequisite ∈ contract.prerequisites
      · rw [if_neg (not_not_intro hdeclared)] at h
        dsimp only at h
        split at h
        · exact ih h
        · obtain ⟨provider, hprovider, h⟩ := Support.except_bind_eq_ok.mp h
          cases provider with
          | none => exact ih h
          | some provider =>
              obtain ⟨added, hadded, h⟩ := Support.except_bind_eq_ok.mp h
              obtain rfl := Option.some.inj (Except.ok.inj h)
              obtain ⟨-, -, _, hmem⟩ := requirementProvider_some hprovider
              exact addDependency_length (hproviders _ hmem) hadded
      · rw [if_pos hdeclared] at h
        cases h

/-- A provider that is bound was not replayed, so it does not precede the consumer yet. -/
theorem bindContextualOutputs_length {action : DraftAction} {actions : List DraftAction}
    {emitted : List (ActionId × ActionContract)}
    (hclosed : ∀ edge ∈ dependencies, edge.after = action.id → edge.before ∈ emitted.map (·.1))
    (h : bindContextualOutputs projection action actions emitted requirements dependencies =
      .ok (some extended)) : extended.length = dependencies.length + 1 := by
  unfold bindContextualOutputs at h
  dsimp only at h
  split at h
  · cases h
  · refine bindOwned_length (fun entry hentry => ?_) h
    rintro ⟨edge, hedge, hbefore, hafter⟩
    obtain ⟨candidate, hcandidate, rfl⟩ := List.mem_map.mp hentry
    have hmissing := List.of_mem_filter hcandidate
    rw [Option.isNone_iff_eq_none, List.lookup_eq_none_iff] at hmissing
    obtain ⟨other, hother, hsame⟩ := List.mem_map.mp (hclosed edge hedge hafter)
    have hne := hmissing other hother
    rw [hsame, hbefore] at hne
    simp at hne

/-- A pass over a topological order returns; one that stops early has one more edge. -/
theorem simulatePass_returns {done : List ActionId}
    (horder : topologicalOrder (draftsOf fragments).length dependencies = pure (done ++ order))
    (htrace : trace.contracts.map (·.1) = done) :
    ∃ result, simulatePass (draftsOf fragments) requirements dependencies projection trace order =
      some result ∧ ∀ extended, result = .ok (.inr extended) →
        extended.length = dependencies.length + 1 := by
  induction order generalizing projection trace done with
  | nil => exact ⟨_, rfl, fun _ h => by cases h⟩
  | cons id rest ih =>
      unfold simulatePass
      split
      · next hmissing =>
        have hlt := ((topologicalOrder_eq_pure horder).2.2 id).mp
          (List.mem_append_right _ List.mem_cons_self)
        rw [List.getElem?_eq_getElem hlt] at hmissing
        cases hmissing
      · next action haction =>
        split
        · exact ⟨_, rfl, fun _ h => by cases h⟩
        · next extended hbound =>
          refine ⟨_, rfl, fun extended' hsame => ?_⟩
          obtain rfl := Sum.inr.inj (Except.ok.inj hsame)
          refine bindContextualOutputs_length (fun edge hedge hafter => ?_) hbound
          rw [htrace]
          refine topologicalOrder_closed horder rfl hedge ?_
          rw [hafter, getElem?_draftsOf haction]
        · split
          · exact ⟨_, rfl, fun _ h => by cases h⟩
          · refine @ih _ _ (done ++ [id]) ?_ ?_
            · rwa [List.append_assoc]
            · rw [List.map_append, htrace]
              rfl

/-- **The restarts end.** -/
theorem simulateOrder_returns {restarts : Nat}
    (hvalid : ValidEdges (draftsOf fragments).length dependencies)
    (hrestarts : (draftsOf fragments).length * (draftsOf fragments).length <
      dependencies.length + restarts) :
    ∃ result, simulateOrder current capacity (draftsOf fragments) requirements restarts
      dependencies = some result := by
  induction restarts generalizing dependencies with
  | zero =>
      have hle := hvalid.length_le
      omega
  | succ restarts ih =>
      unfold simulateOrder
      refine Returns.exists_bind (topologicalOrder_returns hvalid.after) fun order horder => ?_
      split
      · exact ⟨_, rfl⟩
      · next evidence _ =>
        have hfirst : topologicalOrder (draftsOf fragments).length dependencies =
          pure ([] ++ order) := horder
        obtain ⟨pass, hpass, hgrows⟩ := @simulatePass_returns fragments requirements
          dependencies (.initial current evidence) {} order [] hfirst rfl
        refine Returns.exists_bind ⟨pass, hpass⟩ fun passed hpassed => ?_
        obtain rfl : pass = .ok passed := Option.some.inj (hpass.symm.trans hpassed)
        cases passed with
        | inl trace => exact ⟨_, rfl⟩
        | inr extended =>
            have hextends := simulatePass_inr hpass
            have hlength := hgrows extended rfl
            exact ih (hextends.valid hvalid) (by omega)

end Restarts

/-! ### Composition -/

section Composed

variable {keys : ContractKeys} {current : CurrentState} {fragments : List PlanFragment}
  {ordering : List FragmentOrdering} {capacity : List CapacityEvidence}

theorem flattenFragments_returns : ∃ result, flattenFragments fragments = some result := by
  refine Returns.exists_bind ⟨_, rfl⟩ fun ids hids => ?_
  obtain ⟨rfl, hkeys⟩ := fragmentActionIds_eq_ok (Returns.lift_eq_pure.mp hids)
  refine Returns.exists_bind (Returns.exists_mapM fun entry hentry => ?_) fun _ _ => ?_
  · refine Returns.exists_bind ⟨_, rfl⟩ fun index _ => ?_
    split
    · exact ⟨_, rfl⟩
    · refine Returns.exists_mapM fun action haction => ?_
      have hitem : ⟨entry.2, entry.1.origin, action⟩ ∈ fragmentItems fragments :=
        mem_fragmentItems.mpr ⟨entry.1, List.mk_mem_zipIdx_iff_getElem?.mp hentry, rfl, haction⟩
      obtain ⟨position, hposition⟩ := List.mem_iff_getElem?.mp
        (List.mem_map_of_mem (f := FragmentItem.key) hitem)
      have hlookup : (numbered ((fragmentItems fragments).map FragmentItem.key)).lookup
          (entry.2, action.id) = some ⟨position⟩ := lookup_numbered hkeys hposition
      rw [hlookup]
      exact ⟨_, rfl⟩
  · exact Returns.exists_bind ⟨_, rfl⟩ fun _ _ => ⟨_, rfl⟩

/-- **Composition returns a plan or an error.** -/
theorem composePlanWithOrdering_returns :
    ∃ result, composePlanWithOrdering current fragments ordering capacity = some result := by
  unfold composePlanWithOrdering
  split
  · exact ⟨_, rfl⟩
  · refine Returns.exists_bind flattenFragments_returns fun flattened hflattened => ?_
    obtain ⟨hactions, -⟩ := flattenFragments_actions hflattened
    obtain ⟨hedges, hbound⟩ := flattenFragments_edges hflattened
    dsimp only
    rw [hactions]
    refine Returns.exists_bind ⟨_, rfl⟩ fun requested hrequested => ?_
    refine Returns.exists_bind ⟨_, rfl⟩ fun planned hplanned => ?_
    refine Returns.exists_bind ⟨_, rfl⟩ fun mounted hmounted => ?_
    have hrequested : Extends (draftsOf fragments).length flattened.dependencies requested :=
      foldlM_extends (fun edge _ _ _ => addOrdering_extends) (Returns.lift_eq_pure.mp hrequested)
    have hmounted' :=
      (hrequested.trans (bindPlannedNodes_extends (Returns.lift_eq_pure.mp hplanned)))
      |>.trans (bindMountOrder_extends (Returns.lift_eq_pure.mp hmounted))
    refine Returns.exists_bind (simulateOrder_returns (hmounted'.valid hedges) ?_)
      fun ⟨first, analysed⟩ hfirst => ?_
    · rw [restartBound]
      omega
    refine Returns.exists_bind ⟨_, rfl⟩ fun resolved hresolved => ?_
    have hresolved' := (hmounted'.trans (simulateOrder_eq_pure hfirst).1).trans
      (resolveRequirements_extends hbound (simulateOrder_bound hfirst)
        (Returns.lift_eq_pure.mp hresolved))
    refine Returns.exists_bind (simulateOrder_returns (hresolved'.valid hedges) ?_)
      fun ⟨final, last⟩ _ => ?_
    · rw [restartBound]
      omega
    refine Returns.exists_bind ⟨_, rfl⟩ fun _ _ => ?_
    refine Returns.exists_bind ⟨_, rfl⟩ fun _ _ => ?_
    exact Returns.exists_bind ⟨_, rfl⟩ fun _ _ => ⟨_, rfl⟩

/-- The analysis of a composed plan returns a report or an error. -/
theorem Composition.analysePlan_returns {plan : ExecutionPlan} {evidence : SimulationEvidence}
    {order : List ActionId} {final : AnalysedOrder} {intents : List OperationIntent}
    {scope : ProtectedScope}
    (h : Composition current fragments ordering capacity plan evidence order final) :
    ∃ result, analysePlan keys current plan intents capacity scope = some result := by
  obtain ⟨ordered, entries, last, hordered, -, -, hreplay⟩ :=
    @Composition.replays keys _ _ _ _ _ _ _ _ h
  unfold analysePlan
  split
  · exact ⟨_, rfl⟩
  · split
    · exact ⟨_, rfl⟩
    · rw [simulatePlanWithEvidence, hreplay]
      refine Returns.exists_bind ⟨_, rfl⟩ fun simulation _ => ?_
      unfold checkProtectedScope
      rw [hordered]
      exact ⟨_, rfl⟩

end Composed

end DisksGraph
