import DisksGraph.Engine.Drafts
import DisksGraph.Engine.Wire

/-!
# Engine — Agree

Composition, replay and the document analysis compute one trace.

The composer froze every action with the contract of its last pass.  A replay of the plan goes
through the same projections, so it recalculates those contracts and returns the plan it was given;
the analysis of a captured document replays that plan again.

* `simulatePass_replays`: the replay of the ordered actions, with the frozen contracts.
* `Composition.replays`: the replay returns the plan itself.
* `composition_replay_agree`: the composer, the replay and the captured document.
-/

namespace DisksGraph

open Support (Returns)

/-! ### The frozen actions -/

/-- The draft that an action was frozen from. -/
def PlannedAction.draft (action : PlannedAction) : DraftAction :=
  ⟨action.id, action.operation, action.fragment, action.localId, action.origin⟩

section Frozen

variable {current : CurrentState} {fragments : List PlanFragment} {ordering : List FragmentOrdering}
  {capacity : List CapacityEvidence} {plan : ExecutionPlan} {evidence : SimulationEvidence}
  {order : List ActionId} {final : AnalysedOrder}

theorem freezeAction_eq_ok {contracts : List (ActionId × ActionContract)} {action : DraftAction}
    {planned : PlannedAction} (h : freezeAction contracts action = .ok planned) :
    planned.draft = action ∧ contracts.lookup planned.id = some planned.informationalContract := by
  unfold freezeAction at h
  split at h
  · cases h
  · next contract hlookup =>
    obtain rfl := Except.ok.inj h
    exact ⟨rfl, hlookup⟩

theorem Composition.drafts
    (h : Composition current fragments ordering capacity plan evidence order final) :
    plan.actions.map PlannedAction.draft = draftsOf fragments := by
  have hall := Support.except_mapM_eq_ok.mp h.frozen
  have hdrafts : List.Forall₂ (fun action planned => action = planned.draft) (draftsOf fragments)
      plan.actions :=
    hall.imp fun _ _ hfreeze => (freezeAction_eq_ok hfreeze).1.symm
  rw [← List.forall₂_map_right_iff, List.forall₂_eq_eq_eq] at hdrafts
  exact hdrafts.symm

/-- Every action carries the contract of the last pass. -/
theorem Composition.contract
    (h : Composition current fragments ordering capacity plan evidence order final)
    {action : PlannedAction} (haction : action ∈ plan.actions) :
    final.contracts.lookup action.id = some action.informationalContract := by
  obtain ⟨draft, -, hfreeze⟩ :=
    Support.exists_of_forall₂ (Support.except_mapM_eq_ok.mp h.frozen) haction
  exact (freezeAction_eq_ok hfreeze).2

theorem Composition.length
    (h : Composition current fragments ordering capacity plan evidence order final) :
    plan.actions.length = (draftsOf fragments).length := by
  rw [← h.drafts, List.length_map]

/-- The identity of a planned action is its position. -/
theorem Composition.position
    (h : Composition current fragments ordering capacity plan evidence order final)
    {position : Nat} {action : PlannedAction} (haction : plan.actions[position]? = some action) :
    action.id = ⟨position⟩ ∧ (draftsOf fragments)[position]? = some action.draft := by
  have hdraft : (draftsOf fragments)[position]? = some action.draft := by
    rw [← h.drafts, List.getElem?_map, haction, Option.map_some]
  exact ⟨getElem?_draftsOf hdraft, hdraft⟩

theorem Composition.order_contracts
    (h : Composition current fragments ordering capacity plan evidence order final) :
    final.contracts.map (·.1) = order :=
  simulatePass_contracts h.pass

/-- The actions of a composed plan are in the order of their identities. -/
theorem Composition.sorted
    (h : Composition current fragments ordering capacity plan evidence order final) :
    plan.actions.Pairwise fun a b => a.id.get < b.id.get := by
  rw [List.pairwise_iff_getElem]
  intro i j hi hj hij
  have hid := (h.position (List.getElem?_eq_getElem hi)).1
  have hjd := (h.position (List.getElem?_eq_getElem hj)).1
  rw [hid, hjd]
  exact hij

theorem Composition.id_inj
    (h : Composition current fragments ordering capacity plan evidence order final)
    {a b : PlannedAction} (ha : a ∈ plan.actions) (hb : b ∈ plan.actions) (hid : a.id = b.id) :
    a = b := by
  obtain ⟨i, hi⟩ := List.mem_iff_getElem?.mp ha
  obtain ⟨j, hj⟩ := List.mem_iff_getElem?.mp hb
  have hsame : i = j := by
    have heq := (h.position hi).1.symm.trans (hid.trans (h.position hj).1)
    exact congrArg ActionId.get heq
  subst hsame
  exact Option.some.inj (hi.symm.trans hj)

theorem Composition.sortById_eq
    (h : Composition current fragments ordering capacity plan evidence order final) :
    sortById plan.actions = plan.actions :=
  List.Pairwise.insertionSort_eq (h.sorted.imp fun hlt => Nat.le_of_lt hlt)

/-- The ordered actions are the actions at the positions of the order. -/
theorem Composition.orderedActions
    (h : Composition current fragments ordering capacity plan evidence order final) :
    ∃ ordered, plan.orderedActions = some ordered ∧
      List.Forall₂ (fun id action => plan.actions[id.get]? = some action) order ordered := by
  have hdefined : ∀ id ∈ order, ∃ action, plan.actions[id.get]? = some action := by
    intro id hid
    have hlt := ((topologicalOrder_eq_pure h.ordered).2.2 id).mp hid
    rw [← h.length] at hlt
    exact ⟨_, List.getElem?_eq_getElem hlt⟩
  obtain ⟨ordered, hordered, hall⟩ := Support.option_mapM_of_forall hdefined
  refine ⟨ordered, ?_, hall⟩
  rw [ExecutionPlan.orderedActions, h.length, h.ordered]
  exact hordered

/-- Its ordered actions. -/
structure Composition.Ordered (plan : ExecutionPlan) (order : List ActionId)
    (ordered : List PlannedAction) : Prop where
  ids : ordered.map (·.id) = order
  perm : ordered.Perm plan.actions

theorem Composition.ordered_of
    (h : Composition current fragments ordering capacity plan evidence order final)
    {ordered : List PlannedAction}
    (hordered : List.Forall₂ (fun id action => plan.actions[id.get]? = some action) order ordered) :
    Ordered plan order ordered := by
  have hids : ordered.map (·.id) = order := by
    have hall : List.Forall₂ (fun id action => id = PlannedAction.id action) order ordered :=
      hordered.imp fun id action haction => (h.position haction).1.symm
    rw [← List.forall₂_map_right_iff, List.forall₂_eq_eq_eq] at hall
    exact hall.symm
  obtain ⟨hnodup, hlength, hmem⟩ := topologicalOrder_eq_pure h.ordered
  refine ⟨hids, ?_⟩
  have hordered' : ordered.Nodup :=
    List.Nodup.of_map (f := PlannedAction.id) (by rw [hids]; exact hnodup)
  have hsubset : ordered ⊆ plan.actions := by
    intro action haction
    obtain ⟨id, -, hid⟩ := Support.exists_of_forall₂ hordered haction
    exact List.mem_of_getElem? hid
  exact (hordered'.subperm hsubset).perm_of_length_le (by
    rw [h.length, ← hlength, ← hids, List.length_map])

end Frozen

/-! ### The replay -/

/-- Contracts that say the same agree, however they are held. -/
theorem contractsAgree_of_eq {spelling : ContractSpelling}
    {trusted imported : HeldContract spelling}
    (h : trusted.value = imported.value) : contractsAgree trusted imported = true := by
  rw [contractsAgree, h, beq_self_eq_true, Bool.true_or]

/-- An action frozen with the contract that its projection gives replays with it. -/
theorem replayAction_of_simulateAction {keys : ContractKeys} {projection next : Projection}
    {action : PlannedAction} {result : SimulatedAction}
    (h : simulateAction projection action.operation = .ok (result, next))
    (hcontract : action.informationalContract = result.contract) :
    replayAction keys projection action =
      .ok ((action, ⟨action.id, result.checks, result.invalidatedFacts⟩), next) := by
  have htrusted := (simulateAction_ok h).1
  have hagree : contractsAgree (keys.trusted action projection.graph).1 (keys.imported action).1 =
      true := by
    refine contractsAgree_of_eq ?_
    rw [(keys.trusted action projection.graph).2, (keys.imported action).2, hcontract, htrusted]
  unfold replayAction verifyImportedContract
  rw [if_pos hagree, h]
  dsimp only
  rw [← hcontract]

/-- What one replayed step shows: its action as it was frozen, and no violated check. -/
structure StepAgrees (action : PlannedAction) (entry : PlannedAction × SimulatedStep) : Prop where
  trusted : entry.1 = action
  step : entry.2.action = action.id
  checks : ∀ check ∈ entry.2.checks, check.status.isViolated = false

theorem simulatePass_keeps {drafts : List DraftAction} {dependencies : List ActionDependency}
    {projection : Projection} {trace final : AnalysedOrder} {order : List ActionId}
    (h : simulatePass drafts [] dependencies projection trace order = pure (.inl final)) :
    trace.contracts <+: final.contracts := by
  induction order generalizing projection trace with
  | nil =>
      obtain rfl := Sum.inl.inj (Returns.pure_inj.mp h)
      exact List.prefix_rfl
  | cons id rest ih =>
      unfold simulatePass at h
      split at h
      · cases h
      · split at h
        · cases h
        · cases h
        · split at h
          · cases h
          · exact (List.prefix_append _ _).trans (ih h)

/-- The first entry of a key is the one that is found. -/
theorem lookup_of_first {before entries : List (ActionId × ActionContract)} {id : ActionId}
    {contract : ActionContract} (h : before ++ [(id, contract)] <+: entries)
    (hfresh : id ∉ before.map (·.1)) : entries.lookup id = some contract := by
  obtain ⟨after, rfl⟩ := h
  refine List.lookup_eq_some_iff.mpr ⟨before, after, by rw [List.append_assoc]; rfl, ?_⟩
  intro entry hentry
  have hne : entry.1 ≠ id := fun heq => hfresh (heq ▸ List.mem_map_of_mem hentry)
  simpa using hne.symm

/-- The replay of the actions of a pass goes through the projections of the pass. -/
theorem simulatePass_replays {keys : ContractKeys} {drafts : List DraftAction}
    {dependencies : List ActionDependency} {projection : Projection} {trace final : AnalysedOrder}
    {order : List ActionId} {ordered : List PlannedAction}
    (h : simulatePass drafts [] dependencies projection trace order = pure (.inl final))
    (hordered : List.Forall₂ (fun id action => drafts[id.get]? = some action.draft ∧
      final.contracts.lookup id = some action.informationalContract) order ordered)
    (hfresh : (trace.contracts.map (·.1) ++ order).Nodup) :
    ∃ entries last, replayActions keys projection ordered = .ok (entries, last) ∧
      List.Forall₂ StepAgrees ordered entries := by
  induction order generalizing projection trace ordered with
  | nil =>
      cases hordered
      exact ⟨[], projection, rfl, .nil⟩
  | cons id rest ih =>
      cases hordered with
      | @cons _ action _ ordered hfirst hrest =>
      obtain ⟨hdraft, hcontract⟩ := hfirst
      unfold simulatePass at h
      rw [hdraft] at h
      dsimp only at h
      split at h
      · cases h
      · cases h
      · split at h
        · cases h
        · next result next hsimulate =>
          have hid : id ∉ trace.contracts.map (·.1) := fun hmem =>
            List.disjoint_of_nodup_append hfresh hmem List.mem_cons_self
          have hfound := lookup_of_first (simulatePass_keeps h) hid
          have hsame : action.informationalContract = result.contract :=
            Option.some.inj (hcontract.symm.trans hfound)
          have hnext : (((trace.contracts ++ [(id, result.contract)]).map (·.1)) ++
              rest).Nodup := by
            rwa [List.map_append, List.map_singleton, List.append_assoc]
          obtain ⟨entries, last, hreplay, hsteps⟩ := ih h hrest hnext
          have hstep : StepAgrees action
              (action, ⟨action.id, result.checks, result.invalidatedFacts⟩) :=
            ⟨rfl, rfl, (simulateAction_ok hsimulate).2.2.1⟩
          refine ⟨_, last, ?_, .cons hstep hsteps⟩
          rw [replayActions, replayAction_of_simulateAction hsimulate hsame]
          exact Support.except_bind_eq_ok.mpr ⟨_, rfl,
            Support.except_bind_eq_ok.mpr ⟨_, hreplay, rfl⟩⟩

/-- A replay of a composed plan recalculates its contracts and returns the plan itself. -/
theorem Composition.replays {keys : ContractKeys} {current : CurrentState}
    {fragments : List PlanFragment} {ordering : List FragmentOrdering}
    {capacity : List CapacityEvidence} {plan : ExecutionPlan} {evidence : SimulationEvidence}
    {order : List ActionId} {final : AnalysedOrder}
    (h : Composition current fragments ordering capacity plan evidence order final) :
    ∃ ordered entries, ∃ last : Projection, plan.orderedActions = some ordered ∧
      Ordered plan order ordered ∧ List.Forall₂ StepAgrees ordered entries ∧
      replayPlan keys current plan capacity =
        pure (plan, ⟨last.desired, last.evidence.summary, entries.map (·.2)⟩) := by
  obtain ⟨ordered, hordered, hall⟩ := h.orderedActions
  have hperm := h.ordered_of hall
  have hfrozen : List.Forall₂ (fun id action =>
      (draftsOf fragments)[id.get]? = some (PlannedAction.draft action) ∧
        final.contracts.lookup id = some action.informationalContract) order ordered := by
    refine hall.imp fun id action haction => ?_
    obtain ⟨hid, hdraft⟩ := h.position haction
    have hcontract := h.contract (List.mem_of_getElem? haction)
    rw [hid] at hcontract
    exact ⟨hdraft, hcontract⟩
  obtain ⟨entries, last, hreplay, hsteps⟩ :=
    simulatePass_replays h.pass hfrozen (topologicalOrder_eq_pure h.ordered).1
  refine ⟨ordered, entries, last, hordered, hperm, hsteps, ?_⟩
  have hactions : entries.map (·.1) = ordered := by
    have htrusted := hsteps.imp fun _ _ hstep => hstep.trusted.symm
    rw [← List.forall₂_map_right_iff, List.forall₂_eq_eq_eq] at htrusted
    exact htrusted.symm
  have hsorted : sortById (entries.map (·.1)) = plan.actions := by
    rw [hactions]
    have hle : ∀ a b : PlannedAction, a ∈ sortById ordered → b ∈ plan.actions →
        a.id.get ≤ b.id.get → b.id.get ≤ a.id.get → a = b := by
      intro a b ha hb hab hba
      have ha' : a ∈ plan.actions := hperm.perm.mem_iff.mp ((List.mem_insertionSort _).mp ha)
      exact h.id_inj ha' hb (ActionId.ext (Nat.le_antisymm hab hba))
    refine List.Perm.eq_of_pairwise hle (List.pairwise_insertionSort _ _) ?_
      ((List.perm_insertionSort _ _).trans hperm.perm)
    exact h.sorted.imp fun hlt => Nat.le_of_lt hlt
  unfold DisksGraph.replayPlan
  rw [h.valid, h.evidenced]
  dsimp only
  rw [hordered]
  dsimp only
  rw [hreplay]
  dsimp only
  rw [hsorted]

/-! ### The structure of a captured document -/

namespace PlanDocument

/-- The action loop accepts actions numbered by position, with distinct local identities and one
origin for each fragment. -/
theorem foldlM_checkAction {actions : List PlannedAction} {start : Nat} {seen : SeenActions}
    (hids : ∀ position action, actions[position]? = some action → action.id.get = start + position)
    (hlocal : (actions.map fun action => (action.fragment, action.localId)).Nodup)
    (hfresh : ∀ action ∈ actions, (action.fragment, action.localId) ∉ seen.localIds)
    (horigins : ∀ action ∈ actions, ∀ other ∈ actions, action.fragment = other.fragment →
      action.origin = other.origin)
    (hseen : ∀ action ∈ actions, ∀ origin, (action.fragment, origin) ∈ seen.origins →
      origin = action.origin) :
    ∃ seen', (actions.zipIdx start).foldlM checkAction seen = .ok seen' := by
  induction actions generalizing start seen with
  | nil => exact ⟨seen, rfl⟩
  | cons action rest ih =>
      have hid : action.id.get = start := hids 0 action rfl
      have hagrees : ¬(seen.origins.lookup action.fragment).any (· ≠ action.origin) = true := by
        intro hany
        obtain ⟨origin, hlookup, hne⟩ := (Option.any_eq_true _ _).mp hany
        obtain ⟨before, after, heq, -⟩ := List.lookup_eq_some_iff.mp hlookup
        have hmem : (action.fragment, origin) ∈ seen.origins := by
          rw [heq]
          exact List.mem_append_right _ List.mem_cons_self
        exact of_decide_eq_true hne (hseen action List.mem_cons_self origin hmem)
      obtain ⟨hnew, hlocal⟩ := List.nodup_cons.mp hlocal
      rw [List.zipIdx_cons, List.foldlM_cons, checkAction]
      dsimp only
      rw [if_neg (not_not_intro hid), if_neg (hfresh action List.mem_cons_self), if_neg hagrees]
      refine ih ?_ hlocal ?_ ?_ ?_
      · intro position other hother
        have hother := hids (position + 1) other hother
        omega
      · intro other hother hmem
        rcases List.mem_cons.mp hmem with hsame | hmem
        · exact hnew (List.mem_map.mpr ⟨other, hother, hsame⟩)
        · exact hfresh other (List.mem_cons_of_mem _ hother) hmem
      · exact fun a ha b hb => horigins a (List.mem_cons_of_mem _ ha) b (List.mem_cons_of_mem _ hb)
      · intro other hother origin hmem
        rcases List.mem_cons.mp hmem with hsame | hmem
        · obtain ⟨hfragment, rfl⟩ := Prod.mk.inj hsame
          exact horigins action List.mem_cons_self other (List.mem_cons_of_mem _ hother)
            hfragment.symm
        · exact hseen other (List.mem_cons_of_mem _ hother) origin hmem

/-- The edge loop accepts valid edges. -/
theorem foldlM_checkEdge {count : Nat} {dependencies : List ActionDependency}
    {edges : List (ActionId × ActionId)} (h : ValidEdges count dependencies)
    (hfresh : ∀ edge ∈ dependencies, (edge.before, edge.after) ∉ edges) :
    ∃ edges', dependencies.foldlM (checkEdge count) edges = .ok edges' := by
  induction dependencies generalizing edges with
  | nil => exact ⟨edges, rfl⟩
  | cons edge rest ih =>
      obtain ⟨hnew, hunique⟩ := List.nodup_cons.mp h.unique
      have hrest : ValidEdges count rest :=
        ⟨fun e he => h.before e (List.mem_cons_of_mem _ he),
          fun e he => h.after e (List.mem_cons_of_mem _ he),
          fun e he => h.proper e (List.mem_cons_of_mem _ he), hunique⟩
      have haccepted : checkEdge count edges edge = .ok ((edge.before, edge.after) :: edges) := by
        have hbefore := h.before edge List.mem_cons_self
        have hafter := h.after edge List.mem_cons_self
        have hproper := h.proper edge List.mem_cons_self
        have hedge := hfresh edge List.mem_cons_self
        rw [checkEdge, if_neg]
        simp only [Bool.or_eq_true, decide_eq_true_eq, not_or, Nat.not_le]
        exact ⟨⟨⟨hbefore, hafter⟩, hproper⟩, hedge⟩
      rw [List.foldlM_cons, haccepted]
      refine ih hrest fun other hother hmem => ?_
      rcases List.mem_cons.mp hmem with hsame | hmem
      · exact hnew (List.mem_map.mpr ⟨other, hother, hsame⟩)
      · exact hfresh other (List.mem_cons_of_mem _ hother) hmem

end PlanDocument

section Captured

variable {current : CurrentState} {fragments : List PlanFragment} {ordering : List FragmentOrdering}
  {capacity : List CapacityEvidence} {plan : ExecutionPlan} {evidence : SimulationEvidence}
  {order : List ActionId} {final : AnalysedOrder}

theorem Composition.localIds
    (h : Composition current fragments ordering capacity plan evidence order final) :
    (plan.actions.map fun action => (action.fragment, action.localId)).Nodup := by
  have hkeys : (draftsOf fragments).map (fun draft => (draft.fragment.get, draft.localId)) =
      (fragmentItems fragments).map FragmentItem.key :=
    map_draftsOf fun _ _ => rfl
  rw [← h.drafts, List.map_map] at hkeys
  have hnodup := h.keys
  rw [← hkeys] at hnodup
  refine List.Nodup.of_map (f := fun key : FragmentId × LocalActionId => (key.1.get, key.2)) ?_
  rw [List.map_map]
  exact hnodup

/-- The item of the fragments that a planned action comes from. -/
theorem Composition.item
    (h : Composition current fragments ordering capacity plan evidence order final)
    {action : PlannedAction} (haction : action ∈ plan.actions) :
    ∃ item ∈ fragmentItems fragments, action.fragment = ⟨item.index⟩ ∧
      action.origin = item.origin ∧ action.operation = item.action.operation := by
  have hdraft : action.draft ∈ draftsOf fragments := h.drafts ▸ List.mem_map_of_mem haction
  obtain ⟨item, hitem, position, heq⟩ := mem_draftsOf hdraft
  exact ⟨item, hitem, congrArg DraftAction.fragment heq, congrArg DraftAction.origin heq,
    congrArg DraftAction.operation heq⟩

theorem Composition.origins
    (h : Composition current fragments ordering capacity plan evidence order final)
    {action other : PlannedAction} (haction : action ∈ plan.actions) (hother : other ∈ plan.actions)
    (hfragment : action.fragment = other.fragment) : action.origin = other.origin := by
  obtain ⟨item, hitem, hindex, horigin, -⟩ := h.item haction
  obtain ⟨item', hitem', hindex', horigin', -⟩ := h.item hother
  obtain ⟨fragment, hsome, hfrom, -⟩ := mem_fragmentItems.mp hitem
  obtain ⟨fragment', hsome', hfrom', -⟩ := mem_fragmentItems.mp hitem'
  have hsame : item.index = item'.index := by
    rw [hindex, hindex'] at hfragment
    exact congrArg FragmentId.get hfragment
  rw [hsame, hsome'] at hsome
  obtain rfl := Option.some.inj hsome
  rw [horigin, horigin', hfrom, hfrom']

/-- The document of a composed plan has the structure of the plan. -/
theorem Composition.structuralPlan
    (h : Composition current fragments ordering capacity plan evidence order final)
    {document : PlanDocument} (hactions : document.actions = plan.actions)
    (hdependencies : document.dependencies = plan.dependencies)
    (hsnapshot : document.baseline.snapshot = current)
    (hgoal : document.requestedGoal.graph.validateStructure = .ok ()) :
    document.structuralPlan = pure plan := by
  obtain ⟨seen, hseen⟩ := @PlanDocument.foldlM_checkAction plan.actions 0 {}
    (fun position action haction => by rw [(h.position haction).1, Nat.zero_add]) h.localIds
    (fun _ _ => List.not_mem_nil) (fun a ha b hb => h.origins ha hb)
    (fun _ _ _ hmem => absurd hmem List.not_mem_nil)
  obtain ⟨edges, hedges⟩ := PlanDocument.foldlM_checkEdge h.edges
    (fun edge _ => (List.not_mem_nil : (edge.before, edge.after) ∉ []))
  have hcheck : PlanDocument.checkGraph document.baseline.snapshot.graph = .ok () := by
    rw [hsnapshot, PlanDocument.checkGraph, h.valid]
  have hcheck' : PlanDocument.checkGraph document.requestedGoal.graph = .ok () := by
    rw [PlanDocument.checkGraph, hgoal]
  unfold PlanDocument.structuralPlan
  rw [hcheck, hcheck', hactions, hdependencies, h.sortById_eq]
  dsimp only
  rw [hseen, h.length, hedges, h.ordered]
  rfl

/-- The contracts of the plan are those of the last pass. -/
theorem Composition.contracts_perm
    (h : Composition current fragments ordering capacity plan evidence order final) :
    (plan.actions.map fun action => (action.id, action.informationalContract)).Perm
      final.contracts := by
  have hnodup :
      (plan.actions.map fun action => (action.id, action.informationalContract)).Nodup := by
    refine List.Nodup.of_map (f := fun entry : ActionId × ActionContract => entry.1.get) ?_
    rw [List.map_map]
    exact List.pairwise_map.mpr (h.sorted.imp fun hlt => Nat.ne_of_lt hlt)
  have hsubset : (plan.actions.map fun action => (action.id, action.informationalContract)) ⊆
      final.contracts := by
    intro entry hentry
    obtain ⟨action, haction, rfl⟩ := List.mem_map.mp hentry
    obtain ⟨before, after, heq, -⟩ := List.lookup_eq_some_iff.mp (h.contract haction)
    rw [heq]
    exact List.mem_append_right _ List.mem_cons_self
  refine (hnodup.subperm hsubset).perm_of_length_le ?_
  have hlength := congrArg List.length h.order_contracts
  rw [List.length_map] at hlength
  rw [List.length_map, h.length, hlength, (topologicalOrder_eq_pure h.ordered).2.1]

/-- Contracts of distinct actions are sorted into one order. -/
theorem sortContracts_perm {contracts others : List (ActionId × ActionContract)}
    (hunique : (others.map (·.1)).Nodup) (h : contracts.Perm others) :
    contracts.insertionSort (fun a b => a.1.get ≤ b.1.get) =
      others.insertionSort fun a b => a.1.get ≤ b.1.get := by
  have hsort : ∀ entries : List (ActionId × ActionContract),
      (entries.insertionSort fun a b => a.1.get ≤ b.1.get).Pairwise fun a b => a.1.get ≤ b.1.get :=
    fun entries => List.pairwise_insertionSort _ entries
  refine List.Perm.eq_of_pairwise ?_ (hsort _) (hsort _)
    (((List.perm_insertionSort _ _).trans h).trans (List.perm_insertionSort _ _).symm)
  intro a b ha hb hab hba
  have ha' : a ∈ others := h.mem_iff.mp ((List.mem_insertionSort _).mp ha)
  have hb' : b ∈ others := (List.mem_insertionSort _).mp hb
  exact List.inj_on_of_nodup_map hunique ha' hb' (ActionId.ext (Nat.le_antisymm hab hba))

/-- The stored contracts pass the resource check that the analysed ones passed. -/
theorem Composition.resources_plan
    (h : Composition current fragments ordering capacity plan evidence order final) :
    validateResourceOrder (plan.actions.map fun action => (action.id, action.informationalContract))
      plan.dependencies = .ok () := by
  have hunique : (final.contracts.map (·.1)).Nodup := by
    rw [h.order_contracts]
    exact (topologicalOrder_eq_pure h.ordered).1
  rw [validateResourceOrder, sortContracts_perm hunique h.contracts_perm]
  exact h.resources

end Captured

/-! ### Intents -/

theorem actionsCoverIntent_congr {intent : OperationIntent} {actions others : List ProviderAction}
    (h : ∀ action, action ∈ actions ↔ action ∈ others) :
    actionsCoverIntent intent actions = actionsCoverIntent intent others := by
  have hcontains : ∀ action, actions.contains action = others.contains action := by
    intro action
    rw [Bool.eq_iff_iff, List.contains_iff_mem, List.contains_iff_mem, h]
  cases intent <;> simp only [actionsCoverIntent, hcontains]

section Intents

variable {current : CurrentState} {fragments : List PlanFragment} {ordering : List FragmentOrdering}
  {capacity : List CapacityEvidence} {plan : ExecutionPlan} {evidence : SimulationEvidence}
  {order : List ActionId} {final : AnalysedOrder}

/-- The operations of an origin, in the plan and in the fragments. -/
theorem Composition.operations
    (h : Composition current fragments ordering capacity plan evidence order final)
    {ordered : List PlannedAction} (hordered : ordered.Perm plan.actions) {origin : FragmentOrigin}
    {operation : ProviderAction} :
    operation ∈ (ordered.filter fun action => action.origin == origin).map (·.operation) ↔
      operation ∈ (fragments.filter fun fragment => fragment.origin == origin).flatMap fun fragment =>
        fragment.actions.map (·.operation) := by
  have hdrafts :
    operation ∈ (ordered.filter fun action => action.origin == origin).map (·.operation)
      ↔ ∃ draft ∈ draftsOf fragments, draft.origin = origin ∧ draft.operation = operation := by
    rw [← h.drafts]
    simp only [List.mem_map, List.mem_filter, hordered.mem_iff, beq_iff_eq]
    constructor
    · rintro ⟨action, ⟨haction, horigin⟩, hoperation⟩
      exact ⟨action.draft, ⟨action, haction, rfl⟩, horigin, hoperation⟩
    · rintro ⟨_, ⟨action, haction, rfl⟩, horigin, hoperation⟩
      exact ⟨action, ⟨haction, horigin⟩, hoperation⟩
  rw [hdrafts]
  simp only [List.mem_flatMap, List.mem_filter, List.mem_map, beq_iff_eq]
  constructor
  · rintro ⟨draft, hdraft, horigin, hoperation⟩
    obtain ⟨item, hitem, position, rfl⟩ := mem_draftsOf hdraft
    obtain ⟨fragment, hfragment, hfrom, haction⟩ := mem_fragmentItems.mp hitem
    exact ⟨fragment, ⟨List.mem_of_getElem? hfragment, hfrom.symm.trans horigin⟩, item.action,
      haction, hoperation⟩
  · rintro ⟨fragment, ⟨hfragment, horigin⟩, action, haction, hoperation⟩
    obtain ⟨index, hindex⟩ := List.mem_iff_getElem?.mp hfragment
    have hitem : (⟨index, fragment.origin, action⟩ : FragmentItem) ∈ fragmentItems fragments :=
      mem_fragmentItems.mpr ⟨fragment, hindex, rfl, haction⟩
    obtain ⟨position, hposition⟩ := List.mem_iff_getElem?.mp hitem
    refine ⟨_, List.mem_map.mpr ⟨_, List.mk_mem_zipIdx_iff_getElem?.mpr hposition, rfl⟩, ?_⟩
    exact ⟨horigin, hoperation⟩

/-- The intents that the composer found covered are covered in every report on the plan. -/
theorem Composition.intents_covered
    (h : Composition current fragments ordering capacity plan evidence order final)
    {intents : List OperationIntent} (hcovered : validateIntentCoverage intents fragments = .ok ())
    {ordered : List PlannedAction} (hordered : ordered.Perm plan.actions)
    {coverage : IntentCoverage}
    (hcoverage : coverage ∈ intents.zipIdx.map (intentCoverage ordered)) :
    coverage.covered = true := by
  obtain ⟨⟨intent, index⟩, hentry, rfl⟩ := List.mem_map.mp hcoverage
  obtain ⟨_, -, hloop⟩ := Support.except_bind_eq_ok.mp hcovered
  have hfragments : intentIsCovered index intent fragments = true := by
    have hround := Support.except_forM_eq_ok.mp hloop _ hentry
    by_contra huncovered
    rw [if_neg huncovered] at hround
    cases hround
  rw [intentIsCovered] at hfragments
  rw [intentCoverage]
  dsimp only
  rw [actionsCoverIntent_congr fun operation => h.operations hordered]
  exact hfragments

end Intents

/-! ### Agreement -/

/-- The verdict of a report that the composer accepts is accepted by the document. -/
theorem rejection_eq_none {report : SimulationReport}
    (hprotected : report.protectionViolations = [])
    (hgoal : report.goalChecks.find? (fun check => check.status.isViolated) = none)
    (hintents : ∀ coverage ∈ report.intentCoverage, coverage.covered = true) :
    PlanDocument.rejection report = none := by
  have hfind : report.intentCoverage.find? (fun intent => !intent.covered) = none := by
    rw [List.find?_eq_none]
    intro coverage hcoverage
    rw [hintents coverage hcoverage]
    exact Bool.false_ne_true
  rw [PlanDocument.rejection, hprotected]
  dsimp only
  rw [hgoal, hfind]

/-- The report of a plan, taken apart. -/
theorem simulatePlanForGoalWithPolicy_eq_pure {keys : ContractKeys} {current : CurrentState}
    {plan : ExecutionPlan} {goal : DesiredState} {capacity : List CapacityEvidence}
    {scope : ProtectedScope} {report : SimulationReport}
    (h : simulatePlanForGoalWithPolicy keys current plan goal capacity scope = pure report) :
    goal.graph.validateStructure = .ok () ∧ ∃ trusted simulation ordered,
      replayPlan keys current plan capacity = pure (trusted, simulation) ∧
      plan.orderedActions = some ordered ∧
      report.simulation =
        { simulation with desired := { simulation.desired with intents := goal.intents } } ∧
      report.intentCoverage = goal.intents.zipIdx.map (intentCoverage ordered) := by
  unfold simulatePlanForGoalWithPolicy at h
  split at h
  · cases h
  · next hvalid =>
    obtain ⟨analysed, hanalysed, h⟩ := Returns.bind_eq_pure.mp h
    obtain rfl := Returns.pure_inj.mp h
    unfold analysePlan at hanalysed
    split at hanalysed
    · cases hanalysed
    · split at hanalysed
      · cases hanalysed
      · obtain ⟨simulation, hsimulation, hanalysed⟩ := Returns.bind_eq_pure.mp hanalysed
        obtain ⟨⟨trusted, simulation'⟩, hreplay, hsimulation⟩ := Returns.bind_eq_pure.mp hsimulation
        obtain rfl := Returns.pure_inj.mp hsimulation
        dsimp only at hanalysed
        split at hanalysed
        · next hviolations hordered =>
          obtain rfl := Returns.pure_inj.mp hanalysed
          exact ⟨hvalid, trusted, simulation', _, hreplay, hordered, rfl, rfl⟩
        · cases hanalysed

/-- The report with which the composer accepted the plan. -/
theorem composePlanForGoalWithPolicy_eq_pure {keys : ContractKeys} {current : CurrentState}
    {goal : DesiredState} {fragments : List PlanFragment} {capacity : List CapacityEvidence}
    {scope : ProtectedScope} {plan : ExecutionPlan}
    (h : composePlanForGoalWithPolicy keys current goal fragments capacity scope = pure plan) :
    validateIntentCoverage goal.intents fragments = .ok () ∧
      composePlanWithOrdering current fragments [] capacity = pure plan ∧
      ∃ report, simulatePlanForGoalWithPolicy keys current plan goal capacity scope = pure report ∧
        report.protectionViolations = [] ∧
        report.goalChecks.find? (fun check => check.status.isViolated) = none := by
  obtain ⟨_, hintents, h⟩ := Returns.bind_eq_pure.mp h
  obtain ⟨composed, hcomposed, h⟩ := Returns.bind_eq_pure.mp h
  split at h
  · cases h
  · cases h
  · next report hreport =>
    split at h
    · cases h
    · next hprotected =>
      split at h
      · cases h
      · next hgoal =>
        obtain rfl := Returns.pure_inj.mp h
        exact ⟨Returns.lift_eq_pure.mp hintents, hcomposed, report, hreport, hprotected, hgoal⟩

/-- The analysis of the document of a composed plan gives the report of the composer. -/
theorem Composition.analyseHistorical {keys : ContractKeys} {current : CurrentState}
    {fragments : List PlanFragment} {ordering : List FragmentOrdering}
    {capacity : List CapacityEvidence} {plan : ExecutionPlan} {evidence : SimulationEvidence}
    {order : List ActionId} {final : AnalysedOrder} {goal : DesiredState} {scope : ProtectedScope}
    {report : SimulationReport} {baselineId planId : Uuid}
    (h : Composition current fragments ordering capacity plan evidence order final)
    (hplan : planId.isNil = false) (hbaseline : baselineId.isNil = false)
    (hgoal : goal.graph.validateStructure = .ok ())
    (hreport : simulatePlanForGoalWithPolicy keys current plan goal capacity scope = pure report)
    (haccepted : PlanDocument.rejection report = none) :
    PlanDocument.analyseHistorical keys
        ⟨PLAN_SCHEMA_VERSION, ACTION_SEMANTICS_VERSION, planId, ⟨baselineId, current, capacity⟩, goal,
          scope, plan.actions, plan.dependencies⟩ =
      pure ⟨planId, baselineId, plan, report⟩ := by
  obtain ⟨_, _, last, -, -, -, hreplay⟩ := @Composition.replays keys _ _ _ _ _ _ _ _ h
  have hstructure := @Composition.structuralPlan _ _ _ _ _ _ _ _ h
    ⟨PLAN_SCHEMA_VERSION, ACTION_SEMANTICS_VERSION, planId, ⟨baselineId, current, capacity⟩, goal,
      scope, plan.actions, plan.dependencies⟩ rfl rfl rfl hgoal
  unfold PlanDocument.analyseHistorical
  simp only [ne_eq, not_true_eq_false, if_false, hplan, hbaseline, Bool.or_self, Bool.false_eq_true,
    hstructure]
  refine Returns.bind_eq_pure.mpr ⟨plan, rfl, ?_⟩
  rw [hreplay]
  dsimp only [pure, ExceptT.pure, ExceptT.mk]
  rw [h.resources_plan, hreport]
  dsimp only [pure, ExceptT.pure, ExceptT.mk]
  rw [haccepted]

/-- **Composition and replay agree.**  A plan that the composer returns is replayed from the same
state and evidence: one step for each action in plan order, no violated check, and recalculated
contracts that are the frozen ones, so that the replay returns the plan itself.  Capturing it
succeeds, and the analysis of the document gives the report with which the composer accepted it.

`Uuid::now_v7` never draws the nil identity. -/
theorem composition_replay_agree {keys : ContractKeys} {current : CurrentState}
    {goal : DesiredState} {fragments : List PlanFragment} {capacity : List CapacityEvidence}
    {scope : ProtectedScope} {plan : ExecutionPlan} {baselineId planId : Uuid}
    (h : composePlanForGoalWithPolicy keys current goal fragments capacity scope = pure plan)
    (hplan : planId.isNil = false) (hbaseline : baselineId.isNil = false) :
    ∃ ordered simulation report document analysis,
      plan.orderedActions = some ordered ∧ ordered.Perm plan.actions ∧
      replayPlan keys current plan capacity = pure (plan, simulation) ∧
      simulation.steps.map (·.action) = ordered.map (·.id) ∧
      (∀ step ∈ simulation.steps, ∀ check ∈ step.checks, check.status.isViolated = false) ∧
      simulatePlanForGoalWithPolicy keys current plan goal capacity scope = pure report ∧
      report.simulation =
        { simulation with desired := { simulation.desired with intents := goal.intents } } ∧
      report.protectionViolations = [] ∧
      (∀ check ∈ report.goalChecks, check.status.isViolated = false) ∧
      PlanDocument.capture keys baselineId planId plan current goal capacity scope = pure document ∧
      document.analyseHistorical keys = pure analysis ∧
      analysis.plan = plan ∧ analysis.report = report := by
  obtain ⟨hintents, hcomposed, report, hreport, hprotected, hgoal⟩ :=
    composePlanForGoalWithPolicy_eq_pure h
  obtain ⟨evidence, order, final, hcomposition⟩ := composePlanWithOrdering_eq_pure hcomposed
  obtain ⟨ordered, entries, last, hordered, hperm, hsteps, hreplay⟩ :=
    @Composition.replays keys _ _ _ _ _ _ _ _ hcomposition
  obtain ⟨hvalid, trusted, simulation, ordered', hreplay', hordered', hfinal, hcoverage⟩ :=
    simulatePlanForGoalWithPolicy_eq_pure hreport
  obtain ⟨rfl, rfl⟩ := Prod.mk.inj (Returns.pure_inj.mp (hreplay.symm.trans hreplay'))
  obtain rfl := Option.some.inj (hordered.symm.trans hordered')
  have haccepted : PlanDocument.rejection report = none := by
    refine rejection_eq_none hprotected hgoal fun coverage hmem => ?_
    exact hcomposition.intents_covered hintents hperm.perm (hcoverage ▸ hmem)
  have hanalysis := hcomposition.analyseHistorical hplan hbaseline hvalid hreport haccepted
  refine ⟨ordered, _, report, _, _, hordered, hperm.perm, hreplay, ?_, ?_, hreport, hfinal,
    hprotected, ?_, Returns.bind_eq_pure.mpr ⟨_, hanalysis, rfl⟩, hanalysis, rfl, rfl⟩
  · have hactions : List.Forall₂ Eq (ordered.map (·.id)) (entries.map (·.2.action)) :=
      List.forall₂_map_left_iff.mpr
        (List.forall₂_map_right_iff.mpr (hsteps.imp fun _ _ hstep => hstep.step.symm))
    rw [List.forall₂_eq_eq_eq] at hactions
    rw [List.map_map]
    exact hactions.symm
  · intro step hstep
    obtain ⟨entry, hentry, rfl⟩ := List.mem_map.mp hstep
    obtain ⟨action, -, hagrees⟩ := Support.exists_of_forall₂ hsteps hentry
    exact hagrees.checks
  · intro check hcheck
    have hok := List.find?_eq_none.mp hgoal check hcheck
    simpa using hok

/-! ### A filesystem that is created and mounted -/

/-- The disk under the volume. -/
def homeDisk : NodeId := ⟨1#128⟩

/-- The volume under the home filesystem. -/
def homeVolume : NodeId := ⟨2#128⟩

/-- A disk that is not to be touched. -/
def keptDisk : NodeId := ⟨3#128⟩

/-- `/data/cache`. -/
def cacheTarget : PathBuf := ⟨[.rootDir, .normal "data", .normal "cache"]⟩

/-- Two free disks. -/
def homeState : CurrentState where
  graph := (NodeGraph.empty.setNode homeDisk ⟨⟨.disk, some 100⟩, {}⟩).setNode keptDisk
    ⟨⟨.disk, some 200⟩, {}⟩
  mounts := []
  diagnostics := []

/-- A mount below `/data`, the mount of a filesystem at `/data`, and its creation: the edges between
them are left to the composer. -/
def homeFragments : List PlanFragment :=
  [⟨[⟨⟨0⟩, .mount (.mount .tmpfs cacheTarget [] .host)⟩], [], [], .mount cacheTarget .host, []⟩,
    ⟨[⟨⟨0⟩, .mount (.mount (.filesystem homeVolume) sampleTarget [] .host)⟩], [], [],
      .mount sampleTarget .host, []⟩,
    ⟨[⟨⟨0⟩, .filesystem (.create homeDisk homeVolume .ext4 none)⟩], [], [],
      .change homeVolume "create filesystem", []⟩]

/-- The filesystem on its disk, and both mounts. -/
def homeGoal : DesiredState :=
  { DesiredState.fromCurrent homeState with
    graph := (homeState.graph.setNode homeVolume
      ⟨⟨.filesystem .ext4 none, some 100⟩, { presence := .present }⟩).insertDependency
        ⟨homeDisk, homeVolume, .backs⟩
    mounts :=
      ⟨[⟨.filesystem homeVolume, sampleTarget, [], .host⟩, ⟨.tmpfs, cacheTarget, [], .host⟩], []⟩ }

/-- The creation comes first and the inner mount last; the plan is captured, and its document has
the same analysis. -/
theorem home_mounts_captured :
    ∃ plan document analysis,
      composePlanForGoalWithPolicy sampleKeys homeState homeGoal homeFragments []
        ⟨[keptDisk], [], []⟩ =
        pure plan ∧
      plan.dependencies = [⟨⟨2⟩, ⟨1⟩, .inputCreation⟩, ⟨⟨1⟩, ⟨0⟩, .mountOrder⟩] ∧
      PlanDocument.capture sampleKeys 1#128 2#128 plan homeState homeGoal [] ⟨[keptDisk], [], []⟩ =
        pure document ∧
      document.analyseHistorical sampleKeys = pure analysis ∧
      analysis.plan = plan ∧ analysis.report.protectionViolations = [] := by
  have hrun : (composePlanForGoalWithPolicy sampleKeys homeState homeGoal homeFragments []
      ⟨[keptDisk], [], []⟩).toOption.map (·.dependencies) =
        some [⟨⟨2⟩, ⟨1⟩, .inputCreation⟩, ⟨⟨1⟩, ⟨0⟩, .mountOrder⟩] := by decide +kernel
  obtain ⟨plan, hplan, hedges⟩ := Option.map_eq_some_iff.mp hrun
  have hcomposed := Returns.toOption_eq_some.mp hplan
  obtain ⟨_, _, _, document, analysis, -, -, -, -, -, -, -, hprotected, -, hcapture, hanalysis,
    hsame, hreport⟩ := composition_replay_agree hcomposed (by decide : Uuid.isNil 2#128 = false)
      (by decide : Uuid.isNil 1#128 = false)
  exact ⟨plan, document, analysis, hcomposed, hedges, hcapture, hanalysis, hsame,
    hreport ▸ hprotected⟩

end DisksGraph
