import DisksGraph.Engine.Drafts

/-!
# Engine — Fragments

What composition cannot reject when its fragments are well formed and totally ordered.

* `WellFormedFragments`: identities are unique, references are to actions that exist, planned nodes
  are new, inputs are available, and consecutive actions are ordered.
* `composePlanWithOrdering_spares`: then no stage of composition finds a structural fault.
* `Composition.order_eq`: the order of the plan is the order of its actions.
-/

namespace DisksGraph

open Support (Returns Spares)

/-! ### Well-formed fragments -/

/-- The faults of fragments, as opposed to what the storage state does not allow. -/
def CompositionError.isStructural : CompositionError → Bool
  | .unknownOrderingAction _ | .duplicateLocalAction .. | .unknownLocalDependency _
  | .unknownRequirementAction .. | .plannedNodeAlreadyExists _ | .duplicatePlannedNode ..
  | .unresolvedInput .. | .requirementNotInContract _ | .missingRequirementCheck _
  | .missingAnalysedContract _ | .ambiguousResourceOrder .. => true
  | _ => false

/-- The error is a fault of the fragments. -/
abbrev Structural (error : CompositionError) : Prop := error.isStructural = true

/-- The nodes that the fragments create, in order. -/
def plannedNodes (fragments : List PlanFragment) : List NodeId :=
  (fragmentItems fragments).filterMap fun item => plannedNode item.action.operation

/-- The fragments or the requested order put one action before another. -/
inductive OrderedBefore (fragments : List PlanFragment) (ordering : List FragmentOrdering)
    (a b : FragmentItem) : Prop
  | inside {fragment : PlanFragment} (hfragment : fragments[a.index]? = some fragment)
      (hindex : b.index = a.index) {dependency : FragmentDependency}
      (hdependency : dependency ∈ fragment.dependencies) (hbefore : dependency.before = a.action.id)
      (hafter : dependency.after = b.action.id)
  | across {edge : FragmentOrdering} (hedge : edge ∈ ordering)
      (hbefore : edge.before = ⟨⟨a.index⟩, a.action.id⟩)
      (hafter : edge.after = ⟨⟨b.index⟩, b.action.id⟩)

/-- Fragments that refer to their own actions, create new nodes and are totally ordered. -/
structure WellFormedFragments (current : CurrentState) (fragments : List PlanFragment)
    (ordering : List FragmentOrdering) : Prop where
  keys : ((fragmentItems fragments).map FragmentItem.key).Nodup
  dependencies : ∀ (index : Nat) fragment, fragments[index]? = some fragment →
    ∀ dependency ∈ fragment.dependencies,
      (index, dependency.before) ∈ (fragmentItems fragments).map FragmentItem.key ∧
      (index, dependency.after) ∈ (fragmentItems fragments).map FragmentItem.key
  requirements : ∀ (index : Nat) fragment, fragments[index]? = some fragment →
    ∀ requirement ∈ fragment.externalRequirements, ∃ item ∈ fragmentItems fragments,
      item.key = (index, requirement.action) ∧ ∀ graph,
        requirement.prerequisite ∈ (describeAction item.action.operation graph).prerequisites
  endpoints : ∀ edge ∈ ordering, ∃ a ∈ fragmentItems fragments, ∃ b ∈ fragmentItems fragments,
    edge.before = ⟨⟨a.index⟩, a.action.id⟩ ∧ edge.after = ⟨⟨b.index⟩, b.action.id⟩
  planned : (plannedNodes fragments).Nodup
  absent : ∀ node ∈ plannedNodes fragments, current.graph.contains node = false
  inputs : ∀ item ∈ fragmentItems fragments, ∀ node ∈ actionInputs item.action.operation,
    current.graph.contains node = true ∨ node ∈ plannedNodes fragments
  chain : List.IsChain (OrderedBefore fragments ordering) (fragmentItems fragments)

/-! ### Numbering -/

section Numbering

variable {keys : List (Nat × LocalActionId)} {index : Nat} {fragments : List PlanFragment}

theorem narrow_spares {n : Nat} : Spares Structural (narrow n) := by
  unfold narrow
  split
  · trivial
  · exact Bool.false_ne_true

/-- An edge is only refused when it leads from an action to itself. -/
theorem addDependency_spares {bad : CompositionError → Prop} {dependencies : List ActionDependency}
    {before after : ActionId} {reason : DependencyReason}
    (hself : ∀ action, ¬bad (.selfDependency action)) :
    Spares bad (addDependency dependencies before after reason) := by
  unfold addDependency
  split
  · exact hself before
  · split <;> trivial

theorem numberActions_spares {actions : List FragmentAction}
    (h : (keys ++ actions.map fun action => (index, action.id)).Nodup) :
    Spares Structural (numberActions index (numbered keys) actions) := by
  induction actions generalizing keys with
  | nil => trivial
  | cons action rest ih =>
      refine narrow_spares.bind fun position hposition => ?_
      obtain rfl := narrow_eq_ok hposition
      have hnew : (index, action.id) ∉ keys := by
        intro hmem
        exact List.disjoint_of_nodup_append h hmem List.mem_cons_self
      have hlookup : (numbered keys).lookup (index, action.id) = none := by
        cases hlookup : (numbered keys).lookup (index, action.id) with
        | none => rfl
        | some id => exact absurd (List.mem_of_getElem? (lookup_numbered_some hlookup)) hnew
      rw [hlookup, length_numbered, ← numbered_append]
      refine ih ?_
      rwa [List.append_assoc]

theorem fragmentActionIds_spares (h : ((fragmentItems fragments).map FragmentItem.key).Nodup) :
    Spares Structural (fragmentActionIds fragments) := by
  have hloop : ∀ (entries : List (PlanFragment × Nat)) (keys : List (Nat × LocalActionId)),
      (keys ++ (entries.flatMap entryItems).map FragmentItem.key).Nodup →
      Spares Structural (entries.foldlM (fun ids entry => do
        let index ← narrow entry.2
        numberActions index ids entry.1.actions) (numbered keys)) := by
    intro entries
    induction entries with
    | nil => exact fun _ _ => trivial
    | cons entry rest ih =>
        intro keys hkeys
        rw [List.flatMap_cons, List.map_append, entryItems, List.map_map, ← List.append_assoc]
          at hkeys
        have hfirst := hkeys.of_append_left
        rw [List.foldlM_cons]
        refine Spares.bind (narrow_spares.bind fun index hindex => ?_) fun ids hids => ?_
        · obtain rfl := narrow_eq_ok hindex
          exact numberActions_spares hfirst
        · obtain ⟨index, hindex, hids⟩ := Support.except_bind_eq_ok.mp hids
          obtain rfl := narrow_eq_ok hindex
          obtain ⟨rfl, -⟩ := numberActions_eq_ok hfirst.of_append_left hids
          exact ih _ hkeys
  exact hloop fragments.zipIdx [] h

/-- The identity of an action that exists is found. -/
theorem lookup_item (h : ((fragmentItems fragments).map FragmentItem.key).Nodup)
    {key : Nat × LocalActionId} (hkey : key ∈ (fragmentItems fragments).map FragmentItem.key) :
    ∃ position, (numbered ((fragmentItems fragments).map FragmentItem.key)).lookup key =
      some ⟨position⟩ ∧ ((fragmentItems fragments).map FragmentItem.key)[position]? = some key := by
  obtain ⟨position, hposition⟩ := List.mem_iff_getElem?.mp hkey
  exact ⟨position, lookup_numbered h hposition, hposition⟩

theorem draftActions_spares {ids : ActionIds} {entry : PlanFragment × Nat} :
    (draftActions ids entry).Spares Structural := by
  refine Returns.Spares.bind (Returns.Spares.lift narrow_spares) fun index _ => ?_
  split
  · exact Bool.false_ne_true
  · refine Returns.Spares.mapM fun action _ => ?_
    split <;> trivial

/-- Well formed fragments are flattened without a structural error. -/
theorem WellFormedFragments.flattenFragments_spares {current : CurrentState}
    {ordering : List FragmentOrdering} (h : WellFormedFragments current fragments ordering) :
    (flattenFragments fragments).Spares Structural := by
  refine Returns.Spares.bind
    (Returns.Spares.lift (fragmentActionIds_spares h.keys)) fun ids hids => ?_
  obtain ⟨rfl, -⟩ := fragmentActionIds_eq_ok (Returns.lift_eq_pure.mp hids)
  refine Returns.Spares.bind (Returns.Spares.mapM fun entry _ => draftActions_spares) fun _ _ => ?_
  refine Returns.Spares.bind (Returns.Spares.lift (Spares.foldlM ?_ _)) fun _ _ => trivial
  rintro ⟨fragment, index⟩ hentry result
  have hfragment : fragments[index]? = some fragment := List.mk_mem_zipIdx_iff_getElem?.mp hentry
  refine narrow_spares.bind fun index' hindex => ?_
  obtain rfl : index' = index := narrow_eq_ok hindex
  refine Spares.bind (Spares.foldlM (fun dependency hdependency dependencies => ?_) _) fun _ _ =>
    Spares.bind (Spares.mapM fun requirement hrequirement => ?_) fun _ _ => trivial
  · obtain ⟨hbefore, hafter⟩ := h.dependencies index' fragment hfragment dependency hdependency
    obtain ⟨before, hbefore, -⟩ := lookup_item h.keys hbefore
    obtain ⟨after, hafter, -⟩ := lookup_item h.keys hafter
    rw [flattenDependency, hbefore, hafter]
    exact addDependency_spares fun _ => Bool.false_ne_true
  · obtain ⟨item, hitem, hkey, -⟩ :=
      h.requirements index' fragment hfragment requirement hrequirement
    obtain ⟨position, hposition, -⟩ := lookup_item h.keys (List.mem_map_of_mem hitem)
    rw [flattenRequirement, ← hkey, hposition]
    trivial

end Numbering

/-! ### Requested edges -/

section Requested

variable {current : CurrentState} {fragments : List PlanFragment} {ordering : List FragmentOrdering}
  {dependencies : List ActionDependency}

/-- The draft action of an item that exists is found under its fragment and local identity. -/
theorem resolve_item (hkeys : ((fragmentItems fragments).map FragmentItem.key).Nodup)
    {position : Nat} {item : FragmentItem}
    (hitem : (fragmentItems fragments)[position]? = some item) :
    addOrdering.resolve (draftsOf fragments) ⟨⟨item.index⟩, item.action.id⟩ = .ok ⟨position⟩ := by
  have hdraft : (draftsOf fragments)[position]? = some (item.draft position) := by
    rw [draftsOf, List.getElem?_map, List.getElem?_zipIdx, hitem, Nat.zero_add]
    rfl
  have hfind : ∃ action, (draftsOf fragments).find? (fun action =>
      action.fragment == ⟨item.index⟩ && action.localId == item.action.id) = some action := by
    refine Option.isSome_iff_exists.mp (List.find?_isSome.mpr ⟨_, List.mem_of_getElem? hdraft, ?_⟩)
    simp [FragmentItem.draft]
  obtain ⟨action, haction⟩ := hfind
  have hmatch := List.find?_some haction
  obtain ⟨other, hother⟩ := List.mem_iff_getElem?.mp (List.mem_of_find?_eq_some haction)
  obtain ⟨item', hitem', rfl⟩ : ∃ item', (fragmentItems fragments)[other]? = some item' ∧
      item'.draft other = action := by
    rw [draftsOf, List.getElem?_map, List.getElem?_zipIdx, Nat.zero_add] at hother
    obtain ⟨entry, hentry, rfl⟩ := Option.map_eq_some_iff.mp hother
    obtain ⟨item', hitem', rfl⟩ := Option.map_eq_some_iff.mp hentry
    exact ⟨item', hitem', rfl⟩
  have hkey : item'.key = item.key := by
    simpa [FragmentItem.draft, FragmentItem.key, Bool.and_eq_true] using hmatch
  have hsame : position = other := by
    have hlt : position < ((fragmentItems fragments).map FragmentItem.key).length := by
      rw [List.length_map]
      exact (List.getElem?_eq_some_iff.mp hitem).1
    refine (List.getElem?_inj hlt hkeys).mp ?_
    rw [List.getElem?_map, List.getElem?_map, hitem, hitem', Option.map_some, Option.map_some, hkey]
  rw [addOrdering.resolve, haction, hsame]
  rfl

/-- Their explicit orderings name known actions. -/
theorem WellFormedFragments.addOrdering_spares
    (h : WellFormedFragments current fragments ordering) {edge : FragmentOrdering}
    (hedge : edge ∈ ordering) :
    Spares Structural (addOrdering (draftsOf fragments) dependencies edge) := by
  obtain ⟨a, ha, b, hb, hbefore, hafter⟩ := h.endpoints edge hedge
  obtain ⟨i, hi⟩ := List.mem_iff_getElem?.mp ha
  obtain ⟨j, hj⟩ := List.mem_iff_getElem?.mp hb
  rw [addOrdering, hbefore, hafter, resolve_item h.keys hi, resolve_item h.keys hj]
  exact addDependency_spares fun _ => Bool.false_ne_true

/-- Adding an edge makes one action precede the other. -/
theorem precedes_addDependency {extended : List ActionDependency} {before after : ActionId}
    {reason : DependencyReason}
    (h : addDependency dependencies before after reason = .ok extended) :
    Precedes extended before after := by
  unfold addDependency at h
  split at h
  · cases h
  · split at h
    · next hany =>
      obtain rfl := Except.ok.inj h
      obtain ⟨edge, hedge, hsame⟩ := List.any_eq_true.mp hany
      rw [Bool.and_eq_true, beq_iff_eq, beq_iff_eq] at hsame
      exact ⟨edge, hedge, hsame⟩
    · obtain rfl := Except.ok.inj h
      exact ⟨_, List.mem_append_right _ List.mem_cons_self, rfl, rfl⟩

theorem Precedes.mono {extended : List ActionDependency} {a b : ActionId}
    (h : Precedes dependencies a b) (hkept : dependencies <+: extended) :
    Precedes extended a b := by
  obtain ⟨edge, hedge, hsame⟩ := h
  exact ⟨edge, hkept.subset hedge, hsame⟩

/-- A loop that only adds edges keeps the edge of each of its rounds. -/
theorem foldlM_precedes {α β : Type} {items : List α} {item : α} {start result : β}
    {f : β → α → Except CompositionError β} (view : β → List ActionDependency) {a b : ActionId}
    (hkeeps : ∀ item ∈ items, ∀ s s', f s item = .ok s' → view s <+: view s') (hitem : item ∈ items)
    (hadds : ∀ s s', f s item = .ok s' → Precedes (view s') a b)
    (h : items.foldlM f start = .ok result) : Precedes (view result) a b := by
  induction items generalizing start with
  | nil => cases hitem
  | cons first rest ih =>
      rw [List.foldlM_cons] at h
      obtain ⟨next, hnext, hloop⟩ := Support.except_bind_eq_ok.mp h
      have hrest : ∀ item ∈ rest, ∀ s s', f s item = .ok s' → view s <+: view s' :=
        fun item hmem => hkeeps item (List.mem_cons_of_mem _ hmem)
      rcases List.mem_cons.mp hitem with rfl | hitem
      · refine (hadds _ _ hnext).mono ?_
        exact Support.foldlM_invariant (P := fun s => view next <+: view s) List.prefix_rfl
          (fun item hmem _ _ hkept hstep => hkept.trans (hrest item hmem _ _ hstep)) hloop
      · exact ih hrest hitem hloop

/-- Flattening a dependency keeps the edges before it. -/
theorem flattenDependency_keeps {ids : ActionIds} {index : Nat} {extended : List ActionDependency}
    {dependency : FragmentDependency}
    (h : flattenDependency ids index dependencies dependency = .ok extended) :
    dependencies <+: extended := by
  unfold flattenDependency addDependency at h
  split at h
  · split at h
    · cases h
    · split at h
      · exact Except.ok.inj h ▸ List.prefix_rfl
      · exact Except.ok.inj h ▸ List.prefix_append _ _
  · cases h

/-- Flattening a fragment keeps the edges before it. -/
theorem flattenFragment_keeps {ids : ActionIds} {entry : PlanFragment × Nat}
    {result result' : List ActionDependency × List PendingRequirement}
    (h : flattenFragment ids result entry = .ok result') : result.1 <+: result'.1 := by
  obtain ⟨index, -, h⟩ := Support.except_bind_eq_ok.mp h
  obtain ⟨extended, hextended, h⟩ := Support.except_bind_eq_ok.mp h
  obtain ⟨requirements, -, h⟩ := Support.except_bind_eq_ok.mp h
  obtain rfl := Except.ok.inj h
  exact Support.foldlM_invariant (P := fun s => result.1 <+: s) List.prefix_rfl
    (fun _ _ _ _ hkept hstep => hkept.trans (flattenDependency_keeps hstep)) hextended

/-- A dependency inside a fragment becomes an edge between its actions. -/
theorem flattenFragments_precedes {flattened : FlattenedFragments}
    (h : flattenFragments fragments = pure flattened) {index : Nat} {fragment : PlanFragment}
    (hfragment : fragments[index]? = some fragment) {dependency : FragmentDependency}
    (hdependency : dependency ∈ fragment.dependencies) {i j : Nat}
    (hi : ((fragmentItems fragments).map FragmentItem.key)[i]? = some (index, dependency.before))
    (hj : ((fragmentItems fragments).map FragmentItem.key)[j]? = some (index, dependency.after)) :
    Precedes flattened.dependencies ⟨i⟩ ⟨j⟩ := by
  obtain ⟨ids, hids, h⟩ := Returns.bind_eq_pure.mp h
  obtain ⟨rfl, hkeys⟩ := fragmentActionIds_eq_ok (Returns.lift_eq_pure.mp hids)
  obtain ⟨_, -, h⟩ := Returns.bind_eq_pure.mp h
  obtain ⟨⟨flat, requirements⟩, hflat, h⟩ := Returns.bind_eq_pure.mp h
  obtain rfl := Returns.pure_inj.mp h
  have hentry : (fragment, index) ∈ fragments.zipIdx :=
    List.mk_mem_zipIdx_iff_getElem?.mpr hfragment
  refine foldlM_precedes Prod.fst (fun _ _ _ _ => flattenFragment_keeps) hentry ?_
    (Returns.lift_eq_pure.mp hflat)
  intro s s' hstep
  obtain ⟨index', hindex, hstep⟩ := Support.except_bind_eq_ok.mp hstep
  obtain rfl : index' = index := narrow_eq_ok hindex
  obtain ⟨extended, hextended, hstep⟩ := Support.except_bind_eq_ok.mp hstep
  obtain ⟨_, -, hstep⟩ := Support.except_bind_eq_ok.mp hstep
  obtain rfl := Except.ok.inj hstep
  refine foldlM_precedes id (fun _ _ _ _ => flattenDependency_keeps) hdependency ?_ hextended
  intro t t' hadd
  rw [flattenDependency, lookup_numbered hkeys hi, lookup_numbered hkeys hj] at hadd
  exact precedes_addDependency hadd

/-- **Consecutive actions are ordered.** -/
theorem WellFormedFragments.precedes_next (h : WellFormedFragments current fragments ordering)
    {flattened : FlattenedFragments} (hflattened : flattenFragments fragments = pure flattened)
    {requested : List ActionDependency}
    (hrequested : ordering.foldlM (addOrdering (draftsOf fragments)) flattened.dependencies =
      .ok requested) {position : Nat} (hlt : position + 1 < (draftsOf fragments).length) :
    Precedes requested ⟨position⟩ ⟨position + 1⟩ := by
  have hkeeps : ∀ edge ∈ ordering, ∀ s s', addOrdering (draftsOf fragments) s edge = .ok s' →
      s <+: s' := fun _ _ _ _ hstep => (addOrdering_extends hstep).keeps
  rw [length_draftsOf] at hlt
  have hfirst := List.getElem?_eq_getElem (Nat.lt_of_succ_lt hlt)
  have hsecond := List.getElem?_eq_getElem hlt
  cases List.isChain_iff_getElem.mp h.chain position hlt with
  | @inside fragment hfragment hindex dependency hdependency hbefore hafter =>
      have hprecedes : Precedes flattened.dependencies ⟨position⟩ ⟨position + 1⟩ := by
        refine flattenFragments_precedes hflattened hfragment hdependency ?_ ?_
        · rw [List.getElem?_map, hfirst, hbefore]
          rfl
        · rw [List.getElem?_map, hsecond, hafter, ← hindex]
          rfl
      refine hprecedes.mono ?_
      exact Support.foldlM_invariant (P := fun s => flattened.dependencies <+: s) List.prefix_rfl
        (fun edge hmem _ _ hkept hstep => hkept.trans (hkeeps edge hmem _ _ hstep)) hrequested
  | @across edge hedge hbefore hafter =>
      refine foldlM_precedes id hkeeps hedge (fun s s' hstep => ?_) hrequested
      rw [addOrdering, hbefore, hafter, resolve_item h.keys hfirst, resolve_item h.keys hsecond]
        at hstep
      exact precedes_addDependency hstep

end Requested

/-! ### Inferred edges -/

section Inferred

variable {current : CurrentState} {fragments : List PlanFragment} {ordering : List FragmentOrdering}
  {dependencies : List ActionDependency}

theorem filterMap_draftsOf :
    (draftsOf fragments).filterMap (fun action => plannedNode action.operation) =
      plannedNodes fragments := by
  have hmap : (draftsOf fragments).map (fun action => plannedNode action.operation) =
      (fragmentItems fragments).map (fun item => plannedNode item.action.operation) :=
    map_draftsOf fun _ _ => rfl
  have hids := congrArg (List.filterMap id) hmap
  rw [List.filterMap_map, List.filterMap_map] at hids
  exact hids

/-- The creators are those of the planned nodes, in order. -/
theorem collectCreators_spares {actions : List DraftAction} {creators : List (NodeId × ActionId)}
    (hnodup : (creators.map (·.1) ++
      actions.filterMap fun action => plannedNode action.operation).Nodup)
    (habsent : ∀ node ∈ actions.filterMap (fun action => plannedNode action.operation),
      current.graph.contains node = false) :
    ∃ result, collectCreators current creators actions = .ok result ∧
      result.map (·.1) = creators.map (·.1) ++
        actions.filterMap fun action => plannedNode action.operation := by
  induction actions generalizing creators with
  | nil => exact ⟨creators, rfl, (List.append_nil _).symm⟩
  | cons action rest ih =>
      unfold collectCreators
      cases hplanned : plannedNode action.operation with
      | none =>
          simp only [List.filterMap_cons, hplanned] at hnodup habsent ⊢
          exact ih hnodup habsent
      | some node =>
          simp only [List.filterMap_cons, hplanned] at hnodup habsent ⊢
          have hfresh : creators.lookup node = none := by
            refine List.lookup_eq_none_iff.mpr fun entry hentry => ?_
            have hne : node ≠ entry.1 := fun heq =>
              List.disjoint_of_nodup_append hnodup (List.mem_map_of_mem hentry)
                (heq ▸ List.mem_cons_self)
            simpa using hne
          rw [if_neg (by rw [habsent node List.mem_cons_self]; exact Bool.false_ne_true), hfresh]
          have hnext : ((creators ++ [(node, action.id)]).map (·.1) ++
              rest.filterMap fun action => plannedNode action.operation).Nodup := by
            rwa [List.map_append, List.append_assoc]
          obtain ⟨result, hresult, hkeys⟩ :=
            ih hnext fun node hmem => habsent node (List.mem_cons_of_mem _ hmem)
          refine ⟨result, hresult, ?_⟩
          rw [hkeys, List.map_append, List.append_assoc]
          rfl

theorem mem_keepFirst {nodes seen : List NodeId} {node : NodeId} :
    node ∈ keepFirst nodes seen ↔ node ∈ nodes ∧ node ∉ seen := by
  induction nodes generalizing seen with
  | nil => simp [keepFirst]
  | cons first rest ih =>
      rw [keepFirst]
      by_cases hfirst : node = first
      · subst hfirst
        split <;> simp_all
      · split <;> simp_all

theorem nodup_keepFirst {nodes seen : List NodeId} : (keepFirst nodes seen).Nodup := by
  induction nodes generalizing seen with
  | nil => exact List.nodup_nil
  | cons first rest ih =>
      rw [keepFirst]
      split
      · exact ih
      · exact List.nodup_cons.mpr ⟨fun h => (mem_keepFirst.mp h).2 List.mem_cons_self, ih⟩

/-- Only which nodes were seen matters. -/
theorem keepFirst_congr {nodes seen seen' : List NodeId} (h : ∀ node, node ∈ seen ↔ node ∈ seen') :
    keepFirst nodes seen = keepFirst nodes seen' := by
  induction nodes generalizing seen seen' with
  | nil => rfl
  | cons first rest ih =>
      have hnext : ∀ node, node ∈ first :: seen ↔ node ∈ first :: seen' := by
        intro node
        rw [List.mem_cons, List.mem_cons, h]
      rw [keepFirst, keepFirst, ih h, ih hnext]
      simp only [h]

theorem mem_referencedNodes {action : ProviderAction} {node : NodeId} :
    node ∈ referencedNodes action ↔ node ∈ actionInputs action := by
  simp [referencedNodes, mem_keepFirst]

theorem WellFormedFragments.bindPlannedNodes_spares
    (h : WellFormedFragments current fragments ordering) :
    Spares Structural (bindPlannedNodes current (draftsOf fragments) dependencies) := by
  have hplanned : (([] : List (NodeId × ActionId)).map (·.1) ++ (draftsOf fragments).filterMap
      fun action => plannedNode action.operation).Nodup := by
    rw [filterMap_draftsOf]
    exact h.planned
  obtain ⟨creators, hcreators, hkeys⟩ :=
    collectCreators_spares hplanned (by rw [filterMap_draftsOf]; exact h.absent)
  rw [filterMap_draftsOf, List.map_nil, List.nil_append] at hkeys
  rw [bindPlannedNodes, hcreators]
  refine Spares.foldlM (fun action haction dependencies => ?_) _
  refine Spares.foldlM (fun input hinput dependencies => ?_) _
  obtain ⟨item, hitem, position, rfl⟩ := mem_draftsOf haction
  unfold bindInput
  split
  · trivial
  · next hmissing =>
    rcases h.inputs item hitem input (mem_referencedNodes.mp hinput) with hgraph | hcreated
    · exact absurd hgraph hmissing
    · rw [← hkeys] at hcreated
      obtain ⟨⟨node, creator⟩, hentry, rfl⟩ := List.mem_map.mp hcreated
      split
      · next hlookup =>
        exact absurd (List.lookup_eq_none_iff.mp hlookup _ hentry) (by simp)
      · exact addDependency_spares fun _ => Bool.false_ne_true

theorem bindMountOrder_spares {bad : CompositionError → Prop} {actions : List DraftAction}
    (hself : ∀ action, ¬bad (.selfDependency action)) :
    Spares bad (bindMountOrder actions dependencies) := by
  refine Spares.foldlM (fun parent _ dependencies => ?_) _
  refine Spares.foldlM (fun child _ dependencies => ?_) _
  unfold bindMountPair
  split
  · split
    · trivial
    · split
      · trivial
      · split <;> exact addDependency_spares hself
  · trivial

end Inferred

/-! ### Passes -/

section Passes

variable {current : CurrentState} {fragments : List PlanFragment} {ordering : List FragmentOrdering}
  {requirements : List PendingRequirement} {dependencies : List ActionDependency}
  {projection : Projection} {trace final : AnalysedOrder} {order : List ActionId}

/-- The requirement is part of the contract of its action, whatever the graph. -/
def PendingRequirement.Declared (drafts : List DraftAction) (requirement : PendingRequirement) :
    Prop :=
  ∃ action, drafts[requirement.action.get]? = some action ∧ ∀ graph,
    requirement.prerequisite ∈ (describeAction action.operation graph).prerequisites

/-- A pending requirement was declared by an action. -/
theorem WellFormedFragments.declared (h : WellFormedFragments current fragments ordering)
    {flattened : FlattenedFragments} (hflattened : flattenFragments fragments = pure flattened) :
    ∀ requirement ∈ flattened.requirements, requirement.Declared (draftsOf fragments) := by
  obtain ⟨ids, hids, hflattened⟩ := Returns.bind_eq_pure.mp hflattened
  obtain ⟨rfl, -⟩ := fragmentActionIds_eq_ok (Returns.lift_eq_pure.mp hids)
  obtain ⟨_, -, hflattened⟩ := Returns.bind_eq_pure.mp hflattened
  obtain ⟨⟨flat, requirements⟩, hflat, hflattened⟩ := Returns.bind_eq_pure.mp hflattened
  obtain rfl := Returns.pure_inj.mp hflattened
  refine Support.foldlM_invariant (P := fun result : List ActionDependency × _ =>
    ∀ requirement ∈ result.2, requirement.Declared (draftsOf fragments)) nofun ?_
    (Returns.lift_eq_pure.mp hflat)
  rintro ⟨fragment, index⟩ hentry s s' hs hstep
  have hfragment : fragments[index]? = some fragment := List.mk_mem_zipIdx_iff_getElem?.mp hentry
  obtain ⟨index', hindex, hstep⟩ := Support.except_bind_eq_ok.mp hstep
  obtain rfl : index' = index := narrow_eq_ok hindex
  obtain ⟨_, -, hstep⟩ := Support.except_bind_eq_ok.mp hstep
  obtain ⟨added, hadded, hstep⟩ := Support.except_bind_eq_ok.mp hstep
  obtain rfl := Except.ok.inj hstep
  refine List.forall_mem_append.mpr ⟨hs, fun pending hpending => ?_⟩
  obtain ⟨requirement, hrequirement, hpending⟩ :=
    Support.exists_of_forall₂ (Support.except_mapM_eq_ok.mp hadded) hpending
  obtain ⟨item, hitem, hkey, hcontract⟩ :=
    h.requirements index' fragment hfragment requirement hrequirement
  obtain ⟨position, hposition⟩ := List.mem_iff_getElem?.mp hitem
  have hitemKey : ((fragmentItems fragments).map FragmentItem.key)[position]? = some item.key := by
    rw [List.getElem?_map, hposition, Option.map_some]
  have hlookup := lookup_numbered h.keys hitemKey
  rw [flattenRequirement, ← hkey, hlookup] at hpending
  obtain rfl := Except.ok.inj hpending
  refine ⟨item.draft position, ?_, hcontract⟩
  rw [draftsOf, List.getElem?_map, List.getElem?_zipIdx, hposition, Nat.zero_add]
  rfl

/-- A provider is missing or ambiguous, never misnamed. -/
theorem requirementProvider_spares {bad : CompositionError → Prop}
    {requirement : PendingRequirement} {contracts : List (ActionId × ActionContract)}
    (hambiguous : ∀ action, ¬bad (.ambiguousRequirement action)) :
    Spares bad (requirementProvider requirement contracts dependencies) := by
  unfold requirementProvider
  dsimp only
  split
  · trivial
  · split
    · trivial
    · trivial
    · exact hambiguous requirement.action

theorem bindOwned_spares {bad : CompositionError → Prop} {action : DraftAction}
    {contract : ActionContract} {providers : List (ActionId × ActionContract)}
    {owned : List PendingRequirement} (hself : ∀ action, ¬bad (.selfDependency action))
    (hambiguous : ∀ action, ¬bad (.ambiguousRequirement action))
    (h : ∀ requirement ∈ owned, requirement.prerequisite ∉ contract.prerequisites →
      ¬bad (.requirementNotInContract action.id)) :
    Spares bad (bindOwned projection action contract providers dependencies owned) := by
  induction owned with
  | nil => trivial
  | cons requirement rest ih =>
      have hrest := ih fun other hother => h other (List.mem_cons_of_mem _ hother)
      unfold bindOwned
      by_cases hdeclared : requirement.prerequisite ∈ contract.prerequisites
      · rw [if_neg (not_not_intro hdeclared)]
        dsimp only
        split
        · exact hrest
        · refine (requirementProvider_spares hambiguous).bind fun provider _ => ?_
          cases provider with
          | none => exact hrest
          | some provider => exact (addDependency_spares hself).bind fun _ _ => trivial
      · rw [if_pos hdeclared]
        exact h requirement List.mem_cons_self hdeclared

/-- Binding contextual outputs reports no structural error. -/
theorem bindContextualOutputs_spares
    (h : ∀ requirement ∈ requirements, requirement.Declared (draftsOf fragments))
    {action : DraftAction} (haction : action ∈ draftsOf fragments)
    {emitted : List (ActionId × ActionContract)} :
    Spares Structural (bindContextualOutputs projection action (draftsOf fragments) emitted
      requirements dependencies) := by
  unfold bindContextualOutputs
  dsimp only
  split
  · trivial
  · refine bindOwned_spares (fun _ => Bool.false_ne_true) (fun _ => Bool.false_ne_true)
      fun requirement hrequirement hmissing => ?_
    obtain ⟨hmem, hown⟩ := List.mem_filter.mp hrequirement
    obtain ⟨owner, howner, hcontract⟩ := h requirement hmem
    have hsame : owner = action := by
      have hposition := draftsOf_position haction
      rw [← eq_of_beq hown] at hposition
      exact Option.some.inj (howner.symm.trans hposition)
    exact absurd (hsame ▸ hcontract projection.graph) hmissing

/-- The errors of a pass are those of its bindings and of its simulated actions. -/
theorem simulatePass_spares {bad : CompositionError → Prop} {actions : List DraftAction}
    (hstep : ∀ id error, ¬bad (.ofSimulation id error))
    (hbind : ∀ action ∈ actions, ∀ projection emitted, Spares bad
      (bindContextualOutputs projection action actions emitted requirements dependencies)) :
    (simulatePass actions requirements dependencies projection trace order).Spares bad := by
  induction order generalizing projection trace with
  | nil => trivial
  | cons id rest ih =>
      unfold simulatePass
      split
      · trivial
      · next action haction =>
        have hbound := hbind action (List.mem_of_getElem? haction) projection trace.contracts
        split
        · next herror =>
          rw [herror] at hbound
          exact hbound
        · trivial
        · split
          · exact hstep id _
          · exact ih

theorem topologicalOrder_spares {count : Nat} :
    (topologicalOrder count dependencies).Spares Structural := by
  have hloop : ∀ missing indegree order,
      (topologicalLoop count dependencies missing indegree order).Spares Structural := by
    intro missing
    induction missing with
    | zero => exact fun _ _ => trivial
    | succ missing ih =>
        intro indegree order
        rw [topologicalLoop]
        split
        · exact Bool.false_ne_true
        · split
          · exact Bool.false_ne_true
          · split
            · trivial
            · exact ih _ _
  unfold topologicalOrder
  split
  · trivial
  · exact hloop _ _ _

/-- Simulating declared requirements reports no structural error. -/
theorem simulateOrder_spares {capacity : List CapacityEvidence} {restarts : Nat}
    (h : ∀ requirement ∈ requirements, requirement.Declared (draftsOf fragments)) :
    (simulateOrder current capacity (draftsOf fragments) requirements restarts dependencies).Spares
      Structural := by
  induction restarts generalizing dependencies with
  | zero => trivial
  | succ restarts ih =>
      refine Returns.Spares.bind topologicalOrder_spares fun order _ => ?_
      split
      · exact Bool.false_ne_true
      · refine Returns.Spares.bind (simulatePass_spares (fun _ error => ?_) fun _ haction _ _ =>
          bindContextualOutputs_spares h haction) fun result _ => ?_
        · cases error <;> exact Bool.false_ne_true
        cases result with
        | inl trace => trivial
        | inr dependencies => exact ih

/-- The entries of a trace come from the contracts of the draft actions. -/
structure AnalysedOrder.Traced (drafts : List DraftAction) (trace : AnalysedOrder) : Prop where
  contracts : ∀ entry ∈ trace.contracts, ∃ action graph,
    drafts[entry.1.get]? = some action ∧ entry.2 = describeAction action.operation graph
  checks : ∀ entry ∈ trace.checks, ∃ action graph, drafts[entry.1.get]? = some action ∧
    entry.2.map (·.prerequisite) = (describeAction action.operation graph).prerequisites
  same : trace.checks.map (·.1) = trace.contracts.map (·.1)

/-- A finished pass has a contract for every action. -/
theorem simulatePass_traced (hstart : trace.Traced (draftsOf fragments))
    (h : simulatePass (draftsOf fragments) requirements dependencies projection trace order =
      pure (.inl final)) : final.Traced (draftsOf fragments) := by
  induction order generalizing projection trace with
  | nil =>
      obtain rfl := Sum.inl.inj (Returns.pure_inj.mp h)
      exact hstart
  | cons id rest ih =>
      unfold simulatePass at h
      split at h
      · cases h
      · next action haction =>
        split at h
        · cases h
        · cases h
        · split at h
          · cases h
          · next result next hsimulate =>
            obtain ⟨hcontract, hchecks, -⟩ := simulateAction_ok hsimulate
            refine ih ⟨?_, ?_, ?_⟩ h
            · refine List.forall_mem_append.mpr ⟨hstart.contracts, List.forall_mem_singleton.mpr ?_⟩
              exact ⟨action, projection.graph, haction, hcontract⟩
            · refine List.forall_mem_append.mpr ⟨hstart.checks, List.forall_mem_singleton.mpr ?_⟩
              refine ⟨action, projection.graph, haction, ?_⟩
              rw [hchecks, hcontract, evaluatePrerequisites, List.map_map]
              exact List.map_id _
            · rw [List.map_append, List.map_append, hstart.same]
              rfl

/-- An analysis has an entry for every action. -/
structure AnalysedOrder.Complete (drafts : List DraftAction) (trace : AnalysedOrder) : Prop
    extends trace.Traced drafts where
  covers : ∀ id : ActionId, id.get < drafts.length → id ∈ trace.contracts.map (·.1)

/-- The order found simulates every action. -/
theorem simulateOrder_complete {capacity : List CapacityEvidence} {restarts : Nat}
    {extended : List ActionDependency}
    (h : simulateOrder current capacity (draftsOf fragments) requirements restarts dependencies =
      pure (final, extended)) : final.Complete (draftsOf fragments) := by
  obtain ⟨-, order, evidence, horder, -, hpass⟩ := simulateOrder_eq_pure h
  have hempty : ({} : AnalysedOrder).Traced (draftsOf fragments) :=
    ⟨fun _ h => absurd h List.not_mem_nil, fun _ h => absurd h List.not_mem_nil, rfl⟩
  refine ⟨simulatePass_traced hempty hpass, fun id hid => ?_⟩
  rw [simulatePass_contracts hpass]
  exact ((topologicalOrder_eq_pure horder).2.2 id).mpr hid

/-- The order found repeats no action. -/
theorem simulateOrder_nodup {capacity : List CapacityEvidence} {restarts : Nat}
    {extended : List ActionDependency}
    (h : simulateOrder current capacity (draftsOf fragments) requirements restarts dependencies =
      pure (final, extended)) : (final.contracts.map (·.1)).Nodup := by
  obtain ⟨-, order, evidence, horder, -, hpass⟩ := simulateOrder_eq_pure h
  rw [simulatePass_contracts hpass]
  exact (topologicalOrder_eq_pure horder).1

/-- The entry of a key that occurs. -/
theorem lookup_of_mem_keys {α : Type} {entries : List (ActionId × α)} {id : ActionId}
    (h : id ∈ entries.map (·.1)) :
    ∃ value, entries.lookup id = some value ∧ (id, value) ∈ entries := by
  obtain ⟨entry, hentry, rfl⟩ := List.mem_map.mp h
  cases hlookup : entries.lookup entry.1 with
  | none => exact absurd (List.lookup_eq_none_iff.mp hlookup _ hentry) (by simp)
  | some value =>
      obtain ⟨before, after, rfl, -⟩ := List.lookup_eq_some_iff.mp hlookup
      exact ⟨value, rfl, List.mem_append_right _ List.mem_cons_self⟩

/-- A complete trace has the contract of every declared requirement. -/
theorem AnalysedOrder.Complete.validateDeclaredRequirements_spares
    (htrace : trace.Complete (draftsOf fragments))
    (h : ∀ requirement ∈ requirements, requirement.Declared (draftsOf fragments)) :
    Spares Structural (validateDeclaredRequirements requirements trace.contracts) := by
  refine Spares.forM fun requirement hrequirement => ?_
  obtain ⟨action, haction, hdeclared⟩ := h requirement hrequirement
  have hmem := htrace.covers requirement.action (List.getElem?_eq_some_iff.mp haction).1
  obtain ⟨contract, hlookup, hentry⟩ := lookup_of_mem_keys hmem
  obtain ⟨action', graph, haction', hcontract⟩ := htrace.contracts _ hentry
  obtain rfl := Option.some.inj (haction.symm.trans haction')
  rw [hlookup]
  dsimp only
  rw [if_pos (by rw [show contract = _ from hcontract]; exact hdeclared graph)]
  trivial

/-- Resolving requirements over a complete trace reports no structural error. -/
theorem AnalysedOrder.Complete.resolveRequirements_spares
    (htrace : trace.Complete (draftsOf fragments))
    (h : ∀ requirement ∈ requirements, requirement.Declared (draftsOf fragments)) :
    Spares Structural (resolveRequirements requirements trace dependencies) := by
  refine (htrace.validateDeclaredRequirements_spares h).bind fun _ _ => ?_
  refine Spares.foldlM (fun requirement hrequirement dependencies => ?_) _
  obtain ⟨action, haction, hdeclared⟩ := h requirement hrequirement
  have hmem := htrace.covers requirement.action (List.getElem?_eq_some_iff.mp haction).1
  rw [← htrace.same] at hmem
  obtain ⟨checks, hlookup, hentry⟩ := lookup_of_mem_keys hmem
  obtain ⟨action', graph, haction', hchecks⟩ := htrace.checks _ hentry
  obtain rfl := Option.some.inj (haction.symm.trans haction')
  have hfind : ∃ check, checks.find? (fun check => check.prerequisite == requirement.prerequisite) =
      some check := by
    have hprerequisite := hdeclared graph
    rw [← hchecks] at hprerequisite
    obtain ⟨check, hcheck, hsame⟩ := List.mem_map.mp hprerequisite
    exact Option.isSome_iff_exists.mp (List.find?_isSome.mpr ⟨check, hcheck, beq_iff_eq.mpr hsame⟩)
  obtain ⟨check, hcheck⟩ := hfind
  unfold resolveRequirement
  rw [hlookup, Option.bind_some, hcheck]
  dsimp only
  split
  · trivial
  · refine (requirementProvider_spares fun _ => Bool.false_ne_true).bind fun provider _ => ?_
    cases provider with
    | some provider => exact addDependency_spares fun _ => Bool.false_ne_true
    | none =>
        dsimp only
        split
        · exact Bool.false_ne_true
        · trivial

end Passes

/-! ### Composition -/

section Composed

variable {current : CurrentState} {fragments : List PlanFragment} {ordering : List FragmentOrdering}
  {dependencies : List ActionDependency} {final : AnalysedOrder} {count : Nat}

/-- Consecutive actions precede one another. -/
def Chained (count : Nat) (dependencies : List ActionDependency) : Prop :=
  ∀ position, position + 1 < count → Precedes dependencies ⟨position⟩ ⟨position + 1⟩

/-- In a chain every action comes before every later one. -/
theorem Chained.transGen (h : Chained count dependencies) {i j : Nat} (hij : i < j)
    (hj : j < count) : Relation.TransGen (Precedes dependencies) ⟨i⟩ ⟨j⟩ := by
  induction j with
  | zero => omega
  | succ j ih =>
      have hlast := h j hj
      rcases Nat.lt_succ_iff_lt_or_eq.mp hij with hlt | rfl
      · exact (ih hlt (Nat.lt_of_succ_lt hj)).tail hlast
      · exact .single hlast

/-- A chain has one topological order. -/
theorem Chained.order_eq (h : Chained count dependencies) {order : List ActionId}
    (horder : topologicalOrder count dependencies = pure order) :
    order = (List.range count).map ActionId.mk := by
  obtain ⟨hnodup, -, hmem⟩ := topologicalOrder_eq_pure horder
  have hmono : ∀ i j, i < j → j < count → order.idxOf ⟨i⟩ < order.idxOf ⟨j⟩ := by
    intro i j hij hj
    induction j with
    | zero => omega
    | succ j ih =>
        obtain ⟨edge, hedge, hbefore, hafter⟩ := h j hj
        have hstep := topologicalOrder_respects horder hedge (hafter ▸ (hmem _).mpr hj)
        rw [hbefore, hafter] at hstep
        rcases Nat.lt_succ_iff_lt_or_eq.mp hij with hlt | rfl
        · exact (ih hlt (Nat.lt_of_succ_lt hj)).trans hstep
        · exact hstep
  have hsorted : order.Pairwise fun a b => a.get < b.get := by
    rw [List.pairwise_iff_getElem]
    intro i j hi hj hij
    have hiOf := hnodup.idxOf_getElem i hi
    have hjOf := hnodup.idxOf_getElem j hj
    rcases Nat.lt_trichotomy order[i].get order[j].get with hlt | heq | hgt
    · exact hlt
    · rw [ActionId.ext heq] at hiOf
      omega
    · have hlt : order.idxOf order[j] < order.idxOf order[i] :=
        hmono _ _ hgt ((hmem _).mp (List.getElem_mem hi))
      omega
  have hperm : order.Perm ((List.range count).map ActionId.mk) := by
    rw [List.perm_ext_iff_of_nodup hnodup
      (List.nodup_range.map fun _ _ => congrArg ActionId.get)]
    intro id
    rw [hmem, List.mem_map]
    constructor
    · exact fun hlt => ⟨id.get, List.mem_range.mpr hlt, rfl⟩
    · rintro ⟨n, hn, rfl⟩
      exact List.mem_range.mp hn
  refine hperm.eq_of_pairwise (fun a b _ _ hab hba => absurd hab (Nat.lt_asymm hba)) hsorted ?_
  rw [List.pairwise_map]
  exact List.pairwise_lt_range

/-- A chain orders every pair of its actions. -/
theorem Chained.checkResourcePairs_spares (h : Chained count dependencies)
    {contracts : List (ActionId × ActionContract)}
    (hlt : ∀ entry ∈ contracts, entry.1.get < count) (hnodup : (contracts.map (·.1)).Nodup) :
    Spares Structural (checkResourcePairs dependencies contracts) := by
  induction contracts with
  | nil => trivial
  | cons first rest ih =>
      obtain ⟨hfresh, hnodup⟩ := List.nodup_cons.mp hnodup
      have hrest := ih (fun entry hentry => hlt entry (List.mem_cons_of_mem _ hentry)) hnodup
      refine Spares.bind (Spares.forM fun second hsecond => ?_) fun _ _ => hrest
      have hne : first.1.get ≠ second.1.get := fun heq =>
        hfresh (List.mem_map.mpr ⟨second, hsecond, (ActionId.ext heq).symm⟩)
      have hpath : (dependencyPath first.1 second.1 dependencies ||
          dependencyPath second.1 first.1 dependencies) = true := by
        rw [Bool.or_eq_true, dependencyPath_iff, dependencyPath_iff]
        rcases Nat.lt_or_gt_of_ne hne with hless | hless
        · exact .inl (h.transGen hless (hlt second (List.mem_cons_of_mem _ hsecond)))
        · exact .inr (h.transGen hless (hlt first List.mem_cons_self))
      unfold checkResourcePair
      split
      · trivial
      · rw [if_pos hpath]
        trivial

/-- **Well-formed fragments compose, or the storage state does not allow it.** -/
theorem WellFormedFragments.composePlanWithOrdering_spares {capacity : List CapacityEvidence}
    (h : WellFormedFragments current fragments ordering) :
    (composePlanWithOrdering current fragments ordering capacity).Spares Structural := by
  unfold composePlanWithOrdering
  split
  · exact Bool.false_ne_true
  · refine Returns.Spares.bind h.flattenFragments_spares fun flattened hflattened => ?_
    have hactions := (flattenFragments_actions hflattened).1
    have hdeclared := h.declared hflattened
    dsimp only
    rw [hactions]
    refine Returns.Spares.bind (Returns.Spares.lift (Spares.foldlM (fun edge hedge _ =>
      h.addOrdering_spares hedge) _)) fun requested hrequested => ?_
    refine Returns.Spares.bind (Returns.Spares.lift h.bindPlannedNodes_spares)
      fun planned hplanned => ?_
    refine Returns.Spares.bind (Returns.Spares.lift
      (bindMountOrder_spares fun _ => Bool.false_ne_true)) fun mounted hmounted => ?_
    refine Returns.Spares.bind (simulateOrder_spares hdeclared) fun ⟨first, analysed⟩ hfirst => ?_
    have hcomplete := simulateOrder_complete hfirst
    refine Returns.Spares.bind (Returns.Spares.lift
      (hcomplete.resolveRequirements_spares hdeclared)) fun resolved hresolved => ?_
    refine Returns.Spares.bind (simulateOrder_spares nofun) fun ⟨final, extended⟩ hfinal => ?_
    have hcomplete' := simulateOrder_complete hfinal
    refine Returns.Spares.bind (Returns.Spares.lift
      (hcomplete'.validateDeclaredRequirements_spares hdeclared)) fun _ _ => ?_
    have hextends := stages_extend (flattenFragments_edges hflattened).2
      (Returns.lift_eq_pure.mp hplanned) (Returns.lift_eq_pure.mp hmounted) hfirst
      (Returns.lift_eq_pure.mp hresolved) hfinal
    have hchained : Chained (draftsOf fragments).length extended := fun position hlt =>
      (h.precedes_next hflattened (Returns.lift_eq_pure.mp hrequested) hlt).mono hextends.keeps
    refine Returns.Spares.bind (Returns.Spares.lift ?_) fun _ _ => ?_
    · have hperm := List.perm_insertionSort (fun a b : ActionId × ActionContract =>
        a.1.get ≤ b.1.get) final.contracts
      refine hchained.checkResourcePairs_spares (fun entry hentry => ?_) ?_
      · exact simulateOrder_bound hfinal entry (hperm.mem_iff.mp hentry)
      · rw [(hperm.map _).nodup_iff]
        exact simulateOrder_nodup hfinal
    · refine Returns.Spares.bind (Returns.Spares.lift (Spares.mapM fun action haction => ?_))
        fun _ _ => trivial
      have hmem := hcomplete'.covers action.id (id_lt_of_mem_draftsOf haction)
      obtain ⟨contract, hlookup, -⟩ := lookup_of_mem_keys hmem
      rw [freezeAction, hlookup]
      trivial

/-- The order of the plan is the order of its actions. -/
theorem Composition.order_eq {capacity : List CapacityEvidence} {plan : ExecutionPlan}
    {evidence : SimulationEvidence} {order : List ActionId}
    (hcomposed : Composition current fragments ordering capacity plan evidence order final)
    (h : WellFormedFragments current fragments ordering) :
    order = (List.range (draftsOf fragments).length).map ActionId.mk := by
  obtain ⟨flattened, requested, hflattened, hrequested, hkept⟩ := hcomposed.declared
  have hchained : Chained (draftsOf fragments).length plan.dependencies := fun position hlt =>
    (h.precedes_next hflattened hrequested hlt).mono hkept
  exact hchained.order_eq hcomposed.ordered

end Composed

end DisksGraph
