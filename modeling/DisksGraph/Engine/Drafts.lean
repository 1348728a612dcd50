import DisksGraph.Engine.Compose

/-!
# Engine — Drafts

What composition makes of its fragments before anything is simulated.

* `flattenFragments_actions`: the draft actions are the actions of the fragments, numbered by their
  position.
* `ValidEdges`: the invariant of every list of edges that composition builds, kept by
  `addDependency` and so by every stage.
-/

namespace DisksGraph

open Support (Returns)

/-! ### Numbering -/

/-- An action with the position and the origin of its fragment. -/
structure FragmentItem where
  index : Nat
  origin : FragmentOrigin
  action : FragmentAction

namespace FragmentItem

/-- The identity of an action among all fragments. -/
def key (item : FragmentItem) : Nat × LocalActionId := (item.index, item.action.id)

/-- The draft action at a global position. -/
def draft (item : FragmentItem) (position : Nat) : DraftAction where
  id := ⟨position⟩
  operation := item.action.operation
  fragment := ⟨item.index⟩
  localId := item.action.id
  origin := item.origin

end FragmentItem

/-- The actions of one fragment. -/
def entryItems (entry : PlanFragment × Nat) : List FragmentItem :=
  entry.1.actions.map fun action => ⟨entry.2, entry.1.origin, action⟩

/-- The actions of all fragments, in order. -/
def fragmentItems (fragments : List PlanFragment) : List FragmentItem :=
  fragments.zipIdx.flatMap entryItems

/-- The draft actions, numbered by their position. -/
def draftsOf (fragments : List PlanFragment) : List DraftAction :=
  (fragmentItems fragments).zipIdx.map fun entry => entry.1.draft entry.2

/-- Keys with their positions. -/
def numbered (keys : List (Nat × LocalActionId)) : ActionIds :=
  keys.zipIdx.map fun entry => (entry.1, ⟨entry.2⟩)

section Numbering

variable {keys : List (Nat × LocalActionId)} {key : Nat × LocalActionId} {position index : Nat}
  {fragments : List PlanFragment} {ids : ActionIds}

theorem numbered_append : numbered (keys ++ [key]) = numbered keys ++ [(key, ⟨keys.length⟩)] := by
  simp [numbered, List.zipIdx_append]

theorem length_numbered : (numbered keys).length = keys.length := by
  simp [numbered]

theorem lookup_numbered_some {id : ActionId} (h : (numbered keys).lookup key = some id) :
    keys[id.get]? = some key := by
  obtain ⟨before, after, heq, -⟩ := List.lookup_eq_some_iff.mp h
  have hmem : (key, id) ∈ numbered keys := by
    rw [heq]
    exact List.mem_append_right _ List.mem_cons_self
  obtain ⟨⟨key', position⟩, hzip, heq⟩ := List.mem_map.mp hmem
  obtain ⟨rfl, rfl⟩ := Prod.mk.inj heq
  exact List.mk_mem_zipIdx_iff_getElem?.mp hzip

theorem lookup_numbered_none (h : (numbered keys).lookup key = none) : key ∉ keys := by
  intro hmem
  obtain ⟨position, hposition⟩ := List.mem_iff_getElem?.mp hmem
  have hentry : (key, ⟨position⟩) ∈ numbered keys :=
    List.mem_map.mpr ⟨_, List.mk_mem_zipIdx_iff_getElem?.mpr hposition, rfl⟩
  simpa using List.lookup_eq_none_iff.mp h _ hentry

/-- Keys that occur once have the position they stand at. -/
theorem lookup_numbered (hkeys : keys.Nodup) (h : keys[position]? = some key) :
    (numbered keys).lookup key = some ⟨position⟩ := by
  cases hlookup : (numbered keys).lookup key with
  | none => exact absurd (List.mem_of_getElem? h) (lookup_numbered_none hlookup)
  | some id =>
      have hid := lookup_numbered_some hlookup
      have hlt : position < keys.length := (List.getElem?_eq_some_iff.mp h).1
      exact congrArg some (ActionId.ext ((List.getElem?_inj hlt hkeys).mp (h.trans hid.symm)).symm)

theorem narrow_eq_ok {n n' : Nat} (h : narrow n = .ok n') : n' = n := by
  rw [narrow] at h
  split at h
  · exact (Except.ok.inj h).symm
  · cases h

/-- Numbering the actions of a fragment appends their keys. -/
theorem numberActions_eq_ok {actions : List FragmentAction} (hkeys : keys.Nodup)
    (h : numberActions index (numbered keys) actions = .ok ids) :
    ids = numbered (keys ++ actions.map fun action => (index, action.id)) ∧
      (keys ++ actions.map fun action => (index, action.id)).Nodup := by
  induction actions generalizing keys with
  | nil =>
      rw [List.map_nil, List.append_nil]
      exact ⟨(Except.ok.inj h).symm, hkeys⟩
  | cons action rest ih =>
      obtain ⟨position, hposition, h⟩ := Support.except_bind_eq_ok.mp h
      obtain rfl := narrow_eq_ok hposition
      rw [length_numbered, ← numbered_append] at h
      cases hlookup : (numbered keys).lookup (index, action.id) with
      | some id =>
          rw [hlookup] at h
          cases h
      | none =>
          rw [hlookup] at h
          have hnew : (keys ++ [(index, action.id)]).Nodup := hkeys.append (List.nodup_singleton _)
            (List.disjoint_singleton.mpr (lookup_numbered_none hlookup))
          have hrest := ih hnew h
          rwa [List.append_assoc] at hrest

/-- The global identities are the positions. -/
theorem fragmentActionIds_eq_ok (h : fragmentActionIds fragments = .ok ids) :
    ids = numbered ((fragmentItems fragments).map FragmentItem.key) ∧
      ((fragmentItems fragments).map FragmentItem.key).Nodup := by
  have hloop : ∀ (entries : List (PlanFragment × Nat)) (keys : List (Nat × LocalActionId)),
      keys.Nodup → entries.foldlM (fun ids entry => do
        let index ← narrow entry.2
        numberActions index ids entry.1.actions) (numbered keys) = .ok ids →
      ids = numbered (keys ++ (entries.flatMap entryItems).map FragmentItem.key) ∧
        (keys ++ (entries.flatMap entryItems).map FragmentItem.key).Nodup := by
    intro entries
    induction entries with
    | nil =>
        intro keys hkeys h
        rw [List.flatMap_nil, List.map_nil, List.append_nil]
        exact ⟨(Except.ok.inj h).symm, hkeys⟩
    | cons entry rest ih =>
        intro keys hkeys h
        rw [List.foldlM_cons] at h
        obtain ⟨next, hnext, h⟩ := Support.except_bind_eq_ok.mp h
        obtain ⟨index, hindex, hnext⟩ := Support.except_bind_eq_ok.mp hnext
        obtain rfl := narrow_eq_ok hindex
        obtain ⟨rfl, hnodup⟩ := numberActions_eq_ok hkeys hnext
        have hrest := ih _ hnodup h
        rw [List.append_assoc] at hrest
        rw [List.flatMap_cons, List.map_append, entryItems, List.map_map]
        exact hrest
  exact hloop fragments.zipIdx [] List.nodup_nil h

/-- The draft of an action whose identity is looked up. -/
def FragmentItem.resolved (ids : ActionIds) (item : FragmentItem) : DraftAction :=
  item.draft ((ids.lookup item.key).elim 0 ActionId.get)

/-- The drafts of a fragment are its items under their numbers. -/
theorem draftActions_eq_pure {entry : PlanFragment × Nat} {drafts : List DraftAction}
    (h : draftActions ids entry = pure drafts) :
    drafts = (entryItems entry).map (FragmentItem.resolved ids) := by
  obtain ⟨index, hindex, h⟩ := Returns.bind_eq_pure.mp h
  obtain rfl := narrow_eq_ok (Returns.lift_eq_pure.mp hindex)
  rw [entryItems, List.map_map]
  split at h
  · cases h
  refine Returns.mapM_eq_map (fun action draft hdraft => ?_) h
  cases hlookup : ids.lookup (entry.2, action.id) with
  | none =>
      rw [hlookup] at hdraft
      cases hdraft
  | some id =>
      rw [hlookup] at hdraft
      obtain rfl := Returns.pure_inj.mp hdraft
      simp [FragmentItem.resolved, FragmentItem.draft, FragmentItem.key, hlookup]

/-- **The draft actions** are the actions of the fragments, numbered by their position. -/
theorem flattenFragments_actions {flattened : FlattenedFragments}
    (h : flattenFragments fragments = pure flattened) :
    flattened.actions = draftsOf fragments ∧
      ((fragmentItems fragments).map FragmentItem.key).Nodup := by
  obtain ⟨ids, hids, h⟩ := Returns.bind_eq_pure.mp h
  obtain ⟨rfl, hnodup⟩ := fragmentActionIds_eq_ok (Returns.lift_eq_pure.mp hids)
  obtain ⟨drafts, hdrafts, h⟩ := Returns.bind_eq_pure.mp h
  obtain ⟨result, -, h⟩ := Returns.bind_eq_pure.mp h
  obtain rfl := Returns.pure_inj.mp h
  refine ⟨?_, hnodup⟩
  rw [Returns.mapM_eq_map (fun _ _ h => (draftActions_eq_pure h).symm) hdrafts, ← List.flatMap_def,
    ← List.map_flatMap, ← fragmentItems, draftsOf]
  refine List.ext_getElem? fun position => ?_
  rw [List.getElem?_map, List.getElem?_map, List.getElem?_zipIdx, Nat.zero_add, Option.map_map]
  cases hitem : (fragmentItems fragments)[position]? with
  | none => rfl
  | some item =>
      have hkey : ((fragmentItems fragments).map FragmentItem.key)[position]? = some item.key := by
        rw [List.getElem?_map, hitem, Option.map_some]
      have hresolved : item.resolved (numbered ((fragmentItems fragments).map FragmentItem.key)) =
          item.draft position := by
        rw [FragmentItem.resolved, lookup_numbered hnodup hkey]
        rfl
      exact congrArg some hresolved

/-- The items of the fragments, each with its index and origin. -/
theorem mem_fragmentItems {item : FragmentItem} :
    item ∈ fragmentItems fragments ↔ ∃ fragment, fragments[item.index]? = some fragment ∧
      item.origin = fragment.origin ∧ item.action ∈ fragment.actions := by
  simp only [fragmentItems, entryItems, List.mem_flatMap, List.mem_map, Prod.exists,
    List.mk_mem_zipIdx_iff_getElem?]
  constructor
  · rintro ⟨fragment, index, hfragment, action, haction, rfl⟩
    exact ⟨fragment, hfragment, rfl, haction⟩
  · rintro ⟨fragment, hfragment, horigin, haction⟩
    refine ⟨fragment, item.index, hfragment, item.action, haction, ?_⟩
    rw [← horigin]

theorem mem_draftsOf {action : DraftAction} (h : action ∈ draftsOf fragments) :
    ∃ item ∈ fragmentItems fragments, ∃ position, action = item.draft position := by
  obtain ⟨⟨item, position⟩, hentry, rfl⟩ := List.mem_map.mp h
  exact ⟨item, (List.mem_zipIdx' hentry).2 ▸ List.getElem_mem _, position, rfl⟩

/-- What depends on the item alone is read off the fragments. -/
theorem map_draftsOf {α : Type} {f : DraftAction → α} {g : FragmentItem → α}
    (h : ∀ item position, f (item.draft position) = g item) :
    (draftsOf fragments).map f = (fragmentItems fragments).map g := by
  rw [draftsOf, List.map_map]
  conv_rhs => rw [← List.zipIdx_map_fst 0 (fragmentItems fragments), List.map_map]
  exact List.map_congr_left fun entry _ => h entry.1 entry.2

theorem getElem?_draftsOf {position : Nat} {action : DraftAction}
    (h : (draftsOf fragments)[position]? = some action) : action.id = ⟨position⟩ := by
  rw [draftsOf, List.getElem?_map, List.getElem?_zipIdx, Nat.zero_add] at h
  obtain ⟨entry, hentry, rfl⟩ := Option.map_eq_some_iff.mp h
  obtain ⟨item, -, rfl⟩ := Option.map_eq_some_iff.mp hentry
  rfl

/-- The identity of a draft action is its position. -/
theorem draftsOf_position {action : DraftAction} (h : action ∈ draftsOf fragments) :
    (draftsOf fragments)[action.id.get]? = some action := by
  obtain ⟨position, hposition⟩ := List.mem_iff_getElem?.mp h
  rw [getElem?_draftsOf hposition]
  exact hposition

theorem id_lt_of_mem_draftsOf {action : DraftAction} (h : action ∈ draftsOf fragments) :
    action.id.get < (draftsOf fragments).length :=
  (List.getElem?_eq_some_iff.mp (draftsOf_position h)).1

theorem length_draftsOf : (draftsOf fragments).length = (fragmentItems fragments).length := by
  simp [draftsOf]

end Numbering

/-! ### Edges -/

/-- Proper edges between `count` actions, each pair once. -/
structure ValidEdges (count : Nat) (dependencies : List ActionDependency) : Prop where
  before : ∀ edge ∈ dependencies, edge.before.get < count
  after : ∀ edge ∈ dependencies, edge.after.get < count
  proper : ∀ edge ∈ dependencies, edge.before ≠ edge.after
  unique : (dependencies.map fun edge => (edge.before, edge.after)).Nodup

/-- A stage of composition only adds edges between the actions. -/
structure Extends (count : Nat) (dependencies extended : List ActionDependency) : Prop where
  keeps : dependencies <+: extended
  valid : ValidEdges count dependencies → ValidEdges count extended

section Edges

variable {count : Nat} {dependencies extended further : List ActionDependency}
  {before after : ActionId} {reason : DependencyReason}

theorem ValidEdges.nil : ValidEdges count [] := ⟨nofun, nofun, nofun, List.nodup_nil⟩

theorem Extends.refl : Extends count dependencies dependencies := ⟨List.prefix_rfl, id⟩

theorem Extends.trans (h : Extends count dependencies extended)
    (h' : Extends count extended further) : Extends count dependencies further :=
  ⟨h.keeps.trans h'.keeps, fun hvalid => h'.valid (h.valid hvalid)⟩

/-- One more edge between known actions. -/
theorem addDependency_extends (hbefore : before.get < count) (hafter : after.get < count)
    (h : addDependency dependencies before after reason = .ok extended) :
    Extends count dependencies extended := by
  unfold addDependency at h
  split at h
  · cases h
  · next hproper =>
    split at h
    · obtain rfl := Except.ok.inj h
      exact .refl
    · next hnew =>
      obtain rfl := Except.ok.inj h
      refine ⟨List.prefix_append _ _, fun hvalid => ⟨?_, ?_, ?_, ?_⟩⟩
      · exact List.forall_mem_append.mpr ⟨hvalid.before, List.forall_mem_singleton.mpr hbefore⟩
      · exact List.forall_mem_append.mpr ⟨hvalid.after, List.forall_mem_singleton.mpr hafter⟩
      · exact List.forall_mem_append.mpr ⟨hvalid.proper, List.forall_mem_singleton.mpr hproper⟩
      · rw [List.map_append, List.map_singleton]
        refine hvalid.unique.append (List.nodup_singleton _) (List.disjoint_singleton.mpr ?_)
        intro hmem
        obtain ⟨edge, hedge, hsame⟩ := List.mem_map.mp hmem
        obtain ⟨hsource, htarget⟩ := Prod.mk.inj hsame
        exact hnew (List.any_eq_true.mpr ⟨edge, hedge, by rw [hsource, htarget]; simp⟩)

/-- A loop of such stages. -/
theorem foldlM_extends {α : Type} {items : List α}
    {f : List ActionDependency → α → Except CompositionError (List ActionDependency)}
    (hf : ∀ item ∈ items, ∀ dependencies extended, f dependencies item = .ok extended →
      Extends count dependencies extended)
    (h : items.foldlM f dependencies = .ok extended) : Extends count dependencies extended :=
  Support.foldlM_invariant (P := Extends count dependencies) .refl
    (fun item hitem _ _ hextends hstep => hextends.trans (hf item hitem _ _ hstep)) h

end Edges

/-! ### The stages -/

section Stages

variable {fragments : List PlanFragment} {ids : ActionIds} {index : Nat}
  {dependencies extended : List ActionDependency}

/-- Every identity of the composition is the position of a draft action. -/
theorem lookup_fragmentIds {key : Nat × LocalActionId} {id : ActionId}
    (h : (numbered ((fragmentItems fragments).map FragmentItem.key)).lookup key = some id) :
    id.get < (draftsOf fragments).length := by
  have hlt := (List.getElem?_eq_some_iff.mp (lookup_numbered_some h)).1
  rwa [List.length_map, ← length_draftsOf] at hlt

/-- A dependency inside a fragment adds an edge between known actions. -/
theorem flattenDependency_extends {count : Nat} {dependency : FragmentDependency}
    (hids : ∀ key id, ids.lookup key = some id → id.get < count)
    (h : flattenDependency ids index dependencies dependency = .ok extended) :
    Extends count dependencies extended := by
  unfold flattenDependency at h
  split at h
  · next hbefore hafter => exact addDependency_extends (hids _ _ hbefore) (hids _ _ hafter) h
  · cases h

/-- A pending requirement belongs to a known action. -/
theorem flattenRequirement_bound {count : Nat} {requirement : ExternalRequirement}
    {pending : PendingRequirement} (hids : ∀ key id, ids.lookup key = some id → id.get < count)
    (h : flattenRequirement ids index requirement = .ok pending) : pending.action.get < count := by
  unfold flattenRequirement at h
  split at h
  · cases h
  · next action hlookup =>
    obtain rfl := Except.ok.inj h
    exact hids _ _ hlookup

/-- The edges and the requirements that the fragments declare are about draft actions. -/
theorem flattenFragments_edges {flattened : FlattenedFragments}
    (h : flattenFragments fragments = pure flattened) :
    ValidEdges (draftsOf fragments).length flattened.dependencies ∧
      ∀ requirement ∈ flattened.requirements,
        requirement.action.get < (draftsOf fragments).length := by
  obtain ⟨ids, hids, h⟩ := Returns.bind_eq_pure.mp h
  obtain ⟨rfl, -⟩ := fragmentActionIds_eq_ok (Returns.lift_eq_pure.mp hids)
  obtain ⟨drafts, -, h⟩ := Returns.bind_eq_pure.mp h
  obtain ⟨⟨dependencies, requirements⟩, hresult, h⟩ := Returns.bind_eq_pure.mp h
  obtain rfl := Returns.pure_inj.mp h
  refine Support.foldlM_invariant (P := fun result : List ActionDependency × _ =>
    ValidEdges (draftsOf fragments).length result.1 ∧
      ∀ requirement ∈ result.2, requirement.action.get < (draftsOf fragments).length)
    ⟨.nil, nofun⟩ ?_ (Returns.lift_eq_pure.mp hresult)
  rintro entry - ⟨dependencies, requirements⟩ result ⟨hvalid, hbound⟩ h
  obtain ⟨index, -, h⟩ := Support.except_bind_eq_ok.mp h
  obtain ⟨extended, hextended, h⟩ := Support.except_bind_eq_ok.mp h
  obtain ⟨added, hadded, h⟩ := Support.except_bind_eq_ok.mp h
  obtain rfl := Except.ok.inj h
  constructor
  · refine (foldlM_extends (fun dependency _ _ _ h => ?_) hextended).valid hvalid
    exact flattenDependency_extends (fun _ _ => lookup_fragmentIds) h
  · refine List.forall_mem_append.mpr ⟨hbound, fun pending hpending => ?_⟩
    obtain ⟨requirement, -, hrequirement⟩ :=
      Support.exists_of_forall₂ (Support.except_mapM_eq_ok.mp hadded) hpending
    exact flattenRequirement_bound (fun _ _ => lookup_fragmentIds) hrequirement

/-- An explicit ordering adds edges between known actions. -/
theorem addOrdering_extends {edge : FragmentOrdering}
    (h : addOrdering (draftsOf fragments) dependencies edge = .ok extended) :
    Extends (draftsOf fragments).length dependencies extended := by
  have hresolve : ∀ {endpoint : FragmentActionRef} {id : ActionId},
      addOrdering.resolve (draftsOf fragments) endpoint = .ok id →
        id.get < (draftsOf fragments).length := by
    intro endpoint id h
    unfold addOrdering.resolve at h
    split at h
    · cases h
    · next action hfind =>
      obtain rfl := Except.ok.inj h
      exact id_lt_of_mem_draftsOf (List.mem_of_find?_eq_some hfind)
  obtain ⟨before, hbefore, h⟩ := Support.except_bind_eq_ok.mp h
  obtain ⟨after, hafter, h⟩ := Support.except_bind_eq_ok.mp h
  exact addDependency_extends (hresolve hbefore) (hresolve hafter) h

variable {current : CurrentState}

/-- The creator of a planned node is one of the actions. -/
theorem collectCreators_mem {actions : List DraftAction}
    {creators result : List (NodeId × ActionId)}
    (h : collectCreators current creators actions = .ok result) {entry : NodeId × ActionId}
    (hentry : entry ∈ result) : entry ∈ creators ∨ ∃ action ∈ actions, action.id = entry.2 := by
  induction actions generalizing creators with
  | nil =>
      obtain rfl := Except.ok.inj h
      exact .inl hentry
  | cons action rest ih =>
      have hlift : (∃ action ∈ rest, action.id = entry.2) →
          ∃ other ∈ action :: rest, other.id = entry.2 :=
        fun ⟨other, hother, hid⟩ => ⟨other, List.mem_cons_of_mem _ hother, hid⟩
      unfold collectCreators at h
      split at h
      · exact (ih h).imp_right hlift
      · split at h
        · cases h
        · split at h
          · cases h
          · rcases ih h with hmem | hmem
            · rcases List.mem_append.mp hmem with hmem | hmem
              · exact .inl hmem
              · obtain rfl := List.mem_singleton.mp hmem
                exact .inr ⟨action, List.mem_cons_self, rfl⟩
            · exact .inr (hlift hmem)

/-- Binding planned nodes adds edges between known actions. -/
theorem bindPlannedNodes_extends
    (h : bindPlannedNodes current (draftsOf fragments) dependencies = .ok extended) :
    Extends (draftsOf fragments).length dependencies extended := by
  obtain ⟨creators, hcreators, h⟩ := Support.except_bind_eq_ok.mp h
  refine foldlM_extends (fun action haction _ _ h => ?_) h
  refine foldlM_extends (fun input _ _ _ h => ?_) h
  unfold bindInput at h
  split at h
  · obtain rfl := Except.ok.inj h
    exact .refl
  · split at h
    · cases h
    · next creator hlookup =>
      refine addDependency_extends ?_ (id_lt_of_mem_draftsOf haction) h
      obtain ⟨_, _, heq, -⟩ := List.lookup_eq_some_iff.mp hlookup
      have hmem : (input, creator) ∈ creators := by
        rw [heq]
        exact List.mem_append_right _ List.mem_cons_self
      rcases collectCreators_mem hcreators hmem with hnone | ⟨other, hother, rfl⟩
      · cases hnone
      · exact id_lt_of_mem_draftsOf hother

theorem bindMountOrder_extends
    (h : bindMountOrder (draftsOf fragments) dependencies = .ok extended) :
    Extends (draftsOf fragments).length dependencies extended := by
  refine foldlM_extends (fun parent hparent _ _ h => ?_) h
  refine foldlM_extends (fun child hchild _ _ h => ?_) h
  have hparent := id_lt_of_mem_draftsOf hparent
  have hchild := id_lt_of_mem_draftsOf hchild
  unfold bindMountPair at h
  split at h
  · split at h
    · obtain rfl := Except.ok.inj h
      exact .refl
    · split at h
      · obtain rfl := Except.ok.inj h
        exact .refl
      · split at h
        · exact addDependency_extends hchild hparent h
        · exact addDependency_extends hparent hchild h
  · obtain rfl := Except.ok.inj h
    exact .refl

/-- A provider of a requirement is another candidate that the consumer does not precede. -/
theorem requirementProvider_some {requirement : PendingRequirement}
    {contracts : List (ActionId × ActionContract)} {provider : ActionId}
    (h : requirementProvider requirement contracts dependencies = .ok (some provider)) :
    provider ≠ requirement.action ∧
      dependencyPath requirement.action provider dependencies = false ∧
      ∃ contract, (provider, contract) ∈ contracts := by
  have hcandidates : ∀ {id : ActionId}, id ∈ (contracts.filter fun entry =>
      entry.1 ≠ requirement.action && !dependencyPath requirement.action entry.1 dependencies &&
        entry.2.providedOutputs.any (outputSatisfies · requirement.prerequisite)).map (·.1) →
      id ≠ requirement.action ∧ dependencyPath requirement.action id dependencies = false ∧
        ∃ contract, (id, contract) ∈ contracts := by
    intro id hid
    obtain ⟨⟨_, contract⟩, hentry, rfl⟩ := List.mem_map.mp hid
    obtain ⟨hmem, hfilter⟩ := List.mem_filter.mp hentry
    simp only [Bool.and_eq_true, decide_eq_true_eq, Bool.not_eq_true'] at hfilter
    exact ⟨hfilter.1.1, hfilter.1.2, contract, hmem⟩
  unfold requirementProvider at h
  dsimp only at h
  split at h
  · next latest hlatest =>
    obtain rfl := Option.some.inj (Except.ok.inj h)
    exact hcandidates (List.mem_of_mem_filter (List.mem_of_find?_eq_some hlatest))
  · split at h
    · cases h
    · next only honly =>
      obtain rfl := Option.some.inj (Except.ok.inj h)
      exact hcandidates (honly ▸ List.mem_singleton_self _)
    · cases h

/-- Binding an action's own requirements adds edges between known actions. -/
theorem bindOwned_extends {projection : Projection} {action : DraftAction}
    {contract : ActionContract} {providers : List (ActionId × ActionContract)}
    {owned : List PendingRequirement} (haction : action ∈ draftsOf fragments)
    (hproviders : ∀ entry ∈ providers, entry.1.get < (draftsOf fragments).length)
    (h : bindOwned projection action contract providers dependencies owned = .ok (some extended)) :
    Extends (draftsOf fragments).length dependencies extended := by
  induction owned with
  | nil => cases h
  | cons requirement rest ih =>
      unfold bindOwned at h
      by_cases hdeclared : requirement.prerequisite ∈ contract.prerequisites
      · rw [if_neg (not_not_intro hdeclared)] at h
        dsimp only at h
        split at h
        · exact ih h
        · obtain ⟨provider, hprovider, h⟩ := Support.except_bind_eq_ok.mp h
          cases provider with
          | none => exact ih h
          | some provider =>
              obtain ⟨added, hadded, h⟩ := Support.except_bind_eq_ok.mp h
              obtain rfl := Option.some.inj (Except.ok.inj h)
              obtain ⟨-, -, _, hmem⟩ := requirementProvider_some hprovider
              exact addDependency_extends (hproviders _ hmem) (id_lt_of_mem_draftsOf haction) hadded
      · rw [if_pos hdeclared] at h
        cases h

/-- Binding contextual outputs adds edges between known actions. -/
theorem bindContextualOutputs_extends {projection : Projection} {action : DraftAction}
    {emitted : List (ActionId × ActionContract)} {requirements : List PendingRequirement}
    (haction : action ∈ draftsOf fragments)
    (h : bindContextualOutputs projection action (draftsOf fragments) emitted requirements
      dependencies = .ok (some extended)) :
    Extends (draftsOf fragments).length dependencies extended := by
  unfold bindContextualOutputs at h
  dsimp only at h
  split at h
  · cases h
  · refine bindOwned_extends haction (fun entry hentry => ?_) h
    obtain ⟨candidate, hcandidate, rfl⟩ := List.mem_map.mp hentry
    exact id_lt_of_mem_draftsOf (List.mem_of_mem_filter hcandidate)

end Stages

/-! ### Passes over a candidate order -/

section Passes

variable {fragments : List PlanFragment} {requirements : List PendingRequirement}
  {dependencies extended : List ActionDependency} {projection : Projection}
  {trace final : AnalysedOrder} {order : List ActionId} {current : CurrentState}
  {capacity : List CapacityEvidence}

/-- A pass that stops early has one more edge. -/
theorem simulatePass_inr (h : simulatePass (draftsOf fragments) requirements dependencies projection
      trace order = pure (.inr extended)) :
    Extends (draftsOf fragments).length dependencies extended := by
  induction order generalizing projection trace with
  | nil => cases h
  | cons id rest ih =>
      unfold simulatePass at h
      split at h
      · cases h
      · next action haction =>
        split at h
        · cases h
        · next hbound =>
          obtain rfl := Sum.inr.inj (Returns.pure_inj.mp h)
          exact bindContextualOutputs_extends (List.mem_of_getElem? haction) hbound
        · split at h
          · cases h
          · exact ih h

/-- A complete pass analysed the actions of its order. -/
theorem simulatePass_contracts (h : simulatePass (draftsOf fragments) requirements dependencies
      projection trace order = pure (.inl final)) :
    final.contracts.map (·.1) = trace.contracts.map (·.1) ++ order := by
  induction order generalizing projection trace with
  | nil =>
      obtain rfl := Sum.inl.inj (Returns.pure_inj.mp h)
      rw [List.append_nil]
  | cons id rest ih =>
      unfold simulatePass at h
      split at h
      · cases h
      · split at h
        · cases h
        · cases h
        · split at h
          · cases h
          · rw [ih h, List.map_append, List.map_singleton, List.append_assoc]
            rfl

/-- The order, the evidence and the complete pass behind an analysis. -/
theorem simulateOrder_eq_pure {restarts : Nat}
    (h : simulateOrder current capacity (draftsOf fragments) requirements restarts dependencies =
      pure (final, extended)) :
    Extends (draftsOf fragments).length dependencies extended ∧ ∃ order evidence,
      topologicalOrder (draftsOf fragments).length extended = pure order ∧
      SimulationEvidence.new capacity = .ok evidence ∧
      simulatePass (draftsOf fragments) requirements extended (.initial current evidence) {} order =
        pure (.inl final) := by
  induction restarts generalizing dependencies with
  | zero => cases h
  | succ restarts ih =>
      obtain ⟨order, horder, h⟩ := Returns.bind_eq_pure.mp h
      split at h
      · cases h
      · next evidence hevidence =>
        obtain ⟨result, hpass, h⟩ := Returns.bind_eq_pure.mp h
        cases result with
        | inl trace =>
            obtain ⟨rfl, rfl⟩ := Prod.mk.inj (Returns.pure_inj.mp h)
            exact ⟨.refl, order, evidence, horder, hevidence, hpass⟩
        | inr added =>
            obtain ⟨hextends, hrest⟩ := ih h
            exact ⟨(simulatePass_inr hpass).trans hextends, hrest⟩

/-- Resolving requirements adds edges between known actions. -/
theorem resolveRequirements_extends
    (hrequirements : ∀ requirement ∈ requirements,
      requirement.action.get < (draftsOf fragments).length)
    (hcontracts : ∀ entry ∈ trace.contracts, entry.1.get < (draftsOf fragments).length)
    (h : resolveRequirements requirements trace dependencies = .ok extended) :
    Extends (draftsOf fragments).length dependencies extended := by
  obtain ⟨_, -, h⟩ := Support.except_bind_eq_ok.mp h
  refine foldlM_extends (fun requirement hrequirement _ _ h => ?_) h
  unfold resolveRequirement at h
  split at h
  · cases h
  · next check _ =>
    by_cases hobserved : check.status = .satisfied .observedSnapshot
    · rw [if_pos hobserved] at h
      obtain rfl := Except.ok.inj h
      exact .refl
    · rw [if_neg hobserved] at h
      obtain ⟨provider, hprovider, h⟩ := Support.except_bind_eq_ok.mp h
      cases provider with
      | some provider =>
          obtain ⟨-, -, _, hmem⟩ := requirementProvider_some hprovider
          exact addDependency_extends (hcontracts _ hmem) (hrequirements _ hrequirement) h
      | none =>
          dsimp only at h
          split at h
          · cases h
          · obtain rfl := Except.ok.inj h
            exact .refl

/-- Every action that an analysis reports is a draft action. -/
theorem simulateOrder_bound {restarts : Nat}
    (h : simulateOrder current capacity (draftsOf fragments) requirements restarts dependencies =
      pure (final, extended)) :
    ∀ entry ∈ final.contracts, entry.1.get < (draftsOf fragments).length := by
  obtain ⟨-, order, _, horder, -, hpass⟩ := simulateOrder_eq_pure h
  intro entry hentry
  have hid := List.mem_map_of_mem (f := Prod.fst) hentry
  rw [simulatePass_contracts hpass] at hid
  exact ((topologicalOrder_eq_pure horder).2.2 entry.1).mp hid

/-- The stages after the requested order only add edges. -/
theorem stages_extend {restarts restarts' : Nat} {requested planned mounted analysed resolved last :
      List ActionDependency} {first : AnalysedOrder}
    (hrequirements : ∀ requirement ∈ requirements,
      requirement.action.get < (draftsOf fragments).length)
    (hplanned : bindPlannedNodes current (draftsOf fragments) requested = .ok planned)
    (hmounted : bindMountOrder (draftsOf fragments) planned = .ok mounted)
    (hfirst : simulateOrder current capacity (draftsOf fragments) requirements restarts mounted =
      pure (first, analysed))
    (hresolved : resolveRequirements requirements first analysed = .ok resolved)
    (hfinal : simulateOrder current capacity (draftsOf fragments) [] restarts' resolved =
      pure (final, last)) : Extends (draftsOf fragments).length requested last :=
  (bindPlannedNodes_extends hplanned).trans <|
    (bindMountOrder_extends hmounted).trans <|
    (simulateOrder_eq_pure hfirst).1.trans <|
    (resolveRequirements_extends hrequirements (simulateOrder_bound hfirst) hresolved).trans
      (simulateOrder_eq_pure hfinal).1

end Passes

/-! ### Composition -/

/-- What stands behind a composed plan: its order and the last pass over it. -/
structure Composition (current : CurrentState) (fragments : List PlanFragment)
    (ordering : List FragmentOrdering) (capacity : List CapacityEvidence) (plan : ExecutionPlan)
    (evidence : SimulationEvidence) (order : List ActionId) (final : AnalysedOrder) : Prop where
  valid : current.graph.validateStructure = .ok ()
  keys : ((fragmentItems fragments).map FragmentItem.key).Nodup
  declared : ∃ flattened requested, flattenFragments fragments = pure flattened ∧
    ordering.foldlM (addOrdering (draftsOf fragments)) flattened.dependencies = .ok requested ∧
    requested <+: plan.dependencies
  edges : ValidEdges (draftsOf fragments).length plan.dependencies
  ordered : topologicalOrder (draftsOf fragments).length plan.dependencies = pure order
  evidenced : SimulationEvidence.new capacity = .ok evidence
  pass : simulatePass (draftsOf fragments) [] plan.dependencies (.initial current evidence) {}
    order = pure (.inl final)
  resources : validateResourceOrder final.contracts plan.dependencies = .ok ()
  frozen : (draftsOf fragments).mapM (freezeAction final.contracts) = .ok plan.actions

/-- What a composed plan was composed from. -/
theorem composePlanWithOrdering_eq_pure {current : CurrentState} {fragments : List PlanFragment}
    {ordering : List FragmentOrdering} {capacity : List CapacityEvidence} {plan : ExecutionPlan}
    (h : composePlanWithOrdering current fragments ordering capacity = pure plan) :
    ∃ evidence order final,
      Composition current fragments ordering capacity plan evidence order final := by
  unfold composePlanWithOrdering at h
  split at h
  · cases h
  · next hvalid =>
    obtain ⟨flattened, hflattened, h⟩ := Returns.bind_eq_pure.mp h
    obtain ⟨hactions, hkeys⟩ := flattenFragments_actions hflattened
    obtain ⟨hedges, hbound⟩ := flattenFragments_edges hflattened
    dsimp only at h
    rw [hactions] at h
    obtain ⟨ordered, hordered, h⟩ := Returns.bind_eq_pure.mp h
    obtain ⟨planned, hplanned, h⟩ := Returns.bind_eq_pure.mp h
    obtain ⟨mounted, hmounted, h⟩ := Returns.bind_eq_pure.mp h
    obtain ⟨⟨first, analysed⟩, hfirst, h⟩ := Returns.bind_eq_pure.mp h
    obtain ⟨resolved, hresolved, h⟩ := Returns.bind_eq_pure.mp h
    obtain ⟨⟨final, dependencies⟩, hfinal, h⟩ := Returns.bind_eq_pure.mp h
    obtain ⟨_, -, h⟩ := Returns.bind_eq_pure.mp h
    obtain ⟨_, hresources, h⟩ := Returns.bind_eq_pure.mp h
    obtain ⟨actions, hfrozen, h⟩ := Returns.bind_eq_pure.mp h
    obtain rfl := Returns.pure_inj.mp h
    obtain ⟨-, order, evidence, horder, hevidence, hfinalPass⟩ := simulateOrder_eq_pure hfinal
    have hrequested : Extends (draftsOf fragments).length flattened.dependencies ordered :=
      foldlM_extends (fun edge _ _ _ => addOrdering_extends) (Returns.lift_eq_pure.mp hordered)
    have hextends : Extends (draftsOf fragments).length ordered dependencies :=
      stages_extend hbound (Returns.lift_eq_pure.mp hplanned) (Returns.lift_eq_pure.mp hmounted)
        hfirst (Returns.lift_eq_pure.mp hresolved) hfinal
    exact ⟨evidence, order, final, hvalid, hkeys,
      ⟨flattened, ordered, hflattened, Returns.lift_eq_pure.mp hordered, hextends.keeps⟩,
      hextends.valid (hrequested.valid hedges), horder, hevidence, hfinalPass,
      Returns.lift_eq_pure.mp hresources, Returns.lift_eq_pure.mp hfrozen⟩

end DisksGraph
