import DisksGraph.Editing.Valid
import DisksGraph.Engine.Fragments
import DisksGraph.Engine.Terminates
import DisksGraph.Provider.Changes
import Mathlib.Data.List.Chain

/-!
# Editing — Lowered

A draft that passes validation lowers to well-formed fragments in user order.

* `lowerOperation_sound`: the recipe of every request refers to its own actions, creates exactly
  the reserved node and declares only requirements of its contract.
* `wellFormed_lowered`: the fragments of a validated draft are well formed under the requested
  order.
* `buildPreview_returns`: building a draft ends with a preview or an error.
* `draft_build_sound`: building a draft meets no internal error, and the plan keeps the user order.
-/

namespace DisksGraph

open Support (Returns Spares)

/-! ### Recipes -/

/-- A recipe of one or two actions for one request, whose intent has the given index. -/
structure Recipe.Sound (operation : PlanOperation) (index : Option Nat) (recipe : Recipe) :
    Prop where
  shape : (∃ first, recipe.operations = [first]) ∨
    ∃ first second, recipe.operations = [first, second]
  requirements : ∀ requirement ∈ recipe.requirements, requirement.action = ⟨0⟩ ∧
    ∃ first, recipe.operations[0]? = some first ∧ ∀ graph,
      requirement.prerequisite ∈ (describeAction first graph).prerequisites
  outputs : recipe.operations.filterMap plannedNode = operation.createdNode.toList
  inputs : ∀ action ∈ recipe.operations, ∀ node ∈ actionInputs action,
    node ∈ operation.request.referencedNodes ∨ operation.createdNode = some node
  origin : ∀ i, recipe.origin = .intent i → index = some i

/-- Destructive formatting requires that the backing node is writable. -/
theorem requires_writable_format (backing node : NodeId) (version : LuksVersion)
    (credential : CredentialRef) (graph : NodeGraph) :
    .writable backing ∈
      (describeAction (.luks (.format backing node version credential)) graph).prerequisites := by
  rw [describeAction_prerequisites]
  change ActionContract.Requires _ _
  simp [describeTechnology, describeLuks, destructiveContract]

theorem requires_writable_create (backing node : NodeId) (kind : FilesystemKind)
    (label : Option String) (graph : NodeGraph) :
    .writable backing ∈
      (describeAction (.filesystem (.create backing node kind label)) graph).prerequisites := by
  rw [describeAction_prerequisites]
  change ActionContract.Requires _ _
  simp [describeTechnology, describeFilesystem, destructiveContract]

/-- A recipe of one action. -/
theorem Recipe.Sound.single {operation : PlanOperation} {action : ProviderAction}
    {requirements : List ExternalRequirement} {origin : FragmentOrigin} {index : Option Nat}
    (hrequirements : ∀ requirement ∈ requirements, requirement.action = ⟨0⟩ ∧
      ∀ graph, requirement.prerequisite ∈ (describeAction action graph).prerequisites)
    (houtputs : plannedNode action = operation.createdNode)
    (hinputs : actionInputs action = operation.request.referencedNodes)
    (horigin : ∀ i, origin = .intent i → index = some i) :
    Recipe.Sound operation index { operations := [action], requirements, origin } := by
  refine ⟨.inl ⟨action, rfl⟩, fun requirement hrequirement => ?_, ?_, ?_, horigin⟩
  · obtain ⟨hlocal, hcontract⟩ := hrequirements requirement hrequirement
    exact ⟨hlocal, action, rfl, hcontract⟩
  · rw [← houtputs, List.filterMap_cons, List.filterMap_nil]
    cases plannedNode action <;> rfl
  · rintro other hother node hnode
    obtain rfl := List.mem_singleton.mp hother
    exact .inl (hinputs ▸ hnode)

theorem noRequirements {action : ProviderAction} : ∀ requirement ∈ ([] : List ExternalRequirement),
    requirement.action = ⟨0⟩ ∧
      ∀ graph, requirement.prerequisite ∈ (describeAction action graph).prerequisites :=
  fun _ h => absurd h List.not_mem_nil

/-- The recipe of a request that creates a node. -/
theorem PlanRequest.recipe_sound_creates {id : OperationId} {request : PlanRequest} {node : NodeId}
    {index : Option Nat} {recipe : Recipe} (hcreates : request.createsNode = true)
    (h : request.recipe (some node) index = .ok recipe) :
    Recipe.Sound ⟨id, request, some node⟩ index recipe := by
  cases request with
  | createPartition table number offset size role attributes =>
      obtain rfl := Except.ok.inj h
      exact .single noRequirements rfl rfl nofun
  | formatLuks backing version credential =>
      obtain rfl := Except.ok.inj h
      refine .single (List.forall_mem_singleton.mpr ⟨rfl, fun graph => ?_⟩) rfl rfl nofun
      exact requires_writable_format backing node version credential graph
  | openLuks container mappingName credential readOnly =>
      obtain rfl := Except.ok.inj h
      exact .single noRequirements rfl rfl nofun
  | createLv vg name size layout activate =>
      rw [PlanRequest.recipe] at h
      split at h
      · cases h
      · obtain rfl := Except.ok.inj h
        cases activate with
        | false => exact .single noRequirements rfl rfl nofun
        | true =>
            refine ⟨.inr ⟨_, _, rfl⟩, fun _ h => absurd h List.not_mem_nil, rfl, ?_, nofun⟩
            intro action haction input hinput
            rcases List.mem_cons.mp haction with rfl | haction
            · exact .inl hinput
            · obtain rfl := List.mem_singleton.mp haction
              obtain rfl := List.mem_singleton.mp hinput
              exact .inr rfl
  | createFilesystem backing filesystem label =>
      rw [PlanRequest.recipe] at h
      split at h
      · cases h
      · obtain rfl := Except.ok.inj h
        refine .single (List.forall_mem_singleton.mpr ⟨rfl, fun graph => ?_⟩) rfl rfl nofun
        exact requires_writable_create backing node filesystem label graph
  | _ => cases hcreates

/-- The recipe of a request that creates none. -/
theorem PlanRequest.recipe_sound_keeps {id : OperationId} {request : PlanRequest}
    {index : Option Nat} {recipe : Recipe} (hcreates : request.createsNode = false)
    (h : request.recipe none index = .ok recipe) :
    Recipe.Sound ⟨id, request, none⟩ index recipe := by
  cases request with
  | maintenance intent =>
      cases intent with
      | check target force =>
          cases index with
          | none => cases h
          | some index =>
              obtain rfl := Except.ok.inj h
              refine .single noRequirements rfl rfl fun i hi => ?_
              rw [FragmentOrigin.intent.inj hi]
      | _ => cases h
  | createPartition | formatLuks | openLuks | createLv | createFilesystem => cases hcreates
  | _ =>
      obtain rfl := Except.ok.inj h
      exact .single noRequirements rfl rfl nofun

/-- An operation is lowered exactly when its output is as declared and a recipe exists. -/
theorem lowerOperation_eq_ok {operation : PlanOperation} {index : Option Nat}
    {fragment : PlanFragment} : lowerOperation operation index = .ok fragment ↔
      operation.request.createsNode = operation.createdNode.isSome ∧
        ∃ recipe, operation.request.recipe operation.createdNode index = .ok recipe ∧
          fragment = recipe.fragment := by
  rw [lowerOperation]
  by_cases hcreated : operation.request.createsNode = operation.createdNode.isSome
  · rw [if_neg (not_not_intro hcreated), Support.except_bind_eq_ok, and_iff_right hcreated]
    refine exists_congr fun recipe => and_congr_right' ?_
    exact ⟨fun h => (Except.ok.inj h).symm, fun h => congrArg Except.ok h.symm⟩
  · rw [if_pos hcreated]
    exact ⟨nofun, fun h => absurd h.1 hcreated⟩

/-- The recipe of an operation that has an output exactly when its request needs one. -/
theorem PlanOperation.recipe_sound {operation : PlanOperation} {index : Option Nat}
    {recipe : Recipe}
    (hcreated : operation.request.createsNode = operation.createdNode.isSome)
    (h : operation.request.recipe operation.createdNode index = .ok recipe) :
    Recipe.Sound operation index recipe := by
  obtain ⟨id, request, createdNode⟩ := operation
  cases createdNode with
  | none => exact PlanRequest.recipe_sound_keeps hcreated h
  | some node => exact PlanRequest.recipe_sound_creates hcreated h

/-- **Lowering is sound.** -/
theorem lowerOperation_sound {operation : PlanOperation} {index : Option Nat}
    {fragment : PlanFragment} (h : lowerOperation operation index = .ok fragment) :
    ∃ recipe, Recipe.Sound operation index recipe ∧ fragment = recipe.fragment := by
  obtain ⟨hcreated, recipe, hrecipe, rfl⟩ := lowerOperation_eq_ok.mp h
  exact ⟨recipe, operation.recipe_sound hcreated hrecipe, rfl⟩

/-- The fragments of a draft, one for each operation, with intents of the goal as origins. -/
def Lowered (intents : List OperationIntent) (operation : PlanOperation) (fragment : PlanFragment) :
    Prop :=
  ∃ index recipe, Recipe.Sound operation index recipe ∧ fragment = recipe.fragment ∧
    ∀ i, index = some i → i < intents.length

/-- A registered intent has its index in the list, which only grows. -/
theorem registerIntent_sound (intents : List OperationIntent) (request : PlanRequest) :
    intents.length ≤ (request.registerIntent intents).2.length ∧
      ∀ i, (request.registerIntent intents).1 = some i →
        i < (request.registerIntent intents).2.length := by
  cases request with
  | maintenance intent =>
      have hlength : (intents ++ [intent]).length = intents.length + 1 := List.length_append
      refine ⟨hlength ▸ Nat.le_succ _, fun i hi => ?_⟩
      rw [← Option.some.inj hi]
      exact hlength ▸ Nat.lt_succ_self _
  | _ => exact ⟨le_rfl, nofun⟩

/-- Each operation is lowered against the final list of intents. -/
theorem lowerOperations_sound {operations : List PlanOperation}
    {start intents : List OperationIntent}
    {fragments : List PlanFragment}
    (h : lowerOperations start operations = .ok (fragments, intents)) :
    start.length ≤ intents.length ∧ List.Forall₂ (Lowered intents) operations fragments := by
  induction operations generalizing start fragments with
  | nil =>
      obtain ⟨rfl, rfl⟩ := Prod.mk.inj (Except.ok.inj h)
      exact ⟨le_rfl, .nil⟩
  | cons operation rest ih =>
      obtain ⟨hstart, hindex⟩ := registerIntent_sound start operation.request
      unfold lowerOperations at h
      generalize operation.request.registerIntent start = registered at h hstart hindex
      obtain ⟨index, next⟩ := registered
      dsimp only at h
      split at h
      · cases h
      · next fragment hfragment =>
        obtain ⟨⟨tail, intents'⟩, htail, h⟩ := Support.except_bind_eq_ok.mp h
        obtain ⟨rfl, rfl⟩ := Prod.mk.inj (Except.ok.inj h)
        obtain ⟨hnext, hall⟩ := ih htail
        obtain ⟨recipe, hsound, hrecipe⟩ := lowerOperation_sound hfragment
        refine ⟨hstart.trans hnext, .cons ⟨index, recipe, hsound, hrecipe, fun i hi => ?_⟩ hall⟩
        exact (hindex i hi).trans_le hnext

/-! ### Requested order -/

section Requested

variable {fragments : List PlanFragment} {intents : List OperationIntent}
  {entries : List (PlanFragment × Nat)}

/-- The edge that a round of the ordering loop adds. -/
abbrev requestedEdge (before after : FragmentActionRef) : FragmentOrdering :=
  ⟨before, after, .requestedOrder⟩

theorem orderFragment_nonempty {state : List FragmentOrdering × List FragmentActionRef}
    {entry : PlanFragment × Nat} (h : entry.1.actions ≠ []) :
    orderFragment state entry = (state.1 ++ state.2.flatMap fun before =>
      (fragmentRoots entry).map (requestedEdge before), fragmentSinks entry) := by
  rw [orderFragment, if_neg (by rw [List.isEmpty_iff]; exact h)]

/-- The loop keeps its edges and orders consecutive fragments. -/
theorem foldl_orderFragment {state : List FragmentOrdering × List FragmentActionRef}
    (h : ∀ entry ∈ entries, entry.1.actions ≠ []) :
    state.1 ⊆ (entries.foldl orderFragment state).1 ∧
    (∀ entry ∈ entries.head?, ∀ before ∈ state.2, ∀ after ∈ fragmentRoots entry,
      requestedEdge before after ∈ (entries.foldl orderFragment state).1) ∧
    entries.IsChain fun first second => ∀ before ∈ fragmentSinks first,
      ∀ after ∈ fragmentRoots second,
        requestedEdge before after ∈ (entries.foldl orderFragment state).1 := by
  induction entries generalizing state with
  | nil => exact ⟨List.Subset.refl _, nofun, .nil⟩
  | cons entry rest ih =>
      obtain ⟨hkeeps, hhead, hchain⟩ :=
        @ih (orderFragment state entry) fun other hother => h other (List.mem_cons_of_mem _ hother)
      rw [orderFragment_nonempty (h entry List.mem_cons_self)] at hkeeps hhead hchain
      rw [List.foldl_cons, orderFragment_nonempty (h entry List.mem_cons_self)]
      refine ⟨fun edge hedge => hkeeps (List.mem_append_left _ hedge), ?_, ?_⟩
      · intro other hother before hbefore after hafter
        obtain rfl := Option.some.inj hother
        refine hkeeps (List.mem_append_right _ (List.mem_flatMap.mpr ⟨before, hbefore, ?_⟩))
        exact List.mem_map_of_mem hafter
      · cases rest with
        | nil => exact .singleton _
        | cons second rest => exact .cons_cons (hhead second rfl) hchain

/-- The action that an endpoint names. -/
def FragmentItem.ref (item : FragmentItem) : FragmentActionRef := ⟨⟨item.index⟩, item.action.id⟩

theorem mem_entry_refs {entry : PlanFragment × Nat} (hentry : entry ∈ fragments.zipIdx)
    {ref : FragmentActionRef} (h : ref ∈ fragmentRoots entry ∨ ref ∈ fragmentSinks entry) :
    ∃ item ∈ fragmentItems fragments, ref = item.ref := by
  obtain ⟨action, haction, rfl⟩ : ∃ action ∈ entry.1.actions, ⟨⟨entry.2⟩, action.id⟩ = ref := by
    rcases h with h | h
    · obtain ⟨action, haction, rfl⟩ := List.mem_map.mp h
      exact ⟨action, List.mem_of_mem_filter haction, rfl⟩
    · obtain ⟨action, haction, rfl⟩ := List.mem_map.mp h
      exact ⟨action, List.mem_of_mem_filter haction, rfl⟩
  refine ⟨⟨entry.2, entry.1.origin, action⟩, mem_fragmentItems.mpr ?_, rfl⟩
  exact ⟨entry.1, List.mk_mem_zipIdx_iff_getElem?.mp hentry, rfl, haction⟩

/-- Every requested edge is between actions of the fragments. -/
theorem requestedOrdering_refs {edge : FragmentOrdering} (h : edge ∈ requestedOrdering fragments) :
    ∃ a ∈ fragmentItems fragments, ∃ b ∈ fragmentItems fragments,
      edge.before = a.ref ∧ edge.after = b.ref := by
  have hloop : (∀ edge ∈ (fragments.zipIdx.foldl orderFragment ([], [])).1,
      ∃ a ∈ fragmentItems fragments, ∃ b ∈ fragmentItems fragments,
        edge.before = a.ref ∧ edge.after = b.ref) ∧
      ∀ ref ∈ (fragments.zipIdx.foldl orderFragment ([], [])).2,
        ∃ item ∈ fragmentItems fragments, ref = item.ref := by
    refine List.foldlRecOn fragments.zipIdx orderFragment (motive := fun state =>
      (∀ edge ∈ state.1, ∃ a ∈ fragmentItems fragments, ∃ b ∈ fragmentItems fragments,
        edge.before = a.ref ∧ edge.after = b.ref) ∧
      ∀ ref ∈ state.2, ∃ item ∈ fragmentItems fragments, ref = item.ref) ?_ ?_
    · exact ⟨fun _ h => absurd h List.not_mem_nil, fun _ h => absurd h List.not_mem_nil⟩
    rintro ⟨edges, sinks⟩ ⟨hedges, hsinks⟩ entry hentry
    unfold orderFragment
    split
    · exact ⟨hedges, hsinks⟩
    · refine ⟨List.forall_mem_append.mpr ⟨hedges, fun edge hedge => ?_⟩, fun ref href => ?_⟩
      · obtain ⟨before, hbefore, hedge⟩ := List.mem_flatMap.mp hedge
        obtain ⟨after, hafter, rfl⟩ := List.mem_map.mp hedge
        obtain ⟨a, ha, rfl⟩ := hsinks before hbefore
        obtain ⟨b, hb, rfl⟩ := mem_entry_refs hentry (.inl hafter)
        exact ⟨a, ha, b, hb, rfl, rfl⟩
      · exact mem_entry_refs hentry (.inr href)
  exact hloop.1 edge h

/-- The two shapes of a lowered fragment. -/
inductive TwoActions : PlanFragment → Prop
  | one {fragment : PlanFragment} {first : ProviderAction}
      (hactions : fragment.actions = [⟨⟨0⟩, first⟩]) (hdependencies : fragment.dependencies = []) :
      TwoActions fragment
  | two {fragment : PlanFragment} {first second : ProviderAction}
      (hactions : fragment.actions = [⟨⟨0⟩, first⟩, ⟨⟨1⟩, second⟩])
      (hdependencies : fragment.dependencies = [⟨⟨0⟩, ⟨1⟩, .requestedOrder⟩]) : TwoActions fragment

theorem Lowered.twoActions {operation : PlanOperation} {fragment : PlanFragment}
    (h : Lowered intents operation fragment) : TwoActions fragment := by
  obtain ⟨index, recipe, hsound, rfl, -⟩ := h
  rcases hsound.shape with ⟨first, hshape⟩ | ⟨first, second, hshape⟩
  · refine @TwoActions.one _ first ?_ ?_ <;> simp [Recipe.fragment, hshape]
  · refine @TwoActions.two _ first second ?_ ?_ <;> simp [Recipe.fragment, hshape]

theorem TwoActions.nonempty {fragment : PlanFragment} (h : TwoActions fragment) :
    fragment.actions ≠ [] := by
  cases h with
  | one hactions => rw [hactions]; exact List.cons_ne_nil _ _
  | two hactions => rw [hactions]; exact List.cons_ne_nil _ _

theorem TwoActions.nodup {fragment : PlanFragment} (h : TwoActions fragment) :
    (fragment.actions.map (·.id)).Nodup := by
  cases h with
  | one hactions => rw [hactions]; exact List.nodup_singleton _
  | two hactions => rw [hactions]; simp

/-- The last action of a fragment comes before no other of it. -/
theorem TwoActions.last_sink {fragment : PlanFragment} (h : TwoActions fragment) {index : Nat}
    {item : FragmentItem} (hitem : item ∈ (entryItems (fragment, index)).getLast?) :
    item.ref ∈ fragmentSinks (fragment, index) := by
  cases h with
  | one hactions hdependencies =>
      simp only [entryItems, hactions, List.map_cons, List.map_nil, List.getLast?_singleton,
        Option.mem_some_iff] at hitem
      subst hitem
      simp [fragmentSinks, hactions, hdependencies, FragmentItem.ref]
  | two hactions hdependencies =>
      simp only [entryItems, hactions, List.map_cons, List.map_nil, List.getLast?_cons_cons,
        List.getLast?_singleton, Option.mem_some_iff] at hitem
      subst hitem
      simp [fragmentSinks, hactions, hdependencies, FragmentItem.ref]

/-- The first action of a fragment comes after no other of it. -/
theorem TwoActions.head_root {fragment : PlanFragment} (h : TwoActions fragment) {index : Nat}
    {item : FragmentItem} (hitem : item ∈ (entryItems (fragment, index)).head?) :
    item.ref ∈ fragmentRoots (fragment, index) := by
  cases h with
  | one hactions hdependencies =>
      simp only [entryItems, hactions, List.map_cons, List.map_nil, List.head?_cons,
        Option.mem_some_iff] at hitem
      subst hitem
      simp [fragmentRoots, hactions, hdependencies, FragmentItem.ref]
  | two hactions hdependencies =>
      simp only [entryItems, hactions, List.map_cons, List.map_nil, List.head?_cons,
        Option.mem_some_iff] at hitem
      subst hitem
      simp [fragmentRoots, hactions, hdependencies, FragmentItem.ref]

/-- The actions of a fragment follow one another in the order of the graph. -/
theorem TwoActions.chain_inside {ordering : List FragmentOrdering} {fragment : PlanFragment}
    (h : TwoActions fragment) {index : Nat} (hfragment : fragments[index]? = some fragment) :
    (entryItems (fragment, index)).IsChain (OrderedBefore fragments ordering) := by
  cases h with
  | one hactions hdependencies =>
      rw [entryItems, hactions]
      exact .singleton _
  | two hactions hdependencies =>
      rw [entryItems, hactions]
      refine .cons_cons ?_ (.singleton _)
      exact .inside hfragment rfl (hdependencies ▸ List.mem_cons_self) rfl rfl

/-- Consecutive actions are ordered by their fragment or by the requested order. -/
theorem chain_fragmentItems (h : ∀ fragment ∈ fragments, TwoActions fragment) :
    (fragmentItems fragments).IsChain (OrderedBefore fragments (requestedOrdering fragments)) := by
  have hentries : ∀ entry ∈ fragments.zipIdx, TwoActions entry.1 ∧
      fragments[entry.2]? = some entry.1 := fun entry hentry =>
    have hfragment := List.mk_mem_zipIdx_iff_getElem?.mp hentry
    ⟨h entry.1 (List.mem_of_getElem? hfragment), hfragment⟩
  have hnonempty : [] ∉ fragments.zipIdx.map entryItems := by
    intro hmem
    obtain ⟨entry, hentry, hnil⟩ := List.mem_map.mp hmem
    exact (hentries entry hentry).1.nonempty (List.map_eq_nil_iff.mp hnil)
  rw [fragmentItems, List.flatMap_def, List.isChain_flatten hnonempty]
  constructor
  · rintro _ hmem
    obtain ⟨entry, hentry, rfl⟩ := List.mem_map.mp hmem
    exact (hentries entry hentry).1.chain_inside (hentries entry hentry).2
  · rw [List.isChain_map]
    have hchain := (@foldl_orderFragment fragments.zipIdx ([], []) fun entry hentry =>
      (hentries entry hentry).1.nonempty).2.2
    refine hchain.imp_of_mem_imp fun first second hfirst hsecond hedge a ha b hb => ?_
    exact .across (hedge _ ((hentries first hfirst).1.last_sink ha) _
      ((hentries second hsecond).1.head_root hb)) rfl rfl

theorem pairwise_zipIdx : fragments.zipIdx.Pairwise fun a b => a.2 < b.2 := by
  rw [← List.pairwise_map (f := Prod.snd) (R := (· < ·)), List.zipIdx_map_snd]
  exact List.pairwise_lt_range'

/-- Local identities that occur once make global keys that occur once. -/
theorem nodup_keys (h : ∀ fragment ∈ fragments, TwoActions fragment) :
    ((fragmentItems fragments).map FragmentItem.key).Nodup := by
  rw [fragmentItems, List.map_flatMap, List.nodup_flatMap]
  constructor
  · rintro ⟨fragment, index⟩ hentry
    have hfragment := List.mk_mem_zipIdx_iff_getElem?.mp hentry
    have hlocal := (h fragment (List.mem_of_getElem? hfragment)).nodup
    rw [entryItems, List.map_map]
    have hkeys := hlocal.map (f := fun id : LocalActionId => (index, id)) fun a b hab =>
      (Prod.mk.inj hab).2
    rwa [List.map_map] at hkeys
  · refine pairwise_zipIdx.imp fun hlt => ?_
    intro key hfirst hsecond
    obtain ⟨a, ha, rfl⟩ := List.mem_map.mp hfirst
    obtain ⟨b, hb, hkey⟩ := List.mem_map.mp hsecond
    obtain ⟨_, -, rfl⟩ := List.mem_map.mp ha
    obtain ⟨_, -, rfl⟩ := List.mem_map.mp hb
    exact absurd (Prod.mk.inj hkey).1 (Nat.ne_of_gt hlt)

end Requested

/-! ### Well-formedness -/

section WellFormed

variable {baseline : HistoricalBaseline} {draft : PlanDraft} {fragments : List PlanFragment}
  {intents : List OperationIntent}

theorem Lowered.actions_filterMap {operation : PlanOperation} {fragment : PlanFragment}
    (h : Lowered intents operation fragment) :
    fragment.actions.filterMap (fun action => plannedNode action.operation) =
      operation.createdNode.toList := by
  obtain ⟨index, recipe, hsound, rfl, -⟩ := h
  rw [← hsound.outputs, Recipe.fragment, List.filterMap_map]
  conv_rhs => rw [← List.zipIdx_map_fst 0 recipe.operations, List.filterMap_map]
  rfl

/-- The fragments create the nodes that their operations reserve. -/
theorem plannedNodes_lowered {operations : List PlanOperation}
    (h : List.Forall₂ (Lowered intents) operations fragments) :
    plannedNodes fragments = operations.filterMap (·.createdNode) := by
  have hitems : plannedNodes fragments = fragments.flatMap fun fragment =>
      fragment.actions.filterMap fun action => plannedNode action.operation := by
    rw [plannedNodes, fragmentItems, List.filterMap_flatMap]
    conv_rhs => rw [← List.zipIdx_map_fst 0 fragments, List.flatMap_map]
    exact congrArg (fragments.zipIdx.flatMap ·) (funext fun entry => List.filterMap_map)
  rw [hitems]
  clear hitems
  induction h with
  | nil => rfl
  | @cons operation _ _ _ hfirst _ ih =>
      rw [List.flatMap_cons, hfirst.actions_filterMap, ih, List.filterMap_cons]
      cases operation.createdNode <;> rfl

/-- The operation behind a fragment. -/
theorem lowered_at (h : List.Forall₂ (Lowered intents) draft.operations fragments) {index : Nat}
    {fragment : PlanFragment} (hfragment : fragments[index]? = some fragment) :
    ∃ operation ∈ draft.operations, Lowered intents operation fragment := by
  obtain ⟨operation, hoperation, hlowered⟩ :=
    Support.exists_of_forall₂ h (List.mem_of_getElem? hfragment)
  exact ⟨operation, hoperation, hlowered⟩

/-- The actions of a lowered fragment, and their identities. -/
theorem Lowered.actions {operation : PlanOperation} {fragment : PlanFragment}
    (h : Lowered intents operation fragment) {action : FragmentAction}
    (haction : action ∈ fragment.actions) {node : NodeId}
    (hnode : node ∈ actionInputs action.operation) :
    node ∈ operation.request.referencedNodes ∨ operation.createdNode = some node := by
  obtain ⟨index, recipe, hsound, rfl, -⟩ := h
  obtain ⟨entry, hentry, rfl⟩ := List.mem_map.mp haction
  exact hsound.inputs entry.1 (List.mem_of_getElem? (List.mk_mem_zipIdx_iff_getElem?.mp hentry))
    node hnode

/-- Every external requirement is a prerequisite of one of the actions. -/
theorem Lowered.requirements {operation : PlanOperation} {fragment : PlanFragment}
    (h : Lowered intents operation fragment) {requirement : ExternalRequirement}
    (hrequirement : requirement ∈ fragment.externalRequirements) :
    ∃ action ∈ fragment.actions, action.id = requirement.action ∧
      ∀ graph, requirement.prerequisite ∈
        (describeAction action.operation graph).prerequisites := by
  obtain ⟨index, recipe, hsound, rfl, -⟩ := h
  obtain ⟨hlocal, first, hfirst, hcontract⟩ := hsound.requirements requirement hrequirement
  refine ⟨⟨⟨0⟩, first⟩, List.mem_map.mpr ⟨(first, 0), ?_, rfl⟩, hlocal.symm, hcontract⟩
  exact List.mk_mem_zipIdx_iff_getElem?.mpr hfirst

/-- **The fragments of a validated draft are well formed** under the requested order. -/
theorem wellFormed_lowered (hdraft : draft.Validated baseline)
    (h : List.Forall₂ (Lowered intents) draft.operations fragments) :
    WellFormedFragments baseline.snapshot fragments (requestedOrdering fragments) := by
  have htwo : ∀ fragment ∈ fragments, TwoActions fragment := by
    intro fragment hfragment
    obtain ⟨operation, -, hlowered⟩ := Support.exists_of_forall₂ h hfragment
    exact hlowered.twoActions
  have hitem : ∀ {index : Nat} {fragment : PlanFragment} {action : FragmentAction},
      fragments[index]? = some fragment → action ∈ fragment.actions →
        ⟨index, fragment.origin, action⟩ ∈ fragmentItems fragments :=
    fun hfragment haction => mem_fragmentItems.mpr ⟨_, hfragment, rfl, haction⟩
  have hplanned := plannedNodes_lowered h
  refine {
    keys := nodup_keys htwo
    dependencies := fun index fragment hfragment dependency hdependency => ?_
    requirements := fun index fragment hfragment requirement hrequirement => ?_
    endpoints := fun edge hedge => requestedOrdering_refs hedge
    planned := hplanned ▸ hdraft.outputs
    absent := hplanned ▸ hdraft.absent
    inputs := fun item hmem node hnode => ?_
    chain := chain_fragmentItems htwo }
  · cases htwo fragment (List.mem_of_getElem? hfragment) with
    | one hactions hdependencies =>
        rw [hdependencies] at hdependency
        cases hdependency
    | two hactions hdependencies =>
        rw [hdependencies] at hdependency
        obtain rfl := List.mem_singleton.mp hdependency
        have hfirst := hitem hfragment (hactions ▸ List.mem_cons_self)
        have hsecond := hitem hfragment
          (hactions ▸ List.mem_cons_of_mem _ List.mem_cons_self)
        exact ⟨List.mem_map_of_mem hfirst, List.mem_map_of_mem hsecond⟩
  · obtain ⟨operation, -, hlowered⟩ := lowered_at h hfragment
    obtain ⟨action, haction, hlocal, hcontract⟩ := hlowered.requirements hrequirement
    exact ⟨_, hitem hfragment haction, Prod.ext rfl hlocal, hcontract⟩
  · obtain ⟨fragment, hfragment, -, haction⟩ := mem_fragmentItems.mp hmem
    obtain ⟨operation, hoperation, hlowered⟩ := lowered_at h hfragment
    rw [hplanned]
    rcases hlowered.actions haction hnode with hreferenced | hcreated
    · exact hdraft.inputs operation hoperation node hreferenced
    · exact .inr (List.mem_filterMap.mpr ⟨operation, hoperation, hcreated⟩)

end WellFormed

/-! ### Errors -/

section Errors

variable {keys : ContractKeys} {baseline : HistoricalBaseline} {draft : PlanDraft}
  {fragments : List PlanFragment} {intents : List OperationIntent}

/-- An internal failure, or a fault that validation should have found. -/
def DraftBuildError.Faulty (error : DraftBuildError) : Prop :=
  error.isInternal = true ∨ ∃ source sources, error = .composition source sources ∧
    Structural source

theorem structural_of_faulty {source : CompositionError} {sources : List OperationActions}
    (h : (DraftBuildError.composition source sources).Faulty) : Structural source := by
  rcases h with hinternal | ⟨_, _, heq, hstructural⟩
  · cases source <;> first | rfl | cases hinternal
  · obtain ⟨rfl, -⟩ := DraftBuildError.composition.inj heq
    exact hstructural

/-- An analysis error that says that the plan is not what was composed. -/
def PlanSimulationError.isMismatch : PlanSimulationError → Bool
  | .contractMismatch _ | .unknownIntentOrigin .. => true
  | _ => false

theorem mismatch_of_faulty {source : PlanSimulationError} {sources : List OperationActions}
    (h : (DraftBuildError.simulation source sources).Faulty) : source.isMismatch = true := by
  rcases h with hinternal | ⟨_, _, heq, -⟩
  · cases source <;> first | rfl | cases hinternal
  · cases heq

/-- The origins of a plan name intents of the draft. -/
theorem unknownIntentOrigin_lowered {ordering : List FragmentOrdering} {plan : ExecutionPlan}
    {capacity : List CapacityEvidence} {evidence : SimulationEvidence} {order : List ActionId}
    {final : AnalysedOrder}
    (hcomposed : Composition baseline.snapshot fragments ordering capacity plan evidence order final)
    (h : List.Forall₂ (Lowered intents) draft.operations fragments) :
    unknownIntentOrigin plan intents = none := by
  rw [unknownIntentOrigin, List.findSome?_eq_none_iff]
  intro action haction
  have hdraft : action.draft ∈ draftsOf fragments :=
    hcomposed.drafts ▸ List.mem_map_of_mem haction
  obtain ⟨item, hitem, position, heq⟩ := mem_draftsOf hdraft
  obtain ⟨fragment, hfragment, horigin, -⟩ := mem_fragmentItems.mp hitem
  obtain ⟨operation, -, index, recipe, hsound, rfl, hindex⟩ := lowered_at h hfragment
  have hsame : action.origin = recipe.origin :=
    (congrArg DraftAction.origin heq).trans horigin
  split
  · next i hintent =>
    have hlt := hindex i (hsound.origin i (hsame.symm.trans hintent))
    rw [if_neg (Nat.not_le.mpr hlt)]
  · rfl

/-- The analysis of a composed plan finds no mismatch. -/
theorem analysePlan_spares {ordering : List FragmentOrdering} {plan : ExecutionPlan}
    {capacity : List CapacityEvidence} {evidence : SimulationEvidence} {order : List ActionId}
    {final : AnalysedOrder} {current : CurrentState} {scope : ProtectedScope}
    (hcomposed : Composition current fragments ordering capacity plan evidence order final)
    (hintents : unknownIntentOrigin plan intents = none) :
    (analysePlan keys current plan intents capacity scope).Spares
      fun error => error.isMismatch = true := by
  obtain ⟨ordered, entries, last, -, -, -, hreplay⟩ :=
    @Composition.replays keys _ _ _ _ _ _ _ _ hcomposed
  unfold analysePlan
  split
  · next error hscope =>
    unfold validateProtectedScope at hscope
    split at hscope
    · obtain rfl := Except.error.inj hscope
      exact Bool.false_ne_true
    · cases hscope
  · rw [hintents]
    dsimp only
    refine Returns.Spares.bind ?_ fun simulation _ => ?_
    · rw [simulatePlanWithEvidence, hreplay]
      trivial
    · split <;> trivial

theorem buildFragments_spares (hdraft : draft.Validated baseline)
    (h : List.Forall₂ (Lowered intents) draft.operations fragments) :
    (buildFragments keys baseline draft fragments intents).Spares DraftBuildError.Faulty := by
  have hwell := wellFormed_lowered hdraft h
  refine Returns.Spares.bind (Returns.Spares.mapError
    (Returns.Spares.lift (fragmentActionIds_spares hwell.keys)) fun _ => structural_of_faulty) ?_
  refine fun ids _ => Returns.Spares.bind Returns.Spares.unwrap fun sources _ => ?_
  refine Returns.Spares.bind (Returns.Spares.mapError hwell.composePlanWithOrdering_spares
    fun _ => structural_of_faulty) fun plan hplan => ?_
  obtain ⟨evidence, order, final, hcomposed⟩ :=
    composePlanWithOrdering_eq_pure (Returns.mapError_eq_pure.mp hplan)
  refine Returns.Spares.bind (Returns.Spares.mapError
    (analysePlan_spares hcomposed (unknownIntentOrigin_lowered hcomposed h))
    fun _ => mismatch_of_faulty) fun _ _ => ?_
  exact Returns.Spares.bind Returns.Spares.unwrap fun _ _ => trivial

theorem not_faulty_draft {diagnostics : List OperationDiagnostic} :
    ¬(DraftBuildError.draft diagnostics).Faulty := by
  rintro (hinternal | ⟨_, _, heq, -⟩)
  · cases hinternal
  · cases heq

theorem validateDraft_spares : Spares DraftBuildError.Faulty (validateDraft baseline draft) := by
  unfold validateDraft
  dsimp only
  generalize (if baseline.id.isNil = true then ({} : SeenIdentities).issue none
    "draft.baseline_identity" "baseline identity must not be nil" else {}) = start
  split
  · trivial
  · exact not_faulty_draft

theorem lowerOperations_spares {start : List OperationIntent} {operations : List PlanOperation} :
    Spares DraftBuildError.Faulty (lowerOperations start operations) := by
  induction operations generalizing start with
  | nil => trivial
  | cons operation rest ih =>
      unfold lowerOperations
      dsimp only
      split
      · exact not_faulty_draft
      · exact ih.bind fun _ _ => trivial

/-- Building a draft meets no internal failure and no fault of its fragments. -/
theorem buildPreview_spares :
    (buildPreview keys baseline draft).Spares DraftBuildError.Faulty := by
  refine Returns.Spares.bind (Returns.Spares.lift validateDraft_spares) fun _ hvalid => ?_
  have hdraft := validateDraft_eq_ok (Returns.lift_eq_pure.mp hvalid)
  refine Returns.Spares.bind (Returns.Spares.lift lowerOperations_spares)
    fun ⟨fragments, intents⟩ hlowered => ?_
  exact buildFragments_spares hdraft (lowerOperations_sound (Returns.lift_eq_pure.mp hlowered)).2

end Errors

/-! ### The user order -/

section Order

variable {keys : ContractKeys} {baseline : HistoricalBaseline} {draft : PlanDraft}
  {fragments : List PlanFragment} {intents : List OperationIntent}

/-- The ordered actions of a plan of well-formed fragments are its actions. -/
theorem Composition.orderedActions_eq {current : CurrentState} {ordering : List FragmentOrdering}
    {capacity : List CapacityEvidence} {plan : ExecutionPlan} {evidence : SimulationEvidence}
    {order : List ActionId} {final : AnalysedOrder}
    (hcomposed : Composition current fragments ordering capacity plan evidence order final)
    (h : WellFormedFragments current fragments ordering) :
    plan.orderedActions = some plan.actions := by
  obtain ⟨ordered, hordered, hall⟩ := hcomposed.orderedActions
  have horder := hcomposed.order_eq h
  rw [horder, List.forall₂_map_left_iff, ← hcomposed.length] at hall
  have hsome : (List.range plan.actions.length).map (fun position => plan.actions[position]?) =
      ordered.map some := by
    rwa [← List.forall₂_eq_eq_eq, List.forall₂_map_left_iff, List.forall₂_map_right_iff]
  have hactions : (List.range plan.actions.length).map (fun position => plan.actions[position]?) =
      plan.actions.map some := by
    refine List.ext_getElem (by simp) fun position hleft hright => ?_
    rw [List.length_map] at hright
    simp [hright]
  rw [hordered, List.map_injective_iff.mpr (Option.some_injective _) (hsome.symm.trans hactions)]

theorem pair_sublist_range {p q count : Nat} (hpq : p < q) (hq : q < count) :
    [p, q].Sublist (List.range count) := by
  have hpair : ([p] ++ [q]).Sublist (List.range q ++ [q]) :=
    (List.singleton_sublist.mpr (List.mem_range.mpr hpq)).append_right [q]
  rw [← List.range_succ] at hpair
  exact hpair.trans (List.range_sublist.mpr hq)

/-- The actions of the fragments come in the order of the fragments. -/
theorem pairwise_fragmentItems :
    (fragmentItems fragments).Pairwise fun a b => a.index ≤ b.index := by
  rw [fragmentItems, List.pairwise_flatMap]
  constructor
  · rintro entry -
    rw [entryItems, List.pairwise_map]
    exact List.pairwise_of_forall fun _ _ => le_rfl
  · refine pairwise_zipIdx.imp fun hlt a ha b hb => ?_
    obtain ⟨_, -, rfl⟩ := List.mem_map.mp ha
    obtain ⟨_, -, rfl⟩ := List.mem_map.mp hb
    exact Nat.le_of_lt hlt

/-- The owned actions of an operation are those of its fragment. -/
structure Owned (fragments : List PlanFragment) (operation : PlanOperation) (index : Nat)
    (owned : OperationActions) : Prop where
  operation : owned.operation = operation.id
  sound : ∀ id ∈ owned.actions, ∃ item : FragmentItem,
    (fragmentItems fragments)[id.get]? = some item ∧ item.index = index
  complete : ∀ id item, (fragmentItems fragments)[ActionId.get id]? = some item →
    item.index = index → id ∈ owned.actions

/-- The source map assigns each action to the operation it was lowered from. -/
theorem sourceMap_owned {sources : List OperationActions}
    (hkeys : ((fragmentItems fragments).map FragmentItem.key).Nodup)
    (h : sourceMap draft fragments (numbered ((fragmentItems fragments).map FragmentItem.key)) =
      some sources) {index : Nat} {owned : OperationActions}
        (howned : sources[index]? = some owned) :
    ∃ operation, draft.operations[index]? = some operation ∧
      Owned fragments operation index owned := by
  obtain ⟨⟨⟨operation, fragment⟩, index'⟩, hentry, hactions⟩ :=
    Support.getElem?_of_forall₂ (Support.option_mapM_eq_some.mp h) howned
  rw [List.getElem?_zipIdx, Nat.zero_add] at hentry
  obtain ⟨entry, hzip, heq⟩ := Option.map_eq_some_iff.mp hentry
  obtain ⟨rfl, rfl⟩ := Prod.mk.inj heq
  obtain ⟨hoperation, hfragment⟩ := List.getElem?_zip_eq_some.mp hzip
  obtain ⟨ids, hids, hresult⟩ := Option.bind_eq_some_iff.mp hactions
  obtain rfl := Option.some.inj hresult
  have hlookups := Support.option_mapM_eq_some.mp hids
  refine ⟨operation, hoperation, rfl, fun id hid => ?_, fun id item hitem hindex => ?_⟩
  · obtain ⟨action, -, hlookup⟩ := Support.exists_of_forall₂ hlookups hid
    have hkey := lookup_numbered_some hlookup
    rw [List.getElem?_map] at hkey
    obtain ⟨item, hitem, hkey⟩ := Option.map_eq_some_iff.mp hkey
    exact ⟨item, hitem, congrArg Prod.fst hkey⟩
  · obtain ⟨fragment', hfragment', -, haction⟩ := mem_fragmentItems.mp (List.mem_of_getElem? hitem)
    rw [hindex, hfragment] at hfragment'
    obtain rfl := Option.some.inj hfragment'
    have hkey : ((fragmentItems fragments).map FragmentItem.key)[id.get]? =
        some (index, item.action.id) := by
      rw [List.getElem?_map, hitem, Option.map_some, FragmentItem.key, hindex]
    obtain ⟨found, hfound, hlookup⟩ := Support.exists_of_forall₂ hlookups.flip haction
    have hsame : found = id := Option.some.inj (hlookup.symm.trans (lookup_numbered hkeys hkey))
    exact hsame ▸ hfound

/-- Every action of the fragments has an identity. -/
theorem sourceMap_isSome (draft : PlanDraft)
    (hkeys : ((fragmentItems fragments).map FragmentItem.key).Nodup) :
    ∃ sources, sourceMap draft fragments
      (numbered ((fragmentItems fragments).map FragmentItem.key)) = some sources := by
  refine (Support.option_mapM_of_forall fun entry hentry => ?_).imp fun _ h => h.1
  have hfragment : fragments[entry.2]? = some entry.1.2 :=
    (List.getElem?_zip_eq_some.mp (List.mk_mem_zipIdx_iff_getElem?.mp hentry)).2
  have hfound : ∀ action ∈ entry.1.2.actions, ∃ id,
      (numbered ((fragmentItems fragments).map FragmentItem.key)).lookup (entry.2, action.id) =
        some id := by
    intro action haction
    have hitem : ⟨entry.2, entry.1.2.origin, action⟩ ∈ fragmentItems fragments :=
      mem_fragmentItems.mpr ⟨entry.1.2, hfragment, rfl, haction⟩
    obtain ⟨position, hlookup, -⟩ := lookup_item hkeys (List.mem_map_of_mem hitem)
    exact ⟨_, hlookup⟩
  obtain ⟨actions, hactions, -⟩ := Support.option_mapM_of_forall hfound
  exact ⟨_, by rw [hactions]; rfl⟩

/-- The source map has one entry for each operation. -/
theorem sourceMap_operations {sources : List OperationActions} {ids : ActionIds}
    (hlength : draft.operations.length = fragments.length)
    (h : sourceMap draft fragments ids = some sources) :
    sources.map (·.operation) = draft.operations.map (·.id) := by
  have hall : ((draft.operations.zip fragments).zipIdx.map fun entry => entry.1.1.id) =
      sources.map (·.operation) := by
    rw [← List.forall₂_eq_eq_eq, List.forall₂_map_left_iff, List.forall₂_map_right_iff]
    refine (Support.option_mapM_eq_some.mp h).imp fun entry owned howned => ?_
    obtain ⟨actions, -, hresult⟩ := Option.bind_eq_some_iff.mp howned
    exact Option.some.inj hresult ▸ rfl
  rw [← hall]
  conv_rhs => rw [← List.map_fst_zip hlength.le, List.map_map,
    ← List.zipIdx_map_fst 0 (draft.operations.zip fragments), List.map_map]
  rfl

/-- Actions of an earlier operation stand before those of a later one. -/
theorem Owned.ordered {a b : ActionId} {i j : Nat} {earlier later : OperationActions}
    {first second : PlanOperation} (hearlier : Owned fragments first i earlier)
    (hlater : Owned fragments second j later) (hij : i < j) (ha : a ∈ earlier.actions)
    (hb : b ∈ later.actions) : a.get < b.get ∧ b.get < (fragmentItems fragments).length := by
  obtain ⟨item, hitem, rfl⟩ := hearlier.sound a ha
  obtain ⟨other, hother, rfl⟩ := hlater.sound b hb
  obtain ⟨halt, rfl⟩ := List.getElem?_eq_some_iff.mp hitem
  obtain ⟨hblt, rfl⟩ := List.getElem?_eq_some_iff.mp hother
  refine ⟨?_, hblt⟩
  by_contra hle
  rcases Nat.lt_or_eq_of_le (Nat.not_lt.mp hle) with hlt | heq
  · have hindex := List.pairwise_iff_getElem.mp pairwise_fragmentItems _ _ hblt halt hlt
    omega
  · simp only [heq, lt_self_iff_false] at hij

/-- What a plan of well-formed fragments keeps of the user order. -/
theorem buildFragments_ordered {preview : PlanPreview}
    (hwell : WellFormedFragments baseline.snapshot fragments (requestedOrdering fragments))
    (hlength : draft.operations.length = fragments.length)
    (h : buildFragments keys baseline draft fragments intents = pure preview) :
    ∃ ordered, preview.plan.orderedActions = some ordered ∧
      preview.sourceMap.map (·.operation) = draft.operations.map (·.id) ∧
      (∀ action ∈ ordered, ∃ owned ∈ preview.sourceMap, action.id ∈ owned.actions) ∧
      ∀ (i j : Nat) earlier later, i < j → preview.sourceMap[i]? = some earlier →
        preview.sourceMap[j]? = some later → ∀ a ∈ earlier.actions, ∀ b ∈ later.actions,
          [a, b].Sublist (ordered.map (·.id)) := by
  obtain ⟨ids, hids, h⟩ := Returns.bind_eq_pure.mp h
  obtain ⟨rfl, -⟩ :=
    fragmentActionIds_eq_ok (Returns.lift_eq_pure.mp (Returns.mapError_eq_pure.mp hids))
  obtain ⟨sources, hsources, h⟩ := Returns.bind_eq_pure.mp h
  obtain ⟨plan, hplan, h⟩ := Returns.bind_eq_pure.mp h
  obtain ⟨report, -, h⟩ := Returns.bind_eq_pure.mp h
  obtain ⟨covered, -, h⟩ := Returns.bind_eq_pure.mp h
  obtain rfl := Returns.pure_inj.mp h
  obtain ⟨evidence, order, final, hcomposed⟩ :=
    composePlanWithOrdering_eq_pure (Returns.mapError_eq_pure.mp hplan)
  have hsources' := Returns.unwrap_eq_pure.mp hsources
  have hids : plan.actions.map (·.id) = (List.range (fragmentItems fragments).length).map .mk := by
    rw [← length_draftsOf, ← hcomposed.length]
    refine List.ext_getElem (by simp) fun position hleft hright => ?_
    rw [List.length_map] at hleft
    have hid := (hcomposed.position (List.getElem?_eq_getElem hleft)).1
    simpa using hid
  refine ⟨plan.actions, hcomposed.orderedActions_eq hwell, ?_, fun action haction => ?_, ?_⟩
  · exact sourceMap_operations hlength hsources'
  · -- An ordered action sits at the position of its id, and the item there names its fragment.
    obtain ⟨position, hposition⟩ := List.mem_iff_getElem?.mp haction
    obtain ⟨hid, hdraft⟩ := hcomposed.position hposition
    obtain ⟨item, hitem⟩ : ∃ item, (fragmentItems fragments)[position]? = some item := by
      have hlt := (List.getElem?_eq_some_iff.mp hdraft).1
      rw [length_draftsOf] at hlt
      exact ⟨_, List.getElem?_eq_getElem hlt⟩
    obtain ⟨fragment, hfragment, -⟩ := mem_fragmentItems.mp (List.mem_of_getElem? hitem)
    have hlt : item.index < sources.length := by
      have hmap := congrArg List.length (sourceMap_operations hlength hsources')
      rw [List.length_map, List.length_map, hlength] at hmap
      rw [hmap]
      exact (List.getElem?_eq_some_iff.mp hfragment).1
    have howned := List.getElem?_eq_getElem hlt
    obtain ⟨operation, -, howns⟩ := sourceMap_owned hwell.keys hsources' howned
    exact ⟨_, List.getElem_mem hlt, howns.complete action.id item (hid ▸ hitem) rfl⟩
  · -- Ids count the items, so the order of the operations is the order of the numbers.
    intro i j earlier later hij hearlier hlater a ha b hb
    obtain ⟨first, -, hfirst⟩ := sourceMap_owned hwell.keys hsources' hearlier
    obtain ⟨second, -, hsecond⟩ := sourceMap_owned hwell.keys hsources' hlater
    obtain ⟨hlt, hbound⟩ := hfirst.ordered hsecond hij ha hb
    rw [hids]
    exact (pair_sublist_range hlt hbound).map ActionId.mk

/-- **Building a draft returns** a preview or an error. -/
theorem buildPreview_returns (keys : ContractKeys) (baseline : HistoricalBaseline)
    (draft : PlanDraft) : ∃ result, buildPreview keys baseline draft = some result := by
  refine Returns.exists_bind ⟨_, rfl⟩ fun _ hvalid => ?_
  refine Returns.exists_bind ⟨_, rfl⟩ fun ⟨fragments, intents⟩ hlowered => ?_
  have hdraft := validateDraft_eq_ok (Returns.lift_eq_pure.mp hvalid)
  have hall := (lowerOperations_sound (Returns.lift_eq_pure.mp hlowered)).2
  have hwell := wellFormed_lowered hdraft hall
  refine Returns.exists_bind (Returns.exists_mapError ⟨_, rfl⟩) fun ids hids => ?_
  obtain ⟨rfl, -⟩ :=
    fragmentActionIds_eq_ok (Returns.lift_eq_pure.mp (Returns.mapError_eq_pure.mp hids))
  obtain ⟨sources, hsources⟩ := sourceMap_isSome draft hwell.keys
  rw [hsources]
  refine Returns.exists_bind ⟨_, rfl⟩ fun sources' hsame => ?_
  obtain rfl := Option.some.inj (Returns.unwrap_eq_pure.mp hsame)
  refine Returns.exists_bind (Returns.exists_mapError composePlanWithOrdering_returns)
    fun plan hplan => ?_
  obtain ⟨evidence, order, final, hcomposed⟩ :=
    composePlanWithOrdering_eq_pure (Returns.mapError_eq_pure.mp hplan)
  refine Returns.exists_bind (Returns.exists_mapError hcomposed.analysePlan_returns) fun _ _ => ?_
  obtain ⟨covered, hcovered⟩ : ∃ covered, coverages draft plan sources = some covered := by
    refine (Support.option_mapM_of_forall fun entry hentry => ?_).imp fun _ h => h.1
    obtain ⟨index, howned⟩ := List.mem_iff_getElem?.mp (List.of_mem_zip hentry).2
    obtain ⟨operation, -, howns⟩ := sourceMap_owned hwell.keys hsources howned
    have hfound : ∀ id ∈ entry.2.actions, ∃ action, plan.actions[id.get]? = some action := by
      intro id hid
      obtain ⟨item, hitem, -⟩ := howns.sound id hid
      have hlt := (List.getElem?_eq_some_iff.mp hitem).1
      rw [← length_draftsOf, ← hcomposed.length] at hlt
      exact ⟨_, List.getElem?_eq_getElem hlt⟩
    obtain ⟨actions, hactions, -⟩ := Support.option_mapM_of_forall hfound
    exact ⟨_, by rw [hactions]; rfl⟩
  rw [hcovered]
  exact ⟨_, rfl⟩

/-- **Building a draft.**  Internal errors are unreachable; when validation succeeds, composition
never fails for an unresolved input, a planned node that exists or is created twice, or resources
without an order; and the ordered actions of the plan keep the order of the operations, each action
belonging to one of them. -/
theorem draft_build_sound (keys : ContractKeys) (baseline : HistoricalBaseline)
    (draft : PlanDraft) :
    (∀ error, buildPreview keys baseline draft = throw error → error.isInternal = false) ∧
    (validateDraft baseline draft = .ok () → ∀ source sources,
      buildPreview keys baseline draft = throw (.composition source sources) →
        (∀ action node, source ≠ .unresolvedInput action node) ∧
        (∀ node, source ≠ .plannedNodeAlreadyExists node) ∧
        (∀ node first second, source ≠ .duplicatePlannedNode node first second) ∧
        ∀ first second resource, source ≠ .ambiguousResourceOrder first second resource) ∧
    ∀ preview, buildPreview keys baseline draft = pure preview →
      ∃ ordered, preview.plan.orderedActions = some ordered ∧
        preview.sourceMap.map (·.operation) = draft.operations.map (·.id) ∧
        (∀ action ∈ ordered, ∃ owned ∈ preview.sourceMap, action.id ∈ owned.actions) ∧
        ∀ (i j : Nat) earlier later, i < j → preview.sourceMap[i]? = some earlier →
          preview.sourceMap[j]? = some later → ∀ a ∈ earlier.actions, ∀ b ∈ later.actions,
            [a, b].Sublist (ordered.map (·.id)) := by
  refine ⟨fun error herror => ?_, fun _ source sources herror => ?_, fun preview hpreview => ?_⟩
  · exact Bool.eq_false_iff.mpr fun hinternal =>
      buildPreview_spares.not_bad herror (.inl hinternal)
  · have hspared : ¬Structural source := fun hstructural =>
      buildPreview_spares.not_bad herror (.inr ⟨source, sources, rfl, hstructural⟩)
    refine ⟨?_, ?_, ?_, ?_⟩
    · rintro _ _ rfl
      exact hspared rfl
    · rintro _ rfl
      exact hspared rfl
    · rintro _ _ _ rfl
      exact hspared rfl
    · rintro _ _ _ rfl
      exact hspared rfl
  · obtain ⟨_, hvalid, h⟩ := Returns.bind_eq_pure.mp hpreview
    obtain ⟨⟨fragments, intents⟩, hlowered, h⟩ := Returns.bind_eq_pure.mp h
    have hdraft := validateDraft_eq_ok (Returns.lift_eq_pure.mp hvalid)
    have hall := (lowerOperations_sound (Returns.lift_eq_pure.mp hlowered)).2
    exact buildFragments_ordered (wellFormed_lowered hdraft hall) hall.length_eq h

/-- Two requests: a `tmpfs` at `/data`, then one at `/srv`. -/
def sampleDraft : PlanDraft where
  operations := [
    ⟨⟨1#128⟩, .mount ⟨.tmpfs, sampleTarget, [], .host⟩, none⟩,
    ⟨⟨2#128⟩, .mount ⟨.tmpfs, ⟨[.rootDir, .normal "srv"]⟩, [], .host⟩, none⟩]

/-- The action of the first request comes before that of the second. -/
theorem sample_draft_ordered : ∃ preview ordered,
    buildPreview sampleKeys ⟨1#128, sampleState, []⟩ sampleDraft = pure preview ∧
    preview.plan.orderedActions = some ordered ∧
    [(⟨0⟩ : ActionId), ⟨1⟩].Sublist (ordered.map (·.id)) := by
  have hbuild : (buildPreview sampleKeys ⟨1#128, sampleState, []⟩ sampleDraft).toOption.map
      (fun preview => preview.sourceMap.map (·.actions)) = some [[⟨0⟩], [⟨1⟩]] := by decide +kernel
  obtain ⟨preview, hpreview, hactions⟩ := Option.map_eq_some_iff.mp hbuild
  have hpreview := Returns.toOption_eq_some.mp hpreview
  obtain ⟨ordered, hordered, -, -, hsorted⟩ :=
    (draft_build_sound sampleKeys _ sampleDraft).2.2 preview hpreview
  obtain ⟨first, _, hfirst, hzero, hrest⟩ := List.map_eq_cons_iff.mp hactions
  obtain ⟨second, _, rfl, hone, -⟩ := List.map_eq_cons_iff.mp hrest
  refine ⟨preview, ordered, hpreview, hordered, ?_⟩
  exact hsorted 0 1 first second Nat.zero_lt_one (by rw [hfirst]; rfl) (by rw [hfirst]; rfl) _
    (hzero ▸ List.mem_cons_self) _ (hone ▸ List.mem_cons_self)

end Order

end DisksGraph
