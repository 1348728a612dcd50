import DisksGraph.Editing.Lowered

/-!
# Editing — Coverage

The four readings of one request: its lowering (`lower.rs`), its coverage (`coverage.rs`), its own
inputs (`request.rs`) and the inputs that composition finds in its actions (`compose.rs`).

* `coveredBy_iff`: the coverage check accepts exactly the lowered actions.
* `lowering_coverage_agree`: the four agree on every request that is lowered.
-/

namespace DisksGraph

section Coverage

variable {operation : PlanOperation} {request : PlanRequest} {createdNode : Option NodeId}
  {index : Option Nat} {recipe : Recipe} {fragment : PlanFragment} {actions : List ProviderAction}

/-- The creation of a volume, which its activation may follow. -/
theorem coveredBy_createLv {node vg : NodeId} {name : String} {size : Bytes} {activate : Bool}
    (h : (PlanRequest.createLv vg name size .linear activate).coveredBy
      (some node) actions = true) :
    actions = .lvm (.createLv vg node name size .linear) ::
      if activate then [.lvm (.setActivation node true)] else [] := by
  unfold PlanRequest.coveredBy at h
  split at h
  case h_4 tail heq =>
    obtain ⟨rfl, rfl, rfl, rfl, rfl⟩ := PlanRequest.createLv.inj heq
    simp only [Bool.and_eq_true, beq_iff_eq, Option.some.injEq] at h
    obtain ⟨⟨⟨⟨⟨⟨-, rfl⟩, rfl⟩, rfl⟩, rfl⟩, rfl⟩, htail⟩ := h
    cases activate with
    | false => rw [List.isEmpty_iff.mp htail, if_neg Bool.false_ne_true]
    | true =>
        rw [if_pos rfl] at htail ⊢
        split at htail
        · rw [beq_iff_eq.mp htail]
        · cases htail
  all_goals simp_all

/-- A mount is covered by the four fields of its entry. -/
theorem coveredBy_mount {entry : MountEntry}
    (h : (PlanRequest.mount entry).coveredBy createdNode actions = true) :
    actions = [.mount (.mount entry.source entry.target entry.options entry.context)] := by
  unfold PlanRequest.coveredBy at h
  split at h
  case h_11 heq =>
    obtain rfl := PlanRequest.mount.inj heq
    simp only [Bool.and_eq_true, beq_iff_eq] at h
    obtain ⟨⟨⟨rfl, rfl⟩, rfl⟩, rfl⟩ := h
    rfl
  all_goals simp_all

/-- A request is covered by the actions of its recipe. -/
theorem PlanRequest.coveredBy_recipe (hcreated : request.createsNode = createdNode.isSome)
    (h : request.recipe createdNode index = .ok recipe) :
    request.coveredBy createdNode recipe.operations = true := by
  cases request with
  | createLv vg name size layout activate =>
      obtain ⟨node, rfl⟩ := Option.isSome_iff_exists.mp hcreated.symm
      rw [PlanRequest.recipe] at h
      split at h
      · cases h
      · next hlayout =>
        obtain rfl := Except.ok.inj h
        obtain rfl := Decidable.not_not.mp hlayout
        -- The recipe of a volume adds the activation only when it is asked for.
        cases activate <;> simp [PlanRequest.coveredBy]
  | createFilesystem backing filesystem label =>
      obtain ⟨node, rfl⟩ := Option.isSome_iff_exists.mp hcreated.symm
      rw [PlanRequest.recipe] at h
      split at h
      · cases h
      · next hkind =>
        obtain rfl := Except.ok.inj h
        obtain rfl := Decidable.not_not.mp hkind
        simp [PlanRequest.coveredBy]
  | createPartition | formatLuks | openLuks =>
      obtain ⟨node, rfl⟩ := Option.isSome_iff_exists.mp hcreated.symm
      obtain rfl := Except.ok.inj h
      simp [PlanRequest.coveredBy]
  | maintenance intent =>
      cases intent with
      | check target force =>
          cases index with
          | none => cases h
          | some index =>
              obtain rfl := Except.ok.inj h
              simp [PlanRequest.coveredBy, actionsCoverIntent]
      | _ => cases h
  | _ =>
      obtain rfl := Except.ok.inj h
      simp [PlanRequest.coveredBy]

/-- Nothing but the actions of its recipe covers a request. -/
theorem PlanRequest.recipe_of_coveredBy (hcreated : request.createsNode = createdNode.isSome)
    (h : request.recipe createdNode index = .ok recipe)
    (hcovered : request.coveredBy createdNode actions = true) : actions = recipe.operations := by
  cases request with
  | createLv vg name size layout activate =>
      obtain ⟨node, rfl⟩ := Option.isSome_iff_exists.mp hcreated.symm
      rw [PlanRequest.recipe] at h
      split at h
      · cases h
      · next hlayout =>
        obtain rfl := Except.ok.inj h
        obtain rfl := Decidable.not_not.mp hlayout
        exact coveredBy_createLv hcovered
  | createFilesystem backing filesystem label =>
      obtain ⟨node, rfl⟩ := Option.isSome_iff_exists.mp hcreated.symm
      rw [PlanRequest.recipe] at h
      split at h
      · cases h
      · next hkind =>
        obtain rfl := Except.ok.inj h
        obtain rfl := Decidable.not_not.mp hkind
        unfold PlanRequest.coveredBy at hcovered
        split at hcovered <;> simp_all
  | maintenance intent =>
      cases intent with
      | check target force =>
          cases index with
          | none => cases h
          | some index =>
              obtain rfl := Except.ok.inj h
              unfold PlanRequest.coveredBy at hcovered
              split at hcovered <;> simp_all [actionsCoverIntent]
      | _ => cases h
  | mount entry =>
      obtain rfl := Except.ok.inj h
      exact coveredBy_mount hcovered
  | createPartition | formatLuks | openLuks =>
      obtain ⟨node, rfl⟩ := Option.isSome_iff_exists.mp hcreated.symm
      obtain rfl := Except.ok.inj h
      unfold PlanRequest.coveredBy at hcovered
      split at hcovered <;> simp_all
  | _ =>
      obtain rfl := Except.ok.inj h
      unfold PlanRequest.coveredBy at hcovered
      split at hcovered <;> simp_all

/-- **The coverage check accepts exactly the actions of the recipe.** -/
theorem PlanRequest.coveredBy_iff (hcreated : request.createsNode = createdNode.isSome)
    (h : request.recipe createdNode index = .ok recipe) :
    request.coveredBy createdNode actions = true ↔ actions = recipe.operations := by
  refine ⟨request.recipe_of_coveredBy hcreated h, ?_⟩
  rintro rfl
  exact request.coveredBy_recipe hcreated h

/-- The first action of a recipe reads exactly the inputs of its request. -/
theorem PlanRequest.recipe_inputs (h : request.recipe createdNode index = .ok recipe) :
    ∃ first ∈ recipe.operations, actionInputs first = request.referencedNodes := by
  cases request with
  | createPartition | formatLuks | openLuks =>
      cases createdNode with
      | none => cases h
      | some node =>
          obtain rfl := Except.ok.inj h
          exact ⟨_, List.mem_cons_self, rfl⟩
  | createLv | createFilesystem =>
      rw [PlanRequest.recipe] at h
      split at h
      · cases h
      · cases createdNode with
        | none => cases h
        | some node =>
            obtain rfl := Except.ok.inj h
            exact ⟨_, List.mem_cons_self, rfl⟩
  | maintenance intent =>
      cases intent with
      | check target force =>
          cases index with
          | none => cases h
          | some index =>
              obtain rfl := Except.ok.inj h
              exact ⟨_, List.mem_cons_self, rfl⟩
      | _ => cases h
  | _ =>
      obtain rfl := Except.ok.inj h
      exact ⟨_, List.mem_cons_self, rfl⟩

theorem Recipe.fragment_operations :
    recipe.fragment.actions.map (·.operation) = recipe.operations := by
  rw [Recipe.fragment, List.map_map]
  exact List.zipIdx_map_fst 0 recipe.operations

/-- **`lowering_coverage_agree`** — a lowered request is covered by exactly its own actions, which
create its output and nothing else, and read exactly its inputs and that output. -/
theorem lowering_coverage_agree (h : lowerOperation operation index = .ok fragment) :
    (∀ actions, (requestCoverage operation actions).covered = true ↔
      actions = fragment.actions.map (·.operation)) ∧
    fragment.actions.filterMap (fun action => plannedNode action.operation) =
      operation.createdNode.toList ∧
    ∀ node, (node ∈ operation.request.referencedNodes ∨ operation.createdNode = some node) ↔
      ((∃ action ∈ fragment.actions, node ∈ referencedNodes action.operation) ∨
        operation.createdNode = some node) := by
  obtain ⟨hcreated, recipe, hrecipe, rfl⟩ := lowerOperation_eq_ok.mp h
  have hsound := operation.recipe_sound hcreated hrecipe
  have hoperations := @Recipe.fragment_operations recipe
  have haction : ∀ {node}, (∃ action ∈ recipe.fragment.actions,
      node ∈ referencedNodes action.operation) ↔
        ∃ action ∈ recipe.operations, node ∈ actionInputs action := by
    intro node
    rw [← hoperations]
    simp only [mem_referencedNodes, List.mem_map, exists_exists_and_eq_and]
  refine ⟨fun actions => ?_, ?_, fun node => ?_⟩
  · rw [hoperations]
    exact PlanRequest.coveredBy_iff hcreated hrecipe
  · rw [← hsound.outputs, ← hoperations, List.filterMap_map]
    rfl
  · rw [haction]
    constructor
    · rintro (hinput | houtput)
      · obtain ⟨first, hfirst, hinputs⟩ := PlanRequest.recipe_inputs hrecipe
        exact .inl ⟨first, hfirst, hinputs ▸ hinput⟩
      · exact .inr houtput
    · rintro (⟨action, hmem, hinput⟩ | houtput)
      · exact hsound.inputs action hmem node hinput
      · exact .inr houtput

/-- The creation of a volume that is activated at once. -/
theorem lowering_coverage_agree_createLv : ∃ fragment,
    lowerOperation ⟨⟨1#128⟩, .createLv ⟨3#128⟩ "data" 4096 .linear true, some ⟨4#128⟩⟩ none =
        .ok fragment ∧
      fragment.actions.filterMap (fun action => plannedNode action.operation) = [⟨4#128⟩] := by
  obtain ⟨fragment, hlowered⟩ : ∃ fragment, lowerOperation
      ⟨⟨1#128⟩, .createLv ⟨3#128⟩ "data" 4096 .linear true, some ⟨4#128⟩⟩ none = .ok fragment :=
    ⟨_, rfl⟩
  exact ⟨fragment, hlowered, (lowering_coverage_agree hlowered).2.1⟩

end Coverage

end DisksGraph
