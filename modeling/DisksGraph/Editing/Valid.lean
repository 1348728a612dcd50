import DisksGraph.Editing.Build

/-!
# Editing — Valid

What `validate_draft` of `build.rs` accepts.

* `SeenIdentities.foldl_check`: the identity loop raises no issue exactly when every operation has
  an identity of its own and every output is new; it has then collected both.
* `validateDraft_iff`: a draft passes exactly when it is `Accepted`.
-/

namespace DisksGraph

namespace SeenIdentities

variable {graph : NodeGraph} {seen : SeenIdentities} {operation : PlanOperation}

/-- What the loop asks of one operation, given what it has seen before. -/
structure Admits (graph : NodeGraph) (seen : SeenIdentities) (operation : PlanOperation) :
    Prop where
  named : operation.id.asUuid.isNil = false
  fresh : operation.id ∉ seen.operations
  created : operation.request.createsNode = operation.createdNode.isSome
  real : ∀ node ∈ operation.createdNode, node.asUuid.isNil = false
  absent : ∀ node ∈ operation.createdNode, graph.contains node = false
  unused : ∀ node ∈ operation.createdNode, node ∉ seen.outputs

/-- An operation that may follow adds no diagnostic. -/
theorem check_admitted (h : seen.Admits graph operation) :
    seen.check graph operation = { seen with
      operations := operation.id :: seen.operations
      outputs := operation.createdNode.toList ++ seen.outputs } := by
  have hoperation : seen.checkOperation operation =
      { seen with operations := operation.id :: seen.operations } := by
    rw [checkOperation, if_neg (by simp [h.named, h.fresh])]
  rw [check, hoperation, checkCreated, if_neg (by simp [h.created]), checkOutput]
  cases hcreated : operation.createdNode with
  | none => rfl
  | some node =>
      have hreal := h.real node hcreated
      have habsent := h.absent node hcreated
      have hunused := h.unused node hcreated
      simp only [hreal, habsent, hunused, Bool.or_self, decide_false, Bool.false_eq_true, if_false]
      rfl

/-- An issue is never taken back. -/
theorem issue_ne_nil (owner : Option OperationId) (code message : String) :
    (seen.issue owner code message).diagnostics ≠ [] :=
  List.append_ne_nil_of_right_ne_nil _ (List.cons_ne_nil _ _)

theorem checkOperation_clean (h : (seen.checkOperation operation).diagnostics = []) :
    operation.id.asUuid.isNil = false ∧ operation.id ∉ seen.operations ∧
      seen.checkOperation operation =
        { seen with operations := operation.id :: seen.operations } := by
  unfold checkOperation at h ⊢
  split at h
  · exact absurd h (issue_ne_nil _ _ _)
  · next hnew =>
    rw [if_neg hnew]
    simp only [Bool.or_eq_true, decide_eq_true_eq, not_or, Bool.not_eq_true] at hnew
    exact ⟨hnew.1, hnew.2, rfl⟩

theorem checkCreated_clean (h : (seen.checkCreated operation).diagnostics = []) :
    operation.request.createsNode = operation.createdNode.isSome ∧
      seen.checkCreated operation = seen := by
  unfold checkCreated at h ⊢
  split at h
  · exact absurd h (issue_ne_nil _ _ _)
  · next hcreated =>
    rw [if_neg hcreated]
    exact ⟨not_not.mp hcreated, rfl⟩

theorem checkOutput_clean (h : (seen.checkOutput graph operation).diagnostics = []) :
    seen.diagnostics = [] ∧ ∀ node ∈ operation.createdNode, node.asUuid.isNil = false ∧
      graph.contains node = false ∧ node ∉ seen.outputs := by
  unfold checkOutput at h
  cases hcreated : operation.createdNode with
  | none =>
      rw [hcreated] at h
      exact ⟨h, nofun⟩
  | some node =>
      rw [hcreated] at h
      dsimp only at h
      split at h
      · exact absurd h (issue_ne_nil _ _ _)
      · next hnew =>
        simp only [Bool.or_eq_true, decide_eq_true_eq, not_or, Bool.not_eq_true] at hnew
        refine ⟨h, fun other hother => ?_⟩
        obtain rfl := Option.some.inj hother
        exact ⟨hnew.1.1, hnew.1.2, hnew.2⟩

/-- An operation that adds no diagnostic may follow those seen. -/
theorem check_clean (h : (seen.check graph operation).diagnostics = []) :
    seen.diagnostics = [] ∧ seen.Admits graph operation := by
  obtain ⟨hcreated, houtput⟩ := checkOutput_clean h
  obtain ⟨hkind, hsame⟩ := checkCreated_clean hcreated
  rw [hsame] at hcreated houtput
  obtain ⟨hnamed, hfresh, hoperation⟩ := checkOperation_clean hcreated
  rw [hoperation] at hcreated houtput
  exact ⟨hcreated, hnamed, hfresh, hkind, fun node hnode => (houtput node hnode).1,
    fun node hnode => (houtput node hnode).2.1, fun node hnode => (houtput node hnode).2.2⟩

end SeenIdentities

/-- Operations with identities and outputs of their own. -/
structure Identified (graph : NodeGraph) (operations : List PlanOperation) : Prop where
  named : ∀ operation ∈ operations, operation.id.asUuid.isNil = false
  ids : (operations.map (·.id)).Nodup
  created : ∀ operation ∈ operations,
    operation.request.createsNode = operation.createdNode.isSome
  real : ∀ node ∈ operations.filterMap (·.createdNode), node.asUuid.isNil = false
  absent : ∀ node ∈ operations.filterMap (·.createdNode), graph.contains node = false
  outputs : (operations.filterMap (·.createdNode)).Nodup

/-- Fewer operations keep identities and outputs of their own. -/
theorem Identified.sublist {graph : NodeGraph} {operations fewer : List PlanOperation}
    (h : Identified graph operations) (hsub : fewer.Sublist operations) :
    Identified graph fewer where
  named operation hmem := h.named operation (hsub.subset hmem)
  ids := h.ids.sublist (hsub.map _)
  created operation hmem := h.created operation (hsub.subset hmem)
  real node hmem := h.real node ((hsub.filterMap _).subset hmem)
  absent node hmem := h.absent node ((hsub.filterMap _).subset hmem)
  outputs := h.outputs.sublist (hsub.filterMap _)

namespace SeenIdentities

variable {graph : NodeGraph} {start : SeenIdentities}

theorem mem_outputs_concat {operations : List PlanOperation} {operation : PlanOperation}
    {node : NodeId} : node ∈ (operations ++ [operation]).filterMap (·.createdNode) ↔
      node ∈ operations.filterMap (·.createdNode) ∨ node ∈ operation.createdNode := by
  simp [List.filterMap_append]

/-- The loop admits one more operation exactly when it adds an identity and outputs of its own. -/
theorem identified_concat {operations : List PlanOperation} {operation : PlanOperation}
    {diagnostics : List OperationDiagnostic} :
    Identified graph (operations ++ [operation]) ↔ Identified graph operations ∧
      Admits graph ⟨diagnostics, (operations.map (·.id)).reverse,
        (operations.filterMap (·.createdNode)).reverse⟩ operation := by
  constructor
  · intro h
    refine ⟨h.sublist (List.sublist_append_left _ _), ?_⟩
    have hmem : operation ∈ operations ++ [operation] := by simp
    have hids := h.ids
    have houtputs := h.outputs
    rw [List.map_append, List.nodup_append] at hids
    rw [List.filterMap_append, List.nodup_append] at houtputs
    have hcreated : ∀ node ∈ operation.createdNode,
        node ∈ [operation].filterMap (·.createdNode) := by
      intro node hnode
      simpa using hnode
    refine ⟨h.named _ hmem, ?_, h.created _ hmem, fun node hnode => ?_, fun node hnode => ?_,
      fun node hnode => ?_⟩
    · -- The loop collects in reverse; membership is all that it asks.
      intro hold
      exact hids.2.2 _ (List.mem_reverse.mp hold) _ (List.mem_singleton.mpr rfl) rfl
    · exact h.real node (List.mem_filterMap.mpr ⟨operation, hmem, hnode⟩)
    · exact h.absent node (List.mem_filterMap.mpr ⟨operation, hmem, hnode⟩)
    · intro hold
      exact houtputs.2.2 _ (List.mem_reverse.mp hold) _ (hcreated node hnode) rfl
  · rintro ⟨h, hadmits⟩
    have hmem : ∀ other ∈ operations ++ [operation], other ∈ operations ∨ other = operation := by
      simp
    refine ⟨fun other hother => ?_, ?_, fun other hother => ?_, fun node hnode => ?_,
      fun node hnode => ?_, ?_⟩
    · rcases hmem other hother with hold | rfl
      · exact h.named other hold
      · exact hadmits.named
    · rw [List.map_append, List.nodup_append]
      refine ⟨h.ids, List.nodup_singleton _, ?_⟩
      rintro id hid _ hother rfl
      have hsame : id = operation.id := by simpa using hother
      exact hadmits.fresh (List.mem_reverse.mpr (hsame ▸ hid))
    · rcases hmem other hother with hold | rfl
      · exact h.created other hold
      · exact hadmits.created
    · rcases mem_outputs_concat.mp hnode with hold | hnew
      · exact h.real node hold
      · exact hadmits.real node hnew
    · rcases mem_outputs_concat.mp hnode with hold | hnew
      · exact h.absent node hold
      · exact hadmits.absent node hnew
    · rw [List.filterMap_append, List.nodup_append]
      refine ⟨h.outputs, ?_, ?_⟩
      · cases hcreated : operation.createdNode with
        | none => simp [hcreated]
        | some node => simp [hcreated]
      · rintro node hnode _ hother rfl
        have hnew : node ∈ operation.createdNode := by simpa using hother
        exact hadmits.unused node hnew (List.mem_reverse.mpr hnode)

/-- **The identity loop**: it raises no issue exactly when it has none at the start and every
operation brings an identity and outputs of its own, and it has then collected both. -/
theorem foldl_check (hoperations : start.operations = []) (houtputs : start.outputs = [])
    (operations : List PlanOperation) :
    ((operations.foldl (check graph) start).diagnostics = [] ↔
      start.diagnostics = [] ∧ Identified graph operations) ∧
    ((operations.foldl (check graph) start).diagnostics = [] →
      operations.foldl (check graph) start = ⟨[], (operations.map (·.id)).reverse,
        (operations.filterMap (·.createdNode)).reverse⟩) := by
  induction operations using List.reverseRecOn with
  | nil =>
      obtain ⟨diagnostics, _, _⟩ := start
      subst hoperations houtputs
      refine ⟨⟨fun h => ⟨h, ⟨nofun, List.nodup_nil, nofun, nofun, nofun, List.nodup_nil⟩⟩,
        fun h => h.1⟩, ?_⟩
      rintro rfl
      rfl
  | append_singleton operations operation ih =>
      obtain ⟨hiff, hcollected⟩ := ih
      rw [List.foldl_concat]
      have hclean : ((operations.foldl (check graph) start).check graph operation).diagnostics =
          [] ↔ start.diagnostics = [] ∧ Identified graph (operations ++ [operation]) := by
        constructor
        · intro h
          obtain ⟨hbefore, hadmits⟩ := check_clean h
          obtain ⟨hstart, hidentified⟩ := hiff.mp hbefore
          rw [hcollected hbefore] at hadmits
          exact ⟨hstart, identified_concat.mpr ⟨hidentified, hadmits⟩⟩
        · rintro ⟨hstart, h⟩
          obtain ⟨hidentified, hadmits⟩ := identified_concat.mp h
          have hbefore := hiff.mpr ⟨hstart, hidentified⟩
          rw [hcollected hbefore, check_admitted hadmits]
      refine ⟨hclean, fun h => ?_⟩
      obtain ⟨hidentified, hadmits⟩ := identified_concat.mp (hclean.mp h).2
      rw [hcollected (hiff.mpr ⟨(hclean.mp h).1, hidentified⟩), check_admitted hadmits,
        List.map_append, List.reverse_append, List.filterMap_append, List.reverse_append]
      cases hcreated : operation.createdNode with
      | none => simp [hcreated]
      | some node => simp [hcreated]

end SeenIdentities

/-! ### Validated drafts -/

/-- What validation establishes about a draft. -/
structure PlanDraft.Validated (baseline : HistoricalBaseline) (draft : PlanDraft) : Prop where
  outputs : (draft.operations.filterMap (·.createdNode)).Nodup
  absent : ∀ node ∈ draft.operations.filterMap (·.createdNode),
    baseline.snapshot.graph.contains node = false
  inputs : ∀ operation ∈ draft.operations, ∀ node ∈ operation.request.referencedNodes,
    baseline.snapshot.graph.contains node = true ∨
      node ∈ draft.operations.filterMap (·.createdNode)

/-- Everything that validation asks of a draft. -/
structure PlanDraft.Accepted (baseline : HistoricalBaseline) (draft : PlanDraft) : Prop where
  named : baseline.id.isNil = false
  identified : Identified baseline.snapshot.graph draft.operations
  inputs : ∀ operation ∈ draft.operations, ∀ node ∈ operation.request.referencedNodes,
    baseline.snapshot.graph.contains node = true ∨
      node ∈ draft.operations.filterMap (·.createdNode)

/-- An accepted draft is validated. -/
theorem PlanDraft.Accepted.validated {baseline : HistoricalBaseline} {draft : PlanDraft}
    (h : draft.Accepted baseline) : draft.Validated baseline :=
  ⟨h.identified.outputs, h.identified.absent, h.inputs⟩

/-- Every input is resolved when no operation reports one that is not. -/
theorem unresolvedInputs_eq_nil {graph : NodeGraph} {outputs : List NodeId}
    {operations : List PlanOperation} :
    operations.flatMap (unresolvedInputs graph outputs) = [] ↔
      ∀ operation ∈ operations, ∀ node ∈ operation.request.referencedNodes,
        graph.contains node = true ∨ node ∈ outputs := by
  rw [List.flatMap_eq_nil_iff]
  refine forall₂_congr fun operation _ => ?_
  rw [unresolvedInputs, List.map_eq_nil_iff, List.filter_eq_nil_iff]
  refine forall₂_congr fun node _ => ?_
  by_cases hcontains : graph.contains node = true
  · simp [hcontains]
  · simp [hcontains]

/-- **Validation accepts a draft exactly when it is `Accepted`.** -/
theorem validateDraft_iff {baseline : HistoricalBaseline} {draft : PlanDraft} :
    validateDraft baseline draft = .ok () ↔ draft.Accepted baseline := by
  unfold validateDraft
  dsimp only
  generalize hstart : (if baseline.id.isNil = true then ({} : SeenIdentities).issue none
    "draft.baseline_identity" "baseline identity must not be nil" else {}) = start
  have hbaseline : start.diagnostics = [] ↔ baseline.id.isNil = false := by
    rw [← hstart]
    cases baseline.id.isNil with
    | true => simp [SeenIdentities.issue]
    | false => simp
  have hempty : start.operations = [] ∧ start.outputs = [] := by
    rw [← hstart]
    cases baseline.id.isNil with
    | true => exact ⟨rfl, rfl⟩
    | false => exact ⟨rfl, rfl⟩
  obtain ⟨hiff, hcollected⟩ := @SeenIdentities.foldl_check baseline.snapshot.graph start
    hempty.1 hempty.2 draft.operations
  rw [hbaseline] at hiff
  generalize draft.operations.foldl _ start = seen at hiff hcollected
  have hresult : (if (seen.diagnostics ++ draft.operations.flatMap
      (unresolvedInputs baseline.snapshot.graph seen.outputs)).isEmpty = true then Except.ok ()
      else Except.error (DraftBuildError.draft (seen.diagnostics ++ draft.operations.flatMap
        (unresolvedInputs baseline.snapshot.graph seen.outputs)))) = .ok () ↔
      seen.diagnostics = [] ∧ draft.operations.flatMap
        (unresolvedInputs baseline.snapshot.graph seen.outputs) = [] := by
    rw [← List.append_eq_nil_iff, ← List.isEmpty_iff]
    split
    · next hnil => exact iff_of_true rfl hnil
    · next hsome => exact iff_of_false nofun hsome
  rw [hresult, unresolvedInputs_eq_nil]
  constructor
  · rintro ⟨hclean, hinputs⟩
    rw [hcollected hclean] at hinputs
    simp only [List.mem_reverse] at hinputs
    exact ⟨(hiff.mp hclean).1, (hiff.mp hclean).2, hinputs⟩
  · rintro ⟨hnamed, hidentified, hinputs⟩
    have hclean := hiff.mpr ⟨hnamed, hidentified⟩
    rw [hcollected hclean]
    simp only [List.mem_reverse]
    exact ⟨trivial, hinputs⟩

/-- `validate_draft` accepts only validated drafts. -/
theorem validateDraft_eq_ok {baseline : HistoricalBaseline} {draft : PlanDraft}
    (h : validateDraft baseline draft = .ok ()) : draft.Validated baseline :=
  (validateDraft_iff.mp h).validated

end DisksGraph
