import DisksGraph.Editing.Session

/-!
# Editing — Removal

What a removal takes with it (`removal_impact` and `remove_operations` of `session.rs`).

* `Affected`: the selected operations and, transitively, those that use a node they create.
* `impactLoop_spec`: the repeated passes end at exactly this set, also on cyclic references.
* `removal_impact_least`: the impact in draft order, when a removal succeeds, and what it leaves.
-/

namespace DisksGraph

open Support (Returns)

variable {draft : PlanDraft} {selected affected result : List OperationId} {id : OperationId}

/-- The operations that cannot stay when the selected ones go. -/
inductive Affected (draft : PlanDraft) (selected : List OperationId) : OperationId → Prop
  | selected {id : OperationId} (h : id ∈ selected) : Affected draft selected id
  | uses {producer operation : PlanOperation} {node : NodeId}
      (hproducer : producer ∈ draft.operations) (haffected : Affected draft selected producer.id)
      (hcreated : producer.createdNode = some node) (hoperation : operation ∈ draft.operations)
      (hnode : node ∈ operation.request.referencedNodes) : Affected draft selected operation.id

/-! ### The passes -/

/-- What one pass adds: the operations that use an output of an affected one. -/
theorem mem_impactRound : id ∈ impactRound draft affected ↔ id ∈ affected ∨
    ∃ operation ∈ draft.operations, operation.id = id ∧ ∃ producer ∈ draft.operations,
      producer.id ∈ affected ∧ ∃ node, producer.createdNode = some node ∧
        node ∈ operation.request.referencedNodes := by
  have huses : ∀ operation : PlanOperation, (operation.request.referencedNodes.any
      (· ∈ (draft.operations.filter fun operation =>
        operation.id ∈ affected).filterMap (·.createdNode))) = true ↔
      ∃ producer ∈ draft.operations, producer.id ∈ affected ∧ ∃ node,
        producer.createdNode = some node ∧ node ∈ operation.request.referencedNodes := by
    intro operation
    simp only [List.any_eq_true, decide_eq_true_eq, List.mem_filterMap, List.mem_filter]
    constructor
    · rintro ⟨node, hnode, producer, ⟨hproducer, haffected⟩, hcreated⟩
      exact ⟨producer, hproducer, haffected, node, hcreated, hnode⟩
    · rintro ⟨producer, hproducer, haffected, node, hcreated, hnode⟩
      exact ⟨node, hnode, producer, ⟨hproducer, haffected⟩, hcreated⟩
  rw [impactRound, Support.foldl_view (V := fun (s : List OperationId) b => b ∈ s)
    (E := fun (operation : PlanOperation) b => operation.id = b ∧
      operation.request.referencedNodes.any (· ∈ (draft.operations.filter fun operation =>
        operation.id ∈ affected).filterMap (·.createdNode)) = true)]
  · simp only [huses]
  · intro s operation b
    split
    · next huse => simp [List.mem_insert_iff, huse, or_comm, eq_comm]
    · next huse => simp only [huse, Bool.false_eq_true, and_false, or_false]

/-- A pass keeps what it starts from, in place. -/
theorem sublist_impactRound (draft : PlanDraft) (affected : List OperationId) :
    affected.Sublist (impactRound draft affected) := by
  refine List.foldlRecOn draft.operations _ (motive := affected.Sublist) (List.Sublist.refl _)
    fun next hnext operation _ => ?_
  split
  · exact hnext.trans (List.sublist_insert operation.id next)
  · exact hnext

/-- The passes end at the affected operations: everything they add is affected, and the last pass,
which adds nothing, shows that nothing is missing. -/
theorem impactLoop_spec {rounds : Nat} (hselected : selected ⊆ affected)
    (haffected : ∀ id ∈ affected, Affected draft selected id)
    (h : impactLoop draft rounds affected = some result) :
    id ∈ result ↔ Affected draft selected id := by
  induction rounds generalizing affected with
  | zero => cases h
  | succ rounds ih =>
      rw [impactLoop] at h
      split at h
      · next hlength =>
          obtain rfl := Option.some.inj h
          have hclosed : impactRound draft affected = affected :=
            ((sublist_impactRound draft affected).eq_of_length hlength.symm).symm
          refine ⟨haffected id, fun hid => ?_⟩
          clear ih h
          induction hid with
          | selected h => exact hselected h
          | @uses producer operation node hproducer _ hcreated hoperation hnode ih =>
              rw [← hclosed, mem_impactRound]
              exact .inr ⟨operation, hoperation, rfl, producer, hproducer, ih, node, hcreated,
                hnode⟩
      · refine ih (fun id hid => (sublist_impactRound draft affected).subset (hselected hid))
          (fun id hid => ?_) h
        rcases mem_impactRound.mp hid with hold | ⟨operation, hoperation, rfl, producer, hproducer,
          hmem, node, hcreated, hnode⟩
        · exact haffected id hold
        · exact .uses hproducer (haffected _ hmem) hcreated hoperation hnode

/-- Every selected identity belongs to an operation of the draft. -/
theorem operationIndex_of_mem (h : id ∈ draft.operations.map (·.id)) :
    ∃ index, operationIndex draft id = .ok index := by
  rw [operationIndex]
  split
  · next hnone =>
      obtain ⟨operation, hoperation, rfl⟩ := List.mem_map.mp h
      simpa using List.findIdx?_eq_none_iff.mp hnone operation hoperation
  · exact ⟨_, rfl⟩

/-- The impact of a selection of operations of the draft. -/
theorem removalImpact_eq (hselected : selected ⊆ draft.operations.map (·.id)) :
    ∃ affected : List OperationId, removalImpact draft selected =
        pure ((draft.operations.filter fun operation => decide (operation.id ∈ affected)).map
          (·.id)) ∧
      ∀ id, id ∈ affected ↔ Affected draft selected id := by
  have hknown : (selected.forM fun operation => (do let _ ← operationIndex draft operation)) =
      .ok () := by
    refine Support.except_forM_eq_ok.mpr fun operation hoperation => ?_
    obtain ⟨index, hindex⟩ := operationIndex_of_mem (hselected hoperation)
    rw [hindex]
    rfl
  obtain ⟨affected, haffected⟩ := impactLoop_ends hselected
  have hstart : ∀ id, id ∈ selected.foldl (fun selected operation => selected.insert operation) [] ↔
      id ∈ selected := by
    intro id
    rw [Support.foldl_view (V := fun (s : List OperationId) b => b ∈ s) (E := fun a b => b = a)
      fun s a b => by rw [List.mem_insert_iff, or_comm]]
    simp
  refine ⟨affected, ?_, fun id => impactLoop_spec (fun id hid => (hstart id).mpr hid)
    (fun id hid => .selected ((hstart id).mp hid)) haffected⟩
  rw [removalImpact, hknown, haffected]
  rfl

/-! ### Removing -/

/-- A removal of known operations succeeds exactly when nothing else is affected. -/
theorem removeOperations_eq_pure {next : PlanDraft}
    (hselected : selected ⊆ draft.operations.map (·.id)) :
    removeOperations draft selected = pure next ↔
      (∀ id, Affected draft selected id → id ∈ selected) ∧
      next = { draft with
        operations := draft.operations.filter fun operation => operation.id ∉ selected } := by
  obtain ⟨affected, himpact, haffected⟩ := removalImpact_eq hselected
  have hmissing : (((draft.operations.filter fun operation =>
      decide (operation.id ∈ affected)).map (·.id)).filter fun operation =>
        operation ∉ selected) = [] ↔ ∀ id, Affected draft selected id → id ∈ selected := by
    simp only [List.filter_eq_nil_iff, List.mem_map, List.mem_filter, decide_eq_true_eq,
      not_not, haffected]
    constructor
    · intro h id hid
      cases hid with
      | selected h => exact h
      | uses hproducer hbefore hcreated hoperation hnode =>
          exact h _ ⟨_, ⟨hoperation, .uses hproducer hbefore hcreated hoperation hnode⟩, rfl⟩
    · rintro h _ ⟨operation, ⟨-, hid⟩, rfl⟩
      exact h _ hid
  rw [removeOperations, himpact, pure_bind, ← hmissing]
  split
  · next hnone =>
      rw [hnone, Returns.pure_inj]
      exact ⟨fun h => ⟨rfl, h.symm⟩, fun h => h.2.symm⟩
  · next hsome => exact ⟨fun h => absurd h Returns.throw_ne_pure, fun h => absurd h.1 hsome⟩

/-- When everything affected goes, what stays is still supplied. -/
theorem PlanDraft.Accepted.remove {baseline : HistoricalBaseline} (h : draft.Accepted baseline)
    (hclosed : ∀ id, Affected draft selected id → id ∈ selected) :
    PlanDraft.Accepted baseline { draft with
      operations := draft.operations.filter fun operation => operation.id ∉ selected } where
  named := h.named
  identified := h.identified.sublist List.filter_sublist
  inputs := by
    intro operation hoperation node hnode
    obtain ⟨hmem, hkept⟩ := List.mem_filter.mp hoperation
    rcases h.inputs operation hmem node hnode with hobserved | houtput
    · exact .inl hobserved
    · right
      obtain ⟨producer, hproducer, hcreated⟩ := List.mem_filterMap.mp houtput
      refine List.mem_filterMap.mpr ⟨producer, List.mem_filter.mpr ⟨hproducer, ?_⟩, hcreated⟩
      -- a producer that goes takes the operation that uses it along
      by_contra hgone
      have hselected : producer.id ∈ selected := by simpa using hgone
      have haffected := hclosed _ (.uses hproducer (.selected hselected) hcreated hmem hnode)
      simp [haffected] at hkept

open Classical in
/-- **The removal impact is the least closed set.**  For operations of the draft it is computed and
lists, in draft order, exactly the operations that are selected or that use, transitively, a node
created by an affected operation.  Removing succeeds exactly when the selection is that set; it then
removes exactly these operations, and a draft that passed validation still passes. -/
theorem removal_impact_least (draft : PlanDraft) (selected : List OperationId)
    (hselected : selected ⊆ draft.operations.map (·.id)) :
    removalImpact draft selected = pure ((draft.operations.filter fun operation =>
      decide (Affected draft selected operation.id)).map (·.id)) ∧
    ((∃ next, removeOperations draft selected = pure next) ↔
      ∀ id, id ∈ selected ↔ Affected draft selected id) ∧
    ∀ next, removeOperations draft selected = pure next →
      next = { draft with
        operations := draft.operations.filter fun operation =>
          decide (¬Affected draft selected operation.id) } ∧
      ∀ baseline, validateDraft baseline draft = .ok () → validateDraft baseline next = .ok () := by
  refine ⟨?_, ?_, fun next hnext => ?_⟩
  · obtain ⟨affected, himpact, haffected⟩ := removalImpact_eq hselected
    rw [himpact]
    congr 2
    refine List.filter_congr fun operation _ => ?_
    rw [decide_eq_decide, haffected]
  · constructor
    · rintro ⟨next, hnext⟩ id
      obtain ⟨hclosed, -⟩ := (removeOperations_eq_pure hselected).mp hnext
      exact ⟨.selected, hclosed id⟩
    · intro hsame
      exact ⟨_, (removeOperations_eq_pure hselected).mpr ⟨fun id => (hsame id).mpr, rfl⟩⟩
  · obtain ⟨hclosed, rfl⟩ := (removeOperations_eq_pure hselected).mp hnext
    refine ⟨?_, fun baseline hvalid => ?_⟩
    · congr 1
      refine List.filter_congr fun operation _ => ?_
      rw [decide_eq_decide]
      exact not_congr ⟨.selected, hclosed operation.id⟩
    · exact validateDraft_iff.mpr ((validateDraft_iff.mp hvalid).remove hclosed)

/-- Two operations that use each other's output, and one that uses neither. -/
def cyclicDraft : PlanDraft where
  operations := [
    ⟨⟨1#128⟩, .createFilesystem ⟨20#128⟩ .ext4 none, some ⟨10#128⟩⟩,
    ⟨⟨3#128⟩, .removeLv ⟨30#128⟩, none⟩,
    ⟨⟨2#128⟩, .createFilesystem ⟨10#128⟩ .ext4 none, some ⟨20#128⟩⟩]

/-- Selecting one operation of the cycle affects the other, so it cannot be removed alone. -/
theorem removal_impact_least_cyclic :
    removalImpact cyclicDraft [⟨1#128⟩] = pure [⟨1#128⟩, ⟨2#128⟩] ∧
    ¬∃ next, removeOperations cyclicDraft [⟨1#128⟩] = pure next := by
  have hknown : [⟨1#128⟩] ⊆ cyclicDraft.operations.map (·.id) := by decide
  refine ⟨rfl, fun hremoved => ?_⟩
  have haffected : Affected cyclicDraft [⟨1#128⟩] ⟨2#128⟩ :=
    @Affected.uses _ _ cyclicDraft.operations[0] cyclicDraft.operations[2] ⟨10#128⟩ (by decide)
      (.selected (by decide)) rfl (by decide) (by decide)
  have hselected := (((removal_impact_least cyclicDraft [⟨1#128⟩] hknown).2.1.mp hremoved) _).mpr
    haffected
  exact absurd hselected (by decide)

end DisksGraph
