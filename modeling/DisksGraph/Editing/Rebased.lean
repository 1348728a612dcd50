import DisksGraph.Editing.Session
import DisksGraph.Engine.Correlated
import DisksGraph.Engine.Goal

/-!
# Editing — Rebased

What the translation of a draft to a new baseline changes (`remap_draft` of `rebase.rs`).

* `PlanRequest.mapNodes`: a request under a function of its nodes, every other parameter as it was.
* `Correlates.unique`: a node is bound to one object of the other state at most.
* `remapDraft_translates`: the translated draft, its correlations and its references.
-/

namespace DisksGraph

open Support (Returns)

/-! ### Nodes of a request -/

/-- A mount source with its node renamed. -/
def MountSource.mapNodes (f : NodeId → NodeId) : MountSource → MountSource
  | .filesystem node => .filesystem (f node)
  | .btrfsSubvolume node => .btrfsSubvolume (f node)
  | .zfsDataset node => .zfsDataset (f node)
  | .bind path => .bind path
  | .tmpfs => .tmpfs
  | .network source => .network source
  | .other description => .other description

/-- An intent with every node it names renamed. -/
def OperationIntent.mapNodes (f : NodeId → NodeId) : OperationIntent → OperationIntent
  | .reformat target role => .reformat (f target) role
  | .check target force => .check (f target) force
  | .repair target mode => .repair (f target) mode
  | .setActivation target active => .setActivation (f target) active
  | .replaceMember group old new => .replaceMember (f group) (f old) (f new)
  | .convertBtrfsProfiles filesystem profiles => .convertBtrfsProfiles (f filesystem) profiles

/-- A request with a function applied to every node in it. -/
def PlanRequest.mapNodes (f : NodeId → NodeId) : PlanRequest → PlanRequest
  | .createPartition table number offset size role attributes =>
      .createPartition (f table) number offset size role attributes
  | .formatLuks backing version credential => .formatLuks (f backing) version credential
  | .openLuks container mappingName credential readOnly =>
      .openLuks (f container) mappingName credential readOnly
  | .createLv vg name size layout activate => .createLv (f vg) name size layout activate
  | .resizeLv lv newSize => .resizeLv (f lv) newSize
  | .resizeFilesystem filesystem newSize => .resizeFilesystem (f filesystem) newSize
  | .deletePartition partition => .deletePartition (f partition)
  | .removeLv lv => .removeLv (f lv)
  | .closeLuks mapping => .closeLuks (f mapping)
  | .createFilesystem backing filesystem label => .createFilesystem (f backing) filesystem label
  | .mount entry => .mount { entry with source := entry.source.mapNodes f }
  | .persistMount entry => .persistMount { entry with source := entry.source.mapNodes f }
  | .unmount target context => .unmount target context
  | .removePersistentMount target context => .removePersistentMount target context
  | .setFilesystemLabel filesystem label => .setFilesystemLabel (f filesystem) label
  | .maintenance intent => .maintenance (intent.mapNodes f)

/-- A draft with a function applied to the nodes of its requests and to its protected nodes. -/
def PlanDraft.mapNodes (f : NodeId → NodeId) (draft : PlanDraft) : PlanDraft where
  operations := draft.operations.map fun operation =>
    { operation with request := operation.request.mapNodes f }
  protectedScope := { draft.protectedScope with nodes := draft.protectedScope.nodes.map f }

variable {f : NodeId → NodeId} {correlations : List NodeCorrelation} {node : NodeId}

/-- Remapping a source renames its node by the correlations. -/
theorem MountSource.remapNodes_eq (source : MountSource) :
    source.remapNodes correlations = source.mapNodes (remapNode correlations) := by
  cases source <;> rfl

/-- The rewriting of the source is the one by its mapping. -/
theorem PlanRequest.remapNodes_eq (request : PlanRequest) :
    request.remapNodes correlations = request.mapNodes (remapNode correlations) := by
  cases request with
  | mount entry | persistMount entry =>
      simp only [remapNodes, mapNodes, MountSource.remapNodes_eq]
  | maintenance intent => cases intent <;> rfl
  | _ => rfl

theorem PlanDraft.remapNodes_eq (draft : PlanDraft) :
    draft.remapNodes correlations = draft.mapNodes (remapNode correlations) := by
  simp only [remapNodes, mapNodes, PlanRequest.remapNodes_eq]

/-! ### The mapping -/

theorem remapNode_of_not_mem (h : node ∉ correlations.map (·.source)) :
    remapNode correlations node = node := by
  have hnone : (correlations.reverse.find? fun binding => binding.source == node) = none := by
    rw [List.find?_eq_none]
    intro binding hbinding
    rw [beq_iff_eq]
    rintro rfl
    exact h (List.mem_map_of_mem (List.mem_reverse.mp hbinding))
  rw [remapNode, hnone]

/-- A node with one binding becomes its target. -/
theorem remapNode_of_mem (hnodup : (correlations.map (·.source)).Nodup) {binding : NodeCorrelation}
    (h : binding ∈ correlations) : remapNode correlations binding.source = binding.target := by
  rw [remapNode]
  cases hfind : correlations.reverse.find? fun other => other.source == binding.source with
  | none =>
      have habsent := List.find?_eq_none.mp hfind binding (List.mem_reverse.mpr h)
      simp at habsent
  | some found =>
      have hfound := List.mem_reverse.mp (List.mem_of_find?_eq_some hfind)
      have hsame : found.source = binding.source := by simpa using List.find?_some hfind
      rw [List.inj_on_of_nodup_map hnodup hfound h hsame]

/-! ### One target -/

section Unique

variable {current next : CurrentState} {binding other : NodeCorrelation}

/-- A node with an identity of its own is bound by it, to the one object that carries it. -/
theorem IdentityMatch.unique {node node' candidate candidate' : Node}
    (h : IdentityMatch current next binding node candidate)
    (h' : IdentityMatch current next other node' candidate')
    (hsource : other.source = binding.source) :
    other.target = binding.target := by
  have hnode : node' = node := by
    have hfound := h'.source.found
    rw [hsource, h.source.found] at hfound
    exact (Option.some.inj hfound).symm
  have hidentity : other.identity = binding.identity := by
    have hsupported := h'.supported
    rw [hnode, h.supported] at hsupported
    exact (List.cons.inj hsupported).1.symm
  exact h.target.sole _ candidate' h'.target.found (hidentity ▸ h'.target.carries)

/-- **A node is bound to at most one object.** -/
theorem Correlates.unique (h : Correlates current next binding) (h' : Correlates current next other)
    (hsource : other.source = binding.source) : other.target = binding.target := by
  cases h with
  | identity node candidate h =>
      cases h' with
      | identity node' candidate' h' => exact h.unique h' hsource
      | table disk' diskTarget' node' candidate' h' =>
          have hnode := h'.source
          rw [hsource, h.source.found] at hnode
          have htable := h'.table
          rw [← Option.some.inj hnode, h.notTable] at htable
          cases htable
  | table disk diskTarget node candidate h =>
      cases h' with
      | identity node' candidate' h' =>
          have hnode := h'.source.found
          rw [hsource, h.source] at hnode
          have htable := h.table
          rw [Option.some.inj hnode, h'.notTable] at htable
          cases htable
      | table disk' diskTarget' node' candidate' h' =>
          -- one disk backs the source table, so the disks of both bindings are bound alike
          have hdisk : disk' = disk := by
            have hbacks := h'.sourceTable.backs
            rw [hsource] at hbacks
            exact congrArg Dependency.source (h.sourceTable.onlyParent _ hbacks rfl)
          obtain ⟨_, _, hdisks⟩ := h.disks
          obtain ⟨_, _, hdisks'⟩ := h'.disks
          have htarget : diskTarget' = diskTarget := hdisks.unique hdisks' hdisk
          refine h.targetTable.onlyTable _ h'.targetTable.backs htarget rfl ?_
          rw [NodeGraph.kindOf, h'.target, Option.map_some, Option.any_some, ← h'.sameKind]
          exact h'.table

theorem Correlates.contains_target (h : Correlates current next binding) :
    next.graph.contains binding.target = true := by
  cases h with
  | identity node candidate h => exact Option.isSome_iff_exists.mpr ⟨_, h.target.found⟩
  | table disk diskTarget node candidate h => exact Option.isSome_iff_exists.mpr ⟨_, h.target⟩

end Unique

/-! ### Translation -/

/-- The nodes that a draft creates. -/
def PlanDraft.outputs (draft : PlanDraft) : List NodeId :=
  draft.operations.filterMap (·.createdNode)

/-- Every node that a draft mentions. -/
def PlanDraft.nodes (draft : PlanDraft) : List NodeId :=
  draft.operations.flatMap (·.request.referencedNodes) ++ draft.protectedScope.nodes ++
    draft.outputs

theorem mem_selectedNodes {draft : PlanDraft} : node ∈ draft.selectedNodes ↔
    node ∈ draft.nodes ∧ node ∉ draft.outputs := by
  rw [PlanDraft.selectedNodes, List.mem_filter, PlanDraft.nodes,
    List.mem_append (t := draft.outputs),
    decide_eq_true_eq]
  constructor
  · rintro ⟨hmem, hinput⟩
    exact ⟨.inl hmem, hinput⟩
  · rintro ⟨hmem | houtput, hinput⟩
    · exact ⟨hmem, hinput⟩
    · exact absurd houtput hinput

/-- What a translation that returns has established. -/
theorem remapDraft_eq_pure {keys : ContractKeys} {current next : HistoricalBaseline}
    {draft translated : PlanDraft}
    (h : remapDraft keys current draft next = pure (translated, correlations)) :
    (∀ operation ∈ draft.operations, checkRebasedOperation next operation = .ok ()) ∧
    correlateNodes current.snapshot next.snapshot draft.selectedNodes = .ok correlations ∧
    translated = draft.remapNodes correlations ∧ validateDraft next translated = .ok () := by
  unfold remapDraft at h
  by_cases hsame : current.id = next.id
  · rw [if_pos hsame] at h
    cases h
  · rw [if_neg hsame] at h
    obtain ⟨⟨⟩, -, h⟩ := Returns.bind_eq_pure.mp h
    obtain ⟨-, -, h⟩ := Returns.bind_eq_pure.mp h
    obtain ⟨⟨⟩, hchecked, h⟩ := Returns.bind_eq_pure.mp h
    obtain ⟨⟨⟩, -, h⟩ := Returns.bind_eq_pure.mp h
    obtain ⟨found, hfound, h⟩ := Returns.bind_eq_pure.mp h
    obtain ⟨⟨⟩, hvalid, h⟩ := Returns.bind_eq_pure.mp h
    obtain ⟨rfl, rfl⟩ := Prod.mk.inj (Returns.pure_inj.mp h)
    rw [Returns.mapError_eq_pure, Returns.lift_eq_pure] at hfound hvalid
    exact ⟨Support.except_forM_eq_ok.mp (Returns.lift_eq_pure.mp hchecked), hfound, rfl, hvalid⟩

/-- A round that passes has found the output of the operation absent. -/
theorem checkRebasedOperation_absent {next : HistoricalBaseline} {operation : PlanOperation}
    (h : checkRebasedOperation next operation = .ok ())
    (hcreated : operation.createdNode = some node) :
    next.snapshot.graph.contains node = false := by
  rw [checkRebasedOperation, hcreated] at h
  by_contra hcontains
  rw [Bool.not_eq_false] at hcontains
  rw [Option.filter_some, if_pos hcontains] at h
  cases h

/-- **A draft is translated exactly.**  A translation that returns is the draft with every observed
node it mentions replaced by its target, and everything else as it was.  The correlations hold one
entry for each of these nodes, with the one object that correlates with it; the outputs stay and are
absent from the new observations, nothing refers outside both, and no two nodes of the draft become
one. -/
theorem remapDraft_translates {keys : ContractKeys} {current next : HistoricalBaseline}
    {draft translated : PlanDraft} {correlations : List NodeCorrelation}
    (h : remapDraft keys current draft next = pure (translated, correlations)) :
    translated = draft.mapNodes (remapNode correlations) ∧
    translated.operations.map (fun operation => (operation.id, operation.createdNode)) =
      draft.operations.map (fun operation => (operation.id, operation.createdNode)) ∧
    (∀ node ∈ draft.outputs, remapNode correlations node = node ∧
      next.snapshot.graph.contains node = false) ∧
    (∀ node ∈ draft.nodes, node ∉ draft.outputs → ∃ binding ∈ correlations,
      binding.source = node ∧ binding.target = remapNode correlations node ∧
      Correlates current.snapshot next.snapshot binding ∧
      ∀ other, Correlates current.snapshot next.snapshot other → other.source = node →
        other.target = remapNode correlations node) ∧
    (∀ operation ∈ translated.operations, ∀ node ∈ operation.request.referencedNodes,
      next.snapshot.graph.contains node = true ∨ node ∈ draft.outputs) ∧
    ((correlations.map (·.source)).Nodup ∧ ∀ node, node ∈ correlations.map (·.source) ↔
      node ∈ draft.nodes ∧ node ∉ draft.outputs) ∧
    ∀ a ∈ draft.nodes, ∀ b ∈ draft.nodes,
      remapNode correlations a = remapNode correlations b → a = b := by
  obtain ⟨hchecked, hcorrelated, hremapped, hvalid⟩ := remapDraft_eq_pure h
  rw [PlanDraft.remapNodes_eq] at hremapped
  obtain ⟨-, -, hsources, hall, htargets⟩ := correlateNodes_eq_ok.mp hcorrelated
  have hnodup : (correlations.map (·.source)).Nodup := hsources ▸ nodup_keepFirst
  have hmem : ∀ node, node ∈ correlations.map (·.source) ↔
      node ∈ draft.nodes ∧ node ∉ draft.outputs := by
    intro node
    rw [hsources, mem_keepFirst, ← mem_selectedNodes]
    simp
  have houtputs : ∀ node ∈ draft.outputs, remapNode correlations node = node ∧
      next.snapshot.graph.contains node = false := by
    intro node hnode
    refine ⟨remapNode_of_not_mem fun hsource => ((hmem node).mp hsource).2 hnode, ?_⟩
    obtain ⟨operation, hoperation, hcreated⟩ := List.mem_filterMap.mp hnode
    exact checkRebasedOperation_absent (hchecked operation hoperation) hcreated
  have hbound : ∀ node ∈ draft.nodes, node ∉ draft.outputs → ∃ binding ∈ correlations,
      binding.source = node ∧ binding.target = remapNode correlations node := by
    intro node hnode hinput
    obtain ⟨binding, hbinding, rfl⟩ := List.mem_map.mp ((hmem node).mpr ⟨hnode, hinput⟩)
    exact ⟨binding, hbinding, rfl, (remapNode_of_mem hnodup hbinding).symm⟩
  have hids : translated.operations.map (fun operation => (operation.id, operation.createdNode)) =
      draft.operations.map (fun operation => (operation.id, operation.createdNode)) := by
    rw [hremapped, PlanDraft.mapNodes, List.map_map]
    rfl
  refine ⟨hremapped, hids, houtputs, fun node hnode hinput => ?_, fun operation hoperation node
    hnode => ?_, ⟨hnodup, hmem⟩, fun a ha b hb hsame => ?_⟩
  · obtain ⟨binding, hbinding, rfl, htarget⟩ := hbound node hnode hinput
    refine ⟨binding, hbinding, rfl, htarget, hall binding hbinding, fun other hother hsource => ?_⟩
    rw [← htarget]
    exact (hall binding hbinding).unique hother hsource
  · have hsame : translated.operations.filterMap (·.createdNode) = draft.outputs := by
      have hcreated := congrArg (List.filterMap (·.2)) hids
      rw [List.filterMap_map, List.filterMap_map] at hcreated
      exact hcreated
    exact hsame ▸ (validateDraft_iff.mp hvalid).inputs operation hoperation node hnode
  · have hinput : ∀ node ∈ draft.nodes, node ∉ draft.outputs →
        next.snapshot.graph.contains (remapNode correlations node) = true := by
      intro node hnode hinput
      obtain ⟨binding, hbinding, -, htarget⟩ := hbound node hnode hinput
      exact htarget ▸ (hall binding hbinding).contains_target
    -- outputs are absent from the new observations and targets are in them, so they never meet
    by_cases haoutput : a ∈ draft.outputs
    · by_cases hboutput : b ∈ draft.outputs
      · rw [(houtputs a haoutput).1, (houtputs b hboutput).1] at hsame
        exact hsame
      · have habsent := (houtputs a haoutput).2
        rw [← (houtputs a haoutput).1, hsame, hinput b hb hboutput] at habsent
        cases habsent
    · by_cases hboutput : b ∈ draft.outputs
      · have habsent := (houtputs b hboutput).2
        rw [← (houtputs b hboutput).1, ← hsame, hinput a ha haoutput] at habsent
        cases habsent
      · obtain ⟨first, hfirst, rfl, hatarget⟩ := hbound a ha haoutput
        obtain ⟨second, hsecond, rfl, hbtarget⟩ := hbound b hb hboutput
        rw [← hatarget, ← hbtarget] at hsame
        rw [List.inj_on_of_nodup_map htargets hfirst hsecond hsame]

/-- A volume and a filesystem on it, in an observed group whose other volume is protected. -/
def linkedDraft : PlanDraft where
  operations := [
    ⟨⟨1#128⟩, .createLv ⟨1#128⟩ "new" 1024 .linear false, some ⟨21#128⟩⟩,
    ⟨⟨2#128⟩, .createFilesystem ⟨21#128⟩ .ext4 none, some ⟨22#128⟩⟩]
  protectedScope := { nodes := [⟨2#128⟩] }

/-- Translated to a later publication of the group, the draft names the nodes of that publication
and its own outputs. -/
theorem remapDraft_translates_published : ∃ translated correlations,
    remapDraft sampleKeys ⟨1#128, liveGroup ⟨1#128⟩ ⟨2#128⟩ "vg-uuid" 4096 true, []⟩ linkedDraft
      ⟨2#128, liveGroup ⟨11#128⟩ ⟨12#128⟩ "vg-uuid" 4096 true, []⟩ =
        pure (translated, correlations) ∧
    translated.operations.flatMap (·.request.referencedNodes) = [⟨11#128⟩, ⟨21#128⟩] ∧
    translated.protectedScope.nodes = [⟨12#128⟩] := by
  have hrun : (remapDraft sampleKeys
      ⟨1#128, liveGroup ⟨1#128⟩ ⟨2#128⟩ "vg-uuid" 4096 true, []⟩ linkedDraft
      ⟨2#128, liveGroup ⟨11#128⟩ ⟨12#128⟩ "vg-uuid" 4096 true, []⟩).toOption.map (fun result =>
        result.2.map fun binding => (binding.source, binding.target)) =
      some [(⟨1#128⟩, ⟨11#128⟩), (⟨2#128⟩, ⟨12#128⟩)] := by decide +kernel
  obtain ⟨⟨translated, correlations⟩, hresult, hrun⟩ := Option.map_eq_some_iff.mp hrun
  have hresult := Returns.toOption_eq_some.mp hresult
  obtain ⟨htranslated, -⟩ := remapDraft_translates hresult
  obtain ⟨⟨_, _, vg⟩, rest, rfl, hfirst, hrest⟩ := List.map_eq_cons_iff.mp hrun
  obtain ⟨⟨_, _, lv⟩, rest, rfl, hsecond, hnil⟩ := List.map_eq_cons_iff.mp hrest
  obtain rfl := List.map_eq_nil_iff.mp hnil
  obtain ⟨rfl, rfl⟩ := Prod.mk.inj hfirst
  obtain ⟨rfl, rfl⟩ := Prod.mk.inj hsecond
  refine ⟨translated, _, hresult, ?_, ?_⟩
  · rw [htranslated]
    rfl
  · rw [htranslated]
    rfl

end DisksGraph
