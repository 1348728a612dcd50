import DisksGraph.Provider.Changes

/-!
# Provider — Footprint

What every trusted contract declares about its own effects.

* `describeAction_declared`: an action without a write and a graph effect only refreshes content
  evidence, and a change of the persistent mounts is declared as a write of their configuration.
* `describeAction_blockInterface`: an endpoint that an action provides is locked for writing.
* `ProviderAction.locks` and `writes_describeAction`: the write locks of an action in closed form.
-/

namespace DisksGraph

namespace ActionContract

/-- The contract declares a write of the resource. -/
def Writes (contract : ActionContract) (resource : ActionResource) : Prop :=
  ⟨resource, .write⟩ ∈ contract.affectedResources

/-! ### What each update declares -/

section Updates

variable {contract : ActionContract} {resource other : ActionResource} {node : NodeId}

/-- The writes after one more. -/
@[simp] theorem writes_write :
    (contract.write other).Writes resource ↔ contract.Writes resource ∨ resource = other := by
  simp [Writes, write, access]

@[simp] theorem writes_read : (contract.read other).Writes resource ↔ contract.Writes resource := by
  simp [Writes, read, access]

@[simp] theorem writes_require {conditions : List ActionPrerequisite} :
    (contract.require conditions).Writes resource ↔ contract.Writes resource :=
  Iff.rfl

@[simp] theorem writes_requireKind {expected : NodeKindClass} :
    (contract.requireKind node expected).Writes resource ↔ contract.Writes resource :=
  Iff.rfl

@[simp] theorem writes_invalidate {kind : FactKind} :
    (contract.invalidate node kind).Writes resource ↔ contract.Writes resource :=
  Iff.rfl

@[simp] theorem writes_invalidateMount {target : PathBuf} {context : MountContext} :
    (contract.invalidateMount target context).Writes resource ↔ contract.Writes resource :=
  Iff.rfl

@[simp] theorem writes_invalidatePersistentMount {context : MountContext} :
    (contract.invalidatePersistentMount context).Writes resource ↔ contract.Writes resource :=
  Iff.rfl

@[simp] theorem writes_provide {output : ActionOutput} :
    (contract.provide output).Writes resource ↔ contract.Writes resource :=
  Iff.rfl

@[simp] theorem writes_changeGraph {effects : List GraphEffect} :
    (contract.changeGraph effects).Writes resource ↔ contract.Writes resource :=
  Iff.rfl

@[simp] theorem writes_changeMounts {effect : MountEffect} :
    (contract.changeMounts effect).Writes resource ↔ contract.Writes resource :=
  Iff.rfl

@[simp] theorem writes_changeAllocation {effect : AllocationEffect} :
    (contract.changeAllocation effect).Writes resource ↔ contract.Writes resource :=
  Iff.rfl

@[simp] theorem writes_establish {conditions : List Postcondition} :
    (contract.establish conditions).Writes resource ↔ contract.Writes resource :=
  Iff.rfl

@[simp] theorem writes_insertNodeWithDependency {spec : NodeSpec} {dependency : Dependency} :
    (contract.insertNodeWithDependency node spec dependency).Writes resource ↔
      contract.Writes resource :=
  Iff.rfl

@[simp] theorem writes_addDependency {dependency : Dependency} :
    (contract.addDependency dependency).Writes resource ↔ contract.Writes resource :=
  Iff.rfl

/-- The contract declares a write or changes the graph. -/
def Changes (contract : ActionContract) : Prop :=
  (∃ resource, contract.Writes resource) ∨ contract.predictedEffect.graph ≠ []

/-- An update that only adds declarations and touches no mount. -/
structure Extends (contract result : ActionContract) : Prop where
  changes : contract.Changes → result.Changes
  mounts : result.predictedEffect.mounts = contract.predictedEffect.mounts

theorem Extends.refl (contract : ActionContract) : contract.Extends contract := ⟨id, rfl⟩

/-- Extensions of contracts compose. -/
theorem Extends.trans {first second third : ActionContract} (h : first.Extends second)
    (h' : second.Extends third) : first.Extends third :=
  ⟨h'.changes ∘ h.changes, h'.mounts.trans h.mounts⟩

/-- An update of the other fields. -/
theorem Extends.of_eq {result : ActionContract}
    (hresources : result.affectedResources = contract.affectedResources)
    (hgraph : result.predictedEffect.graph = contract.predictedEffect.graph)
    (hmounts : result.predictedEffect.mounts = contract.predictedEffect.mounts) :
    contract.Extends result := by
  refine ⟨fun h => ?_, hmounts⟩
  simpa only [Changes, Writes, hresources, hgraph] using h

theorem Extends.ite {p : Prop} [Decidable p] {left right : ActionContract}
    (hleft : contract.Extends left) (hright : contract.Extends right) :
    contract.Extends (if p then left else right) := by
  split
  · exact hleft
  · exact hright

/-- A loop of such updates is one. -/
theorem Extends.foldl {α : Type} {f : ActionContract → α → ActionContract}
    (hf : ∀ contract item, Extends contract (f contract item)) (items : List α)
    (contract : ActionContract) : contract.Extends (items.foldl f contract) := by
  induction items generalizing contract with
  | nil => exact .refl contract
  | cons item rest ih => exact (hf contract item).trans (ih (f contract item))

theorem extends_require {conditions : List ActionPrerequisite} :
    contract.Extends (contract.require conditions) :=
  .of_eq rfl rfl rfl

theorem extends_access {mode : ResourceAccessMode} :
    contract.Extends (contract.access resource mode) := by
  refine ⟨?_, rfl⟩
  rintro (⟨other, h⟩ | h)
  · exact .inl ⟨other, List.mem_append_left _ h⟩
  · exact .inr h

theorem extends_changeGraph {effects : List GraphEffect} :
    contract.Extends (contract.changeGraph effects) := by
  refine ⟨?_, rfl⟩
  rintro (h | h)
  · exact .inl h
  · exact .inr fun happend => h (List.append_eq_nil_iff.mp happend).1

end Updates

end ActionContract

open ActionContract (Extends Writes Changes)

/-! ### What each technology declares -/

/-- The context whose persistent mounts an effect changes. -/
def MountEffect.persistentContext : MountEffect → Option MountContext
  | .setPersistent entry => some entry.context
  | .removePersistent _ context => some context
  | .addRuntime .. | .removeRuntime .. => none

/-- What every contract declares: an action that changes nothing only refreshes content evidence,
and the persistent mounts of a context are changed under a write of their configuration. -/
structure ActionContract.Declared (contract : ActionContract) : Prop where
  quiet : contract.Changes ∨ ∀ fact ∈ contract.invalidatedFacts, fact.kind = .content
  persistent : ∀ effect ∈ contract.predictedEffect.mounts, ∀ context,
    effect.persistentContext = some context → contract.Writes (.persistentMountConfig context)

section Describe

variable {graph : NodeGraph} {contract result : ActionContract}

/-- A contract that changes something and has no mounts. -/
theorem ActionContract.Declared.of_changes (hchanges : contract.Changes)
    (hmounts : contract.predictedEffect.mounts = []) : contract.Declared where
  quiet := .inl hchanges
  persistent effect heffect := by
    rw [hmounts] at heffect
    cases heffect

/-- A contract that writes something and mounts nothing is declared. -/
theorem ActionContract.Declared.of_writes {resource : ActionResource}
    (hwrites : contract.Writes resource) (hmounts : contract.predictedEffect.mounts = []) :
    contract.Declared :=
  .of_changes (.inl ⟨resource, hwrites⟩) hmounts

/-- A contract that extends a changing one is declared. -/
theorem ActionContract.Declared.of_extends (hchanges : contract.Changes)
    (hmounts : contract.predictedEffect.mounts = []) (h : contract.Extends result) :
    result.Declared :=
  .of_changes (h.changes hchanges) (h.mounts.trans hmounts)

theorem accessFilesystemBacking_extends {filesystem : NodeId} {mode : ResourceAccessMode} :
    contract.Extends (accessFilesystemBacking contract graph filesystem mode) := by
  refine Extends.foldl (fun contract backing => ?_) (backingNodes graph filesystem) contract
  exact ActionContract.extends_access.trans (.of_eq rfl rfl rfl)

/-- The other fields do not count. -/
theorem ActionContract.Declared.of_same (h : contract.Declared)
    (hresources : result.affectedResources = contract.affectedResources)
    (heffect : result.predictedEffect = contract.predictedEffect)
    (hfacts : result.invalidatedFacts = contract.invalidatedFacts) : result.Declared := by
  obtain ⟨hquiet, hpersistent⟩ := h
  refine ⟨?_, ?_⟩
  · simpa only [Changes, Writes, hresources, heffect, hfacts] using hquiet
  · simpa only [Writes, hresources, heffect] using hpersistent

/-- A partition contract declares what it changes. -/
theorem describePartition_declared (action : PartitionAction) :
    (describePartition graph action).Declared := by
  have haction : (∃ resource, (describePartitionAction graph action).Writes resource) ∧
      (describePartitionAction graph action).predictedEffect.mounts = [] := by
    cases action with
    | createTable disk plannedNodeId table =>
        exact ⟨⟨.partitionTable plannedNodeId, by simp [describePartitionAction]⟩, rfl⟩
    | create table plannedNodeId number offset size role attributes =>
        exact ⟨⟨.partitionTable table, by simp [describePartitionAction]⟩, rfl⟩
    | resize partition newSize =>
        exact ⟨⟨.node partition, by simp [describePartitionAction, resizeContract]⟩, rfl⟩
    | delete partition =>
        exact ⟨⟨.node partition, by simp [describePartitionAction, removeNodeContract]⟩, rfl⟩
    | setAttributes partition attributes =>
        exact ⟨⟨.node partition, by simp [describePartitionAction]⟩, rfl⟩
  rw [describePartition]
  split
  · exact .of_extends (.inl haction.1) haction.2 ⟨ActionContract.extends_access.changes, rfl⟩
  · exact .of_changes (.inl haction.1) haction.2

/-- A LUKS contract declares what it changes. -/
theorem describeLuks_declared (action : LuksAction) : (describeLuks graph action).Declared := by
  cases action with
  | format target plannedNodeId version credential =>
      refine .of_writes (show Writes _ (.node target) from ?_) rfl
      simp [describeLuks, destructiveContract]
  | «open» container plannedNodeId mappingName credential readOnly =>
      exact .of_changes (.inr (List.cons_ne_nil _ _)) rfl
  | close mapping =>
      refine .of_writes (show Writes _ (.node mapping) from ?_) rfl
      simp [describeLuks, removeNodeContract]
  | resize mapping size =>
      cases size with
      | none =>
          refine .of_writes (show Writes _ (.node mapping) from ?_) rfl
          simp [describeLuks]
      | some size =>
          refine .of_writes (show Writes _ (.node mapping) from ?_) rfl
          simp [describeLuks, resizeContract]

theorem resizeLvAllocation_extends {domain : AllocationDomain}
    {old new : Option AllocationQuantity} :
    contract.Extends (resizeLvAllocation contract domain old new) := by
  unfold resizeLvAllocation
  split
  · split
    · exact .of_eq rfl rfl rfl
    · split
      · exact .of_eq rfl rfl rfl
      · exact .refl contract
  · exact .of_eq rfl rfl rfl

/-- An LVM contract declares what it changes. -/
theorem describeLvm_declared (action : LvmAction) : (describeLvm graph action).Declared := by
  cases action with
  | createPv backing plannedNodeId =>
      refine .of_writes (show Writes _ (.node backing) from ?_) rfl
      simp [describeLvm, destructiveContract]
  | createVg plannedNodeId name pvs =>
      have hmembers : ∀ contract : ActionContract, contract.Extends (pvs.foldl
          (fun result pv => (result.requireKind pv .lvmPv).write (.node pv)) contract) := by
        refine Extends.foldl (fun contract pv => ?_) pvs
        exact ActionContract.extends_require.trans ActionContract.extends_access
      refine .of_extends ?_ ?_ (Extends.foldl (fun contract pv => ?_) pvs _)
      · exact .inl ⟨.lvmMetadata plannedNodeId, by simp⟩
      · exact (hmembers _).mounts
      · exact ActionContract.extends_changeGraph.trans (.of_eq rfl rfl rfl)
  | createLv vg plannedNodeId name size layout =>
      refine .of_writes (show Writes _ (.lvmMetadata vg) from ?_) rfl
      simp [describeLvm]
  | resizeLv lv newSize =>
      have hresize : (resizeContract graph lv newSize .lvmLv .DEPENDENTS).Changes :=
        .inl ⟨.node lv, by simp [resizeContract]⟩
      rw [describeLvm]
      split
      · exact .of_changes hresize rfl
      · refine .of_extends hresize rfl ?_
        exact (ActionContract.extends_access.trans resizeLvAllocation_extends).trans
          (.of_eq rfl rfl rfl)
  | removeLv lv =>
      have hremove : (removeNodeContract graph lv .lvmLv true).Changes :=
        .inl ⟨.node lv, by simp [removeNodeContract]⟩
      rw [describeLvm]
      split
      · exact .of_extends hremove rfl (.of_eq rfl rfl rfl)
      · exact .of_extends hremove rfl (ActionContract.extends_access.trans (.of_eq rfl rfl rfl))
  | setActivation target active =>
      unfold describeLvm
      dsimp only
      split
      · refine .of_writes (show Writes _ (.node target) from ?_) rfl
        simp
      · refine .of_writes (show Writes _ (.node target) from ?_) rfl
        simp

/-- An inspection declares no write: it only refreshes content evidence. -/
theorem inspectionContract_declared {filesystem : NodeId} :
    (inspectionContract graph filesystem).Declared where
  quiet := by
    refine .inr fun fact hfact => ?_
    rw [inspectionContract, ActionContract.establish, ActionContract.invalidate,
      ActionContract.invalidateScope, accessFilesystemBacking_facts] at hfact
    rw [List.mem_singleton.mp hfact]
  persistent effect heffect := by
    have hmounts : (inspectionContract graph filesystem).predictedEffect.mounts = [] :=
      accessFilesystemBacking_extends.mounts
    rw [hmounts] at heffect
    cases heffect

/-- A filesystem contract declares what it changes. -/
theorem describeFilesystem_declared (action : FilesystemAction) :
    (describeFilesystem graph action).Declared := by
  cases action with
  | create backing plannedNodeId filesystem label =>
      refine .of_writes (show Writes _ (.node backing) from ?_) rfl
      simp [describeFilesystem, destructiveContract]
  | resize filesystem newSize =>
      have hresize : (resizeContract graph filesystem newSize .filesystem .BACKING).Changes :=
        .inl ⟨.node filesystem, by simp [resizeContract]⟩
      refine .of_extends hresize rfl (Extends.trans ?_ accessFilesystemBacking_extends)
      refine Extends.trans (Extends.ite ?_ (.refl _)) (Extends.ite (.of_eq rfl rfl rfl) (.refl _))
      exact ActionContract.extends_require.trans ActionContract.extends_access
  | check filesystem force =>
      rw [describeFilesystem]
      split
      · exact inspectionContract_declared.of_same rfl rfl rfl
      · exact inspectionContract_declared
  | repair filesystem force =>
      refine .of_extends ?_ ?_ (accessFilesystemBacking_extends.trans (.of_eq rfl rfl rfl))
      · exact .inl ⟨.node filesystem, by simp⟩
      · rfl
  | setLabel filesystem label =>
      refine .of_extends ?_ ?_ (accessFilesystemBacking_extends.trans
        (ActionContract.extends_changeGraph.trans (.of_eq rfl rfl rfl)))
      · exact .inl ⟨.node filesystem, by simp⟩
      · rfl

/-- A Btrfs contract declares what it changes. -/
theorem describeBtrfs_declared (action : BtrfsAction) : (describeBtrfs graph action).Declared := by
  cases action with
  | create members plannedNodeId label allocation =>
      refine .of_extends ?_ ?_ (Extends.foldl (fun contract member => ?_) members _)
      · refine .inr fun hnil => ?_
        exact List.cons_ne_nil _ _ (List.append_eq_nil_iff.mp hnil).2
      · refine (Extends.foldl (fun contract member => ?_) members _).mounts
        exact (ActionContract.extends_require.trans ActionContract.extends_access).trans
          (.of_eq rfl rfl rfl)
      · exact ActionContract.extends_changeGraph.trans (.of_eq rfl rfl rfl)
  | addDevice filesystem device =>
      refine .of_writes (show Writes _ (.node filesystem) from ?_) rfl
      simp [describeBtrfs, btrfsMembershipContract]
  | removeDevice filesystem device =>
      refine .of_writes (show Writes _ (.node filesystem) from ?_) rfl
      simp [describeBtrfs, btrfsMembershipContract]
  | convertProfiles filesystem target =>
      refine .of_writes (show Writes _ (.node filesystem) from ?_) rfl
      simp [describeBtrfs]
  | createSubvolume filesystem plannedNodeId name readOnly =>
      refine .of_writes (show Writes _ (.node filesystem) from ?_) rfl
      simp [describeBtrfs]

theorem requireMountSource_mounts {source : MountSource} :
    (requireMountSource contract graph source).predictedEffect.mounts =
      contract.predictedEffect.mounts := by
  rw [requireMountSource]
  split
  · rfl
  · exact (Extends.foldl (fun _ _ => ActionContract.extends_access) _ _).mounts

/-- A mount contract declares what it changes. -/
theorem describeMount_declared (action : MountAction) : (describeMount graph action).Declared := by
  cases action with
  | mount source target options context =>
      refine ⟨.inl (.inl ⟨.mountTarget target context, by simp [describeMount]⟩), ?_⟩
      intro effect heffect context' hcontext
      have hmounts :
        (describeMount graph (.mount source target options context)).predictedEffect.mounts
          = [.addRuntime source target options context] :=
        congrArg (· ++ _) requireMountSource_mounts
      rw [hmounts, List.mem_singleton] at heffect
      subst heffect
      cases hcontext
  | unmount target context =>
      refine ⟨.inl (.inl ⟨.mountTarget target context, by simp [describeMount]⟩), ?_⟩
      intro effect heffect context' hcontext
      rw [List.mem_singleton.mp heffect] at hcontext
      cases hcontext
  | persist entry =>
      have hwrites : (describeMount graph (.persist entry)).Writes
          (.persistentMountConfig entry.context) := by
        simp [describeMount]
      have hmounts : (describeMount graph (.persist entry)).predictedEffect.mounts =
          [.setPersistent entry] := by
        rw [describeMount]
        cases entry.source.node <;> rfl
      refine ⟨.inl (.inl ⟨_, hwrites⟩), fun effect heffect context hcontext => ?_⟩
      rw [hmounts, List.mem_singleton] at heffect
      subst heffect
      exact Option.some.inj hcontext ▸ hwrites
  | removePersistent target context =>
      have hwrites : (describeMount graph (.removePersistent target context)).Writes
          (.persistentMountConfig context) := by
        simp [describeMount]
      refine ⟨.inl (.inl ⟨_, hwrites⟩), fun effect heffect context' hcontext => ?_⟩
      rw [List.mem_singleton.mp heffect] at hcontext
      exact Option.some.inj hcontext ▸ hwrites

/-- Every contract declares what it changes. -/
theorem describeTechnology_declared (action : ProviderAction) :
    (describeTechnology graph action).Declared := by
  cases action with
  | partition action => exact describePartition_declared action
  | luks action => exact describeLuks_declared action
  | lvm action => exact describeLvm_declared action
  | filesystem action => exact describeFilesystem_declared action
  | btrfs action => exact describeBtrfs_declared action
  | mount action => exact describeMount_declared action

end Describe

/-! ### The trusted contract -/

/-- A contract with more write locks. -/
structure ActionContract.Locks (contract result : ActionContract) : Prop where
  writes : ∀ resource, contract.Writes resource → result.Writes resource
  effect : result.predictedEffect = contract.predictedEffect
  facts : result.invalidatedFacts = contract.invalidatedFacts
  outputs : result.providedOutputs = contract.providedOutputs

/-- More locks keep a contract declared. -/
theorem ActionContract.Declared.locks {contract result : ActionContract} (h : contract.Declared)
    (hlocks : contract.Locks result) : result.Declared where
  quiet := by
    rw [Changes, hlocks.effect, hlocks.facts]
    rcases h.quiet with (⟨resource, hwrites⟩ | hgraph) | hfacts
    · exact .inl (.inl ⟨resource, hlocks.writes resource hwrites⟩)
    · exact .inl (.inr hgraph)
    · exact .inr hfacts
  persistent effect heffect context hcontext := by
    rw [hlocks.effect] at heffect
    exact hlocks.writes _ (h.persistent effect heffect context hcontext)

/-- The node of every output is locked. -/
theorem lockOutputs {nodes : List NodeId} {contract : ActionContract} :
    contract.Locks (nodes.foldl (fun result node =>
      if ⟨.node node, .write⟩ ∈ result.affectedResources then result
      else result.write (.node node)) contract) ∧
    ∀ node ∈ nodes, (nodes.foldl (fun result node =>
      if ⟨.node node, .write⟩ ∈ result.affectedResources then result
      else result.write (.node node)) contract).Writes (.node node) := by
  induction nodes generalizing contract with
  | nil => exact ⟨⟨fun _ h => h, rfl, rfl, rfl⟩, nofun⟩
  | cons first rest ih =>
      rw [List.foldl_cons]
      split
      · next hfirst =>
        obtain ⟨hlocks, hnodes⟩ := ih
        refine ⟨hlocks, fun node hnode => ?_⟩
        rcases List.mem_cons.mp hnode with rfl | hnode
        · exact hlocks.writes _ hfirst
        · exact hnodes node hnode
      · obtain ⟨hlocks, hnodes⟩ := @ih (contract.write (.node first))
        refine ⟨⟨fun resource h => hlocks.writes _ (by simp [h]), hlocks.effect, hlocks.facts,
          hlocks.outputs⟩, fun node hnode => ?_⟩
        rcases List.mem_cons.mp hnode with rfl | hnode
        · exact hlocks.writes _ (by simp)
        · exact hnodes node hnode

/-- The resources of the outputs are added as locks. -/
theorem addOutputResources_locks {contract : ActionContract} :
    contract.Locks (addOutputResources contract) :=
  lockOutputs.1

/-- Reading the mounts keeps a contract declared. -/
theorem readConsumerMounts_declared {contract : ActionContract} (h : contract.Declared) :
    (readConsumerMounts contract).Declared := by
  rw [readConsumerMounts]
  split
  · exact h.locks ⟨fun resource hwrites => by simp [hwrites], rfl, rfl, rfl⟩
  · exact h

/-- Every trusted contract declares what it does. -/
theorem describeAction_declared (action : ProviderAction) (graph : NodeGraph) :
    (describeAction action graph).Declared := by
  have hread := readConsumerMounts_declared (@describeTechnology_declared graph action)
  rw [describeAction]
  refine ActionContract.Declared.locks ?_ addOutputResources_locks
  exact hread.of_same rfl rfl rfl

/-- An endpoint that an action provides is locked for writing. -/
theorem describeAction_blockInterface {action : ProviderAction} {graph : NodeGraph} {node : NodeId}
    {access : BlockInterfaceAccess}
    (h : .blockInterface node access ∈ (describeAction action graph).providedOutputs) :
    (describeAction action graph).Writes (.node node) := by
  rw [describeAction, addOutputResources_locks.outputs] at h
  exact lockOutputs.2 node (List.mem_filterMap.mpr ⟨_, h, rfl⟩)

/-! ### The write locks in closed form -/

/-- The resources an action locks for writing. -/
def ProviderAction.locks (graph : NodeGraph) : ProviderAction → List ActionResource
  | .partition (.createTable disk plannedNodeId _) =>
      [.node disk, .partitionTable plannedNodeId, .node plannedNodeId]
  | .partition (.create table plannedNodeId ..) => [.partitionTable table, .node plannedNodeId]
  | .partition (.resize node _) | .partition (.delete node) | .partition (.setAttributes node _) =>
      .node node :: (partitionTable graph node).toList.map .partitionTable
  | .luks (.format target plannedNodeId ..) => [.node target, .node plannedNodeId]
  | .luks (.open _ plannedNodeId ..) => [.node plannedNodeId]
  | .luks (.close mapping) | .luks (.resize mapping _) => [.node mapping]
  | .lvm (.createPv backing plannedNodeId) => [.node backing, .node plannedNodeId]
  | .lvm (.createVg plannedNodeId _ pvs) =>
      pvs.map .node ++ [.lvmMetadata plannedNodeId, .node plannedNodeId]
  | .lvm (.createLv vg plannedNodeId ..) => [.lvmMetadata vg, .node plannedNodeId]
  | .lvm (.resizeLv lv _) | .lvm (.removeLv lv) =>
      .node lv :: (lvmVolumeGroup graph lv).toList.map .lvmMetadata
  | .lvm (.setActivation target _) => [.node target]
  | .filesystem (.create backing plannedNodeId ..) => [.node backing, .node plannedNodeId]
  | .filesystem (.check ..) => []
  | .filesystem (.resize node _) | .filesystem (.repair node _) | .filesystem (.setLabel node _) =>
      .node node :: (backingNodes graph node).map .node
  | .btrfs (.create members plannedNodeId ..) => members.map .node ++ [.node plannedNodeId]
  | .btrfs (.addDevice target device) | .btrfs (.removeDevice target device) =>
      [.node target, .node device]
  | .btrfs (.convertProfiles target _) => [.node target]
  | .btrfs (.createSubvolume target plannedNodeId ..) => [.node target, .node plannedNodeId]
  | .mount (.mount _ target _ context) | .mount (.unmount target context) =>
      [.runtimeMountState, .mountTarget target context]
  | .mount (.persist entry) => [.persistentMountConfig entry.context]
  | .mount (.removePersistent _ context) => [.persistentMountConfig context]

section Locks

variable {graph : NodeGraph} {contract : ActionContract} {resource : ActionResource}

@[simp] theorem writes_new {policy : RestartPolicy} :
    ¬(ActionContract.new policy).Writes resource :=
  List.not_mem_nil

/-- A loop that locks one node at each round. -/
theorem writes_foldl {f : ActionContract → NodeId → ActionContract}
    (hf : ∀ contract node, (f contract node).Writes resource ↔
      contract.Writes resource ∨ resource = .node node) (nodes : List NodeId) :
    (nodes.foldl f contract).Writes resource ↔
      contract.Writes resource ∨ resource ∈ nodes.map .node := by
  induction nodes generalizing contract with
  | nil => simp
  | cons node rest ih => rw [List.foldl_cons, ih, hf, List.map_cons, List.mem_cons, or_assoc]

/-- A loop that locks nothing. -/
theorem writes_foldl_same {α : Type} {f : ActionContract → α → ActionContract}
    (hf : ∀ contract item, (f contract item).Writes resource ↔ contract.Writes resource)
    (items : List α) : (items.foldl f contract).Writes resource ↔ contract.Writes resource := by
  induction items generalizing contract with
  | nil => rfl
  | cons item rest ih => rw [List.foldl_cons, ih, hf]

theorem writes_ite {p : Prop} [Decidable p] {left right : ActionContract}
    (h : left.Writes resource ↔ right.Writes resource) :
    (if p then left else right).Writes resource ↔ right.Writes resource := by
  split
  · exact h
  · rfl

/-- Writing through a filesystem writes what backs it. -/
@[simp] theorem writes_accessFilesystemBacking_write {filesystem : NodeId} :
    (accessFilesystemBacking contract graph filesystem .write).Writes resource ↔
      contract.Writes resource ∨ resource ∈ (backingNodes graph filesystem).map .node := by
  refine writes_foldl (fun contract backing => ?_) (backingNodes graph filesystem)
  exact ActionContract.writes_write

/-- Reading through a filesystem writes nothing. -/
@[simp] theorem writes_accessFilesystemBacking_read {filesystem : NodeId} :
    (accessFilesystemBacking contract graph filesystem .read).Writes resource ↔
      contract.Writes resource := by
  refine writes_foldl_same (fun contract backing => ?_) (backingNodes graph filesystem)
  exact ActionContract.writes_read

/-- Overwriting writes the node. -/
@[simp] theorem writes_destructiveContract {node : NodeId} {policy : RestartPolicy} :
    (destructiveContract node policy).Writes resource ↔ resource = .node node := by
  simp [destructiveContract]

/-- A resize writes the node. -/
@[simp] theorem writes_resizeContract {node : NodeId} {size : Bytes} {expected : NodeKindClass}
    {safety : ResizeSafety} :
    (resizeContract graph node size expected safety).Writes resource ↔ resource = .node node := by
  simp [resizeContract]

/-- A removal writes the node. -/
@[simp] theorem writes_removeNodeContract {node : NodeId} {expected : NodeKindClass}
    {exclusive : Bool} :
    (removeNodeContract graph node expected exclusive).Writes resource ↔ resource = .node node := by
  simp [removeNodeContract]

@[simp] theorem writes_resizeLvAllocation {domain : AllocationDomain}
    {old new : Option AllocationQuantity} :
    (resizeLvAllocation contract domain old new).Writes resource ↔ contract.Writes resource := by
  unfold resizeLvAllocation
  split
  · split
    · simp
    · split <;> simp
  · simp

@[simp] theorem writes_requireMountSource {source : MountSource} :
    (requireMountSource contract graph source).Writes resource ↔ contract.Writes resource := by
  rw [requireMountSource]
  split
  · rfl
  · next node _ =>
    rw [Writes, List.mem_insertionSort]
    change Writes ((graph.ancestors node).foldl _ _) resource ↔ _
    rw [writes_foldl_same fun _ _ => ActionContract.writes_read]
    simp

/-- The locks of an action before those of its outputs. -/
theorem writes_readConsumerMounts :
    (readConsumerMounts contract).Writes resource ↔ contract.Writes resource :=
  writes_ite ActionContract.writes_read

/-- Every output node is locked, and nothing else is added. -/
theorem writes_addOutputResources :
    (addOutputResources contract).Writes resource ↔ contract.Writes resource ∨
      resource ∈ (contract.providedOutputs.filterMap ActionOutput.lockedNode).map .node := by
  refine writes_foldl (fun contract node => ?_) _
  split
  · next hlocked =>
    refine ⟨.inl, ?_⟩
    rintro (h | rfl)
    · exact h
    · exact hlocked
  · exact ActionContract.writes_write

/-- The node of an output that a contract provides is inserted, or its endpoint is guaranteed. -/
theorem lockedNode_of_output {action : ProviderAction} {node : NodeId} :
    (∃ output ∈ (describeAction action graph).providedOutputs, output.lockedNode = some node) ↔
      (∃ spec, .insertNode node spec ∈ action.graphChanges graph) ∨
        ∃ access, .blockInterface node access ∈ action.guarantees graph := by
  have hguarantee : ∀ output ∈ action.guarantees graph, output.lockedNode = some node →
      ∃ access, output = .blockInterface node access := by
    intro output houtput hlocked
    cases output with
    | blockInterface id access =>
        cases hlocked
        exact ⟨access, rfl⟩
    | node id spec =>
        unfold ProviderAction.guarantees at houtput
        split at houtput
        · simp at houtput
        · split at houtput <;> simp at houtput
        · split at houtput <;> simp at houtput
        · cases houtput
    | _ => cases hlocked
  rw [describeAction_outputs, outputsFromEffect, describeAction_graph]
  constructor
  · rintro ⟨output, houtput, hlocked⟩
    rcases List.mem_append.mp houtput with heffect | hoffered
    · rcases List.mem_append.mp heffect with hgraph | hmount
      · obtain ⟨effect, hchange, houtput⟩ := List.mem_filterMap.mp hgraph
        cases effect with
        | insertNode id spec =>
            cases houtput
            cases hlocked
            exact .inl ⟨spec, hchange⟩
        | _ => cases houtput
      · obtain ⟨effect, -, houtput⟩ := List.mem_filterMap.mp hmount
        cases effect <;> cases houtput <;> cases hlocked
    · obtain ⟨access, rfl⟩ := hguarantee output hoffered hlocked
      exact .inr ⟨access, hoffered⟩
  · rintro (⟨spec, hinsert⟩ | ⟨access, hoffered⟩)
    · refine ⟨.node node spec, ?_, rfl⟩
      exact List.mem_append_left _
        (List.mem_append_left _ (List.mem_filterMap.mpr ⟨_, hinsert, rfl⟩))
    · exact ⟨_, List.mem_append_right _ hoffered, rfl⟩

/-- The locks of the trusted contract are those of its technology and its outputs. -/
theorem writes_describeAction_iff {action : ProviderAction} :
    (describeAction action graph).Writes resource ↔
      (describeTechnology graph action).Writes resource ∨ ∃ node, resource = .node node ∧
        ((∃ spec, .insertNode node spec ∈ action.graphChanges graph) ∨
          ∃ access, .blockInterface node access ∈ action.guarantees graph) := by
  have houtputs := @lockedNode_of_output graph action
  rw [describeAction, addOutputResources_outputs] at houtputs
  rw [describeAction, writes_addOutputResources]
  refine or_congr writes_readConsumerMounts ?_
  simp only [← houtputs, List.mem_map, List.mem_filterMap]
  exact exists_congr fun node => by rw [and_comm, eq_comm]

/-- A partition action writes its table with the rest. -/
theorem writes_describePartition {action : PartitionAction} :
    (describePartition graph action).Writes resource ↔
      (describePartitionAction graph action).Writes resource ∨
        resource ∈ (action.mutated.bind (partitionTable graph)).toList.map .partitionTable := by
  rw [describePartition]
  split
  · next table htable => simp [htable]
  · next htable => simp [htable]

/-- An inspection writes nothing. -/
@[simp] theorem writes_inspectionContract {filesystem : NodeId} :
    ¬(inspectionContract graph filesystem).Writes resource := by
  simp [inspectionContract]

/-- A new group writes its members and its metadata. -/
theorem writes_describeLvm_createVg {plannedNodeId : NodeId} {name : String} {pvs : List NodeId} :
    (describeLvm graph (.createVg plannedNodeId name pvs)).Writes resource ↔
      resource ∈ pvs.map .node ∨ resource = .lvmMetadata plannedNodeId := by
  rw [describeLvm]
  refine (writes_foldl_same (fun _ _ => by simp) pvs).trans ?_
  simp only [ActionContract.writes_establish, ActionContract.writes_changeGraph,
    ActionContract.writes_write]
  refine or_congr_left ((writes_foldl (fun _ _ => by simp) pvs).trans ?_)
  simp

theorem writes_describeBtrfs_create {members : List NodeId} {plannedNodeId : NodeId}
    {label : Option String} {allocation : BtrfsAllocation} :
    (describeBtrfs graph (.create members plannedNodeId label allocation)).Writes resource ↔
      resource ∈ members.map .node := by
  rw [describeBtrfs]
  refine (writes_foldl_same (fun _ _ => by simp) members).trans ?_
  simp only [ActionContract.writes_establish, ActionContract.writes_changeGraph]
  refine (writes_foldl (fun _ _ => by simp) members).trans ?_
  simp

/-- An activation writes its target. -/
theorem writes_describeLvm_setActivation {target : NodeId} {active : Bool} :
    (describeLvm graph (.setActivation target active)).Writes resource ↔
      resource = .node target := by
  unfold describeLvm
  dsimp only
  split <;> simp

/-- A filesystem resize writes the filesystem and what backs it. -/
theorem writes_describeFilesystem_resize {filesystem : NodeId} {newSize : Bytes} :
    (describeFilesystem graph (.resize filesystem newSize)).Writes resource ↔
      resource = .node filesystem ∨ resource ∈ (backingNodes graph filesystem).map .node := by
  rw [describeFilesystem, writes_accessFilesystemBacking_write, writes_ite]
  · rw [writes_ite (by simp), writes_resizeContract]
  · exact ActionContract.writes_require

/-- A volume resize writes the volume and its group's metadata. -/
theorem writes_describeLvm_resizeLv {lv : NodeId} {newSize : Bytes} :
    (describeLvm graph (.resizeLv lv newSize)).Writes resource ↔
      resource = .node lv ∨ resource ∈ (lvmVolumeGroup graph lv).toList.map .lvmMetadata := by
  rw [describeLvm]
  cases lvmVolumeGroup graph lv <;> simp

/-- A removed volume is written with its group's metadata. -/
theorem writes_describeLvm_removeLv {lv : NodeId} :
    (describeLvm graph (.removeLv lv)).Writes resource ↔
      resource = .node lv ∨ resource ∈ (lvmVolumeGroup graph lv).toList.map .lvmMetadata := by
  rw [describeLvm]
  cases lvmVolumeGroup graph lv <;> simp

/-- The endpoint an activation guarantees is the node's own. -/
theorem mem_guarantees_setActivation {target node : NodeId} {active : Bool}
    {access : BlockInterfaceAccess}
    (h : .blockInterface node access ∈
      ProviderAction.guarantees graph (.lvm (.setActivation target active))) : node = target := by
  cases active with
  | false => cases h
  | true =>
      rw [ProviderAction.guarantees] at h
      split at h
      · cases List.mem_singleton.mp h
        rfl
      · cases h

/-- **The write locks of the trusted contract.** -/
theorem writes_describeAction {action : ProviderAction} :
    (describeAction action graph).Writes resource ↔ resource ∈ action.locks graph := by
  rw [writes_describeAction_iff]
  -- Every technology locks what it changes; the outputs add the nodes that it creates.
  cases action with
  | partition action =>
      rw [describeTechnology, writes_describePartition]
      cases action <;> simp [describePartitionAction, ProviderAction.locks,
        ProviderAction.graphChanges, PartitionAction.graphChanges, creation, removal,
        PartitionAction.mutated, ProviderAction.guarantees, or_assoc]
  | luks action =>
      cases action with
      | resize mapping size =>
          cases size <;> simp [describeTechnology, describeLuks, ProviderAction.locks,
            ProviderAction.graphChanges, LuksAction.graphChanges, ProviderAction.guarantees]
      | _ =>
          simp [describeTechnology, describeLuks, ProviderAction.locks, ProviderAction.graphChanges,
            LuksAction.graphChanges, creation, removal, ProviderAction.guarantees]
  | lvm action =>
      cases action with
      | createPv | createLv =>
          simp [describeTechnology, describeLvm, ProviderAction.locks, ProviderAction.graphChanges,
            LvmAction.graphChanges, creation, ProviderAction.guarantees]
      | createVg plannedNodeId name pvs =>
          rw [describeTechnology, writes_describeLvm_createVg]
          simp [ProviderAction.locks, ProviderAction.graphChanges, LvmAction.graphChanges, creation,
            ProviderAction.guarantees, or_assoc]
      | resizeLv lv newSize =>
          rw [describeTechnology, writes_describeLvm_resizeLv]
          simp [ProviderAction.locks, ProviderAction.graphChanges, LvmAction.graphChanges,
            ProviderAction.guarantees]
      | removeLv lv =>
          rw [describeTechnology, writes_describeLvm_removeLv]
          simp [ProviderAction.locks, ProviderAction.graphChanges, LvmAction.graphChanges, removal,
            ProviderAction.guarantees]
      | setActivation target active =>
          rw [describeTechnology, writes_describeLvm_setActivation]
          simp only [ProviderAction.locks, List.mem_singleton, or_iff_left_iff_imp]
          rintro ⟨node, rfl, ⟨spec, hinsert⟩ | ⟨access, hoffered⟩⟩
          · cases List.mem_singleton.mp hinsert
          · rw [mem_guarantees_setActivation hoffered]
  | filesystem action =>
      cases action with
      | resize filesystem newSize =>
          rw [describeTechnology, writes_describeFilesystem_resize]
          simp [ProviderAction.locks, ProviderAction.graphChanges, FilesystemAction.graphChanges,
            ProviderAction.guarantees]
      | check filesystem force =>
          rw [describeTechnology, describeFilesystem, writes_ite (by simp)]
          simp only [writes_inspectionContract, ProviderAction.locks, List.not_mem_nil, false_or,
            iff_false]
          rintro ⟨node, -, ⟨spec, hinsert⟩ | ⟨access, hoffered⟩⟩
          · cases hinsert
          · rw [ProviderAction.guarantees] at hoffered
            split at hoffered <;> simp at hoffered
      | _ =>
          simp [describeTechnology, describeFilesystem, ProviderAction.locks,
            ProviderAction.graphChanges, FilesystemAction.graphChanges, creation,
            ProviderAction.guarantees]
  | btrfs action =>
      cases action with
      | create members plannedNodeId label allocation =>
          rw [describeTechnology, writes_describeBtrfs_create]
          simp [ProviderAction.locks, ProviderAction.graphChanges, BtrfsAction.graphChanges,
            creation, ProviderAction.guarantees]
      | _ =>
          simp [describeTechnology, describeBtrfs, btrfsMembershipContract, ProviderAction.locks,
            ProviderAction.graphChanges, BtrfsAction.graphChanges, creation,
            ProviderAction.guarantees]
  | mount action =>
      cases action with
      | persist entry =>
          cases hsource : entry.source.node <;> simp [describeTechnology, describeMount,
            ProviderAction.locks, ProviderAction.graphChanges, ProviderAction.guarantees, hsource]
      | _ =>
          simp [describeTechnology, describeMount, ProviderAction.locks,
            ProviderAction.graphChanges, ProviderAction.guarantees]

end Locks

end DisksGraph
