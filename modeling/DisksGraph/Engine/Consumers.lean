import DisksGraph.Engine.Outcome

/-!
# Engine — Consumers

What the checks about the users of a node see, and what they do not.

* `dependents_fit_iff`: `DependentsFitWithin` looks at the nodes a device backs.  It says nothing of
  a group the device is a member of, or of a cache it serves.
* `filesystem_unmounted_iff`: `FilesystemUnmounted` looks at mounts of the filesystem itself.  It
  says nothing of a mounted subvolume.
* `claims_free_iff`: a step that takes a device takes a free one, except where an action does not
  ask: `Open`, `CreateVg` and `AddDevice`.
-/

namespace DisksGraph

/-! ### Dependents of a device -/

namespace DependencyKind

/-- The edge makes its target a user of the blocks of its source. -/
def consumesBlocks : DependencyKind → Bool
  | .backs | .memberOf _ | .caches _ => true
  | .contains _ | .provides | .path => false

end DependencyKind

/-- Every user of the blocks of a node is a node it backs, of a known size that fits. -/
def ConsumersFit (graph : NodeGraph) (node : NodeId) (size : Bytes) : Prop :=
  ∀ edge ∈ graph.dependencies, edge.source = node → edge.kind.consumesBlocks →
    edge.kind = .backs ∧ ∃ used, knownSize graph edge.target = some used ∧ used ≤ size

/-- Every node that a present node backs has a known size that fits. -/
def BackedFit (graph : NodeGraph) (node : NodeId) (size : Bytes) : Prop :=
  graph.contains node ∧ ∀ edge ∈ graph.dependencies, edge.source = node → edge.kind = .backs →
    ∃ used, knownSize graph edge.target = some used ∧ used ≤ size

/-- The node is neither a member of a group nor part of a cache. -/
def Ungrouped (graph : NodeGraph) (node : NodeId) : Prop :=
  ∀ edge ∈ graph.dependencies, edge.source = node → edge.kind.consumesBlocks → edge.kind = .backs

section Dependents

variable {desired : DesiredState} {evidence : SimulationEvidence} {node : NodeId} {size : Bytes}

theorem isBacks_iff {kind : DependencyKind} : kind.isBacks = true ↔ kind = .backs := by
  cases kind <;> simp [DependencyKind.isBacks]

theorem scanDependents_satisfied {edges : List Dependency} {found unknown predicted : Bool} :
    (∃ source, scanDependents desired evidence node size edges found unknown predicted =
        .satisfied source) ↔
      unknown = false ∧ ∀ edge ∈ edges, ∃ used, knownSize desired.graph edge.target = some used ∧
        used ≤ size := by
  induction edges generalizing found unknown predicted with
  | nil =>
      cases unknown with
      | true => simp [scanDependents]
      | false => cases found <;> simp [scanDependents, satisfiedForNode]
  | cons edge rest ih =>
      rw [scanDependents]
      cases hnode : desired.graph.node edge.target with
      | none => simp [knownSize, hnode]
      | some dependent =>
          dsimp only
          cases hsize : dependent.kind.size with
          | none => simp [ih, knownSize, hnode, hsize]
          | some used =>
              dsimp only
              by_cases hfits : used > size
              · have hlarge : ¬used ≤ size := Nat.not_le.mpr hfits
                simp [knownSize, hnode, hsize, hfits, hlarge]
              · rw [if_neg hfits, ih]
                have hsmall : used ≤ size := Nat.not_lt.mp hfits
                simp [knownSize, hnode, hsize, hsmall]

/-- A dependent that is absent or known to be too large is a violation, wherever it is met and
whatever is unknown of the others. -/
theorem scanDependents_violated {edges : List Dependency} {found unknown predicted : Bool} :
    (scanDependents desired evidence node size edges found unknown predicted).isViolated = true ↔
      ∃ edge ∈ edges, desired.graph.node edge.target = none ∨
        ∃ used, knownSize desired.graph edge.target = some used ∧ size < used := by
  induction edges generalizing found unknown predicted with
  | nil =>
      cases unknown with
      | true => simp [scanDependents, CheckStatus.isViolated]
      | false => cases found <;> simp [scanDependents, satisfiedForNode, CheckStatus.isViolated]
  | cons edge rest ih =>
      rw [scanDependents, List.exists_mem_cons_iff]
      cases hnode : desired.graph.node edge.target with
      | none => simp [CheckStatus.isViolated]
      | some dependent =>
          dsimp only
          cases hsize : dependent.kind.size with
          | none => simp [ih, knownSize, hnode, hsize]
          | some used =>
              dsimp only
              by_cases hfits : used > size
              · simp [knownSize, hnode, hsize, hfits, CheckStatus.isViolated]
              · rw [if_neg hfits, ih]
                have hsmall : ¬size < used := hfits
                simp [knownSize, hnode, hsize, hsmall]

theorem evaluateDependentSizes_satisfied :
    (∃ source, evaluatePrerequisite desired evidence (.dependentsFitWithin node size) =
      .satisfied source) ↔ BackedFit desired.graph node size := by
  rw [evaluatePrerequisite, evaluateDependentSizes, BackedFit]
  by_cases hcontains : desired.graph.contains node
  · rw [hcontains, Bool.not_true, if_neg Bool.false_ne_true, scanDependents_satisfied]
    simp [isBacks_iff]
  · simp [hcontains]

end Dependents

/-- **What `DependentsFitWithin` means.**  A satisfied check speaks for all users of the node's
blocks exactly when the node is in no group and no cache, or a dependent of it keeps the check from
being satisfied. -/
theorem dependents_fit_iff (desired : DesiredState) (evidence : SimulationEvidence) (node : NodeId)
    (size : Bytes) :
    ((∃ source, evaluatePrerequisite desired evidence (.dependentsFitWithin node size) =
        .satisfied source) → ConsumersFit desired.graph node size) ↔
      Ungrouped desired.graph node ∨ ¬BackedFit desired.graph node size := by
  rw [evaluateDependentSizes_satisfied]
  constructor
  · intro h
    by_cases hfit : BackedFit desired.graph node size
    · exact .inl fun edge hedge hsource hconsumes => (h hfit edge hedge hsource hconsumes).1
    · exact .inr hfit
  · rintro (hungrouped | hnot) hfit
    · intro edge hedge hsource hconsumes
      have hbacks := hungrouped edge hedge hsource hconsumes
      exact ⟨hbacks, hfit.2 edge hedge hsource hbacks⟩
    · exact absurd hfit hnot

/-- A disk that is a member of an array. -/
def groupedDisk : NodeId := ⟨1#128⟩

/-- The MD array the disk is a member of. -/
def groupedArray : NodeId := ⟨2#128⟩

/-- A disk that is a member of an MD array and backs nothing. -/
def groupedGraph : NodeGraph :=
  ((NodeGraph.empty.setNode groupedDisk ⟨⟨.disk, some 100⟩, {}⟩).setNode groupedArray
    ⟨⟨.mdArray ⟨.raid .raid1, .native .v1_2⟩, some 100⟩, {}⟩).insertDependency
    ⟨groupedDisk, groupedArray, .memberOf (.md ⟨.data, none, none⟩)⟩

/-- The disk may shrink to a tenth of what the array uses of it. -/
theorem member_fits_any_size :
    evaluatePrerequisite ⟨groupedGraph, {}, .unmanaged, []⟩ {}
      (.dependentsFitWithin groupedDisk 10) =
        .satisfied .observedSnapshot ∧ ¬ConsumersFit groupedGraph groupedDisk 10 := by
  refine ⟨by decide +kernel, fun h => ?_⟩
  cases (h ⟨groupedDisk, groupedArray, .memberOf (.md ⟨.data, none, none⟩)⟩ (by decide) rfl rfl).1

/-! ### Mounts of a filesystem -/

/-- One node provides another. -/
def ProvidesTo (graph : NodeGraph) (a b : NodeId) : Prop := ⟨a, b, .provides⟩ ∈ graph.dependencies

/-- The mount comes from a subvolume of the filesystem. -/
def MountEntry.ThroughSubvolume (graph : NodeGraph) (filesystem : NodeId) (entry : MountEntry) :
    Prop :=
  ∃ subvolume, entry.source = .btrfsSubvolume subvolume ∧
    Relation.TransGen (ProvidesTo graph) filesystem subvolume

/-- No runtime mount, in any context, comes from the filesystem or from a subvolume of it. -/
def Unmounted (desired : DesiredState) (filesystem : NodeId) : Prop :=
  ∀ entry ∈ desired.mounts.runtime, entry.source ≠ .filesystem filesystem ∧
    ¬entry.ThroughSubvolume desired.graph filesystem

/-- The action checks, repairs or may shrink the filesystem. -/
def ProviderAction.WorksOffline (graph : NodeGraph) (filesystem : NodeId) :
    ProviderAction → Prop
  | .filesystem (.check target _) | .filesystem (.repair target _) => target = filesystem
  | .filesystem (.resize target newSize) =>
      target = filesystem ∧ (knownSize graph target).all (· > newSize)
  | _ => False

/-- The mounts of the filesystem that the check does see, if there are any. -/
def SeenMounted (desired : DesiredState) (filesystem : NodeId) : Prop :=
  ∃ entry ∈ desired.mounts.runtime,
    entry.source = .filesystem filesystem ∨ entry.source.isUnresolved

section Unmounted

variable {desired : DesiredState} {evidence : SimulationEvidence} {filesystem : NodeId}

theorem filesystemUnmounted_satisfied :
    (∃ source, evaluatePrerequisite desired evidence (.filesystemUnmounted filesystem) =
      .satisfied source) ↔
      desired.graph.contains filesystem ∧ ¬SeenMounted desired filesystem := by
  rw [evaluatePrerequisite]
  by_cases hcontains : desired.graph.contains filesystem
  · rw [hcontains, Bool.not_true, if_neg Bool.false_ne_true]
    by_cases hmounted : desired.mounts.runtime.any (·.source == .filesystem filesystem)
    · rw [if_pos hmounted]
      obtain ⟨entry, hentry, hsource⟩ := List.any_eq_true.mp hmounted
      have hseen : SeenMounted desired filesystem :=
        ⟨entry, hentry, .inl (beq_iff_eq.mp hsource)⟩
      simp [hseen]
    · rw [if_neg hmounted]
      by_cases hunresolved : hasUnresolvedMount desired
      · rw [if_pos hunresolved]
        obtain ⟨entry, hentry, hsource⟩ := List.any_eq_true.mp hunresolved
        have hseen : SeenMounted desired filesystem := ⟨entry, hentry, .inr hsource⟩
        simp [hseen]
      · rw [if_neg hunresolved]
        have hunseen : ¬SeenMounted desired filesystem := by
          rintro ⟨entry, hentry, hsource | hsource⟩
          · exact hmounted (List.any_eq_true.mpr ⟨entry, hentry, beq_iff_eq.mpr hsource⟩)
          · exact hunresolved (List.any_eq_true.mpr ⟨entry, hentry, hsource⟩)
        simp [hunseen]
  · simp [hcontains]

/-- Offline work asks for an unmounted filesystem. -/
theorem requires_filesystemUnmounted {graph : NodeGraph} {action : ProviderAction}
    (h : action.WorksOffline graph filesystem) :
    (describeAction action graph).Requires (.filesystemUnmounted filesystem) := by
  rw [requires_describeAction]
  unfold ProviderAction.WorksOffline at h
  split at h
  next target force =>
    subst h
    rw [describeTechnology, describeFilesystem]
    have hinspection :
        (inspectionContract graph target).Requires (.filesystemUnmounted target) := by
      rw [inspectionContract, ActionContract.requires_establish, ActionContract.requires_invalidate]
      exact requires_accessFilesystemBacking (by simp)
    exact .ite hinspection hinspection
  next target force =>
    subst h
    rw [describeTechnology, describeFilesystem, ActionContract.requires_establish,
      ActionContract.requires_invalidate]
    exact requires_accessFilesystemBacking (by simp)
  next target newSize =>
    obtain ⟨rfl, hshrinks⟩ := h
    rw [describeTechnology, describeFilesystem]
    refine requires_accessFilesystemBacking ?_
    simp [hshrinks]
  next => cases h

end Unmounted

/-- **What `FilesystemUnmounted` means.**  A satisfied check speaks for every mount of the
filesystem, and offline work whose checks are all satisfied is done on an unmounted one, exactly
when no subvolume of the filesystem is mounted, or something else keeps the check from being
satisfied. -/
theorem filesystem_unmounted_iff (projection : Projection) (filesystem : NodeId) :
    (((∃ source, evaluatePrerequisite projection.desired projection.evidence
        (.filesystemUnmounted filesystem) = .satisfied source) →
        Unmounted projection.desired filesystem) ∧
      ∀ action result next, action.WorksOffline projection.graph filesystem →
        simulateAction projection action = .ok (result, next) →
        (∀ check ∈ result.checks, ∃ source, check.status = .satisfied source) →
        Unmounted projection.desired filesystem) ↔
      (∀ entry ∈ projection.desired.mounts.runtime,
        ¬entry.ThroughSubvolume projection.graph filesystem) ∨
      projection.graph.contains filesystem = false ∨ SeenMounted projection.desired filesystem := by
  have hcheck : ((∃ source, evaluatePrerequisite projection.desired projection.evidence
      (.filesystemUnmounted filesystem) = .satisfied source) →
      Unmounted projection.desired filesystem) ↔
      (∀ entry ∈ projection.desired.mounts.runtime,
        ¬entry.ThroughSubvolume projection.graph filesystem) ∨
      projection.graph.contains filesystem = false ∨
      SeenMounted projection.desired filesystem := by
    rw [filesystemUnmounted_satisfied]
    constructor
    · intro h
      by_cases hpre : projection.desired.graph.contains filesystem = true ∧
          ¬SeenMounted projection.desired filesystem
      · exact .inl fun entry hentry => (h hpre entry hentry).2
      · rw [not_and_or, not_not, Bool.not_eq_true] at hpre
        exact .inr hpre
    · rintro (hfree | hcontains | hseen) ⟨hpresent, hunseen⟩
      · refine fun entry hentry => ⟨fun hsource => ?_, hfree entry hentry⟩
        exact hunseen ⟨entry, hentry, .inl hsource⟩
      · exact absurd hpresent (Bool.eq_false_iff.mp hcontains)
      · exact absurd hseen hunseen
  refine ⟨fun h => hcheck.mp h.1, fun h => ⟨hcheck.mpr h, ?_⟩⟩
  intro action result next hoffline hsimulate hsatisfied
  obtain ⟨hcontract, hchecks, -⟩ := simulateAction_ok hsimulate
  have hmem : ⟨.filesystemUnmounted filesystem, evaluatePrerequisite projection.desired
      projection.evidence (.filesystemUnmounted filesystem)⟩ ∈ result.checks := by
    rw [hchecks, hcontract]
    exact List.mem_map_of_mem (requires_filesystemUnmounted hoffline)
  exact hcheck.mpr h (hsatisfied _ hmem)

/-- A Btrfs filesystem whose only subvolume is mounted. -/
def sharedFilesystem : NodeId := ⟨1#128⟩

/-- A subvolume of the shared Btrfs filesystem. -/
def sharedSubvolume : NodeId := ⟨2#128⟩

/-- A Btrfs filesystem with one subvolume. -/
def sharedGraph : NodeGraph :=
  ((NodeGraph.empty.setNode sharedFilesystem
    ⟨⟨.filesystem (.btrfs ⟨∅, ∅, ∅⟩) none, none⟩, {}⟩).setNode sharedSubvolume
    ⟨⟨.btrfsSubvolume "home" false false, none⟩, {}⟩).insertDependency
    ⟨sharedFilesystem, sharedSubvolume, .provides⟩

/-- The same graph with the subvolume mounted at `/home`. -/
def sharedState : DesiredState where
  graph := sharedGraph
  mounts :=
    { runtime := [⟨.btrfsSubvolume sharedSubvolume, ⟨[.rootDir, .normal "home"]⟩, [], .host⟩] }
  boot := .unmanaged
  intents := []

/-- The filesystem counts as unmounted, and every check of a forced inspection is satisfied. -/
theorem mounted_subvolume_unseen :
    evaluatePrerequisite sharedState {} (.filesystemUnmounted sharedFilesystem) =
        .satisfied .observedSnapshot ∧
      (simulateAction ⟨sharedState, {}⟩ (.filesystem (.check sharedFilesystem true))).toOption.any
        (fun outcome => outcome.1.checks.all fun check =>
          check.status == .satisfied .observedSnapshot) = true ∧
      ¬Unmounted sharedState sharedFilesystem := by
  refine ⟨by decide +kernel, by decide +kernel, fun h => ?_⟩
  refine (h ⟨.btrfsSubvolume sharedSubvolume, ⟨[.rootDir, .normal "home"]⟩, [], .host⟩
    List.mem_cons_self).2 ⟨sharedSubvolume, rfl, .single ?_⟩
  show (⟨sharedFilesystem, sharedSubvolume, .provides⟩ : Dependency) ∈ sharedGraph.dependencies
  decide

/-! ### Taking a device -/

namespace DependencyKind

/-- The edge takes its source for one consumer. -/
def isClaim : DependencyKind → Bool
  | .backs | .memberOf _ => true
  | _ => false

end DependencyKind

/-- The node backs something or is a member of something. -/
def Claimed (graph : NodeGraph) (node : NodeId) : Prop :=
  ∃ edge ∈ graph.dependencies, edge.source = node ∧ edge.kind.isClaim

/-- The step claims only nodes that were free before it. -/
def ClaimsFree (graph next : NodeGraph) : Prop :=
  ∀ edge ∈ next.dependencies, edge ∉ graph.dependencies → edge.kind.isClaim →
    (graph.kindOf edge.source).any (fun kind => matchesKind kind .block) →
    ¬Claimed graph edge.source

namespace ProviderAction

/-- The claims of an action whose contract does not ask for a free node. -/
def unguarded : ProviderAction → List Dependency
  | .luks (.open container plannedNodeId _ _ _) => [⟨container, plannedNodeId, .backs⟩]
  | .lvm (.createVg plannedNodeId _ pvs) =>
      pvs.map fun pv => ⟨pv, plannedNodeId, .memberOf .lvmPv⟩
  | .btrfs (.addDevice target device) => [btrfsMembership device target]
  | _ => []

/-- An edge that an action inserts is unguarded, claims nothing, or claims a node the action formats
and so requires to be free. -/
theorem claims_inserted {action : ProviderAction} {graph : NodeGraph} {edge : Dependency}
    (h : .insertDependency edge ∈ action.graphChanges graph) :
    edge ∈ action.unguarded ∨ edge.kind.isClaim = false ∨ edge.source ∈ action.formatted := by
  cases action with
  | partition action =>
      cases action <;>
        simp [graphChanges, PartitionAction.graphChanges, creation, removal] at h
      all_goals
        subst h
        simp [formatted, DependencyKind.isClaim]
  | luks action =>
      cases action with
      | resize mapping size => cases size <;> simp [graphChanges, LuksAction.graphChanges] at h
      | _ =>
          simp [graphChanges, LuksAction.graphChanges, creation, removal] at h
          try
            subst h
            simp [formatted, unguarded]
  | lvm action =>
      cases action <;> simp [graphChanges, LvmAction.graphChanges, creation, removal] at h
      case createVg =>
          obtain ⟨pv, hpv, rfl⟩ := h
          exact .inl (List.mem_map_of_mem hpv)
      all_goals
        subst h
        simp [formatted, DependencyKind.isClaim]
  | filesystem action =>
      cases action <;> simp [graphChanges, FilesystemAction.graphChanges, creation] at h
      subst h
      simp [formatted]
  | btrfs action =>
      cases action <;> simp [graphChanges, BtrfsAction.graphChanges, creation] at h
      case create =>
          obtain ⟨member, hmember, rfl⟩ := h
          exact .inr (.inr hmember)
      all_goals
        subst h
        simp [unguarded, DependencyKind.isClaim]
  | mount => cases h

theorem isClaim_of_unguarded {action : ProviderAction} {edge : Dependency}
    (h : edge ∈ action.unguarded) : edge.kind.isClaim = true := by
  unfold unguarded at h
  split at h
  · obtain rfl := List.mem_singleton.mp h
    rfl
  · obtain ⟨pv, -, rfl⟩ := List.mem_map.mp h
    rfl
  · obtain rfl := List.mem_singleton.mp h
    rfl
  · cases h

/-- The claims that go unasked are edges the action inserts. -/
theorem inserted_of_unguarded {action : ProviderAction} {graph : NodeGraph} {edge : Dependency}
    (h : edge ∈ action.unguarded) : .insertDependency edge ∈ action.graphChanges graph := by
  unfold unguarded at h
  split at h
  · exact List.mem_cons_of_mem _ (List.mem_map_of_mem h)
  · exact List.mem_cons_of_mem _ (List.mem_map_of_mem h)
  · obtain rfl := List.mem_singleton.mp h
    exact List.mem_singleton_self _
  · cases h

end ProviderAction

section Claims

variable {projection next : Projection} {action : ProviderAction} {result : SimulatedAction}
  {edge : Dependency}

/-- The nodes that an action claims without asking are there and of a kind that can be claimed. -/
theorem kind_of_unguarded (h : simulateAction projection action = .ok (result, next))
    (hedge : edge ∈ action.unguarded) :
    (projection.graph.kindOf edge.source).any (fun kind => matchesKind kind .block) = true := by
  have hkind : ∃ expected, (describeAction action projection.graph).Requires
      (.nodeKind edge.source expected) ∧
      ∀ kind, matchesKind kind expected = true → matchesKind kind .block = true := by
    unfold ProviderAction.unguarded at hedge
    split at hedge
    · cases List.mem_singleton.mp hedge
      refine ⟨.luksContainer, ?_, fun kind hkind => by cases kind <;> first | rfl | cases hkind⟩
      rw [requires_describeAction, describeTechnology, describeLuks]
      simp
    · obtain ⟨pv, hpv, rfl⟩ := List.mem_map.mp hedge
      refine ⟨.lvmPv, ?_, fun kind hkind => by cases kind <;> first | rfl | cases hkind⟩
      rw [requires_describeAction, describeTechnology]
      exact requires_describeLvm_createVg hpv
    · cases List.mem_singleton.mp hedge
      refine ⟨.block, ?_, fun kind hkind => hkind⟩
      rw [requires_describeAction, describeTechnology, describeBtrfs, btrfsMembershipContract]
      simp [btrfsMembership]
    · cases hedge
  obtain ⟨expected, hrequires, hmatches⟩ := hkind
  obtain ⟨kind, hkind, hexpected⟩ := kind_of_nodeKind (simulateAction_requires h hrequires)
  rw [Projection.graph, hkind]
  exact hmatches kind hexpected

end Claims

/-- **One consumer each.**  A step claims only free nodes exactly when the claims for which its
action does not ask are of free nodes. -/
theorem claims_free_iff {projection next : Projection} {action : ProviderAction}
    {result : SimulatedAction} (h : simulateAction projection action = .ok (result, next)) :
    ClaimsFree projection.graph next.graph ↔
      ∀ edge ∈ action.unguarded, edge ∉ projection.graph.dependencies →
        ¬Claimed projection.graph edge.source := by
  constructor
  · intro hfree edge hedge hnew
    have hnext := (simulateAction_mem_dependencies h edge).mpr
      (.inl (ProviderAction.inserted_of_unguarded hedge))
    exact hfree edge hnext hnew (ProviderAction.isClaim_of_unguarded hedge)
      (kind_of_unguarded h hedge)
  · intro hasked edge hnext hnew hclaim _
    have hinserted : .insertDependency edge ∈ action.graphChanges projection.graph := by
      rcases (simulateAction_mem_dependencies h edge).mp hnext with hinserted | ⟨hold, -⟩
      · exact hinserted
      · exact absurd hold hnew
    rcases ProviderAction.claims_inserted hinserted with hunguarded | hnone | hformatted
    · exact hasked edge hunguarded hnew
    · exact absurd hclaim (Bool.eq_false_iff.mp hnone)
    · rintro ⟨other, hother, hsource, -⟩
      have hunused := simulateAction_requires h (describeAction_formatted hformatted)
      exact (unused_of_noUnexpectedConsumers hunused).1 other hother hsource

/-- A container that is open already. -/
def openedContainer : NodeId := ⟨1#128⟩

/-- The mapping the container is open under. -/
def openedMapping : NodeId := ⟨2#128⟩

/-- Another mapping for the same container. -/
def secondMapping : NodeId := ⟨3#128⟩

/-- A LUKS container that nothing has opened. -/
def closedGraph : NodeGraph :=
  NodeGraph.empty.setNode openedContainer ⟨⟨.luksContainer .luks2, some 100⟩, {}⟩

/-- The container open under one mapping. -/
def openedGraph : NodeGraph :=
  (closedGraph.setNode openedMapping ⟨⟨.dmCryptMapping "data", some 100⟩, {}⟩).insertDependency
    ⟨openedContainer, openedMapping, .backs⟩

/-- Opens the container under a mapping of that name. -/
def openMapping (mapping : NodeId) (name : String) : ProviderAction :=
  .luks (.open openedContainer mapping name ⟨7#128⟩ true)

/-- Opening the closed container takes a free node. -/
theorem first_open_claims_free :
    ∃ result next, simulateAction ⟨⟨closedGraph, {}, .unmanaged, []⟩, {}⟩
        (openMapping openedMapping "data") = .ok (result, next) ∧
      ClaimsFree closedGraph next.graph := by
  obtain ⟨result, next, h⟩ : ∃ result next,
      simulateAction ⟨⟨closedGraph, {}, .unmanaged, []⟩, {}⟩ (openMapping openedMapping "data") =
        .ok (result, next) := ⟨_, _, rfl⟩
  refine ⟨result, next, h, (claims_free_iff h).mpr ?_⟩
  rintro edge - - ⟨other, hother, -⟩
  cases hother

/-- The open container can be opened again under another name. -/
theorem opened_twice :
    ∃ result next, simulateAction ⟨⟨openedGraph, {}, .unmanaged, []⟩, {}⟩
        (openMapping secondMapping "again") = .ok (result, next) ∧
      ¬ClaimsFree openedGraph next.graph := by
  refine ⟨_, _, rfl, fun h => ?_⟩
  have hclaimed : Claimed openedGraph openedContainer :=
    ⟨⟨openedContainer, openedMapping, .backs⟩, by decide, rfl, rfl⟩
  exact h ⟨openedContainer, secondMapping, .backs⟩ (by decide) (by decide) rfl (by decide) hclaimed

end DisksGraph
