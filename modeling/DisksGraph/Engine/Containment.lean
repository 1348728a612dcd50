import DisksGraph.Engine.Consumers
import DisksGraph.Model.Valid
import DisksGraph.Support.Folds

/-!
# Engine — Containment

Whether what lies on a device fits into it.

A resize declares which of its two sides it checks.  A mapping checks both, a partition and a
logical volume check what lies on them, and a filesystem checks what it lies on.

* `Contained`: a node with one backing device is not larger than the device.
* `KeepsContained`: the side that a resize does not check.
* `containment_step`: a step keeps containment exactly when that side is in order.
-/

namespace DisksGraph

/-! ### Containment -/

/-- One node backs another, and nothing else does. -/
def SoleBacking (graph : NodeGraph) (a b : NodeId) : Prop :=
  ⟨a, b, .backs⟩ ∈ graph.dependencies ∧
    ∀ edge ∈ graph.dependencies, edge.target = b → edge.kind = .backs → edge.source = a

/-- A node with one backing device, both of known size, is not larger than the device. -/
def Contained (graph : NodeGraph) : Prop :=
  ∀ a b, SoleBacking graph a b → ∀ backing size, knownSize graph a = some backing →
    knownSize graph b = some size → size ≤ backing

/-- A partition and a logical volume do not outgrow a device that backs them, and a filesystem does
not shrink below what it backs. -/
def KeepsContained (graph : NodeGraph) : ProviderAction → Prop
  | .partition (.resize node size) | .lvm (.resizeLv node size) =>
      ∀ a, SoleBacking graph a node → ∀ backing, knownSize graph a = some backing → size ≤ backing
  | .filesystem (.resize node size) =>
      ∀ b, SoleBacking graph node b → ∀ used, knownSize graph b = some used → used ≤ size
  | _ => True

/-! ### Another size -/

/-- The size fits into the device that alone backs the node. -/
def FitsBelow (graph : NodeGraph) (node : NodeId) (size : Bytes) : Prop :=
  ∀ a, SoleBacking graph a node → ∀ backing, knownSize graph a = some backing → size ≤ backing

/-- What the node alone backs fits into the size. -/
def FitsAbove (graph : NodeGraph) (node : NodeId) (size : Bytes) : Prop :=
  ∀ b, SoleBacking graph node b → ∀ used, knownSize graph b = some used → used ≤ size

section Resize

variable {graph next : NodeGraph} {node : NodeId}

theorem soleBacking_congr
    (hedges : ∀ edge, edge ∈ next.dependencies ↔ edge ∈ graph.dependencies) {a b : NodeId} :
    SoleBacking next a b ↔ SoleBacking graph a b := by
  simp only [SoleBacking, hedges]

/-- A node that is given another size has to fit below and above. -/
theorem contained_resize {size : Option Bytes} (hgraph : Contained graph)
    (hproper : ∀ edge ∈ graph.dependencies, edge.source ≠ edge.target)
    (hedges : ∀ edge, edge ∈ next.dependencies ↔ edge ∈ graph.dependencies)
    (hsizes : ∀ id, knownSize next id = if id = node then size else knownSize graph id) :
    Contained next ↔ ∀ value, size = some value →
      FitsBelow graph node value ∧ FitsAbove graph node value := by
  constructor
  · rintro hnext value rfl
    refine ⟨fun a hsole backing hbacking => ?_, fun b hsole used hused => ?_⟩
    · have hne : a ≠ node := hproper _ hsole.1
      refine hnext a node ((soleBacking_congr hedges).mpr hsole) backing value ?_ ?_
      · rw [hsizes, if_neg hne]
        exact hbacking
      · rw [hsizes, if_pos rfl]
    · have hne : b ≠ node := (hproper _ hsole.1).symm
      refine hnext node b ((soleBacking_congr hedges).mpr hsole) value used ?_ ?_
      · rw [hsizes, if_pos rfl]
      · rw [hsizes, if_neg hne]
        exact hused
  · intro hfits a b hsole backing used hbacking hused
    rw [soleBacking_congr hedges] at hsole
    have hne : a ≠ b := hproper _ hsole.1
    rw [hsizes] at hbacking hused
    by_cases ha : a = node
    · subst ha
      rw [if_pos rfl] at hbacking
      rw [if_neg hne.symm] at hused
      exact (hfits backing hbacking).2 b hsole used hused
    · rw [if_neg ha] at hbacking
      by_cases hb : b = node
      · subst hb
        rw [if_pos rfl] at hused
        exact (hfits used hused).1 a hsole backing hbacking
      · rw [if_neg hb] at hused
        exact hgraph a b hsole backing used hbacking hused

end Resize

section Checks

variable {desired : DesiredState} {evidence : SimulationEvidence} {node : NodeId} {size : Bytes}

/-- A dependent that is known to be too large is a violation, whatever is unknown of the others and
in whatever order the edges are visited. -/
theorem dependents_violated {edge : Dependency} (hedge : edge ∈ desired.graph.dependencies)
    (hsource : edge.source = node) (hbacks : edge.kind = .backs) {used : Bytes}
    (hused : knownSize desired.graph edge.target = some used) (hlarge : size < used) :
    (evaluatePrerequisite desired evidence (.dependentsFitWithin node size)).isViolated = true := by
  rw [evaluatePrerequisite, evaluateDependentSizes]
  split
  · rfl
  · refine scanDependents_violated.mpr
      ⟨edge, List.mem_filter.mpr ⟨hedge, ?_⟩, .inr ⟨used, hused, hlarge⟩⟩
    rw [Bool.and_eq_true, beq_iff_eq]
    exact ⟨hsource, isBacks_iff.mpr hbacks⟩

/-- A resize that checks what lies on the node leaves it room. -/
theorem fitsAbove_of_check (hcontained : Contained desired.graph)
    (hcheck : (knownSize desired.graph node).all (· > size) = true →
      (evaluatePrerequisite desired evidence (.dependentsFitWithin node size)).isViolated = false) :
    FitsAbove desired.graph node size := by
  intro b hsole used hused
  by_cases hshrinks : (knownSize desired.graph node).all (· > size) = true
  · by_contra hlarge
    have hviolated := @dependents_violated desired evidence node size _ hsole.1 rfl rfl used hused
      (Nat.not_le.mp hlarge)
    rw [hcheck hshrinks] at hviolated
    cases hviolated
  · cases hcurrent : knownSize desired.graph node with
    | none =>
        rw [hcurrent] at hshrinks
        exact absurd rfl hshrinks
    | some current =>
        have hgrows : current ≤ size := by simpa [hcurrent] using hshrinks
        exact Nat.le_trans (hcontained node b hsole current used hcurrent hused) hgrows

theorem backingNodes_of_soleBacking {graph : NodeGraph} {a : NodeId}
    (h : SoleBacking graph a node) : backingNodes graph node = [a] := by
  have hfilter : (graph.dependencies.filter fun edge =>
      edge.target == node && edge.kind.isBacks) = [⟨a, node, .backs⟩] := by
    refine (Support.filter_eq_singleton graph.nodup_dependencies).mpr
      ⟨h.1, by simp [isBacks_iff], ?_⟩
    intro edge hedge hpasses
    rw [Bool.and_eq_true, beq_iff_eq, isBacks_iff] at hpasses
    obtain ⟨source, target, kind⟩ := edge
    obtain ⟨rfl, rfl⟩ := hpasses
    rw [← h.2 _ hedge rfl rfl]
  rw [backingNodes, hfilter]
  rfl

/-- A resize that checks what the node lies on stays within it. -/
theorem fitsBelow_of_check (hcontained : Contained desired.graph)
    (hcheck : (knownSize desired.graph node).all (· < size) = true →
      (evaluatePrerequisite desired evidence (.backingSizeAtLeast node size)).isViolated = false) :
    FitsBelow desired.graph node size := by
  intro a hsole backing hbacking
  by_cases hgrows : (knownSize desired.graph node).all (· < size) = true
  · have hpassed := hcheck hgrows
    rw [evaluatePrerequisite, evaluateBackingSize, backingNodes_of_soleBacking hsole] at hpassed
    obtain ⟨value, hvalue, hsize⟩ := Option.bind_eq_some_iff.mp hbacking
    by_contra hsmall
    have hlt : backing < size := Nat.not_le.mp hsmall
    split at hpassed
    · cases hpassed
    · simp [hvalue, hsize, hlt, CheckStatus.isViolated] at hpassed
  · cases hcurrent : knownSize desired.graph node with
    | none =>
        rw [hcurrent] at hgrows
        exact absurd rfl hgrows
    | some current =>
        have hshrinks : size ≤ current := by simpa [hcurrent] using hgrows
        exact Nat.le_trans hshrinks (hcontained a node hsole backing current hbacking hcurrent)

end Checks

/-! ### One action -/

/-- The effect sets or forgets a size. -/
def GraphEffect.setsSize : GraphEffect → Bool
  | .setNodeSize .. | .invalidateNodeSize _ => true
  | _ => false

/-- Any other update keeps the size. -/
theorem size_of_update {effect : GraphEffect} {id : NodeId} {update : Node → Option Node}
    {old value : Node} (hother : effect.setsSize = false)
    (hupdate : Projection.nodeUpdate effect = some (id, update))
    (hvalue : update old = some value) :
    value.kind.size = old.kind.size := by
  unfold Projection.nodeUpdate at hupdate
  split at hupdate
  all_goals cases hupdate
  · cases hother
  · cases hother
  · unfold Projection.setAttributes at hvalue
    split at hvalue
    · obtain rfl := Option.some.inj hvalue
      rfl
    · cases hvalue
  · unfold Projection.setLabel at hvalue
    split at hvalue
    · obtain rfl := Option.some.inj hvalue
      rfl
    · cases hvalue
  · unfold Projection.setAllocation at hvalue
    split at hvalue
    · obtain rfl := Option.some.inj hvalue
      rfl
    · cases hvalue

namespace ProviderAction

/-- The node that an action gives another size, and the size. -/
def resizes : ProviderAction → Option (NodeId × Option Bytes)
  | .partition (.resize node size) => some (node, some size)
  | .luks (.resize node size) => some (node, size)
  | .lvm (.resizeLv node size) => some (node, some size)
  | .filesystem (.resize node size) => some (node, some size)
  | _ => none

theorem graphChanges_resizes {action : ProviderAction} {graph : NodeGraph} {node : NodeId}
    {size : Option Bytes} (h : action.resizes = some (node, size)) :
    ∃ effect, action.graphChanges graph = [effect] ∧
      Projection.nodeUpdate effect = some (node, Projection.setSize size) := by
  unfold resizes at h
  split at h
  · cases h
    exact ⟨_, rfl, rfl⟩
  · cases h
    cases size <;> exact ⟨_, rfl, rfl⟩
  · cases h
    exact ⟨_, rfl, rfl⟩
  · cases h
    exact ⟨_, rfl, rfl⟩
  · cases h

/-- A change of a size comes from a resize. -/
theorem resizes_of_setsSize {action : ProviderAction} {graph : NodeGraph} {effect : GraphEffect}
    (h : effect ∈ action.graphChanges graph) (hsize : effect.setsSize = true) :
    action.resizes ≠ none := by
  have hcreation : ∀ {planned : NodeId} {spec : NodeSpec} {edges : List Dependency},
      effect ∉ creation planned spec edges := by
    intro planned spec edges hmem
    rcases List.mem_cons.mp hmem with rfl | hmem
    · cases hsize
    · obtain ⟨edge, -, rfl⟩ := List.mem_map.mp hmem
      cases hsize
  have hremoval : ∀ {node : NodeId}, effect ∉ removal graph node := by
    intro node hmem
    rcases List.mem_cons.mp hmem with rfl | hmem
    · cases hsize
    · obtain ⟨edge, -, rfl⟩ := List.mem_map.mp hmem
      cases hsize
  have hsingle : ∀ {other : GraphEffect}, effect ∈ [other] → other.setsSize = true := by
    intro other hmem
    rw [← List.mem_singleton.mp hmem]
    exact hsize
  cases action with
  | partition action =>
      cases action with
      | createTable | create => exact absurd h hcreation
      | delete => exact absurd h hremoval
      | resize => nofun
      | setAttributes => cases hsingle h
  | luks action =>
      cases action with
      | format | «open» => exact absurd h hcreation
      | close => exact absurd h hremoval
      | resize => nofun
  | lvm action =>
      cases action with
      | createPv | createVg | createLv => exact absurd h hcreation
      | removeLv => exact absurd h hremoval
      | resizeLv => nofun
      | setActivation => cases hsingle h
  | filesystem action =>
      cases action with
      | create => exact absurd h hcreation
      | resize => nofun
      | check | repair => cases h
      | setLabel => cases hsingle h
  | btrfs action =>
      cases action with
      | create | createSubvolume => exact absurd h hcreation
      | addDevice | removeDevice | convertProfiles => cases hsingle h
  | mount => cases h

/-- A device that a new node lies on has the size of the node, where the node has one. -/
theorem inserted_backs {action : ProviderAction} {graph : NodeGraph} {a b : NodeId}
    (h : .insertDependency ⟨a, b, .backs⟩ ∈ action.graphChanges graph) :
    ∃ spec, .insertNode b spec ∈ action.graphChanges graph ∧
      (spec.size = none ∨ spec.size = knownSize graph a) := by
  cases action with
  | partition action =>
      cases action <;> simp [graphChanges, PartitionAction.graphChanges, creation, removal] at h
      obtain ⟨rfl, rfl⟩ := h
      exact ⟨_, List.mem_cons_self, .inr rfl⟩
  | luks action =>
      cases action with
      | format =>
          obtain ⟨rfl, rfl⟩ : a = _ ∧ b = _ := by
            simpa [graphChanges, LuksAction.graphChanges, creation] using h
          exact ⟨_, List.mem_cons_self, .inl rfl⟩
      | «open» =>
          obtain ⟨rfl, rfl⟩ : a = _ ∧ b = _ := by
            simpa [graphChanges, LuksAction.graphChanges, creation] using h
          exact ⟨_, List.mem_cons_self, .inr rfl⟩
      | close => simp [graphChanges, LuksAction.graphChanges, removal] at h
      | resize mapping size => cases size <;> simp [graphChanges, LuksAction.graphChanges] at h
  | lvm action =>
      cases action <;> simp [graphChanges, LvmAction.graphChanges, creation, removal] at h
      obtain ⟨rfl, rfl⟩ := h
      exact ⟨_, List.mem_cons_self, .inl rfl⟩
  | filesystem action =>
      cases action <;> simp [graphChanges, FilesystemAction.graphChanges, creation] at h
      obtain ⟨rfl, rfl⟩ := h
      exact ⟨_, List.mem_cons_self, .inl rfl⟩
  | btrfs action =>
      cases action <;>
        simp [graphChanges, BtrfsAction.graphChanges, creation, btrfsMembership] at h
  | mount => cases h

end ProviderAction

section Action

variable {projection next : Projection} {action : ProviderAction} {result : SimulatedAction}
  {node : NodeId} {size : Bytes}

/-- What a resize does to sizes and edges. -/
theorem simulateAction_resizes (h : simulateAction projection action = .ok (result, next))
    {size : Option Bytes} (hresizes : action.resizes = some (node, size)) :
    (∀ id, knownSize next.graph id = if id = node then size else knownSize projection.graph id) ∧
      ∀ edge, edge ∈ next.graph.dependencies ↔ edge ∈ projection.graph.dependencies := by
  obtain ⟨effect, hchanges, hupdate⟩ := ProviderAction.graphChanges_resizes hresizes
  obtain ⟨old, value, -, hvalue, hnodes, hedges⟩ :=
    (simulateAction_outcome h).of_update (hchanges ▸ List.mem_singleton_self effect) hupdate
  obtain rfl := Option.some.inj hvalue
  refine ⟨fun id => ?_, hedges⟩
  rw [knownSize, hnodes]
  split <;> rfl

/-- A node that a step without a resize neither inserts nor removes keeps its size. -/
theorem knownSize_of_other (h : simulateAction projection action = .ok (result, next))
    (hnone : action.resizes = none) (hbefore : projection.graph.node node ≠ none)
    (hafter : next.graph.node node ≠ none) :
    knownSize next.graph node = knownSize projection.graph node := by
  have houtcome := simulateAction_outcome h
  have hupdated : ∀ {effect : GraphEffect} {update : Node → Option Node},
      effect ∈ action.graphChanges projection.graph → effect.setsSize = false →
      Projection.nodeUpdate effect = some (node, update) →
      knownSize next.graph node = knownSize projection.graph node := by
    intro effect update heffect hother hupdate
    obtain ⟨old, value, hold, hvalue, hnodes, -⟩ := houtcome.of_update heffect hupdate
    rw [knownSize, hnodes, if_pos rfl, knownSize, hold]
    exact size_of_update hother hupdate hvalue
  by_cases htouched : ∃ effect ∈ action.graphChanges projection.graph, effect.touched = some node
  · obtain ⟨effect, heffect, htouched⟩ := htouched
    cases effect with
    | insertNode id spec =>
        cases htouched
        exact absurd (houtcome.of_insertNode heffect).1 hbefore
    | removeNode id =>
        cases htouched
        exact absurd (by rw [houtcome.of_removeNode heffect, if_pos rfl]) hafter
    | setNodeSize id size => exact absurd hnone (ProviderAction.resizes_of_setsSize heffect rfl)
    | invalidateNodeSize id => exact absurd hnone (ProviderAction.resizes_of_setsSize heffect rfl)
    | setPartitionAttributes | setFilesystemLabel | setBtrfsAllocation =>
        cases htouched
        exact hupdated heffect rfl rfl
    | _ => cases htouched
  · push Not at htouched
    rw [knownSize, houtcome.node_of_untouched htouched, knownSize]

/-- A step without a resize keeps containment: new nodes are not larger than what they lie on. -/
theorem contained_of_other (hvalid : projection.graph.validateStructure = .ok ())
    (hcontained : Contained projection.graph)
    (h : simulateAction projection action = .ok (result, next)) (hnone : action.resizes = none) :
    Contained next.graph := by
  have houtcome := simulateAction_outcome h
  obtain ⟨-, -, -, -, -, -, -, hnext⟩ := simulateAction_desired h
  have hsound := (NodeGraph.dependencies_of_validateStructure hvalid).1
  have hsound' := (NodeGraph.dependencies_of_validateStructure hnext).1
  have hpresent : ∀ {graph : NodeGraph} {id : NodeId}, graph.contains id = true →
      graph.node id ≠ none := by
    intro graph id hcontains hnode
    rw [NodeGraph.contains, hnode] at hcontains
    cases hcontains
  intro a b hsole backing size hbacking hsize
  obtain ⟨hedge, hothers⟩ := hsole
  have hends := hsound' _ hedge
  rcases (houtcome.mem_dependencies _).mp hedge with hinserted | ⟨hold, -⟩
  · -- A new edge leads to a new node, which takes its size from the device or has none.
    obtain ⟨spec, hinsert, hspec⟩ := ProviderAction.inserted_backs hinserted
    obtain ⟨habsent, hnodes⟩ := houtcome.of_insertNode hinsert
    have hne : a ≠ b := hends.proper
    rw [knownSize, hnodes, if_pos rfl] at hsize
    rw [knownSize, hnodes, if_neg hne] at hbacking
    have hspecSize : spec.size = some size := hsize
    rcases hspec with hunknown | hcopied
    · rw [hunknown] at hspecSize
      cases hspecSize
    · rw [hspecSize, knownSize, hbacking] at hcopied
      exact Nat.le_of_eq (Option.some.inj hcopied)
  · -- An old edge has its old ends, and no other node backs the upper one.
    have hends' := hsound _ hold
    rw [knownSize_of_other h hnone (hpresent hends'.source) (hpresent hends.source)] at hbacking
    rw [knownSize_of_other h hnone (hpresent hends'.target) (hpresent hends.target)] at hsize
    refine hcontained a b ⟨hold, fun edge hedge' htarget hbacks => ?_⟩ backing size hbacking hsize
    by_contra hother
    have hgone : edge ∉ next.graph.dependencies := fun hmem =>
      hother (hothers edge hmem htarget hbacks)
    rcases simulateAction_unlinks h hedge' hgone with ⟨-, -, hremoved⟩ |
      ⟨filesystem, device, -, rfl⟩
    · rw [htarget] at hremoved
      exact hpresent hends.target hremoved
    · have hmember := (@removedMembership_ends projection.graph filesystem device).2.2
      rw [hbacks] at hmember
      cases hmember

theorem requires_resizeContract_dependents {graph : NodeGraph} {expected : NodeKindClass}
    {safety : ResizeSafety} (hsafety : safety.dependents = true)
    (hshrinks : (knownSize graph node).all (· > size) = true) :
    (resizeContract graph node size expected safety).Requires (.dependentsFitWithin node size) := by
  simp [resizeContract, hsafety, hshrinks]

theorem requires_resizeContract_backing {graph : NodeGraph} {expected : NodeKindClass}
    {safety : ResizeSafety} (hsafety : safety.backing = true)
    (hgrows : (knownSize graph node).all (· < size) = true) :
    (resizeContract graph node size expected safety).Requires (.backingSizeAtLeast node size) := by
  simp [resizeContract, hsafety, hgrows]

/-- A partition, a mapping and a logical volume check what lies on them. -/
theorem fitsAbove_of_resize (hcontained : Contained projection.graph)
    (h : simulateAction projection action = .ok (result, next))
    (haction : action = .partition (.resize node size) ∨ action = .luks (.resize node (some size)) ∨
      action = .lvm (.resizeLv node size)) : FitsAbove projection.graph node size := by
  refine @fitsAbove_of_check projection.desired projection.evidence _ _ hcontained fun hshrinks => ?_
  refine simulateAction_requires h (requires_describeAction.mpr ?_)
  rcases haction with rfl | rfl | rfl
  · rw [describeTechnology, requires_describePartition]
    exact requires_resizeContract_dependents rfl hshrinks
  · exact requires_resizeContract_dependents rfl hshrinks
  · rw [describeTechnology, describeLvm]
    split
    · exact requires_resizeContract_dependents rfl hshrinks
    · rw [ActionContract.requires_invalidate]
      refine requires_resizeLvAllocation ?_
      rw [ActionContract.requires_write]
      exact requires_resizeContract_dependents rfl hshrinks

/-- A mapping and a filesystem check what they lie on. -/
theorem fitsBelow_of_resize (hcontained : Contained projection.graph)
    (h : simulateAction projection action = .ok (result, next))
    (haction : action = .luks (.resize node (some size)) ∨
      action = .filesystem (.resize node size)) : FitsBelow projection.graph node size := by
  refine @fitsBelow_of_check projection.desired projection.evidence _ _ hcontained fun hgrows => ?_
  refine simulateAction_requires h (requires_describeAction.mpr ?_)
  rcases haction with rfl | rfl
  · exact requires_resizeContract_backing rfl hgrows
  · rw [describeTechnology, describeFilesystem]
    have hresize : ∀ {p : Prop} [Decidable p],
        (if p then ((resizeContract projection.graph node size .filesystem .BACKING).require
          [.filesystemUnmounted node]).read .runtimeMountState
        else resizeContract projection.graph node size .filesystem .BACKING).Requires
          (.backingSizeAtLeast node size) := by
      intro p _
      refine .ite ?_ (requires_resizeContract_backing rfl hgrows)
      rw [ActionContract.requires_read, ActionContract.requires_require]
      exact .inl (requires_resizeContract_backing rfl hgrows)
    refine requires_accessFilesystemBacking (.ite ?_ hresize)
    rw [ActionContract.requires_require]
    exact .inl hresize

end Action

/-- **Capacity containment.**  From a valid graph whose nodes fit into their devices, a successful
step leads to another one exactly when a resize is in order on the side that it does not check: a
partition or a logical volume below, a filesystem above.  A dependent known to be too large is
always seen. -/
theorem containment_step {projection next : Projection} {action : ProviderAction}
    {result : SimulatedAction} (hvalid : projection.graph.validateStructure = .ok ())
    (hcontained : Contained projection.graph)
    (h : simulateAction projection action = .ok (result, next)) :
    (Contained next.graph ↔ KeepsContained projection.graph action) ∧
      ∀ (desired : DesiredState) (evidence : SimulationEvidence) (edge : Dependency)
        (size used : Bytes),
        edge ∈ desired.graph.dependencies → edge.kind = .backs →
        knownSize desired.graph edge.target = some used → size < used →
        (evaluatePrerequisite desired evidence
          (.dependentsFitWithin edge.source size)).isViolated = true := by
  refine ⟨?_, fun desired evidence edge size used hedge hbacks hused hlarge =>
    dependents_violated hedge rfl hbacks hused hlarge⟩
  have hproper : ∀ edge ∈ projection.graph.dependencies, edge.source ≠ edge.target :=
    fun edge hedge => ((NodeGraph.dependencies_of_validateStructure hvalid).1 edge hedge).proper
  -- A resize to a known size has to fit on both sides.
  have hresize : ∀ {node : NodeId} {size : Bytes}, action.resizes = some (node, some size) →
      (Contained next.graph ↔
        FitsBelow projection.graph node size ∧ FitsAbove projection.graph node size) := by
    intro node size hresizes
    obtain ⟨hsizes, hedges⟩ := simulateAction_resizes h hresizes
    rw [contained_resize hcontained hproper hedges hsizes]
    exact ⟨fun hfits => hfits size rfl, fun hfits value hvalue => Option.some.inj hvalue ▸ hfits⟩
  have hother : action.resizes = none → (Contained next.graph ↔ True) := fun hnone =>
    iff_true_intro (contained_of_other hvalid hcontained h hnone)
  cases action with
  | partition action =>
      cases action with
      | resize node size =>
          rw [hresize rfl]
          exact and_iff_left (fitsAbove_of_resize hcontained h (.inl rfl))
      | _ => exact hother rfl
  | luks action =>
      cases action with
      | resize node size =>
          cases size with
          | none =>
              obtain ⟨hsizes, hedges⟩ := simulateAction_resizes h rfl
              rw [contained_resize hcontained hproper hedges hsizes]
              exact iff_true_intro nofun
          | some size =>
              rw [hresize rfl]
              exact iff_true_intro ⟨fitsBelow_of_resize hcontained h (.inl rfl),
                fitsAbove_of_resize hcontained h (.inr (.inl rfl))⟩
      | _ => exact hother rfl
  | lvm action =>
      cases action with
      | resizeLv node size =>
          rw [hresize rfl]
          exact and_iff_left (fitsAbove_of_resize hcontained h (.inr (.inr rfl)))
      | _ => exact hother rfl
  | filesystem action =>
      cases action with
      | resize node size =>
          rw [hresize rfl]
          exact and_iff_right (fitsBelow_of_resize hcontained h (.inr rfl))
      | _ => exact hother rfl
  | _ => exact hother rfl

/-- A filesystem that backs a loop device. -/
def loopFilesystem : NodeId := ⟨1#128⟩

/-- A loop device smaller than the filesystem it maps. -/
def loopDevice : NodeId := ⟨2#128⟩

/-- A filesystem of 100 bytes backing a loop device of 80. -/
def loopGraph : NodeGraph :=
  ((NodeGraph.empty.setNode loopFilesystem
    ⟨⟨.filesystem .ext4 none, some 100⟩, {}⟩).setNode loopDevice
    ⟨⟨.loop none, some 80⟩, {}⟩).insertDependency ⟨loopFilesystem, loopDevice, .backs⟩

/-- The filesystem checked, and nothing mounted. -/
def loopProjection : Projection :=
  ⟨⟨loopGraph, {}, .unmanaged, []⟩, { checkedFilesystems := {loopFilesystem} }⟩

theorem mem_loopGraph {edge : Dependency} (h : edge ∈ loopGraph.dependencies) :
    edge = ⟨loopFilesystem, loopDevice, .backs⟩ := by
  rcases NodeGraph.mem_insertDependency.mp h with h | h
  · exact h
  · cases h

theorem contained_loopGraph : Contained loopGraph := by
  rintro a b ⟨hedge, -⟩ backing size hbacking hsize
  cases mem_loopGraph hedge
  obtain rfl : 100 = backing := Option.some.inj hbacking
  obtain rfl : 80 = size := Option.some.inj hsize
  decide

/-- The filesystem may grow. -/
theorem filesystem_grows_contained :
    ∃ result next, simulateAction loopProjection (.filesystem (.resize loopFilesystem 120)) =
      .ok (result, next) ∧ Contained next.graph := by
  obtain ⟨result, next, h⟩ : ∃ result next, simulateAction loopProjection
      (.filesystem (.resize loopFilesystem 120)) = .ok (result, next) := ⟨_, _, rfl⟩
  have hvalid : loopProjection.graph.validateStructure = .ok () := rfl
  have hcontained : Contained loopProjection.graph := contained_loopGraph
  refine ⟨result, next, h, (containment_step hvalid hcontained h).1.mpr ?_⟩
  rintro b ⟨hedge, -⟩ used hused
  cases mem_loopGraph hedge
  obtain rfl : 80 = used := Option.some.inj hused
  decide

/-- It also shrinks below the device that it backs. -/
theorem filesystem_shrinks_below_loop :
    ¬∀ projection action result next, Contained projection.graph →
      simulateAction projection action = .ok (result, next) → Contained next.graph := by
  intro hall
  have hcontained : Contained loopProjection.graph := contained_loopGraph
  obtain ⟨result, next, h⟩ : ∃ result next, simulateAction loopProjection
      (.filesystem (.resize loopFilesystem 50)) = .ok (result, next) := ⟨_, _, rfl⟩
  obtain ⟨hsizes, hedges⟩ := simulateAction_resizes h rfl
  have hsole : SoleBacking next.graph loopFilesystem loopDevice := by
    refine (soleBacking_congr hedges).mpr ⟨List.mem_singleton_self _, fun edge hedge _ _ => ?_⟩
    rw [mem_loopGraph hedge]
  have hfits := hall _ _ result next hcontained h _ _ hsole 50 80 (hsizes _) (hsizes _)
  exact absurd hfits (by decide)

end DisksGraph
