import DisksGraph.Engine.Evidence

/-!
# Engine — Prerequisites

Three-valued checks of a contract's prerequisites against desired configuration and temporary
evidence (`prerequisites.rs`).  A status carries the source's own text.
-/

namespace DisksGraph

/-! ### Helpers -/

/-- Reports whether a node kind satisfies a coarse provider contract class. -/
def matchesKind : NodeKind → NodeKindClass → Bool
  | .disk, .block | .nvmeNamespace _, .block | .loop _, .block | .zram, .block
  | .dmMultipath, .block | .partition .., .block | .luksContainer _, .block
  | .dmCryptMapping _, .block | .dmIntegrity _, .block | .dmVerity _, .block | .mdArray _, .block
  | .lvmPv, .block | .lvmLv _, .block | .bcache .., .block | .dmCache .., .block
  | .dmWritecache _, .block | .zfsVolume _, .block | .drbd _, .block => true
  | .partitionTable _, .partitionTable => true
  | .partition .., .partition => true
  | .luksContainer _, .luksContainer => true
  | .dmCryptMapping _, .dmCryptMapping => true
  | .lvmPv, .lvmPv => true
  | .lvmVg .., .lvmVg => true
  | .lvmLv _, .lvmLv => true
  | .filesystem .., .filesystem => true
  | .filesystem (.btrfs _) _, .btrfsFilesystem => true
  | _, _ => false

/-- Finds an effective runtime mount by namespace and target. -/
def mountAt (desired : DesiredState) (target : PathBuf) (context : MountContext) :
    Option MountEntry :=
  desired.mounts.runtime.find? fun mount => mount.target == target && mount.context == context

/-- Tests component-wise ancestry within one namespace, excluding the target itself. -/
def hasMountedDescendant (desired : DesiredState) (target : PathBuf) (context : MountContext) :
    Bool :=
  desired.mounts.runtime.any fun mount =>
    mount.context == context && mount.target != target && mount.target.startsWith target

/-- Some runtime mount has a bind or unsupported source. -/
def hasUnresolvedMount (desired : DesiredState) : Bool :=
  desired.mounts.runtime.any fun mount => mount.source.isUnresolved

/-- Whether a fact about a node came from the snapshot or from a projection. -/
def nodeEvidence (evidence : SimulationEvidence) (node : NodeId) : CheckEvidence :=
  if node ∈ evidence.projectedGraphNodes then .predictedEffect else .observedSnapshot

/-- Identifies whether a satisfied fact came from the snapshot or projection. -/
def satisfiedForNode (evidence : SimulationEvidence) (node : NodeId) : CheckStatus :=
  .satisfied (nodeEvidence evidence node)

/-- Identifies whether effective mount evidence includes a projected transition. -/
def mountEvidence (evidence : SimulationEvidence) : CheckEvidence :=
  if evidence.projectedRuntimeMounts then .predictedEffect else .observedSnapshot

/-! ### The evaluators -/

section Evaluate

variable (desired : DesiredState) (evidence : SimulationEvidence)

/-- Resolves endpoint availability and optional write access without trusting missing facts. -/
def evaluateEndpoint (node : NodeId) (writable : Bool) : CheckStatus :=
  match desired.graph.node node with
  | none => .violated "referenced node is absent"
  | some value =>
      -- An explicit deactivation supersedes endpoint observations from the baseline.
      if evidence.activations node = some false then
        .violated "projected block endpoint is inactive"
      else match evidence.blockInterfaces node with
      | some .readWrite => .satisfied .predictedEffect
      | some .readOnly =>
          if writable then .violated "projected block interface is read-only"
          else .satisfied .predictedEffect
      | none =>
          if evidence.isObservationStale (.node node) .activation ||
              evidence.isObservationStale (.node node) .presence then
            .unknown "fresh block endpoint observation after runtime invalidation"
          else if !writable then
            if value.size.block.isSome then .satisfied .observedSnapshot
            else .unknown "available block endpoint observation"
          else match value.size.block.bind (·.readOnly) with
          | some false => .satisfied .observedSnapshot
          | some true => .violated "observed block endpoint is read-only"
          | none => .unknown "writable block endpoint observation"

/-- A filesystem other than Btrfs. -/
def NodeKind.isSimpleFilesystem : NodeKind → Bool
  | .filesystem (.btrfs _) _ => false
  | .filesystem _ _ => true
  | _ => false

/-- Checks simple filesystem backing; multi-device and dataset health need live evidence. -/
def evaluateMountSource (source : MountSource) : CheckStatus :=
  match source.node with
  | none => .unknown "provider mount-source availability check"
  | some node =>
      match desired.graph.kindOf node with
      | none => .violated "mount source is absent"
      | some kind =>
          if !source.compatible kind then .violated "mount source has an incompatible node kind"
          else
            let unresolved := .unknown "provider mount-source topology and availability check"
            if kind.isSimpleFilesystem then
              match backingNodes desired.graph node with
              | [backing] =>
                  if (desired.graph.kindOf backing).any fun kind => matchesKind kind .block then
                    evaluateEndpoint desired evidence backing false
                  else unresolved
              | _ => unresolved
            else unresolved

/-- The scan of the direct consumers of a node against a proposed capacity. -/
def scanDependents (node : NodeId) (size : Bytes) :
    List Dependency → (found unknown predicted : Bool) → CheckStatus
  | [], found, unknown, predicted =>
      if unknown then .unknown "dependent capacity observation"
      else if found then .satisfied (if predicted then .predictedEffect else .observedSnapshot)
      else satisfiedForNode evidence node
  | edge :: rest, _, unknown, predicted =>
      let predicted := predicted || edge.target ∈ evidence.projectedGraphNodes
      match desired.graph.node edge.target with
      | none => .violated "dependent node is absent"
      | some dependent =>
          match dependent.kind.size with
          | none => scanDependents node size rest true true predicted
          | some dependentSize =>
              if dependentSize > size then
                .violated "an upper layer exceeds the proposed backing capacity"
              else scanDependents node size rest true unknown predicted

/-- Checks direct block consumers against a proposed lower-layer capacity. -/
def evaluateDependentSizes (node : NodeId) (size : Bytes) : CheckStatus :=
  if !desired.graph.contains node then .violated "referenced node is absent"
  else
    scanDependents desired evidence node size
      (desired.graph.dependencies.filter fun edge => edge.source == node && edge.kind.isBacks)
      false false (node ∈ evidence.projectedGraphNodes)

/-- Checks the direct block backing against a proposed upper-layer capacity. -/
def evaluateBackingSize (node : NodeId) (size : Bytes) : CheckStatus :=
  if !desired.graph.contains node then .violated "referenced node is absent"
  else match backingNodes desired.graph node with
  | [] => .unknown "direct backing relationship"
  | backing :: rest =>
      if !rest.isEmpty then
        .unknown "provider capacity calculation for multiple backing nodes"
      else match desired.graph.node backing with
      | none => .violated "backing node is absent"
      | some value =>
          match value.kind.size with
          | none => .unknown "backing capacity observation"
          | some backingSize =>
              if backingSize < size then
                .violated "backing capacity is smaller than the requested size"
              else if node ∈ evidence.projectedGraphNodes ||
                  backing ∈ evidence.projectedGraphNodes then .satisfied .predictedEffect
              else .satisfied .observedSnapshot

/-- Checks cumulative free capacity in one provider allocation domain. -/
def evaluateCapacity (domain : AllocationDomain) (amount : Option AllocationQuantity) :
    CheckStatus :=
  match amount with
  | none => .unknown "provider allocation calculation for this layout"
  | some amount =>
      match evidence.availableCapacity domain with
      | none => .unknown "provider allocation-capacity evidence"
      | some available =>
          if available < amount then .violated "allocation domain has insufficient free capacity"
          else if domain ∈ evidence.projectedAllocations then .satisfied .predictedEffect
          else .satisfied .observedSnapshot

/-- Evaluates one prerequisite without changing projected state. -/
def evaluatePrerequisite : ActionPrerequisite → CheckStatus
  | .nodeExists node =>
      if desired.graph.contains node then satisfiedForNode evidence node
      else .violated "referenced node is absent"
  | .nodeKind node expected =>
      match desired.graph.kindOf node with
      | none => .violated "referenced node is absent"
      | some kind =>
          if matchesKind kind expected then satisfiedForNode evidence node
          else .violated "node kind does not satisfy the action contract"
  | .noUnexpectedConsumers node =>
      if !desired.graph.contains node then .violated "referenced node is absent"
      else if desired.graph.dependencies.any (·.source == node) ||
          desired.mounts.runtime.any (·.source.node == some node) then
        .violated "node still has an upper-layer consumer"
      else if hasUnresolvedMount desired then
        .unknown "resolve bind and unsupported mount sources before declaring the node unused"
      else satisfiedForNode evidence node
  | .noUnexpectedRelations node =>
      if !desired.graph.contains node then .violated "referenced node is absent"
      else if desired.graph.relations.any fun link =>
          link.source == node || link.target == node then
        .violated "node still has a snapshot, replication, or other non-owning relation"
      else satisfiedForNode evidence node
  | .writable node => evaluateEndpoint desired evidence node true
  | .mountSourceAvailable source => evaluateMountSource desired evidence source
  | .filesystemUnmounted filesystem =>
      if !desired.graph.contains filesystem then .violated "referenced filesystem is absent"
      else if desired.mounts.runtime.any (·.source == .filesystem filesystem) then
        .violated "filesystem is still mounted in an observed namespace"
      else if hasUnresolvedMount desired then
        .unknown "resolve bind and unsupported mount sources before offline filesystem work"
      else .satisfied (mountEvidence evidence)
  | .filesystemCheckPassed filesystem =>
      if filesystem ∈ evidence.checkedFilesystems then .satisfied .predictedEffect
      else .violated "filesystem shrink requires a preceding fresh forced read-only check"
  | .filesystemMinimumSize .. =>
      .unknown "provider evidence that filesystem content fits the requested shrink target"
  | .destructiveApproval _ => .unknown "explicit destructive-scope approval"
  | .credentialAvailable _ =>
      .unknown "resolve credential reference through the runtime credential store"
  | .extentAvailable .. => .unknown "provider allocation and alignment evidence"
  | .distinctNodes nodes =>
      if nodes.dedup.length = nodes.length then .satisfied .predictedEffect
      else .violated "node list contains duplicate identities"
  | .dependentsFitWithin node size => evaluateDependentSizes desired evidence node size
  | .backingSizeAtLeast node size => evaluateBackingSize desired evidence node size
  | .capacityAvailable domain amount => evaluateCapacity evidence domain amount
  | .mountTargetAvailable target context =>
      if (mountAt desired target context).isSome then .violated "mount target is already occupied"
      else .satisfied (mountEvidence evidence)
  | .mountDescendantsAbsent target context =>
      if hasMountedDescendant desired target context then
        .violated "mount target still contains an active descendant"
      else .satisfied (mountEvidence evidence)

/-- Evaluates action prerequisites against the current read-only projection. -/
def evaluatePrerequisites (prerequisites : List ActionPrerequisite) : List PrerequisiteCheck :=
  prerequisites.map fun prerequisite =>
    { prerequisite, status := evaluatePrerequisite desired evidence prerequisite }

end Evaluate

/-! ### What a check establishes when it is not violated -/

section Establishes

variable {desired : DesiredState} {evidence : SimulationEvidence} {node : NodeId}

/-- `NodeExists` fails only for a node the graph lacks. -/
theorem exists_of_nodeExists
    (h : (evaluatePrerequisite desired evidence (.nodeExists node)).isViolated = false) :
    desired.graph.contains node = true := by
  rw [evaluatePrerequisite] at h
  split at h
  · next hcontains => exact hcontains
  · cases h

/-- `NodeKind` fails only for a node of another kind. -/
theorem kind_of_nodeKind {expected : NodeKindClass}
    (h : (evaluatePrerequisite desired evidence (.nodeKind node expected)).isViolated = false) :
    ∃ kind, desired.graph.kindOf node = some kind ∧ matchesKind kind expected = true := by
  rw [evaluatePrerequisite] at h
  split at h
  · cases h
  · next kind hkind =>
    split at h
    · next hmatches => exact ⟨kind, hkind, hmatches⟩
    · cases h

/-- Neither an edge nor a runtime mount starts at a node without consumers. -/
theorem unused_of_noUnexpectedConsumers
    (h : (evaluatePrerequisite desired evidence (.noUnexpectedConsumers node)).isViolated = false) :
    (∀ edge ∈ desired.graph.dependencies, edge.source ≠ node) ∧
      ∀ entry ∈ desired.mounts.runtime, entry.source.node ≠ some node := by
  rw [evaluatePrerequisite] at h
  split at h
  · cases h
  · split at h
    · cases h
    · next hunused =>
      obtain ⟨hedges, hmounts⟩ := not_or.mp (mt (Bool.or_eq_true _ _).mpr hunused)
      refine ⟨fun edge hedge heq => hedges ?_, fun entry hentry heq => hmounts ?_⟩
      · exact List.any_eq_true.mpr ⟨edge, hedge, beq_iff_eq.mpr heq⟩
      · exact List.any_eq_true.mpr ⟨entry, hentry, beq_iff_eq.mpr heq⟩

end Establishes

end DisksGraph
