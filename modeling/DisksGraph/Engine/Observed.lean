import DisksGraph.Engine.Correlate
import DisksGraph.Engine.Live
import DisksGraph.Engine.Prerequisites

/-!
# Engine — Observed

Checks of prerequisites and postconditions over one actual observation (`live.rs`,
`live/capacity.rs`, `live/mount.rs`, `live/verify.rs`).  They grant no authorization: absence in a
partial observation stays unknown.
-/

namespace DisksGraph

/-- Partial prerequisite evidence bound to one publication. -/
structure ObservedPrerequisites where
  observation : ObservationReference
  checks : List (LiveCheck ActionPrerequisite)

/-- Observed postconditions retain frozen identities and the publication they inspect. -/
structure ObservedPostconditions where
  observation : ObservationReference
  checks : List (LiveCheck Postcondition)

/-- Some provider result is partial or conflicting. -/
def LiveObservation.isBlocked (observation : LiveObservation) : Bool :=
  observation.snapshot.diagnostics.any fun diagnostic => diagnostic.severity ≠ .warning

/-- Partial or conflicting provider results cannot establish positive evidence; contradictions
survive. -/
def qualifyObservedStatus (observation : LiveObservation) (status : LiveCheckStatus) :
    LiveCheckStatus :=
  if status = .satisfied ∧ observation.isBlocked then
    .unknown "resolve blocking probe diagnostics before relying on observed facts"
  else status

/-! ### Nodes -/

/-- Resolves one existing node without trusting transient identities, paths, or display names. -/
def correlatedNode (baseline : HistoricalBaseline) (observation : LiveObservation)
    (source : NodeId) : Except LiveCheckStatus (NodeId × Node) :=
  match correlateNodes baseline.snapshot observation.snapshot [source] with
  | .error error => .error (.unknown ("fresh identity correlation: " ++ error.text))
  | .ok [] => .error (.unknown "missing identity correlation")
  | .ok (first :: _) =>
      match observation.snapshot.graph.node first.target with
      | none => .error (.unknown "correlated node is absent")
      | some node => .ok (first.target, node)

/-- The identity of a binding is of the node's kind, and well formed. -/
def identityMatches : NodeKind → ExternalId → Bool
  | .lvmLv _, .lvmLvUuid uuid => isTrimmedText uuid
  | .filesystem kind _, .filesystem fsType value => fsType == kind.asStr && isTrimmedText value
  | _, _ => false

/-- Existing-node bindings never override baseline correlation; only unique present LV or
filesystem UUIDs qualify. -/
def resultNode (baseline : HistoricalBaseline) (observation : LiveObservation) (source : NodeId)
    (bindings : List NodeCorrelation) : Except LiveCheckStatus (NodeId × Node) :=
  if baseline.snapshot.graph.contains source then correlatedNode baseline observation source
  else match bindings.filter fun item => item.source == source with
    | [] => .error (.unknown "created output requires runtime UUID evidence")
    | binding :: others =>
        if !others.isEmpty || bindings.countP (·.target == binding.target) ≠ 1 then
          .error (.unknown "created output binding is ambiguous")
        else if !(baseline.snapshot.graph.carriers binding.identity).isEmpty then
          .error (.unknown "created output UUID already exists in the historical baseline")
        else match observation.snapshot.graph.node binding.target with
          | none => .error (.unknown "bound output is absent")
          | some node =>
              if source.asUuid.isNil || node.size.presence != .present ||
                  !identityMatches node.kind.kind binding.identity ||
                  binding.identity ∉ node.size.identities ||
                  node.countLike binding.identity ≠ 1 ||
                  (observation.snapshot.graph.carriers binding.identity).length ≠ 1 then
                .error (.unknown
                  "created output needs one unambiguous observed LV or filesystem UUID")
              else .ok (binding.target, node)

/-! ### Prerequisites -/

/-- `NoUnexpectedConsumers` of a correlated node. -/
def checkConsumers (observation : LiveObservation) (target : NodeId) : LiveCheckStatus :=
  if observation.snapshot.graph.dependencies.any (·.source == target) ||
      observation.snapshot.mounts.any (·.source.node == some target) then
    .violated "an upper-layer consumer is present in the observation"
  else .unknown "complete consumer and mount-namespace coverage is required"

/-- `NoUnexpectedRelations` of a correlated node. -/
def checkRelations (observation : LiveObservation) (target : NodeId) : LiveCheckStatus :=
  if observation.snapshot.graph.relations.any fun edge =>
      edge.source == target || edge.target == target then
    .violated "an incident storage relation is present in the observation"
  else .unknown "complete provider relation coverage is required"

/-- `FilesystemUnmounted` of a correlated node. -/
def checkUnmounted (observation : LiveObservation) (target : NodeId) (node : Node) :
    LiveCheckStatus :=
  if !matchesKind node.kind.kind .filesystem then
    .violated "correlated node is not a filesystem"
  else if observation.snapshot.mounts.any (·.source == .filesystem target) then
    .violated "filesystem is mounted in an observed namespace"
  else .unknown "complete mount-namespace coverage and resolved mount sources are required"

/-- `Writable` of a correlated node. -/
def checkWritable (node : Node) : LiveCheckStatus :=
  if matchesKind node.kind.kind .block then
    match node.size.block.bind (·.readOnly) with
    | some false => .satisfied
    | some true => .violated "observed block endpoint is read-only"
    | none => .unknown "fresh block read-only status is required"
  else .unknown "a supported observed block endpoint is required"

/-- Evaluates only direct observed facts; external authority and missing evidence stay unknown. -/
def checkNodeFact (baseline : HistoricalBaseline) (observation : LiveObservation)
    (condition : ActionPrerequisite) (bindings : List NodeCorrelation) : LiveCheckStatus :=
  let withNode (source : NodeId) (check : NodeId → Node → LiveCheckStatus) : LiveCheckStatus :=
    match resultNode baseline observation source bindings with
    | .error status => status
    | .ok (target, node) => check target node
  match condition with
  | .nodeExists node => withNode node fun _ _ => .satisfied
  | .nodeKind node expected =>
      withNode node fun _ value =>
        if matchesKind value.kind.kind expected then .satisfied
        else .violated "observed node kind does not satisfy the frozen condition"
  | .writable node => withNode node fun _ value => checkWritable value
  | .noUnexpectedConsumers node => withNode node fun target _ => checkConsumers observation target
  | .noUnexpectedRelations node => withNode node fun target _ => checkRelations observation target
  | .filesystemUnmounted node => withNode node fun target value =>
      checkUnmounted observation target value
  | _ => .unknown "runtime provider evidence is required for this condition"

/-- Correlates the measured VG and refuses to reinterpret frozen counts in changed extent units. -/
def checkCapacity (baseline : HistoricalBaseline) (observation : LiveObservation)
    (capacity : List CapacityEvidence) (source : NodeId) (amount : Option AllocationQuantity) :
    LiveCheckStatus :=
  match amount with
  | none => .unknown "exact provider allocation requirement is needed"
  | some amount =>
      match correlatedNode baseline observation source with
      | .error status => status
      | .ok (target, current) =>
          match baseline.snapshot.graph.kindOf source, current.kind.kind with
          | some (.lvmVg _ (some old)), .lvmVg _ (some new) =>
              if old ≠ new then
                .unknown "VG allocation units changed or are unknown; review the frozen plan again"
              else match capacity.find? fun value => value.domain == .lvmVolumeGroup target with
                | none => .unknown "validated same-pass VG free capacity is required"
                | some measured =>
                    if measured.available ≥ amount then .satisfied
                    else .violated
                      "fresh VG free capacity is smaller than the frozen allocation requirement"
          | _, _ =>
              .unknown "VG allocation units changed or are unknown; review the frozen plan again"

/-- The status of one frozen prerequisite in an observation. -/
def checkPrerequisite (baseline : HistoricalBaseline) (observation : LiveObservation)
    (capacity : List CapacityEvidence) (bindings : List NodeCorrelation)
    (condition : ActionPrerequisite) : LiveCheckStatus :=
  qualifyObservedStatus observation <|
    match condition with
    | .capacityAvailable (.lvmVolumeGroup source) amount =>
        checkCapacity baseline observation capacity source amount
    | _ => checkNodeFact baseline observation condition bindings

/-- The representation checks in front of every observed check. -/
def checkObservable (baseline : HistoricalBaseline) (observation : LiveObservation) :
    Except ObservationError Unit := do
  observation.validate
  match baseline.snapshot.graph.validateStructure with
  | .error error => .error (.graph error)
  | .ok () => .ok ()

/-- Checks actual capacity and UUID-qualified planned outputs without trusting predicted nodes. -/
def checkObservedPrerequisitesWithBindings (baseline : HistoricalBaseline)
    (observation : LiveObservation) (capacity : List CapacityEvidence)
    (prerequisites : List ActionPrerequisite) (bindings : List NodeCorrelation) :
    Except ObservationError ObservedPrerequisites := do
  checkObservable baseline observation
  return {
    observation := observation.reference
    checks := prerequisites.map fun condition =>
      ⟨condition, checkPrerequisite baseline observation capacity bindings condition⟩ }

/-- An authorization is never read off an observation. -/
theorem checkPrerequisite_destructiveApproval {baseline : HistoricalBaseline}
    {observation : LiveObservation} {capacity : List CapacityEvidence}
    {bindings : List NodeCorrelation} {node : NodeId} :
    checkPrerequisite baseline observation capacity bindings (.destructiveApproval node) =
      .unknown "runtime provider evidence is required for this condition" :=
  rfl

/-! ### Mounts -/

/-- Finds exactly one observed host mount and correlates its source by durable identity. -/
def observedMount (baseline : HistoricalBaseline) (observed : LiveObservation)
    (source : MountSource) (target : PathBuf) (context : MountContext)
    (bindings : List NodeCorrelation) : Except LiveCheckStatus ObservedMount := do
  if context ≠ .host then .error (.unknown "independent mount namespace evidence is required")
  else if !target.isAbsolute || target.components.contains .parentDir || target.containsNul then
    .error (.unknown "mount target must be a normalized absolute path")
  else
    let source ← resolveSource
    match observed.snapshot.mounts.filter fun mount =>
        mount.target == target && mount.context == context with
    | [] => .error (.unknown "requested mount was not observed; complete coverage is required")
    | mount :: others =>
        if !others.isEmpty then
          .error (.unknown "multiple mount records occupy the requested target")
        else match mount.source with
          | .other _ => .error (.unknown "observed mount source is unresolved")
          | actual =>
              if actual ≠ source then
                .error (.violated "mount target is occupied by a different source")
              else .ok mount
where
  resolveSource : Except LiveCheckStatus MountSource :=
    match source with
    | .filesystem id => do
        let (id, node) ← resultNode baseline observed id bindings
        if !node.kind.kind.isFilesystem then
          .error (.violated "correlated mount source is not a filesystem")
        else .ok (.filesystem id)
    | .tmpfs => .ok .tmpfs
    | _ => .error (.unknown "independent evidence for this mount source is required")

/-! ### Postconditions -/

/-- A size that the result has to have. -/
def checkSize (expected : Bytes) : Option Bytes → LiveCheckStatus
  | some actual =>
      if actual = expected then .satisfied
      else .violated "observed size differs from the requested result"
  | none => .unknown "fresh observed node size is required"

/-- Both endpoints of a dependency, and whether the observed graph has it. -/
def observedDependency (baseline : HistoricalBaseline) (observation : LiveObservation)
    (edge : Dependency) (bindings : List NodeCorrelation) : Except LiveCheckStatus Bool := do
  let (source, _) ← resultNode baseline observation edge.source bindings
  let (target, _) ← resultNode baseline observation edge.target bindings
  return observation.snapshot.graph.dependencies.any fun actual =>
    actual.source == source && actual.target == target && actual.kind == edge.kind

/-- Correlates existing objects before inspecting actual properties; missing matches are not
success. -/
def checkResult (baseline : HistoricalBaseline) (observation : LiveObservation)
    (condition : Postcondition) (bindings : List NodeCorrelation) : LiveCheckStatus :=
  let withNode (source : NodeId) (check : Node → LiveCheckStatus) : LiveCheckStatus :=
    match resultNode baseline observation source bindings with
    | .error status => status
    | .ok (_, node) => check node
  match condition with
  | .dependencyPresent edge =>
      match observedDependency baseline observation edge bindings with
      | .error status => status
      | .ok true => .satisfied
      | .ok false => .unknown "complete dependency coverage is required to establish absence"
  | .dependencyAbsent edge =>
      match observedDependency baseline observation edge bindings with
      | .error status => status
      | .ok true => .violated "dependency is still present in the observed graph"
      | .ok false => .unknown "complete dependency coverage is required to establish absence"
  | .runtimeMountPresent source target context =>
      match observedMount baseline observation source target context bindings with
      | .error status => status
      | .ok _ => .satisfied
  | .runtimeMountAbsent target context =>
      if observation.snapshot.mounts.any fun mount =>
          mount.target == target && mount.context == context then
        .violated "mount target is still occupied in an observed context"
      else .unknown "complete mount namespace coverage is required to establish absence"
  | .nodeMatches id spec => withNode id fun observed =>
      if observed.kind.kind ≠ spec.kind then
        .violated "observed node kind or properties differ from the requested result"
      else match spec.size with
        | none => .satisfied
        | some expected => checkSize expected observed.kind.size
  | .nodeSize node size => withNode node fun observed => checkSize size observed.kind.size
  | .nodeReprobed node => withNode node fun _ => .satisfied
  | .activation node active => withNode node fun observed =>
      if observed.kind.kind.isLvmLv then
        match observed.size.lvmActive with
        | some actual =>
            if actual = active then .satisfied
            else .violated "observed LV activation differs from the requested result"
        | none => .unknown "fresh unambiguous native LV activation state is required"
      else .unknown "unsupported observed node result"
  | .filesystemLabel filesystem label => withNode filesystem fun observed =>
      match observed.kind.kind with
      | .filesystem _ actual =>
          if actual = label then .satisfied
          else .violated "observed filesystem label differs from the requested result"
      | _ => .violated "correlated object is not a filesystem"
  | .nodeAbsent node => withNode node fun _ =>
      .violated "correlated object is still present in the observation"
  | _ => .unknown
      "provider result or complete observation coverage is required for this postcondition"

/-- Checks actual result properties with provisional LV and filesystem identities supplied by the
trusted runtime. -/
def checkObservedPostconditionsWithBindings (baseline : HistoricalBaseline)
    (observation : LiveObservation) (postconditions : List Postcondition)
    (bindings : List NodeCorrelation) : Except ObservationError ObservedPostconditions := do
  checkObservable baseline observation
  return {
    observation := observation.reference
    checks := postconditions.map fun condition =>
      ⟨condition,
        qualifyObservedStatus observation (checkResult baseline observation condition bindings)⟩ }

end DisksGraph
