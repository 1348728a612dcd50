import DisksGraph.Runtime.Bindings

/-!
# Runtime — Targets

Resolution of the narrow LVM, ext4 and host-mount recipes by stable identity (`targets.rs`), and the
verification of their results against a retained completion (`bindings.rs`).
-/

namespace DisksGraph

open Support (Returns)

/-! ### Native requests -/

/-- `LinearLvRequest::new`, whose value is only used for its checks. -/
def checkLinearLvRequest (vgName vgUuid lvName : String) (size : Bytes) :
    Except TargetError Unit :=
  if !validName vgName || !validLvName lvName || !validUuid vgUuid || size = 0 then
    .error (.nativeRequest .invalidRequest)
  else .ok ()

/-- `LvActivationRequest::new`, whose value is only used for its checks. -/
def checkLvActivationRequest (vgName vgUuid : String) (lv : ResolvedLvTarget) :
    Except TargetError Unit :=
  if !validName vgName || !validLvName lv.lvName || !validUuid vgUuid || !validUuid lv.lvUuid ||
      lv.size = 0 then
    .error (.nativeRequest .invalidRequest)
  else .ok ()

/-- Exact supported mount options. -/
def EXT4_HOST_MOUNT_OPTIONS : List String := ["rw", "nosuid", "nodev", "noexec", "relatime"]

/-- Checks only representable intent; source ownership and namespace exclusion belong to the
runtime. -/
def isExt4HostMount : ProviderAction → Bool
  | .mount (.mount (.filesystem _) target options .host) =>
      options.insertionSort (· ≤ ·) == EXT4_HOST_MOUNT_OPTIONS.insertionSort (· ≤ ·) &&
        target.isAbsolute && target.components.length > 1 &&
        (target.components.all fun
          | .rootDir | .normal _ | .nonUtf8 _ => true
          | _ => false) &&
        !target.containsNul
  | _ => false

/-- The label an ext4 superblock can hold. -/
def representableLabel (label : Option String) : Bool :=
  !label.any fun text => text.utf8ByteSize > 16 || text.toList.any (· == '\x00')

/-! ### Endpoints -/

namespace Targets

/-- The error every failed output binding becomes during resolution. -/
def unverified {α : Type} (x : Returns BindingError α) : Returns TargetError α :=
  match x with
  | none => Returns.never
  | some (.error _) => throw .unverifiedOutput
  | some (.ok value) => pure value

/-- The LV of a host mount of this run's verified ext4 output, and the filesystem itself. -/
def resolveMountSource (run : ExecutionRun) (bindings : OutputBindings) (baseline : CurrentState)
    (observed : LiveObservation) (operation : ProviderAction) (fs : NodeId) (target : PathBuf) :
    Returns TargetError (NodeId × ResolvedFilesystemTarget) := do
  let observedId ← unverified (bindings.resolve run fs observed)
  if !isExt4HostMount operation || observed.snapshot.mounts.any (fun mount =>
      mount.context == .host &&
        (mount.target.startsWith target || mount.source == .filesystem observedId)) then
    throw .filesystemEndpoint
  else match baseline.graph.node fs with
    | none => throw .unverifiedOutput
    | some node =>
        match node.kind.kind with
        | .filesystem .ext4 _ =>
            match baseline.graph.dependencies.filter fun edge =>
                edge.target == fs && edge.kind == .backs with
            | [parent] =>
                match node.size.identities.findSome? ext4Uuid with
                | none => throw .unverifiedOutput
                | some uuid => return (parent.source, ⟨fs, observedId, uuid⟩)
            | _ => throw .unverifiedOutput
        | _ => throw .unsupportedAction
where
  ext4Uuid : ExternalId → Option String
    | .filesystem fsType value => if fsType = "ext4" then some value else none
    | _ => none

/-- An ext4 creation has an active writable LV with known endpoints and no consumer. -/
def formatReady (observed : LiveObservation) (id : NodeId) (node : Node) (label : Option String) :
    Bool :=
  representableLabel label && node.size.lvmActive == some true &&
    node.size.block.any (fun block =>
      block.readOnly == some false && block.geometry.isSome && !block.paths.isEmpty &&
        block.paths.all fun path =>
          path.isAbsolute && !path.components.contains .parentDir && !path.containsNul) &&
    !observed.snapshot.graph.dependencies.any (·.source == id) &&
    !observed.snapshot.graph.relations.any fun edge => edge.source == id || edge.target == id

/-- The verified LV behind an activation, an ext4 creation or a host mount, with its VG. -/
def resolveLvTarget (run : ExecutionRun) (bindings : OutputBindings) (baseline : CurrentState)
    (observed : LiveObservation) (operation : ProviderAction) (target : NodeId) :
    Returns TargetError (NodeId × ResolvedLvTarget) := do
  let id ← unverified (bindings.resolve run target observed)
  match observed.snapshot.graph.node id with
  | none => throw .unverifiedOutput
  | some node =>
      match node.kind.kind with
      | .lvmLv lv =>
          if lv.kind ≠ .linear then throw .unsupportedAction
          else match baseline.graph.dependencies.filter fun edge => edge.target == target with
            | [parent] =>
                if refusesFormat operation id node then throw .filesystemEndpoint
                else match node.size.identities.findSome? lvUuid, node.kind.size with
                  | some uuid, some size =>
                      return (parent.source, ⟨target, id, uuid, lv.name, size, node.size.block⟩)
                  | _, _ => throw .unverifiedOutput
            | _ => throw .unverifiedOutput
      | _ => throw .unsupportedAction
where
  refusesFormat (operation : ProviderAction) (id : NodeId) (node : Node) : Bool :=
    match operation with
    | .filesystem (.create _ _ _ label) => !formatReady observed id node label
    | _ => false
  lvUuid : ExternalId → Option String
    | .lvmLvUuid uuid => some uuid
    | _ => none

/-- The VG of an operation and its LV endpoint, if it has one. -/
def resolveEndpoint (run : ExecutionRun) (bindings : OutputBindings) (baseline : CurrentState)
    (observed : LiveObservation) (planned endpoint : ProviderAction) :
    Returns TargetError (NodeId × Option ResolvedLvTarget) :=
  match endpoint with
  | .lvm (.createLv vg _ _ _ .linear) => pure (vg, none)
  | .lvm (.setActivation target true) | .filesystem (.create target _ .ext4 _) => do
      let (vg, lv) ← resolveLvTarget run bindings baseline observed planned target
      return (vg, some lv)
  | _ => throw .unsupportedAction

/-- A mount needs its LV active, writable and at one path. -/
def mountReady (observed : LiveObservation) (lv : Option ResolvedLvTarget) : Bool :=
  lv.any fun lv =>
    (observed.snapshot.graph.node lv.observedId).any (·.size.lvmActive == some true) &&
      lv.block.any fun block =>
        block.readOnly == some false && block.geometry.isSome && block.paths.length == 1

/-- The observed VG provides an LV of that name. -/
def nameTaken (observed : LiveObservation) (vg : NodeId) (name : String) : Bool :=
  observed.snapshot.graph.dependencies.any fun edge =>
    edge.source == vg && (observed.snapshot.graph.kindOf edge.target).any fun
      | .lvmLv lv => lv.name == name
      | _ => false

/-- The correlated VG; the source indexes the mapping without a check. -/
def resolveVg (baseline : CurrentState) (observed : LiveObservation) (vg : NodeId) :
    Returns TargetError ResolvedTarget :=
  match correlateNodes baseline observed.snapshot [vg] with
  | .error error => throw (.correlation error)
  | .ok [] => Returns.never
  | .ok (target :: _) =>
      match observed.snapshot.graph.node target.target with
      | none => throw .scopeChanged
      | some node =>
          match target.identity, node.kind.kind with
          | .lvmVgUuid uuid, .lvmVg name _ => pure ⟨vg, target.target, uuid, name⟩
          | _, _ => throw .unsupportedAction

/-- The native parameters fit the recipe, and a new LV name is free. -/
def checkNativeRequest (observed : LiveObservation) (operation : ProviderAction)
    (target : ResolvedTarget) (lv : Option ResolvedLvTarget) : Except TargetError Unit := do
  match operation with
  | .lvm (.createLv _ _ name size _) =>
      checkLinearLvRequest target.vgName target.vgUuid name size
      if nameTaken observed target.observedId name then throw .nameConflict
  | _ => pure ()
  match lv with
  | some lv => checkLvActivationRequest target.vgName target.vgUuid lv
  | none => pure ()

/-- Resolves the narrow LVM, ext4 or host-mount recipe on verified outputs and checks accumulated
scope. -/
def resolveActionWithBindings (run : ExecutionRun) (action : ActionId) (observed : LiveObservation)
    (backend : BackendId) (bindings : OutputBindings) : Returns TargetError ResolvedAction :=
  match observed.validate with
  | .error error => throw (.observation error)
  | .ok () =>
      match run.plan.actions.find? fun item => item.id == action with
      | none => throw (.run (.unknownAction action))
      | some planned => do
          let baseline ← unverified (bindings.reviewedScope run observed)
          let (endpoint, filesystem) ← endpointOperation planned.operation baseline
          let (vg, lv) ← resolveEndpoint run bindings baseline observed planned.operation endpoint
          if filesystem.isSome && !mountReady observed lv then throw .filesystemEndpoint
          else
            let target ← resolveVg baseline observed vg
            Returns.lift (checkNativeRequest observed planned.operation target lv)
            Targets.checkScope baseline observed.snapshot vg
            return {
              runId := run.runId
              actionId := action
              operation := planned.operation
              backend
              observation := observed.reference
              target
              lvTarget := lv
              filesystemTarget := filesystem }
where
  /-- Reuses the verified LV resolver for a mount; the dispatched operation stays the frozen one. -/
  endpointOperation (operation : ProviderAction) (baseline : CurrentState) :
      Returns TargetError (ProviderAction × Option ResolvedFilesystemTarget) :=
    match operation with
    | .mount (.mount (.filesystem fs) target _ _) => do
        let (lv, filesystem) ←
          resolveMountSource run bindings baseline observed operation fs target
        return (.lvm (.setActivation lv true), some filesystem)
    | operation => pure (operation, none)

/-- What resolution keeps of the frozen action, whatever endpoints it finds. -/
theorem resolveActionWithBindings_eq {run : ExecutionRun} {action : ActionId}
    {observed : LiveObservation} {backend : BackendId} {bindings : OutputBindings}
    {resolved : ResolvedAction}
    (h : resolveActionWithBindings run action observed backend bindings = pure resolved) :
    resolved.runId = run.runId ∧ resolved.actionId = action ∧ resolved.backend = backend ∧
      resolved.observation = observed.reference ∧
      ∃ planned ∈ run.plan.actions, planned.id = action ∧
        resolved.operation = planned.operation := by
  rw [resolveActionWithBindings] at h
  split at h
  · exact absurd h Returns.throw_ne_pure
  · split at h
    · exact absurd h Returns.throw_ne_pure
    · next planned hfind =>
      obtain ⟨baseline, -, h⟩ := Returns.bind_eq_pure.mp h
      obtain ⟨⟨endpoint, filesystem⟩, -, h⟩ := Returns.bind_eq_pure.mp h
      obtain ⟨⟨vg, lv⟩, -, h⟩ := Returns.bind_eq_pure.mp h
      dsimp only at h
      split at h
      · exact absurd h Returns.throw_ne_pure
      · obtain ⟨target, -, h⟩ := Returns.bind_eq_pure.mp h
        obtain ⟨_, -, h⟩ := Returns.bind_eq_pure.mp h
        obtain ⟨_, -, h⟩ := Returns.bind_eq_pure.mp h
        obtain rfl := Returns.pure_inj.mp h
        have hid : planned.id = action := by simpa using List.find?_some hfind
        exact ⟨rfl, rfl, rfl, rfl, planned, List.mem_of_find?_eq_some hfind, hid, rfl⟩

end Targets

/-! ### Verified results -/

/-- `run.completion(action)?.ok_or(NotVerified)?`. -/
def retainedCompletion (run : ExecutionRun) (action : ActionId) :
    Except BindingError BackendCompletion :=
  match run.completion action with
  | .error error => .error (.run error)
  | .ok none => .error .notVerified
  | .ok (some completion) => .ok completion

/-- The frozen contract of an action; the source indexes the plan without a check. -/
def frozenContract (run : ExecutionRun) (action : ActionId) : Returns BindingError ActionContract :=
  match run.plan.actions[action.get]? with
  | none => Returns.never
  | some planned => pure planned.informationalContract

/-- A scope failure as a binding failure. -/
def scopeChecked (x : Returns TargetError Unit) : Returns BindingError Unit :=
  match x with
  | none => Returns.never
  | some (.error error) => throw (.scope error)
  | some (.ok ()) => pure ()

/-- The verification report of an action, from the postconditions of its contract. -/
def verificationReport (run : ExecutionRun) (action : ActionId) (contract : ActionContract)
    (observed : LiveObservation) (bindings : List NodeCorrelation) :
    Except BindingError VerificationReport :=
  match checkObservedPostconditionsWithBindings run.document.baseline observed
      contract.postconditions bindings with
  | .error error => .error (.observation error)
  | .ok report => .ok ⟨run.runId, action, report.observation, report.checks⟩

/-- The specification under which a contract provides a node. -/
def ActionContract.providedSpec (contract : ActionContract) (planned : NodeId) :
    Except BindingError NodeSpec :=
  match contract.providedOutputs.findSome? fun
      | .node id spec => if id = planned then some spec else none
      | _ => none with
  | none => .error .identity
  | some spec => .ok spec

/-- An observation without one node and the given edges. -/
def withoutNode (state : CurrentState) (id : NodeId) (edges : List Dependency) : CurrentState :=
  { state with graph := (edges.foldl NodeGraph.removeDependency state.graph).removeNode id }

/-- The new LV of a receipt: where it is, and what remains of the observation without it. -/
def identifyCreatedLv (run : ExecutionRun) (resolved : ResolvedAction) (bindings : OutputBindings)
    (before actual : LiveObservation) (contract : ActionContract) (action : ActionId)
    (uuid : String) : Returns BindingError (NodeCorrelation × PendingLvBinding) :=
  match resolved.operation with
  | .lvm (.createLv _ planned _ _ _) => do
      if !(before.snapshot.graph.carriers (.lvmLvUuid uuid)).isEmpty then throw .identity
      else
        let observedId ← Returns.lift (findLv actual uuid resolved.target.vgUuid)
        let spec ← Returns.lift (contract.providedSpec planned)
        let edges := actual.snapshot.graph.dependencies.filter fun edge =>
          edge.source == observedId || edge.target == observedId
        if edges.any (·.source == observedId) ||
            actual.snapshot.graph.relations.any (fun edge =>
              edge.source == observedId || edge.target == observedId) then throw .identity
        else
          let reviewed ← bindings.reviewedScope run before
          scopeChecked (Targets.checkScope reviewed (withoutNode actual.snapshot observedId edges)
            resolved.target.plannedId)
          return (⟨planned, observedId, .lvmLvUuid uuid⟩,
            { runId := run.runId, action, observation := actual.reference, planned, uuid,
              vgUuid := resolved.target.vgUuid, spec })
  | _ => throw .identity

/-- Verifies the retained actual completion, using a provisional UUID mapping only for the new
LV. -/
def verifyCreatedLv (run : ExecutionRun) (action : ActionId) (resolved : ResolvedAction)
    (bindings : OutputBindings) (before : LiveObservation) (createdUuid : Option String) :
    Returns BindingError (VerificationReport × Option PendingLvBinding) := do
  let completion ← Returns.lift (retainedCompletion run action)
  let contract ← frozenContract run action
  match createdUuid with
  | none =>
      let report ← Returns.lift
        (verificationReport run action contract completion.observation [])
      return (report, none)
  | some uuid =>
      let (correlation, pending) ← identifyCreatedLv run resolved bindings before
        completion.observation contract action uuid
      let report ← Returns.lift
        (verificationReport run action contract completion.observation [correlation])
      return (report, some pending)

/-- The activated LV has a known writable block interface. -/
def hasInterface (node : Node) : Bool :=
  node.size.block.any fun block =>
    block.readOnly == some false && block.geometry.isSome && !block.paths.isEmpty

/-- Verifies activation and the promised writable interface without accepting a created-UUID
receipt. -/
def verifyActivation (run : ExecutionRun) (action : ActionId) (resolved : ResolvedAction)
    (bindings : OutputBindings) (before : LiveObservation) (createdUuid : Option String) :
    Returns BindingError VerificationReport := do
  if createdUuid.isSome then throw .identity
  else
    let completion ← Returns.lift (retainedCompletion run action)
    let actual := completion.observation
    let reviewed ← bindings.reviewedScope run before
    scopeChecked (Targets.checkScope reviewed actual.snapshot resolved.target.plannedId)
    let correlations ← bindings.correlations run actual
    match resolved.lvTarget with
    | none => throw .identity
    | some lv =>
        let id ← bindings.resolve run lv.plannedId actual
        match actual.snapshot.graph.node id with
        | none => throw .identity
        | some node =>
            if !hasInterface node then throw .interfaceUnknown
            else
              let contract ← frozenContract run action
              Returns.lift (verificationReport run action contract actual correlations)

/-- The new filesystem of a receipt, and its candidate binding. -/
def identifyCreatedFilesystem (run : ExecutionRun) (resolved : ResolvedAction)
    (bindings : OutputBindings) (before actual : LiveObservation) (contract : ActionContract)
    (action : ActionId) (backing planned : NodeId) (label : Option String) (uuid : String) :
    Returns BindingError (NodeCorrelation × PendingFilesystemBinding) := do
  let beforeBacking ← bindings.resolve run backing before
  match correlateCreatedExt4 before actual planned beforeBacking uuid label with
  | none => throw .identity
  | some binding =>
      let edges := actual.snapshot.graph.dependencies.filter fun edge =>
        edge.target == binding.target
      let reviewed ← bindings.reviewedScope run before
      scopeChecked (Targets.checkScope reviewed (withoutNode actual.snapshot binding.target edges)
        resolved.target.plannedId)
      let spec ← Returns.lift (contract.providedSpec planned)
      match actual.snapshot.graph.node binding.target with
      | none => throw .identity
      | some node =>
          -- Creation did not predict the capacity; the first actual one is kept for later checks.
          return (binding,
            { runId := run.runId, action, observation := actual.reference, planned, uuid, backing,
              spec := { spec with size := node.kind.size } })

/-- Checks actual ext4 output identity, admitted LV ownership and all remaining reviewed scope. -/
def verifyCreatedFilesystem (run : ExecutionRun) (action : ActionId) (resolved : ResolvedAction)
    (bindings : OutputBindings) (before : LiveObservation) (createdUuid : Option String) :
    Returns BindingError (VerificationReport × Option PendingFilesystemBinding) := do
  let completion ← Returns.lift (retainedCompletion run action)
  let contract ← frozenContract run action
  match resolved.operation with
  | .filesystem (.create backing planned .ext4 label) =>
      let actual := completion.observation
      let correlations ← bindings.correlations run actual
      match createdUuid with
      | none =>
          let report ← Returns.lift (verificationReport run action contract actual correlations)
          return (report, none)
      | some uuid =>
          let (binding, pending) ← identifyCreatedFilesystem run resolved bindings before actual
            contract action backing planned label uuid
          let report ← Returns.lift
            (verificationReport run action contract actual (correlations ++ [binding]))
          return (report, some pending)
  | _ => throw .identity

/-- Verifies exact mount identity and options and all remaining scope from the actual fresh
completion. -/
def verifyMount (run : ExecutionRun) (action : ActionId) (resolved : ResolvedAction)
    (bindings : OutputBindings) (before : LiveObservation) :
    Returns BindingError VerificationReport := do
  let completion ← Returns.lift (retainedCompletion run action)
  let actual := completion.observation
  match resolved.operation with
  | .mount (.mount (.filesystem fs) target options context) =>
      let fsId ← bindings.resolve run fs actual
      match actual.snapshot.mounts.zipIdx.filter fun entry =>
          entry.1.target == target && entry.1.context == context with
      | [(mount, index)] =>
          if mount.source ≠ .filesystem fsId ∨
              mount.options.insertionSort (· ≤ ·) ≠ options.insertionSort (· ≤ ·) then
            throw .identity
          else
            let remaining :=
              { actual.snapshot with mounts := actual.snapshot.mounts.eraseIdx index }
            let reviewed ← bindings.reviewedScope run before
            scopeChecked (Targets.checkScope reviewed remaining resolved.target.plannedId)
            let correlations ← bindings.correlations run actual
            let contract ← frozenContract run action
            Returns.lift (verificationReport run action contract actual correlations)
      | _ => throw .identity
  | _ => throw .identity

end DisksGraph
