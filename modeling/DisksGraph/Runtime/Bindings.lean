import DisksGraph.Runtime.Resolved

/-!
# Runtime — Bindings

New LV and ext4 identities become usable only after receipt, fresh observation and verified
postconditions (`bindings.rs`, `filesystem.rs`).

`resolve` follows the backing of a filesystem binding, so it recurses on the map itself; it is given
one more step than the map has filesystems, and `Returns.never` stands for a chain that is longer,
which would repeat forever.
-/

namespace DisksGraph

open Support (Returns)

/-- Binding failures preserve the active checkpoint and forbid successor dispatch. -/
inductive BindingError where
  | notVerified
  | identity
  | interfaceUnknown
  | scope (error : TargetError)
  | run (error : ExecutionRunError)
  | observation (error : ObservationError)
deriving DecidableEq

/-- Correlation candidate kept private until all frozen postconditions have passed. -/
structure PendingLvBinding where
  runId : Uuid
  action : ActionId
  observation : ObservationReference
  planned : NodeId
  uuid : String
  vgUuid : String
  spec : NodeSpec

/-- A filesystem candidate is private until its actual completion passes all frozen
postconditions. -/
structure PendingFilesystemBinding where
  runId : Uuid
  action : ActionId
  observation : ObservationReference
  planned : NodeId
  uuid : String
  backing : NodeId
  spec : NodeSpec

/-- Confirmed new outputs scoped to one attempt. -/
structure OutputBindings where
  runId : Uuid
  entries : AList fun _ : NodeId => PendingLvBinding := ∅
  filesystems : AList fun _ : NodeId => PendingFilesystemBinding := ∅
  mounts : List ObservedMount := []

namespace ExecutionRun

/-- Returns an action's current runtime state. -/
def state (run : ExecutionRun) (id : ActionId) : Except ExecutionRunError ActionRunState :=
  match run.actions[id.get]? with
  | none => .error (.unknownAction id)
  | some record => .ok record.state

/-- Returns the retained completion of an action. -/
def completion (run : ExecutionRun) (id : ActionId) :
    Except ExecutionRunError (Option BackendCompletion) :=
  match run.actions[id.get]? with
  | none => .error (.unknownAction id)
  | some record => .ok record.completion

end ExecutionRun

/-! ### Observed identities -/

/-- `Uuid::parse_str(text)` succeeds with a UUID that is not nil and is written back as `text`. -/
def isCanonicalUuidText (text : String) : Bool :=
  let chars := text.toList
  let isHex (c : Char) := ('0' ≤ c && c ≤ '9') || ('a' ≤ c && c ≤ 'f')
  chars.length == 36 &&
    (chars.zipIdx.all fun entry =>
      if entry.2 ∈ [8, 13, 18, 23] then entry.1 == '-' else isHex entry.1) &&
    chars.any fun c => c ≠ '-' && c ≠ '0'

/-- Requires one present LV, one UUID, and one `Provides` edge from the unique admitted VG UUID. -/
def findLv (observed : LiveObservation) (uuid vgUuid : String) : Except BindingError NodeId :=
  let graph := observed.snapshot.graph
  if !isTrimmedText uuid then .error .identity
  else match graph.carriers (.lvmLvUuid uuid) with
    | [(id, node)] =>
        if node.size.presence != .present || !node.kind.kind.isLvmLv ||
            node.countLike (.lvmLvUuid uuid) ≠ 1 then .error .identity
        else match graph.dependencies.filter fun edge => edge.target == id with
          | [parent] =>
              if parent.kind ≠ .provides then .error .identity
              else match graph.node parent.source with
                | none => .error .identity
                | some vg =>
                    if !vg.kind.kind.isLvmVg || vg.size.presence != .present ||
                        vg.countLike (.lvmVgUuid vgUuid) ≠ 1 ||
                        .lvmVgUuid vgUuid ∉ vg.size.identities ||
                        (graph.carriers (.lvmVgUuid vgUuid)).length ≠ 1 then .error .identity
                    else .ok id
          | _ => .error .identity
    | _ => .error .identity

/-- What the resolver of a logical volume demands of a publication. -/
theorem findLv_eq_ok {observed : LiveObservation} {uuid vgUuid : String} {id : NodeId} :
    findLv observed uuid vgUuid = .ok id ↔
      isTrimmedText uuid ∧
      ∃ node, observed.snapshot.graph.carriers (.lvmLvUuid uuid) = [(id, node)] ∧
        node.size.presence = .present ∧ node.kind.kind.isLvmLv ∧
        node.countLike (.lvmLvUuid uuid) = 1 ∧
      ∃ parent, observed.snapshot.graph.dependencies.filter (fun edge => edge.target == id) =
          [parent] ∧ parent.kind = .provides ∧
      ∃ vg, observed.snapshot.graph.node parent.source = some vg ∧ vg.kind.kind.isLvmVg ∧
        vg.size.presence = .present ∧ vg.countLike (.lvmVgUuid vgUuid) = 1 ∧
        .lvmVgUuid vgUuid ∈ vg.size.identities ∧
        (observed.snapshot.graph.carriers (.lvmVgUuid vgUuid)).length = 1 := by
  constructor
  · intro h
    unfold findLv at h
    dsimp only at h
    split at h
    · cases h
    next ht =>
    split at h
    next found node hc =>
      split at h
      · cases h
      next hnode =>
      split at h
      next parent hp =>
        split at h
        · cases h
        next hkind =>
        split at h
        · cases h
        next vg hvg =>
        split at h
        · cases h
        next hgroup =>
          cases h
          simp only [Bool.not_eq_true, Bool.or_eq_false_iff, Bool.not_eq_false',
            bne_eq_false_iff_eq,
            decide_eq_false_iff_not, not_not] at ht hnode hkind hgroup
          exact ⟨ht, node, hc, hnode.1.1, hnode.1.2, hnode.2, parent, hp, hkind, vg, hvg,
            hgroup.1.1.1.1, hgroup.1.1.1.2, hgroup.1.1.2, hgroup.1.2, hgroup.2⟩
      · cases h
    · cases h
  · rintro ⟨ht, node, hc, hpres, hlv, hone, parent, hp, hkind, vg, hvg, hisvg, hvpres, hvone, hvmem,
      hvcar⟩
    simp [findLv, ht, hc, hpres, hlv, hone, hp, hkind, hvg, hisvg, hvpres, hvone, hvmem, hvcar]

/-- Revalidates a known ext4 UUID and its unique owning LV in one current publication.  Every
failure is the one `FilesystemEvidenceError`. -/
def observeExt4 (observed : LiveObservation) (backing : NodeId) (uuid : String)
    (label : Option String) : Option NodeId :=
  let graph := observed.snapshot.graph
  if observed.validate ≠ .ok () || !isCanonicalUuidText uuid ||
      !(graph.node backing).any (fun node =>
        node.size.presence == .present && node.kind.kind.isLvmLv) then none
  else match graph.carriers (.filesystem "ext4" uuid) with
    | [(id, node)] =>
        if node.size.presence != .present || node.kind.kind ≠ .filesystem .ext4 label ||
            node.countLike (.filesystem "ext4" uuid) ≠ 1 ||
            graph.dependencies.any (·.source == id) ||
            graph.relations.any (fun edge => edge.source == id || edge.target == id) then none
        else match graph.dependencies.filter fun edge => edge.target == id with
          | [edge] => if edge.source = backing ∧ edge.kind = .backs then some id else none
          | _ => none
    | _ => none

/-- What the resolver of a filesystem demands of a publication. -/
theorem observeExt4_eq_some {observed : LiveObservation} {backing id : NodeId} {uuid : String}
    {label : Option String} :
    observeExt4 observed backing uuid label = some id ↔
      observed.validate = .ok () ∧ isCanonicalUuidText uuid ∧
      (∃ lv, observed.snapshot.graph.node backing = some lv ∧ lv.size.presence = .present ∧
        lv.kind.kind.isLvmLv) ∧
      ∃ node, observed.snapshot.graph.carriers (.filesystem "ext4" uuid) = [(id, node)] ∧
        node.size.presence = .present ∧ node.kind.kind = .filesystem .ext4 label ∧
        node.countLike (.filesystem "ext4" uuid) = 1 ∧
        (∀ edge ∈ observed.snapshot.graph.dependencies, edge.source ≠ id) ∧
        (∀ edge ∈ observed.snapshot.graph.relations, edge.source ≠ id ∧ edge.target ≠ id) ∧
      ∃ edge, observed.snapshot.graph.dependencies.filter (fun edge => edge.target == id) =
          [edge] ∧ edge.source = backing ∧ edge.kind = .backs := by
  constructor
  · intro h
    unfold observeExt4 at h
    dsimp only at h
    split at h
    · cases h
    next hcheck =>
    split at h
    next found node hc =>
      split at h
      · cases h
      next hnode =>
      split at h
      next edge he =>
        split at h
        next hedge =>
          cases h
          simp only [Bool.not_eq_true, Bool.or_eq_false_iff, Bool.not_eq_false', Option.any_eq_true,
            Bool.and_eq_true, beq_iff_eq, bne_eq_false_iff_eq, decide_eq_false_iff_not, not_not,
            List.any_eq_false, beq_eq_false_iff_ne] at hcheck hnode
          obtain ⟨⟨hvalid, huuid⟩, lv, hlv, hpresent, hisLv⟩ := hcheck
          obtain ⟨⟨⟨⟨hnp, hkind⟩, hone⟩, hdeps⟩, hrels⟩ := hnode
          exact ⟨hvalid, huuid, ⟨lv, hlv, hpresent, hisLv⟩, node, hc, hnp, hkind, hone, hdeps, hrels,
            edge, he, hedge⟩
        · cases h
      · cases h
    · cases h
  · rintro ⟨hvalid, huuid, ⟨lv, hlv, hpresent, hisLv⟩, node, hc, hnp, hkind, hone, hdeps, hrels,
      edge, he, hedge⟩
    have hd : observed.snapshot.graph.dependencies.any (·.source == id) = false := by
      simpa using hdeps
    have hr : observed.snapshot.graph.relations.any
        (fun edge => edge.source == id || edge.target == id) = false := by
      simpa using hrels
    simp [observeExt4, hvalid, huuid, hlv, hpresent, hisLv, hc, hnp, hkind, hone, hd, hr, he, hedge]

/-- Correlates a new ext4 result with exactly one `Backs` edge from the admitted LV. -/
def correlateCreatedExt4 (before after : LiveObservation) (planned backing : NodeId)
    (uuid : String) (label : Option String) : Option NodeCorrelation :=
  if before.validate ≠ .ok () || after.validate ≠ .ok () || planned.asUuid.isNil ||
      before.snapshot.graph.contains planned ||
      before.reference.probeInstance ≠ after.reference.probeInstance ||
      before.reference.epoch ≥ after.reference.epoch || !isCanonicalUuidText uuid ||
      !(before.snapshot.graph.carriers (.filesystem "ext4" uuid)).isEmpty then none
  else match correlateNodes before.snapshot after.snapshot [backing] with
    | .ok (first :: _) =>
        if !(before.snapshot.graph.kindOf backing).any NodeKind.isLvmLv then none
        else (observeExt4 after first.target uuid label).map fun target =>
          ⟨planned, target, .filesystem "ext4" uuid⟩
    | _ => none

/-! ### Output bindings -/

namespace OutputBindings

/-- Starts an empty map for one specific attempt. -/
def new (run : ExecutionRun) : OutputBindings where
  runId := run.runId

/-- `observed.validate()?`. -/
def validated (observed : LiveObservation) : Except BindingError Unit :=
  match observed.validate with
  | .error error => .error (.observation error)
  | .ok () => .ok ()

/-- The observation is from the probe of a binding, and not older. -/
def isLater (observed : LiveObservation) (reference : ObservationReference) : Bool :=
  observed.reference.probeInstance == reference.probeInstance &&
    reference.epoch ≤ observed.reference.epoch

/-- The specification of an observed node is the verified one. -/
def hasSpec (observed : LiveObservation) (id : NodeId) (spec : NodeSpec) : Bool :=
  (observed.snapshot.graph.node id).map (·.kind) == some spec

/-- The LV of an entry in a fresh observation. -/
def resolveLv (binding : PendingLvBinding) (observed : LiveObservation) :
    Except BindingError NodeId := do
  validated observed
  if !isLater observed binding.observation then .error .identity
  else
    let id ← findLv observed binding.uuid binding.vgUuid
    if hasSpec observed id binding.spec then .ok id else .error .identity

/-- The filesystem of an entry whose backing has been resolved. -/
def resolveFilesystem (binding : PendingFilesystemBinding) (observed : LiveObservation)
    (backing : NodeId) : Except BindingError NodeId :=
  match binding.spec.kind with
  | .filesystem _ label =>
      match observeExt4 observed backing binding.uuid label with
      | none => .error .identity
      | some id => if hasSpec observed id binding.spec then .ok id else .error .identity
  | _ => .error .identity

/-- The recursion of `resolve`, bounded. -/
def resolveIn (bindings : OutputBindings) (observed : LiveObservation) :
    Nat → NodeId → Returns BindingError NodeId
  | 0, _ => Returns.never
  | fuel + 1, planned =>
      match bindings.filesystems.lookup planned with
      | some binding => do
          Returns.lift (validated observed)
          if !isLater observed binding.observation then throw .identity
          else
            let backing ← resolveIn bindings observed fuel binding.backing
            Returns.lift (resolveFilesystem binding observed backing)
      | none =>
          match bindings.entries.lookup planned with
          | none => throw .notVerified
          | some binding => Returns.lift (resolveLv binding observed)

/-- Resolves a verified output by UUID and its owning VG or backing LV in a fresh observation. -/
def resolve (bindings : OutputBindings) (run : ExecutionRun) (planned : NodeId)
    (observed : LiveObservation) : Returns BindingError NodeId :=
  if bindings.runId ≠ run.runId then throw .notVerified
  else resolveIn bindings observed (bindings.filesystems.entries.length + 1) planned

/-- The identity under which a planned output was verified. -/
def identityOf (bindings : OutputBindings) (planned : NodeId) : Except BindingError ExternalId :=
  match bindings.entries.lookup planned, bindings.filesystems.lookup planned with
  | some binding, _ => .ok (.lvmLvUuid binding.uuid)
  | none, some binding => .ok (.filesystem "ext4" binding.uuid)
  | none, none => .error .identity

/-- Revalidates every verified UUID against this publication before passing correlations to the
engine. -/
def correlations (bindings : OutputBindings) (run : ExecutionRun) (observed : LiveObservation) :
    Returns BindingError (List NodeCorrelation) :=
  if bindings.runId ≠ run.runId then throw .notVerified
  else (bindings.entries.keys ++ bindings.filesystems.keys).mapM fun planned => do
    let identity ← Returns.lift (bindings.identityOf planned)
    let target ← bindings.resolve run planned observed
    return ⟨planned, target, identity⟩

/-- A verified LV joins the reviewed scope under its VG. -/
def expectLv (expected : NodeGraph) (planned : NodeId) (binding : PendingLvBinding) :
    Except BindingError NodeGraph :=
  match expected.nodeList.filter fun entry =>
      entry.2.kind.kind.isLvmVg && .lvmVgUuid binding.vgUuid ∈ entry.2.size.identities with
  | [(parent, _)] =>
      match expected.insertNew planned
          ⟨binding.spec, { presence := .present, identities := [.lvmLvUuid binding.uuid] }⟩ with
      | .error _ => .error .identity
      | .ok graph => .ok (graph.insertDependency ⟨parent, planned, .provides⟩)
  | _ => .error .identity

/-- A verified filesystem joins the reviewed scope on its LV. -/
def expectFilesystem (expected : NodeGraph) (planned : NodeId)
    (binding : PendingFilesystemBinding) : Except BindingError NodeGraph :=
  match expected.insertNew planned
      ⟨binding.spec,
        { presence := .present, identities := [.filesystem "ext4" binding.uuid] }⟩ with
  | .error _ => .error .identity
  | .ok graph => .ok (graph.insertDependency ⟨binding.backing, planned, .backs⟩)

/-- Extends reviewed scope only with independently verified outputs, never with arbitrary live
nodes. -/
def reviewedScope (bindings : OutputBindings) (run : ExecutionRun) (observed : LiveObservation) :
    Returns BindingError CurrentState := do
  let _ ← bindings.correlations run observed
  let snapshot := run.document.baseline.snapshot
  let graph ← Returns.lift
    (bindings.entries.entries.foldlM (fun graph entry => expectLv graph entry.1 entry.2)
      snapshot.graph)
  let graph ← Returns.lift
    (bindings.filesystems.entries.foldlM
      (fun graph entry => expectFilesystem graph entry.1 entry.2) graph)
  return { snapshot with graph, mounts := snapshot.mounts ++ bindings.mounts }

/-! ### Recording -/

/-- The candidate is of this attempt, and its action is verified with the retained completion. -/
def isVerifiedOutput (bindings : OutputBindings) (run : ExecutionRun) (runId : Uuid)
    (action : ActionId) (observation : ObservationReference) : Except BindingError Bool := do
  if bindings.runId ≠ run.runId ∨ runId ≠ run.runId then .ok false
  else match run.state action with
    | .error error => .error (.run error)
    | .ok state =>
        if state ≠ .verified then .ok false
        else match run.completion action with
          | .error error => .error (.run error)
          | .ok completion =>
              .ok ((completion.map fun value => value.observation.reference) == some observation)

/-- Publishes only a candidate bound to the exact completion just accepted as verified. -/
def recordVerified (bindings : OutputBindings) (run : ExecutionRun) (binding : PendingLvBinding) :
    Except BindingError OutputBindings := do
  let verified ← bindings.isVerifiedOutput run binding.runId binding.action binding.observation
  if !verified || (bindings.entries.lookup binding.planned).isSome ||
      (bindings.filesystems.lookup binding.planned).isSome ||
      bindings.entries.entries.any (fun other => other.2.uuid == binding.uuid) then
    .error .notVerified
  else .ok { bindings with entries := bindings.entries.insert binding.planned binding }

/-- Publishes a filesystem only after this exact completion is accepted as verified. -/
def recordVerifiedFilesystem (bindings : OutputBindings) (run : ExecutionRun)
    (binding : PendingFilesystemBinding) : Except BindingError OutputBindings := do
  let verified ← bindings.isVerifiedOutput run binding.runId binding.action binding.observation
  if !verified || (bindings.entries.lookup binding.backing).isNone ||
      (bindings.entries.lookup binding.planned).isSome ||
      (bindings.filesystems.lookup binding.planned).isSome ||
      bindings.filesystems.entries.any (fun other => other.2.uuid == binding.uuid) then
    .error .notVerified
  else .ok { bindings with filesystems := bindings.filesystems.insert binding.planned binding }

/-- Records only a verified mount whose retained completion has already passed `verifyMount`; the
source indexes the plan without a check. -/
def recordVerifiedMount (bindings : OutputBindings) (run : ExecutionRun) (action : ActionId) :
    Returns BindingError OutputBindings :=
  if run.runId ≠ bindings.runId then throw .notVerified
  else match run.state action with
    | .error error => throw (.run error)
    | .ok state =>
        if state ≠ .verified then throw .notVerified
        else match run.plan.actions[action.get]? with
          | none => Returns.never
          | some planned =>
              match planned.operation with
              | .mount (.mount source target options context) =>
                  pure { bindings with
                    mounts := bindings.mounts ++ [⟨source, target, options, context⟩] }
              | _ => throw .identity

end OutputBindings

end DisksGraph
