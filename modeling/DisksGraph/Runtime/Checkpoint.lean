import DisksGraph.Editing.Request
import DisksGraph.Runtime.Targets

/-!
# Runtime — Checkpoint

The bounded description of one possibly interrupted action (`checkpoint.rs`, and the errors of
`lease.rs`).

SHA-256 and the JSON text of a record come from libraries; `CheckpointEncoding` has what the code
reads off them.
-/

namespace DisksGraph

/-- Initial checkpoint schema. -/
def CHECKPOINT_SCHEMA_VERSION : Nat := 1

/-- Maximum encoded checkpoint size. -/
def MAX_CHECKPOINT_BYTES : Nat := 64 * 1024

/-- Maximum number of affected identities retained in one attempt. -/
def MAX_TARGETS : Nat := 64

/-- Maximum external identity count for one target. -/
def MAX_EXTERNAL_IDS : Nat := 16

/-- Maximum UTF-8 byte length of any retained string. -/
def MAX_STRING_BYTES : Nat := 1024

/-- Failure to establish exclusion never permits dispatch. -/
inductive LeaseError where
  | io (message : String)
  | insecureDirectory
  | invalidLockFile
  | busy
  | notChecking
  | run (error : ExecutionRunError)
deriving DecidableEq

/-- Failures leave the runtime without permission to invoke a storage backend. -/
inductive CheckpointError where
  | lease (error : LeaseError)
  | io (message : String)
  | json (message : String)
  | schemaVersion (version : Nat)
  | tooLarge
  | invalidData (message : String)
  | unsupportedAction
  | notAdmitted
  | alreadyActive
  | attemptMismatch
  | invalidFile
  | poisoned
  | run (error : ExecutionRunError)
  | document (error : PlanDocumentError)
deriving DecidableEq

/-- A single action whose dispatch may have begun; this is neither history nor authorization. -/
structure ActiveAttempt where
  schemaVersion : Nat
  runId : Uuid
  planId : Uuid
  actionId : ActionId
  operationId : Option OperationId
  action : ProviderAction
  targets : List TargetFingerprint
  planDigest : String
  backendId : BackendId
deriving DecidableEq

/-- What the libraries compute: the digest of a canonical plan, the longest string of a record and
the length of its JSON text. -/
structure CheckpointEncoding where
  planDigest : PlanDocument → Except PlanDocumentError String
  longestString : ActiveAttempt → Nat
  encodedBytes : ActiveAttempt → Nat

/-- Native identity required for the operation's primary target. -/
inductive PrimaryIdentity where
  | volumeGroup
  | logicalVolume
  | filesystem
deriving DecidableEq, Repr

/-- An external identity is the native one of a primary target. -/
def PrimaryIdentity.accepts : PrimaryIdentity → ExternalId → Bool
  | .volumeGroup, .lvmVgUuid value | .logicalVolume, .lvmLvUuid value =>
      !value.toList.all isWhiteSpace
  | .filesystem, .filesystem fsType value => fsType == "ext4" && isCanonicalUuidText value
  | _, _ => false

namespace ActiveAttempt

/-- The primary target of a supported action and the identity it needs. -/
def primaryTarget : ProviderAction → Option (NodeId × PrimaryIdentity)
  | .lvm (.createLv vg planned _ size _) =>
      if planned.asUuid.isNil || size = 0 then none else some (vg, .volumeGroup)
  | .lvm (.setActivation target _) => some (target, .logicalVolume)
  | .filesystem (.create backing planned .ext4 label) =>
      if planned.asUuid.isNil || planned = backing || !representableLabel label then none
      else some (backing, .logicalVolume)
  | .mount (.mount (.filesystem fs) target options context) =>
      if isExt4HostMount (.mount (.mount (.filesystem fs) target options context)) then
        some (fs, .filesystem)
      else none
  | _ => none

/-- One round of the loop over the targets. -/
def checkTarget (attempt : ActiveAttempt) (primary : NodeId) (identity : PrimaryIdentity)
    (entry : TargetFingerprint × Nat) : Except CheckpointError Unit :=
  let target := entry.1
  if target.plannedId.asUuid.isNil ||
      (attempt.targets.take entry.2).any (·.plannedId == target.plannedId) ||
      target.externalIds.isEmpty then
    .error (.invalidData "missing or duplicate target identity")
  else if target.externalIds.length > MAX_EXTERNAL_IDS then .error .tooLarge
  else if target.plannedId = primary ∧ !target.externalIds.any identity.accepts then
    .error (.invalidData "primary target requires its native UUID")
  else .ok ()

/-- The digest is a lowercase SHA-256. -/
def hasDigestForm (digest : String) : Bool :=
  digest.utf8ByteSize == 64 &&
    digest.toList.all fun c => ('0' ≤ c && c ≤ '9') || ('a' ≤ c && c ≤ 'f')

/-- Checks schema, non-secret action scope, stable bindings, and fixed allocation limits. -/
def validate (encoding : CheckpointEncoding) (attempt : ActiveAttempt) :
    Except CheckpointError Unit :=
  if attempt.schemaVersion ≠ CHECKPOINT_SCHEMA_VERSION then
    .error (.schemaVersion attempt.schemaVersion)
  else if attempt.runId.isNil || attempt.planId.isNil ||
      attempt.operationId.any (·.asUuid.isNil) then
    .error (.invalidData "nil attempt identity")
  else if !hasDigestForm attempt.planDigest then
    .error (.invalidData "invalid SHA-256 plan digest")
  else match primaryTarget attempt.action with
    | none => .error .unsupportedAction
    | some (primary, identity) =>
        if !attempt.targets.any (·.plannedId == primary) then
          .error (.invalidData "missing primary target fingerprint")
        else if attempt.targets.length > MAX_TARGETS then .error .tooLarge
        else do
          attempt.targets.zipIdx.forM (attempt.checkTarget primary identity)
          if encoding.longestString attempt > MAX_STRING_BYTES then .error .tooLarge else .ok ()

/-- Validates the complete envelope before a store may publish any bytes. -/
def toBytes (encoding : CheckpointEncoding) (attempt : ActiveAttempt) :
    Except CheckpointError Unit := do
  attempt.validate encoding
  if encoding.encodedBytes attempt > MAX_CHECKPOINT_BYTES then .error .tooLarge else .ok ()

/-- Captures an admitted action and exact plan; the source indexes the plan without a check. -/
def capture (encoding : CheckpointEncoding) (run : ExecutionRun) (actionId : ActionId)
    (operationId : Option OperationId) (targets : List TargetFingerprint) (backendId : BackendId) :
    Support.Returns CheckpointError ActiveAttempt :=
  match run.state actionId with
  | .error error => throw (.run error)
  | .ok state =>
      if state ≠ .admitted then throw .notAdmitted
      else match run.plan.actions[actionId.get]? with
        | none => Support.Returns.never
        | some planned =>
            match encoding.planDigest run.document with
            | .error error => throw (.document error)
            | .ok planDigest => do
                let attempt : ActiveAttempt := {
                  schemaVersion := CHECKPOINT_SCHEMA_VERSION
                  runId := run.runId
                  planId := run.document.planId
                  actionId
                  operationId
                  action := planned.operation
                  targets
                  planDigest
                  backendId }
                Support.Returns.lift (attempt.toBytes encoding)
                return attempt

/-- A captured attempt names its run, plan and action, and what was resolved for it. -/
theorem capture_eq {encoding : CheckpointEncoding} {run : ExecutionRun} {actionId : ActionId}
    {operationId : Option OperationId} {targets : List TargetFingerprint} {backendId : BackendId}
    {attempt : ActiveAttempt}
    (h : capture encoding run actionId operationId targets backendId = pure attempt) :
    attempt.runId = run.runId ∧ attempt.planId = run.document.planId ∧
      attempt.actionId = actionId ∧ attempt.targets = targets ∧ attempt.backendId = backendId ∧
      run.state actionId = .ok .admitted ∧
      ∃ planned, run.plan.actions[actionId.get]? = some planned ∧
        attempt.action = planned.operation := by
  rw [capture] at h
  split at h
  · exact absurd h Support.Returns.throw_ne_pure
  · next state hstate =>
    split at h
    · exact absurd h Support.Returns.throw_ne_pure
    · next hadmitted =>
      split at h
      · exact absurd h Support.Returns.never_ne_pure
      · next planned hplanned =>
        split at h
        · exact absurd h Support.Returns.throw_ne_pure
        · obtain ⟨_, -, h⟩ := Support.Returns.bind_eq_pure.mp h
          obtain rfl := Support.Returns.pure_inj.mp h
          have hstate' : run.state actionId = .ok .admitted := by
            rw [hstate, not_not.mp hadmitted]
          exact ⟨rfl, rfl, rfl, rfl, rfl, hstate', planned, hplanned, rfl⟩

end ActiveAttempt

end DisksGraph
