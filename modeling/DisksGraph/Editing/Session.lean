import DisksGraph.Editing.Lowered
import DisksGraph.Engine.Correlate
import DisksGraph.Support.Stateful

/-!
# Editing — Session

Revision-checked editing and draft-only history against an immutable baseline (`session.rs`), with
the translation of a draft to new observations (`rebase.rs`) and the saved draft of `document.rs`.

A method that takes `&mut self` is a call on the session; it rejects with the session unchanged or
publishes a draft together with its preview.

* `PlanSession.edit_atomic`, `undo_atomic`, `redo_atomic`, `acceptRebase_atomic`: each call returns,
  and publishes or changes nothing.
* `editing_session_invariant`: what holds in every session that a sequence of calls can produce.
-/

namespace DisksGraph

open Support (Returns Stateful)
open Support.Stateful (Atomic Completes Guards)

/-! ### Data -/

/-- Default number of draft snapshots retained on each side of undo/redo history. -/
def DEFAULT_HISTORY_LIMIT : Nat := 64

/-- Maximum number of operations accepted in a persisted draft. -/
def MAX_DRAFT_OPERATIONS : Nat := 256

/-- Version of persisted editable requests. -/
def DRAFT_SCHEMA_VERSION : Nat := 5

/-- Maximum UTF-8 size accepted by the draft JSON boundary. -/
def MAX_DRAFT_JSON_BYTES : Nat := 1024 * 1024

/-- Session revision (`u64`), initially zero and advanced monotonically by accepted edits. -/
structure DraftRevision where
  get : Nat := 0
deriving DecidableEq, Repr

/-- Advances without wrapping, including when restoring an older draft from history. -/
def DraftRevision.next (revision : DraftRevision) : Option DraftRevision :=
  (checkedAdd revision.get 1).map DraftRevision.mk

/-- Result for the current draft only; an invalid edit never exposes an older desired state. -/
inductive PreviewState where
  | calculated (preview : PlanPreview)
  | invalid (error : DraftBuildError)

/-- Retains either the current forecast or its failure. -/
def PreviewState.from : Except DraftBuildError PlanPreview → PreviewState
  | .ok preview => .calculated preview
  | .error error => .invalid error

/-- User-plan failures are retained as the current result; an internal failure aborts the call. -/
def PreviewState.retain {ε : Type} (abort : DraftBuildError → ε) :
    Returns DraftBuildError PlanPreview → Returns ε PreviewState
  | none => Returns.never
  | some result =>
      match result with
      | .error error => if error.isInternal then throw (abort error) else pure (.from result)
      | .ok _ => pure (.from result)

/-- One user command; valid edits may deliberately leave an invalid, editable plan. -/
inductive PlanEdit where
  | add (request : PlanRequest)
  | replace (operation : OperationId) (request : PlanRequest)
  | remove (operations : List OperationId)
  | moveBefore (operation : OperationId) (before : Option OperationId)
  | setProtection (scope : ProtectedScope)
  | clear

/-- Confirmation of draft publication, not confirmation of execution eligibility. -/
structure EditReceipt where
  revision : DraftRevision
  addedOperation : Option OperationId := none
  createdNode : Option NodeId := none
deriving DecidableEq

/-- A rejected command leaves the draft, preview, revision, and both history stacks unchanged. -/
inductive EditError where
  | revisionConflict (expected actual : DraftRevision)
  | unknownOperation (operation : OperationId)
  | requestKindChange (operation : OperationId)
  | dependentOperations (operations : List OperationId)
  | noUndo
  | noRedo
  | revisionExhausted
  | operationLimit
  | internalBuild (error : DraftBuildError)
deriving DecidableEq

/-- Saved editable inputs only; actions and future state are always recalculated on opening. -/
structure DraftDocument where
  schemaVersion : Nat
  sessionId : Uuid
  revision : DraftRevision
  baseline : HistoricalBaseline
  draft : PlanDraft

/-- Import/export failure at the untrusted draft boundary. -/
inductive DraftDocumentError where
  | json (message : String)
  | schemaVersion (version : Nat)
  | requestVersion (version : Nat) (operation : OperationId)
  | invalidSessionIdentity
  | tooLarge
  | tooManyOperations
  | inputs (error : DraftBuildError)

/-- Rejected baseline translation; original requests and observations are left untouched. -/
inductive RebaseError where
  | revisionConflict (expected actual : DraftRevision)
  | sourceContextChanged
  | revisionExhausted
  | sameBaselineIdentity
  | inputs (error : DraftBuildError)
  | correlation (error : CorrelationError)
  | outputCollision (node : NodeId)
  | unsupportedOperation (operation : OperationId)
  | unsupportedMountContext (context : MountContext)
deriving DecidableEq

/-- One local editing session; state observation and real execution remain separate boundaries. -/
structure PlanSession where
  id : Uuid
  revision : DraftRevision
  baseline : HistoricalBaseline
  draft : PlanDraft
  preview : PreviewState
  historyLimit : Nat
  undo : List PlanDraft
  redo : List PlanDraft

/-- Immutable proposed rebase; inspecting it does not publish a new baseline or revision. -/
structure RebasePreview where
  source : DraftDocument
  baseline : HistoricalBaseline
  draft : PlanDraft
  preview : PreviewState
  correlations : List NodeCorrelation

/-- The texts a session depends on: the JSON of contract values, and the JSON length of a draft
document or the failure to encode it. -/
structure EditingText where
  keys : ContractKeys
  jsonLength : DraftDocument → Except String Nat

/-- `baseline == other`. -/
def HistoricalBaseline.equals (baseline other : HistoricalBaseline) : Bool :=
  baseline.id == other.id && baseline.snapshot.graph.sameAs other.snapshot.graph &&
    baseline.snapshot.mounts == other.snapshot.mounts &&
    baseline.snapshot.environment == other.snapshot.environment &&
    baseline.snapshot.diagnostics == other.snapshot.diagnostics &&
    baseline.capacityEvidence == other.capacityEvidence

/-! ### Edits of a draft -/

/-- Resolves a stable operation identity before changing a candidate draft. -/
def operationIndex (draft : PlanDraft) (id : OperationId) : Except EditError Nat :=
  match draft.operations.findIdx? fun operation => operation.id == id with
  | none => .error (.unknownOperation id)
  | some index => .ok index

/-- One round of the loop of `removal_impact`. -/
def impactRound (draft : PlanDraft) (affected : List OperationId) : List OperationId :=
  let outputs := (draft.operations.filter fun operation =>
    operation.id ∈ affected).filterMap (·.createdNode)
  draft.operations.foldl (fun affected operation =>
    if operation.request.referencedNodes.any (· ∈ outputs) then affected.insert operation.id
    else affected) affected

/-- The loop of `removal_impact`: every round but the last adds an operation. -/
def impactLoop (draft : PlanDraft) : Nat → List OperationId → Option (List OperationId)
  | 0, _ => none
  | rounds + 1, affected =>
      let next := impactRound draft affected
      if next.length = affected.length then some affected else impactLoop draft rounds next

/-- Finds all request identities whose existence depends on the selected operations. -/
def removalImpact (draft : PlanDraft) (operations : List OperationId) :
    Returns EditError (List OperationId) := do
  Returns.lift (operations.forM fun operation => do
    let _ ← operationIndex draft operation)
  let affected ← Returns.unwrap
    (impactLoop draft (draft.operations.length + 1)
      (operations.foldl (fun selected operation => selected.insert operation) []))
  return (draft.operations.filter fun operation => operation.id ∈ affected).map (·.id)

/-- Identities of operations of the draft, each once. -/
structure PlanDraft.Selects (draft : PlanDraft) (affected : List OperationId) : Prop where
  nodup : affected.Nodup
  known : affected ⊆ draft.operations.map (·.id)

/-- One more operation of the draft may be selected. -/
theorem PlanDraft.Selects.insert {draft : PlanDraft} {affected : List OperationId}
    (h : draft.Selects affected) {id : OperationId} (hid : id ∈ draft.operations.map (·.id)) :
    draft.Selects (affected.insert id) := by
  refine ⟨h.nodup.insert, fun other hother => ?_⟩
  rcases List.mem_insert_iff.mp hother with rfl | hother
  · exact hid
  · exact h.known hother

/-- A round adds operations of the draft and drops none. -/
theorem PlanDraft.Selects.impactRound {draft : PlanDraft} {affected : List OperationId}
    (h : draft.Selects affected) :
    draft.Selects (impactRound draft affected) ∧
      affected.length ≤ (DisksGraph.impactRound draft affected).length := by
  refine List.foldlRecOn draft.operations _ (motive := fun next => draft.Selects next ∧
    affected.length ≤ next.length) ⟨h, le_rfl⟩ fun next hnext operation hmem => ?_
  split
  · refine ⟨hnext.1.insert (List.mem_map_of_mem hmem), hnext.2.trans ?_⟩
    exact (List.sublist_insert operation.id next).length_le
  · exact hnext

/-- The loop ends: every round but the last adds one of finitely many operations. -/
theorem impactLoop_isSome {draft : PlanDraft} {rounds : Nat} {affected : List OperationId}
    (h : draft.Selects affected) (hrounds : draft.operations.length < rounds + affected.length) :
    (impactLoop draft rounds affected).isSome := by
  induction rounds generalizing affected with
  | zero =>
      have hle := (h.nodup.subperm h.known).length_le
      rw [List.length_map] at hle
      omega
  | succ rounds ih =>
      rw [impactLoop]
      split
      · rfl
      · obtain ⟨hnext, hlength⟩ := h.impactRound
        exact ih hnext (by omega)

theorem operationIndex_known {draft : PlanDraft} {id : OperationId} {index : Nat}
    (h : operationIndex draft id = .ok index) : id ∈ draft.operations.map (·.id) := by
  unfold operationIndex at h
  split at h
  · cases h
  next index' hindex =>
    obtain ⟨hlt, hid, -⟩ := List.findIdx?_eq_some_iff_getElem.mp hindex
    exact List.mem_map.mpr ⟨_, List.getElem_mem hlt, eq_of_beq hid⟩

/-- The passes over a selection of known operations end. -/
theorem impactLoop_ends {draft : PlanDraft} {operations : List OperationId}
    (h : operations ⊆ draft.operations.map (·.id)) :
    ∃ affected, impactLoop draft (draft.operations.length + 1)
      (operations.foldl (fun selected operation => selected.insert operation) []) =
        some affected := by
  have hselects : draft.Selects
      (operations.foldl (fun selected operation => selected.insert operation) []) := by
    refine List.foldlRecOn operations _ (motive := draft.Selects)
      ⟨List.nodup_nil, List.nil_subset _⟩ fun selected hselected operation hmem => ?_
    exact hselected.insert (h hmem)
  exact Option.isSome_iff_exists.mp (impactLoop_isSome hselects (by omega))

/-- The removal impact is always computed. -/
theorem removalImpact_returns (draft : PlanDraft) (operations : List OperationId) :
    ∃ result, removalImpact draft operations = some result := by
  unfold removalImpact
  cases hknown : operations.forM fun operation => (do let _ ← operationIndex draft operation) with
  | error error => exact ⟨.error error, rfl⟩
  | ok _ =>
      have hsubset : operations ⊆ draft.operations.map (·.id) := by
        intro operation hmem
        obtain ⟨index, hindex, -⟩ :=
          Support.except_bind_eq_ok.mp (Support.except_forM_eq_ok.mp hknown operation hmem)
        exact operationIndex_known hindex
      obtain ⟨affected, haffected⟩ := impactLoop_ends hsubset
      refine ⟨.ok ((draft.operations.filter fun operation => operation.id ∈ affected).map (·.id)), ?_⟩
      rw [haffected]
      rfl

/-- Cancels only explicitly selected requests after computing all existence dependents. -/
def removeOperations (draft : PlanDraft) (operations : List OperationId) :
    Returns EditError PlanDraft := do
  let affected ← removalImpact draft operations
  match affected.filter fun operation => operation ∉ operations with
  | [] => return { draft with
      operations := draft.operations.filter fun operation => operation.id ∉ operations }
  | missing => throw (.dependentOperations missing)

/-- The kinds of requests that a replacement keeps. -/
def PlanRequest.sameKind : PlanRequest → PlanRequest → Bool
  | .createPartition .., .createPartition .. | .formatLuks .., .formatLuks ..
  | .openLuks .., .openLuks .. | .createLv .., .createLv .. | .resizeLv .., .resizeLv ..
  | .resizeFilesystem .., .resizeFilesystem .. | .deletePartition _, .deletePartition _
  | .removeLv _, .removeLv _ | .closeLuks _, .closeLuks _
  | .createFilesystem .., .createFilesystem .. | .mount _, .mount _
  | .persistMount _, .persistMount _ | .unmount .., .unmount ..
  | .removePersistentMount .., .removePersistentMount ..
  | .setFilesystemLabel .., .setFilesystemLabel .. => true
  | .maintenance left, .maintenance right =>
      match left, right with
      | .reformat .., .reformat .. | .replaceMember .., .replaceMember ..
      | .convertBtrfsProfiles .., .convertBtrfsProfiles .. | .check .., .check ..
      | .repair .., .repair .. | .setActivation .., .setActivation .. => true
      | _, _ => false
  | _, _ => false

/-- The draft that a command asks for; `id` and `node` are what `Uuid::now_v7` draws. -/
def PlanEdit.candidate (id : OperationId) (node : NodeId) (draft : PlanDraft)
    (receipt : EditReceipt) : PlanEdit → Returns EditError (PlanDraft × EditReceipt)
  | .add request =>
      if MAX_DRAFT_OPERATIONS ≤ draft.operations.length then throw .operationLimit
      else
        let operation := PlanOperation.new id node request
        pure ({ draft with operations := draft.operations ++ [operation] },
          { receipt with
            addedOperation := some operation.id
            createdNode := operation.createdNode })
  | .replace operation request => do
      let index ← Returns.lift (operationIndex draft operation)
      let previous ← Returns.unwrap (draft.operations[index]?)
      if !previous.request.sameKind request then throw (.requestKindChange operation)
      return ({ draft with operations := draft.operations.set index { previous with request } },
        receipt)
  | .remove operations => do return (← removeOperations draft operations, receipt)
  | .moveBefore operation before => do
      let index ← Returns.lift (operationIndex draft operation)
      if let some before := before then
        let _ ← Returns.lift (operationIndex draft before)
      if before = some operation then return (draft, receipt)
      let moved ← Returns.unwrap (draft.operations[index]?)
      let rest := { draft with operations := draft.operations.eraseIdx index }
      let target ← match before with
        | some before => Returns.lift (operationIndex rest before)
        | none => pure rest.operations.length
      return ({ rest with operations := rest.operations.insertIdx target moved }, receipt)
  | .setProtection scope => pure ({ draft with protectedScope := scope }, receipt)
  | .clear => pure ({ draft with operations := [] }, receipt)

/-- Retains the newest snapshots without growing the bounded history indefinitely. -/
def pushHistory (history : List PlanDraft) (draft : PlanDraft) (limit : Nat) : List PlanDraft :=
  if limit = 0 then history
  else (if limit ≤ history.length then history.drop 1 else history) ++ [draft]

/-! ### Rebase -/

/-- `remap`: a node under the mapping of matched objects, itself when it has no match. -/
def remapNode (correlations : List NodeCorrelation) (node : NodeId) : NodeId :=
  match correlations.reverse.find? fun binding => binding.source == node with
  | none => node
  | some binding => binding.target

/-- The source of a mount under the mapping; paths and network sources name no node. -/
def MountSource.remapNodes (correlations : List NodeCorrelation) : MountSource → MountSource
  | .filesystem node => .filesystem (remapNode correlations node)
  | .btrfsSubvolume node => .btrfsSubvolume (remapNode correlations node)
  | .zfsDataset node => .zfsDataset (remapNode correlations node)
  | source => source

/-- The nodes of an intent under the mapping. -/
def OperationIntent.remapNodes (correlations : List NodeCorrelation) :
    OperationIntent → OperationIntent
  | .reformat target role => .reformat (remapNode correlations target) role
  | .check target force => .check (remapNode correlations target) force
  | .repair target mode => .repair (remapNode correlations target) mode
  | .setActivation target active => .setActivation (remapNode correlations target) active
  | .replaceMember group old new =>
      .replaceMember (remapNode correlations group) (remapNode correlations old)
        (remapNode correlations new)
  | .convertBtrfsProfiles filesystem profiles =>
      .convertBtrfsProfiles (remapNode correlations filesystem) profiles

/-- Rewrites existing input identities, leaving every other parameter as the user gave it. -/
def PlanRequest.remapNodes (correlations : List NodeCorrelation) : PlanRequest → PlanRequest
  | .createPartition table number offset size role attributes =>
      .createPartition (remapNode correlations table) number offset size role attributes
  | .createLv vg name size layout activate =>
      .createLv (remapNode correlations vg) name size layout activate
  | .resizeLv lv newSize => .resizeLv (remapNode correlations lv) newSize
  | .removeLv lv => .removeLv (remapNode correlations lv)
  | .deletePartition partition => .deletePartition (remapNode correlations partition)
  | .closeLuks mapping => .closeLuks (remapNode correlations mapping)
  | .createFilesystem backing filesystem label =>
      .createFilesystem (remapNode correlations backing) filesystem label
  | .formatLuks backing version credential =>
      .formatLuks (remapNode correlations backing) version credential
  | .openLuks container mappingName credential readOnly =>
      .openLuks (remapNode correlations container) mappingName credential readOnly
  | .setFilesystemLabel filesystem label =>
      .setFilesystemLabel (remapNode correlations filesystem) label
  | .resizeFilesystem filesystem newSize =>
      .resizeFilesystem (remapNode correlations filesystem) newSize
  | .mount entry => .mount { entry with source := entry.source.remapNodes correlations }
  | .persistMount entry =>
      .persistMount { entry with source := entry.source.remapNodes correlations }
  | .unmount target context => .unmount target context
  | .removePersistentMount target context => .removePersistentMount target context
  | .maintenance intent => .maintenance (intent.remapNodes correlations)

/-- Whether a mount request can be translated: a host mount of a filesystem or of memory. -/
def checkRebasedMount (operation : OperationId) (entry : MountEntry) : Except RebaseError Unit :=
  if entry.context ≠ .host then .error (.unsupportedMountContext entry.context)
  else match entry.source with
    | .filesystem _ | .tmpfs => .ok ()
    | _ => .error (.unsupportedOperation operation)

/-- One round of the first loop of `remap_draft`. -/
def checkRebasedOperation (next : HistoricalBaseline) (operation : PlanOperation) :
    Except RebaseError Unit :=
  match operation.createdNode.filter next.snapshot.graph.contains with
  | some output => .error (.outputCollision output)
  | none =>
      match operation.request with
      | .unmount .. | .removePersistentMount .. => .error (.unsupportedOperation operation.id)
      | .mount entry | .persistMount entry => checkRebasedMount operation.id entry
      | _ => .ok ()

/-- The observed nodes that a draft selects: inputs and protected nodes that it does not create. -/
def PlanDraft.selectedNodes (draft : PlanDraft) : List NodeId :=
  let outputs := draft.operations.filterMap (·.createdNode)
  (draft.operations.flatMap (·.request.referencedNodes) ++ draft.protectedScope.nodes).filter
    (· ∉ outputs)

/-- A draft with its inputs and protected nodes under the mapping. -/
def PlanDraft.remapNodes (correlations : List NodeCorrelation) (draft : PlanDraft) : PlanDraft where
  operations := draft.operations.map fun operation =>
    { operation with request := operation.request.remapNodes correlations }
  protectedScope := { draft.protectedScope with
    nodes := draft.protectedScope.nodes.map (remapNode correlations) }

/-- Copies a draft, correlating existing inputs and retaining operation/planned-output
identities. -/
def remapDraft (keys : ContractKeys) (current : HistoricalBaseline) (draft : PlanDraft)
    (next : HistoricalBaseline) : Returns RebaseError (PlanDraft × List NodeCorrelation) := do
  if current.id = next.id then throw .sameBaselineIdentity
  Returns.mapError .inputs (Returns.lift (validateDraft current draft))
  let _ ← Returns.mapError .inputs (buildPreview keys next {})
  Returns.lift (draft.operations.forM (checkRebasedOperation next))
  Returns.lift ((draft.protectedScope.runtimeMounts ++ draft.protectedScope.persistentMounts).forM
    fun mount => if mount.context ≠ .host then .error (.unsupportedMountContext mount.context)
      else .ok ())
  let correlations ← Returns.mapError .correlation
    (Returns.lift (correlateNodes current.snapshot next.snapshot draft.selectedNodes))
  let translated := draft.remapNodes correlations
  Returns.mapError .inputs (Returns.lift (validateDraft next translated))
  return (translated, correlations)

/-! ### Saved drafts -/

/-- The first schema version whose catalogue has a request. -/
def PlanRequest.requiredVersion : PlanRequest → Nat
  | .deletePartition _ | .removeLv _ | .closeLuks _ => 5
  | .resizeLv .. | .resizeFilesystem .. => 4
  | .formatLuks .. | .openLuks .. => 3
  | .createPartition .. => 2
  | _ => 1

/-- Checks public/deserialized data again before it can become a live editing session. -/
def DraftDocument.validate (text : EditingText) (document : DraftDocument) :
    Returns DraftDocumentError Unit := do
  if document.schemaVersion = 0 ∨ DRAFT_SCHEMA_VERSION < document.schemaVersion then
    throw (.schemaVersion document.schemaVersion)
  match document.draft.operations.find? fun operation =>
      document.schemaVersion < operation.request.requiredVersion with
  | some operation => throw (.requestVersion document.schemaVersion operation.id)
  | none => pure ()
  if document.sessionId.isNil then throw .invalidSessionIdentity
  if MAX_DRAFT_OPERATIONS < document.draft.operations.length then throw .tooManyOperations
  let length ← Returns.mapError .json (Returns.lift (text.jsonLength document))
  if MAX_DRAFT_JSON_BYTES < length then throw .tooLarge
  Returns.mapError .inputs (Returns.lift (validateDraft document.baseline document.draft))
  let _ ← Returns.mapError .inputs (buildPreview text.keys document.baseline {})
  return ()

/-! ### Sessions -/

/-- A method of a session that edits it. -/
abbrev SessionM (ε : Type) : Type → Type := Stateful ε PlanSession

/-- A computation of a method without access to the session. -/
def SessionM.compute {ε α : Type} : Returns ε α → SessionM ε α
  | none => Stateful.panic
  | some (.error error) => throw error
  | some (.ok value) => pure value

namespace PlanSession

/-- Validates the supplied baseline by building the initial empty plan. -/
def new (keys : ContractKeys) (id : Uuid) (baseline : HistoricalBaseline) :
    Returns DraftBuildError PlanSession := do
  let preview ← buildPreview keys baseline {}
  return ⟨id, {}, baseline, {}, .calculated preview, DEFAULT_HISTORY_LIMIT, [], []⟩

/-- Opens bounded editable inputs and recomputes the current preview, preserving stable IDs. -/
def fromDocument (text : EditingText) (document : DraftDocument) :
    Returns DraftDocumentError PlanSession := do
  document.validate text
  let preview ← PreviewState.retain .inputs
    (buildPreview text.keys document.baseline document.draft)
  return ⟨document.sessionId, document.revision, document.baseline, document.draft, preview,
    DEFAULT_HISTORY_LIMIT, [], []⟩

/-- Captures editable inputs; undo/redo, generated actions, and forecasts are not persisted. -/
def draftDocument (session : PlanSession) : DraftDocument :=
  ⟨DRAFT_SCHEMA_VERSION, session.id, session.revision, session.baseline, session.draft⟩

/-- Changes retention without changing the draft/revision; zero discards all history. -/
def setHistoryLimit (limit : Nat) (session : PlanSession) : PlanSession :=
  { session with
    historyLimit := limit
    undo := session.undo.drop (session.undo.length - limit)
    redo := session.redo.drop (session.redo.length - limit) }

/-- Checks optimistic concurrency and overflow before any draft/history mutation. -/
def checkRevision (expected : DraftRevision) : SessionM EditError DraftRevision := do
  let session ← get
  Stateful.reject (expected ≠ session.revision) (.revisionConflict expected session.revision)
  match session.revision.next with
  | none => throw .revisionExhausted
  | some revision => return revision

/-- User-plan failures remain editable; internal invariant failures abort publication. -/
def buildCandidate (keys : ContractKeys) (candidate : PlanDraft) :
    SessionM EditError PreviewState := do
  let session ← get
  SessionM.compute
    (PreviewState.retain .internalBuild (buildPreview keys session.baseline candidate))

/-- Applies a command atomically and recalculates from the same baseline. -/
def edit (keys : ContractKeys) (expected : DraftRevision) (command : PlanEdit) (id : OperationId)
    (node : NodeId) : SessionM EditError EditReceipt := do
  let revision ← checkRevision expected
  let session ← get
  let (candidate, receipt) ←
    SessionM.compute (command.candidate id node session.draft { revision })
  let preview ← buildCandidate keys candidate
  modify fun session =>
    { session with
      undo := pushHistory session.undo session.draft session.historyLimit
      draft := candidate
      redo := []
      preview
      revision }
  return receipt

/-- Restores the previous draft and its identities; the publication revision still increases. -/
def undo_ (keys : ContractKeys) (expected : DraftRevision) : SessionM EditError DraftRevision := do
  let revision ← checkRevision expected
  let session ← get
  match session.undo.getLast? with
  | none => throw .noUndo
  | some candidate =>
      let preview ← buildCandidate keys candidate
      modify fun session =>
        { session with
          undo := session.undo.dropLast
          redo := pushHistory session.redo session.draft session.historyLimit
          draft := candidate
          preview
          revision }
      return revision

/-- Restores an undone draft and recomputes its preview without executing storage actions. -/
def redo_ (keys : ContractKeys) (expected : DraftRevision) : SessionM EditError DraftRevision := do
  let revision ← checkRevision expected
  let session ← get
  match session.redo.getLast? with
  | none => throw .noRedo
  | some candidate =>
      let preview ← buildCandidate keys candidate
      modify fun session =>
        { session with
          redo := session.redo.dropLast
          undo := pushHistory session.undo session.draft session.historyLimit
          draft := candidate
          preview
          revision }
      return revision

/-- Prepares a separately reviewable forecast without mutating baseline, revision, or history. -/
def prepareRebase (keys : ContractKeys) (expected : DraftRevision) (baseline : HistoricalBaseline)
    (session : PlanSession) : Returns RebaseError RebasePreview := do
  if expected ≠ session.revision then throw (.revisionConflict expected session.revision)
  let source := session.draftDocument
  let (draft, correlations) ← remapDraft keys source.baseline source.draft baseline
  let preview ← PreviewState.retain .inputs (buildPreview keys baseline draft)
  return ⟨source, baseline, draft, preview, correlations⟩

/-- Publishes an explicitly reviewed rebase atomically, retaining operation/output IDs. -/
def acceptRebase (expected : DraftRevision) (review : RebasePreview) :
    SessionM RebaseError DraftRevision := do
  let session ← get
  Stateful.reject (expected ≠ session.revision) (.revisionConflict expected session.revision)
  Stateful.reject (review.source.revision ≠ session.revision)
    (.revisionConflict review.source.revision session.revision)
  Stateful.reject (review.source.sessionId ≠ session.id ||
    !review.source.baseline.equals session.baseline || review.source.draft ≠ session.draft)
    .sourceContextChanged
  match session.revision.next with
  | none => throw .revisionExhausted
  | some revision =>
      set { session with
        baseline := review.baseline
        draft := review.draft
        preview := review.preview
        revision
        undo := []
        redo := [] }
      return revision

/-! ### What one call does -/

/-- The published preview is what the baseline and the draft give, and both histories are within
the limit. -/
structure Consistent (keys : ContractKeys) (session : PlanSession) : Prop where
  preview : ∃ result, buildPreview keys session.baseline session.draft = some result ∧
    session.preview = .from result
  undo : session.undo.length ≤ session.historyLimit
  redo : session.redo.length ≤ session.historyLimit

/-- A publication: the next revision of the same session, consistent if the session was. -/
structure Publishes (keys : ContractKeys) (session next : PlanSession) : Prop where
  id : next.id = session.id
  revision : next.revision.get = session.revision.get + 1
  consistent : session.Consistent keys → next.Consistent keys

end PlanSession

theorem DraftRevision.get_next {revision next : DraftRevision} (h : revision.next = some next) :
    next.get = revision.get + 1 := by
  rw [DraftRevision.next, Option.map_eq_some_iff] at h
  obtain ⟨value, hvalue, rfl⟩ := h
  unfold checkedAdd at hvalue
  split at hvalue
  · cases hvalue
    rfl
  · cases hvalue

/-- What is retained is a preview that was built. -/
theorem PreviewState.retain_eq_pure {ε : Type} {abort : DraftBuildError → ε}
    {built : Returns DraftBuildError PlanPreview} {preview : PreviewState}
    (h : PreviewState.retain abort built = pure preview) :
    ∃ result, built = some result ∧ preview = .from result := by
  cases built with
  | none => cases h
  | some result =>
      refine ⟨result, rfl, ?_⟩
      cases result with
      | ok plan => exact (Returns.pure_inj.mp h).symm
      | error error =>
          change (if error.isInternal = true then throw (abort error) else _) = _ at h
          split at h
          · cases h
          · exact (Returns.pure_inj.mp h).symm

theorem pushHistory_length {history : List PlanDraft} {limit : Nat} (draft : PlanDraft)
    (h : history.length ≤ limit) : (pushHistory history draft limit).length ≤ limit := by
  unfold pushHistory
  split
  · exact h
  · split
    · rw [List.length_append, List.length_drop, List.length_singleton]
      omega
    · rw [List.length_append, List.length_singleton]
      omega

theorem SessionM.compute_guards {ε α : Type} {x : Returns ε α} {session : PlanSession}
    (hx : ∃ result, x = some result) :
    Guards (SessionM.compute x) session fun value => x = pure value := by
  obtain ⟨result, rfl⟩ := hx
  cases result with
  | error error => exact .of_throw error
  | ok value => exact .inr ⟨value, session, rfl, rfl, rfl⟩

theorem PreviewState.retain_returns {ε : Type} {abort : DraftBuildError → ε}
    {built : Returns DraftBuildError PlanPreview} (h : ∃ result, built = some result) :
    ∃ result, PreviewState.retain abort built = some result := by
  obtain ⟨result, rfl⟩ := h
  cases result with
  | ok plan => exact ⟨_, rfl⟩
  | error error =>
      unfold PreviewState.retain
      dsimp only
      split <;> exact ⟨_, rfl⟩

/-- An operation that is found has a place in the draft. -/
theorem operationIndex_bound {draft : PlanDraft} {id : OperationId} {index : Nat}
    (h : operationIndex draft id = .ok index) :
    ∃ operation, draft.operations[index]? = some operation := by
  unfold operationIndex at h
  split at h
  · cases h
  next index' hindex =>
    obtain rfl := Except.ok.inj h
    obtain ⟨hlt, -⟩ := List.findIdx?_eq_some_iff_getElem.mp hindex
    exact ⟨_, List.getElem?_eq_getElem hlt⟩

/-- The draft that a command asks for is always computed. -/
theorem PlanEdit.candidate_returns (command : PlanEdit) (id : OperationId) (node : NodeId)
    (draft : PlanDraft) (receipt : EditReceipt) :
    ∃ result, command.candidate id node draft receipt = some result := by
  cases command with
  | add request =>
      rw [candidate]
      split <;> exact ⟨_, rfl⟩
  | replace operation request =>
      refine Returns.exists_bind ⟨_, rfl⟩ fun index hindex => ?_
      obtain ⟨previous, hprevious⟩ := operationIndex_bound (Returns.lift_eq_pure.mp hindex)
      rw [hprevious]
      refine Returns.exists_bind ⟨_, rfl⟩ fun previous _ => ?_
      split <;> exact ⟨_, rfl⟩
  | remove operations =>
      refine Returns.exists_bind (Returns.exists_bind (removalImpact_returns draft operations) ?_)
        fun _ _ => ⟨_, rfl⟩
      intro affected _
      split <;> exact ⟨_, rfl⟩
  | moveBefore operation before =>
      refine Returns.exists_bind ⟨_, rfl⟩ fun index hindex => ?_
      obtain ⟨moved, hmoved⟩ := operationIndex_bound (Returns.lift_eq_pure.mp hindex)
      rw [hmoved]
      cases before with
      | none =>
          exact ⟨_, rfl⟩
      | some before =>
          refine Returns.exists_bind ⟨_, rfl⟩ fun _ _ => ?_
          dsimp only
          split
          · exact ⟨_, rfl⟩
          · refine Returns.exists_bind ⟨_, rfl⟩ fun _ _ => ?_
            exact Returns.exists_bind ⟨_, rfl⟩ fun _ _ => ⟨_, rfl⟩
  | setProtection scope => exact ⟨_, rfl⟩
  | clear => exact ⟨_, rfl⟩

namespace PlanSession

variable {keys : ContractKeys}

theorem checkRevision_guards (expected : DraftRevision) (session : PlanSession) :
    Guards (checkRevision expected) session fun revision =>
      revision.get = session.revision.get + 1 := by
  refine Atomic.bind_get (Guards.bind Guards.of_reject fun _ _ => ?_)
  cases hnext : session.revision.next with
  | none => exact .of_throw _
  | some revision => exact .of_pure (DraftRevision.get_next hnext)

/-- A candidate that does not build is refused before anything changes. -/
theorem buildCandidate_guards (candidate : PlanDraft) (session : PlanSession) :
    Guards (buildCandidate keys candidate) session fun preview =>
      PreviewState.retain EditError.internalBuild (buildPreview keys session.baseline candidate) =
        pure preview :=
  Atomic.bind_get (SessionM.compute_guards
    (PreviewState.retain_returns (buildPreview_returns keys session.baseline candidate)))

/-- Everything a successful edit does. -/
theorem edit_spec (expected : DraftRevision) (command : PlanEdit) (id : OperationId)
    (node : NodeId) (session : PlanSession) :
    Atomic (edit keys expected command id node) session fun _ next =>
      ∃ revision candidate preview, revision.get = session.revision.get + 1 ∧
        PreviewState.retain EditError.internalBuild (buildPreview keys session.baseline candidate) =
          pure preview ∧
        next = { session with
          undo := pushHistory session.undo session.draft session.historyLimit
          draft := candidate
          redo := []
          preview
          revision } := by
  refine Atomic.bind_guard (checkRevision_guards expected session) fun revision hr => ?_
  refine Atomic.bind_get ?_
  refine Atomic.bind_guard (SessionM.compute_guards (command.candidate_returns id node _ _)) ?_
  rintro ⟨candidate, receipt⟩ -
  refine Atomic.bind_guard (buildCandidate_guards candidate _) fun preview hpreview => ?_
  exact (Completes.bind Completes.of_modify fun _ next hnext =>
    .of_pure ⟨revision, candidate, preview, hr, hpreview, hnext⟩).atomic

/-- What `undo_` and `redo_` share: the last draft of a stack, published again. -/
def restore (keys : ContractKeys) (expected : DraftRevision) (stack : PlanSession → List PlanDraft)
    (missing : EditError)
    (publish : PlanDraft → PreviewState → DraftRevision → PlanSession → PlanSession) :
    SessionM EditError DraftRevision := do
  let revision ← checkRevision expected
  let session ← get
  match (stack session).getLast? with
  | none => throw missing
  | some candidate =>
      let preview ← buildCandidate keys candidate
      modify (publish candidate preview revision)
      return revision

theorem undo_eq (expected : DraftRevision) : undo_ keys expected =
    restore keys expected (·.undo) .noUndo fun candidate preview revision session =>
      { session with
        undo := session.undo.dropLast
        redo := pushHistory session.redo session.draft session.historyLimit
        draft := candidate
        preview
        revision } := rfl

theorem redo_eq (expected : DraftRevision) : redo_ keys expected =
    restore keys expected (·.redo) .noRedo fun candidate preview revision session =>
      { session with
        redo := session.redo.dropLast
        undo := pushHistory session.undo session.draft session.historyLimit
        draft := candidate
        preview
        revision } := rfl

/-- What both undo and redo publish. -/
theorem restore_spec (expected : DraftRevision) (stack : PlanSession → List PlanDraft)
    (missing : EditError)
    (publish : PlanDraft → PreviewState → DraftRevision → PlanSession → PlanSession)
    (session : PlanSession) :
    Atomic (restore keys expected stack missing publish) session fun _ next =>
      ∃ revision candidate preview, revision.get = session.revision.get + 1 ∧
        (stack session).getLast? = some candidate ∧
        PreviewState.retain EditError.internalBuild (buildPreview keys session.baseline candidate) =
          pure preview ∧
        next = publish candidate preview revision session := by
  refine Atomic.bind_guard (checkRevision_guards expected session) fun revision hr => ?_
  refine Atomic.bind_get ?_
  cases hlast : (stack session).getLast? with
  | none => exact Atomic.of_throw _
  | some candidate =>
      refine Atomic.bind_guard (buildCandidate_guards candidate _) fun preview hpreview => ?_
      exact (Completes.bind Completes.of_modify fun _ next hnext =>
        .of_pure ⟨revision, candidate, preview, hr, rfl, hpreview, hnext⟩).atomic

/-- Everything a successful undo does. -/
theorem undo_spec (expected : DraftRevision) (session : PlanSession) :
    Atomic (undo_ keys expected) session fun _ next =>
      ∃ revision candidate preview, revision.get = session.revision.get + 1 ∧
        session.undo.getLast? = some candidate ∧
        PreviewState.retain EditError.internalBuild (buildPreview keys session.baseline candidate) =
          pure preview ∧
        next = { session with
          undo := session.undo.dropLast
          redo := pushHistory session.redo session.draft session.historyLimit
          draft := candidate
          preview
          revision } := by
  rw [undo_eq]
  exact restore_spec expected _ _ _ session

/-- Everything a successful redo does. -/
theorem redo_spec (expected : DraftRevision) (session : PlanSession) :
    Atomic (redo_ keys expected) session fun _ next =>
      ∃ revision candidate preview, revision.get = session.revision.get + 1 ∧
        session.redo.getLast? = some candidate ∧
        PreviewState.retain EditError.internalBuild (buildPreview keys session.baseline candidate) =
          pure preview ∧
        next = { session with
          redo := session.redo.dropLast
          undo := pushHistory session.undo session.draft session.historyLimit
          draft := candidate
          preview
          revision } := by
  rw [redo_eq]
  exact restore_spec expected _ _ _ session

/-- **Editing publishes the command's draft, or changes nothing.** -/
theorem edit_atomic (expected : DraftRevision) (command : PlanEdit) (id : OperationId)
    (node : NodeId) (session : PlanSession) :
    Atomic (edit keys expected command id node) session fun _ next =>
      session.Publishes keys next := by
  refine (edit_spec expected command id node session).mono ?_
  rintro receipt next ⟨revision, candidate, preview, hr, hpreview, rfl⟩
  exact ⟨rfl, hr, fun h => ⟨PreviewState.retain_eq_pure hpreview, pushHistory_length _ h.undo,
    Nat.zero_le _⟩⟩

/-- Undoing publishes the newest retained draft, or changes nothing. -/
theorem undo_atomic (expected : DraftRevision) (session : PlanSession) :
    Atomic (undo_ keys expected) session fun _ next => session.Publishes keys next := by
  refine (undo_spec expected session).mono ?_
  rintro _ next ⟨revision, candidate, preview, hr, -, hpreview, rfl⟩
  refine ⟨rfl, hr, fun h => ⟨PreviewState.retain_eq_pure hpreview, ?_,
    pushHistory_length _ h.redo⟩⟩
  exact (List.length_dropLast ▸ Nat.sub_le _ _ : session.undo.dropLast.length ≤ _).trans h.undo

/-- Redoing publishes the last undone draft, or changes nothing. -/
theorem redo_atomic (expected : DraftRevision) (session : PlanSession) :
    Atomic (redo_ keys expected) session fun _ next => session.Publishes keys next := by
  refine (redo_spec expected session).mono ?_
  rintro _ next ⟨revision, candidate, preview, hr, -, hpreview, rfl⟩
  refine ⟨rfl, hr, fun h => ⟨PreviewState.retain_eq_pure hpreview, pushHistory_length _ h.undo,
    ?_⟩⟩
  exact (List.length_dropLast ▸ Nat.sub_le _ _ : session.redo.dropLast.length ≤ _).trans h.redo

/-- The preview of a review is what its own baseline and draft give. -/
theorem prepareRebase_retains {expected : DraftRevision} {baseline : HistoricalBaseline}
    {session : PlanSession} {review : RebasePreview}
    (h : session.prepareRebase keys expected baseline = pure review) :
    PreviewState.retain RebaseError.inputs (buildPreview keys review.baseline review.draft) =
      pure review.preview := by
  unfold prepareRebase at h
  by_cases hexpected : expected ≠ session.revision
  · rw [if_pos hexpected] at h
    cases h
  · rw [if_neg hexpected] at h
    obtain ⟨⟨draft, correlations⟩, -, h⟩ := Returns.bind_eq_pure.mp h
    obtain ⟨preview, hpreview, h⟩ := Returns.bind_eq_pure.mp h
    cases Returns.pure_inj.mp h
    exact hpreview

/-- Accepting publishes the reviewed baseline with its own preview, or changes nothing. -/
theorem acceptRebase_atomic {expected : DraftRevision} {review : RebasePreview}
    (hreview : ∃ result, buildPreview keys review.baseline review.draft = some result ∧
      review.preview = .from result) (session : PlanSession) :
    Atomic (acceptRebase expected review) session fun _ next => session.Publishes keys next := by
  refine Atomic.bind_get ?_
  refine Atomic.bind_guard Guards.of_reject fun _ _ => ?_
  refine Atomic.bind_guard Guards.of_reject fun _ _ => ?_
  refine Atomic.bind_guard Guards.of_reject fun _ _ => ?_
  cases hnext : session.revision.next with
  | none => exact Atomic.of_throw _
  | some revision =>
      refine (Completes.bind (Completes.of_set (Q := fun _ next => next = _) rfl)
        fun _ next hset => .of_pure ?_).atomic
      subst hset
      exact ⟨rfl, DraftRevision.get_next hnext,
        fun _ => ⟨hreview, Nat.zero_le _, Nat.zero_le _⟩⟩

theorem consistent_new {id : Uuid} {baseline : HistoricalBaseline} {session : PlanSession}
    (h : PlanSession.new keys id baseline = pure session) : session.Consistent keys := by
  obtain ⟨preview, hbuild, h⟩ := Returns.bind_eq_pure.mp h
  cases Returns.pure_inj.mp h
  exact ⟨⟨_, hbuild, rfl⟩, Nat.zero_le _, Nat.zero_le _⟩

theorem consistent_fromDocument {text : EditingText} {document : DraftDocument}
    {session : PlanSession} (h : fromDocument text document = pure session) :
    session.Consistent text.keys := by
  obtain ⟨_, -, h⟩ := Returns.bind_eq_pure.mp h
  obtain ⟨preview, hpreview, h⟩ := Returns.bind_eq_pure.mp h
  cases Returns.pure_inj.mp h
  exact ⟨PreviewState.retain_eq_pure hpreview, Nat.zero_le _, Nat.zero_le _⟩

theorem Consistent.setHistoryLimit {session : PlanSession} (h : session.Consistent keys)
    (limit : Nat) : (session.setHistoryLimit limit).Consistent keys := by
  refine ⟨h.preview, ?_, ?_⟩
  · change (session.undo.drop _).length ≤ limit
    rw [List.length_drop]
    omega
  · change (session.redo.drop _).length ≤ limit
    rw [List.length_drop]
    omega

end PlanSession

/-! ### Runs -/

/-- A call that edits a session, with what the caller passes and what the identity source draws. -/
inductive SessionCall where
  | edit (expected : DraftRevision) (command : PlanEdit) (id : OperationId) (node : NodeId)
  | undo (expected : DraftRevision)
  | redo (expected : DraftRevision)
  | acceptRebase (expected : DraftRevision) (review : RebasePreview)

namespace SessionCall

/-- The method that a call runs. -/
def run (keys : ContractKeys) : SessionCall → SessionM (EditError ⊕ RebaseError) PUnit
  | .edit expected command id node =>
      Functor.discard (ExceptT.adapt .inl (PlanSession.edit keys expected command id node))
  | .undo expected => Functor.discard (ExceptT.adapt .inl (PlanSession.undo_ keys expected))
  | .redo expected => Functor.discard (ExceptT.adapt .inl (PlanSession.redo_ keys expected))
  | .acceptRebase expected review =>
      Functor.discard (ExceptT.adapt .inr (PlanSession.acceptRebase expected review))

/-- A review that is accepted was prepared on some session: it cannot be built otherwise. -/
def Prepared (keys : ContractKeys) : SessionCall → Prop
  | .acceptRebase _ review => ∃ (session : PlanSession) (expected : DraftRevision)
      (baseline : HistoricalBaseline), session.prepareRebase keys expected baseline = pure review
  | _ => True

/-- A call publishes all of its effect or nothing. -/
theorem run_atomic {keys : ContractKeys} {call : SessionCall} (hcall : call.Prepared keys)
    (session : PlanSession) :
    Atomic (call.run keys) session fun _ next => session.Publishes keys next := by
  cases call with
  | edit expected command id node =>
      exact (PlanSession.edit_atomic expected command id node session).adapt.discard.mono
        fun _ _ ⟨_, h⟩ => h
  | undo expected =>
      exact (PlanSession.undo_atomic expected session).adapt.discard.mono fun _ _ ⟨_, h⟩ => h
  | redo expected =>
      exact (PlanSession.redo_atomic expected session).adapt.discard.mono fun _ _ ⟨_, h⟩ => h
  | acceptRebase expected review =>
      obtain ⟨source, expected', baseline, hprepare⟩ := hcall
      have hreview := PreviewState.retain_eq_pure (PlanSession.prepareRebase_retains hprepare)
      exact (PlanSession.acceptRebase_atomic hreview session).adapt.discard.mono
        fun _ _ ⟨_, h⟩ => h

end SessionCall

/-- The sessions that a program can hold. -/
inductive PlanSession.Reachable (text : EditingText) : PlanSession → Prop
  | new {id : Uuid} {baseline : HistoricalBaseline} {session : PlanSession}
      (h : PlanSession.new text.keys id baseline = pure session) : Reachable text session
  | fromDocument {document : DraftDocument} {session : PlanSession}
      (h : PlanSession.fromDocument text document = pure session) : Reachable text session
  | call {session next : PlanSession} (hreach : Reachable text session) {call : SessionCall}
      (hcall : call.Prepared text.keys) {result : Except (EditError ⊕ RebaseError) PUnit}
      (h : Stateful.call (call.run text.keys) session = some (result, next)) : Reachable text next
  | setHistoryLimit {session : PlanSession} (hreach : Reachable text session) (limit : Nat) :
      Reachable text (session.setHistoryLimit limit)

/-- **Every reachable session is consistent.** -/
theorem PlanSession.Reachable.consistent {text : EditingText} {session : PlanSession}
    (h : Reachable text session) : session.Consistent text.keys := by
  induction h with
  | new h => exact consistent_new h
  | fromDocument h => exact consistent_fromDocument h
  | @call session next _ call hcall result h ih =>
      have hatomic := SessionCall.run_atomic hcall session
      cases result with
      | error error => exact hatomic.error h ▸ ih
      | ok _ => exact (hatomic.ok h).consistent ih
  | setHistoryLimit _ limit ih => exact ih.setHistoryLimit limit

/-- **Editing session invariant.**  In every reachable session the published preview is the result
of building the current draft against the current baseline and both histories are within the
limit.  Every call returns: one that succeeds advances the revision by one, and one that fails
leaves the whole session as it was. -/
theorem editing_session_invariant {text : EditingText} {session : PlanSession}
    (h : session.Reachable text) :
    (∃ result, buildPreview text.keys session.baseline session.draft = some result ∧
      session.preview = .from result) ∧
    session.undo.length ≤ session.historyLimit ∧ session.redo.length ≤ session.historyLimit ∧
    ∀ call : SessionCall, call.Prepared text.keys → ∃ result next,
      Stateful.call (call.run text.keys) session = some (result, next) ∧
        match result with
        | .ok _ => next.revision.get = session.revision.get + 1
        | .error _ => next = session := by
  refine ⟨h.consistent.preview, h.consistent.undo, h.consistent.redo, fun call hcall => ?_⟩
  rcases SessionCall.run_atomic hcall session with ⟨error, herror⟩ | ⟨_, next, hok, hpublishes⟩
  · exact ⟨_, _, herror, rfl⟩
  · exact ⟨_, _, hok, hpublishes.revision⟩

/-! ### A session of several calls -/

/-- The calls, one after the other, with their results. -/
def SessionCall.runAll (keys : ContractKeys) : List SessionCall → PlanSession →
    Option (List (Except (EditError ⊕ RebaseError) PUnit) × PlanSession)
  | [], session => some ([], session)
  | call :: calls, session => do
      let (result, next) ← Stateful.call (call.run keys) session
      let (results, last) ← runAll keys calls next
      return (result :: results, last)

/-- Calls lead from reachable sessions to reachable ones, whatever they return. -/
theorem PlanSession.Reachable.runAll {text : EditingText} {calls : List SessionCall}
    {session last : PlanSession} {results : List (Except (EditError ⊕ RebaseError) PUnit)}
    (h : session.Reachable text) (hcalls : ∀ call ∈ calls, call.Prepared text.keys)
    (hrun : SessionCall.runAll text.keys calls session = some (results, last)) :
    last.Reachable text := by
  induction calls generalizing session results with
  | nil =>
      obtain ⟨-, rfl⟩ := Prod.mk.inj (Option.some.inj hrun)
      exact h
  | cons call calls ih =>
      obtain ⟨⟨result, next⟩, hcall, hrun⟩ := Option.bind_eq_some_iff.mp hrun
      obtain ⟨⟨rest, final⟩, hrest, hrun⟩ := Option.bind_eq_some_iff.mp hrun
      obtain ⟨-, rfl⟩ := Prod.mk.inj (Option.some.inj hrun)
      obtain ⟨hprepared, hcalls⟩ := List.forall_mem_cons.mp hcalls
      exact ih (.call h hprepared hcall) hcalls hrest

/-- Nothing was observed. -/
def sampleBaseline : HistoricalBaseline := ⟨1#128, sampleState, []⟩

/-- A text layer in which every edit takes a kibibyte. -/
def sampleEditing : EditingText := ⟨sampleKeys, fun _ => .ok 1024⟩

/-- A session just opened on the sample baseline. -/
def sampleOpened : Returns DraftBuildError PlanSession :=
  PlanSession.new sampleKeys 7#128 sampleBaseline

/-- A filesystem was observed. -/
def homeFilesystem : NodeId := ⟨9#128⟩

/-- A baseline with one ext4 filesystem of 4096 bytes. -/
def homeBaseline : HistoricalBaseline where
  id := 1#128
  snapshot :=
    ⟨NodeGraph.empty.setNode homeFilesystem ⟨⟨.filesystem .ext4 none, some 4096⟩, {}⟩, [], {}, []⟩
  capacityEvidence := []

/-- Mount the filesystem at `/data` and a `tmpfs` at `/srv`, undo the second, ask again for the
first revision, and redo. -/
def sampleEdits : List SessionCall :=
  [.edit ⟨0⟩ (.add (.mount ⟨.filesystem homeFilesystem, sampleTarget, [], .host⟩)) ⟨1#128⟩ ⟨2#128⟩,
    .edit ⟨1⟩ (.add (.mount ⟨.tmpfs, ⟨[.rootDir, .normal "srv"]⟩, [], .host⟩)) ⟨3#128⟩ ⟨4#128⟩,
    .undo ⟨2⟩, .undo ⟨0⟩, .redo ⟨3⟩]

/-- All calls but the stale one succeed, and the preview is that of the two requests. -/
theorem sample_edits_published : ∃ session results last,
    PlanSession.new sampleKeys 7#128 homeBaseline = pure session ∧
    SessionCall.runAll sampleKeys sampleEdits session = some (results, last) ∧
    results.map Except.isOk = [true, true, true, false, true] ∧
    last.revision.get = 4 ∧ last.draft.operations.length = 2 ∧
    (∃ result, buildPreview sampleKeys last.baseline last.draft = some result ∧
      last.preview = .from result) ∧ last.undo.length ≤ last.historyLimit := by
  have hrun : ((PlanSession.new sampleKeys 7#128 homeBaseline).toOption.bind fun session =>
      (SessionCall.runAll sampleKeys sampleEdits session).map fun run =>
        (run.1.map Except.isOk, run.2.revision.get, run.2.draft.operations.length)) =
      some ([true, true, true, false, true], 4, 2) := by decide +kernel
  obtain ⟨session, hopened, hrun⟩ := Option.bind_eq_some_iff.mp hrun
  have hopened := Returns.toOption_eq_some.mp hopened
  obtain ⟨⟨results, last⟩, hlast, hrun⟩ := Option.map_eq_some_iff.mp hrun
  simp only [Prod.mk.injEq] at hrun
  obtain ⟨hresults, hrevision, hlength⟩ := hrun
  have hreach : session.Reachable sampleEditing := .new hopened
  have hreach : last.Reachable sampleEditing := by
    refine hreach.runAll (fun call hcall => ?_) hlast
    simp only [sampleEdits, List.mem_cons, List.not_mem_nil, or_false] at hcall
    rcases hcall with rfl | rfl | rfl | rfl | rfl <;> trivial
  obtain ⟨hpreview, hundo, -⟩ := editing_session_invariant hreach
  exact ⟨session, results, last, hopened, hlast, hresults, hrevision, hlength, hpreview, hundo⟩

end DisksGraph
