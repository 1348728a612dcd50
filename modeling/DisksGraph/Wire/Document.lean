import DisksGraph.Editing.History
import DisksGraph.Wire.Attempt
import DisksGraph.Wire.State

/-!
# Wire — Document

Saved drafts (`document.rs`): `to_json`, `from_json` and the versions of the request catalogue.

* A `Record` is a document as it is held; `DraftDocument.validate` reads its length off the text.
* `fromJson_toJson`, `toJson_of_fromJson`: what is saved is read back, what is read can be saved.
* `draft_documents_round_trip`: with these, a saved document opens as a session that can be saved
  again, and each version admits the requests of its catalogue.
-/

namespace DisksGraph

open Support (Codec Fields JsonValue Returns Variant Walk)

/-! ### Drafts -/

/-- A protected mount, with `deny_unknown_fields`. -/
def ProtectedMount.codec : Codec ProtectedMount :=
  .record true (Fields.of ProtectedMount.mk
    |>.field "target" PathBuf.codec
    |>.field "context" MountContext.codec) (by decide)

/-- The protected scope, with `deny_unknown_fields`. -/
def ProtectedScope.codec : Codec ProtectedScope :=
  .record true (Fields.of ProtectedScope.mk
    |>.field "nodes" NodeId.codec.list
    |>.field "runtime_mounts" ProtectedMount.codec.list
    |>.field "persistent_mounts" ProtectedMount.codec.list) (by decide)

/-- An intent: its name with its arguments. -/
def OperationIntent.codec : Codec OperationIntent :=
  .choice [
    .record false "reformat" (Fields.of OperationIntent.reformat
      |>.field "target" NodeId.codec
      |>.field "filesystem" FilesystemKind.codec) (by decide),
    .record false "replace_member" (Fields.of OperationIntent.replaceMember
      |>.field "group" NodeId.codec
      |>.field "old" NodeId.codec
      |>.field "new" NodeId.codec) (by decide),
    .record false "convert_btrfs_profiles" (Fields.of OperationIntent.convertBtrfsProfiles
      |>.field "filesystem" NodeId.codec
      |>.field "target" BtrfsAllocation.codec) (by decide),
    .record false "check" (Fields.of OperationIntent.check
      |>.field "target" NodeId.codec
      |>.field "force" .bool) (by decide),
    .record false "repair" (Fields.of OperationIntent.repair
      |>.field "target" NodeId.codec
      |>.field "force" .bool) (by decide),
    .record false "set_activation" (Fields.of OperationIntent.setActivation
      |>.field "target" NodeId.codec
      |>.field "active" .bool) (by decide)] (by decide)

/-- A request: its name in snake case, with `deny_unknown_fields` in each variant. -/
def PlanRequest.codec : Codec PlanRequest :=
  .choice [
    .record true "create_partition" (Fields.of PlanRequest.createPartition
      |>.field "table" NodeId.codec
      |>.field "number" nonZeroU32
      |>.field "offset" Bytes.codec
      |>.field "size" Bytes.codec
      |>.field "role" UsageRole.codec.option
      |>.field "attributes" PartitionAttributes.codec) (by decide),
    .record true "format_luks" (Fields.of PlanRequest.formatLuks
      |>.field "backing" NodeId.codec
      |>.field "version" LuksVersion.codec
      |>.field "credential" CredentialRef.codec) (by decide),
    .record true "open_luks" (Fields.of PlanRequest.openLuks
      |>.field "container" NodeId.codec
      |>.field "mapping_name" .string
      |>.field "credential" CredentialRef.codec
      |>.field "read_only" .bool) (by decide),
    .record true "create_lv" (Fields.of PlanRequest.createLv
      |>.field "vg" NodeId.codec
      |>.field "name" .string
      |>.field "size" Bytes.codec
      |>.field "layout" LvmLvKind.codec
      |>.field "activate" .bool) (by decide),
    .record true "resize_lv" (Fields.of PlanRequest.resizeLv
      |>.field "lv" NodeId.codec
      |>.field "new_size" Bytes.codec) (by decide),
    .record true "resize_filesystem" (Fields.of PlanRequest.resizeFilesystem
      |>.field "filesystem" NodeId.codec
      |>.field "new_size" Bytes.codec) (by decide),
    .record true "delete_partition" (Fields.of PlanRequest.deletePartition
      |>.field "partition" NodeId.codec) (by decide),
    .record true "remove_lv" (Fields.of PlanRequest.removeLv
      |>.field "lv" NodeId.codec) (by decide),
    .record true "close_luks" (Fields.of PlanRequest.closeLuks
      |>.field "mapping" NodeId.codec) (by decide),
    .record true "create_filesystem" (Fields.of PlanRequest.createFilesystem
      |>.field "backing" NodeId.codec
      |>.field "filesystem" FilesystemKind.codec
      |>.field "label" Codec.string.option) (by decide),
    .holding "mount" .mount MountEntry.codec,
    .holding "persist_mount" .persistMount MountEntry.codec,
    .record true "unmount" (Fields.of PlanRequest.unmount
      |>.field "target" PathBuf.codec
      |>.field "context" MountContext.codec) (by decide),
    .record true "remove_persistent_mount" (Fields.of PlanRequest.removePersistentMount
      |>.field "target" PathBuf.codec
      |>.field "context" MountContext.codec) (by decide),
    .record true "set_filesystem_label" (Fields.of PlanRequest.setFilesystemLabel
      |>.field "filesystem" NodeId.codec
      |>.field "label" Codec.string.option) (by decide),
    .holding "maintenance" .maintenance OperationIntent.codec] (by decide)

/-- An operation of a draft, with `deny_unknown_fields`. -/
def PlanOperation.codec : Codec PlanOperation :=
  .record true (Fields.of PlanOperation.mk
    |>.field "id" OperationId.codec
    |>.field "request" PlanRequest.codec
    |>.field "created_node" NodeId.codec.option) (by decide)

/-- A draft, with `deny_unknown_fields`. -/
def PlanDraft.codec : Codec PlanDraft :=
  .record true (Fields.of PlanDraft.mk
    |>.field "operations" PlanOperation.codec.list
    |>.field "protected_scope" ProtectedScope.codec) (by decide)

/-- A newtype: the `u64` inside. -/
def DraftRevision.codec : Codec DraftRevision := u64.map DraftRevision.mk

/-! ### Catalogues -/

/-- The kinds of request that a draft can hold. -/
inductive RequestKind where
  | createPartition
  | formatLuks
  | openLuks
  | createLv
  | resizeLv
  | resizeFilesystem
  | deletePartition
  | removeLv
  | closeLuks
  | createFilesystem
  | mount
  | persistMount
  | unmount
  | removePersistentMount
  | setFilesystemLabel
  | maintenance
deriving DecidableEq

/-- The kind of a request. -/
def PlanRequest.kind : PlanRequest → RequestKind
  | .createPartition .. => .createPartition
  | .formatLuks .. => .formatLuks
  | .openLuks .. => .openLuks
  | .createLv .. => .createLv
  | .resizeLv .. => .resizeLv
  | .resizeFilesystem .. => .resizeFilesystem
  | .deletePartition _ => .deletePartition
  | .removeLv _ => .removeLv
  | .closeLuks _ => .closeLuks
  | .createFilesystem .. => .createFilesystem
  | .mount _ => .mount
  | .persistMount _ => .persistMount
  | .unmount .. => .unmount
  | .removePersistentMount .. => .removePersistentMount
  | .setFilesystemLabel .. => .setFilesystemLabel
  | .maintenance _ => .maintenance

namespace RequestKind

/-- The kinds that came with a version: partitions with the second, LUKS with the third, resizing
with the fourth and explicit removal with the fifth. -/
def addedIn : Nat → List RequestKind
  | 1 => [.createLv, .createFilesystem, .mount, .persistMount, .unmount, .removePersistentMount,
      .setFilesystemLabel, .maintenance]
  | 2 => [.createPartition]
  | 3 => [.formatLuks, .openLuks]
  | 4 => [.resizeLv, .resizeFilesystem]
  | 5 => [.deletePartition, .removeLv, .closeLuks]
  | _ => []

/-- The catalogue of a version has the kind: a version keeps what the versions before it had. -/
def ExistsIn (version : Nat) (kind : RequestKind) : Prop :=
  ∃ earlier ≤ version, kind ∈ addedIn earlier

/-- Every kind came with one version. -/
theorem exists_unique_addedIn (kind : RequestKind) : ∃! version, kind ∈ addedIn version := by
  have hadded : ∀ version, kind ∈ addedIn version →
      version ∈ [1, 2, 3, 4, 5] := by
    intro version hmem
    unfold addedIn at hmem
    split at hmem <;> simp_all
  have hall : ∃ version ∈ [1, 2, 3, 4, 5], kind ∈ addedIn version ∧
      ∀ other ∈ [1, 2, 3, 4, 5], kind ∈ addedIn other → other = version := by
    cases kind <;> decide
  obtain ⟨version, -, hmem, hsole⟩ := hall
  exact ⟨version, hmem, fun other hother => hsole other (hadded other hother) hother⟩

end RequestKind

/-- **The table of the code is the catalogue**: a version is recent enough for a request exactly
when its kind exists in that version. -/
theorem PlanRequest.requiredVersion_le_iff {request : PlanRequest} {version : Nat} :
    request.requiredVersion ≤ version ↔ RequestKind.ExistsIn version request.kind := by
  have hadded : request.kind ∈ RequestKind.addedIn request.requiredVersion := by
    cases request <;> simp [PlanRequest.kind, PlanRequest.requiredVersion, RequestKind.addedIn]
  constructor
  · intro hle
    exact ⟨request.requiredVersion, hle, hadded⟩
  · rintro ⟨earlier, hle, hmem⟩
    rwa [request.kind.exists_unique_addedIn.unique hadded hmem]

/-! ### Documents -/

namespace DraftDocument

/-- The saved document, with `deny_unknown_fields`. -/
def codec : Codec DraftDocument :=
  .record true (Fields.of DraftDocument.mk
    |>.field "schema_version" u32
    |>.field "session_id" Uuid.codec
    |>.field "revision" DraftRevision.codec
    |>.field "baseline" HistoricalBaseline.codec
    |>.field "draft" PlanDraft.codec) (by decide)

/-- A document as it is held. -/
abbrev Record : Type := DraftDocument.codec.Stored

/-- The version that a JSON value declares. -/
def versionOf (value : JsonValue) : Option Nat := (value.get "schema_version").bind JsonValue.asU64

/-- The value at `/draft/operations`, when it is an array. -/
def operationsOf (value : JsonValue) : Option (List JsonValue) :=
  ((value.get "draft").bind (JsonValue.get "operations")).bind JsonValue.asArray

namespace Record

variable (library : JsonLibrary) (text : EditingText)

/-- The length of the JSON text is that of the record. -/
def textOf (record : Record) : EditingText :=
  { text with
    jsonLength := fun _ =>
      match codec.encode record with
      | some j => .ok j.print.utf8ByteSize
      | none => .error library.unwritable }

/-- Checks public/deserialized data again before it can become a live editing session. -/
def validate (record : Record) : Returns DraftDocumentError Unit :=
  (codec.value record).validate (record.textOf library text)

/-- Saves structurally valid inputs even when their semantic plan is invalid or unsupported. -/
def toJson (record : Record) : Returns DraftDocumentError String := do
  record.validate library text
  match codec.encode record with
  | some j => return j.print
  | none => throw (.json library.unwritable)

/-- Parses bounded JSON with the default recursion limit, then validates identities.  Version checks
precede request decoding; the original JSON is decoded again to reject duplicates. -/
def fromJson (json : String) : Returns DraftDocumentError Record := do
  if MAX_DRAFT_JSON_BYTES < json.utf8ByteSize then throw .tooLarge
  match JsonValue.parse json with
  | none => throw (.json (library.malformed json.toUTF8))
  | some input => do
      if !library.readsValue input then throw (.json (library.malformed json.toUTF8))
      match (versionOf input.canonical).filter fun version =>
          version = 0 ∨ DRAFT_SCHEMA_VERSION < version with
      | some version => throw (.schemaVersion version)
      | none => do
          if (operationsOf input.canonical).any fun operations =>
              MAX_DRAFT_OPERATIONS < operations.length then throw .tooManyOperations
          match codec.decode input with
          | none => throw (.json (library.malformed json.toUTF8))
          | some record => do
              Record.validate library text record
              return record

/-- The same document under another schema version. -/
def withVersion (version : u32.Stored) (record : Record) : Record :=
  ((((((), version), record.1.1.1.2), record.1.1.2), record.1.2), record.2)

/-! ### The text of a document -/

theorem encode_eq_some {record : Record} {j : JsonValue} : codec.encode record = some j ↔
    ∃ version sessionId revision baseline draft, u32.encode record.1.1.1.1.2 = some version ∧
      Uuid.codec.encode record.1.1.1.2 = some sessionId ∧
      DraftRevision.codec.encode record.1.1.2 = some revision ∧
      HistoricalBaseline.codec.encode record.1.2 = some baseline ∧
      PlanDraft.codec.encode record.2 = some draft ∧
      j = .object [("schema_version", version), ("session_id", sessionId), ("revision", revision),
        ("baseline", baseline), ("draft", draft)] := by
  constructor
  · intro h
    obtain ⟨members, hmembers, rfl⟩ := Codec.encode_record.mp h
    obtain ⟨_, draft, hupTo, hdraft, rfl⟩ := Fields.write_field.mp hmembers
    obtain ⟨_, baseline, hthird, hbaseline, rfl⟩ := Fields.write_field.mp hupTo
    obtain ⟨_, revision, hsecond, hrevision, rfl⟩ := Fields.write_field.mp hthird
    obtain ⟨_, sessionId, hfirst, hsession, rfl⟩ := Fields.write_field.mp hsecond
    obtain ⟨_, version, hnone, hversion, rfl⟩ := Fields.write_field.mp hfirst
    obtain rfl := Option.some.inj hnone
    exact ⟨version, sessionId, revision, baseline, draft, hversion, hsession, hrevision, hbaseline,
      hdraft, rfl⟩
  · rintro ⟨version, sessionId, revision, baseline, draft, hversion, hsession, hrevision, hbaseline,
      hdraft, rfl⟩
    exact Codec.encode_record.mpr ⟨_, Fields.write_field.mpr ⟨_, _, Fields.write_field.mpr ⟨_, _,
      Fields.write_field.mpr ⟨_, _, Fields.write_field.mpr ⟨_, _, Fields.write_field.mpr
        ⟨[], _, rfl, hversion, rfl⟩, hsession, rfl⟩, hrevision, rfl⟩, hbaseline, rfl⟩, hdraft, rfl⟩,
      rfl⟩

end Record

/-! ### What `validate` admits -/

/-- What `validate` asks of a document whose text has so many bytes. -/
structure Admitted (keys : ContractKeys) (document : DraftDocument) (length : Nat) : Prop where
  version : 1 ≤ document.schemaVersion ∧ document.schemaVersion ≤ DRAFT_SCHEMA_VERSION
  requests : ∀ operation ∈ document.draft.operations,
    operation.request.requiredVersion ≤ document.schemaVersion
  sessionId : document.sessionId.isNil = false
  operations : document.draft.operations.length ≤ MAX_DRAFT_OPERATIONS
  length : length ≤ MAX_DRAFT_JSON_BYTES
  draft : validateDraft document.baseline document.draft = .ok ()
  baseline : ∃ preview, buildPreview keys document.baseline {} = pure preview

theorem find_request_eq_none {document : DraftDocument} :
    (document.draft.operations.find? fun operation =>
      document.schemaVersion < operation.request.requiredVersion) = none ↔
    ∀ operation ∈ document.draft.operations,
      operation.request.requiredVersion ≤ document.schemaVersion := by
  rw [List.find?_eq_none]
  simp only [decide_eq_true_eq, Nat.not_lt]

theorem validate_eq_pure {text : EditingText} {document : DraftDocument} :
    document.validate text = pure () ↔
      ∃ length, text.jsonLength document = .ok length ∧ document.Admitted text.keys length := by
  rw [validate]
  dsimp only
  rw [Returns.guard_eq_pure]
  constructor
  · rintro ⟨hversion, h⟩
    split at h
    · cases h
    · next hrequests =>
      obtain ⟨hsession, h⟩ := Returns.guard_eq_pure.mp h
      obtain ⟨hoperations, h⟩ := Returns.guard_eq_pure.mp h
      obtain ⟨length, hlength, h⟩ := Returns.bind_eq_pure.mp h
      obtain ⟨hsize, h⟩ := Returns.guard_eq_pure.mp h
      obtain ⟨_, hdraft, h⟩ := Returns.bind_eq_pure.mp h
      obtain ⟨preview, hpreview, -⟩ := Returns.bind_eq_pure.mp h
      exact ⟨length, Returns.lift_eq_pure.mp (Returns.mapError_eq_pure.mp hlength), {
        version := by omega
        requests := find_request_eq_none.mp hrequests
        sessionId := Bool.eq_false_iff.mpr hsession
        operations := Nat.le_of_not_lt hoperations
        length := Nat.le_of_not_lt hsize
        draft := Returns.lift_eq_pure.mp (Returns.mapError_eq_pure.mp hdraft)
        baseline := ⟨preview, Returns.mapError_eq_pure.mp hpreview⟩ }⟩
  · rintro ⟨length, hlength, h⟩
    obtain ⟨preview, hpreview⟩ := h.baseline
    have hversion := h.version
    refine ⟨by omega, ?_⟩
    rw [find_request_eq_none.mpr h.requests]
    refine Returns.guard_eq_pure.mpr ⟨Bool.eq_false_iff.mp h.sessionId, ?_⟩
    refine Returns.guard_eq_pure.mpr ⟨Nat.not_lt.mpr h.operations, ?_⟩
    refine Returns.bind_eq_pure.mpr
      ⟨length, Returns.mapError_eq_pure.mpr (Returns.lift_eq_pure.mpr hlength), ?_⟩
    refine Returns.guard_eq_pure.mpr ⟨Nat.not_lt.mpr h.length, ?_⟩
    refine Returns.bind_eq_pure.mpr
      ⟨⟨⟩, Returns.mapError_eq_pure.mpr (Returns.lift_eq_pure.mpr h.draft), ?_⟩
    exact Returns.bind_eq_pure.mpr ⟨preview, Returns.mapError_eq_pure.mpr hpreview, rfl⟩

/-- A baseline that some draft is built against has a graph that is read. -/
theorem valid_of_buildPreview {keys : ContractKeys} {baseline : HistoricalBaseline}
    {draft : PlanDraft} {preview : PlanPreview}
    (h : buildPreview keys baseline draft = pure preview) :
    baseline.snapshot.graph.validateStructure = .ok () := by
  obtain ⟨_, -, h⟩ := Returns.bind_eq_pure.mp h
  obtain ⟨⟨fragments, intents⟩, -, h⟩ := Returns.bind_eq_pure.mp h
  obtain ⟨_, -, h⟩ := Returns.bind_eq_pure.mp h
  obtain ⟨_, -, h⟩ := Returns.bind_eq_pure.mp h
  obtain ⟨plan, hplan, -⟩ := Returns.bind_eq_pure.mp h
  obtain ⟨_, _, _, hcomposed⟩ := composePlanWithOrdering_eq_pure (Returns.mapError_eq_pure.mp hplan)
  exact hcomposed.valid

/-- Every draft is built against every baseline, with a forecast or with a failure of the user's. -/
theorem builds_all (keys : ContractKeys) (baseline : HistoricalBaseline) (draft : PlanDraft) :
    baseline.Builds keys draft := by
  obtain ⟨result, hbuild⟩ := buildPreview_returns keys baseline draft
  refine ⟨result, hbuild, ?_⟩
  rintro error rfl
  exact Bool.eq_false_iff.mpr fun hinternal => buildPreview_spares.not_bad hbuild (.inl hinternal)

/-! ### Round trips -/

namespace Record

variable {library : JsonLibrary} {text : EditingText} {record : Record} {json : String}

theorem depth_codec : codec.depth < RECURSION_LIMIT := by decide +kernel

theorem validate_eq_pure : record.validate library text = pure () ↔
    ∃ j, codec.encode record = some j ∧
      (codec.value record).Admitted text.keys j.print.utf8ByteSize := by
  rw [validate, DraftDocument.validate_eq_pure, textOf]
  cases codec.encode record with
  | none => simp
  | some j => simp

theorem toJson_eq_pure : record.toJson library text = pure json ↔
    ∃ j, codec.encode record = some j ∧
      (codec.value record).Admitted text.keys j.print.utf8ByteSize ∧ json = j.print := by
  rw [toJson, Returns.bind_eq_pure]
  constructor
  · rintro ⟨⟨⟩, hvalid, h⟩
    obtain ⟨j, hj, hadmitted⟩ := validate_eq_pure.mp hvalid
    rw [hj] at h
    exact ⟨j, hj, hadmitted, (Returns.pure_inj.mp h).symm⟩
  · rintro ⟨j, hj, hadmitted, rfl⟩
    refine ⟨⟨⟩, validate_eq_pure.mpr ⟨j, hj, hadmitted⟩, ?_⟩
    rw [hj]

/-- A record that is saved is one that is read back. -/
theorem accepts_of_admitted {length : Nat}
    (h : (codec.value record).Admitted text.keys length) : codec.Accepts record := by
  obtain ⟨preview, hpreview⟩ := h.baseline
  have hbaseline : HistoricalBaseline.codec.Accepts record.1.2 :=
    HistoricalBaseline.codec_accepts.mpr (valid_of_buildPreview hpreview)
  exact ⟨⟨⟨⟨⟨trivial, u32.accepts_all rfl _⟩, Uuid.codec.accepts_all rfl _⟩,
    DraftRevision.codec.accepts_all rfl _⟩, hbaseline⟩, PlanDraft.codec.accepts_all (by decide) _⟩

/-- What a text that is read says, and of which record. -/
theorem fromJson_eq_pure : fromJson library text json = pure record ↔
    json.utf8ByteSize ≤ MAX_DRAFT_JSON_BYTES ∧ ∃ input, JsonValue.parse json = some input ∧
      library.readsValue input = true ∧
      (∀ version ∈ versionOf input.canonical, 1 ≤ version ∧ version ≤ DRAFT_SCHEMA_VERSION) ∧
      (∀ operations ∈ operationsOf input.canonical, operations.length ≤ MAX_DRAFT_OPERATIONS) ∧
      codec.decode input = some record ∧ record.validate library text = pure () := by
  have hversions : ∀ {found : Option Nat},
      (found.filter fun version => version = 0 ∨ DRAFT_SCHEMA_VERSION < version) = none ↔
        ∀ version ∈ found, 1 ≤ version ∧ version ≤ DRAFT_SCHEMA_VERSION := by
    intro found
    rw [Option.filter_eq_none_iff]
    refine forall_congr' fun version => imp_congr_right fun _ => ?_
    rw [decide_eq_true_eq]
    omega
  have hcounts : ∀ {found : Option (List JsonValue)},
      ¬(found.any fun operations => MAX_DRAFT_OPERATIONS < operations.length) = true ↔
        ∀ operations ∈ found, operations.length ≤ MAX_DRAFT_OPERATIONS := by
    intro found
    rw [Bool.not_eq_true, Option.any_eq_false]
    refine forall_congr' fun operations => imp_congr_right fun _ => ?_
    rw [decide_eq_false_iff_not, Nat.not_lt]
  rw [fromJson]
  dsimp only
  rw [Returns.guard_eq_pure, Nat.not_lt]
  constructor
  · rintro ⟨hsize, h⟩
    split at h
    · cases h
    · next input hinput =>
      obtain ⟨hreads, h⟩ := Returns.guard_eq_pure.mp h
      split at h
      · cases h
      · next hversion =>
        obtain ⟨hoperations, h⟩ := Returns.guard_eq_pure.mp h
        split at h
        · cases h
        · next record' hdecode =>
          obtain ⟨⟨⟩, hvalid, h⟩ := Returns.bind_eq_pure.mp h
          obtain rfl := Returns.pure_inj.mp h
          rw [Bool.not_eq_true', Bool.not_eq_false] at hreads
          exact ⟨hsize, input, hinput, hreads, hversions.mp hversion, hcounts.mp hoperations,
            hdecode, hvalid⟩
  · rintro ⟨hsize, input, hinput, hreads, hversion, hoperations, hdecode, hvalid⟩
    refine ⟨hsize, ?_⟩
    rw [hinput]
    refine Returns.guard_eq_pure.mpr ⟨?_, ?_⟩
    · rw [hreads]
      exact Bool.false_ne_true
    · rw [hversions.mpr hversion]
      refine Returns.guard_eq_pure.mpr ⟨hcounts.mpr hoperations, ?_⟩
      rw [hdecode]
      exact Returns.bind_eq_pure.mpr ⟨⟨⟩, hvalid, rfl⟩

/-- The operations of a draft are as many in its text. -/
theorem operations_of_encode {draft : PlanDraft.codec.Stored} {j : JsonValue}
    (h : PlanDraft.codec.encode draft = some j) : ∃ operations scope,
      j = .object [("operations", .array operations), ("protected_scope", scope)] ∧
        operations.length = (PlanDraft.codec.value draft).operations.length := by
  obtain ⟨members, hmembers, rfl⟩ := Codec.encode_record.mp h
  obtain ⟨_, scope, hfirst, -, rfl⟩ := Fields.write_field.mp hmembers
  obtain ⟨_, written, hnone, hoperations, rfl⟩ := Fields.write_field.mp hfirst
  obtain rfl := Option.some.inj hnone
  obtain ⟨operations, hall, rfl⟩ := Option.map_eq_some_iff.mp hoperations
  refine ⟨operations, scope, rfl, ?_⟩
  have hlength := (Support.option_mapM_eq_some.mp hall).length_eq
  rw [← hlength]
  exact (List.length_map _).symm

/-- **A document that is saved is read back.** -/
theorem fromJson_toJson (h : record.toJson library text = pure json) :
    fromJson library text json = pure record := by
  obtain ⟨j, hj, hadmitted, rfl⟩ := toJson_eq_pure.mp h
  have hplain := codec.plain hj
  have hreads : library.readsValue j = true := by
    rw [JsonLibrary.readsValue, hplain.strict, Bool.true_and, decide_eq_true_eq]
    exact hplain.depth_le.trans_lt depth_codec
  have hdecode : codec.decode j = some record :=
    (codec.decode_encode hj).mpr (accepts_of_admitted hadmitted)
  have hvalid : record.validate library text = pure () :=
    validate_eq_pure.mpr ⟨j, hj, hadmitted⟩
  obtain ⟨version, sessionId, revision, baseline, draft, hversion, -, -, -, hdraft, rfl⟩ :=
    encode_eq_some.mp hj
  obtain ⟨operations, scope, rfl, hcount⟩ := operations_of_encode hdraft
  refine fromJson_eq_pure.mpr ⟨hadmitted.length, _, JsonValue.parse_print hplain, hreads, ?_, ?_,
    hdecode, hvalid⟩
  · obtain rfl := Option.some.inj hversion
    rw [versionOf, JsonValue.get_canonical (by simp)]
    intro version hfound
    have hsame : record.1.1.1.1.2.1 = version := by
      simpa [JsonValue.canonical, JsonValue.fold, JsonValue.asU64] using hfound
    exact hsame ▸ hadmitted.version
  · rw [operationsOf, JsonValue.get_canonical (by simp)]
    intro items hfound
    have hsame : operations.map JsonValue.canonical = items := by
      simpa [List.lookup, JsonValue.get_canonical, JsonValue.canonical_array, JsonValue.asArray]
        using hfound
    rw [← hsame, List.length_map, hcount]
    exact hadmitted.operations

/-- **What is read can be saved again.** -/
theorem toJson_of_fromJson (h : fromJson library text json = pure record) :
    ∃ saved, record.toJson library text = pure saved := by
  obtain ⟨-, _, -, -, -, -, -, hvalid⟩ := fromJson_eq_pure.mp h
  obtain ⟨j, hj, hadmitted⟩ := validate_eq_pure.mp hvalid
  exact ⟨j.print, toJson_eq_pure.mpr ⟨j, hj, hadmitted, rfl⟩⟩

/-- A document is accepted: it can be saved. -/
def Accepted (library : JsonLibrary) (text : EditingText) (record : Record) : Prop :=
  ∃ json, record.toJson library text = pure json

theorem accepted_iff_validate :
    record.Accepted library text ↔ record.validate library text = pure () := by
  rw [validate_eq_pure]
  constructor
  · rintro ⟨_, h⟩
    obtain ⟨j, hj, hadmitted, -⟩ := toJson_eq_pure.mp h
    exact ⟨j, hj, hadmitted⟩
  · rintro ⟨j, hj, hadmitted⟩
    exact ⟨j.print, toJson_eq_pure.mpr ⟨j, hj, hadmitted, rfl⟩⟩

/-- It is the same to say that its text is read. -/
theorem accepted_iff_fromJson : record.Accepted library text ↔
    ∃ j, codec.encode record = some j ∧ fromJson library text j.print = pure record := by
  constructor
  · rintro ⟨json, h⟩
    obtain ⟨j, hj, -, rfl⟩ := toJson_eq_pure.mp h
    exact ⟨j, hj, fromJson_toJson h⟩
  · rintro ⟨_, -, h⟩
    exact toJson_of_fromJson h

/-- It is the same to say that it is opened: as a session of its identity, revision, baseline and
draft, with the forecast that is built for them. -/
theorem accepted_iff_fromDocument : record.Accepted library text ↔
    ∃ session, PlanSession.fromDocument (record.textOf library text) (codec.value record) =
      pure session := by
  rw [accepted_iff_validate]
  constructor
  · intro hvalid
    obtain ⟨preview, hpreview⟩ := (builds_iff DraftDocumentError.inputs).mp
      (builds_all text.keys (codec.value record).baseline (codec.value record).draft)
    exact ⟨_, Returns.bind_eq_pure.mpr ⟨⟨⟩, hvalid,
      Returns.bind_eq_pure.mpr ⟨preview, hpreview, rfl⟩⟩⟩
  · rintro ⟨session, h⟩
    obtain ⟨⟨⟩, hvalid, -⟩ := Returns.bind_eq_pure.mp h
    exact hvalid

/-- What a document is opened as. -/
theorem fromDocument_eq_pure {document : DraftDocument} {session : PlanSession}
    (h : PlanSession.fromDocument text document = pure session) :
    session.id = document.sessionId ∧ session.revision = document.revision ∧
      session.baseline = document.baseline ∧ session.draft = document.draft ∧
      ∃ result, buildPreview text.keys document.baseline document.draft = some result ∧
        session.preview = .from result := by
  obtain ⟨_, -, h⟩ := Returns.bind_eq_pure.mp h
  obtain ⟨preview, hpreview, h⟩ := Returns.bind_eq_pure.mp h
  obtain rfl := Returns.pure_inj.mp h
  exact ⟨rfl, rfl, rfl, rfl, PreviewState.retain_eq_pure hpreview⟩

/-! ### Versions -/

/-- The version that is written. -/
def current : u32.Stored := ⟨DRAFT_SCHEMA_VERSION, by decide⟩

/-- The versions that are read have one digit. -/
theorem byteLength_version : ∀ version ≤ DRAFT_SCHEMA_VERSION,
    JsonValue.byteLength (JsonValue.int version).chars = 1 := by decide

/-- The text of a document under another version is as long. -/
theorem encode_withVersion {version other : u32.Stored} {j : JsonValue}
    (hversion : version.1 ≤ DRAFT_SCHEMA_VERSION) (hother : other.1 ≤ DRAFT_SCHEMA_VERSION)
    (h : codec.encode (record.withVersion version) = some j) :
    ∃ j', codec.encode (record.withVersion other) = some j' ∧
      j'.print.utf8ByteSize = j.print.utf8ByteSize := by
  obtain ⟨_, sessionId, revision, baseline, draft, hwritten, hsession, hrevision, hbaseline, hdraft,
    rfl⟩ := encode_eq_some.mp h
  obtain rfl := Option.some.inj hwritten
  refine ⟨_, encode_eq_some.mpr ⟨.int other.1, sessionId, revision, baseline, draft, rfl, hsession,
    hrevision, hbaseline, hdraft, rfl⟩, ?_⟩
  rw [JsonValue.utf8ByteSize_print, JsonValue.utf8ByteSize_print]
  refine JsonValue.byteLength_object_head _ ?_
  rw [byteLength_version _ hother]
  exact (byteLength_version _ hversion).symm

/-- **The catalogue of a version.**  Under another version a document is accepted when it is under
the current one and no request is newer. -/
theorem accepted_withVersion {version : u32.Stored} (hlow : 1 ≤ version.1)
    (hhigh : version.1 ≤ DRAFT_SCHEMA_VERSION) :
    (record.withVersion version).Accepted library text ↔
      (record.withVersion current).Accepted library text ∧
        ∀ operation ∈ (codec.value record).draft.operations,
          operation.request.requiredVersion ≤ version.1 := by
  rw [accepted_iff_validate, accepted_iff_validate, validate_eq_pure, validate_eq_pure]
  constructor
  · rintro ⟨j, hj, h⟩
    obtain ⟨j', hj', hlength⟩ := encode_withVersion hhigh (Nat.le_refl _ : current.1 ≤ _) hj
    refine ⟨⟨j', hj', ?_⟩, h.requests⟩
    rw [hlength]
    exact { h with
      version := (by decide : 1 ≤ current.1 ∧ current.1 ≤ DRAFT_SCHEMA_VERSION)
      requests := fun operation hoperation => (h.requests operation hoperation).trans hhigh }
  · rintro ⟨⟨j, hj, h⟩, hrequests⟩
    obtain ⟨j', hj', hlength⟩ := encode_withVersion (Nat.le_refl _ : current.1 ≤ _) hhigh hj
    refine ⟨j', hj', ?_⟩
    rw [hlength]
    exact { h with
      version := ⟨hlow, hhigh⟩
      requests := hrequests }

end Record

/-- **Draft documents.**  A document that is saved is read back, and it opens as a session of its
identity, revision, baseline and draft with the forecast that is built for them, whose own document
is the same but for the version and can be saved; a document that is read can be saved; and under a
version from 1 to 5 a document is accepted — saved, read or opened — when it is under version 5 and
the catalogue of that version has each of its requests. -/
theorem draft_documents_round_trip (library : JsonLibrary) (text : EditingText) :
    (∀ (record : Record) json, record.toJson library text = pure json →
      Record.fromJson library text json = pure record ∧
      ∃ session, PlanSession.fromDocument (record.textOf library text) (codec.value record) =
          pure session ∧
        session.id = (codec.value record).sessionId ∧
        session.revision = (codec.value record).revision ∧
        session.baseline = (codec.value record).baseline ∧
        session.draft = (codec.value record).draft ∧
        (∃ result, buildPreview text.keys (codec.value record).baseline
          (codec.value record).draft = some result ∧ session.preview = .from result) ∧
        session.draftDocument = codec.value (record.withVersion Record.current) ∧
        ∃ saved, (record.withVersion Record.current).toJson library text = pure saved) ∧
    (∀ json record, Record.fromJson library text json = pure record →
      ∃ saved, record.toJson library text = pure saved) ∧
    (∀ record : Record,
      (record.Accepted library text ↔ ∃ j, codec.encode record = some j ∧
        Record.fromJson library text j.print = pure record) ∧
      (record.Accepted library text ↔ ∃ session,
        PlanSession.fromDocument (record.textOf library text) (codec.value record) =
          pure session)) ∧
    ∀ (record : Record) (version : u32.Stored), 1 ≤ version.1 → version.1 ≤ DRAFT_SCHEMA_VERSION →
      ((record.withVersion version).Accepted library text ↔
        (record.withVersion Record.current).Accepted library text ∧
          ∀ operation ∈ (codec.value record).draft.operations,
            RequestKind.ExistsIn version.1 operation.request.kind) := by
  refine ⟨fun record json h => ?_, fun _ _ => Record.toJson_of_fromJson,
    fun _ => ⟨Record.accepted_iff_fromJson, Record.accepted_iff_fromDocument⟩,
    fun record version hlow hhigh => ?_⟩
  rotate_left
  · rw [Record.accepted_withVersion hlow hhigh]
    simp only [PlanRequest.requiredVersion_le_iff]
  obtain ⟨session, hsession⟩ := Record.accepted_iff_fromDocument.mp ⟨json, h⟩
  obtain ⟨hid, hrevision, hbaseline, hdraft, hpreview⟩ := Record.fromDocument_eq_pure hsession
  refine ⟨Record.fromJson_toJson h, session, hsession, hid, hrevision, hbaseline, hdraft, hpreview,
    ?_, ?_⟩
  · rw [PlanSession.draftDocument, hid, hrevision, hbaseline, hdraft]
    rfl
  · -- The version of the document itself is one of the five.
    obtain ⟨_, -, hadmitted, -⟩ := Record.toJson_eq_pure.mp h
    exact ((Record.accepted_withVersion hadmitted.version.1 hadmitted.version.2).mp ⟨json, h⟩).1

/-- A filesystem was observed; the draft mounts it at `/data` and resizes it, which the fourth
version is the first to have. -/
def resizeDocument : JsonValue :=
  let id := JsonValue.string "00000000-0000-4000-8000-000000000001"
  let filesystem := "00000000-0000-4000-8000-000000000002"
  let system := JsonValue.object [("os_release", .null), ("architecture", .null),
    ("kernel_release", .null), ("tools", .array []), ("kernel_modules", .array [])]
  let node := JsonValue.object [
    ("kind", .object [
      ("kind", .object [("Filesystem", .object [("kind", .string "Ext4"), ("label", .null)])]),
      ("size", .int 4096)]),
    ("size", .object [("observed_in", .null), ("presence", .string "Present"),
      ("identities", .array []), ("block", .null), ("device", .null)])]
  .object [
    ("schema_version", .int 4), ("session_id", id), ("revision", .int 0),
    ("baseline", .object [("id", id),
      ("snapshot", .object [
        ("graph", .object [("nodes", .object [(filesystem, node)]), ("dependencies", .array []),
          ("relations", .array [])]),
        ("mounts", .object [("entries", .array [])]),
        ("environment", .object [("host", system), ("target", .null)]),
        ("diagnostics", .array [])]),
      ("capacity_evidence", .array [])]),
    ("draft", .object [
      ("operations", .array [
        .object [("id", id),
          ("request", .object [("mount", .object [
            ("source", .object [("filesystem", .string filesystem)]),
            ("target", .string "/data"), ("options", .array []), ("context", .string "host")])]),
          ("created_node", .null)],
        .object [("id", .string "00000000-0000-4000-8000-000000000003"),
          ("request", .object [("resize_filesystem", .object [("filesystem", .string filesystem),
            ("new_size", .int 8192)])]),
          ("created_node", .null)]]),
      ("protected_scope", .object [("nodes", .array []), ("runtime_mounts", .array []),
        ("persistent_mounts", .array [])])])]

/-- The record of the draft is saved. -/
theorem toJson_resizeDocument : ∃ (record : Record) (json : String),
    codec.decode resizeDocument = some record ∧
      record.toJson ActiveAttempt.sampleLibrary sampleEditing = pure json ∧
      (codec.value record).draft.operations.map (·.request.kind) = [.mount, .resizeFilesystem] ∧
      record.1.1.1.1.2.1 = 4 := by
  have hall : ((codec.decode resizeDocument).any fun record =>
      (((codec.value record).validate sampleEditing).toOption.isSome &&
        decide ((codec.value record).draft.operations.map (·.request.kind) =
          [.mount, .resizeFilesystem] ∧ record.1.1.1.1.2.1 = 4)) &&
        (codec.encode record).any fun j =>
          decide (j.weight ≤ MAX_DRAFT_JSON_BYTES)) = true := by decide +kernel
  rw [Option.any_eq_true] at hall
  obtain ⟨record, hrecord, hall⟩ := hall
  obtain ⟨hrest, hlength⟩ := Bool.and_eq_true_iff.mp hall
  obtain ⟨hvalid, hkinds⟩ := Bool.and_eq_true_iff.mp hrest
  rw [Option.any_eq_true] at hlength
  obtain ⟨j, hj, hsize⟩ := hlength
  obtain ⟨⟨⟩, hvalid⟩ := Option.isSome_iff_exists.mp hvalid
  obtain ⟨_, -, hadmitted⟩ := validate_eq_pure.mp (Returns.toOption_eq_some.mp hvalid)
  refine ⟨record, j.print, hrecord, Record.toJson_eq_pure.mpr ⟨j, hj, ?_, rfl⟩,
    of_decide_eq_true hkinds⟩
  rw [JsonValue.utf8ByteSize_print]
  exact { hadmitted with
    length := (JsonValue.byteLength_le_weight j).trans (of_decide_eq_true hsize) }

/-- The draft is saved, read back, opened and saved again under the current version; under the third
version it is not accepted. -/
theorem draft_documents_round_trip_resize :
    ∃ (record : Record) (json saved : String) (session : PlanSession),
    record.toJson ActiveAttempt.sampleLibrary sampleEditing = pure json ∧
      Record.fromJson ActiveAttempt.sampleLibrary sampleEditing json = pure record ∧
      PlanSession.fromDocument (record.textOf ActiveAttempt.sampleLibrary sampleEditing)
        (codec.value record) = pure session ∧
      session.draftDocument = codec.value (record.withVersion Record.current) ∧
      (record.withVersion Record.current).toJson ActiveAttempt.sampleLibrary sampleEditing =
        pure saved ∧
      Record.fromJson ActiveAttempt.sampleLibrary sampleEditing saved =
        pure (record.withVersion Record.current) ∧
      (record.withVersion ⟨4, by decide⟩).Accepted ActiveAttempt.sampleLibrary sampleEditing ∧
      ¬(record.withVersion ⟨3, by decide⟩).Accepted ActiveAttempt.sampleLibrary sampleEditing := by
  obtain ⟨record, json, -, hjson, hkinds, -⟩ := toJson_resizeDocument
  obtain ⟨hround, -, -, hversions⟩ :=
    draft_documents_round_trip ActiveAttempt.sampleLibrary sampleEditing
  obtain ⟨hread, session, hsession, -, -, -, -, -, hdocument, saved, hsaved⟩ :=
    hround record json hjson
  refine ⟨record, json, saved, session, hjson, hread, hsession, hdocument, hsaved,
    (hround _ saved hsaved).1, ?_, fun hthird => ?_⟩
  · refine (hversions record ⟨4, by decide⟩ (by decide) (by decide)).mpr ⟨⟨saved, hsaved⟩, ?_⟩
    intro operation hoperation
    have hkind :=
      List.mem_map_of_mem (f := fun other : PlanOperation => other.request.kind) hoperation
    rw [hkinds] at hkind
    rcases List.mem_pair.mp hkind with heq | heq <;> rw [heq]
    · exact ⟨1, by decide, by decide⟩
    · exact ⟨4, by decide, by decide⟩
  · obtain ⟨-, hexist⟩ := (hversions record ⟨3, by decide⟩ (by decide) (by decide)).mp hthird
    have hkind : RequestKind.resizeFilesystem ∈
        (codec.value record).draft.operations.map (·.request.kind) := by simp [hkinds]
    obtain ⟨operation, hoperation, heq⟩ := List.mem_map.mp hkind
    obtain ⟨earlier, hle, hadded⟩ := hexist operation hoperation
    rw [heq] at hadded
    have hsame := RequestKind.resizeFilesystem.exists_unique_addedIn.unique hadded
      (by decide : RequestKind.resizeFilesystem ∈ RequestKind.addedIn 4)
    rw [hsame] at hle
    exact absurd hle (by decide)

end DraftDocument

end DisksGraph
