import DisksGraph.Runtime.Checkpoint
import DisksGraph.Support.JsonRoundTrip
import DisksGraph.Wire.Action

/-!
# Wire — Attempt

The bytes of a checkpoint (`checkpoint.rs`): `to_bytes`, `from_bytes` and what they check.

* A `Record` is an attempt as it is held, with the spelling of its paths; `ActiveAttempt` is what
  `==` compares.
* `Validated`: what `validate` establishes (`validated_of_validate`).
* `record_round_trip`: records are read back, what is read is valid and can be written within the
  limit, and the bytes of one record denote one JSON value.
-/

namespace DisksGraph

open Support (Codec Fields JsonValue Variant except_bind_eq_ok except_forM_eq_ok)

/-- What the JSON library decides beyond the text that it is given. -/
structure JsonLibrary where
  /-- A number with a fraction or an exponent is in the range of a float. -/
  finite : String → Bool
  /-- The error of bytes that are not read. -/
  malformed : ByteArray → String
  /-- The error of a path that no text spells. -/
  unwritable : String

/-- The recursion limit of the JSON library. -/
def RECURSION_LIMIT : Nat := 128

namespace JsonLibrary

/-- What the bytes say, when they are JSON. -/
def text (bytes : ByteArray) : Option JsonValue := (String.fromUTF8? bytes).bind JsonValue.parse

/-- A value is read whole as a `serde_json::Value`: no string has half of a surrogate pair, no
number is out of range and nothing is nested too deep. -/
def readsValue (library : JsonLibrary) (j : JsonValue) : Bool :=
  j.strict library.finite && decide (j.depth < RECURSION_LIMIT)

end JsonLibrary

/-! ### The record -/

/-- A newtype: the `u32` inside. -/
def ActionId.codec : Codec ActionId := u32.map ActionId.mk

/-- A newtype: the UUID inside. -/
def OperationId.codec : Codec OperationId := Uuid.codec.map OperationId.mk

/-- `BackendId::new`: an identity is not empty and has no whitespace. -/
def BackendId.isNew (id : BackendId) : Bool :=
  id.asStr ≠ "" && !id.asStr.toList.any isWhiteSpace

/-- `BackendId::new`: the identifiers it accepts. -/
def BackendId.new (value : String) : Option { id : BackendId // id.isNew = true } :=
  if h : BackendId.isNew ⟨value⟩ = true then some ⟨⟨value⟩, h⟩ else none

theorem BackendId.new_asStr (id : { id : BackendId // id.isNew = true }) :
    new id.1.asStr = some id := dif_pos id.2

/-- The only identity that is not derived: it is read through `BackendId::new`. -/
def BackendId.codec : Codec BackendId :=
  (Codec.text new (fun id => id.1.asStr) new_asStr).map Subtype.val

/-- A target's fingerprint, with `deny_unknown_fields`. -/
def TargetFingerprint.codec : Codec TargetFingerprint :=
  .record true (Fields.of TargetFingerprint.mk
    |>.field "planned_id" NodeId.codec
    |>.field "external_ids" ExternalId.codec.list) (by decide)

namespace ActiveAttempt

/-- The attempt, with `deny_unknown_fields`. -/
def codec : Codec ActiveAttempt :=
  .record true (Fields.of ActiveAttempt.mk
    |>.field "schema_version" u16
    |>.field "run_id" Uuid.codec
    |>.field "plan_id" Uuid.codec
    |>.field "action_id" ActionId.codec
    |>.field "operation_id" OperationId.codec.option
    |>.field "action" ProviderAction.codec
    |>.field "targets" TargetFingerprint.codec.list
    |>.field "plan_digest" .string
    |>.field "backend_id" BackendId.codec) (by decide)

/-- An attempt as it is held. -/
abbrev Record : Type := ActiveAttempt.codec.Stored

/-- What the code reads off the JSON of a record. -/
def encodingOf (encoding : CheckpointEncoding) (j : JsonValue) : CheckpointEncoding :=
  { encoding with
    longestString := fun _ => j.longest
    encodedBytes := fun _ => j.print.utf8ByteSize }

namespace Record

variable (library : JsonLibrary) (encoding : CheckpointEncoding)

/-- The strings are checked last, over the JSON of the record. -/
def validate (record : Record) : Except CheckpointError Unit :=
  match codec.encode record with
  | some j => (codec.value record).validate (encodingOf encoding j)
  | none => do
      (codec.value record).validate (encodingOf encoding .null)
      .error (.json library.unwritable)

/-- Validates the complete envelope before a store may publish any bytes. -/
def toBytes (record : Record) : Except CheckpointError ByteArray := do
  record.validate library encoding
  match codec.encode record with
  | none => .error (.json library.unwritable)
  | some j =>
      if j.print.utf8ByteSize > MAX_CHECKPOINT_BYTES then .error .tooLarge
      else .ok j.print.toUTF8

/-- Decodes bounded data, rejecting unknown fields even inside reused provider-action types.  The
typed reading passes over a field that it does not know, so that an error there comes after
validation in the source and before it here. -/
def fromBytes (bytes : ByteArray) : Except CheckpointError Record :=
  if bytes.size > MAX_CHECKPOINT_BYTES then .error .tooLarge
  else match JsonLibrary.text bytes with
    | none => .error (.json (library.malformed bytes))
    | some input =>
        match codec.decode input with
        | none => .error (.json (library.malformed bytes))
        | some record => do
            Record.validate library encoding record
            if !library.readsValue input then .error (.json (library.malformed bytes))
            else if (codec.encode record).map JsonValue.canonical ≠ some input.canonical then
              .error (.invalidData "unrecognized or noncanonical fields")
            else .ok record

end Record

/-! ### What `validate` establishes -/

/-- The schema, the identities, the digest, the action, the targets and the strings of a record
whose longest string has so many bytes. -/
structure Validated (attempt : ActiveAttempt) (longest : Nat) : Prop where
  schemaVersion : attempt.schemaVersion = CHECKPOINT_SCHEMA_VERSION
  runId : attempt.runId.isNil = false
  planId : attempt.planId.isNil = false
  operationId : ∀ id ∈ attempt.operationId, id.asUuid.isNil = false
  planDigest : hasDigestForm attempt.planDigest = true
  primary : ∃ primary identity, primaryTarget attempt.action = some (primary, identity) ∧
    ∃ target ∈ attempt.targets, target.plannedId = primary ∧
      ∃ id ∈ target.externalIds, identity.accepts id = true
  unique : (attempt.targets.map TargetFingerprint.plannedId).Nodup
  fingerprinted : ∀ target ∈ attempt.targets, target.plannedId.asUuid.isNil = false ∧
    target.externalIds ≠ [] ∧ target.externalIds.length ≤ MAX_EXTERNAL_IDS
  targets : attempt.targets.length ≤ MAX_TARGETS
  strings : longest ≤ MAX_STRING_BYTES

section Validate

variable {attempt : ActiveAttempt} {encoding : CheckpointEncoding}

/-- One target that the loop passes. -/
theorem checkTarget_eq_ok {primary : NodeId} {identity : PrimaryIdentity}
    {entry : TargetFingerprint × Nat} (h : attempt.checkTarget primary identity entry = .ok ()) :
    entry.1.plannedId.asUuid.isNil = false ∧
      (∀ other ∈ attempt.targets.take entry.2, other.plannedId ≠ entry.1.plannedId) ∧
      entry.1.externalIds ≠ [] ∧ entry.1.externalIds.length ≤ MAX_EXTERNAL_IDS ∧
      (entry.1.plannedId = primary → ∃ id ∈ entry.1.externalIds, identity.accepts id = true) := by
  dsimp only [checkTarget] at h
  split at h
  · cases h
  · next hpresent =>
    split at h
    · cases h
    · next hcount =>
      split at h
      · cases h
      · next hnative =>
        simp only [Bool.or_eq_true, not_or, Bool.not_eq_true, List.any_eq_false, beq_iff_eq,
          List.isEmpty_eq_false_iff] at hpresent
        obtain ⟨⟨hnil, hfresh⟩, hids⟩ := hpresent
        refine ⟨hnil, hfresh, hids, Nat.le_of_not_gt hcount, fun hprimary => ?_⟩
        have hsome : entry.1.externalIds.any identity.accepts = true := by
          by_contra hnone
          exact hnative ⟨hprimary, by simpa using hnone⟩
        exact List.any_eq_true.mp hsome

/-- No two targets that pass the loop are of one node. -/
theorem unique_of_checkTargets {primary : NodeId} {identity : PrimaryIdentity}
    (h : ∀ entry ∈ attempt.targets.zipIdx, attempt.checkTarget primary identity entry = .ok ()) :
    (attempt.targets.map TargetFingerprint.plannedId).Nodup := by
  rw [List.Nodup, List.pairwise_map, List.pairwise_iff_getElem]
  intro i j hi hj hlt
  have hentry : (attempt.targets[j], j) ∈ attempt.targets.zipIdx :=
    List.mk_mem_zipIdx_iff_getElem?.mpr (List.getElem?_eq_getElem hj)
  refine (checkTarget_eq_ok (h _ hentry)).2.1 _ ?_
  exact List.mem_take_iff_getElem.mpr ⟨i, by omega, rfl⟩

theorem validated_of_validate (h : attempt.validate encoding = .ok ()) :
    attempt.Validated (encoding.longestString attempt) := by
  rw [validate] at h
  split at h
  · cases h
  · next hschema =>
    split at h
    · cases h
    · next hids =>
      split at h
      · cases h
      · next hdigest =>
        split at h
        · cases h
        · next primary identity haction =>
          split at h
          · cases h
          · next hprimary =>
            split at h
            · cases h
            · next hcount =>
              obtain ⟨_, hloop, h⟩ := except_bind_eq_ok.mp h
              split at h
              · cases h
              · next hstrings =>
                have hchecks := except_forM_eq_ok.mp hloop
                have hcheck : ∀ target ∈ attempt.targets, ∃ i,
                    attempt.checkTarget primary identity (target, i) = .ok () := by
                  intro target htarget
                  obtain ⟨i, hi⟩ := List.mem_iff_getElem?.mp htarget
                  exact ⟨i, hchecks _ (List.mk_mem_zipIdx_iff_getElem?.mpr hi)⟩
                simp only [Bool.or_eq_true, not_or, Bool.not_eq_true, Option.any_eq_false] at hids
                obtain ⟨⟨hrun, hplan⟩, hoperation⟩ := hids
                simp only [Bool.not_eq_true', Bool.not_eq_false, List.any_eq_true,
                  beq_iff_eq] at hprimary hdigest
                obtain ⟨target, htarget, hplanned⟩ := hprimary
                obtain ⟨i, hi⟩ := hcheck target htarget
                exact {
                  schemaVersion := not_not.mp hschema
                  runId := hrun
                  planId := hplan
                  operationId := hoperation
                  planDigest := hdigest
                  primary := ⟨primary, identity, haction, target, htarget, hplanned,
                    (checkTarget_eq_ok hi).2.2.2.2 hplanned⟩
                  unique := unique_of_checkTargets hchecks
                  fingerprinted := fun other hother => by
                    obtain ⟨k, hk⟩ := hcheck other hother
                    obtain ⟨hnil, -, hids, hlength, -⟩ := checkTarget_eq_ok hk
                    exact ⟨hnil, hids, hlength⟩
                  targets := Nat.le_of_not_gt hcount
                  strings := Nat.le_of_not_gt hstrings }

end Validate

/-! ### Round trips -/

namespace Record

variable {library : JsonLibrary} {encoding : CheckpointEncoding} {record : Record}
  {bytes : ByteArray}

theorem total_codec : ActiveAttempt.codec.total = true := by decide

theorem depth_codec : ActiveAttempt.codec.depth < RECURSION_LIMIT := by decide

/-- What a valid record is written as. -/
theorem toBytes_eq_ok : toBytes library encoding record = .ok bytes ↔
    validate library encoding record = .ok () ∧ ∃ j, ActiveAttempt.codec.encode record = some j ∧
      j.print.utf8ByteSize ≤ MAX_CHECKPOINT_BYTES ∧ bytes = j.print.toUTF8 := by
  rw [toBytes, except_bind_eq_ok]
  constructor
  · rintro ⟨⟨⟩, hvalid, h⟩
    split at h
    · cases h
    · next j hj =>
      split at h
      · cases h
      · next hsize => exact ⟨hvalid, j, hj, Nat.le_of_not_gt hsize, (Except.ok.inj h).symm⟩
  · rintro ⟨hvalid, j, hj, hsize, rfl⟩
    refine ⟨⟨⟩, hvalid, ?_⟩
    rw [hj]
    exact if_neg (Nat.not_lt.mpr hsize)

/-- What bytes that are read say, and of which record. -/
theorem fromBytes_eq_ok : fromBytes library encoding bytes = .ok record ↔
    bytes.size ≤ MAX_CHECKPOINT_BYTES ∧ ∃ input, JsonLibrary.text bytes = some input ∧
      ActiveAttempt.codec.decode input = some record ∧
      validate library encoding record = .ok () ∧ library.readsValue input = true ∧
      (ActiveAttempt.codec.encode record).map JsonValue.canonical = some input.canonical := by
  rw [fromBytes]
  constructor
  · intro h
    split at h
    · cases h
    · next hsize =>
      split at h
      · cases h
      · next input hinput =>
        split at h
        · cases h
        · next record' hdecode =>
          obtain ⟨⟨⟩, hvalid, h⟩ := except_bind_eq_ok.mp h
          split at h
          · cases h
          · next hreads =>
            split at h
            · cases h
            · next hcanonical =>
              obtain rfl := Except.ok.inj h
              rw [Bool.not_eq_true', Bool.not_eq_false] at hreads
              exact ⟨Nat.le_of_not_gt hsize, input, hinput, hdecode, hvalid, hreads,
                not_not.mp hcanonical⟩
  · rintro ⟨hsize, input, hinput, hdecode, hvalid, hreads, hcanonical⟩
    rw [if_neg (Nat.not_lt.mpr hsize), hinput]
    dsimp only
    rw [hdecode]
    refine except_bind_eq_ok.mpr ⟨⟨⟩, hvalid, ?_⟩
    rw [hreads, if_neg (by decide), if_neg (not_not.mpr hcanonical)]

/-- **Records are read back.** -/
theorem fromBytes_toBytes (h : toBytes library encoding record = .ok bytes) :
    fromBytes library encoding bytes = .ok record := by
  obtain ⟨hvalid, j, hj, hsize, rfl⟩ := toBytes_eq_ok.mp h
  have hplain := ActiveAttempt.codec.plain hj
  have htext : JsonLibrary.text j.print.toUTF8 = some j := by
    rw [JsonLibrary.text, String.toUTF8_eq_toByteArray, String.fromUTF8?,
      dif_pos j.print.isValidUTF8]
    exact JsonValue.parse_print hplain
  have hreads : library.readsValue j = true := by
    rw [JsonLibrary.readsValue, hplain.strict, Bool.true_and, decide_eq_true_eq]
    exact hplain.depth_le.trans_lt depth_codec
  have hdecode : ActiveAttempt.codec.decode j = some record :=
    (ActiveAttempt.codec.decode_encode hj).mpr (ActiveAttempt.codec.accepts_all total_codec _)
  refine fromBytes_eq_ok.mpr ⟨hsize, j, htext, hdecode, hvalid, hreads, ?_⟩
  rw [hj, Option.map_some]

/-- **What is read can be written again, within the limit.** -/
theorem toBytes_of_fromBytes (h : fromBytes library encoding bytes = .ok record) :
    ∃ written, toBytes library encoding record = .ok written ∧
      written.size ≤ MAX_CHECKPOINT_BYTES := by
  obtain ⟨hsize, input, hinput, -, hvalid, -, hcanonical⟩ := fromBytes_eq_ok.mp h
  obtain ⟨text, htext, hparse⟩ := Option.bind_eq_some_iff.mp hinput
  obtain ⟨j, hj, hsame⟩ := Option.map_eq_some_iff.mp hcanonical
  have hbytes : text.utf8ByteSize = bytes.size := by
    rw [String.fromUTF8?] at htext
    split at htext
    · obtain rfl := Option.some.inj htext
      rfl
    · cases htext
  -- The compact text is as long as that of the value it denotes, and the input is no shorter.
  have hlength : j.print.utf8ByteSize ≤ MAX_CHECKPOINT_BYTES := by
    calc j.print.utf8ByteSize
        = j.canonical.print.utf8ByteSize := by
          rw [JsonValue.utf8ByteSize_print, JsonValue.utf8ByteSize_print,
            (ActiveAttempt.codec.plain hj).byteLength_canonical]
      _ = input.canonical.print.utf8ByteSize := by rw [hsame]
      _ ≤ text.utf8ByteSize := JsonValue.utf8ByteSize_canonical_le hparse
      _ = bytes.size := hbytes
      _ ≤ MAX_CHECKPOINT_BYTES := hsize
  exact ⟨j.print.toUTF8, toBytes_eq_ok.mpr ⟨hvalid, j, hj, hlength, rfl⟩, hlength⟩

/-- What is read denotes what is written. -/
theorem canonical_of_fromBytes (h : fromBytes library encoding bytes = .ok record) :
    (JsonLibrary.text bytes).map JsonValue.canonical =
      (ActiveAttempt.codec.encode record).map JsonValue.canonical := by
  obtain ⟨-, input, hinput, -, -, -, hcanonical⟩ := fromBytes_eq_ok.mp h
  rw [hinput, hcanonical, Option.map_some]

theorem validated_of_fromBytes (h : fromBytes library encoding bytes = .ok record) :
    ∃ j, ActiveAttempt.codec.encode record = some j ∧
      (ActiveAttempt.codec.value record).Validated j.longest := by
  obtain ⟨-, input, -, -, hvalid, -, hcanonical⟩ := fromBytes_eq_ok.mp h
  obtain ⟨j, hj, -⟩ := Option.map_eq_some_iff.mp hcanonical
  rw [validate, hj] at hvalid
  exact ⟨j, hj, validated_of_validate hvalid⟩

end Record

/-- **The checkpoint codec.**  A record that is written is read back as it was; a record that is
read has passed validation and can be written within the limit; and the bytes a record is read from
denote the value that it is written as, so that two texts of one record denote one value. -/
theorem record_round_trip (library : JsonLibrary) (encoding : CheckpointEncoding) :
    (∀ record bytes, Record.toBytes library encoding record = .ok bytes →
      Record.fromBytes library encoding bytes = .ok record) ∧
    (∀ bytes record, Record.fromBytes library encoding bytes = .ok record →
      Record.validate library encoding record = .ok () ∧
      (∃ j, ActiveAttempt.codec.encode record = some j ∧
        (ActiveAttempt.codec.value record).Validated j.longest) ∧
      (∃ written, Record.toBytes library encoding record = .ok written ∧
        written.size ≤ MAX_CHECKPOINT_BYTES) ∧
      (JsonLibrary.text bytes).map JsonValue.canonical =
        (ActiveAttempt.codec.encode record).map JsonValue.canonical) ∧
    ∀ bytes bytes' record, Record.fromBytes library encoding bytes = .ok record →
      Record.fromBytes library encoding bytes' = .ok record →
      (JsonLibrary.text bytes).map JsonValue.canonical =
        (JsonLibrary.text bytes').map JsonValue.canonical := by
  refine ⟨fun _ _ => Record.fromBytes_toBytes, fun bytes record h => ?_,
    fun bytes bytes' record h h' => ?_⟩
  · obtain ⟨-, _, -, -, hvalid, -, -⟩ := Record.fromBytes_eq_ok.mp h
    exact ⟨hvalid, Record.validated_of_fromBytes h, Record.toBytes_of_fromBytes h,
      Record.canonical_of_fromBytes h⟩
  · rw [Record.canonical_of_fromBytes h, Record.canonical_of_fromBytes h']

/-- An attempt to mount an ext4 filesystem at some path. -/
def mountAttempt (target : String) : JsonValue :=
  let id := JsonValue.string "00000000-0000-4000-8000-000000000001"
  .object [
    ("schema_version", .int 1), ("run_id", id), ("plan_id", id), ("action_id", .int 0),
    ("operation_id", .null),
    ("action", .object [("provider", .string "mount"),
      ("operation", .object [("mount", .object [("source", .object [("filesystem", id)]),
        ("target", .string target),
        ("options", .array (EXT4_HOST_MOUNT_OPTIONS.map JsonValue.string)),
        ("context", .string "host")])])]),
    ("targets", .array [.object [("planned_id", id),
      ("external_ids", .array [.object [("Filesystem",
        .object [("fs_type", .string "ext4"), ("value", id)])]])]]),
    ("plan_digest", .string (String.ofList (List.replicate 64 '0'))),
    ("backend_id", .string "libmount")]

/-- A library that reads every number. -/
def sampleLibrary : JsonLibrary := ⟨fun _ => true, fun _ => "", ""⟩

/-- An encoding whose texts and digests are all alike. -/
def noDigest : CheckpointEncoding := ⟨fun _ => .ok "", fun _ => 0, fun _ => 0⟩

/-- The records of two mount attempts are written. -/
theorem toBytes_mountAttempt : ∀ target ∈ ["/mnt/a", "/mnt/a/"], ∃ record bytes,
    codec.decode (mountAttempt target) = some record ∧
      Record.toBytes sampleLibrary noDigest record = .ok bytes := by
  have hall : ∀ target ∈ ["/mnt/a", "/mnt/a/"],
      ((codec.decode (mountAttempt target)).any fun record =>
        (Record.validate sampleLibrary noDigest record).isOk &&
          (codec.encode record).any fun j =>
            decide (j.weight ≤ MAX_CHECKPOINT_BYTES)) = true := by decide +kernel
  intro target htarget
  have h := hall target htarget
  rw [Option.any_eq_true] at h
  obtain ⟨record, hrecord, h⟩ := h
  obtain ⟨hvalid, hlength⟩ := Bool.and_eq_true_iff.mp h
  rw [Option.any_eq_true] at hlength
  obtain ⟨j, hj, hsize⟩ := hlength
  refine ⟨record, j.print.toUTF8, hrecord, Record.toBytes_eq_ok.mpr ⟨?_, j, hj, ?_, rfl⟩⟩
  · cases hresult : Record.validate sampleLibrary noDigest record with
    | ok result => rfl
    | error error =>
        rw [hresult] at hvalid
        cases hvalid
  · rw [JsonValue.utf8ByteSize_print]
    exact (JsonValue.byteLength_le_weight j).trans (of_decide_eq_true hsize)

/-- Two paths that `==` takes for one, `/mnt/a` and `/mnt/a/`, are read from texts that denote
different values. -/
theorem equal_attempts_differ : ∃ bytes bytes' record record',
    Record.fromBytes sampleLibrary noDigest bytes = .ok record ∧
      Record.fromBytes sampleLibrary noDigest bytes' = .ok record' ∧
      codec.value record = codec.value record' ∧
      (JsonLibrary.text bytes).map JsonValue.canonical ≠
        (JsonLibrary.text bytes').map JsonValue.canonical := by
  obtain ⟨record, bytes, hrecord, hbytes⟩ :=
    toBytes_mountAttempt "/mnt/a" List.mem_cons_self
  obtain ⟨record', bytes', hrecord', hbytes'⟩ :=
    toBytes_mountAttempt "/mnt/a/" (List.mem_cons_of_mem _ List.mem_cons_self)
  have hread := Record.fromBytes_toBytes hbytes
  have hread' := Record.fromBytes_toBytes hbytes'
  refine ⟨bytes, bytes', record, record', hread, hread', ?_, ?_⟩
  · have hvalues : (codec.decode (mountAttempt "/mnt/a")).map codec.value =
        (codec.decode (mountAttempt "/mnt/a/")).map codec.value := by decide +kernel
    rw [hrecord, hrecord'] at hvalues
    exact Option.some.inj hvalues
  · have hvalues :
      ((codec.decode (mountAttempt "/mnt/a")).bind codec.encode).map JsonValue.canonical ≠
        ((codec.decode (mountAttempt "/mnt/a/")).bind codec.encode).map JsonValue.canonical := by
      decide +kernel
    rw [hrecord, hrecord'] at hvalues
    rw [Record.canonical_of_fromBytes hread, Record.canonical_of_fromBytes hread']
    exact hvalues

/-- A mount attempt is written, read back and written again. -/
theorem record_round_trip_mount : ∃ record bytes written,
    Record.toBytes sampleLibrary noDigest record = .ok bytes ∧
      Record.fromBytes sampleLibrary noDigest bytes = .ok record ∧
      Record.toBytes sampleLibrary noDigest record = .ok written ∧
      written.size ≤ MAX_CHECKPOINT_BYTES ∧
      (JsonLibrary.text bytes).map JsonValue.canonical =
        (JsonLibrary.text written).map JsonValue.canonical := by
  obtain ⟨record, bytes, -, hbytes⟩ := toBytes_mountAttempt "/mnt/a" List.mem_cons_self
  have hlaws := record_round_trip sampleLibrary noDigest
  have hread := hlaws.1 record bytes hbytes
  obtain ⟨-, -, ⟨written, hwritten, hsize⟩, -⟩ := hlaws.2.1 bytes record hread
  exact ⟨record, bytes, written, hbytes, hread, hwritten, hsize,
    hlaws.2.2 bytes written record hread (hlaws.1 record written hwritten)⟩

end ActiveAttempt

end DisksGraph
