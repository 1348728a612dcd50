import DisksGraph.Probe.Records
import DisksGraph.Support.Folds
import DisksGraph.Support.Returns

/-!
# Provider — LVM write

The checks around a native LVM write (`lvm_write.rs`): what a request may contain, what the native
records must say before it, and which created volume they prove after it.

* `LinearLvRequest`, `LvActivationRequest`: requests that passed their constructor.
* `CheckedVg`: one group with its complete present membership, and nothing else that shares its name
  or its UUID.
* `native_lvm_checks_sound`: what a passed check and a returned UUID establish.
-/

namespace DisksGraph

open Support (except_bind_eq_ok filter_eq_of_countP_one)

/-! ### Native names -/

/-- An ASCII letter or digit. -/
def isAsciiAlphanumeric (c : Char) : Bool :=
  ('0' ≤ c && c ≤ '9') || ('a' ≤ c && c ≤ 'z') || ('A' ≤ c && c ≤ 'Z')

/-- Accepts a conservative subset of LVM names, excluding paths and option-like names. -/
def validName (name : String) : Bool :=
  name ≠ "" && name.utf8ByteSize ≤ 127 && name.toList.head? ≠ some '-' && name ≠ "." &&
    name ≠ ".." && name.toList.all fun c => isAsciiAlphanumeric c || c ∈ ['+', '_', '.', '-']

/-- Excludes the names LVM keeps for itself. -/
def validLvName (name : String) : Bool :=
  validName name && !"snapshot".toList.isPrefixOf name.toList &&
    !"pvmove".toList.isPrefixOf name.toList &&
    ! ["_cdata", "_cmeta", "_corig", "_mimage", "_mlog", "_pmspare", "_rimage", "_rmeta", "_tdata",
      "_tmeta", "_vdata", "_vorigin"].any fun reserved =>
        name.toList.tails.any fun rest => reserved.toList.isPrefixOf rest

/-- LVM UUIDs are nonempty ASCII identity strings and may contain formatting hyphens. -/
def validUuid (uuid : String) : Bool :=
  uuid ≠ "" && uuid.toList.all fun c => isAsciiAlphanumeric c || c == '-'

/-! ### Requests -/

/-- A rejected request or observation must never reach the native mutator.  The failures of the
native calls themselves belong to code that is not modelled. -/
inductive LvmWriteError where
  | invalidRequest
  | targetChanged
deriving DecidableEq

/-- Validated linear-only request bound to an admitted group UUID and an exact capacity. -/
structure LinearLvRequest where
  vgName : String
  vgUuid : String
  lvName : String
  size : Nat
  vgName_valid : validName vgName = true
  lvName_valid : validLvName lvName = true
  vgUuid_valid : validUuid vgUuid = true
  size_pos : 0 < size

/-- Validates C-safe names, a nonempty UUID, and positive size without touching storage. -/
def LinearLvRequest.new (vgName vgUuid lvName : String) (size : Nat) :
    Except LvmWriteError LinearLvRequest :=
  if h : (validName vgName ∧ validLvName lvName) ∧ validUuid vgUuid ∧ 0 < size then
    .ok ⟨vgName, vgUuid, lvName, size, h.1.1, h.1.2, h.2.1, h.2.2⟩
  else .error .invalidRequest

/-- Validated activation-only request bound to the native group and volume UUIDs. -/
structure LvActivationRequest where
  vgName : String
  vgUuid : String
  lvName : String
  lvUuid : String
  size : Nat
  vgName_valid : validName vgName = true
  lvName_valid : validLvName lvName = true
  vgUuid_valid : validUuid vgUuid = true
  lvUuid_valid : validUuid lvUuid = true
  size_pos : 0 < size

/-- Validates the exact native endpoint without performing any host operation. -/
def LvActivationRequest.new (vgName vgUuid lvName lvUuid : String) (size : Nat) :
    Except LvmWriteError LvActivationRequest :=
  if h : (validName vgName ∧ validLvName lvName) ∧ (validUuid vgUuid ∧ validUuid lvUuid) ∧
      0 < size then
    .ok ⟨vgName, vgUuid, lvName, lvUuid, size, h.1.1, h.1.2, h.2.1.1, h.2.1.2, h.2.2⟩
  else .error .invalidRequest

/-! ### Checks -/

namespace LvmEntry

/-- The groups with the name or the UUID. -/
def vgsMatching (state : LvmEntry) (name uuid : String) : List LvmVgEntry :=
  state.vgs.filter fun vg => vg.name == name || vg.uuid == uuid

/-- The physical volumes that name the group by its name or its UUID. -/
def members (state : LvmEntry) (name uuid : String) : List LvmPvEntry :=
  state.pvs.filter fun pv => pv.vgName == some name || pv.vgUuid == some uuid

end LvmEntry

/-- A member that does not belong to the group entirely, or cannot be told from another. -/
def LvmPvEntry.isDoubtful (state : LvmEntry) (name uuid : String) (pv : LvmPvEntry) : Bool :=
  pv.vgName != some name || pv.vgUuid != some uuid || pv.missing || !validUuid pv.uuid ||
    pv.size == 0 || pv.size < pv.free || state.pvs.countP (·.uuid = pv.uuid) != 1

/-- Rechecks one native group and its complete present membership for both write recipes. -/
def checkedVg (state : LvmEntry) (name uuid : String) : Except LvmWriteError LvmVgEntry :=
  match state.vgsMatching name uuid with
  | [vg] =>
      if vg.name != name || vg.uuid != uuid || vg.exported || vg.extentSize == 0 ||
          vg.size < vg.free then
        .error .targetChanged
      else if vg.pvCount == 0 || (state.members name uuid).length != vg.pvCount ||
          (state.members name uuid).any (·.isDoubtful state name uuid) then
        .error .targetChanged
      else .ok vg
  | _ => .error .targetChanged

namespace LinearLvRequest

variable (request : LinearLvRequest)

/-- The volume has the name the request asks for. -/
def isNamed (lv : LvmLvEntry) : Bool := lv.vgName == request.vgName && lv.name == request.lvName

/-- Requires a unique UUID and name pair, a nonexported group, exact extent sizing, and a free
volume name. -/
def checkTarget (state : LvmEntry) : Except LvmWriteError Unit := do
  let vg ← checkedVg state request.vgName request.vgUuid
  if request.size % vg.extentSize != 0 || vg.free < request.size ||
      state.lvs.any request.isNamed then
    .error .targetChanged
  else .ok ()

/-- Returns a newly observed unique linear volume's UUID; any ambiguity after invocation is an
incident. -/
def createdUuid (before after : LvmEntry) : Except LvmWriteError String :=
  match after.vgsMatching request.vgName request.vgUuid with
  | [vg] =>
      if vg.name != request.vgName || vg.uuid != request.vgUuid || vg.exported then
        .error .targetChanged
      else match after.lvs.filter request.isNamed with
        | [lv] =>
            if lv.size != request.size || lv.segmentType != some "linear" || !validUuid lv.uuid ||
                after.lvs.countP (·.uuid = lv.uuid) != 1 ||
                before.lvs.any (·.uuid == lv.uuid) then
              .error .targetChanged
            else .ok lv.uuid
        | _ => .error .targetChanged
  | _ => .error .targetChanged

end LinearLvRequest

/-! ### What a passed check says -/

/-- The group of a request: nothing else shares its name or UUID, and the volumes that name it are
its complete, present and distinguishable membership. -/
structure CheckedVg (state : LvmEntry) (name uuid : String) (vg : LvmVgEntry) : Prop where
  only : state.vgsMatching name uuid = [vg]
  named : vg.name = name ∧ vg.uuid = uuid
  notExported : vg.exported = false
  extents : 0 < vg.extentSize
  bounded : vg.free ≤ vg.size
  count : 0 < vg.pvCount ∧ (state.members name uuid).length = vg.pvCount
  member : ∀ pv ∈ state.members name uuid,
    (pv.vgName = some name ∧ pv.vgUuid = some uuid) ∧ pv.missing = false ∧
      (validUuid pv.uuid = true ∧ 0 < pv.size ∧ pv.free ≤ pv.size) ∧
      state.pvs.filter (·.uuid = pv.uuid) = [pv]

/-- The created volume: exactly what was asked for, alone with its UUID, and new. -/
structure Created (request : LinearLvRequest) (before after : LvmEntry) (lv : LvmLvEntry) :
    Prop where
  group : ∃ vg, after.vgsMatching request.vgName request.vgUuid = [vg] ∧
    vg.name = request.vgName ∧ vg.uuid = request.vgUuid ∧ vg.exported = false
  only : after.lvs.filter request.isNamed = [lv]
  named : lv.vgName = request.vgName ∧ lv.name = request.lvName
  size : lv.size = request.size
  linear : lv.segmentType = some "linear"
  valid : validUuid lv.uuid = true
  unique : after.lvs.filter (·.uuid = lv.uuid) = [lv]
  fresh : ∀ other ∈ before.lvs, other.uuid ≠ lv.uuid

section Checks

variable {state before after : LvmEntry} {name uuid : String} {vg : LvmVgEntry}

/-- A member is not doubtful exactly when it belongs to the group and has its UUID alone. -/
theorem isDoubtful_eq_false {pv : LvmPvEntry} (hpv : pv ∈ state.pvs) :
    pv.isDoubtful state name uuid = false ↔
      (pv.vgName = some name ∧ pv.vgUuid = some uuid) ∧ pv.missing = false ∧
        (validUuid pv.uuid = true ∧ 0 < pv.size ∧ pv.free ≤ pv.size) ∧
        state.pvs.filter (·.uuid = pv.uuid) = [pv] := by
  have hunique : state.pvs.countP (·.uuid = pv.uuid) = 1 ↔
      state.pvs.filter (·.uuid = pv.uuid) = [pv] := by
    constructor
    · exact fun hcount => filter_eq_of_countP_one hcount hpv (by simp)
    · intro hfilter
      rw [List.countP_eq_length_filter, hfilter]
      rfl
  rw [← hunique]
  simp only [LvmPvEntry.isDoubtful, Bool.or_eq_false_iff, bne_eq_false_iff_eq,
    Bool.not_eq_false', beq_eq_false_iff_ne, decide_eq_false_iff_not, Nat.not_lt]
  constructor
  · rintro ⟨⟨⟨⟨⟨⟨hname, huuid⟩, hmissing⟩, hvalid⟩, hsize⟩, hfree⟩, hcount⟩
    exact ⟨⟨hname, huuid⟩, hmissing, ⟨hvalid, Nat.pos_of_ne_zero hsize, hfree⟩, hcount⟩
  · rintro ⟨⟨hname, huuid⟩, hmissing, ⟨hvalid, hsize, hfree⟩, hcount⟩
    exact ⟨⟨⟨⟨⟨⟨hname, huuid⟩, hmissing⟩, hvalid⟩, Nat.ne_of_gt hsize⟩, hfree⟩, hcount⟩

/-- The check passes exactly for the group of the request. -/
theorem checkedVg_eq_ok : checkedVg state name uuid = .ok vg ↔ CheckedVg state name uuid vg := by
  have hmembers : (state.members name uuid).any (·.isDoubtful state name uuid) = false ↔
      ∀ pv ∈ state.members name uuid, pv.isDoubtful state name uuid = false := by
    simp
  constructor
  · intro h
    rw [checkedVg] at h
    split at h
    next found honly =>
      split at h
      next => cases h
      next hgroup =>
        split at h
        next => cases h
        next hcount =>
          obtain rfl := Except.ok.inj h
          simp only [Bool.or_eq_true, bne_iff_ne, ne_eq, beq_iff_eq, decide_eq_true_eq, not_or,
            not_not, Bool.not_eq_true, Nat.not_lt] at hgroup hcount
          obtain ⟨⟨⟨hnamed, hexported⟩, hextent⟩, hbounded⟩ := hgroup
          obtain ⟨⟨hpositive, hlength⟩, hall⟩ := hcount
          refine ⟨honly, hnamed, hexported, Nat.pos_of_ne_zero hextent, hbounded,
            ⟨Nat.pos_of_ne_zero hpositive, hlength⟩, fun pv hpv => ?_⟩
          exact (isDoubtful_eq_false (List.mem_filter.mp hpv).1).mp (hmembers.mp hall pv hpv)
    next => cases h
  · rintro ⟨honly, ⟨hname, huuid⟩, hexported, hextent, hbounded, ⟨hpositive, hlength⟩, hmember⟩
    have hall := hmembers.mpr fun pv hpv =>
      (isDoubtful_eq_false (List.mem_filter.mp hpv).1).mpr (hmember pv hpv)
    simp [checkedVg, honly, hname, huuid, hexported, hextent.ne', Nat.not_lt.mpr hbounded,
      hpositive.ne', hlength, hall]

/-- The target check passes exactly when the group can take the requested volume. -/
theorem checkTarget_eq_ok {request : LinearLvRequest} : request.checkTarget state = .ok () ↔
    ∃ vg, CheckedVg state request.vgName request.vgUuid vg ∧ vg.extentSize ∣ request.size ∧
      request.size ≤ vg.free ∧
      ∀ lv ∈ state.lvs, lv.vgName = request.vgName → lv.name ≠ request.lvName := by
  rw [LinearLvRequest.checkTarget, except_bind_eq_ok]
  refine exists_congr fun vg => ?_
  rw [checkedVg_eq_ok]
  refine and_congr_right fun _ => ?_
  have hnames : state.lvs.any request.isNamed = false ↔
      ∀ lv ∈ state.lvs, lv.vgName = request.vgName → lv.name ≠ request.lvName := by
    simp [LinearLvRequest.isNamed]
  rw [← hnames, Nat.dvd_iff_mod_eq_zero]
  by_cases hsize : request.size % vg.extentSize = 0
  · by_cases hfree : vg.free < request.size
    · simp [hsize, hfree, Nat.not_le.mpr hfree]
    · cases hany : state.lvs.any request.isNamed <;>
        simp [hsize, hfree, Nat.not_lt.mp hfree]
  · simp [hsize]

/-- A returned UUID belongs to the created volume. -/
theorem created_of_createdUuid {request : LinearLvRequest} {created : String}
    (h : request.createdUuid before after = .ok created) :
    ∃ lv, lv.uuid = created ∧ Created request before after lv := by
  rw [LinearLvRequest.createdUuid] at h
  split at h
  next vg hgroup =>
    split at h
    next => cases h
    next hvg =>
      split at h
      next lv honly =>
        split at h
        next => cases h
        next hlv =>
          simp only [Bool.or_eq_true, bne_iff_ne, ne_eq, not_or, not_not, Bool.not_eq_true,
            Bool.not_eq_false', List.any_eq_false, beq_iff_eq] at hvg hlv
          obtain ⟨⟨hname, huuid⟩, hexported⟩ := hvg
          obtain ⟨⟨⟨⟨hsize, hlinear⟩, hvalid⟩, hcount⟩, hfresh⟩ := hlv
          have hmem : lv ∈ after.lvs.filter request.isNamed := honly ▸ List.mem_singleton_self lv
          obtain ⟨hlv, hnamed⟩ := List.mem_filter.mp hmem
          rw [LinearLvRequest.isNamed, Bool.and_eq_true, beq_iff_eq, beq_iff_eq] at hnamed
          exact ⟨lv, Except.ok.inj h, ⟨vg, hgroup, hname, huuid, hexported⟩, honly, hnamed, hsize,
            hlinear, hvalid, filter_eq_of_countP_one hcount hlv (by simp), hfresh⟩
      next => cases h
  next => cases h

end Checks

/-- **The native checks are sound.**  A passed target check leaves one group that shares the name or
the UUID of the request; it has both, it is not exported, its membership is complete, present and
distinguishable, and it can take the requested size under the requested name.  A returned UUID is
carried by one volume of the records after the call, exactly the requested linear one, and by no
volume of the records before it. -/
theorem native_lvm_checks_sound (request : LinearLvRequest) :
    (∀ state, request.checkTarget state = .ok () →
      ∃ vg, CheckedVg state request.vgName request.vgUuid vg ∧
        (0 < request.size ∧ vg.extentSize ∣ request.size ∧ request.size ≤ vg.free) ∧
        ∀ lv ∈ state.lvs, lv.vgName = request.vgName → lv.name ≠ request.lvName) ∧
    ∀ before after created, request.createdUuid before after = .ok created →
      ∃ lv, lv.uuid = created ∧ Created request before after lv := by
  constructor
  · intro state h
    obtain ⟨vg, hvg, hextents, hfree, hnames⟩ := checkTarget_eq_ok.mp h
    exact ⟨vg, hvg, ⟨request.size_pos, hextents, hfree⟩, hnames⟩
  · exact fun before after created h => created_of_createdUuid h

/-! ### One request -/

/-- A group of four extents on one device, two of them free. -/
def nativeGroup (lvs : List LvmLvEntry) : LvmEntry where
  pvs := [{ device := "/dev/fixture", uuid := "pv-uuid", vgName := some "vg",
            vgUuid := some "vg-uuid", size := 16384, free := 8192 }]
  vgs := [{ name := "vg", uuid := "vg-uuid", size := 16384, extentSize := 4096, free := 8192,
            pvCount := 1 }]
  lvs := lvs

/-- The request for a volume of one extent. -/
def nativeRequest : LinearLvRequest :=
  ⟨"vg", "vg-uuid", "data", 4096, by decide, by decide, by decide, by decide⟩

/-- The volume as it is listed afterwards. -/
def nativeData : LvmLvEntry where
  name := "data"
  vgName := "vg"
  uuid := "new-uuid"
  size := 4096
  segmentType := some "linear"

theorem native_request_checked :
    (∃ vg, CheckedVg (nativeGroup []) "vg" "vg-uuid" vg) ∧
      ∃ lv, lv.uuid = "new-uuid" ∧
        Created nativeRequest (nativeGroup []) (nativeGroup [nativeData]) lv := by
  obtain ⟨htarget, hcreated⟩ := native_lvm_checks_sound nativeRequest
  obtain ⟨vg, hvg, -⟩ := htarget (nativeGroup []) (by decide)
  exact ⟨⟨vg, hvg⟩, hcreated (nativeGroup []) (nativeGroup [nativeData]) "new-uuid" (by decide)⟩

end DisksGraph
