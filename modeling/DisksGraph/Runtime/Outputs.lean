import DisksGraph.Engine.Correlated
import DisksGraph.Engine.Evidenced
import DisksGraph.Engine.Goal
import DisksGraph.Runtime.Bindings

/-!
# Runtime — Outputs

What a map of output bindings is worth, whatever it was offered (`bindings.rs`).

* `IsOutput`: a run in which the action of a candidate is verified, with the completion the
  candidate names; no later state of that run takes this back.
* `Trusted`: the invariant of the map, over any sequence of recording calls.
* `output_bindings_trustworthy`: every entry is backed, every output resolves without a loop, and
  what is correlated are different nodes, each the only carrier of its identity.
-/

namespace DisksGraph

open Support (Returns except_bind_eq_ok)

/-! ### Verified actions -/

/-- The action of a candidate is verified in the run, with the completion the candidate names. -/
structure IsOutput (run : ExecutionRun) (runId : Uuid) (action : ActionId)
    (observation : ObservationReference) : Prop where
  runId : runId = run.runId
  verified : run.state action = .ok .verified
  completion : ∃ completion, run.completion action = .ok (some completion) ∧
    completion.observation.reference = observation

namespace ExecutionRun

variable {run run' : ExecutionRun} {index : Nat} {record : ActionRun}

/-- A step changes one record at most, and never that of a verified action. -/
theorem Step.touches (h : Step run run') :
    run'.actions = run.actions ∨ ∃ (id : ActionId) (other : ActionRun)
      (update : ActionRun → ActionRun), run.actions[id.get]? = some other ∧
        other.state ≠ .verified ∧ run'.actions = run.actions.modify id.get update := by
  cases h with
  | beginCheck hother hstate | undecided hother hstate | dispatch hother hstate =>
      exact .inr ⟨_, _, _, hother, by simp [hstate], rfl⟩
  | decided hother hstate | preDispatchFailed hother hstate | complete hother hstate
  | verify hother hstate =>
      exact .inr ⟨_, _, _, hother, by simp [hstate], actions_enter⟩
  | outcomeUnknown hother hstate =>
      refine .inr ⟨_, _, _, hother, ?_, actions_enter⟩
      rcases hstate with hstate | hstate <;> simp [hstate]
  | progress | goal => exact .inl rfl

/-- What a verified action holds, it holds ever after. -/
theorem Step.record_verified (h : Step run run') (hrecord : run.actions[index]? = some record)
    (hverified : record.state = .verified) : run'.actions[index]? = some record := by
  rcases h.touches with hsame | ⟨id, other, update, hother, hstate, hactions⟩
  · rw [hsame, hrecord]
  · have hne : id.get ≠ index := by
      rintro rfl
      cases hother.symm.trans hrecord
      exact hstate hverified
    rw [hactions, List.getElem?_modify, hrecord]
    simp [hne]

/-- A verified record is still there in a later run. -/
theorem later_record_verified {keys : ContractKeys} (h : Reachable keys run)
    (hrecord : run.actions[index]? = some record) (hverified : record.state = .verified)
    (hlater : Later run run') : run'.runId = run.runId ∧ run'.actions[index]? = some record := by
  induction hlater with
  | refl => exact ⟨rfl, hrecord⟩
  | tail hlater hcall ih =>
      rcases hcall.cases (h.later hlater).wellFormed with rfl | hstep
      · exact ih
      · exact ⟨hstep.frozen.1.trans ih.1, hstep.record_verified ih.2 hverified⟩

end ExecutionRun

section IsOutput

variable {run run' : ExecutionRun} {runId : Uuid} {action : ActionId}
  {observation : ObservationReference}

theorem ExecutionRun.state_eq_ok_record {state : ActionRunState} :
    run.state action = .ok state ↔
      ∃ record, run.actions[action.get]? = some record ∧ record.state = state := by
  rw [ExecutionRun.state]
  cases run.actions[action.get]? with
  | none => simp
  | some record => simp

theorem ExecutionRun.completion_eq_ok_record {completion : Option BackendCompletion} :
    run.completion action = .ok completion ↔
      ∃ record, run.actions[action.get]? = some record ∧ record.completion = completion := by
  rw [ExecutionRun.completion]
  cases run.actions[action.get]? with
  | none => simp
  | some record => simp

/-- An output is the completion of a verified action. -/
theorem isOutput_iff : IsOutput run runId action observation ↔ runId = run.runId ∧
    ∃ record completion, run.actions[action.get]? = some record ∧ record.state = .verified ∧
      record.completion = some completion ∧ completion.observation.reference = observation := by
  constructor
  · rintro ⟨hid, hstate, completion, hcompletion, hreference⟩
    obtain ⟨record, hrecord, hverified⟩ := ExecutionRun.state_eq_ok_record.mp hstate
    obtain ⟨other, hother, hcompleted⟩ := ExecutionRun.completion_eq_ok_record.mp hcompletion
    cases hrecord.symm.trans hother
    exact ⟨hid, record, completion, hrecord, hverified, hcompleted, hreference⟩
  · rintro ⟨hid, record, completion, hrecord, hverified, hcompleted, hreference⟩
    exact ⟨hid, ExecutionRun.state_eq_ok_record.mpr ⟨record, hrecord, hverified⟩, completion,
      ExecutionRun.completion_eq_ok_record.mpr ⟨record, hrecord, hcompleted⟩, hreference⟩

/-- A verified output stays one, whatever the run does afterwards. -/
theorem IsOutput.later {keys : ContractKeys} (h : IsOutput run runId action observation)
    (hrun : Reachable keys run) (hlater : Later run run') :
    IsOutput run' runId action observation := by
  obtain ⟨hid, record, completion, hrecord, hverified, hcompletion⟩ := isOutput_iff.mp h
  obtain ⟨hsame, hrecord'⟩ :=
    ExecutionRun.later_record_verified hrun hrecord hverified hlater
  exact isOutput_iff.mpr
    ⟨hid.trans hsame.symm, record, completion, hrecord', hverified, hcompletion⟩

theorem OutputBindings.isVerifiedOutput_eq_ok {bindings : OutputBindings} :
    bindings.isVerifiedOutput run runId action observation = .ok true ↔
      bindings.runId = run.runId ∧ IsOutput run runId action observation := by
  rw [OutputBindings.isVerifiedOutput]
  constructor
  · intro h
    split at h
    · cases h
    next hids =>
    obtain ⟨hbindings, hid⟩ := not_or.mp hids
    split at h
    · cases h
    next state hstate =>
    split at h
    · cases h
    next hverified =>
    split at h
    · cases h
    next completion hcompletion =>
      rw [Except.ok.injEq, beq_iff_eq, Option.map_eq_some_iff] at h
      obtain ⟨value, rfl, hreference⟩ := h
      rw [not_not.mp hverified] at hstate
      exact ⟨not_not.mp hbindings, not_not.mp hid, hstate, value, hcompletion, hreference⟩
  · rintro ⟨hbindings, hid, hstate, completion, hcompletion, hreference⟩
    rw [if_neg (by simp [hbindings, hid]), hstate]
    simp [hcompletion, hreference]

end IsOutput

/-! ### Recording calls -/

/-- One call that may extend the map. -/
inductive RecordCall where
  | verified (binding : PendingLvBinding)
  | verifiedFilesystem (binding : PendingFilesystemBinding)
  | verifiedMount (action : ActionId)

namespace OutputBindings

/-- What a call returns, in the state its run is in. -/
def record (bindings : OutputBindings) (run : ExecutionRun) :
    RecordCall → Returns BindingError OutputBindings
  | .verified binding => Returns.lift (bindings.recordVerified run binding)
  | .verifiedFilesystem binding => Returns.lift (bindings.recordVerifiedFilesystem run binding)
  | .verifiedMount action => bindings.recordVerifiedMount run action

/-- The map after a call: a refused call changes nothing, and neither does one that panics. -/
def recorded (bindings : OutputBindings) (call : ExecutionRun × RecordCall) : OutputBindings :=
  match bindings.record call.1 call.2 with
  | some (.ok next) => next
  | _ => bindings

/-- The map of the attempt after a sequence of calls. -/
def recordAll (start : ExecutionRun) (calls : List (ExecutionRun × RecordCall)) : OutputBindings :=
  calls.foldl recorded (.new start)

/-! ### The invariant -/

/-- Every entry is a verified output of a run among `runs`; no two outputs share a planned identity
or a UUID; and a filesystem stands on a recorded volume. -/
structure Trusted (runId : Uuid) (runs : List ExecutionRun) (bindings : OutputBindings) :
    Prop where
  attempt : bindings.runId = runId
  lv : ∀ {planned binding}, bindings.entries.lookup planned = some binding →
    binding.planned = planned ∧ binding.runId = runId ∧
      ∃ run ∈ runs, IsOutput run binding.runId binding.action binding.observation
  filesystem : ∀ {planned binding}, bindings.filesystems.lookup planned = some binding →
    binding.planned = planned ∧ binding.runId = runId ∧
      ∃ run ∈ runs, IsOutput run binding.runId binding.action binding.observation
  disjoint : ∀ {planned}, planned ∈ bindings.entries → planned ∉ bindings.filesystems
  lvUuids : ∀ {a b x y}, bindings.entries.lookup a = some x → bindings.entries.lookup b = some y →
    x.uuid = y.uuid → a = b
  filesystemUuids : ∀ {a b x y}, bindings.filesystems.lookup a = some x →
    bindings.filesystems.lookup b = some y → x.uuid = y.uuid → a = b
  backing : ∀ {planned binding}, bindings.filesystems.lookup planned = some binding →
    binding.backing ∈ bindings.entries

section Maps

variable {β : Type} {map : AList fun _ : NodeId => β} {key a : NodeId} {value x : β}

theorem lookup_insert_cases (h : (map.insert key value).lookup a = some x) :
    a = key ∧ x = value ∨ map.lookup a = some x := by
  by_cases hsame : a = key
  · subst hsame
    rw [AList.lookup_insert, Option.some_inj] at h
    exact .inl ⟨rfl, h.symm⟩
  · rw [AList.lookup_insert_ne hsame] at h
    exact .inr h

/-- A text that tells the values of a map apart still does when a value with a new one is added. -/
theorem distinct_insert {text : β → String}
    (h : ∀ {a b x y}, map.lookup a = some x → map.lookup b = some y → text x = text y → a = b)
    (hfresh : ∀ other ∈ map.entries, text other.2 ≠ text value) :
    ∀ {a b x y}, (map.insert key value).lookup a = some x →
      (map.insert key value).lookup b = some y → text x = text y → a = b := by
  intro a b x y hx hy htext
  have hne : ∀ {a x}, map.lookup a = some x → text x ≠ text value :=
    fun hx => hfresh ⟨_, _⟩ (AList.mem_lookup_iff.mp hx)
  rcases lookup_insert_cases hx with ⟨rfl, rfl⟩ | hx'
  · rcases lookup_insert_cases hy with ⟨rfl, -⟩ | hy'
    · rfl
    · exact absurd htext.symm (hne hy')
  · rcases lookup_insert_cases hy with ⟨rfl, rfl⟩ | hy'
    · exact absurd htext (hne hx')
    · exact h hx' hy' htext

end Maps

section Recording

variable {runId : Uuid} {runs : List ExecutionRun} {bindings next : OutputBindings}
  {run : ExecutionRun}

theorem Trusted.new (start : ExecutionRun) : Trusted start.runId [] (.new start) where
  attempt := rfl
  lv h := by simp [OutputBindings.new] at h
  filesystem h := by simp [OutputBindings.new] at h
  disjoint h := absurd h (AList.notMem_empty _)
  lvUuids h := by simp [OutputBindings.new] at h
  filesystemUuids h := by simp [OutputBindings.new] at h
  backing h := by simp [OutputBindings.new] at h

theorem Trusted.mono (h : Trusted runId runs bindings) (run : ExecutionRun) :
    Trusted runId (runs ++ [run]) bindings := by
  refine ⟨h.attempt, fun hlookup => ?_, fun hlookup => ?_, h.disjoint, h.lvUuids, h.filesystemUuids,
    h.backing⟩
  · obtain ⟨hplanned, hid, other, hmem, houtput⟩ := h.lv hlookup
    exact ⟨hplanned, hid, other, List.mem_append_left _ hmem, houtput⟩
  · obtain ⟨hplanned, hid, other, hmem, houtput⟩ := h.filesystem hlookup
    exact ⟨hplanned, hid, other, List.mem_append_left _ hmem, houtput⟩

/-- A volume that is recorded has passed every check. -/
theorem recordVerified_eq_ok {binding : PendingLvBinding} :
    bindings.recordVerified run binding = .ok next ↔
      (bindings.runId = run.runId ∧
        IsOutput run binding.runId binding.action binding.observation) ∧
      binding.planned ∉ bindings.entries ∧ binding.planned ∉ bindings.filesystems ∧
      (∀ other ∈ bindings.entries.entries, other.2.uuid ≠ binding.uuid) ∧
      next = { bindings with entries := bindings.entries.insert binding.planned binding } := by
  rw [recordVerified, except_bind_eq_ok]
  constructor
  · rintro ⟨verified, hverified, h⟩
    split at h
    · cases h
    next hcheck =>
      cases h
      simp only [Bool.not_eq_true, Bool.or_eq_false_iff, Bool.not_eq_false', List.any_eq_false,
        beq_iff_eq, Option.isSome_eq_false_iff, Option.isNone_iff_eq_none,
        AList.lookup_eq_none] at hcheck
      obtain ⟨⟨⟨rfl, hlv⟩, hfs⟩, huuid⟩ := hcheck
      exact ⟨isVerifiedOutput_eq_ok.mp hverified, hlv, hfs, huuid, rfl⟩
  · rintro ⟨hverified, hlv, hfs, huuid, rfl⟩
    refine ⟨true, isVerifiedOutput_eq_ok.mpr hverified, if_neg ?_⟩
    have hany : bindings.entries.entries.any (fun other => other.2.uuid == binding.uuid) = false :=
      List.any_eq_false.mpr fun other hother => by simp [huuid other hother]
    simp [AList.lookup_eq_none.mpr hlv, AList.lookup_eq_none.mpr hfs, hany]

/-- A filesystem that is recorded has passed every check, and its volume is recorded. -/
theorem recordVerifiedFilesystem_eq_ok {binding : PendingFilesystemBinding} :
    bindings.recordVerifiedFilesystem run binding = .ok next ↔
      (bindings.runId = run.runId ∧
        IsOutput run binding.runId binding.action binding.observation) ∧
      binding.backing ∈ bindings.entries ∧
      binding.planned ∉ bindings.entries ∧ binding.planned ∉ bindings.filesystems ∧
      (∀ other ∈ bindings.filesystems.entries, other.2.uuid ≠ binding.uuid) ∧
      next = { bindings with
        filesystems := bindings.filesystems.insert binding.planned binding } := by
  rw [recordVerifiedFilesystem, except_bind_eq_ok]
  constructor
  · rintro ⟨verified, hverified, h⟩
    split at h
    · cases h
    next hcheck =>
      cases h
      simp only [Bool.not_eq_true, Bool.or_eq_false_iff, Bool.not_eq_false', List.any_eq_false,
        beq_iff_eq, Option.isSome_eq_false_iff, Option.isNone_eq_false_iff,
        Option.isNone_iff_eq_none, AList.lookup_eq_none, AList.lookup_isSome] at hcheck
      obtain ⟨⟨⟨⟨rfl, hbacking⟩, hlv⟩, hfs⟩, huuid⟩ := hcheck
      exact ⟨isVerifiedOutput_eq_ok.mp hverified, hbacking, hlv, hfs, huuid, rfl⟩
  · rintro ⟨hverified, hbacking, hlv, hfs, huuid, rfl⟩
    refine ⟨true, isVerifiedOutput_eq_ok.mpr hverified, if_neg ?_⟩
    have hsome : (bindings.entries.lookup binding.backing).isNone = false :=
      Option.isNone_eq_false_iff.mpr (AList.lookup_isSome.mpr hbacking)
    have hany : bindings.filesystems.entries.any (fun other => other.2.uuid == binding.uuid) =
        false :=
      List.any_eq_false.mpr fun other hother => by simp [huuid other hother]
    simp [hsome, AList.lookup_eq_none.mpr hlv, AList.lookup_eq_none.mpr hfs, hany]

/-- A mount that is recorded changes no other output. -/
theorem recordVerifiedMount_outputs {action : ActionId}
    (h : bindings.recordVerifiedMount run action = pure next) :
    ∃ mounts, next = { bindings with mounts } := by
  rw [recordVerifiedMount] at h
  split at h
  · cases h
  split at h
  · cases h
  split at h
  · cases h
  split at h
  · cases h
  split at h
  · exact ⟨_, (Returns.pure_inj.mp h).symm⟩
  · cases h

theorem Trusted.recordLv {binding : PendingLvBinding} (h : Trusted runId runs bindings)
    (hrecord : bindings.recordVerified run binding = .ok next) :
    Trusted runId (runs ++ [run]) next := by
  obtain ⟨⟨hid, houtput⟩, hlv, hfs, huuid, rfl⟩ := recordVerified_eq_ok.mp hrecord
  have hbase := h.mono run
  refine ⟨h.attempt, fun hfound => ?_, hbase.filesystem, fun hmem => ?_,
    distinct_insert h.lvUuids huuid, h.filesystemUuids, fun hfound =>
      AList.mem_insert _ |>.mpr (.inr (h.backing hfound))⟩
  · rcases lookup_insert_cases hfound with ⟨rfl, rfl⟩ | hold
    · exact ⟨rfl, houtput.runId.trans (hid.symm.trans h.attempt), run, by simp, houtput⟩
    · exact hbase.lv hold
  · rcases AList.mem_insert _ |>.mp hmem with rfl | hold
    · exact hfs
    · exact h.disjoint hold

theorem Trusted.recordFilesystem {binding : PendingFilesystemBinding}
    (h : Trusted runId runs bindings)
    (hrecord : bindings.recordVerifiedFilesystem run binding = .ok next) :
    Trusted runId (runs ++ [run]) next := by
  obtain ⟨⟨hid, houtput⟩, hbacking, hlv, hfs, huuid, rfl⟩ :=
    recordVerifiedFilesystem_eq_ok.mp hrecord
  have hbase := h.mono run
  refine ⟨h.attempt, hbase.lv, fun hfound => ?_, fun hmem hmem' => ?_, h.lvUuids,
    distinct_insert h.filesystemUuids huuid, fun hfound => ?_⟩
  · rcases lookup_insert_cases hfound with ⟨rfl, rfl⟩ | hold
    · exact ⟨rfl, houtput.runId.trans (hid.symm.trans h.attempt), run, by simp, houtput⟩
    · exact hbase.filesystem hold
  · rcases AList.mem_insert _ |>.mp hmem' with rfl | hold
    · exact hlv hmem
    · exact h.disjoint hmem hold
  · rcases lookup_insert_cases hfound with ⟨rfl, rfl⟩ | hold
    · exact hbacking
    · exact h.backing hold

/-- A call keeps the invariant, whether it is refused or not. -/
theorem Trusted.call (h : Trusted runId runs bindings) (call : RecordCall) :
    Trusted runId (runs ++ [run]) (bindings.recorded (run, call)) := by
  rw [recorded]
  split
  next next hnext =>
    cases call with
    | verified binding => exact h.recordLv (Returns.lift_eq_pure.mp hnext)
    | verifiedFilesystem binding => exact h.recordFilesystem (Returns.lift_eq_pure.mp hnext)
    | verifiedMount action =>
        obtain ⟨mounts, rfl⟩ := recordVerifiedMount_outputs hnext
        have hbase := h.mono run
        exact ⟨h.attempt, hbase.lv, hbase.filesystem, h.disjoint, h.lvUuids, h.filesystemUuids,
          h.backing⟩
  · exact h.mono run

theorem Trusted.calls (h : Trusted runId runs bindings) (calls : List (ExecutionRun × RecordCall)) :
    Trusted runId (runs ++ calls.map Prod.fst) (calls.foldl recorded bindings) := by
  induction calls generalizing runs bindings with
  | nil => simpa using h
  | cons call rest ih => simpa using ih (h.call call.2)

/-- The invariant of every map that is ever built. -/
theorem trusted_recordAll (start : ExecutionRun) (calls : List (ExecutionRun × RecordCall)) :
    Trusted start.runId (calls.map Prod.fst) (recordAll start calls) :=
  (Trusted.new start).calls calls

end Recording

/-! ### Resolving -/

section Resolving

variable {runId : Uuid} {runs : List ExecutionRun} {bindings : OutputBindings}
  {run : ExecutionRun} {observed : LiveObservation} {planned id backing : NodeId}

/-- The planned output is recorded under this identity, with this specification. -/
inductive Records (bindings : OutputBindings) (planned : NodeId) :
    ExternalId → NodeSpec → Prop where
  | lv {binding : PendingLvBinding} (h : bindings.entries.lookup planned = some binding) :
      Records bindings planned (.lvmLvUuid binding.uuid) binding.spec
  | filesystem {binding : PendingFilesystemBinding}
      (h : bindings.filesystems.lookup planned = some binding) :
      Records bindings planned (.filesystem "ext4" binding.uuid) binding.spec

/-- The node is present, is all that carries the identity, carries no other of its kind, and has the
specification. -/
structure CarriesAlone (graph : NodeGraph) (identity : ExternalId) (spec : NodeSpec) (id : NodeId)
    (node : Node) : Prop where
  sole : graph.SoleCarrier identity id node
  alone : node.countLike identity = 1
  present : node.size.presence = .present
  spec : node.kind = spec

/-- A resolved volume carries its UUID alone. -/
theorem resolveLv_eq_ok {binding : PendingLvBinding} (h : resolveLv binding observed = .ok id) :
    ∃ node, CarriesAlone observed.snapshot.graph (.lvmLvUuid binding.uuid) binding.spec id node ∧
      node.kind.kind.isLvmLv := by
  rw [resolveLv, except_bind_eq_ok] at h
  obtain ⟨-, -, h⟩ := h
  split at h
  · cases h
  obtain ⟨found, hfound, h⟩ := except_bind_eq_ok.mp h
  split at h
  next hspec =>
    cases h
    obtain ⟨-, node, hcarriers, hpresent, hisLv, halone, -⟩ := findLv_eq_ok.mp hfound
    have hsole := carriers_eq_singleton.mp hcarriers
    refine ⟨node, ⟨hsole, halone, hpresent, ?_⟩, hisLv⟩
    simpa [hasSpec, hsole.found] using hspec
  · cases h

/-- A resolved filesystem carries its UUID alone. -/
theorem resolveFilesystem_eq_ok {binding : PendingFilesystemBinding}
    (h : resolveFilesystem binding observed backing = .ok id) :
    ∃ node, CarriesAlone observed.snapshot.graph
      (.filesystem "ext4" binding.uuid) binding.spec id node ∧
      node.kind.kind.isLvmLv = false := by
  rw [resolveFilesystem] at h
  split at h
  next label hkind =>
    split at h
    · cases h
    next found hfound =>
    split at h
    next hspec =>
      cases h
      obtain ⟨-, -, -, node, hcarriers, hpresent, hnode, halone, -⟩ :=
        observeExt4_eq_some.mp hfound
      have hsole := carriers_eq_singleton.mp hcarriers
      refine ⟨node, ⟨hsole, halone, hpresent, ?_⟩, by rw [hnode]; rfl⟩
      simpa [hasSpec, hsole.found] using hspec
    · cases h
  · cases h

/-- A node has one identity of the kind of the one it is recorded under. -/
theorem CarriesAlone.identity_eq {graph : NodeGraph} {identity other : ExternalId} {spec : NodeSpec}
    {node : Node} (h : CarriesAlone graph identity spec id node)
    (hother : other ∈ node.size.identities)
    (hkind : other.discriminant = identity.discriminant) : other = identity := by
  have halone := h.alone
  rw [Node.countLike, List.countP_eq_length_filter, List.length_eq_one_iff] at halone
  obtain ⟨only, honly⟩ := halone
  have hmem : ∀ value ∈ node.size.identities, value.discriminant = identity.discriminant →
      value = only := by
    intro value hvalue hsame
    rw [← List.mem_singleton, ← honly, List.mem_filter]
    exact ⟨hvalue, by simpa using hsame⟩
  rw [hmem other hother hkind, hmem identity h.sole.carries rfl]

/-- One step of the recursion at a recorded volume. -/
theorem Trusted.resolveIn_lv (h : Trusted runId runs bindings) {binding : PendingLvBinding}
    (hlv : bindings.entries.lookup planned = some binding) (fuel : Nat) :
    resolveIn bindings observed (fuel + 1) planned = Returns.lift (resolveLv binding observed) := by
  have hmem : planned ∈ bindings.entries := AList.lookup_isSome.mp (by simp [hlv])
  rw [resolveIn, AList.lookup_eq_none.mpr (h.disjoint hmem), hlv]

/-- A filesystem stands on a recorded volume, so the recursion is two steps deep. -/
theorem Trusted.resolveIn_filesystem (h : Trusted runId runs bindings)
    {binding : PendingFilesystemBinding}
    (hfs : bindings.filesystems.lookup planned = some binding) (fuel : Nat) :
    ∃ volume, bindings.entries.lookup binding.backing = some volume ∧
      resolveIn bindings observed (fuel + 2) planned = (do
        Returns.lift (validated observed)
        if !isLater observed binding.observation then throw .identity
        else
          let backing ← Returns.lift (resolveLv volume observed)
          Returns.lift (resolveFilesystem binding observed backing)) := by
  obtain ⟨volume, hvolume⟩ := Option.isSome_iff_exists.mp (AList.lookup_isSome.mpr (h.backing hfs))
  refine ⟨volume, hvolume, ?_⟩
  rw [resolveIn, hfs]
  simp only [h.resolveIn_lv hvolume]

/-- `resolve` ends, whatever it is asked for. -/
theorem Trusted.resolve_returns (h : Trusted runId runs bindings) (run : ExecutionRun)
    (planned : NodeId) (observed : LiveObservation) :
    ∃ result, bindings.resolve run planned observed = Returns.lift result := by
  rw [resolve]
  split
  · exact ⟨.error .notVerified, rfl⟩
  cases hfs : bindings.filesystems.lookup planned with
  | none =>
      rw [resolveIn, hfs]
      cases bindings.entries.lookup planned with
      | none => exact ⟨.error .notVerified, rfl⟩
      | some binding => exact ⟨_, rfl⟩
  | some binding =>
      -- One filesystem at least, so there is fuel for it and for the volume below it.
      obtain ⟨fuel, hfuel⟩ : ∃ fuel, bindings.filesystems.entries.length = fuel + 1 :=
        Nat.exists_eq_succ_of_ne_zero fun hzero => by
          have hmem := AList.mem_lookup_iff.mp hfs
          rw [List.length_eq_zero_iff.mp hzero] at hmem
          cases hmem
      obtain ⟨volume, -, hresolve⟩ :=
        h.resolveIn_filesystem hfs fuel
      rw [hfuel, hresolve]
      refine Returns.exists_bind ⟨_, rfl⟩ fun _ _ => ?_
      split
      · exact ⟨.error .identity, rfl⟩
      · exact Returns.exists_bind ⟨_, rfl⟩ fun _ _ => ⟨_, rfl⟩

/-- What is resolved carries the recorded identity, and has the recorded specification. -/
theorem Trusted.resolve_eq_pure (h : Trusted runId runs bindings)
    (hresolve : bindings.resolve run planned observed = pure id) :
    ∃ identity spec node, Records bindings planned identity spec ∧
      bindings.identityOf planned = .ok identity ∧
      CarriesAlone observed.snapshot.graph identity spec id node ∧
      (node.kind.kind.isLvmLv ↔ planned ∈ bindings.entries) := by
  rw [resolve] at hresolve
  split at hresolve
  · cases hresolve
  cases hlv : bindings.entries.lookup planned with
  | some binding =>
      rw [h.resolveIn_lv hlv, Returns.lift_eq_pure] at hresolve
      obtain ⟨node, hcarries, hisLv⟩ := resolveLv_eq_ok hresolve
      refine ⟨_, _, node, .lv hlv, by rw [identityOf, hlv], hcarries, iff_of_true hisLv ?_⟩
      exact AList.lookup_isSome.mp (by simp [hlv])
  | none =>
      have hnot : planned ∉ bindings.entries := AList.lookup_eq_none.mp hlv
      cases hfs : bindings.filesystems.lookup planned with
      | none =>
          rw [resolveIn, hfs, hlv] at hresolve
          cases hresolve
      | some binding =>
          rw [resolveIn, hfs] at hresolve
          obtain ⟨-, -, hresolve⟩ := Returns.bind_eq_pure.mp hresolve
          split at hresolve
          · cases hresolve
          obtain ⟨backing, -, hresolve⟩ := Returns.bind_eq_pure.mp hresolve
          obtain ⟨node, hcarries, hisLv⟩ :=
            resolveFilesystem_eq_ok (Returns.lift_eq_pure.mp hresolve)
          refine ⟨_, _, node, .filesystem hfs, by rw [identityOf, hlv, hfs], hcarries, ?_⟩
          exact iff_of_false (by simp [hisLv]) hnot

/-- The correlation finds a recorded output: its node, under its identity. -/
structure Found (bindings : OutputBindings) (graph : NodeGraph) (found : NodeCorrelation)
    (spec : NodeSpec) (node : Node) : Prop where
  records : Records bindings found.source found.identity spec
  carries : CarriesAlone graph found.identity spec found.target node
  volume : node.kind.kind.isLvmLv ↔ found.source ∈ bindings.entries

/-- The correlations are those of the bindings. -/
theorem Trusted.correlations_eq_pure (h : Trusted runId runs bindings)
    {found : List NodeCorrelation} (hfound : bindings.correlations run observed = pure found) :
    found.map (·.source) = bindings.entries.keys ++ bindings.filesystems.keys ∧
      ∀ item ∈ found, ∃ spec node, Found bindings observed.snapshot.graph item spec node := by
  rw [correlations] at hfound
  split at hfound
  · cases hfound
  have hall : List.Forall₂ (fun planned (item : NodeCorrelation) => item.source = planned ∧
      ∃ spec node, Found bindings observed.snapshot.graph item spec node)
      (bindings.entries.keys ++ bindings.filesystems.keys) found := by
    refine (Returns.mapM_eq_pure.mp hfound).imp fun planned item hitem => ?_
    obtain ⟨identity, hidentity, hitem⟩ := Returns.bind_eq_pure.mp hitem
    obtain ⟨target, htarget, hitem⟩ := Returns.bind_eq_pure.mp hitem
    obtain rfl := Returns.pure_inj.mp hitem
    obtain ⟨identity', spec, node, hrecords, hsame, hcarries, hvolume⟩ :=
      h.resolve_eq_pure htarget
    cases (Returns.lift_eq_pure.mp hidentity).symm.trans hsame
    exact ⟨rfl, spec, node, hrecords, hcarries, hvolume⟩
  constructor
  · have hsources := hall.imp fun _ _ hitem => hitem.1.symm
    rw [← List.forall₂_map_right_iff, List.forall₂_eq_eq_eq] at hsources
    exact hsources.symm
  · intro item hitem
    obtain ⟨planned, -, -, hitem⟩ := Support.exists_of_forall₂ hall hitem
    exact hitem

theorem mem_of_lookup {β : Type} {map : AList fun _ : NodeId => β} {value : β}
    (h : map.lookup planned = some value) : planned ∈ map :=
  AList.lookup_isSome.mp (by simp [h])

/-- Two outputs of one kind whose identities do not differ are one output. -/
theorem Trusted.records_inj (h : Trusted runId runs bindings) {other : NodeId}
    {identity identity' : ExternalId} {spec spec' : NodeSpec}
    (hfirst : Records bindings planned identity spec)
    (hsecond : Records bindings other identity' spec')
    (hkind : planned ∈ bindings.entries ↔ other ∈ bindings.entries)
    (hsame : identity'.discriminant = identity.discriminant → identity' = identity) :
    planned = other := by
  cases hfirst with
  | lv hx =>
      cases hsecond with
      | lv hy => exact h.lvUuids hx hy (ExternalId.lvmLvUuid.inj (hsame rfl)).symm
      | filesystem hy =>
          exact absurd (mem_of_lookup hy) (h.disjoint (hkind.mp (mem_of_lookup hx)))
  | filesystem hx =>
      cases hsecond with
      | lv hy => exact absurd (mem_of_lookup hx) (h.disjoint (hkind.mpr (mem_of_lookup hy)))
      | filesystem hy =>
          exact h.filesystemUuids hx hy (ExternalId.filesystem.inj (hsame rfl)).2.symm

/-- Outputs that are found at one node are one output. -/
theorem Trusted.source_eq (h : Trusted runId runs bindings) {graph : NodeGraph}
    {first second : NodeCorrelation} {spec spec' : NodeSpec} {node node' : Node}
    (hfirst : Found bindings graph first spec node)
    (hsecond : Found bindings graph second spec' node')
    (htarget : first.target = second.target) : first.source = second.source := by
  have hnode := hsecond.carries.sole.found
  rw [← htarget, hfirst.carries.sole.found] at hnode
  cases hnode
  exact h.records_inj hfirst.records hsecond.records (hfirst.volume.symm.trans hsecond.volume)
    (hfirst.carries.identity_eq hsecond.carries.sole.carries)

/-- The keys of the two maps are different identities. -/
theorem Trusted.nodup_planned (h : Trusted runId runs bindings) :
    (bindings.entries.keys ++ bindings.filesystems.keys).Nodup :=
  List.nodup_append'.mpr ⟨bindings.entries.keys_nodup, bindings.filesystems.keys_nodup,
    fun _ hlv hfs => h.disjoint (AList.mem_keys.mpr hlv) (AList.mem_keys.mpr hfs)⟩

theorem Trusted.nodup_targets (h : Trusted runId runs bindings) {found : List NodeCorrelation}
    (hfound : bindings.correlations run observed = pure found) : (found.map (·.target)).Nodup := by
  obtain ⟨hsources, hall⟩ := h.correlations_eq_pure hfound
  have hnodup : (found.map (·.source)).Nodup := hsources ▸ h.nodup_planned
  refine List.Nodup.map_on (fun first hfirst second hsecond htarget => ?_) hnodup.of_map
  obtain ⟨spec, node, hfirst'⟩ := hall first hfirst
  obtain ⟨spec', node', hsecond'⟩ := hall second hsecond
  exact List.inj_on_of_nodup_map hnodup hfirst hsecond (h.source_eq hfirst' hsecond' htarget)

end Resolving

end OutputBindings

open OutputBindings in
/-- **Output bindings are trustworthy.**  Whatever candidates are offered, in whatever states of the
run, every recorded volume or filesystem is an output of this attempt: its action was verified with
exactly the completion it names, and in a run that only went on since then it still is.  No two
outputs share a planned identity or a UUID, and every filesystem stands on a recorded volume.
Resolving any output returns; and the outputs that are correlated with an observation are different
nodes, each present, with the recorded specification, and the only carrier of its identity. -/
theorem output_bindings_trustworthy (start : ExecutionRun)
    (calls : List (ExecutionRun × RecordCall)) :
    Trusted start.runId (calls.map Prod.fst) (recordAll start calls) ∧
    (∀ keys last, (∀ call ∈ calls, Reachable keys call.1 ∧ Later call.1 last) →
      (∀ planned binding, (recordAll start calls).entries.lookup planned = some binding →
        IsOutput last start.runId binding.action binding.observation) ∧
      (∀ planned binding, (recordAll start calls).filesystems.lookup planned = some binding →
        IsOutput last start.runId binding.action binding.observation)) ∧
    (∀ run planned observed, ∃ result,
      (recordAll start calls).resolve run planned observed = Returns.lift result) ∧
    ∀ run observed found, (recordAll start calls).correlations run observed = pure found →
      (found.map (·.target)).Nodup ∧
      ∀ item ∈ found, ∃ spec node, Records (recordAll start calls) item.source item.identity spec ∧
        CarriesAlone observed.snapshot.graph item.identity spec item.target node := by
  have htrusted := trusted_recordAll start calls
  refine ⟨htrusted, fun keys last hruns => ?_, htrusted.resolve_returns, fun run observed found h =>
    ⟨htrusted.nodup_targets h, fun item hitem => ?_⟩⟩
  · have hlast : ∀ {action observation runId}, runId = start.runId →
        (∃ run ∈ calls.map Prod.fst, IsOutput run runId action observation) →
        IsOutput last start.runId action observation := by
      rintro action observation runId rfl ⟨run, hmem, houtput⟩
      obtain ⟨call, hcall, rfl⟩ := List.mem_map.mp hmem
      exact houtput.later (hruns call hcall).1 (hruns call hcall).2
    constructor
    · intro planned binding hlookup
      obtain ⟨-, hid, houtput⟩ := htrusted.lv hlookup
      exact hlast hid houtput
    · intro planned binding hlookup
      obtain ⟨-, hid, houtput⟩ := htrusted.filesystem hlookup
      exact hlast hid houtput
  · obtain ⟨spec, node, hfound⟩ := (htrusted.correlations_eq_pure h).2 item hitem
    exact ⟨spec, node, hfound.records, hfound.carries⟩

/-- A volume offered as the output of the verified action. -/
def boundLv : PendingLvBinding where
  runId := 7#128
  action := ⟨0⟩
  observation := ⟨9#128, 2⟩
  planned := ⟨4#128⟩
  uuid := "lv-uuid"
  vgUuid := "vg-uuid"
  spec := ⟨.lvmLv ⟨"data", .linear⟩, some 4096⟩

/-- A filesystem on that volume. -/
def boundFilesystem : PendingFilesystemBinding where
  runId := 7#128
  action := ⟨0⟩
  observation := ⟨9#128, 2⟩
  planned := ⟨5#128⟩
  uuid := "0ba1a5c1-7e2f-4c1d-9d5b-2f4c3a6b7c8d"
  backing := ⟨4#128⟩
  spec := ⟨.filesystem .ext4 (some "home"), some 4096⟩

/-- A later publication with the volume and the filesystem on it. -/
def boundLater : LiveObservation :=
  let live := liveLater "vg-uuid" 4096 true
  { live with snapshot := { live.snapshot with
      graph := (live.snapshot.graph.setNode ⟨13#128⟩
        ⟨boundFilesystem.spec,
          { presence := .present, identities := [.filesystem "ext4" boundFilesystem.uuid] }⟩
        ).insertDependency ⟨⟨12#128⟩, ⟨13#128⟩, .backs⟩ } }

/-- The filesystem is offered before its volume, and both once more. -/
def boundCalls : List (ExecutionRun × RecordCall) :=
  [(sampleVerified, .verifiedFilesystem boundFilesystem), (sampleVerified, .verified boundLv),
    (sampleVerified, .verifiedFilesystem boundFilesystem), (sampleVerified, .verified boundLv),
    (sampleVerified, .verifiedFilesystem { boundFilesystem with planned := ⟨6#128⟩ })]

open OutputBindings in
/-- Both are recorded once, and found in a later observation under other identities. -/
theorem output_bindings_trustworthy_ext4 :
    ∃ found : List NodeCorrelation,
      (recordAll sampleVerified boundCalls).correlations sampleVerified boundLater = pure found ∧
      found.map (·.target) = [⟨12#128⟩, ⟨13#128⟩] ∧ (found.map (·.target)).Nodup ∧
      IsOutput sampleVerified 7#128 boundFilesystem.action boundFilesystem.observation := by
  obtain ⟨found, hfound, htargets⟩ : ∃ found : List NodeCorrelation,
      (recordAll sampleVerified boundCalls).correlations sampleVerified boundLater = pure found ∧
      found.map (·.target) = [⟨12#128⟩, ⟨13#128⟩] := ⟨_, rfl, by decide +kernel⟩
  obtain ⟨-, houtputs, -, hcorrelations⟩ := output_bindings_trustworthy sampleVerified boundCalls
  refine ⟨found, hfound, htargets, (hcorrelations _ _ _ hfound).1, ?_⟩
  have hrecorded : (recordAll sampleVerified boundCalls).filesystems.lookup ⟨5#128⟩ =
      some boundFilesystem := rfl
  refine (houtputs sampleKeys sampleVerified (fun call hcall => ?_)).2 ⟨5#128⟩ _ hrecorded
  have hrun : call.1 = sampleVerified := by
    simp only [boundCalls, List.mem_cons, List.not_mem_nil, or_false] at hcall
    rcases hcall with rfl | rfl | rfl | rfl | rfl <;> rfl
  rw [hrun]
  exact ⟨reachable_sampleVerified, .refl⟩

end DisksGraph
