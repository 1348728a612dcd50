import DisksGraph.Engine.Correlate
import DisksGraph.Engine.Wire
import DisksGraph.Probe.Records
import DisksGraph.Support.Folds

/-!
# Engine — Capacity

Allocation records of one probe pass become capacity evidence (`observe.rs`).

* `HistoricalBaseline.fromLvmObservations`: a record that cannot be bound to its node uniquely and
  exactly stays unknown, with a diagnostic.
* `Exact`: what a capacity evidence says of its record, of the node and of everything else.
* `capacity_evidence_exact`: every record has one verdict, every evidence is exact, and the ledger
  of a simulation accepts them.
-/

namespace DisksGraph

open Support (filter_eq_of_countP_one)

/-! ### Binding a record -/

namespace LvmVgObservation

variable (observation : LvmVgObservation)

/-- The observed node is the present group with the name and the geometry of the record, and with
one group UUID. -/
def matchedNode (graph : NodeGraph) : Bool :=
  (graph.node observation.node).any fun node =>
    (match node.kind.kind with
      | .lvmVg name (some extent) =>
          name == observation.vg.name && extent == observation.vg.extentSize
      | _ => false) &&
    node.kind.size.any (· == observation.vg.size) &&
    node.size.presence == .present &&
    (node.size.identities.filter (·.isLvmVgUuid)).length == 1

/-- The byte counts are whole extents. -/
def isExact : Bool :=
  observation.vg.extentSize != 0 && observation.vg.free ≤ observation.vg.size &&
    observation.vg.free % observation.vg.extentSize == 0 &&
    observation.vg.size % observation.vg.extentSize == 0

/-- The nodes that carry a group UUID, one entry for each identity. -/
def ownersOf (graph : NodeGraph) (uuid : String) : List NodeId :=
  graph.nodeList.flatMap fun entry =>
    (entry.2.size.identities.filter (· = .lvmVgUuid uuid)).map fun _ => entry.1

/-- No other record has the node or the UUID, and no other node carries the UUID. -/
def isUnique (graph : NodeGraph) (observations : List LvmVgObservation) : Bool :=
  observations.countP (·.node = observation.node) == 1 &&
    observations.countP (·.vg.uuid = observation.vg.uuid) == 1 &&
    ownersOf graph observation.vg.uuid == [observation.node]

/-- The record becomes capacity evidence. -/
def isBound (graph : NodeGraph) (observations : List LvmVgObservation) : Bool :=
  observation.matchedNode graph && observation.isExact &&
    observation.isUnique graph observations && !observation.vg.exported &&
    isTrimmedText observation.vg.uuid

/-- The free extents of one observed volume group. -/
def capacity : CapacityEvidence where
  domain := .lvmVolumeGroup observation.node
  available := observation.vg.free / observation.vg.extentSize

/-- `debug` is `format!("{:?}")` of a text. -/
def unknownCapacity (debug : String → String) : Diagnostic where
  code := "baseline.lvm_capacity_unknown"
  severity := .missingInformation
  subjects := [.node observation.node]
  message := "LVM capacity cannot be bound uniquely and exactly to this observed VG"
  evidence := some ("uuid=" ++ debug observation.vg.uuid ++
    ", size=" ++ toString observation.vg.size ++ ", free=" ++ toString observation.vg.free ++
    ", extent_size=" ++ toString observation.vg.extentSize ++
    ", exported=" ++ toString observation.vg.exported)
  suggestedRemedy := some
    "repeat the complete probe; inspect VG identity and extent measurements"

/-- One round of the loop over the records. -/
def verdict (debug : String → String) (graph : NodeGraph)
    (observations : List LvmVgObservation) : CapacityEvidence ⊕ Diagnostic :=
  if observation.isBound graph observations then .inl observation.capacity
  else .inr (observation.unknownCapacity debug)

end LvmVgObservation

/-- Binds a consumed probe state and its same-pass records to a fresh historical context.  `id` is
the identity `Uuid::now_v7` would draw. -/
def HistoricalBaseline.fromLvmObservations (debug : String → String) (id : Uuid)
    (snapshot : CurrentState) (observations : List LvmVgObservation) :
    Except PlanSimulationError HistoricalBaseline :=
  match snapshot.graph.validateStructure with
  | .error error => .error (.structure error)
  | .ok () =>
      let verdicts := observations.map (·.verdict debug snapshot.graph observations)
      .ok {
        id
        snapshot := { snapshot with
          diagnostics := snapshot.diagnostics ++ verdicts.filterMap Sum.getRight? }
        capacityEvidence := verdicts.filterMap Sum.getLeft? }

/-! ### Exact evidence -/

/-- The evidence measures the group of its record, and nothing else has the record's identity. -/
structure Exact (graph : NodeGraph) (observations : List LvmVgObservation)
    (observation : LvmVgObservation) (evidence : CapacityEvidence) : Prop where
  domain : evidence.domain = .lvmVolumeGroup observation.node
  group : ∃ node, graph.node observation.node = some node ∧
    node.kind = ⟨.lvmVg observation.vg.name (some observation.vg.extentSize),
      some observation.vg.size⟩ ∧
    node.size.presence = .present ∧
    node.size.identities.filter (·.isLvmVgUuid) = [.lvmVgUuid observation.vg.uuid]
  onlyNode : ∀ id node, graph.node id = some node →
    ExternalId.lvmVgUuid observation.vg.uuid ∈ node.size.identities → id = observation.node
  onlyRecord : observations.filter (·.vg.uuid = observation.vg.uuid) = [observation]
  free : evidence.available * observation.vg.extentSize = observation.vg.free
  bounded : observation.vg.free ≤ observation.vg.size

/-- What is said of one record: exact evidence, or that its capacity is unknown. -/
inductive Judged (graph : NodeGraph) (observations : List LvmVgObservation)
    (observation : LvmVgObservation) : CapacityEvidence ⊕ Diagnostic → Prop where
  | exact {evidence : CapacityEvidence} (h : Exact graph observations observation evidence) :
      Judged graph observations observation (.inl evidence)
  | unknown {diagnostic : Diagnostic} (hcode : diagnostic.code = "baseline.lvm_capacity_unknown")
      (hsubject : diagnostic.subjects = [.node observation.node]) :
      Judged graph observations observation (.inr diagnostic)

section Exact

variable {graph : NodeGraph} {observations : List LvmVgObservation}
  {observation : LvmVgObservation}

theorem mem_ownersOf {uuid : String} {id : NodeId} :
    id ∈ LvmVgObservation.ownersOf graph uuid ↔
      ∃ node, graph.node id = some node ∧ .lvmVgUuid uuid ∈ node.size.identities := by
  simp only [LvmVgObservation.ownersOf, List.mem_flatMap, List.mem_map, List.mem_filter,
    Prod.exists, NodeGraph.mem_nodeList, decide_eq_true_eq]
  constructor
  · rintro ⟨id', node, hnode, identity, ⟨hidentity, rfl⟩, rfl⟩
    exact ⟨node, hnode, hidentity⟩
  · rintro ⟨node, hnode, hidentity⟩
    exact ⟨id, node, hnode, _, ⟨hidentity, rfl⟩, rfl⟩

/-- A matched record is the group of its node, when the node carries the UUID of the record. -/
theorem LvmVgObservation.matchedNode_spec (h : observation.matchedNode graph = true)
    (howners : ownersOf graph observation.vg.uuid = [observation.node]) :
    ∃ node, graph.node observation.node = some node ∧
      node.kind = ⟨.lvmVg observation.vg.name (some observation.vg.extentSize),
        some observation.vg.size⟩ ∧
      node.size.presence = .present ∧
      node.size.identities.filter (·.isLvmVgUuid) = [.lvmVgUuid observation.vg.uuid] := by
  obtain ⟨node, hnode, hcarries⟩ :=
    mem_ownersOf.mp (howners ▸ List.mem_singleton_self observation.node)
  rw [matchedNode, hnode, Option.any_some] at h
  simp only [Bool.and_eq_true, beq_iff_eq] at h
  obtain ⟨⟨⟨hkind, hsize⟩, hpresence⟩, hone⟩ := h
  refine ⟨node, hnode, ?_, hpresence, ?_⟩
  · obtain ⟨⟨kind, size⟩, facts⟩ := node
    obtain ⟨found, rfl, hfound⟩ := (Option.any_eq_true _ _).mp hsize
    obtain rfl := beq_iff_eq.mp hfound
    split at hkind
    next name extent hname =>
      rw [Bool.and_eq_true, beq_iff_eq, beq_iff_eq] at hkind
      obtain ⟨rfl, rfl⟩ := hkind
      dsimp only at hname
      rw [hname]
    next => cases hkind
  · -- The one group UUID of the node is the one the record was found by.
    rw [← List.countP_eq_length_filter] at hone
    exact filter_eq_of_countP_one hone hcarries rfl

/-- A bound record gives exact evidence. -/
theorem LvmVgObservation.exact_of_isBound (hmem : observation ∈ observations)
    (h : observation.isBound graph observations = true) :
    Exact graph observations observation observation.capacity := by
  simp only [isBound, isExact, isUnique, Bool.and_eq_true, bne_iff_ne, ne_eq, beq_iff_eq,
    decide_eq_true_eq] at h
  obtain ⟨⟨⟨⟨hmatched, ⟨⟨hpositive, hbounded⟩, hfree⟩, -⟩, ⟨-, huuid⟩, howners⟩, -⟩, -⟩ := h
  refine ⟨rfl, matchedNode_spec hmatched howners, ?_, ?_, ?_, hbounded⟩
  · intro id node hnode hcarries
    have hid := mem_ownersOf.mpr ⟨node, hnode, hcarries⟩
    rwa [howners, List.mem_singleton] at hid
  · exact filter_eq_of_countP_one huuid hmem (by simp)
  · exact Nat.div_mul_cancel (Nat.dvd_of_mod_eq_zero hfree)

theorem LvmVgObservation.judged {debug : String → String} (hmem : observation ∈ observations) :
    Judged graph observations observation (observation.verdict debug graph observations) := by
  rw [verdict]
  by_cases hbound : observation.isBound graph observations = true
  · rw [if_pos hbound]
    exact .exact (exact_of_isBound hmem hbound)
  · rw [if_neg hbound]
    exact .unknown rfl rfl

/-- The evidence is the capacity of the bound records. -/
theorem filterMap_verdict {debug : String → String} (entries : List LvmVgObservation) :
    (entries.map (·.verdict debug graph observations)).filterMap Sum.getLeft? =
      (entries.filter (·.isBound graph observations)).map (·.capacity) := by
  induction entries with
  | nil => rfl
  | cons entry rest ih =>
      rw [List.map_cons, LvmVgObservation.verdict]
      by_cases hbound : entry.isBound graph observations = true
      · simp [hbound, ih]
      · rw [if_neg hbound, List.filter_cons, if_neg hbound, ← ih]
        rfl

/-- Bound records have distinct nodes: each of them is the only record of its node. -/
theorem nodup_bound_nodes :
    ((observations.filter (·.isBound graph observations)).map (·.node)).Nodup := by
  rw [List.nodup_iff_count_le_one]
  intro id
  rw [List.count, List.countP_map]
  by_contra hmany
  have hpos : 0 < (observations.filter (·.isBound graph observations)).countP
      ((· == id) ∘ (·.node)) := by omega
  obtain ⟨observation, hmem, hid⟩ := List.countP_pos_iff.mp hpos
  obtain ⟨-, hbound⟩ := List.mem_filter.mp hmem
  obtain rfl : observation.node = id := beq_iff_eq.mp hid
  simp only [LvmVgObservation.isBound, LvmVgObservation.isUnique, Bool.and_eq_true,
    beq_iff_eq] at hbound
  have hone := hbound.1.1.2.1.1
  have hle := (List.filter_sublist (l := observations)
    (p := (·.isBound graph observations))).countP_le
      (p := fun other => other.node = observation.node)
  have hsame : ((· == observation.node) ∘ fun other : LvmVgObservation => other.node) =
      fun other => decide (other.node = observation.node) := by
    funext other
    exact beq_eq_decide _ _
  rw [hsame] at hmany
  omega

end Exact

/-! ### The ledger -/

/-- A ledger accepts capacity for distinct domains it does not hold. -/
theorem SimulationEvidence.addCapacity_ok {capacity : List CapacityEvidence} :
    ∀ {evidence : SimulationEvidence}, (capacity.map (·.domain)).Nodup →
      (∀ item ∈ capacity, evidence.availableCapacity item.domain = none) →
        ∃ result, evidence.addCapacity capacity = .ok result := by
  induction capacity with
  | nil => exact fun _ _ => ⟨_, rfl⟩
  | cons item rest ih =>
      intro evidence hnodup hfree
      rw [List.map_cons, List.nodup_cons] at hnodup
      rw [addCapacity, hfree item List.mem_cons_self]
      refine ih hnodup.2 fun other hother => ?_
      have hne : other.domain ≠ item.domain := fun heq =>
        hnodup.1 (heq ▸ List.mem_map_of_mem hother)
      refine (Function.update_of_ne hne _ _).trans ?_
      exact hfree other (List.mem_cons_of_mem _ hother)

theorem SimulationEvidence.new_ok {capacity : List CapacityEvidence}
    (h : (capacity.map (·.domain)).Nodup) : ∃ evidence, new capacity = .ok evidence :=
  addCapacity_ok h fun _ _ => rfl

/-- **Capacity evidence is exact and unambiguous.**  Every record gets one verdict: exact evidence
of its group, or a diagnostic that its capacity is unknown.  The domains are distinct, so the ledger
of a simulation accepts the evidence. -/
theorem capacity_evidence_exact {debug : String → String} {id : Uuid} {snapshot : CurrentState}
    {observations : List LvmVgObservation} {baseline : HistoricalBaseline}
    (h : HistoricalBaseline.fromLvmObservations debug id snapshot observations = .ok baseline) :
    baseline.snapshot.graph = snapshot.graph ∧
      (∃ verdicts, List.Forall₂
        (Judged baseline.snapshot.graph observations) observations verdicts ∧
        baseline.capacityEvidence = verdicts.filterMap Sum.getLeft? ∧
        baseline.snapshot.diagnostics =
          snapshot.diagnostics ++ verdicts.filterMap Sum.getRight?) ∧
      (∀ evidence ∈ baseline.capacityEvidence, ∃ observation ∈ observations,
        Exact baseline.snapshot.graph observations observation evidence) ∧
      (baseline.capacityEvidence.map (·.domain)).Nodup ∧
      ∃ evidence, SimulationEvidence.new baseline.capacityEvidence = .ok evidence := by
  rw [HistoricalBaseline.fromLvmObservations] at h
  split at h
  next => cases h
  next =>
    obtain rfl := Except.ok.inj h
    have hdomains : (((observations.map
        (·.verdict debug snapshot.graph observations)).filterMap Sum.getLeft?).map
          (·.domain)).Nodup := by
      rw [filterMap_verdict, List.map_map]
      change ((observations.filter _).map (AllocationDomain.lvmVolumeGroup ∘ (·.node))).Nodup
      rw [← List.map_map]
      exact nodup_bound_nodes.map fun _ _ heq => AllocationDomain.lvmVolumeGroup.inj heq
    refine ⟨rfl, ⟨_, ?_, rfl, rfl⟩, ?_, hdomains, SimulationEvidence.new_ok hdomains⟩
    · rw [List.forall₂_map_right_iff, List.forall₂_same]
      exact fun observation hmem => LvmVgObservation.judged hmem
    · intro evidence hevidence
      dsimp only at hevidence ⊢
      rw [filterMap_verdict] at hevidence
      obtain ⟨observation, hmem, rfl⟩ := List.mem_map.mp hevidence
      obtain ⟨hmem, hbound⟩ := List.mem_filter.mp hmem
      exact ⟨observation, hmem, LvmVgObservation.exact_of_isBound hmem hbound⟩

/-! ### One group -/

/-- A group of 100 extents, half of them free. -/
def measuredGroup : LvmVgObservation where
  node := ⟨3#128⟩
  vg := { name := "vg0", uuid := "vg-uuid", size := 419430400, extentSize := 4194304,
          free := 209715200, pvCount := 1 }

/-- A snapshot whose only node is a volume group with an identity. -/
def measuredState : CurrentState where
  graph := NodeGraph.empty.setNode ⟨3#128⟩
    ⟨⟨.lvmVg "vg0" (some 4194304), some 419430400⟩,
      { presence := .present, identities := [.lvmVgUuid "vg-uuid"] }⟩
  mounts := []
  diagnostics := []

/-- One record of the group is evidence of 50 extents. -/
theorem measured_group_capacity :
    ∃ baseline, HistoricalBaseline.fromLvmObservations id 9#128 measuredState [measuredGroup] =
        .ok baseline ∧
      baseline.capacityEvidence = [⟨.lvmVolumeGroup ⟨3#128⟩, 50⟩] ∧
      (baseline.capacityEvidence.map (·.domain)).Nodup ∧
      ∃ evidence, SimulationEvidence.new baseline.capacityEvidence = .ok evidence := by
  have hok : HistoricalBaseline.fromLvmObservations id 9#128 measuredState [measuredGroup] = .ok
      ⟨9#128, measuredState, [⟨.lvmVolumeGroup ⟨3#128⟩, 50⟩]⟩ := rfl
  obtain ⟨-, -, -, hdomains, hledger⟩ := capacity_evidence_exact hok
  exact ⟨_, hok, rfl, hdomains, hledger⟩

end DisksGraph
