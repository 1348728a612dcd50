import DisksGraph.Engine.Live
import DisksGraph.Wire.State

/-!
# Wire — Observation

Observations as they are held in memory, and the comparison of what was observed (`wire.rs`).

* `HeldObservation`: an observation with the spelling of its paths and the order of its collections.
* `canonicalSnapshot`: the JSON value that a snapshot is compared by.
* `hasSameObservations`: the comparison, which fails where a path has no JSON form.
* `normalizedObservation`: an observation without the epochs of its nodes (`incident.rs`).
-/

namespace DisksGraph

open Support (JsonValue except_bind_eq_ok)

/-! ### JSON values -/

/-- Sorts object members recursively while preserving all array sequencing by default. -/
def sortObjectKeys : JsonValue → JsonValue :=
  JsonValue.fold id .array fun members =>
    .object (members.insertionSort fun member other => member.1 ≤ other.1)

/-- Orders only explicitly set-like wire arrays; multiplicity is retained where meaningful. -/
def sortJsonArray (deduplicate : Bool) : JsonValue → JsonValue
  | .array items =>
      let sorted := ((items.map fun item => (item.print, item)).insertionSort keyLe).map Prod.snd
      .array (if deduplicate then sorted.destutter (· ≠ ·) else sorted)
  | value => value

/-- `value[name]`, which is there, changed in place. -/
def updateMember (name : String) (update : JsonValue → JsonValue) : JsonValue → JsonValue
  | .object members => .object (members.map fun member =>
      if member.1 = name then (member.1, update member.2) else member)
  | value => value

/-- Orders graph edges, whose model representation is a hash set. -/
def canonicalGraph (graph : JsonValue) : JsonValue :=
  updateMember "relations" (sortJsonArray true)
    (updateMember "dependencies" (sortJsonArray true) graph)

/-- Compares historical observations with explicit set-like mount and graph ordering normalized. -/
def canonicalSnapshot (snapshot : CurrentState.codec.Stored) : Option JsonValue := do
  let value ← CurrentState.codec.encode snapshot
  return updateMember "mounts" (updateMember "entries" (sortJsonArray false))
    (updateMember "graph" canonicalGraph (sortObjectKeys value))

/-! ### Baselines -/

/-- `serde_json::to_value`, which fails on a path that is not UTF-8. -/
def toJsonValue (value : Option JsonValue) : Except PlanDocumentError JsonValue :=
  match value with
  | some value => .ok value
  | none => .error (.json "path contains invalid UTF-8 characters")

/-- Compares observation content independently of baseline identity or local probe generation.
Graph edges, mount entries and capacity are compared without ordering. -/
def hasSameObservations (baseline other : HistoricalBaseline.codec.Stored) :
    Except PlanDocumentError Bool := do
  let capacity ← toJsonValue (CapacityEvidence.codec.list.encode baseline.2)
  let otherCapacity ← toJsonValue (CapacityEvidence.codec.list.encode other.2)
  if sortJsonArray false capacity ≠ sortJsonArray false otherCapacity then return false
  let snapshot ← toJsonValue (canonicalSnapshot baseline.1.2)
  let otherSnapshot ← toJsonValue (canonicalSnapshot other.1.2)
  return decide (snapshot = otherSnapshot)

/-! ### Observations -/

/-- An observation as it is held in memory. -/
structure HeldObservation where
  reference : ObservationReference
  snapshot : CurrentState.codec.Stored

/-- What the observation says. -/
def HeldObservation.observation (held : HeldObservation) : LiveObservation :=
  ⟨held.reference, CurrentState.codec.value held.snapshot⟩

/-- `node.size.observed_in = None`. -/
def forgetEpoch (node : Node.codec.Stored) : Node.codec.Stored :=
  (node.1, ((((((node.2.1.1.1.1.1.1, node.2.1.1.1.1.1.2), none), node.2.1.1.1.2), node.2.1.1.2),
    node.2.1.2), node.2.2))

/-- The same of a node that is read. -/
def Node.forgetEpoch (node : Node) : Node :=
  { node with size := { node.size with observedIn := none } }

/-- The node entries of a graph without epochs. -/
def forgetEntries (nodes : NodeGraphDto.nodesCodec.Stored) : NodeGraphDto.nodesCodec.Stored :=
  ⟨nodes.1.map fun entry => (entry.1, forgetEpoch entry.2), by
    rw [List.map_map]
    exact nodes.2⟩

/-- Forgetting the epochs of the entries forgets those of the nodes. -/
theorem value_forgetEntries (nodes : NodeGraphDto.nodesCodec.Stored) :
    NodeGraphDto.nodesCodec.value (forgetEntries nodes) =
      (NodeGraphDto.nodesCodec.value nodes).map fun entry => (entry.1, entry.2.forgetEpoch) := by
  show (nodes.1.map fun entry => (entry.1, forgetEpoch entry.2)).map
      (fun entry => (entry.1, Node.codec.value entry.2)) =
    (nodes.1.map fun entry => (entry.1, Node.codec.value entry.2)).map
      fun entry => (entry.1, entry.2.forgetEpoch)
  rw [List.map_map, List.map_map]
  rfl

theorem isSome_collect (dto : NodeGraphDto) : dto.collect.isSome ↔
    (dto.nodes.map Prod.fst).Nodup ∧ dto.dependencies.Nodup ∧ dto.relations.Nodup := by
  rw [NodeGraphDto.collect]
  split
  · next h => exact iff_of_true rfl h
  · next h => exact iff_of_false (by simp) h

/-- Forgetting epochs makes no repetition. -/
theorem collects_forgetEntries (dto : NodeGraphDto.codec.Stored)
    (h : (NodeGraphDto.codec.value dto).collect.isSome) :
    (NodeGraphDto.codec.value
      ((((), forgetEntries dto.1.1.2), dto.1.2), dto.2)).collect.isSome := by
  obtain ⟨hnodes, hedges⟩ := (isSome_collect _).mp h
  refine (isSome_collect _).mpr ⟨?_, hedges⟩
  show ((NodeGraphDto.nodesCodec.value (forgetEntries dto.1.1.2)).map Prod.fst).Nodup
  rw [value_forgetEntries, List.map_map]
  exact hnodes

/-- `replace_existing` of every node, which does not fail for a node that is there. -/
def forgetEpochs (graph : NodeGraph.codec.Stored) : NodeGraph.codec.Stored :=
  ⟨((((), forgetEntries graph.1.1.1.2), graph.1.1.2), graph.1.2),
    collects_forgetEntries graph.1 graph.2⟩

/-- Nothing but the epochs is forgotten. -/
theorem value_forgetEpochs (graph : NodeGraph.codec.Stored) :
    (NodeGraph.codec.value (forgetEpochs graph)).nodeList =
        (NodeGraph.codec.value graph).nodeList.map
          (fun entry => (entry.1, entry.2.forgetEpoch)) ∧
      (NodeGraph.codec.value (forgetEpochs graph)).dependencies =
        (NodeGraph.codec.value graph).dependencies ∧
      (NodeGraph.codec.value (forgetEpochs graph)).relations =
        (NodeGraph.codec.value graph).relations := by
  obtain ⟨hnodes, hdependencies, hrelations⟩ :=
    NodeGraphDto.collect_eq_some (NodeGraph.collect_value graph)
  obtain ⟨hnodes', hdependencies', hrelations'⟩ :=
    NodeGraphDto.collect_eq_some (NodeGraph.collect_value (forgetEpochs graph))
  refine ⟨?_, hdependencies'.trans hdependencies.symm, hrelations'.trans hrelations.symm⟩
  rw [hnodes', hnodes]
  exact value_forgetEntries graph.1.1.1.2

/-- Compares observed content independently of publication epochs, retaining all identity and scope
data. -/
def normalizedObservation (observed : HeldObservation) : HistoricalBaseline.codec.Stored :=
  ((((), observed.reference.probeInstance),
    (((((), forgetEpochs observed.snapshot.1.1.1.2), observed.snapshot.1.1.2),
      observed.snapshot.1.2), observed.snapshot.2)), ⟨[], rfl⟩)

/-! ### Unchanged observations -/

theorem toJsonValue_eq_ok {value : Option JsonValue} {j : JsonValue} :
    toJsonValue value = .ok j ↔ value = some j := by
  cases value <;> simp [toJsonValue]

/-- The observations are the same exactly when both have a JSON form, and it is the same up to the
order of what is a set. -/
theorem hasSameObservations_eq_true {baseline other : HistoricalBaseline.codec.Stored} :
    hasSameObservations baseline other = .ok true ↔
      (∃ capacity capacity', CapacityEvidence.codec.list.encode baseline.2 = some capacity ∧
        CapacityEvidence.codec.list.encode other.2 = some capacity' ∧
        sortJsonArray false capacity = sortJsonArray false capacity') ∧
      ∃ snapshot, canonicalSnapshot baseline.1.2 = some snapshot ∧
        canonicalSnapshot other.1.2 = some snapshot := by
  simp only [hasSameObservations, except_bind_eq_ok, toJsonValue_eq_ok]
  constructor
  · rintro ⟨capacity, hcapacity, capacity', hcapacity', h⟩
    split at h
    · cases h
    · next hsame =>
      obtain ⟨snapshot, hsnapshot, snapshot', hsnapshot', h⟩ := by
        simpa only [except_bind_eq_ok, toJsonValue_eq_ok] using h
      obtain rfl := of_decide_eq_true (Except.ok.inj h)
      exact ⟨⟨capacity, capacity', hcapacity, hcapacity', not_not.mp hsame⟩,
        snapshot, hsnapshot, hsnapshot'⟩
  · rintro ⟨⟨capacity, capacity', hcapacity, hcapacity', hsame⟩, snapshot, hsnapshot, hsnapshot'⟩
    refine ⟨capacity, hcapacity, capacity', hcapacity', ?_⟩
    rw [if_neg (not_not.mpr hsame)]
    simp only [except_bind_eq_ok, toJsonValue_eq_ok]
    exact ⟨snapshot, hsnapshot, snapshot, hsnapshot', by simp [pure, Except.pure]⟩

/-- An observation is unchanged exactly when its paths are UTF-8 and what it says without epochs is
written alike. -/
theorem unchanged_iff {reviewed fresh : HeldObservation} :
    hasSameObservations (normalizedObservation reviewed) (normalizedObservation fresh) = .ok true ↔
      ∃ snapshot, canonicalSnapshot (normalizedObservation reviewed).1.2 = some snapshot ∧
        canonicalSnapshot (normalizedObservation fresh).1.2 = some snapshot := by
  rw [hasSameObservations_eq_true, and_iff_right]
  exact ⟨_, _, rfl, rfl, rfl⟩

end DisksGraph
