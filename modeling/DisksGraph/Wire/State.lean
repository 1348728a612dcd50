import DisksGraph.Engine.Wire
import DisksGraph.Wire.Contract

/-!
# Wire — State

The JSON form of an observed state and of a historical baseline (`model/state.rs`, `wire.rs`).

* The graph is the only part that is checked when it is read: `HistoricalBaseline.codec_accepts`.
* A `BTreeSet` is written in the order of its names and read in any order.
-/

namespace DisksGraph

open Support (Codec Fields Variant)

/-! ### Mounts and diagnostics -/

/-- An observed mount. -/
def ObservedMount.codec : Codec ObservedMount :=
  .record false (Fields.of ObservedMount.mk
    |>.field "source" MountSource.codec
    |>.field "target" PathBuf.codec
    |>.field "options" Codec.string.list
    |>.field "context" MountContext.codec) (by decide)

/-- `MountState`, which is its entries. -/
def MountState.codec : Codec (List ObservedMount) :=
  .record false (Fields.of id
    |>.field "entries" ObservedMount.codec.list) (by decide)

/-- The severities in snake case. -/
def DiagnosticSeverity.codec : Codec DiagnosticSeverity :=
  .choice [.unit "error" .error, .unit "warning" .warning,
    .unit "requires_confirmation" .requiresConfirmation,
    .unit "missing_information" .missingInformation] (by decide)

/-- A subject: its name, with what it names. -/
def DiagnosticSubject.codec : Codec DiagnosticSubject :=
  .choice [.holding "node" .node NodeId.codec, .holding "mount" .mount PathBuf.codec,
    .holding "field" .field .string, .unit "environment" .environment] (by decide)

/-- A diagnostic with its optional texts. -/
def Diagnostic.codec : Codec Diagnostic :=
  .record false (Fields.of Diagnostic.mk
    |>.field "code" .string
    |>.field "severity" DiagnosticSeverity.codec
    |>.field "subjects" DiagnosticSubject.codec.list
    |>.field "message" .string
    |>.field "evidence" Codec.string.option
    |>.field "suggested_remedy" Codec.string.option) (by decide)

/-! ### Environments -/

/-- The names of a set, in order and each once. -/
def sortedNames (names : List String) : List String := names.dedup.insertionSort (· ≤ ·)

/-- Sorted names are sorted. -/
theorem sortedNames_idem (names : List String) :
    sortedNames (sortedNames names) = sortedNames names := by
  have hperm := List.perm_insertionSort (· ≤ ·) names.dedup
  have hnodup : (sortedNames names).Nodup := hperm.nodup_iff.mpr names.nodup_dedup
  have hsorted := List.pairwise_insertionSort (· ≤ ·) names.dedup
  rw [sortedNames, hnodup.dedup]
  exact hsorted.insertionSort_eq

/-- Sorting adds no name. -/
theorem sortedNames_subset (names : List String) : sortedNames names ⊆ names := by
  intro name hname
  exact List.mem_dedup.mp ((List.mem_insertionSort _).mp hname)

/-- A `BTreeSet<String>`. -/
def nameSet : Codec (Finset String) :=
  (Codec.string.collection sortedNames sortedNames_idem sortedNames_subset).map List.toFinset

/-- The facts of one system. -/
def SystemEnvironment.codec : Codec SystemEnvironment :=
  .record false (Fields.of SystemEnvironment.mk
    |>.field "os_release" Codec.string.option
    |>.field "architecture" Codec.string.option
    |>.field "kernel_release" Codec.string.option
    |>.field "tools" nameSet
    |>.field "kernel_modules" nameSet) (by decide)

/-- The facts of the target system and its root. -/
def TargetEnvironment.codec : Codec TargetEnvironment :=
  .record false (Fields.of TargetEnvironment.mk
    |>.field "root" PathBuf.codec
    |>.field "system" SystemEnvironment.codec) (by decide)

/-- The host and, if there is one, the target. -/
def Environment.codec : Codec Environment :=
  .record false (Fields.of Environment.mk
    |>.field "host" SystemEnvironment.codec
    |>.field "target" TargetEnvironment.codec.option) (by decide)

/-- A snapshot. -/
def CurrentState.codec : Codec CurrentState :=
  .record false (Fields.of CurrentState.mk
    |>.field "graph" NodeGraph.codec
    |>.field "mounts" MountState.codec
    |>.field "environment" Environment.codec
    |>.field "diagnostics" Diagnostic.codec.list) (by decide)

/-! ### Baselines -/

/-- A domain's free space, with `deny_unknown_fields`. -/
def CapacityEvidence.codec : Codec CapacityEvidence :=
  .record true (Fields.of CapacityEvidence.mk
    |>.field "domain" AllocationDomain.codec
    |>.field "available" u64) (by decide)

/-- A baseline, with `deny_unknown_fields`. -/
def HistoricalBaseline.codec : Codec HistoricalBaseline :=
  .record true (Fields.of HistoricalBaseline.mk
    |>.field "id" Uuid.codec
    |>.field "snapshot" CurrentState.codec
    |>.field "capacity_evidence" CapacityEvidence.codec.list) (by decide)

/-- A baseline is read back exactly when its graph is one that is read. -/
theorem HistoricalBaseline.codec_accepts {s : HistoricalBaseline.codec.Stored} :
    HistoricalBaseline.codec.Accepts s ↔
      (HistoricalBaseline.codec.value s).snapshot.graph.validateStructure = .ok () := by
  rw [← isOk_iff]
  constructor
  · intro h
    exact h.1.2.1.1.1.2.2
  · intro h
    exact ⟨⟨⟨trivial, Uuid.codec.accepts_all rfl _⟩, ⟨⟨⟨⟨trivial,
      ⟨NodeGraphDto.codec.accepts_all NodeGraph.total_dto _, h⟩⟩,
      MountState.codec.accepts_all rfl _⟩, Environment.codec.accepts_all rfl _⟩,
      Diagnostic.codec.list.accepts_all rfl _⟩⟩, CapacityEvidence.codec.list.accepts_all rfl _⟩

end DisksGraph
