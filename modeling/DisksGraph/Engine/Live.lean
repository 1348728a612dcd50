import DisksGraph.Engine.Wire

/-!
# Engine — Live

Actual observations and the three-valued results of checking them (`live.rs`, and the report types
of `execution.rs`).
-/

namespace DisksGraph

/-- Three-valued live evidence, deliberately without a predicted-effect variant. -/
inductive LiveCheckStatus where
  | satisfied
  | violated (reason : String)
  | unknown (requiredEvidence : String)
deriving DecidableEq, Repr

/-- A typed frozen requirement and its actual live-check result. -/
structure LiveCheck (α : Type) where
  condition : α
  status : LiveCheckStatus
deriving DecidableEq, Repr

/-- Correlation reference from the actual probe service. -/
structure ObservationReference where
  probeInstance : Uuid
  epoch : ProbeEpoch
deriving DecidableEq, Repr

/-- Actual published observation supplied by the trusted runtime host. -/
structure LiveObservation where
  reference : ObservationReference
  snapshot : CurrentState

/-- Invalid observation envelopes are rejected before they can advance a run. -/
inductive ObservationError where
  | nilInstance
  | graph (error : GraphError)
  | nilNode
  | nodeEpoch (node : NodeId)
  | mountSource (node : NodeId)
deriving DecidableEq

namespace LiveObservation

/-- `observation == other`. -/
def sameAs (observation other : LiveObservation) : Bool :=
  observation.reference == other.reference &&
    observation.snapshot.graph.sameAs other.snapshot.graph &&
    observation.snapshot.mounts == other.snapshot.mounts &&
    observation.snapshot.environment == other.snapshot.environment &&
    observation.snapshot.diagnostics == other.snapshot.diagnostics

/-- The identity and the publication stamp of one observed node. -/
def checkNode (reference : ObservationReference) (entry : NodeId × Node) :
    Except ObservationError Unit :=
  if entry.1.asUuid.isNil then .error .nilNode
  else if entry.2.size.observedIn.any (· ≠ reference.epoch) then .error (.nodeEpoch entry.1)
  else .ok ()

/-- A typed mount source references a node of the same snapshot. -/
def checkMount (graph : NodeGraph) (mount : ObservedMount) : Except ObservationError Unit :=
  match mount.source.node with
  | some id => if graph.contains id then .ok () else .error (.mountSource id)
  | none => .ok ()

/-- Validates representation only; the trusted host must establish provenance and freshness. -/
def validate (observation : LiveObservation) : Except ObservationError Unit :=
  if observation.reference.probeInstance.isNil then .error .nilInstance
  else match observation.snapshot.graph.validateStructure with
    | .error error => .error (.graph error)
    | .ok () => do
        observation.snapshot.graph.nodeList.forM (checkNode observation.reference)
        observation.snapshot.mounts.forM (checkMount observation.snapshot.graph)

end LiveObservation

end DisksGraph
