import DisksGraph.Engine.Execution

/-!
# Facade — Text

What `serde_json` can write.  Every derived `Serialize` of the modelled types writes strings,
numbers, arrays and maps keyed by identities, and these do not fail.  The exception is a `PathBuf`:
serde writes it as a string and fails when a component is not UTF-8.  So a value has a JSON form
exactly when every path in it is UTF-8.
-/

namespace DisksGraph

/-! ### Observed state -/

/-- Of the kinds of node, only a loop device names a path. -/
def NodeKind.isUtf8 : NodeKind → Bool
  | .loop backingFile => backingFile.all (·.isUtf8)
  | _ => true

/-- Whether every path of the node is UTF-8. -/
def Node.isUtf8 (node : Node) : Bool :=
  node.kind.kind.isUtf8 && node.size.block.all fun block => block.paths.all (·.isUtf8)

/-- Whether every path of the graph is UTF-8. -/
def NodeGraph.isUtf8 (graph : NodeGraph) : Bool := graph.nodeList.all (·.2.isUtf8)

/-- Whether the subject's path is UTF-8. -/
def DiagnosticSubject.isUtf8 : DiagnosticSubject → Bool
  | .mount path => path.isUtf8
  | _ => true

/-- Whether every path of the snapshot is UTF-8. -/
def CurrentState.isUtf8 (state : CurrentState) : Bool :=
  state.graph.isUtf8 && state.mounts.all (·.isUtf8) &&
    state.environment.target.all (·.root.isUtf8) &&
    state.diagnostics.all fun diagnostic => diagnostic.subjects.all (·.isUtf8)

/-- Whether every path of the observed snapshot is UTF-8. -/
def LiveObservation.isUtf8 (observation : LiveObservation) : Bool := observation.snapshot.isUtf8

/-! ### Checked conditions -/

/-- Whether every path of the prerequisite is UTF-8. -/
def ActionPrerequisite.isUtf8 : ActionPrerequisite → Bool
  | .mountSourceAvailable source => source.isUtf8
  | .mountTargetAvailable target context | .mountDescendantsAbsent target context =>
      target.isUtf8 && context.isUtf8
  | _ => true

/-- Whether every path of the postcondition is UTF-8. -/
def Postcondition.isUtf8 : Postcondition → Bool
  | .nodeMatches _ spec => spec.kind.isUtf8
  | .runtimeMountPresent source target context =>
      source.isUtf8 && target.isUtf8 && context.isUtf8
  | .runtimeMountAbsent target context | .persistentMountAbsent target context =>
      target.isUtf8 && context.isUtf8
  | .persistentMountMatches entry => entry.isUtf8
  | _ => true

/-- Whether the aspect's paths are UTF-8. -/
def GoalAspect.isUtf8 : GoalAspect → Bool
  | .runtimeMount target context | .persistentMount target context =>
      target.isUtf8 && context.isUtf8
  | _ => true

/-- Whether every path of the report is UTF-8. -/
def GoalVerificationReport.isUtf8 (report : GoalVerificationReport) : Bool :=
  report.observation.isUtf8 && report.checks.all (·.condition.isUtf8)

end DisksGraph
