import DisksGraph.Engine.Correlate
import DisksGraph.Model.Reorder
import DisksGraph.Probe.Assemble
import DisksGraph.Support.Folds
import Mathlib.Data.Finset.Sort
import Mathlib.Data.String.Basic

/-!
# Probe — Merge

Provider orchestration and assembly of the current state (`assemble.rs`): providers are grouped by
the responsibility they claim, the only claimant of a responsibility is called once, and its
contribution is merged into what the providers before it left.

A `BTreeMap` of claimants is its keys in order with the claimants of each; `Assembly.probed` logs
the calls.  A contribution is met in the iteration order of its own graph.
-/

namespace DisksGraph

/-! ### Providers -/

/-- Coarse provider attachment mechanism used in diagnostics and policy. -/
inductive ProviderConnectionKind where
  | builtIn
  | stabbyDynamicLibrary
  | process
deriving DecidableEq

/-- The `{:?}` text of an attachment mechanism. -/
def ProviderConnectionKind.debugText : ProviderConnectionKind → String
  | .builtIn => "BuiltIn"
  | .stabbyDynamicLibrary => "StabbyDynamicLibrary"
  | .process => "Process"

/-- Failure returned by a provider adapter. -/
structure ProviderProbeError where
  code : String
  message : String
deriving DecidableEq

/-- A provider, with what its read-only probe returns when it is called. -/
structure StateProvider where
  id : String
  responsibility : String
  connectionKind : ProviderConnectionKind
  probe : Except ProviderProbeError ProviderState

/-! ### Diagnostics of the assembly -/

/-- Converts total provider failure into a current-state diagnostic. -/
def providerFailure (providerId : String) (connection : ProviderConnectionKind)
    (evidence : String) : Diagnostic where
  code := "provider.probe_failed"
  severity := .missingInformation
  subjects := []
  message := "provider " ++ providerId ++ " (" ++ connection.debugText ++
    ") could not inspect its storage responsibility"
  evidence := some evidence
  suggestedRemedy := some "install or repair the provider backend and repeat probing"

/-- Reports ambiguous ownership instead of choosing a provider implicitly. -/
def responsibilityConflict (responsibility : String) (providers : List StateProvider) :
    Diagnostic where
  code := "provider.responsibility_conflict"
  severity := .error
  subjects := []
  message := "multiple providers own responsibility " ++ responsibility
  evidence := some (", ".intercalate (providers.map fun provider =>
    provider.id ++ " (" ++ provider.connectionKind.debugText ++ ")"))
  suggestedRemedy := some "assign each provider a distinct responsibility"

/-- The error for a node about which two providers disagree. -/
def nodeConflict (id : NodeId) (owner : Option String) (providerId : String) : Diagnostic where
  code := "provider.node_conflict"
  severity := .error
  subjects := [.node id]
  message := "providers disagree about node " ++ id.debugText
  evidence := owner.map fun owner =>
    "first provider: " ++ owner ++ "; conflicting provider: " ++ providerId
  suggestedRemedy := some "repeat probing and inspect provider evidence"

/-- The warning for environment facts that differ. -/
def environmentConflict (providerId : String) : Diagnostic where
  code := "provider.environment_conflict"
  severity := .warning
  subjects := [.environment]
  message := "provider " ++ providerId ++ " reported conflicting environment facts"
  suggestedRemedy := some "repeat environment probing"

/-! ### The merge of one contribution -/

/-- Creates an empty state before provider contributions are merged. -/
def emptyCurrentState : CurrentState := ⟨.empty, [], {}, []⟩

/-- The variables of the loop over the providers. -/
structure Assembly where
  state : CurrentState := emptyCurrentState
  owners : AList fun _ : NodeId => String := ∅
  conflicts : Finset NodeId := ∅
  lvmVgs : List LvmVgObservation := []
  probed : List StateProvider := []

namespace Assembly

/-- Adds diagnostics to the snapshot. -/
def report (assembly : Assembly) (diagnostics : List Diagnostic) : Assembly :=
  { assembly with
    state := { assembly.state with diagnostics := assembly.state.diagnostics ++ diagnostics } }

/-- One node of a contribution: the first writer keeps it, and a later one that disagrees is
reported. -/
def mergeNode (providerId : String) (assembly : Assembly) (entry : NodeId × Node) : Assembly :=
  match assembly.state.graph.node entry.1 with
  | some existing =>
      if existing ≠ entry.2 then
        { assembly with conflicts := insert entry.1 assembly.conflicts }.report
          [nodeConflict entry.1 (assembly.owners.lookup entry.1) providerId]
      else assembly
  | none =>
      match assembly.state.graph.insertNew entry.1 entry.2 with
      | .ok graph =>
          { assembly with
            state := { assembly.state with graph }
            owners := assembly.owners.insert entry.1 providerId }
      | .error _ => assembly

/-- Merges the nodes of a contribution one by one. -/
def mergeNodes (providerId : String) (assembly : Assembly) (contribution : NodeGraph) : Assembly :=
  contribution.nodeList.foldl (mergeNode providerId) assembly

/-- Takes over the edges of a contribution. -/
def mergeEdges (assembly : Assembly) (contribution : NodeGraph) : Assembly :=
  let graph := contribution.dependencies.foldl .insertDependency assembly.state.graph
  let graph := contribution.relations.foldl .insertRelation graph
  { assembly with state := { assembly.state with graph } }

/-- Identical entries can be stacked mounts; deduplication would hide an ambiguous target. -/
def mergeMounts (assembly : Assembly) (mounts : List ObservedMount) : Assembly :=
  { assembly with state := { assembly.state with mounts := assembly.state.mounts ++ mounts } }

/-- The first environment is kept, and a different one is reported. -/
def mergeEnvironment (providerId : String) (assembly : Assembly) :
    Option Environment → Assembly
  | none => assembly
  | some environment =>
      if assembly.state.environment = emptyCurrentState.environment then
        { assembly with state := { assembly.state with environment } }
      else if assembly.state.environment ≠ environment then
        assembly.report [environmentConflict providerId]
      else assembly

/-- Merges one successful provider contribution without replacing conflicts. -/
def mergeProviderState (assembly : Assembly) (providerId : String)
    (contribution : ProviderState) : Assembly :=
  let assembly := assembly.mergeNodes providerId contribution.graph
  let assembly := assembly.mergeEdges contribution.graph
  let assembly := assembly.mergeMounts contribution.mounts
  let assembly := mergeEnvironment providerId assembly contribution.environment
  assembly.report contribution.diagnostics

end Assembly

/-! ### The loop over the responsibilities -/

/-- The keys of `by_responsibility`. -/
def responsibilities (providers : List StateProvider) : List String :=
  (providers.map (·.responsibility)).toFinset.sort (· ≤ ·)

/-- `by_responsibility[responsibility]`. -/
def adapters (providers : List StateProvider) (responsibility : String) : List StateProvider :=
  providers.filter (·.responsibility == responsibility)

namespace Assembly

/-- The call of the only claimant of a responsibility. -/
def probeAdapter (assembly : Assembly) (adapter : StateProvider) : Assembly :=
  let assembly := { assembly with probed := assembly.probed ++ [adapter] }
  match adapter.probe with
  | .ok contribution =>
      { assembly with lvmVgs := assembly.lvmVgs ++ contribution.lvmVgs }.mergeProviderState
        adapter.id contribution
  | .error error =>
      assembly.report
        [providerFailure adapter.id adapter.connectionKind (error.code ++ ": " ++ error.message)]

/-- A responsibility is probed by its only adapter. -/
def probeResponsibility (providers : List StateProvider) (assembly : Assembly)
    (responsibility : String) : Assembly :=
  match adapters providers responsibility with
  | [adapter] => assembly.probeAdapter adapter
  | claimants => assembly.report [responsibilityConflict responsibility claimants]

end Assembly

/-- Probes every responsibility in turn. -/
def assemble (providers : List StateProvider) : Assembly :=
  (responsibilities providers).foldl (Assembly.probeResponsibility providers) {}

/-- Calls each adapter once and preserves allocation records alongside the resulting graph.
Conflicting node contributions cannot supply trusted capacity to this publication. -/
def probeWithObservations (providers : List StateProvider) :
    CurrentState × List LvmVgObservation :=
  let assembly := assemble providers
  (assembly.state, assembly.lvmVgs.filter (·.node ∉ assembly.conflicts))

/-! ### Merging one contribution -/

theorem NodeGraph.lookup_nodeList (graph : NodeGraph) (id : NodeId) :
    graph.nodeList.lookup id = graph.node id := by
  refine Option.ext fun node => ?_
  rw [← NodeGraph.mem_nodeList, List.lookup_eq_some_iff]
  constructor
  · rintro ⟨before, after, hsplit, -⟩
    simp [hsplit]
  · intro hmem
    obtain ⟨before, after, hsplit⟩ := List.append_of_mem hmem
    refine ⟨before, after, hsplit, fun entry hentry => ?_⟩
    have hnodup : (graph.nodeList.map (·.1)).Nodup := NodeGraph.nodup_ids
    rw [hsplit, List.map_append, List.map_cons] at hnodup
    have hne := List.disjoint_of_nodup_append hnodup (List.mem_map_of_mem hentry)
    simpa using fun heq : id = entry.1 => hne (heq ▸ List.mem_cons_self)

namespace Assembly

variable {assembly other : Assembly} {providerId : String}

@[simp] theorem graph_report (diagnostics : List Diagnostic) :
    (assembly.report diagnostics).state.graph = assembly.state.graph := rfl

@[simp] theorem conflicts_report (diagnostics : List Diagnostic) :
    (assembly.report diagnostics).conflicts = assembly.conflicts := rfl

/-- The `unreachable!` of `merge_provider_state` is not reached. -/
theorem mergeNode_absent {id : NodeId} (node : Node) (h : assembly.state.graph.node id = none) :
    mergeNode providerId assembly (id, node) =
      { assembly with
        state := { assembly.state with graph := assembly.state.graph.setNode id node }
        owners := assembly.owners.insert id providerId } := by
  simp [mergeNode, h, NodeGraph.insertNew, NodeGraph.contains]

/-- A node that agrees changes nothing. -/
theorem mergeNode_agreed {id : NodeId} {node : Node}
    (h : assembly.state.graph.node id = some node) :
    mergeNode providerId assembly (id, node) = assembly := by
  simp [mergeNode, h]

/-- A node that differs is a conflict, and the first one stays. -/
theorem mergeNode_disputed {id : NodeId} {existing node : Node}
    (h : assembly.state.graph.node id = some existing) (hne : existing ≠ node) :
    mergeNode providerId assembly (id, node) =
      { assembly with conflicts := insert id assembly.conflicts }.report
        [nodeConflict id (assembly.owners.lookup id) providerId] := by
  simp [mergeNode, h, hne]

/-- The three cases of one node. -/
theorem mergeNode_cases (assembly : Assembly) (id : NodeId) (node : Node) :
    assembly.state.graph.node id = none ∨ assembly.state.graph.node id = some node ∨
      ∃ existing, assembly.state.graph.node id = some existing ∧ existing ≠ node := by
  cases h : assembly.state.graph.node id with
  | none => exact .inl rfl
  | some existing =>
      by_cases hne : existing = node
      · exact .inr (.inl (hne ▸ rfl))
      · exact .inr (.inr ⟨existing, rfl, hne⟩)

/-- The nodes after one is merged. -/
theorem node_mergeNode (assembly : Assembly) (id : NodeId) (node : Node) (queried : NodeId) :
    (mergeNode providerId assembly (id, node)).state.graph.node queried =
      if queried == id then (assembly.state.graph.node queried).or (some node)
      else assembly.state.graph.node queried := by
  rcases mergeNode_cases assembly id node with h | h | ⟨existing, h, hne⟩
  · rw [mergeNode_absent node h]
    by_cases hid : queried = id
    · simp [hid, h]
    · simp [hid, NodeGraph.node_setNode_ne]
  · rw [mergeNode_agreed h]
    by_cases hid : queried = id <;> simp [hid, h]
  · rw [mergeNode_disputed h hne]
    by_cases hid : queried = id <;> simp [hid, h]

/-- The conflicts after a node is merged. -/
theorem mem_conflicts_mergeNode (assembly : Assembly) (id : NodeId) (node : Node)
    (queried : NodeId) :
    queried ∈ (mergeNode providerId assembly (id, node)).conflicts ↔
      queried ∈ assembly.conflicts ∨
        queried = id ∧ ∃ existing, assembly.state.graph.node id = some existing ∧
          existing ≠ node := by
  rcases mergeNode_cases assembly id node with h | h | ⟨existing, h, hne⟩
  · simp [mergeNode_absent node h, h]
  · simp [mergeNode_agreed h, h]
  · simp [mergeNode_disputed h hne, h, hne, or_comm]

/-- **The first writer of a node keeps it.** -/
theorem node_mergeNodes (assembly : Assembly) (contribution : NodeGraph) (id : NodeId) :
    (mergeNodes providerId assembly contribution).state.graph.node id =
      (assembly.state.graph.node id).or (contribution.node id) := by
  rw [← contribution.lookup_nodeList]
  exact Support.foldl_first (fun assembly : Assembly => assembly.state.graph.node)
    node_mergeNode contribution.nodeList assembly id

/-- The conflicts after nodes are merged in turn. -/
theorem mem_conflicts_foldl (entries : List (NodeId × Node)) (hnodup : (entries.map (·.1)).Nodup)
    (assembly : Assembly) (id : NodeId) :
    id ∈ (entries.foldl (mergeNode providerId) assembly).conflicts ↔
      id ∈ assembly.conflicts ∨ ∃ node, (id, node) ∈ entries ∧
        ∃ existing, assembly.state.graph.node id = some existing ∧ existing ≠ node := by
  induction entries generalizing assembly with
  | nil => simp
  | cons entry entries ih =>
      obtain ⟨first, value⟩ := entry
      obtain ⟨hfirst, hrest⟩ := List.nodup_cons.mp hnodup
      rw [List.foldl_cons, ih hrest, mem_conflicts_mergeNode]
      by_cases hid : id = first
      · -- no later entry is about the same node
        have hlater : ∀ node, (first, node) ∉ entries := fun node hmem =>
          hfirst (List.mem_map.mpr ⟨(first, node), hmem, rfl⟩)
        simp [hid, hlater]
      · simp [hid, node_mergeNode]

/-- A later contribution disputes exactly the nodes it has another value for. -/
theorem mem_conflicts_mergeNodes (assembly : Assembly) (contribution : NodeGraph) (id : NodeId) :
    id ∈ (mergeNodes providerId assembly contribution).conflicts ↔
      id ∈ assembly.conflicts ∨ ∃ node, contribution.node id = some node ∧
        ∃ existing, assembly.state.graph.node id = some existing ∧ existing ≠ node := by
  simp only [mergeNodes, mem_conflicts_foldl _ contribution.nodup_ids, NodeGraph.mem_nodeList]

/-- What the insertion of an absent node and the report of a disputed one both keep. -/
theorem mergeNodes_induct {P : Assembly → Prop} (h : P assembly)
    (hinsert : ∀ (later : Assembly) (id : NodeId) (node : Node), P later →
      P { later with
        state := { later.state with graph := later.state.graph.setNode id node }
        owners := later.owners.insert id providerId })
    (hdispute : ∀ (later : Assembly) (id : NodeId) (owner : Option String), P later →
      P ({ later with conflicts := insert id later.conflicts }.report
        [nodeConflict id owner providerId]))
    (contribution : NodeGraph) : P (mergeNodes providerId assembly contribution) := by
  refine List.foldlRecOn contribution.nodeList (mergeNode providerId) h ?_
  rintro later hlater ⟨id, node⟩ -
  rcases mergeNode_cases later id node with h | h | ⟨existing, h, hne⟩
  · rw [mergeNode_absent node h]
    exact hinsert later id node hlater
  · rw [mergeNode_agreed h]
    exact hlater
  · rw [mergeNode_disputed h hne]
    exact hdispute later id _ hlater

/-- What merging nodes leaves alone. -/
structure NodesOnly (assembly other : Assembly) : Prop where
  dependencies : other.state.graph.dependencies = assembly.state.graph.dependencies
  relations : other.state.graph.relations = assembly.state.graph.relations
  mounts : other.state.mounts = assembly.state.mounts
  lvmVgs : other.lvmVgs = assembly.lvmVgs
  probed : other.probed = assembly.probed
  diagnostics : assembly.state.diagnostics ⊆ other.state.diagnostics

/-- Merging nodes leaves edges and environment alone. -/
theorem nodesOnly_mergeNodes (providerId : String) (assembly : Assembly)
    (contribution : NodeGraph) :
    NodesOnly assembly (mergeNodes providerId assembly contribution) := by
  refine mergeNodes_induct (P := NodesOnly assembly) ⟨rfl, rfl, rfl, rfl, rfl, fun _ h => h⟩
    ?_ ?_ contribution
  · rintro later id node ⟨hdependencies, hrelations, hmounts, hvgs, hprobed, hgrows⟩
    exact ⟨hdependencies, hrelations, hmounts, hvgs, hprobed, hgrows⟩
  · rintro later id owner ⟨hdependencies, hrelations, hmounts, hvgs, hprobed, hgrows⟩
    exact ⟨hdependencies, hrelations, hmounts, hvgs, hprobed,
      fun _ h => List.mem_append_left _ (hgrows h)⟩

/-- Every disputed node is reported. -/
def Reported (assembly : Assembly) : Prop :=
  ∀ id ∈ assembly.conflicts, ∃ owner provider,
    nodeConflict id owner provider ∈ assembly.state.diagnostics

/-- Every conflict is reported. -/
theorem Reported.mergeNodes (h : Reported assembly) (contribution : NodeGraph) :
    Reported (mergeNodes providerId assembly contribution) := by
  refine mergeNodes_induct h (fun later id node hlater => hlater) ?_ contribution
  intro later id owner hlater disputed hdisputed
  rcases Finset.mem_insert.mp hdisputed with rfl | hold
  · exact ⟨owner, providerId, List.mem_append_right _ (List.mem_singleton_self _)⟩
  · obtain ⟨owner, provider, hmem⟩ := hlater disputed hold
    exact ⟨owner, provider, List.mem_append_left _ hmem⟩

/-! ### Merging edges, mounts and environment -/

@[simp] theorem node_mergeEdges (assembly : Assembly) (contribution : NodeGraph) (id : NodeId) :
    (assembly.mergeEdges contribution).state.graph.node id = assembly.state.graph.node id := by
  have hdependencies : (contribution.dependencies.foldl NodeGraph.insertDependency
      assembly.state.graph).node id = assembly.state.graph.node id :=
    List.foldlRecOn contribution.dependencies _
      (motive := fun graph : NodeGraph => graph.node id = assembly.state.graph.node id) rfl
      fun _ h _ _ => h
  exact List.foldlRecOn contribution.relations _
    (motive := fun graph : NodeGraph => graph.node id = assembly.state.graph.node id)
    hdependencies fun _ h _ _ => h

@[simp] theorem mem_dependencies_mergeEdges (assembly : Assembly) (contribution : NodeGraph)
    (edge : Dependency) :
    edge ∈ (assembly.mergeEdges contribution).state.graph.dependencies ↔
      edge ∈ assembly.state.graph.dependencies ∨ edge ∈ contribution.dependencies := by
  have hrelations (graph : NodeGraph) :
      (contribution.relations.foldl NodeGraph.insertRelation graph).dependencies =
        graph.dependencies :=
    List.foldlRecOn contribution.relations _
      (motive := fun later : NodeGraph => later.dependencies = graph.dependencies) rfl
      fun _ h _ _ => h
  rw [mergeEdges, hrelations, Support.foldl_view
    (V := fun (graph : NodeGraph) edge => edge ∈ graph.dependencies) (E := fun a b => b = a)
    fun graph inserted edge => by rw [NodeGraph.mem_insertDependency, or_comm]]
  simp

@[simp] theorem mem_relations_mergeEdges (assembly : Assembly) (contribution : NodeGraph)
    (link : Relation) :
    link ∈ (assembly.mergeEdges contribution).state.graph.relations ↔
      link ∈ assembly.state.graph.relations ∨ link ∈ contribution.relations := by
  have hdependencies (graph : NodeGraph) :
      (contribution.dependencies.foldl NodeGraph.insertDependency graph).relations =
        graph.relations :=
    List.foldlRecOn contribution.dependencies _
      (motive := fun later : NodeGraph => later.relations = graph.relations) rfl fun _ h _ _ => h
  rw [mergeEdges, Support.foldl_view
    (V := fun (graph : NodeGraph) link => link ∈ graph.relations) (E := fun a b => b = a)
    fun graph inserted link => by rw [NodeGraph.mem_insertRelation, or_comm], hdependencies]
  simp

/-- The environment of a contribution is taken, agreed with, or reported. -/
theorem mergeEnvironment_cases (providerId : String) (assembly : Assembly)
    (observed : Option Environment) :
    ∃ environment diagnostics,
      mergeEnvironment providerId assembly observed =
        { assembly with
          state :=
            { assembly.state with
              environment, diagnostics := assembly.state.diagnostics ++ diagnostics } } := by
  cases observed with
  | none => exact ⟨assembly.state.environment, [], by simp [mergeEnvironment]⟩
  | some environment =>
      by_cases hempty : assembly.state.environment = emptyCurrentState.environment
      · exact ⟨environment, [], by simp [mergeEnvironment, hempty]⟩
      · by_cases hsame : assembly.state.environment = environment
        · subst hsame
          exact ⟨assembly.state.environment, [], by simp [mergeEnvironment, hempty]⟩
        · exact ⟨assembly.state.environment, [environmentConflict providerId],
            by simp [mergeEnvironment, hempty, hsame, report]⟩

/-! ### One contribution -/

/-- What one contribution does to an assembly. -/
structure Merged (contribution : ProviderState) (assembly other : Assembly) : Prop where
  node : ∀ id, other.state.graph.node id =
    (assembly.state.graph.node id).or (contribution.graph.node id)
  conflicts : ∀ id, id ∈ other.conflicts ↔ id ∈ assembly.conflicts ∨
    ∃ node, contribution.graph.node id = some node ∧
      ∃ existing, assembly.state.graph.node id = some existing ∧ existing ≠ node
  reported : Reported assembly → Reported other
  dependencies : ∀ edge, edge ∈ other.state.graph.dependencies ↔
    edge ∈ assembly.state.graph.dependencies ∨ edge ∈ contribution.graph.dependencies
  relations : ∀ link, link ∈ other.state.graph.relations ↔
    link ∈ assembly.state.graph.relations ∨ link ∈ contribution.graph.relations
  mounts : other.state.mounts = assembly.state.mounts ++ contribution.mounts
  lvmVgs : other.lvmVgs = assembly.lvmVgs
  probed : other.probed = assembly.probed
  diagnostics : assembly.state.diagnostics ⊆ other.state.diagnostics

/-- A contribution is merged as a whole. -/
theorem merged_mergeProviderState (assembly : Assembly) (providerId : String)
    (contribution : ProviderState) :
    Merged contribution assembly (assembly.mergeProviderState providerId contribution) := by
  have hframe := nodesOnly_mergeNodes providerId assembly contribution.graph
  obtain ⟨environment, diagnostics, henvironment⟩ := mergeEnvironment_cases providerId
    (((mergeNodes providerId assembly contribution.graph).mergeEdges contribution.graph).mergeMounts
      contribution.mounts) contribution.environment
  rw [mergeProviderState, henvironment]
  constructor
  case node => exact fun id => (node_mergeEdges _ _ _).trans (node_mergeNodes _ _ _)
  case conflicts => exact mem_conflicts_mergeNodes assembly contribution.graph
  case reported =>
    intro h id hid
    obtain ⟨owner, provider, hmem⟩ := h.mergeNodes contribution.graph id hid
    exact ⟨owner, provider, List.mem_append_left _ (List.mem_append_left _ hmem)⟩
  case dependencies =>
    intro edge
    exact (mem_dependencies_mergeEdges _ _ _).trans (by rw [hframe.dependencies])
  case relations =>
    intro link
    exact (mem_relations_mergeEdges _ _ _).trans (by rw [hframe.relations])
  case mounts => exact congrArg (· ++ contribution.mounts) hframe.mounts
  case lvmVgs => exact hframe.lvmVgs
  case probed => exact hframe.probed
  case diagnostics =>
    intro diagnostic hmem
    exact List.mem_append_left _ (List.mem_append_left _ (hframe.diagnostics hmem))

end Assembly

end DisksGraph
