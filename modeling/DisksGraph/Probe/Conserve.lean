import DisksGraph.Probe.Merge

/-!
# Probe — Conserve

What a list of providers leaves of its contributions, and what its order decides.

* `Conservative`: every node is the first merged one of its identity, edges are the union and mounts
  the concatenation of the contributions, a disputed node is reported, and capacity is published for
  undisputed nodes only.
* `conservative_assemble`: the loop over the responsibilities keeps it.
* `Alike`: two assemblies that differ in the evidence of their diagnostics.
* `probe_conservative`: both, for every list of providers and every permutation of it.
-/

namespace DisksGraph

/-! ### The law of a merge -/

/-- No merged contribution has another value for a node than the state. -/
def Undisputed (merged : List ProviderState) (state : CurrentState) (id : NodeId) : Prop :=
  ∀ contribution ∈ merged, ∀ node, contribution.graph.node id = some node →
    state.graph.node id = some node

/-- What a published state says of the contributions it was merged from, in order. -/
structure Conservative (merged : List ProviderState) (state : CurrentState)
    (lvmVgs : List LvmVgObservation) : Prop where
  node : ∀ id, state.graph.node id = merged.findSome? (·.graph.node id)
  agreed : ∀ id, Undisputed merged state id ∨
    (∃ diagnostic ∈ state.diagnostics, diagnostic.code = "provider.node_conflict" ∧
      DiagnosticSubject.node id ∈ diagnostic.subjects) ∧
    ∀ observation ∈ lvmVgs, observation.node ≠ id
  dependencies : ∀ edge, edge ∈ state.graph.dependencies ↔
    ∃ contribution ∈ merged, edge ∈ contribution.graph.dependencies
  relations : ∀ link, link ∈ state.graph.relations ↔
    ∃ contribution ∈ merged, link ∈ contribution.graph.relations
  mounts : state.mounts = merged.flatMap (·.mounts)
  lvmVgs : ∀ observation, observation ∈ lvmVgs ↔
    (∃ contribution ∈ merged, observation ∈ contribution.lvmVgs) ∧
      Undisputed merged state observation.node

namespace Assembly

/-- The contributions of the calls made so far, in order. -/
def contributions (assembly : Assembly) : List ProviderState :=
  assembly.probed.filterMap (·.probe.toOption)

/-- The invariant of the loop over the responsibilities. -/
structure Conserves (assembly : Assembly) : Prop where
  node : ∀ id, assembly.state.graph.node id =
    assembly.contributions.findSome? (·.graph.node id)
  conflicts : ∀ id, id ∈ assembly.conflicts ↔
    ¬ Undisputed assembly.contributions assembly.state id
  reported : Reported assembly
  dependencies : ∀ edge, edge ∈ assembly.state.graph.dependencies ↔
    ∃ contribution ∈ assembly.contributions, edge ∈ contribution.graph.dependencies
  relations : ∀ link, link ∈ assembly.state.graph.relations ↔
    ∃ contribution ∈ assembly.contributions, link ∈ contribution.graph.relations
  mounts : assembly.state.mounts = assembly.contributions.flatMap (·.mounts)
  lvmVgs : assembly.lvmVgs = assembly.contributions.flatMap (·.lvmVgs)

variable {assembly other : Assembly} {providers others : List StateProvider}

theorem conserves_empty : Conserves {} where
  node _ := rfl
  conflicts id := by simp [Undisputed, contributions]
  reported id hid := absurd hid (Finset.notMem_empty id)
  dependencies edge := by simp [emptyCurrentState, contributions, NodeGraph.empty]
  relations link := by simp [emptyCurrentState, contributions, NodeGraph.empty]
  mounts := rfl
  lvmVgs := rfl

theorem contributions_probed (assembly : Assembly) (adapter : StateProvider) :
    { assembly with probed := assembly.probed ++ [adapter] }.contributions =
      assembly.contributions ++ adapter.probe.toOption.toList := by
  cases h : adapter.probe <;> simp [contributions, h, Except.toOption]

/-- A merged node keeps its value, so a new contribution disputes what it disagrees with and settles
nothing. -/
theorem undisputed_append {merged : List ProviderState} {contribution : ProviderState}
    {state later : CurrentState}
    (hfirst : ∀ id, state.graph.node id = merged.findSome? (·.graph.node id))
    (hnode : ∀ id, later.graph.node id =
      (state.graph.node id).or (contribution.graph.node id)) (id : NodeId) :
    Undisputed (merged ++ [contribution]) later id ↔ Undisputed merged state id ∧
      ∀ node, contribution.graph.node id = some node →
        ∀ existing, state.graph.node id = some existing → existing = node := by
  have hknown : ∀ known ∈ merged, ∀ node, known.graph.node id = some node →
      ∃ existing, state.graph.node id = some existing := by
    intro known hknown node hnode
    rw [hfirst, ← Option.isSome_iff_exists, List.findSome?_isSome_iff]
    exact ⟨known, hknown, hnode ▸ rfl⟩
  constructor
  · -- The first observation wins, so a known node keeps its value after the merge.
    intro h
    constructor
    · intro known hmem node hvalue
      obtain ⟨existing, hexisting⟩ := hknown known hmem node hvalue
      have hlater := h known (List.mem_append_left _ hmem) node hvalue
      rwa [hnode, hexisting, Option.some_or, ← hexisting] at hlater
    · intro node hvalue existing hexisting
      have hlast := List.mem_append_right merged (List.mem_singleton_self contribution)
      have hlater := h contribution hlast node hvalue
      rw [hnode, hexisting, Option.some_or] at hlater
      exact Option.some.inj hlater
  · rintro ⟨hold, hnew⟩ known hmem node hvalue
    rw [hnode]
    rcases List.mem_append.mp hmem with hmem | hmem
    · rw [hold known hmem node hvalue, Option.some_or]
    · obtain rfl := List.mem_singleton.mp hmem
      cases hexisting : state.graph.node id with
      | none => exact hvalue
      | some existing => rw [hnew node hvalue existing hexisting, Option.some_or]

/-- A diagnostic changes nothing, nor does a call that contributed nothing. -/
theorem Conserves.report (h : Conserves assembly) {probed : List StateProvider}
    (hsame : { assembly with probed }.contributions = assembly.contributions)
    (diagnostics : List Diagnostic) :
    Conserves ({ assembly with probed }.report diagnostics) := by
  have hcontributions : ({ assembly with probed }.report diagnostics).contributions =
      assembly.contributions := hsame
  constructor
  case reported =>
    intro id hid
    obtain ⟨owner, provider, hmem⟩ := h.reported id hid
    exact ⟨owner, provider, List.mem_append_left _ hmem⟩
  all_goals rw [hcontributions]
  case node => exact h.node
  case conflicts => exact h.conflicts
  case dependencies => exact h.dependencies
  case relations => exact h.relations
  case mounts => exact h.mounts
  case lvmVgs => exact h.lvmVgs

/-- The call of one adapter keeps the invariant. -/
theorem Conserves.probeAdapter (h : Conserves assembly) (adapter : StateProvider) :
    Conserves (assembly.probeAdapter adapter) := by
  have hprobed := contributions_probed assembly adapter
  unfold Assembly.probeAdapter
  cases hprobe : adapter.probe with
  | error error =>
      refine h.report ?_ _
      rw [hprobed, hprobe, Except.toOption, Option.toList_none, List.append_nil]
  | ok contribution =>
      dsimp only
      have hmerged := merged_mergeProviderState
        { assembly with
          probed := assembly.probed ++ [adapter]
          lvmVgs := assembly.lvmVgs ++ contribution.lvmVgs } adapter.id contribution
      generalize mergeProviderState _ adapter.id contribution = other at hmerged
      have hcontributions : other.contributions = assembly.contributions ++ [contribution] := by
        rw [contributions, hmerged.probed]
        exact hprobed.trans (by rw [hprobe, Except.toOption, Option.toList_some])
      have hundisputed := undisputed_append h.node hmerged.node
      constructor
      case node =>
        intro id
        rw [hcontributions, List.findSome?_append, ← h.node, hmerged.node]
        simp
      case conflicts =>
        intro id
        rw [hcontributions, hmerged.conflicts, hundisputed, h.conflicts, not_and_or]
        simp
      case reported => exact hmerged.reported h.reported
      case dependencies =>
        intro edge
        rw [hcontributions, hmerged.dependencies, h.dependencies]
        simp [or_and_right, exists_or]
      case relations =>
        intro link
        rw [hcontributions, hmerged.relations, h.relations]
        simp [or_and_right, exists_or]
      case mounts => rw [hcontributions, hmerged.mounts, h.mounts]; simp
      case lvmVgs => rw [hcontributions, hmerged.lvmVgs, h.lvmVgs]; simp

/-- One responsibility: its only claimant is called, or nobody is. -/
theorem probeResponsibility_cases (providers : List StateProvider) (assembly : Assembly)
    (responsibility : String) :
    (∃ adapter, adapters providers responsibility = [adapter] ∧
      assembly.probeResponsibility providers responsibility = assembly.probeAdapter adapter) ∨
    (adapters providers responsibility).length ≠ 1 ∧
      assembly.probeResponsibility providers responsibility = assembly.report
        [responsibilityConflict responsibility (adapters providers responsibility)] := by
  unfold probeResponsibility
  split
  next adapter h => exact .inl ⟨adapter, h, rfl⟩
  next h =>
    refine .inr ⟨fun hone => ?_, rfl⟩
    obtain ⟨adapter, hadapter⟩ := List.length_eq_one_iff.mp hone
    exact h adapter hadapter

theorem Conserves.probeResponsibility (h : Conserves assembly) (responsibility : String) :
    Conserves (assembly.probeResponsibility providers responsibility) := by
  rcases probeResponsibility_cases providers assembly responsibility with
    ⟨adapter, -, heq⟩ | ⟨-, heq⟩
  · exact heq ▸ h.probeAdapter adapter
  · exact heq ▸ h.report rfl _

end Assembly

open Assembly

/-- **The loop over the responsibilities keeps the law.** -/
theorem conserves_assemble (providers : List StateProvider) : Conserves (assemble providers) :=
  List.foldlRecOn (responsibilities providers) _ conserves_empty fun _ h responsibility _ =>
    h.probeResponsibility responsibility

/-- **The assembled snapshot is conservative.** -/
theorem conservative_assemble (providers : List StateProvider) :
    Conservative (assemble providers).contributions (probeWithObservations providers).1
      (probeWithObservations providers).2 := by
  have h := conserves_assemble providers
  refine ⟨h.node, fun id => ?_, h.dependencies, h.relations, h.mounts, fun observation => ?_⟩
  · by_cases hid : id ∈ (assemble providers).conflicts
    · obtain ⟨owner, provider, hmem⟩ := h.reported id hid
      refine .inr ⟨⟨_, hmem, rfl, List.mem_singleton_self _⟩, fun observation hobserved heq => ?_⟩
      simp [probeWithObservations, heq, hid] at hobserved
    · exact .inl (not_not.mp (mt (h.conflicts id).mpr hid))
  · have hdisputed := h.conflicts observation.node
    simp only [probeWithObservations, List.mem_filter, decide_eq_true_eq, hdisputed, not_not,
      h.lvmVgs, List.mem_flatMap]

/-! ### Calls -/

/-- A responsibility that one entry of the list claims. -/
def Exclusive (providers : List StateProvider) (responsibility : String) : Prop :=
  (providers.map (·.responsibility)).count responsibility = 1

theorem length_adapters (providers : List StateProvider) (responsibility : String) :
    (adapters providers responsibility).length =
      (providers.map (·.responsibility)).count responsibility := by
  rw [adapters, ← List.countP_eq_length_filter, List.count, List.countP_map]
  rfl

theorem mem_responsibilities {providers : List StateProvider} {provider : StateProvider}
    (h : provider ∈ providers) : provider.responsibility ∈ responsibilities providers := by
  simpa [responsibilities] using ⟨provider, h, rfl⟩

/-- The only claimant of a responsibility. -/
def soleAdapter (providers : List StateProvider) (responsibility : String) :
    Option StateProvider :=
  match adapters providers responsibility with
  | [adapter] => some adapter
  | _ => none

/-- The sole adapter is the only one. -/
theorem soleAdapter_eq_some {providers : List StateProvider} {responsibility : String}
    {adapter : StateProvider} :
    soleAdapter providers responsibility = some adapter ↔
      adapters providers responsibility = [adapter] := by
  unfold soleAdapter
  split
  next other h => simp [h]
  next h => simpa using h adapter

namespace Assembly

variable {assembly other : Assembly} {providers others : List StateProvider}

/-- One call is logged, keeps every diagnostic, and reports its failure. -/
theorem probeAdapter_spec (assembly : Assembly) (adapter : StateProvider) :
    (assembly.probeAdapter adapter).probed = assembly.probed ++ [adapter] ∧
      assembly.state.diagnostics ⊆ (assembly.probeAdapter adapter).state.diagnostics ∧
      ∀ error, adapter.probe = .error error →
        providerFailure adapter.id adapter.connectionKind (error.code ++ ": " ++ error.message) ∈
          (assembly.probeAdapter adapter).state.diagnostics := by
  unfold probeAdapter
  cases hprobe : adapter.probe with
  | error error =>
      refine ⟨rfl, fun _ h => List.mem_append_left _ h, fun _ herror => ?_⟩
      cases herror
      exact List.mem_append_right _ (List.mem_singleton_self _)
  | ok contribution =>
      have hmerged := merged_mergeProviderState
        { assembly with
          probed := assembly.probed ++ [adapter]
          lvmVgs := assembly.lvmVgs ++ contribution.lvmVgs } adapter.id contribution
      exact ⟨hmerged.probed, hmerged.diagnostics, nofun⟩

/-- A responsibility adds its sole adapter to those probed. -/
theorem probed_probeResponsibility (providers : List StateProvider) (assembly : Assembly)
    (responsibility : String) :
    (assembly.probeResponsibility providers responsibility).probed =
      assembly.probed ++ (soleAdapter providers responsibility).toList := by
  rcases probeResponsibility_cases providers assembly responsibility with
    ⟨adapter, hadapter, heq⟩ | ⟨hlength, heq⟩
  · rw [heq, (probeAdapter_spec assembly adapter).1, soleAdapter_eq_some.mpr hadapter,
      Option.toList_some]
  · have hnone : soleAdapter providers responsibility = none := by
      refine Option.eq_none_iff_forall_ne_some.mpr fun adapter hsole => hlength ?_
      rw [soleAdapter_eq_some.mp hsole, List.length_singleton]
    rw [heq, hnone, Option.toList_none, List.append_nil]
    rfl

/-- No diagnostic is lost. -/
theorem diagnostics_probeResponsibility (providers : List StateProvider) (assembly : Assembly)
    (responsibility : String) :
    assembly.state.diagnostics ⊆
      (assembly.probeResponsibility providers responsibility).state.diagnostics := by
  rcases probeResponsibility_cases providers assembly responsibility with
    ⟨adapter, -, heq⟩ | ⟨-, heq⟩
  · exact heq ▸ (probeAdapter_spec assembly adapter).2.1
  · exact heq ▸ fun _ h => List.mem_append_left _ h

end Assembly

/-- **The calls of a probe**: one for every responsibility with one claimant. -/
theorem probed_assemble (providers : List StateProvider) :
    (assemble providers).probed =
      (responsibilities providers).filterMap (soleAdapter providers) := by
  have hloop (remaining : List String) (assembly : Assembly) :
      (remaining.foldl (probeResponsibility providers) assembly).probed =
        assembly.probed ++ remaining.filterMap (soleAdapter providers) := by
    induction remaining generalizing assembly with
    | nil => simp
    | cons responsibility remaining ih =>
        rw [List.foldl_cons, ih, probed_probeResponsibility, List.append_assoc,
          List.filterMap_cons]
        cases soleAdapter providers responsibility <;> simp
  exact hloop _ _

section Calls

variable {providers : List StateProvider} {provider : StateProvider}

/-- A claimant of an exclusive responsibility is its only one. -/
theorem adapters_exclusive (h : provider ∈ providers)
    (hone : Exclusive providers provider.responsibility) :
    adapters providers provider.responsibility = [provider] := by
  have hmem : provider ∈ adapters providers provider.responsibility :=
    List.mem_filter.mpr ⟨h, beq_self_eq_true _⟩
  rw [Exclusive, ← length_adapters, List.length_eq_one_iff] at hone
  obtain ⟨only, honly⟩ := hone
  rw [honly, List.mem_singleton] at hmem
  rw [honly, hmem]

theorem mem_probed : provider ∈ (assemble providers).probed ↔
    provider ∈ providers ∧ Exclusive providers provider.responsibility := by
  rw [probed_assemble, List.mem_filterMap]
  constructor
  · rintro ⟨responsibility, -, hsole⟩
    have hadapters := soleAdapter_eq_some.mp hsole
    have hmem : provider ∈ adapters providers responsibility :=
      hadapters ▸ List.mem_singleton_self _
    obtain ⟨hprovider, hclaims⟩ := List.mem_filter.mp hmem
    rw [beq_iff_eq] at hclaims
    rw [hclaims, Exclusive, ← length_adapters, hadapters]
    exact ⟨hprovider, rfl⟩
  · rintro ⟨hprovider, hone⟩
    exact ⟨_, mem_responsibilities hprovider,
      soleAdapter_eq_some.mpr (adapters_exclusive hprovider hone)⟩

theorem nodup_probed (providers : List StateProvider) : (assemble providers).probed.Nodup := by
  rw [probed_assemble]
  refine List.Nodup.filterMap (fun first second adapter hfirst hsecond => ?_)
    (Finset.sort_nodup _ _)
  have hclaims : ∀ {responsibility}, soleAdapter providers responsibility = some adapter →
      adapter.responsibility = responsibility := by
    intro responsibility h
    have hmem : adapter ∈ adapters providers responsibility :=
      soleAdapter_eq_some.mp h ▸ List.mem_singleton_self _
    exact beq_iff_eq.mp (List.mem_filter.mp hmem).2
  exact (hclaims hfirst).symm.trans (hclaims hsecond)

/-- What one responsibility reports is in the published state. -/
theorem mem_diagnostics_assemble {diagnostic : Diagnostic} (h : provider ∈ providers)
    (hreports : ∀ assembly : Assembly, diagnostic ∈
      (assembly.probeResponsibility providers provider.responsibility).state.diagnostics) :
    diagnostic ∈ (assemble providers).state.diagnostics :=
  Support.foldl_establishes (P := fun assembly : Assembly =>
    diagnostic ∈ assembly.state.diagnostics) (mem_responsibilities h) hreports
    (fun assembly responsibility _ hmem =>
      diagnostics_probeResponsibility providers assembly responsibility hmem) _

/-- A provider that fails is reported. -/
theorem failure_reported (h : provider ∈ providers)
    (hone : Exclusive providers provider.responsibility) {error : ProviderProbeError}
    (herror : provider.probe = .error error) :
    providerFailure provider.id provider.connectionKind (error.code ++ ": " ++ error.message) ∈
      (assemble providers).state.diagnostics := by
  refine mem_diagnostics_assemble h fun assembly => ?_
  rw [probeResponsibility, adapters_exclusive h hone]
  exact (probeAdapter_spec assembly provider).2.2 error herror

/-- A responsibility claimed twice is reported. -/
theorem conflict_reported (h : provider ∈ providers)
    (hmany : ¬ Exclusive providers provider.responsibility) :
    responsibilityConflict provider.responsibility
        (adapters providers provider.responsibility) ∈
      (assemble providers).state.diagnostics := by
  refine mem_diagnostics_assemble h fun assembly => ?_
  rcases probeResponsibility_cases providers assembly provider.responsibility with
    ⟨adapter, hadapter, -⟩ | ⟨-, heq⟩
  · rw [Exclusive, ← length_adapters, hadapter] at hmany
    exact absurd rfl hmany
  · rw [heq]
    exact List.mem_append_right _ (List.mem_singleton_self _)

end Calls

/-! ### The order of the list -/

/-- A diagnostic without its evidence text. -/
def Diagnostic.withoutEvidence (diagnostic : Diagnostic) : Diagnostic :=
  { diagnostic with evidence := none }

/-- The same state, but for the evidence of its diagnostics. -/
def CurrentState.Alike (state other : CurrentState) : Prop :=
  ∃ diagnostics, other = { state with diagnostics } ∧
    diagnostics.map Diagnostic.withoutEvidence =
      state.diagnostics.map Diagnostic.withoutEvidence

namespace Assembly

variable {assembly other : Assembly} {providers others : List StateProvider}

/-- The assemblies differ in their states alone, and these are alike. -/
def Alike (assembly other : Assembly) : Prop :=
  ∃ state, other = { assembly with state } ∧ assembly.state.Alike state

theorem Alike.refl (assembly : Assembly) : Alike assembly assembly := ⟨_, rfl, _, rfl, rfl⟩

/-- Diagnostics that differ in their evidence keep assemblies alike. -/
theorem Alike.report (h : Alike assembly other) {diagnostics later : List Diagnostic}
    (hsame : later.map Diagnostic.withoutEvidence =
      diagnostics.map Diagnostic.withoutEvidence) :
    Alike (assembly.report diagnostics) (other.report later) := by
  obtain ⟨_, rfl, reported, rfl, hreported⟩ := h
  refine ⟨_, rfl, reported ++ later, rfl, ?_⟩
  rw [Assembly.report, List.map_append, List.map_append, hreported, hsame]

theorem Alike.mergeNode (h : Alike assembly other) (providerId : String)
    (entry : NodeId × Node) :
    Alike (mergeNode providerId assembly entry) (mergeNode providerId other entry) := by
  obtain ⟨id, node⟩ := entry
  have hnode : other.state.graph.node id = assembly.state.graph.node id := by
    obtain ⟨_, rfl, _, rfl, -⟩ := h
    rfl
  rcases mergeNode_cases assembly id node with hid | hid | ⟨existing, hid, hne⟩
  · rw [mergeNode_absent node hid, mergeNode_absent node (hnode.trans hid)]
    obtain ⟨_, rfl, reported, rfl, hreported⟩ := h
    exact ⟨_, rfl, reported, rfl, hreported⟩
  · rwa [mergeNode_agreed hid, mergeNode_agreed (hnode.trans hid)]
  · rw [mergeNode_disputed hid hne, mergeNode_disputed (hnode.trans hid) hne]
    refine Alike.report ?_ rfl
    obtain ⟨_, rfl, reported, rfl, hreported⟩ := h
    exact ⟨_, rfl, reported, rfl, hreported⟩

/-- Merging an environment keeps assemblies alike. -/
theorem Alike.mergeEnvironment (h : Alike assembly other) (providerId : String)
    (observed : Option Environment) :
    Alike (mergeEnvironment providerId assembly observed)
      (mergeEnvironment providerId other observed) := by
  obtain ⟨_, rfl, reported, rfl, hreported⟩ := h
  cases observed with
  | none => exact ⟨_, rfl, reported, rfl, hreported⟩
  | some environment =>
      by_cases hempty : assembly.state.environment = emptyCurrentState.environment
      · simp only [Assembly.mergeEnvironment, hempty, if_true]
        exact ⟨_, rfl, reported, rfl, hreported⟩
      · by_cases hsame : assembly.state.environment = environment
        · subst hsame
          simp only [Assembly.mergeEnvironment, hempty, if_false, ne_eq, not_true_eq_false]
          exact ⟨_, rfl, reported, rfl, hreported⟩
        · simp only [Assembly.mergeEnvironment, hempty, if_false, hsame, ne_eq,
            not_false_eq_true, if_true]
          exact Alike.report ⟨_, rfl, reported, rfl, hreported⟩ rfl

/-- Merging a contribution keeps assemblies alike. -/
theorem Alike.mergeProviderState (h : Alike assembly other) (providerId : String)
    (contribution : ProviderState) :
    Alike (assembly.mergeProviderState providerId contribution)
      (other.mergeProviderState providerId contribution) := by
  have hnodes : Alike (mergeNodes providerId assembly contribution.graph)
      (mergeNodes providerId other contribution.graph) :=
    List.foldl_rel h fun entry _ _ _ hrel => hrel.mergeNode providerId entry
  refine Alike.report (Alike.mergeEnvironment ?_ providerId contribution.environment) rfl
  obtain ⟨_, heq, reported, rfl, hreported⟩ := hnodes
  rw [heq]
  exact ⟨_, rfl, reported, rfl, hreported⟩

theorem Alike.probeAdapter (h : Alike assembly other) (adapter : StateProvider) :
    Alike (assembly.probeAdapter adapter) (other.probeAdapter adapter) := by
  obtain ⟨state, rfl, hstate⟩ := h
  unfold Assembly.probeAdapter
  cases adapter.probe with
  | error error =>
      have hlogged : Alike { assembly with probed := assembly.probed ++ [adapter] }
          { assembly with state, probed := assembly.probed ++ [adapter] } := ⟨state, rfl, hstate⟩
      exact hlogged.report rfl
  | ok contribution =>
      have hlogged : Alike
          { assembly with
            probed := assembly.probed ++ [adapter]
            lvmVgs := assembly.lvmVgs ++ contribution.lvmVgs }
          { assembly with
            state
            probed := assembly.probed ++ [adapter]
            lvmVgs := assembly.lvmVgs ++ contribution.lvmVgs } := ⟨state, rfl, hstate⟩
      exact hlogged.mergeProviderState adapter.id contribution

/-- Only the evidence of a conflict shows the order of its claimants. -/
theorem Alike.probeResponsibility (h : Alike assembly other) (hperm : providers.Perm others)
    (responsibility : String) :
    Alike (assembly.probeResponsibility providers responsibility)
      (other.probeResponsibility others responsibility) := by
  have hadapters : (adapters providers responsibility).Perm (adapters others responsibility) :=
    hperm.filter _
  unfold Assembly.probeResponsibility
  rcases perm_cases hadapters with ⟨hleft, hright⟩ | ⟨adapter, hleft, hright⟩ |
      ⟨a, b, rest, a', b', rest', hleft, hright⟩
  · rw [hleft, hright]
    exact h.report rfl
  · rw [hleft, hright]
    exact h.probeAdapter adapter
  · rw [hleft, hright]
    exact h.report rfl

end Assembly

/-- **A permutation of the providers shows in the evidence of diagnostics only.** -/
theorem alike_assemble {providers others : List StateProvider} (hperm : providers.Perm others) :
    Alike (assemble providers) (assemble others) := by
  have hsame : responsibilities others = responsibilities providers := by
    rw [responsibilities, responsibilities,
      List.toFinset_eq_of_perm _ _ (hperm.map (·.responsibility))]
  rw [assemble, assemble, hsame]
  exact List.foldl_rel (Alike.refl {}) fun responsibility _ _ _ hrel =>
    hrel.probeResponsibility hperm responsibility

/-- What a provider that is not called would have answered does not matter. -/
theorem assemble_unprobed {providers : List StateProvider}
    {answer : StateProvider → Except ProviderProbeError ProviderState}
    (hprobed : ∀ provider ∈ providers, Exclusive providers provider.responsibility →
      answer provider = provider.probe) :
    assemble (providers.map fun provider => { provider with probe := answer provider }) =
      assemble providers := by
  have hsame : responsibilities (providers.map fun provider =>
      { provider with probe := answer provider }) = responsibilities providers := by
    rw [responsibilities, responsibilities, List.map_map]
    rfl
  have hadapters (responsibility : String) : adapters (providers.map fun provider =>
      { provider with probe := answer provider }) responsibility =
        (adapters providers responsibility).map fun provider =>
          { provider with probe := answer provider } := by
    rw [adapters, List.filter_map]
    rfl
  have hstep : probeResponsibility (providers.map fun provider =>
      { provider with probe := answer provider }) = probeResponsibility providers := by
    funext assembly responsibility
    rw [probeResponsibility, probeResponsibility, hadapters]
    match hclaimants : adapters providers responsibility with
    | [] => rfl
    | [adapter] =>
        have hmem : adapter ∈ adapters providers responsibility :=
          hclaimants ▸ List.mem_singleton_self _
        obtain ⟨hprovider, hclaims⟩ := List.mem_filter.mp hmem
        rw [beq_iff_eq] at hclaims
        have hanswer := hprobed adapter hprovider (by
          rw [hclaims, Exclusive, ← length_adapters, hclaimants, List.length_singleton])
        simp [hanswer]
    | first :: second :: rest =>
        simp only [List.map_cons, responsibilityConflict, List.map_map]
        rfl
  rw [assemble, assemble, hsame, hstep]

/-- **Provider merge is conservative.** -/
theorem probe_conservative (providers : List StateProvider) :
    Conservative (assemble providers).contributions (probeWithObservations providers).1
        (probeWithObservations providers).2 ∧
      ((assemble providers).probed.Nodup ∧ ∀ provider, provider ∈ (assemble providers).probed ↔
        provider ∈ providers ∧ Exclusive providers provider.responsibility) ∧
      (∀ answer : StateProvider → Except ProviderProbeError ProviderState,
        (∀ provider ∈ providers, Exclusive providers provider.responsibility →
          answer provider = provider.probe) →
        probeWithObservations (providers.map fun provider =>
          { provider with probe := answer provider }) = probeWithObservations providers) ∧
      (∀ provider ∈ providers,
        (¬ Exclusive providers provider.responsibility →
          responsibilityConflict provider.responsibility
              (adapters providers provider.responsibility) ∈
            (probeWithObservations providers).1.diagnostics) ∧
        ∀ error, Exclusive providers provider.responsibility →
          provider.probe = .error error →
          providerFailure provider.id provider.connectionKind
              (error.code ++ ": " ++ error.message) ∈
            (probeWithObservations providers).1.diagnostics) ∧
      ∀ others, providers.Perm others →
        (probeWithObservations providers).1.Alike (probeWithObservations others).1 ∧
          (probeWithObservations others).2 = (probeWithObservations providers).2 := by
  refine ⟨conservative_assemble providers, ⟨nodup_probed providers, fun _ => mem_probed⟩,
    fun answer hanswer => ?_, fun provider hmem => ?_, fun others hperm => ?_⟩
  · rw [probeWithObservations, assemble_unprobed hanswer, probeWithObservations]
  · exact ⟨conflict_reported hmem, fun error hone herror => failure_reported hmem hone herror⟩
  · obtain ⟨state, heq, halike⟩ := alike_assemble hperm
    rw [probeWithObservations, probeWithObservations, heq]
    exact ⟨halike, rfl⟩

end DisksGraph
