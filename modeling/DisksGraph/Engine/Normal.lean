import DisksGraph.Engine.Simulate
import DisksGraph.Wire.Contract

/-!
# Engine — Normal

What canonical form keeps of a contract, and what it forgets (`canonicalize_contract`,
`verify_imported_contract`).

* `removals_comm`, `foldlM_runs`: edges of one run can be removed in any order, with the same
  outcome.
* `canonical_contract_normal_form`: canonical form is a normal form with the same effect, and an
  imported contract is accepted when it is the trusted one or has its canonical form.
* `unencodable_contract_accepted`: a contract that is equal to the trusted one needs no canonical
  form.
-/

namespace DisksGraph

open Support (except_bind_eq_ok Variant)

namespace Projection

/-! ### Edge removals commute -/

section Removals

variable {projection next : Projection} {first second : GraphEffect}
  {effects others : List GraphEffect}

/-- Removing an edge needs the edge. -/
theorem applyGraphEffect_removeDependency {dependency : Dependency} :
    projection.applyGraphEffect (.removeDependency dependency) = .ok next ↔
      dependency ∈ projection.graph.dependencies ∧
        projection.withGraph (projection.graph.removeDependency dependency) = next := by
  rw [applyGraphEffect]
  by_cases h : dependency ∈ projection.graph.dependencies <;> simp [h]

/-- Removing a relation needs the relation. -/
theorem applyGraphEffect_removeRelation {relation : Relation} :
    projection.applyGraphEffect (.removeRelation relation) = .ok next ↔
      relation ∈ projection.graph.relations ∧
        projection.withGraph (projection.graph.removeRelation relation) = next := by
  rw [applyGraphEffect]
  by_cases h : relation ∈ projection.graph.relations <;> simp [h]

theorem graph_withGraph (graph : NodeGraph) : (projection.withGraph graph).graph = graph := rfl

theorem removeDependency_comm (graph : NodeGraph) (d d' : Dependency) :
    (graph.removeDependency d).removeDependency d' =
      (graph.removeDependency d').removeDependency d := by
  simp only [NodeGraph.removeDependency, List.erase_comm]

theorem removeRelation_comm (graph : NodeGraph) (r r' : Relation) :
    (graph.removeRelation r).removeRelation r' = (graph.removeRelation r').removeRelation r := by
  simp only [NodeGraph.removeRelation, List.erase_comm]

/-- Two removals have one outcome, whichever comes first. -/
theorem removals_comm (hfirst : isEdgeRemoval first = true)
    (hsecond : isEdgeRemoval second = true) :
    (∃ mid, projection.applyGraphEffect first = .ok mid ∧ mid.applyGraphEffect second = .ok next) →
      ∃ mid, projection.applyGraphEffect second = .ok mid ∧
        mid.applyGraphEffect first = .ok next := by
  rintro ⟨mid, hmid, hnext⟩
  cases first <;> cases hfirst <;> cases second <;> cases hsecond
  case removeDependency.refl.removeDependency.refl d d' =>
    obtain ⟨hd, rfl⟩ := applyGraphEffect_removeDependency.mp hmid
    obtain ⟨hd', rfl⟩ := applyGraphEffect_removeDependency.mp hnext
    rw [graph_withGraph, NodeGraph.mem_removeDependency] at hd'
    refine ⟨_, applyGraphEffect_removeDependency.mpr ⟨hd'.2, rfl⟩,
      applyGraphEffect_removeDependency.mpr ⟨?_, ?_⟩⟩
    · rw [graph_withGraph, NodeGraph.mem_removeDependency]
      exact ⟨hd'.1.symm, hd⟩
    · rw [graph_withGraph, graph_withGraph, removeDependency_comm]
      rfl
  -- Edges of different kinds do not see each other.
  case removeDependency.refl.removeRelation.refl d r =>
    obtain ⟨hd, rfl⟩ := applyGraphEffect_removeDependency.mp hmid
    obtain ⟨hr, rfl⟩ := applyGraphEffect_removeRelation.mp hnext
    exact ⟨_, applyGraphEffect_removeRelation.mpr ⟨hr, rfl⟩,
      applyGraphEffect_removeDependency.mpr ⟨hd, rfl⟩⟩
  case removeRelation.refl.removeDependency.refl r d =>
    obtain ⟨hr, rfl⟩ := applyGraphEffect_removeRelation.mp hmid
    obtain ⟨hd, rfl⟩ := applyGraphEffect_removeDependency.mp hnext
    exact ⟨_, applyGraphEffect_removeDependency.mpr ⟨hd, rfl⟩,
      applyGraphEffect_removeRelation.mpr ⟨hr, rfl⟩⟩
  case removeRelation.refl.removeRelation.refl r r' =>
    obtain ⟨hr, rfl⟩ := applyGraphEffect_removeRelation.mp hmid
    obtain ⟨hr', rfl⟩ := applyGraphEffect_removeRelation.mp hnext
    rw [graph_withGraph, NodeGraph.mem_removeRelation] at hr'
    refine ⟨_, applyGraphEffect_removeRelation.mpr ⟨hr'.2, rfl⟩,
      applyGraphEffect_removeRelation.mpr ⟨?_, ?_⟩⟩
    · rw [graph_withGraph, NodeGraph.mem_removeRelation]
      exact ⟨hr'.1.symm, hr⟩
    · rw [graph_withGraph, graph_withGraph, removeRelation_comm]
      rfl

/-- A run of removals has one outcome in every order. -/
theorem foldlM_removals (h : effects.Perm others)
    (hremovals : ∀ effect ∈ effects, isEdgeRemoval effect = true) (projection : Projection) :
    effects.foldlM applyGraphEffect projection = .ok next ↔
      others.foldlM applyGraphEffect projection = .ok next := by
  induction h generalizing projection with
  | nil => exact Iff.rfl
  | cons effect _ ih =>
      rw [List.foldlM_cons, List.foldlM_cons, except_bind_eq_ok, except_bind_eq_ok]
      exact exists_congr fun mid => and_congr_right fun _ =>
        ih (fun other h => hremovals other (List.mem_cons_of_mem _ h)) mid
  | swap second first rest =>
      have hsecond := hremovals second (by simp)
      have hfirst := hremovals first (by simp)
      simp only [List.foldlM_cons, except_bind_eq_ok]
      constructor
      · rintro ⟨mid, hmid, last, hlast, hrest⟩
        obtain ⟨mid', hmid', hlast'⟩ := removals_comm hfirst hsecond ⟨mid, hmid, hlast⟩
        exact ⟨mid', hmid', last, hlast', hrest⟩
      · rintro ⟨mid, hmid, last, hlast, hrest⟩
        obtain ⟨mid', hmid', hlast'⟩ := removals_comm hsecond hfirst ⟨mid, hmid, hlast⟩
        exact ⟨mid', hmid', last, hlast', hrest⟩
  | trans hleft _ ihleft ihright =>
      exact (ihleft hremovals projection).trans
        (ihright (fun effect h => hremovals effect (hleft.mem_iff.mpr h)) projection)

/-- **The order of the removals in a run makes no difference.** -/
theorem foldlM_runs (h : Relation.ReflTransGen (RunReorder isEdgeRemoval) effects others)
    (projection : Projection) :
    effects.foldlM applyGraphEffect projection = .ok next ↔
      others.foldlM applyGraphEffect projection = .ok next := by
  induction h with
  | refl => exact Iff.rfl
  | tail _ hreorder ih =>
      obtain ⟨before, removals, removals', after, rfl, rfl, hperm, hremovals⟩ := hreorder
      rw [ih]
      simp only [List.foldlM_append, except_bind_eq_ok, foldlM_removals hperm hremovals]

end Removals

/-- Two effects that differ in the order of removal runs are applied alike, to every state. -/
theorem applyEffect_sameSets {spelling : ContractSpelling} {contract other : HeldContract spelling}
    (h : contract.SameSets other) (projection : Projection) (invalidations : List FactInvalidation)
    (result : List FactInvalidation × Projection) :
    projection.applyEffect contract.value.predictedEffect invalidations = .ok result ↔
      projection.applyEffect other.value.predictedEffect invalidations = .ok result := by
  have hmounts : contract.value.predictedEffect.mounts = other.value.predictedEffect.mounts :=
    h.mounts
  have hallocations :
      contract.value.predictedEffect.allocations = other.value.predictedEffect.allocations :=
    h.allocations
  simp only [applyEffect, except_bind_eq_ok, foldlM_runs h.runs, hmounts, hallocations]

end Projection

/-! ### Imported contracts -/

section Imported

variable {spelling : ContractSpelling} {trusted imported : HeldContract spelling}

/-- The contracts say the same, or both have canonical forms that do. -/
def HeldContract.Matches (trusted imported : HeldContract spelling) : Prop :=
  imported.value = trusted.value ∨ ∃ canonical canonical',
    canonicalizeContract trusted = some canonical ∧
    canonicalizeContract imported = some canonical' ∧ canonical'.value = canonical.value

theorem contractsAgree_iff :
    contractsAgree trusted imported = true ↔ trusted.Matches imported := by
  rw [contractsAgree, Bool.or_eq_true, beq_iff_eq, eq_comm]
  refine or_congr Iff.rfl ?_
  cases canonicalizeContract trusted with
  | none => simp
  | some canonical =>
      cases canonicalizeContract imported with
      | none => simp
      | some canonical' =>
          rw [beq_iff_eq, eq_comm]
          simp

/-- What is accepted is the trusted contract. -/
theorem verifyImportedContract_eq_some {action : ProviderAction} {graph : NodeGraph}
    {trusted : Described spelling action graph} {accepted : HeldContract spelling} :
    verifyImportedContract trusted imported = some accepted ↔
      accepted = trusted.1 ∧ trusted.1.Matches imported := by
  rw [verifyImportedContract, ← contractsAgree_iff]
  by_cases h : contractsAgree trusted.1 imported = true
  · simp [h, eq_comm]
  · simp [h]

end Imported

/-- **Canonical form is a meaning-preserving normal form.**  It is its own canonical form, and its
effect has the same outcome in every state; contracts that differ in the order and repetitions of
set-valued fields, or in the order of runs of edge removals, have one canonical form.  An imported
contract is accepted, as the trusted recalculation, exactly when it is equal to the recalculation or
both have canonical forms and these are equal. -/
theorem canonical_contract_normal_form {spelling : ContractSpelling}
    (contract : HeldContract spelling) :
    (∀ canonical, canonicalizeContract contract = some canonical →
      canonicalizeContract canonical = some canonical ∧
      ∀ (projection : Projection) invalidations result,
        projection.applyEffect canonical.value.predictedEffect invalidations = .ok result ↔
          projection.applyEffect contract.value.predictedEffect invalidations = .ok result) ∧
    (∀ other, contract.SameSets other →
      canonicalizeContract other = canonicalizeContract contract) ∧
    ∀ action graph (trusted : Described spelling action graph) accepted,
      verifyImportedContract trusted contract = some accepted ↔
        accepted = trusted.1 ∧ (contract.value = describeAction action graph ∨
          ∃ canonical canonical', canonicalizeContract trusted.1 = some canonical ∧
            canonicalizeContract contract = some canonical' ∧
            canonical'.value = canonical.value) := by
  refine ⟨fun canonical h => ?_, fun other h => h.canonicalizeContract.symm,
    fun action graph trusted accepted => ?_⟩
  · have hsame := sameSets_canonicalizeContract h
    refine ⟨hsame.canonicalizeContract.symm.trans h, fun projection invalidations result => ?_⟩
    exact (projection.applyEffect_sameSets hsame invalidations result).symm
  · rw [verifyImportedContract_eq_some, HeldContract.Matches, trusted.2]

/-! ### The contract of an unmount -/

/-- What `describe_action` returns for an unmount, with the target as it is held. -/
def heldUnmount (target : PathBuf.codec.Stored) : HeldContract .serde where
  prerequisites := [Variant.place _ ⟨17, by decide⟩ (((), target), .inl ())]
  providedOutputs := []
  affectedResources := [(((), .inl ()), .inr (.inl ())),
    (((), Variant.place _ ⟨4, by decide⟩ (((), target), .inl ())), .inr (.inl ()))]
  graph := []
  mounts := [.removeRuntime (PathBuf.codec.value target) .host]
  allocations := []
  invalidatedFacts := [(((), .inr (.inl (((), target), .inl ()))),
    Variant.place _ ⟨6, by decide⟩ ())]
  postconditions := [Variant.place _ ⟨11, by decide⟩ (((), target), .inl ())]
  restartPolicy := .idempotent

/-- The contract of an unmount, written with the target's stored spelling. -/
def describedUnmount (target : PathBuf.codec.Stored) :
    Described .serde (.mount (.unmount (PathBuf.codec.value target) .host)) .empty :=
  ⟨heldUnmount target, rfl⟩

/-- The contract of an unmount of `/data`, with its sets turned round and repeated. -/
def shuffled : HeldContract .serde :=
  let trusted := heldUnmount (.inl "/data")
  { trusted with
    prerequisites := trusted.prerequisites ++ trusted.prerequisites
    affectedResources := trusted.affectedResources.reverse }

/-- It is not equal to the trusted contract, and is accepted as that. -/
theorem canonical_contract_normal_form_shuffled :
    shuffled.value ≠ (heldUnmount (.inl "/data")).value ∧
      verifyImportedContract (describedUnmount (.inl "/data")) shuffled =
        some (heldUnmount (.inl "/data")) := by
  refine ⟨by decide, ?_⟩
  obtain ⟨-, hsame, hverify⟩ := canonical_contract_normal_form shuffled
  have hsome : (canonicalizeContract (heldUnmount (.inl "/data"))).isSome = true := by
    decide +kernel
  obtain ⟨canonical, hcanonical⟩ := Option.isSome_iff_exists.mp hsome
  refine (hverify _ _ (describedUnmount (.inl "/data")) _).mpr
    ⟨rfl, .inr ⟨canonical, canonical, hcanonical, ?_, rfl⟩⟩
  rw [← hcanonical]
  refine (hsame _ ?_).symm
  exact {
    prerequisites := fun _ => by simp [shuffled]
    outputs := fun _ => Iff.rfl
    resources := fun _ => by simp [shuffled]
    facts := fun _ => Iff.rfl
    postconditions := fun _ => Iff.rfl
    graph := .refl
    mounts := rfl
    allocations := rfl
    restartPolicy := rfl }

/-- The contract with its condition a second time, in another spelling of the same path. -/
def respelled : HeldContract .serde :=
  let trusted := heldUnmount (.inl "/data")
  { trusted with
    prerequisites := trusted.prerequisites ++ (heldUnmount (.inl "//data")).prerequisites }

example : (heldUnmount (.inl "//data")).value = (heldUnmount (.inl "/data")).value ∧
    verifyImportedContract (describedUnmount (.inl "/data")) respelled = none := by
  refine ⟨by decide +kernel, ?_⟩
  have hnone : (verifyImportedContract
      (describedUnmount (.inl "/data")) respelled).isNone = true := by
    decide +kernel
  exact Option.isNone_iff_eq_none.mp hnone

/-- A target whose name is the byte `ff`, which JSON cannot hold. -/
def unencodable : PathBuf.codec.Stored :=
  .inr ⟨⟨[.rootDir, .nonUtf8 ⟨[0xff], not_isValidUTF8_ff⟩]⟩,
    PathBuf.not_utf8 (List.mem_cons_of_mem _ List.mem_cons_self)⟩

/-- Its own contract is accepted, and has no canonical form. -/
theorem unencodable_contract_accepted :
    ¬ ∀ (spelling : ContractSpelling) (action : ProviderAction) (graph : NodeGraph)
      (trusted : Described spelling action graph) (imported : HeldContract spelling),
      (verifyImportedContract trusted imported = some trusted.1 ↔
        ∃ canonical canonical', canonicalizeContract trusted.1 = some canonical ∧
          canonicalizeContract imported = some canonical' ∧
          canonical'.value = canonical.value) := by
  intro h
  have haccepted : verifyImportedContract (describedUnmount unencodable) (heldUnmount unencodable) =
      some (heldUnmount unencodable) := verifyImportedContract_eq_some.mpr ⟨rfl, .inl rfl⟩
  obtain ⟨canonical, -, hcanonical, -⟩ :=
    (h .serde _ _ (describedUnmount unencodable) (heldUnmount unencodable)).mp haccepted
  cases hcanonical

end DisksGraph
