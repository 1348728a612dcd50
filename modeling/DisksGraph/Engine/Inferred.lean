import DisksGraph.Engine.Terminates
import DisksGraph.Model.Reorder
import Mathlib.Data.Fintype.EquivFin
import Mathlib.Order.WellFounded

/-!
# Engine — Inferred

The edges that composition infers never close a cycle.

`bind_mount_order` orders two mount changes only when neither precedes the other, and a provider is
bound to a consumer only when the consumer does not precede it.  So dependencies that were acyclic
stay so, and `DependencyCycle` can only report an edge that the fragments, the ordering or the
planned nodes asked for.

* `Acyclic.addDependency`: one edge.
* `Acyclic.bindMountOrder`, `Acyclic.bindOwned`, `Acyclic.resolveRequirements`: the three stages.
* `Acyclic.topologicalOrder_spares`: an acyclic list of edges has a topological order.
* `requirementProvider_perm`: the latest provider does not depend on the order of the candidates.
-/

namespace DisksGraph

open Support (Returns)

/-! ### One more edge -/

/-- With one more pair, a path is an old one or goes through the pair. -/
theorem transGen_insert {α : Type} {r : α → α → Prop} {s t x y : α}
    (h : Relation.TransGen (fun a b => r a b ∨ (a = s ∧ b = t)) x y) :
    Relation.TransGen r x y ∨ (Relation.ReflTransGen r x s ∧ Relation.ReflTransGen r t y) := by
  induction h with
  | single h =>
      rcases h with h | ⟨rfl, rfl⟩
      · exact .inl (.single h)
      · exact .inr ⟨.refl, .refl⟩
  | tail _ h ih =>
      rcases h with h | ⟨rfl, rfl⟩
      · rcases ih with ih | ⟨hs, ht⟩
        · exact .inl (ih.tail h)
        · exact .inr ⟨hs, ht.tail h⟩
      · rcases ih with ih | ⟨hs, -⟩
        · exact .inr ⟨ih.to_reflTransGen, .refl⟩
        · exact .inr ⟨hs, .refl⟩

/-- No action precedes itself. -/
def Acyclic (dependencies : List ActionDependency) : Prop :=
  ∀ id, ¬Relation.TransGen (Precedes dependencies) id id

section Edges

variable {dependencies extended : List ActionDependency} {before after : ActionId}
  {reason : DependencyReason}

/-- What one added edge makes precede what. -/
theorem precedes_of_addDependency
    (h : addDependency dependencies before after reason = .ok extended) :
    before ≠ after ∧ ∀ a b, Precedes extended a b →
      Precedes dependencies a b ∨ (a = before ∧ b = after) := by
  unfold addDependency at h
  split at h
  · cases h
  · next hproper =>
    refine ⟨hproper, fun a b hab => ?_⟩
    split at h
    · obtain rfl := Except.ok.inj h
      exact .inl hab
    · obtain rfl := Except.ok.inj h
      obtain ⟨edge, hedge, rfl, rfl⟩ := hab
      rcases List.mem_append.mp hedge with hedge | hedge
      · exact .inl ⟨edge, hedge, rfl, rfl⟩
      · obtain rfl := List.mem_singleton.mp hedge
        exact .inr ⟨rfl, rfl⟩

/-- **An edge against which there is no path closes no cycle.** -/
theorem Acyclic.addDependency (hacyclic : Acyclic dependencies)
    (hpath : dependencyPath after before dependencies = false)
    (h : DisksGraph.addDependency dependencies before after reason = .ok extended) :
    Acyclic extended := by
  obtain ⟨hproper, hprecedes⟩ := precedes_of_addDependency h
  intro id hcycle
  have hback : ¬Relation.TransGen (Precedes dependencies) after before := by
    rw [← dependencyPath_iff, hpath]
    exact Bool.false_ne_true
  rcases transGen_insert (Relation.TransGen.mono hprecedes _ _ hcycle) with hold | ⟨hto, hfrom⟩
  · exact hacyclic id hold
  · rcases Relation.reflTransGen_iff_eq_or_transGen.mp (hfrom.trans hto) with heq | hpath
    · exact hproper heq
    · exact hback hpath

end Edges

/-! ### The stages -/

section Stages

variable {dependencies extended : List ActionDependency} {actions : List DraftAction}
  {requirements : List PendingRequirement} {trace : AnalysedOrder}

theorem Acyclic.bindMountPair {parent child : DraftAction} (hacyclic : Acyclic dependencies)
    (h : DisksGraph.bindMountPair parent dependencies child = .ok extended) : Acyclic extended := by
  unfold DisksGraph.bindMountPair at h
  split at h
  · split at h
    · exact Except.ok.inj h ▸ hacyclic
    · split at h
      · exact Except.ok.inj h ▸ hacyclic
      · next hpaths =>
        obtain ⟨hdown, hup⟩ := Bool.or_eq_false_iff.mp (Bool.eq_false_iff.mpr hpaths)
        split at h
        · exact hacyclic.addDependency hdown h
        · exact hacyclic.addDependency hup h
  · exact Except.ok.inj h ▸ hacyclic

/-- **The mount order closes no cycle.** -/
theorem Acyclic.bindMountOrder (hacyclic : Acyclic dependencies)
    (h : DisksGraph.bindMountOrder actions dependencies = .ok extended) : Acyclic extended := by
  refine Support.foldlM_invariant hacyclic (fun parent _ _ _ hkept hround => ?_) h
  refine Support.foldlM_invariant hkept (fun child _ _ _ hkept hpair => ?_) hround
  exact hkept.bindMountPair hpair

/-- The provider of a requirement can be put before its consumer. -/
theorem Acyclic.bindProvider {requirement : PendingRequirement} {provider : ActionId}
    {contracts : List (ActionId × ActionContract)} {reason : DependencyReason}
    (hacyclic : Acyclic dependencies)
    (hprovider : requirementProvider requirement contracts dependencies = .ok (some provider))
    (h : DisksGraph.addDependency dependencies provider requirement.action reason = .ok extended) :
    Acyclic extended :=
  hacyclic.addDependency (requirementProvider_some hprovider).2.1 h

/-- **A contextual output closes no cycle.** -/
theorem Acyclic.bindOwned {projection : Projection} {action : DraftAction}
    {contract : ActionContract} {providers : List (ActionId × ActionContract)}
    {owned : List PendingRequirement} (hacyclic : Acyclic dependencies)
    (howned : ∀ requirement ∈ owned, requirement.action = action.id)
    (h : DisksGraph.bindOwned projection action contract providers dependencies owned =
      .ok (some extended)) : Acyclic extended := by
  induction owned with
  | nil => cases h
  | cons requirement rest ih =>
      obtain ⟨hrequirement, hrest⟩ := List.forall_mem_cons.mp howned
      unfold DisksGraph.bindOwned at h
      by_cases hdeclared : requirement.prerequisite ∈ contract.prerequisites
      · rw [if_neg (not_not_intro hdeclared)] at h
        dsimp only at h
        split at h
        · exact ih hrest h
        · obtain ⟨provider, hprovider, h⟩ := Support.except_bind_eq_ok.mp h
          cases provider with
          | none => exact ih hrest h
          | some provider =>
              obtain ⟨added, hadded, h⟩ := Support.except_bind_eq_ok.mp h
              obtain rfl := Option.some.inj (Except.ok.inj h)
              rw [← hrequirement] at hadded
              exact hacyclic.bindProvider hprovider hadded
      · rw [if_pos hdeclared] at h
        cases h

theorem Acyclic.resolveRequirement {requirement : PendingRequirement}
    (hacyclic : Acyclic dependencies)
    (h : DisksGraph.resolveRequirement trace dependencies requirement = .ok extended) :
    Acyclic extended := by
  unfold DisksGraph.resolveRequirement at h
  split at h
  · cases h
  · next check _ =>
    by_cases hobserved : check.status = .satisfied .observedSnapshot
    · rw [if_pos hobserved] at h
      exact Except.ok.inj h ▸ hacyclic
    · rw [if_neg hobserved] at h
      obtain ⟨provider, hprovider, h⟩ := Support.except_bind_eq_ok.mp h
      cases provider with
      | some provider => exact hacyclic.bindProvider hprovider h
      | none =>
          dsimp only at h
          split at h
          · cases h
          · exact Except.ok.inj h ▸ hacyclic

/-- **The resolution of the requirements closes no cycle.** -/
theorem Acyclic.resolveRequirements (hacyclic : Acyclic dependencies)
    (h : DisksGraph.resolveRequirements requirements trace dependencies = .ok extended) :
    Acyclic extended := by
  obtain ⟨_, -, h⟩ := Support.except_bind_eq_ok.mp h
  exact Support.foldlM_invariant hacyclic
    (fun requirement _ _ _ hkept hround => hkept.resolveRequirement hround) h

end Stages

/-! ### Topological order -/

section Order

variable {dependencies : List ActionDependency} {count : Nat}

/-- A topological order is only found for acyclic edges. -/
theorem acyclic_of_topologicalOrder {order : List ActionId}
    (h : topologicalOrder count dependencies = pure order) : Acyclic dependencies := by
  have hafter : ∀ edge ∈ dependencies, edge.after.get < count := by
    intro edge hedge
    rw [topologicalOrder] at h
    split at h
    · cases h
    · next hany =>
      by_contra hout
      exact hany (List.any_eq_true.mpr ⟨edge, hedge, decide_eq_true (Nat.not_lt.mp hout)⟩)
  have hedge : ∀ a b, Precedes dependencies a b → order.idxOf a < order.idxOf b := by
    rintro a b ⟨edge, hedge, rfl, rfl⟩
    exact topologicalOrder_respects h hedge
      (((topologicalOrder_eq_pure h).2.2 edge.after).mpr (hafter edge hedge))
  have hlt : ∀ a b, Relation.TransGen (Precedes dependencies) a b →
      order.idxOf a < order.idxOf b := by
    intro a b hpath
    induction hpath with
    | single hab => exact hedge _ _ hab
    | tail _ hbc ih => exact ih.trans (hedge _ _ hbc)
  exact fun id hcycle => Nat.lt_irrefl _ (hlt id id hcycle)

/-- Among the actions that are not emitted, one has only emitted predecessors. -/
theorem Acyclic.exists_ready (hacyclic : Acyclic dependencies)
    (hbefore : ∀ edge ∈ dependencies, edge.before.get < count) {emitted : List ActionId}
    (hlength : emitted.length < count) :
    ∃ index < count, ⟨index⟩ ∉ emitted ∧ openEdges dependencies emitted index = 0 := by
  let earlier : Fin count → Fin count → Prop := fun a b =>
    Relation.TransGen (Precedes dependencies) ⟨a⟩ ⟨b⟩
  have : IsTrans (Fin count) earlier := ⟨fun _ _ _ => .trans⟩
  have : Std.Irrefl earlier := ⟨fun index => hacyclic ⟨index⟩⟩
  have hmissing : ∃ index : Fin count, ⟨index⟩ ∉ emitted := by
    by_contra hall
    push Not at hall
    have hsubset : (List.range count).map ActionId.mk ⊆ emitted := by
      intro id hid
      obtain ⟨index, hindex, rfl⟩ := List.mem_map.mp hid
      exact hall ⟨index, List.mem_range.mp hindex⟩
    have hnodup : ((List.range count).map ActionId.mk).Nodup :=
      List.nodup_range.map fun _ _ heq => congrArg ActionId.get heq
    have hle := (hnodup.subperm hsubset).length_le
    rw [List.length_map, List.length_range] at hle
    omega
  obtain ⟨index, hfresh, hleast⟩ :=
    (Finite.wellFounded_of_trans_of_irrefl earlier).has_min
      {index | (⟨index⟩ : ActionId) ∉ emitted} hmissing
  refine ⟨index, index.isLt, hfresh, List.countP_eq_zero.mpr fun edge hedge hopen => ?_⟩
  obtain ⟨hafter, hout⟩ := of_decide_eq_true hopen
  refine hleast ⟨edge.before.get, hbefore edge hedge⟩ hout (.single ⟨edge, hedge, rfl, ?_⟩)
  exact ActionId.ext hafter

/-- **An acyclic list of edges between the actions has a topological order.** -/
theorem Acyclic.topologicalOrder_spares (hacyclic : Acyclic dependencies)
    (hbefore : ∀ edge ∈ dependencies, edge.before.get < count) :
    (topologicalOrder count dependencies).Spares (· = .dependencyCycle) := by
  have hloop : ∀ {missing : Nat} {indegree : Nat → Nat} {order : List ActionId},
      (∀ index, indegree index = openEdges dependencies order index) →
      order.length + missing = count →
      (topologicalLoop count dependencies missing indegree order).Spares
        (· = .dependencyCycle) := by
    intro missing
    induction missing with
    | zero => exact fun _ _ => trivial
    | succ missing ih =>
        intro indegree order hcounts hlength
        unfold topologicalLoop
        split
        · next hnone =>
          -- A ready action exists, so the search does not come back empty.
          obtain ⟨index, hindex, hfresh, hopen⟩ :=
            @Acyclic.exists_ready _ count hacyclic hbefore order (by omega)
          rw [nextReady, List.find?_eq_none] at hnone
          refine absurd ?_ (hnone index (List.mem_range.mpr hindex))
          simp [hfresh, hcounts index, hopen]
        · next next hnext =>
          split
          · exact nofun
          · split
            · trivial
            · next released hreleased =>
              have hfound := List.find?_some hnext
              simp only [Bool.and_eq_true, decide_eq_true_eq] at hfound
              refine ih (fun index => ?_) ?_
              · have hrelease := releaseSuccessors_eq_some hreleased index
                have hemit := @openEdges_emit dependencies _ _ hfound.1 index
                have hcount := hcounts index
                omega
              · rw [List.length_append, List.length_singleton]
                omega
  unfold topologicalOrder
  split
  · trivial
  · exact hloop (fun index => by simp [openEdges]) (Nat.zero_add _)

end Order

/-! ### The choice of a provider -/

section Provider

variable {dependencies : List ActionDependency} {requirement : PendingRequirement}
  {contracts others : List (ActionId × ActionContract)}

/-- What the choice of a provider reads of a table of contracts. -/
def offers (contracts : List (ActionId × ActionContract)) : List (ActionId × List ActionOutput) :=
  contracts.map fun entry => (entry.1, entry.2.providedOutputs)

/-- The actions that may provide a requirement. -/
def candidates (requirement : PendingRequirement) (dependencies : List ActionDependency)
    (offered : List (ActionId × List ActionOutput)) : List ActionId :=
  (offered.filter fun entry => entry.1 ≠ requirement.action &&
    !dependencyPath requirement.action entry.1 dependencies &&
    entry.2.any (outputSatisfies · requirement.prerequisite)).map (·.1)

theorem candidates_offers : candidates requirement dependencies (offers contracts) =
    (contracts.filter fun entry => entry.1 ≠ requirement.action &&
      !dependencyPath requirement.action entry.1 dependencies &&
      entry.2.providedOutputs.any (outputSatisfies · requirement.prerequisite)).map (·.1) := by
  rw [candidates, offers, List.filter_map, List.map_map]
  rfl

/-- **`requirementProvider_perm`** — of two candidates that every other one precedes, each precedes
the other, so in an acyclic order there is at most one latest provider. -/
theorem requirementProvider_perm (hacyclic : Acyclic dependencies)
    (h : (offers contracts).Perm (offers others)) :
    requirementProvider requirement contracts dependencies =
      requirementProvider requirement others dependencies := by
  have hcandidates : (candidates requirement dependencies (offers contracts)).Perm
      (candidates requirement dependencies (offers others)) := (h.filter _).map _
  rw [candidates_offers, candidates_offers] at hcandidates
  unfold requirementProvider
  dsimp only
  generalize (contracts.filter _).map _ = providers at hcandidates ⊢
  generalize (others.filter _).map _ = providers' at hcandidates ⊢
  have hpredecessors := hcandidates.filter fun provider =>
    dependencyPath provider requirement.action dependencies
  have hlatest : (fun candidate => (providers.filter fun provider =>
        dependencyPath provider requirement.action dependencies).all fun other =>
          other = candidate || dependencyPath other candidate dependencies) =
      fun candidate => (providers'.filter fun provider =>
        dependencyPath provider requirement.action dependencies).all fun other =>
          other = candidate || dependencyPath other candidate dependencies := by
    funext candidate
    rw [Bool.eq_iff_iff, List.all_eq_true, List.all_eq_true]
    simp only [hpredecessors.mem_iff]
  rw [hlatest, find?_perm hpredecessors fun a ha b hb hlast hlast' => ?_]
  · rcases perm_cases hcandidates with
      ⟨hleft, hright⟩ | ⟨a, hleft, hright⟩ | ⟨_, _, _, _, _, _, hleft, hright⟩
    · rw [hleft, hright]
    · rw [hleft, hright]
    · rw [hleft, hright]
  · rw [List.all_eq_true] at hlast hlast'
    have hab := hlast' a (hpredecessors.mem_iff.mp ha)
    have hba := hlast b (hpredecessors.mem_iff.mp hb)
    simp only [Bool.or_eq_true, decide_eq_true_eq, dependencyPath_iff] at hab hba
    rcases hab with hab | hab
    · exact hab
    · rcases hba with hba | hba
      · exact hba.symm
      · exact absurd (hab.trans hba) (hacyclic a)

end Provider

end DisksGraph
