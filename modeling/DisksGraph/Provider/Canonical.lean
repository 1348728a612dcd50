import DisksGraph.Provider.Describe
import Mathlib.Data.String.Basic
import Mathlib.Logic.Relation

/-!
# Provider — Canonical

Comparison of an imported contract with the trusted one (`canonicalize_contract` and
`verify_imported_contract` of `contract.rs`).

The source sorts by the JSON text of each value, which shows more than `==` compares: a path keeps
its spelling, so `/data` and `//data` are one path with two texts, and a hash set its order.

* `Spelling`: the values of a type as they are held in memory, with their texts.
* `HeldContract`: a contract of such values; `HeldContract.value` is what it says.
* `canonicalizeContract`, `verifyImportedContract`: the functions of the source.
* `HeldContract.SameSets.canonicalizeContract`: what canonical form forgets.
-/

namespace DisksGraph

/-! ### Held values -/

/-- The values of a type as they are held in memory.  Equal values may have different texts; one
text is written of one held value only. -/
structure Spelling (α : Type) where
  Held : Type
  /-- What `==` compares. -/
  value : Held → α
  /-- `serde_json::to_string`, `none` for a value that has no JSON form. -/
  text : Held → Option String
  faithful : ∀ a b, text a = text b → (text a).isSome → a = b

/-- How the sorted values of a contract are held. -/
structure ContractSpelling where
  prerequisite : Spelling ActionPrerequisite
  output : Spelling ActionOutput
  resource : Spelling ResourceAccess
  fact : Spelling FactInvalidation
  postcondition : Spelling Postcondition
  effect : Spelling GraphEffect

/-- A contract as it is held in memory.  Mount and allocation effects are never written as text. -/
structure HeldContract (spelling : ContractSpelling) where
  prerequisites : List spelling.prerequisite.Held
  providedOutputs : List spelling.output.Held
  affectedResources : List spelling.resource.Held
  graph : List spelling.effect.Held
  mounts : List MountEffect
  allocations : List AllocationEffect
  invalidatedFacts : List spelling.fact.Held
  postconditions : List spelling.postcondition.Held
  restartPolicy : RestartPolicy

/-- What the contract says. -/
def HeldContract.value {spelling : ContractSpelling} (contract : HeldContract spelling) :
    ActionContract where
  prerequisites := contract.prerequisites.map spelling.prerequisite.value
  providedOutputs := contract.providedOutputs.map spelling.output.value
  affectedResources := contract.affectedResources.map spelling.resource.value
  predictedEffect :=
    { graph := contract.graph.map spelling.effect.value
      mounts := contract.mounts
      allocations := contract.allocations }
  invalidatedFacts := contract.invalidatedFacts.map spelling.fact.value
  postconditions := contract.postconditions.map spelling.postcondition.value
  restartPolicy := contract.restartPolicy

/-- What `describe_action` returns, as it is held: its paths have the spelling of the action's and
of the graph's. -/
def Described (spelling : ContractSpelling) (action : ProviderAction) (graph : NodeGraph) : Type :=
  { held : HeldContract spelling // held.value = describeAction action graph }

/-! ### Canonical form -/

/-- The order of two keyed values. -/
def keyLe {α : Type} (a b : String × α) : Prop := a.1 ≤ b.1

instance {α : Type} : DecidableRel (keyLe (α := α)) := fun a b =>
  inferInstanceAs (Decidable (a.1 ≤ b.1))

/-- `dedup_by`: drops a value whose key equals the key of the last one kept. -/
def dedupKeys {α : Type} : List (String × α) → List (String × α)
  | [] => []
  | a :: rest =>
      match dedupKeys rest with
      | [] => [a]
      | b :: kept => if a.1 = b.1 then a :: kept else a :: b :: kept

/-- Sorts typed values by their deterministic JSON key, deduplicating only semantic sets. -/
def sortContractValues {α : Type} (key : α → Option String) (values : List α)
    (deduplicate : Bool) : Option (List α) := do
  let keyed ← values.mapM fun value => (key value).map fun text => (text, value)
  let sorted := keyed.insertionSort keyLe
  return (if deduplicate then dedupKeys sorted else sorted).map (·.2)

/-- Identifies mutations that commute with other adjacent edge removals. -/
def isEdgeRemoval : GraphEffect → Bool
  | .removeDependency _ | .removeRelation _ => true
  | _ => false

/-- Sorts each maximal run of edge removals; `run` is the run read so far. -/
def sortRemovalRuns {α : Type} (removal : α → Bool) (key : α → Option String) :
    List α → (run : List α) → Option (List α)
  | [], run => sortContractValues key run false
  | effect :: rest, run =>
      if removal effect then sortRemovalRuns removal key rest (run ++ [effect])
      else do
        let sorted ← sortContractValues key run false
        let tail ← sortRemovalRuns removal key rest []
        return sorted ++ effect :: tail

/-- The held effect is an edge removal. -/
def ContractSpelling.removal (spelling : ContractSpelling) (effect : spelling.effect.Held) : Bool :=
  isEdgeRemoval (spelling.effect.value effect)

/-- Canonicalizes set-valued contract fields without reordering sequential mutations. -/
def canonicalizeContract {spelling : ContractSpelling} (contract : HeldContract spelling) :
    Option (HeldContract spelling) := do
  let prerequisites ← sortContractValues spelling.prerequisite.text contract.prerequisites true
  let providedOutputs ← sortContractValues spelling.output.text contract.providedOutputs true
  let affectedResources ← sortContractValues spelling.resource.text contract.affectedResources true
  let invalidatedFacts ← sortContractValues spelling.fact.text contract.invalidatedFacts true
  let postconditions ← sortContractValues spelling.postcondition.text contract.postconditions true
  let graph ← sortRemovalRuns spelling.removal spelling.effect.text contract.graph []
  return { contract with
    prerequisites, providedOutputs, affectedResources, graph, invalidatedFacts, postconditions }

/-- The two contracts are equal, or their canonical forms are. -/
def contractsAgree {spelling : ContractSpelling} (trusted imported : HeldContract spelling) : Bool :=
  trusted.value == imported.value ||
    match canonicalizeContract trusted, canonicalizeContract imported with
    | some trusted, some imported => trusted.value == imported.value
    | _, _ => false

/-- Compares an imported contract with the recalculation of its action; the returned value is always
the trusted recalculation. -/
def verifyImportedContract {spelling : ContractSpelling} {action : ProviderAction}
    {graph : NodeGraph}
    (trusted : Described spelling action graph) (imported : HeldContract spelling) :
    Option (HeldContract spelling) :=
  if contractsAgree trusted.1 imported then some trusted.1 else none

/-! ### Equal canonical forms -/

section Members

variable {α : Type} {key : α → Option String} {values sorted : List α} {value : α}

theorem mem_dedupKeys {keyed : List (String × α)}
    (h : ∀ a ∈ keyed, ∀ b ∈ keyed, a.1 = b.1 → a = b) (item : String × α) :
    item ∈ dedupKeys keyed ↔ item ∈ keyed := by
  induction keyed generalizing item with
  | nil => rfl
  | cons first rest ih =>
      have hrest := ih fun a ha b hb =>
        h a (List.mem_cons_of_mem _ ha) b (List.mem_cons_of_mem _ hb)
      rw [dedupKeys, List.mem_cons, ← hrest item]
      cases hkept : dedupKeys rest with
      | nil => rw [List.mem_cons]
      | cons second kept =>
          have hsecond : second ∈ rest := (hrest second).mp (hkept ▸ List.mem_cons_self)
          dsimp only
          split
          · next hsame =>
            obtain rfl := h first List.mem_cons_self second (List.mem_cons_of_mem _ hsecond) hsame
            rw [List.mem_cons, or_self_left]
          · rw [List.mem_cons]

/-- The values with their texts. -/
theorem mapM_keyed {keyed : List (String × α)}
    (h : values.mapM (fun value => (key value).map fun text => (text, value)) = some keyed) :
    keyed.map (·.2) = values ∧ ∀ item ∈ keyed, key item.2 = some item.1 := by
  induction values generalizing keyed with
  | nil =>
      obtain rfl : [] = keyed := Option.some.inj h
      exact ⟨rfl, nofun⟩
  | cons value rest ih =>
      rw [List.mapM_cons] at h
      obtain ⟨item, hitem, h⟩ := Option.bind_eq_some_iff.mp h
      obtain ⟨items, hitems, h⟩ := Option.bind_eq_some_iff.mp h
      obtain rfl : item :: items = keyed := Option.some.inj h
      obtain ⟨text, htext, rfl⟩ := Option.map_eq_some_iff.mp hitem
      obtain ⟨hvalues, hkeys⟩ := ih hitems
      refine ⟨congrArg (value :: ·) hvalues, fun other hother => ?_⟩
      rcases List.mem_cons.mp hother with rfl | hother
      · exact htext
      · exact hkeys other hother

/-- A sorted list has the values it was made of. -/
theorem mem_sortContractValues {deduplicate : Bool}
    (hkey : ∀ a b, key a = key b → (key a).isSome → a = b)
    (h : sortContractValues key values deduplicate = some sorted) :
    value ∈ sorted ↔ value ∈ values := by
  obtain ⟨keyed, hkeyed, h⟩ := Option.bind_eq_some_iff.mp h
  obtain ⟨hvalues, hkeys⟩ := mapM_keyed hkeyed
  have hsame : ∀ a ∈ keyed.insertionSort keyLe, ∀ b ∈ keyed.insertionSort keyLe,
      a.1 = b.1 → a = b := by
    intro a ha b hb htext
    have hakey := hkeys a ((List.mem_insertionSort _).mp ha)
    have hbkey := hkeys b ((List.mem_insertionSort _).mp hb)
    refine Prod.ext htext (hkey a.2 b.2 ?_ ?_)
    · rw [hakey, hbkey, htext]
    · rw [hakey, Option.isSome_some]
  have hmem : ∀ item, item ∈ (if deduplicate = true then dedupKeys (keyed.insertionSort keyLe)
      else keyed.insertionSort keyLe) ↔ item ∈ keyed := by
    intro item
    split
    · rw [mem_dedupKeys hsame, List.mem_insertionSort]
    · rw [List.mem_insertionSort]
  rw [← Option.some.inj h, ← hvalues, List.mem_map, List.mem_map]
  exact exists_congr fun item => and_congr_left' (hmem item)

end Members

/-! ### What canonical form forgets -/

section Orders

variable {α : Type} {key : α → Option String} {values others : List α}

instance : Std.Total (keyLe (α := α)) := ⟨fun a b => le_total a.1 b.1⟩

instance : IsTrans (String × α) keyLe := ⟨fun _ _ _ hab hbc => le_trans hab hbc⟩

/-- The values with their texts, when each of them has one. -/
theorem mapM_keyed_eq (h : ∀ value ∈ values, (key value).isSome) :
    values.mapM (fun value => (key value).map fun text => (text, value)) =
      some (values.map fun value => ((key value).getD "", value)) := by
  induction values with
  | nil => rfl
  | cons value rest ih =>
      obtain ⟨hvalue, hrest⟩ := List.forall_mem_cons.mp h
      obtain ⟨text, htext⟩ := Option.isSome_iff_exists.mp hvalue
      rw [List.mapM_cons, ih hrest, htext]
      simp [htext]

/-- A value without a text fails the sort. -/
theorem sortContractValues_eq_none {deduplicate : Bool} {value : α} (hvalue : value ∈ values)
    (hnone : key value = none) : sortContractValues key values deduplicate = none := by
  have hkeyed : values.mapM (fun value => (key value).map fun text => (text, value)) = none := by
    induction values with
    | nil => cases hvalue
    | cons first rest ih =>
        rw [List.mapM_cons]
        rcases List.mem_cons.mp hvalue with rfl | hvalue
        · rw [hnone]
          rfl
        · rw [ih hvalue]
          cases (key first).map fun text => (text, first) <;> rfl
  rw [sortContractValues, hkeyed]
  rfl

/-- With a text for every value, the values are sorted by it. -/
theorem sortContractValues_eq {deduplicate : Bool} (h : ∀ value ∈ values, (key value).isSome) :
    sortContractValues key values deduplicate =
      some ((if deduplicate then
          dedupKeys ((values.map fun value => ((key value).getD "", value)).insertionSort keyLe)
        else (values.map fun value => ((key value).getD "", value)).insertionSort keyLe).map
          (·.2)) := by
  rw [sortContractValues, mapM_keyed_eq h]
  rfl

theorem subset_dedupKeys {keyed : List (String × α)} : dedupKeys keyed ⊆ keyed := by
  induction keyed with
  | nil => exact List.Subset.refl _
  | cons first rest ih =>
      rw [dedupKeys]
      split
      · next hkept => exact List.cons_subset_cons _ (List.nil_subset _)
      · next second kept hkept =>
        rw [hkept] at ih
        split
        · exact List.cons_subset_cons _ fun item hitem => ih (List.mem_cons_of_mem _ hitem)
        · exact List.cons_subset_cons _ ih

/-- The texts of what is kept increase. -/
theorem pairwise_dedupKeys {keyed : List (String × α)} (h : keyed.Pairwise keyLe) :
    (dedupKeys keyed).Pairwise (fun a b => a.1 < b.1) := by
  induction keyed with
  | nil => exact .nil
  | cons first rest ih =>
      obtain ⟨hfirst, hrest⟩ := List.pairwise_cons.mp h
      have hkept := ih hrest
      rw [dedupKeys]
      split
      · exact List.pairwise_singleton _ _
      · next second kept heq =>
        rw [heq] at hkept
        obtain ⟨hsecond, hlast⟩ := List.pairwise_cons.mp hkept
        have hle : first.1 ≤ second.1 := by
          refine hfirst second (subset_dedupKeys ?_)
          rw [heq]
          exact List.mem_cons_self
        split
        · next hsame =>
            exact List.pairwise_cons.mpr ⟨fun item hitem => hsame ▸ hsecond item hitem, hlast⟩
        · next hdiffer =>
          have hlt : first.1 < second.1 := lt_of_le_of_ne hle hdiffer
          refine List.pairwise_cons.mpr ⟨fun item hitem => ?_, hkept⟩
          rcases List.mem_cons.mp hitem with rfl | hitem
          · exact hlt
          · exact hlt.trans (hsecond item hitem)

/-- Two values with one text are one value. -/
theorem keyed_inj (hkey : ∀ a b, key a = key b → (key a).isSome → a = b)
    (hvalues : ∀ value ∈ values, (key value).isSome)
    (hothers : ∀ value ∈ others, (key value).isSome)
    {a b : String × α} (ha : a ∈ values.map fun value => ((key value).getD "", value))
    (hb : b ∈ others.map fun value => ((key value).getD "", value)) (h : a.1 = b.1) : a = b := by
  obtain ⟨x, hx, rfl⟩ := List.mem_map.mp ha
  obtain ⟨y, hy, rfl⟩ := List.mem_map.mp hb
  obtain ⟨s, hs⟩ := Option.isSome_iff_exists.mp (hvalues x hx)
  obtain ⟨t, ht⟩ := Option.isSome_iff_exists.mp (hothers y hy)
  have htext : s = t := by simpa [hs, ht] using h
  rw [hkey x y (by rw [hs, ht, htext]) (by rw [hs]; rfl)]

/-- The two lists hold the same values, and all of them have a text or one has none. -/
theorem texts_cases (h : ∀ value, value ∈ values ↔ value ∈ others) :
    ((∀ value ∈ values, (key value).isSome) ∧ ∀ value ∈ others, (key value).isSome) ∨
      ∃ value, value ∈ values ∧ value ∈ others ∧ key value = none := by
  by_cases hsome : ∀ value ∈ values, (key value).isSome
  · exact .inl ⟨hsome, fun value hvalue => hsome value ((h value).mpr hvalue)⟩
  · push Not at hsome
    obtain ⟨value, hvalue, hnone⟩ := hsome
    exact .inr ⟨value, hvalue, (h value).mp hvalue, by simpa using hnone⟩

/-- Sorting forgets the order of the values. -/
theorem sortContractValues_perm (hkey : ∀ a b, key a = key b → (key a).isSome → a = b)
    (h : values.Perm others) :
    sortContractValues key values false = sortContractValues key others false := by
  rcases @texts_cases _ key values others fun _ => h.mem_iff with
    ⟨hvalues, hothers⟩ | ⟨value, hvalue, hother, hnone⟩
  · have hsorted : (values.map fun value => ((key value).getD "", value)).insertionSort keyLe =
        (others.map fun value => ((key value).getD "", value)).insertionSort keyLe := by
      refine List.Perm.eq_of_pairwise (fun a b ha hb hab hba => ?_)
        (List.pairwise_insertionSort keyLe _) (List.pairwise_insertionSort keyLe _) ?_
      · exact keyed_inj hkey hvalues hothers ((List.mem_insertionSort keyLe).mp ha)
          ((List.mem_insertionSort keyLe).mp hb) (le_antisymm hab hba)
      · exact (List.perm_insertionSort _ _).trans
          ((h.map _).trans (List.perm_insertionSort _ _).symm)
    rw [sortContractValues_eq hvalues, sortContractValues_eq hothers, hsorted]
  · rw [sortContractValues_eq_none hvalue hnone, sortContractValues_eq_none hother hnone]

/-- Sorting a semantic set forgets the repetitions as well. -/
theorem sortContractValues_same (hkey : ∀ a b, key a = key b → (key a).isSome → a = b)
    (h : ∀ value, value ∈ values ↔ value ∈ others) :
    sortContractValues key values true = sortContractValues key others true := by
  rcases @texts_cases _ key values others h with
    ⟨hvalues, hothers⟩ | ⟨value, hvalue, hother, hnone⟩
  · have hmem : ∀ {values : List α}, (∀ value ∈ values, (key value).isSome) → ∀ item,
        item ∈ dedupKeys
          ((values.map fun value => ((key value).getD "", value)).insertionSort keyLe) ↔
          item ∈ values.map fun value => ((key value).getD "", value) := by
      intro values hvalues item
      rw [mem_dedupKeys, List.mem_insertionSort]
      intro a ha b hb hab
      exact keyed_inj hkey hvalues hvalues ((List.mem_insertionSort keyLe).mp ha)
        ((List.mem_insertionSort keyLe).mp hb) hab
    have hpairwise : ∀ values : List α, (dedupKeys
        ((values.map fun value => ((key value).getD "", value)).insertionSort keyLe)).Pairwise
          fun a b => a.1 < b.1 := fun values =>
      pairwise_dedupKeys (List.pairwise_insertionSort keyLe _)
    have hkept : dedupKeys
          ((values.map fun value => ((key value).getD "", value)).insertionSort keyLe) =
        dedupKeys ((others.map fun value => ((key value).getD "", value)).insertionSort keyLe) := by
      refine List.Perm.eq_of_pairwise (fun a b _ _ hab hba => absurd hab hba.asymm)
        (hpairwise values) (hpairwise others) ?_
      refine (List.perm_ext_iff_of_nodup ?_ ?_).mpr fun item => ?_
      · exact (hpairwise values).imp fun hab heq => hab.ne (congrArg Prod.fst heq)
      · exact (hpairwise others).imp fun hab heq => hab.ne (congrArg Prod.fst heq)
      · rw [hmem hvalues, hmem hothers, List.mem_map, List.mem_map]
        simp only [h]
    rw [sortContractValues_eq hvalues, sortContractValues_eq hothers, if_pos rfl, if_pos rfl, hkept]
  · rw [sortContractValues_eq_none hvalue hnone, sortContractValues_eq_none hother hnone]

/-- So does the sort of the removal runs, in what it has read so far. -/
theorem sortRemovalRuns_perm {removal : α → Bool} {effects run run' : List α}
    (hkey : ∀ a b, key a = key b → (key a).isSome → a = b) (h : run.Perm run') :
    sortRemovalRuns removal key effects run = sortRemovalRuns removal key effects run' := by
  induction effects generalizing run run' with
  | nil => exact sortContractValues_perm hkey h
  | cons effect rest ih =>
      rw [sortRemovalRuns, sortRemovalRuns]
      split
      · exact ih (h.append_right _)
      · rw [sortContractValues_perm hkey h]

theorem sortRemovalRuns_removals {removal : α → Bool} {removals rest run : List α}
    (h : ∀ effect ∈ removals, removal effect = true) :
    sortRemovalRuns removal key (removals ++ rest) run =
      sortRemovalRuns removal key rest (run ++ removals) := by
  induction removals generalizing run with
  | nil => rw [List.nil_append, List.append_nil]
  | cons effect removals ih =>
      obtain ⟨heffect, hremovals⟩ := List.forall_mem_cons.mp h
      rw [List.cons_append, sortRemovalRuns, if_pos heffect, ih hremovals, List.append_assoc]
      rfl

end Orders

/-- Two sequences of effects that differ in the order of one run of removals. -/
def RunReorder {α : Type} (removal : α → Bool) (effects others : List α) : Prop :=
  ∃ before removals removals' after : List α,
    effects = before ++ (removals ++ after) ∧ others = before ++ (removals' ++ after) ∧
      removals.Perm removals' ∧ ∀ effect ∈ removals, removal effect = true

section Runs

variable {α β : Type} {removal : α → Bool} {key : α → Option String}
  {effects others run sorted : List α}

/-- What a run says is reordered as it is held. -/
theorem RunReorder.map {removes : β → Bool} {f : α → β}
    (h : RunReorder (fun effect => removes (f effect)) effects others) :
    RunReorder removes (effects.map f) (others.map f) := by
  obtain ⟨before, removals, removals', after, rfl, rfl, hperm, hremovals⟩ := h
  refine ⟨before.map f, removals.map f, removals'.map f, after.map f, by simp, by simp,
    hperm.map f, fun effect heffect => ?_⟩
  obtain ⟨held, hheld, rfl⟩ := List.mem_map.mp heffect
  exact hremovals held hheld

/-- **Sorting the removal runs forgets the order of each.** -/
theorem RunReorder.sortRemovalRuns (h : RunReorder removal effects others)
    (hkey : ∀ a b, key a = key b → (key a).isSome → a = b) :
    DisksGraph.sortRemovalRuns removal key effects run =
      DisksGraph.sortRemovalRuns removal key others run := by
  obtain ⟨before, removals, removals', after, rfl, rfl, hperm, hremovals⟩ := h
  induction before generalizing run with
  | nil =>
      rw [List.nil_append, List.nil_append, sortRemovalRuns_removals hremovals,
        sortRemovalRuns_removals fun effect h => hremovals effect (hperm.mem_iff.mpr h)]
      exact sortRemovalRuns_perm hkey (hperm.append_left run)
  | cons effect before ih =>
      rw [List.cons_append, List.cons_append, DisksGraph.sortRemovalRuns,
        DisksGraph.sortRemovalRuns]
      split
      · exact ih
      · rw [ih]

theorem sortRemovalRuns_of_runs (h : Relation.ReflTransGen (RunReorder removal) effects others)
    (hkey : ∀ a b, key a = key b → (key a).isSome → a = b) :
    sortRemovalRuns removal key effects run = sortRemovalRuns removal key others run := by
  induction h with
  | refl => rfl
  | tail _ hreorder ih => rw [ih, hreorder.sortRemovalRuns hkey]

theorem RunReorder.mem_iff {effect : α} (h : RunReorder removal effects others) :
    effect ∈ effects ↔ effect ∈ others := by
  obtain ⟨before, removals, removals', after, rfl, rfl, hperm, -⟩ := h
  simp only [List.mem_append, hperm.mem_iff]

theorem mem_iff_of_runs {effect : α}
    (h : Relation.ReflTransGen (RunReorder removal) effects others) :
    effect ∈ effects ↔ effect ∈ others := by
  induction h with
  | refl => exact Iff.rfl
  | tail _ hreorder ih => exact ih.trans hreorder.mem_iff

theorem RunReorder.append_left (h : RunReorder removal effects others) (front : List α) :
    RunReorder removal (front ++ effects) (front ++ others) := by
  obtain ⟨before, removals, removals', after, rfl, rfl, hrun⟩ := h
  exact ⟨front ++ before, removals, removals', after, by rw [List.append_assoc],
    by rw [List.append_assoc], hrun⟩

/-- The values of a list without repetitions dropped, in another order. -/
theorem perm_sortContractValues {values sorted : List α}
    (h : sortContractValues key values false = some sorted) : values.Perm sorted := by
  obtain ⟨keyed, hkeyed, h⟩ := Option.bind_eq_some_iff.mp h
  obtain ⟨hvalues, -⟩ := mapM_keyed hkeyed
  rw [← Option.some.inj h, ← hvalues, if_neg Bool.false_ne_true]
  exact (List.perm_insertionSort keyLe keyed).symm.map _

/-- What is sorted differs from the original in the order of its runs. -/
theorem runReorder_sortRemovalRuns (h : sortRemovalRuns removal key effects run = some sorted)
    (hrun : ∀ effect ∈ run, removal effect = true) :
    Relation.ReflTransGen (RunReorder removal) (run ++ effects) sorted := by
  induction effects generalizing run sorted with
  | nil =>
      exact .single ⟨[], run, sorted, [], by simp, by simp, perm_sortContractValues h, hrun⟩
  | cons effect rest ih =>
      rw [sortRemovalRuns] at h
      split at h
      · next hremoval =>
        have hextended := ih h fun other hother => by
          rcases List.mem_append.mp hother with hother | hother
          · exact hrun other hother
          · rwa [List.mem_singleton.mp hother]
        rwa [List.append_assoc] at hextended
      · obtain ⟨before, hbefore, h⟩ := Option.bind_eq_some_iff.mp h
        obtain ⟨tail, htail, h⟩ := Option.bind_eq_some_iff.mp h
        obtain rfl := Option.some.inj h
        have hfirst : RunReorder removal (run ++ effect :: rest) (before ++ effect :: rest) :=
          ⟨[], run, before, effect :: rest, rfl, rfl, perm_sortContractValues hbefore, hrun⟩
        have hrest := (ih htail nofun).lift (fun effects => before ++ effect :: effects)
          fun _ _ hreorder => by simpa using hreorder.append_left (before ++ [effect])
        exact .head hfirst hrest

end Runs

/-! ### Contracts with the same sets -/

section Contracts

variable {spelling : ContractSpelling} {contract other canonical trusted imported :
  HeldContract spelling}

/-- Two contracts that differ in the order and the repetitions of what is a set, and in the order of
runs of edge removals. -/
structure HeldContract.SameSets (contract other : HeldContract spelling) : Prop where
  prerequisites : ∀ condition, condition ∈ contract.prerequisites ↔ condition ∈ other.prerequisites
  outputs : ∀ output, output ∈ contract.providedOutputs ↔ output ∈ other.providedOutputs
  resources : ∀ access, access ∈ contract.affectedResources ↔ access ∈ other.affectedResources
  facts : ∀ fact, fact ∈ contract.invalidatedFacts ↔ fact ∈ other.invalidatedFacts
  postconditions : ∀ condition,
    condition ∈ contract.postconditions ↔ condition ∈ other.postconditions
  graph : Relation.ReflTransGen (RunReorder spelling.removal) contract.graph other.graph
  mounts : contract.mounts = other.mounts
  allocations : contract.allocations = other.allocations
  restartPolicy : contract.restartPolicy = other.restartPolicy

/-- **Two such contracts have one canonical form.** -/
theorem HeldContract.SameSets.canonicalizeContract (h : contract.SameSets other) :
    DisksGraph.canonicalizeContract contract = DisksGraph.canonicalizeContract other := by
  unfold DisksGraph.canonicalizeContract
  rw [sortContractValues_same spelling.prerequisite.faithful h.prerequisites,
    sortContractValues_same spelling.output.faithful h.outputs,
    sortContractValues_same spelling.resource.faithful h.resources,
    sortContractValues_same spelling.fact.faithful h.facts,
    sortContractValues_same spelling.postcondition.faithful h.postconditions,
    sortRemovalRuns_of_runs h.graph spelling.effect.faithful, h.mounts, h.allocations,
    h.restartPolicy]

/-- And the canonical form is such a contract itself. -/
theorem sameSets_canonicalizeContract (h : canonicalizeContract contract = some canonical) :
    contract.SameSets canonical := by
  obtain ⟨prerequisites, hprerequisites, h⟩ := Option.bind_eq_some_iff.mp h
  obtain ⟨outputs, houtputs, h⟩ := Option.bind_eq_some_iff.mp h
  obtain ⟨resources, hresources, h⟩ := Option.bind_eq_some_iff.mp h
  obtain ⟨facts, hfacts, h⟩ := Option.bind_eq_some_iff.mp h
  obtain ⟨postconditions, hpostconditions, h⟩ := Option.bind_eq_some_iff.mp h
  obtain ⟨graph, hgraph, h⟩ := Option.bind_eq_some_iff.mp h
  obtain rfl := Option.some.inj h
  exact {
    prerequisites := fun _ =>
      (mem_sortContractValues spelling.prerequisite.faithful hprerequisites).symm
    outputs := fun _ => (mem_sortContractValues spelling.output.faithful houtputs).symm
    resources := fun _ => (mem_sortContractValues spelling.resource.faithful hresources).symm
    facts := fun _ => (mem_sortContractValues spelling.fact.faithful hfacts).symm
    postconditions := fun _ =>
      (mem_sortContractValues spelling.postcondition.faithful hpostconditions).symm
    graph := runReorder_sortRemovalRuns hgraph nofun
    mounts := rfl
    allocations := rfl
    restartPolicy := rfl }

/-- The runs of what such contracts say are reordered alike. -/
theorem HeldContract.SameSets.runs (h : contract.SameSets other) :
    Relation.ReflTransGen (RunReorder isEdgeRemoval) contract.value.predictedEffect.graph
      other.value.predictedEffect.graph :=
  h.graph.lift (List.map spelling.effect.value) fun _ _ hreorder =>
    @RunReorder.map _ _ _ _ isEdgeRemoval spelling.effect.value hreorder

/-- Two contracts that declare the same, whatever the order and the repetitions. -/
structure ActionContract.SameDeclarations (contract other : ActionContract) : Prop where
  resources : ∀ access, access ∈ contract.affectedResources ↔ access ∈ other.affectedResources
  graph : ∀ effect, effect ∈ contract.predictedEffect.graph ↔ effect ∈ other.predictedEffect.graph
  mounts : contract.predictedEffect.mounts = other.predictedEffect.mounts
  allocations : contract.predictedEffect.allocations = other.predictedEffect.allocations

theorem HeldContract.SameSets.declarations (h : contract.SameSets other) :
    contract.value.SameDeclarations other.value where
  resources access := by
    simp only [HeldContract.value, List.mem_map, h.resources]
  graph _ := mem_iff_of_runs h.runs
  mounts := h.mounts
  allocations := h.allocations

/-- An imported contract that is accepted declares what the trusted one does. -/
theorem contractsAgree_same (h : contractsAgree trusted imported = true) :
    trusted.value.SameDeclarations imported.value := by
  rw [contractsAgree, Bool.or_eq_true, beq_iff_eq] at h
  rcases h with h | h
  · rw [h]
    exact ⟨fun _ => Iff.rfl, fun _ => Iff.rfl, rfl, rfl⟩
  · split at h
    · next canonical canonical' htrusted himported =>
      have hequal := beq_iff_eq.mp h
      have htrusted := (sameSets_canonicalizeContract htrusted).declarations
      have himported := (sameSets_canonicalizeContract himported).declarations
      rw [hequal] at htrusted
      exact ⟨fun access => (htrusted.resources access).trans (himported.resources access).symm,
        fun effect => (htrusted.graph effect).trans (himported.graph effect).symm,
        htrusted.mounts.trans himported.mounts.symm,
        htrusted.allocations.trans himported.allocations.symm⟩
    · cases h

end Contracts

end DisksGraph
