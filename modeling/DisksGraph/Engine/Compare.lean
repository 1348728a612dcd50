import DisksGraph.Engine.Simulate
import DisksGraph.Model.Reorder

/-!
# Engine — Compare

What `compare_graph` of `simulate.rs` decides.

The source infers that two collections are equal from their lengths and one inclusion, then scans
the requested sizes with an early return for a contradiction and a flag for a missing capacity.

* `compareGraph_eq`: the scan as the loop of the source runs it.
* `topologyMatches_iff`: length and inclusion are equality, since no collection holds an entry
  twice.
* `compareGraph_decides`: each of the three answers is given exactly when its condition holds.
-/

namespace DisksGraph

variable {projected requested : NodeGraph}

/-! ### The scan of the source -/

/-- The first condition of `compare_graph`. -/
def topologyMatches (projected requested : NodeGraph) : Bool :=
  projected.nodeList.length == requested.nodeList.length &&
  (projected.nodeList.all fun entry =>
    (requested.kindOf entry.1).any (· == entry.2.kind.kind)) &&
  projected.dependencies.length == requested.dependencies.length &&
  (projected.dependencies.all fun edge => requested.dependencies.contains edge) &&
  projected.relations.length == requested.relations.length &&
  (projected.relations.all fun link => requested.relations.contains link)

/-- The loop over the requested nodes, with the flag it carries to its end. -/
def compareSizes (projected : NodeGraph) : List (NodeId × Node) → (unknown : Bool) → GoalStatus
  | [], unknown =>
      if unknown then
        .unknown "provider capacity evidence for nodes with explicitly requested sizes"
      else .satisfied
  | (id, goal) :: rest, unknown =>
      match goal.kind.size with
      | none => compareSizes projected rest unknown
      | some required =>
          match knownSize projected id with
          | some actual =>
              if actual = required then compareSizes projected rest unknown
              else .violated "projected capacity does not match the requested size"
          | none => compareSizes projected rest true

/-- An early return and a deferred flag answer as two searches over the whole list do. -/
theorem compareSizes_eq (entries : List (NodeId × Node)) (unknown : Bool) :
    compareSizes projected entries unknown =
      if entries.any (sizeMismatch projected) then
        .violated "projected capacity does not match the requested size"
      else if unknown || entries.any (sizeUnknown projected) then
        .unknown "provider capacity evidence for nodes with explicitly requested sizes"
      else .satisfied := by
  induction entries generalizing unknown with
  | nil => simp [compareSizes]
  | cons entry rest ih =>
      obtain ⟨id, goal⟩ := entry
      rw [List.any_cons, List.any_cons, compareSizes]
      cases hsize : goal.kind.size with
      | none =>
          have hmismatch : sizeMismatch projected (id, goal) = false := by
            simp [sizeMismatch, hsize]
          have hunknown : sizeUnknown projected (id, goal) = false := by simp [sizeUnknown, hsize]
          rw [hmismatch, hunknown, Bool.false_or, Bool.false_or]
          exact ih unknown
      | some required =>
          cases hknown : knownSize projected id with
          | none =>
              have hmismatch : sizeMismatch projected (id, goal) = false := by
                simp [sizeMismatch, hsize, hknown]
              have hunknown : sizeUnknown projected (id, goal) = true := by
                simp [sizeUnknown, hsize, hknown]
              rw [hmismatch, hunknown, Bool.false_or, Bool.true_or, Bool.or_true]
              exact ih true
          | some actual =>
              have hunknown : sizeUnknown projected (id, goal) = false := by
                simp [sizeUnknown, hknown]
              by_cases hsame : actual = required
              · have hmismatch : sizeMismatch projected (id, goal) = false := by
                  simp [sizeMismatch, hsize, hknown, hsame]
                rw [hmismatch, hunknown, Bool.false_or, Bool.false_or]
                simp only [if_pos hsame]
                exact ih unknown
              · have hmismatch : sizeMismatch projected (id, goal) = true := by
                  simp [sizeMismatch, hsize, hknown, hsame]
                simp [hmismatch, hsame]

/-- The comparison of shapes, and of sizes where the shapes agree. -/
theorem compareGraph_eq : compareGraph projected requested =
    if !topologyMatches projected requested then
      .violated "projected storage topology or node properties do not match the requested graph"
    else compareSizes projected requested.nodeList false := by
  rw [compareSizes_eq, Bool.false_or]
  rfl

/-! ### Equality from cardinality and one inclusion -/

/-- The same node ids with equal kinds, the same dependencies and the same relations. -/
structure SameShape (projected requested : NodeGraph) : Prop where
  kindOf : ∀ id, requested.kindOf id = projected.kindOf id
  dependencies : ∀ edge, edge ∈ requested.dependencies ↔ edge ∈ projected.dependencies
  relations : ∀ link, link ∈ requested.relations ↔ link ∈ projected.relations

/-- Ids and kinds as pairs, in iteration order. -/
def kindList (graph : NodeGraph) : List (NodeId × NodeKind) :=
  graph.nodeList.map fun entry => (entry.1, entry.2.kind.kind)

theorem mem_kindList {graph : NodeGraph} {id : NodeId} {kind : NodeKind} :
    (id, kind) ∈ kindList graph ↔ graph.kindOf id = some kind := by
  rw [kindList, List.mem_map, NodeGraph.kindOf, Option.map_eq_some_iff]
  constructor
  · rintro ⟨⟨other, value⟩, hmem, heq⟩
    simp only [Prod.mk.injEq] at heq
    exact ⟨value, NodeGraph.mem_nodeList.mp (heq.1 ▸ hmem), heq.2⟩
  · rintro ⟨value, hnode, rfl⟩
    exact ⟨(id, value), NodeGraph.mem_nodeList.mpr hnode, rfl⟩

theorem nodup_kindList (graph : NodeGraph) : (kindList graph).Nodup := by
  refine List.Nodup.of_map (·.1) ?_
  rw [kindList, List.map_map]
  exact NodeGraph.nodup_ids

/-- Equal kinds at every id are the same pairs in some order. -/
theorem kindOf_eq_iff : (∀ id, requested.kindOf id = projected.kindOf id) ↔
    (kindList projected).Perm (kindList requested) := by
  rw [List.perm_ext_iff_of_nodup (nodup_kindList _) (nodup_kindList _)]
  constructor
  · rintro h ⟨id, kind⟩
    rw [mem_kindList, mem_kindList, h]
  · intro h id
    refine Option.ext fun kind => ?_
    rw [← mem_kindList, ← mem_kindList, h]

/-- A collection without repetition is included in one of its length exactly when both hold the
same entries. -/
theorem perm_iff_subset {α : Type} {items others : List α} (hnodup : items.Nodup) :
    items.Perm others ↔ items.length = others.length ∧ items ⊆ others :=
  ⟨fun h => ⟨h.length_eq, h.subset⟩, fun ⟨hlength, hsubset⟩ =>
    (List.subperm_of_subset hnodup hsubset).perm_of_length_le hlength.ge⟩

/-- The topologies match exactly when the graphs have the same shape. -/
theorem topologyMatches_iff :
    topologyMatches projected requested = true ↔ SameShape projected requested := by
  have hkinds : (∀ id, requested.kindOf id = projected.kindOf id) ↔
      projected.nodeList.length = requested.nodeList.length ∧
      ∀ entry ∈ projected.nodeList, requested.kindOf entry.1 = some entry.2.kind.kind := by
    rw [kindOf_eq_iff, perm_iff_subset (nodup_kindList _)]
    simp only [kindList, List.length_map]
    refine and_congr_right fun _ => ⟨fun h entry hentry => ?_, fun h pair hpair => ?_⟩
    · exact mem_kindList.mp (h (List.mem_map_of_mem hentry))
    · obtain ⟨entry, hentry, rfl⟩ := List.mem_map.mp hpair
      exact mem_kindList.mpr (h entry hentry)
  have hdependencies : (∀ edge, edge ∈ requested.dependencies ↔ edge ∈ projected.dependencies) ↔
      projected.dependencies.length = requested.dependencies.length ∧
      projected.dependencies ⊆ requested.dependencies := by
    rw [← perm_iff_subset projected.nodup_dependencies, List.perm_comm,
      List.perm_ext_iff_of_nodup requested.nodup_dependencies projected.nodup_dependencies]
  have hrelations : (∀ link, link ∈ requested.relations ↔ link ∈ projected.relations) ↔
      projected.relations.length = requested.relations.length ∧
      projected.relations ⊆ requested.relations := by
    rw [← perm_iff_subset projected.nodup_relations, List.perm_comm,
      List.perm_ext_iff_of_nodup requested.nodup_relations projected.nodup_relations]
  simp only [topologyMatches, Bool.and_eq_true, beq_iff_eq, List.all_eq_true,
    Option.any_eq_true, List.contains_iff_mem, exists_eq_right]
  constructor
  · rintro ⟨⟨⟨⟨⟨hcount, hnodes⟩, hedges⟩, hedge⟩, hlinks⟩, hlink⟩
    exact ⟨hkinds.mpr ⟨hcount, hnodes⟩, hdependencies.mpr ⟨hedges, hedge⟩,
      hrelations.mpr ⟨hlinks, hlink⟩⟩
  · intro h
    obtain ⟨hcount, hnodes⟩ := hkinds.mp h.kindOf
    obtain ⟨hedges, hedge⟩ := hdependencies.mp h.dependencies
    obtain ⟨hlinks, hlink⟩ := hrelations.mp h.relations
    exact ⟨⟨⟨⟨⟨hcount, hnodes⟩, hedges⟩, hedge⟩, hlinks⟩, hlink⟩

/-! ### The verdict -/

/-- The goal is met: the same shape, and every explicitly requested size is the projected one. -/
def Meets (projected requested : NodeGraph) : Prop :=
  SameShape projected requested ∧ ∀ id goal required, requested.node id = some goal →
    goal.kind.size = some required → knownSize projected id = some required

/-- The goal is contradicted: by the shape, or by a known projected size. -/
def Deviates (projected requested : NodeGraph) : Prop :=
  ¬SameShape projected requested ∨ ∃ id goal required actual, requested.node id = some goal ∧
    goal.kind.size = some required ∧ knownSize projected id = some actual ∧ actual ≠ required

/-- Some known size differs from the requested one. -/
theorem any_sizeMismatch : requested.nodeList.any (sizeMismatch projected) = true ↔
    ∃ id goal required actual, requested.node id = some goal ∧
      goal.kind.size = some required ∧ knownSize projected id = some actual ∧
      actual ≠ required := by
  rw [List.any_eq_true]
  constructor
  · rintro ⟨⟨id, goal⟩, hmem, hmismatch⟩
    rw [sizeMismatch] at hmismatch
    split at hmismatch
    · next required actual hsize hknown =>
        exact ⟨id, goal, required, actual, NodeGraph.mem_nodeList.mp hmem, hsize, hknown,
          of_decide_eq_true hmismatch⟩
    · cases hmismatch
  · rintro ⟨id, goal, required, actual, hnode, hsize, hknown, hne⟩
    exact ⟨(id, goal), NodeGraph.mem_nodeList.mpr hnode, by simp [sizeMismatch, hsize, hknown, hne]⟩

/-- Some requested size is not known. -/
theorem any_sizeUnknown : requested.nodeList.any (sizeUnknown projected) = true ↔
    ∃ id goal required, requested.node id = some goal ∧
      goal.kind.size = some required ∧ knownSize projected id = none := by
  rw [List.any_eq_true]
  constructor
  · rintro ⟨⟨id, goal⟩, hmem, hunknown⟩
    rw [sizeUnknown, Bool.and_eq_true, Option.isSome_iff_exists, Option.isNone_iff_eq_none]
      at hunknown
    obtain ⟨⟨required, hsize⟩, hknown⟩ := hunknown
    exact ⟨id, goal, required, NodeGraph.mem_nodeList.mp hmem, hsize, hknown⟩
  · rintro ⟨id, goal, required, hnode, hsize, hknown⟩
    exact ⟨(id, goal), NodeGraph.mem_nodeList.mpr hnode, by simp [sizeUnknown, hsize, hknown]⟩

/-- The three answers, each with what it is given for. -/
inductive Decides (projected requested : NodeGraph) : GoalStatus → Prop where
  | satisfied (hmeets : Meets projected requested) : Decides projected requested .satisfied
  | violated (reason : String) (hdeviates : Deviates projected requested) :
      Decides projected requested (.violated reason)
  | unknown (required : String) (hmeets : ¬Meets projected requested)
      (hdeviates : ¬Deviates projected requested) :
      Decides projected requested (.unknown required)

theorem Meets.not_deviates (h : Meets projected requested) : ¬Deviates projected requested := by
  rintro (hshape | ⟨id, goal, required, actual, hnode, hsize, hknown, hne⟩)
  · exact hshape h.1
  · exact hne (Option.some.inj (hknown.symm.trans (h.2 id goal required hnode hsize)))

theorem compareGraph_spec : Decides projected requested (compareGraph projected requested) := by
  rw [compareGraph_eq, compareSizes_eq, Bool.false_or]
  by_cases hshape : topologyMatches projected requested = true
  · have hsame := topologyMatches_iff.mp hshape
    rw [if_neg (by simp [hshape])]
    by_cases hmismatch : requested.nodeList.any (sizeMismatch projected) = true
    · rw [if_pos hmismatch]
      exact .violated _ (.inr (any_sizeMismatch.mp hmismatch))
    · have hdeviates : ¬Deviates projected requested := by
        rintro (hother | hsizes)
        · exact hother hsame
        · exact hmismatch (any_sizeMismatch.mpr hsizes)
      rw [if_neg hmismatch]
      by_cases hunknown : requested.nodeList.any (sizeUnknown projected) = true
      · rw [if_pos hunknown]
        refine .unknown _ (fun hmeets => ?_) hdeviates
        obtain ⟨id, goal, required, hnode, hsize, hknown⟩ := any_sizeUnknown.mp hunknown
        simp [hmeets.2 id goal required hnode hsize] at hknown
      · rw [if_neg hunknown]
        refine .satisfied ⟨hsame, fun id goal required hnode hsize => ?_⟩
        cases hknown : knownSize projected id with
        | none =>
            exact absurd (any_sizeUnknown.mpr ⟨id, goal, required, hnode, hsize, hknown⟩) hunknown
        | some actual =>
            by_contra hne
            exact hmismatch (any_sizeMismatch.mpr ⟨id, goal, required, actual, hnode, hsize, hknown,
              fun h => hne (h ▸ rfl)⟩)
  · rw [if_pos (by simpa using hshape)]
    exact .violated _ (.inl fun h => hshape (topologyMatches_iff.mpr h))

/-! ### Order -/

section Order

variable {projected' requested' : NodeGraph}

/-- The order of the lists does not matter to the shape. -/
theorem sameShape_reorders (hp : projected.Reorders projected')
    (hr : requested.Reorders requested') :
    SameShape projected' requested' ↔ SameShape projected requested := by
  constructor
  · rintro ⟨hkinds, hdependencies, hrelations⟩
    simp only [hp.kindOf, hr.kindOf, hp.mem_dependencies, hr.mem_dependencies, hp.mem_relations,
      hr.mem_relations] at hkinds hdependencies hrelations
    exact ⟨hkinds, hdependencies, hrelations⟩
  · rintro ⟨hkinds, hdependencies, hrelations⟩
    simp only [← hp.kindOf, ← hr.kindOf, ← hp.mem_dependencies, ← hr.mem_dependencies,
      ← hp.mem_relations, ← hr.mem_relations] at hkinds hdependencies hrelations
    exact ⟨hkinds, hdependencies, hrelations⟩

/-- The verdict, with its text, in every iteration order of both graphs. -/
theorem compareGraph_reorders (hp : projected.Reorders projected')
    (hr : requested.Reorders requested') :
    compareGraph projected' requested' = compareGraph projected requested := by
  have hshape : topologyMatches projected' requested' = topologyMatches projected requested := by
    rw [Bool.eq_iff_iff, topologyMatches_iff, topologyMatches_iff, sameShape_reorders hp hr]
  have hknown : knownSize projected' = knownSize projected := by
    ext id size
    rw [knownSize, knownSize, hp.node]
  have hmismatch : sizeMismatch projected' = sizeMismatch projected := by
    ext entry
    rw [sizeMismatch, sizeMismatch, hknown]
  have hunknown : sizeUnknown projected' = sizeUnknown projected := by
    ext entry
    rw [sizeUnknown, sizeUnknown, hknown]
  rw [compareGraph_eq, compareGraph_eq, compareSizes_eq, compareSizes_eq, hshape, hmismatch,
    hunknown, hr.any_nodeList, hr.any_nodeList]

end Order

/-- **The comparison decides the goal exactly**, and no iteration order changes its answer. -/
theorem compareGraph_decides (projected requested : NodeGraph) :
    (compareGraph projected requested = .satisfied ↔ Meets projected requested) ∧
    ((∃ reason, compareGraph projected requested = .violated reason) ↔
      Deviates projected requested) ∧
    ((∃ required, compareGraph projected requested = .unknown required) ↔
      ¬Meets projected requested ∧ ¬Deviates projected requested) ∧
    ∀ projected' requested', projected.Reorders projected' → requested.Reorders requested' →
      compareGraph projected' requested' = compareGraph projected requested := by
  refine ⟨?_, ?_, ?_, fun _ _ => compareGraph_reorders⟩
  all_goals
    have hspec := @compareGraph_spec projected requested
    generalize compareGraph projected requested = status at hspec
    cases hspec with
    | satisfied hmeets => simp [hmeets, hmeets.not_deviates]
    | violated reason hdeviates =>
        have hmeets : ¬Meets projected requested := fun h => h.not_deviates hdeviates
        simp [hmeets, hdeviates]
    | unknown required hmeets hdeviates => simp [hmeets, hdeviates]

end DisksGraph
