import DisksGraph.Model.Valid

/-!
# Model — Reorder

The same graph in another iteration order.

A `HashMap` or a `HashSet` holds its entries in an order that no caller chooses, and two runs of one
program may meet them differently.  `NodeGraph.Reorders` relates two graphs with the same nodes and
the same edges; a query that respects it does not depend on that order.

* `Reorders.validateStructure`: neither does the representation check.
* `perm_cases`: how two orders of one list look to a caller that wants exactly one entry.
-/

namespace DisksGraph

/-- Two orders of one list are both empty, both the same single entry, or both longer. -/
theorem perm_cases {α : Type} {items others : List α} (h : items.Perm others) :
    (items = [] ∧ others = []) ∨ (∃ a, items = [a] ∧ others = [a]) ∨
      ∃ a b rest a' b' rest', items = a :: b :: rest ∧ others = a' :: b' :: rest' := by
  have hlength := h.length_eq
  match items, others with
  | [], [] => exact .inl ⟨rfl, rfl⟩
  | [a], [b] => exact .inr (.inl ⟨a, rfl, by rw [List.singleton_perm_singleton.mp h]⟩)
  | a :: b :: rest, a' :: b' :: rest' =>
      exact .inr (.inr ⟨a, b, rest, a', b', rest', rfl, rfl⟩)
  | [], _ :: _ | _ :: _, [] => simp at hlength
  | [_], _ :: _ :: _ | _ :: _ :: _, [_] => simp at hlength

/-- `any` does not see the order of a list. -/
theorem any_perm {α : Type} {items others : List α} (h : items.Perm others) (p : α → Bool) :
    items.any p = others.any p := by
  rw [Bool.eq_iff_iff, List.any_eq_true, List.any_eq_true]
  simp only [h.mem_iff]

/-- A search that at most one entry satisfies finds it in every order. -/
theorem find?_perm {α : Type} {items others : List α} {p : α → Bool} (h : items.Perm others)
    (hone : ∀ a ∈ items, ∀ b ∈ items, p a = true → p b = true → a = b) :
    items.find? p = others.find? p := by
  cases hitems : items.find? p with
  | none =>
      rw [eq_comm, List.find?_eq_none]
      exact fun a ha => List.find?_eq_none.mp hitems a (h.mem_iff.mpr ha)
  | some a =>
      have ha := List.mem_of_find?_eq_some hitems
      have hpa := List.find?_some hitems
      cases hothers : others.find? p with
      | none => exact absurd hpa (List.find?_eq_none.mp hothers a (h.mem_iff.mp ha))
      | some b =>
          have hb := h.mem_iff.mpr (List.mem_of_find?_eq_some hothers)
          rw [hone a ha b hb hpa (List.find?_some hothers)]

namespace NodeGraph

/-- The same nodes and the same edges, in any order. -/
structure Reorders (graph other : NodeGraph) : Prop where
  node : ∀ id, other.node id = graph.node id
  dependencies : graph.dependencies.Perm other.dependencies
  relations : graph.relations.Perm other.relations

namespace Reorders

variable {graph other third : NodeGraph}

theorem refl (graph : NodeGraph) : Reorders graph graph := ⟨fun _ => rfl, .refl _, .refl _⟩

theorem symm (h : Reorders graph other) : Reorders other graph :=
  ⟨fun id => (h.node id).symm, h.dependencies.symm, h.relations.symm⟩

theorem trans (h : Reorders graph other) (h' : Reorders other third) : Reorders graph third :=
  ⟨fun id => (h'.node id).trans (h.node id), h.dependencies.trans h'.dependencies,
    h.relations.trans h'.relations⟩

variable (h : Reorders graph other)
include h

/-! ### Queries -/

/-- Reordered graphs contain the same nodes. -/
theorem contains (id : NodeId) : other.contains id = graph.contains id := by
  rw [NodeGraph.contains, NodeGraph.contains, h.node]

/-- Reordered graphs have the same kinds. -/
theorem kindOf (id : NodeId) : other.kindOf id = graph.kindOf id := by
  rw [NodeGraph.kindOf, NodeGraph.kindOf, h.node]

/-- Reordered graphs have the same edges. -/
theorem mem_dependencies {edge : Dependency} :
    edge ∈ other.dependencies ↔ edge ∈ graph.dependencies := h.dependencies.mem_iff.symm

/-- Reordered graphs have the same relations. -/
theorem mem_relations {link : Relation} : link ∈ other.relations ↔ link ∈ graph.relations :=
  h.relations.mem_iff.symm

theorem edge : other.Edge = graph.Edge := by
  funext a b
  simp only [NodeGraph.Edge, h.mem_dependencies]

/-- Reordered graphs have the same ancestors. -/
theorem mem_ancestors {id a : NodeId} : a ∈ other.ancestors id ↔ a ∈ graph.ancestors id := by
  rw [NodeGraph.mem_ancestors, NodeGraph.mem_ancestors, h.edge]

theorem ancestors (id : NodeId) : (graph.ancestors id).Perm (other.ancestors id) :=
  (List.perm_ext_iff_of_nodup (graph.nodup_ancestors id) (other.nodup_ancestors id)).mpr
    fun _ => h.mem_ancestors.symm

theorem any_nodeList (p : NodeId × Node → Bool) : other.nodeList.any p = graph.nodeList.any p := by
  rw [Bool.eq_iff_iff, List.any_eq_true, List.any_eq_true]
  have hmem : ∀ entry, entry ∈ other.nodeList ↔ entry ∈ graph.nodeList := by
    rintro ⟨id, value⟩
    rw [mem_nodeList, mem_nodeList, h.node]
  simp only [hmem]

/-- The soundness of an edge does not see the order. -/
theorem edgeSound {edge : Dependency} : other.EdgeSound edge ↔ graph.EdgeSound edge := by
  have hoffset : other.offsetAgrees edge = graph.offsetAgrees edge := by
    rw [NodeGraph.offsetAgrees, NodeGraph.offsetAgrees, h.kindOf]
  constructor
  · rintro ⟨hsource, htarget, hproper, hagrees⟩
    exact ⟨h.contains _ ▸ hsource, h.contains _ ▸ htarget, hproper, hoffset ▸ hagrees⟩
  · rintro ⟨hsource, htarget, hproper, hagrees⟩
    exact ⟨(h.contains _).trans hsource, (h.contains _).trans htarget, hproper,
      hoffset.trans hagrees⟩

/-- **The representation check accepts a graph in every order or in none.** -/
theorem validateStructure :
    other.validateStructure = .ok () ↔ graph.validateStructure = .ok () := by
  rw [validateStructure_eq_ok, validateStructure_eq_ok, h.edge,
    h.dependencies.pairwise_iff fun hab => Std.Symm.symm _ _ hab]
  simp only [h.mem_relations, h.mem_dependencies, h.contains, h.edgeSound]

/-! ### Changes -/

/-- Storing a node keeps the graphs reordered. -/
theorem setNode (id : NodeId) (value : Node) :
    Reorders (graph.setNode id value) (other.setNode id value) where
  node other' := by rw [node_setNode, node_setNode, h.node]
  dependencies := h.dependencies
  relations := h.relations

/-- Removing a node keeps the graphs reordered. -/
theorem removeNode (id : NodeId) : Reorders (graph.removeNode id) (other.removeNode id) where
  node other' := by rw [node_removeNode, node_removeNode, h.node]
  dependencies := h.dependencies
  relations := h.relations

/-- Adding an edge keeps the graphs reordered. -/
theorem insertDependency (edge : Dependency) :
    Reorders (graph.insertDependency edge) (other.insertDependency edge) where
  node := h.node
  dependencies := h.dependencies.insert edge
  relations := h.relations

/-- Removing an edge keeps the graphs reordered. -/
theorem removeDependency (edge : Dependency) :
    Reorders (graph.removeDependency edge) (other.removeDependency edge) where
  node := h.node
  dependencies := h.dependencies.erase edge
  relations := h.relations

theorem insertRelation (link : Relation) :
    Reorders (graph.insertRelation link) (other.insertRelation link) where
  node := h.node
  dependencies := h.dependencies
  relations := h.relations.insert link

theorem removeRelation (link : Relation) :
    Reorders (graph.removeRelation link) (other.removeRelation link) where
  node := h.node
  dependencies := h.dependencies
  relations := h.relations.erase link

/-- Reordered graphs list the same nodes. -/
theorem nodeList : graph.nodeList.Perm other.nodeList := by
  refine (List.perm_ext_iff_of_nodup graph.nodup_nodeList other.nodup_nodeList).mpr ?_
  rintro ⟨id, value⟩
  rw [mem_nodeList, mem_nodeList, h.node]

end Reorders

/-- Every order of the nodes is met by some iteration. -/
theorem exists_reorders {graph : NodeGraph} {order : List (NodeId × Node)}
    (h : graph.nodeList.Perm order) : ∃ other, Reorders graph other ∧ other.nodeList = order := by
  let entries : List (Sigma fun _ : NodeId => Node) := order.map fun entry => ⟨entry.1, entry.2⟩
  have hkeys : entries.NodupKeys := by
    rw [List.NodupKeys, List.keys, List.map_map]
    exact (h.map (·.1)).nodup_iff.mp nodup_ids
  have horder : ({ graph with nodes := ⟨entries, hkeys⟩ } : NodeGraph).nodeList = order := by
    rw [nodeList, List.map_map]
    exact List.map_id order
  refine ⟨{ graph with nodes := ⟨entries, hkeys⟩ }, ⟨fun id => ?_, .refl _, .refl _⟩, horder⟩
  refine Option.ext fun value => ?_
  rw [← mem_nodeList, ← mem_nodeList, horder, h.mem_iff]

end NodeGraph

end DisksGraph
