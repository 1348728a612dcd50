import DisksGraph.Engine.Inferred
import DisksGraph.Support.Greedy

/-!
# Engine — Ordered

What `topological_order` and `dependency_path` compute, over any edges between the actions, cyclic
and repeated ones included.

Both are loops in the source: the order takes the least index without an open predecessor again and
again, the search pops a stack and stops at the first edge to its target.

* `searchPath_eq_some`: the search stops, with the answer of `dependencyPath`.
* `Orders`: a permutation of the actions that respects the edges.
* `topologicalLoop_least`: each emitted action is the least that was ready.
* `topologicalOrder_exact`: the order and the search.
-/

namespace DisksGraph

open Support (Follows Least Returns)

/-- Derived in the source. -/
instance : LinearOrder ActionId :=
  LinearOrder.lift' ActionId.get fun _ _ => ActionId.ext

theorem ActionId.le_iff {a b : ActionId} : a ≤ b ↔ a.get ≤ b.get :=
  Iff.rfl

/-! ### The search -/

/-- The inner loop of the search; `none` is its early return. -/
def pushSuccessors (after : ActionId) : List ActionDependency → List ActionId →
    Option (List ActionId)
  | [], pending => some pending
  | edge :: rest, pending =>
      if edge.after = after then none else pushSuccessors after rest (edge.after :: pending)

/-- The `while` loop of `dependency_path`; `none` is a search that has not ended. -/
def searchPath (after : ActionId) (dependencies : List ActionDependency) :
    Nat → List ActionId → List ActionId → Option Bool
  | _, [], _ => some false
  | 0, _ :: _, _ => none
  | fuel + 1, current :: pending, visited =>
      if current ∈ visited then searchPath after dependencies fuel pending visited
      else
        match pushSuccessors after (dependencies.filter fun edge => edge.before = current)
            pending with
        | none => some true
        | some pending => searchPath after dependencies fuel pending (current :: visited)

section Search

variable {after : ActionId} {dependencies : List ActionDependency}

/-- The inner loop returns early at an edge to the target, else it pushes every successor. -/
theorem pushSuccessors_eq (edges : List ActionDependency) (pending : List ActionId) :
    pushSuccessors after edges pending =
      if after ∈ edges.map (·.after) then none
      else some ((edges.map (·.after)).reverse ++ pending) := by
  induction edges generalizing pending with
  | nil => simp [pushSuccessors]
  | cons edge rest ih =>
      rw [pushSuccessors]
      by_cases hedge : edge.after = after
      · simp [hedge]
      · simp [hedge, Ne.symm hedge, ih]

/-- **The search stops**, once it has fuel for one pop per entry and per unexpanded edge, and
answers what the full exploration does. -/
theorem searchPath_eq_some (fuel : Nat) (pending visited : List ActionId)
    (hfuel : pending.length + Support.unexpanded ActionDependency.before dependencies visited ≤ fuel)
    (hvisited : ∀ id ∈ visited, after ∉ successors dependencies id) :
    searchPath after dependencies fuel pending visited =
      some ((Support.explore (successors dependencies) fuel pending visited).any
        fun current => (successors dependencies current).contains after) := by
  induction fuel generalizing pending visited with
  | zero =>
      obtain rfl : pending = [] := List.length_eq_zero_iff.mp (by omega)
      simpa [searchPath, Support.explore] using hvisited
  | succ fuel ih =>
      cases pending with
      | nil => simpa [searchPath, Support.explore] using hvisited
      | cons current pending =>
          rw [List.length_cons] at hfuel
          rw [searchPath, Support.explore]
          by_cases hseen : current ∈ visited
          · rw [if_pos hseen, if_pos hseen]
            exact ih pending visited (by omega) hvisited
          · rw [if_neg hseen, if_neg hseen, pushSuccessors_eq]
            have hsuccessors :
              (dependencies.filter fun edge => edge.before = current).map (·.after) =
                successors dependencies current := by
              simp [successors, beq_eq_decide]
            rw [hsuccessors]
            by_cases hfound : after ∈ successors dependencies current
            · -- The exploration keeps the vertex at which the search stops.
              have hkept : current ∈ Support.explore (successors dependencies) fuel
                  ((successors dependencies current).reverse ++ pending) (current :: visited) :=
                Support.explore_superset fuel _ _ List.mem_cons_self
              rw [if_pos hfound, eq_comm, Option.some_inj, List.any_eq_true]
              exact ⟨current, hkept, List.contains_iff_mem.mpr hfound⟩
            · rw [if_neg hfound]
              have hexpanded := Support.unexpanded_cons ActionDependency.before dependencies hseen
              have hbounded := bounded_successors dependencies current
              refine ih _ _ ?_ fun id hid => ?_
              · rw [List.length_append, List.length_reverse]
                omega
              · rcases List.mem_cons.mp hid with rfl | hid
                · exact hfound
                · exact hvisited id hid

theorem searchPath_eq_dependencyPath {before : ActionId} {fuel : Nat}
    (hfuel : 1 + dependencies.length ≤ fuel) :
    searchPath after dependencies fuel [before] [] =
      some (dependencyPath before after dependencies) := by
  have hle := Support.unexpanded_le ActionDependency.before dependencies []
  have hmem : ∀ (limit : Nat), 1 + dependencies.length ≤ limit → ∀ current,
      current ∈ Support.explore (successors dependencies) limit [before] [] ↔
        Support.Reachable (successors dependencies) before current := by
    intro limit hlimit current
    rw [Support.mem_explore (bounded_successors dependencies) (by simpa using hlimit)]
    simp
  rw [searchPath_eq_some fuel [before] [] (by simp; omega) nofun, dependencyPath,
    Option.some_inj, Bool.eq_iff_iff, List.any_eq_true, List.any_eq_true]
  simp only [hmem fuel hfuel, hmem _ le_rfl]

end Search

/-! ### The order -/

/-- The actions in an order that respects the edges. -/
structure Orders (count : Nat) (dependencies : List ActionDependency) (order : List ActionId) :
    Prop where
  perm : order.Perm ((List.range count).map ActionId.mk)
  respects : ∀ edge ∈ dependencies, order.idxOf edge.before < order.idxOf edge.after

/-- An action that is not emitted although everything before it is. -/
def Ready (count : Nat) (dependencies : List ActionDependency) (emitted : List ActionId)
    (id : ActionId) : Prop :=
  id.get < count ∧ id ∉ emitted ∧
    ∀ edge ∈ dependencies, edge.after = id → edge.before ∈ emitted

section Order

variable {count : Nat} {dependencies : List ActionDependency} {order : List ActionId}

theorem Orders.mem_iff (h : Orders count dependencies order) {id : ActionId} :
    id ∈ order ↔ id.get < count := by
  rw [h.perm.mem_iff, List.mem_map]
  constructor
  · rintro ⟨index, hindex, rfl⟩
    exact List.mem_range.mp hindex
  · intro hid
    exact ⟨id.get, List.mem_range.mpr hid, rfl⟩

theorem Orders.nodup (h : Orders count dependencies order) : order.Nodup := by
  refine h.perm.nodup_iff.mpr (List.nodup_range.map fun _ _ heq => ?_)
  exact congrArg ActionId.get heq

/-- What stands next in such an order is ready. -/
theorem Orders.follows (h : Orders count dependencies order) :
    Follows (Ready count dependencies) [] order := by
  refine Support.follows_of_split fun before id after hsplit => ?_
  rw [List.nil_append]
  have hfresh : id ∉ before := by
    have hnodup := h.nodup
    rw [hsplit] at hnodup
    exact fun hmem => List.disjoint_of_nodup_append hnodup hmem List.mem_cons_self
  refine ⟨h.mem_iff.mp (by simp [hsplit]), hfresh, ?_⟩
  rintro edge hedge rfl
  have hless := h.respects edge hedge
  rw [hsplit, List.idxOf_append_of_notMem hfresh, List.idxOf_cons_self] at hless
  by_contra hout
  rw [List.idxOf_append_of_notMem hout] at hless
  omega

/-- An action has no open edge when everything before it is emitted. -/
theorem ready_iff {emitted : List ActionId} {id : ActionId} :
    Ready count dependencies emitted id ↔
      id.get < count ∧ id ∉ emitted ∧ openEdges dependencies emitted id.get = 0 := by
  have hopen : openEdges dependencies emitted id.get = 0 ↔
      ∀ edge ∈ dependencies, edge.after = id → edge.before ∈ emitted := by
    simp [openEdges, List.countP_eq_zero, ActionId.ext_iff]
  rw [Ready, hopen]

/-- The search for the next action finds the least that is ready. -/
theorem nextReady_least {indegree : Nat → Nat} {emitted : List ActionId} {next : Nat}
    (hcounts : ∀ index, indegree index = openEdges dependencies emitted index)
    (h : nextReady count indegree emitted = some next) :
    ∀ id, Ready count dependencies emitted id → ⟨next⟩ ≤ id := by
  intro id hid
  obtain ⟨hcount, hfresh, hopen⟩ := ready_iff.mp hid
  rw [nextReady, List.find?_range_eq_some] at h
  rw [ActionId.le_iff]
  by_contra hless
  have hskipped := h.2.2 id.get (Nat.lt_of_not_le hless)
  simp [hcounts, hfresh, hopen] at hskipped

/-- **Each emitted action is the least that was ready**, and its index fits the identity. -/
theorem topologicalLoop_least {missing : Nat} {indegree : Nat → Nat} {start : List ActionId}
    (hcounts : ∀ index, indegree index = openEdges dependencies start index)
    (h : topologicalLoop count dependencies missing indegree start = pure order) :
    ∃ tail, order = start ++ tail ∧ Least (Ready count dependencies) start tail ∧
      ∀ id ∈ tail, id.get < u32Bound := by
  induction missing generalizing indegree start with
  | zero =>
      obtain rfl := Returns.pure_inj.mp h
      exact ⟨[], (List.append_nil _).symm, trivial, nofun⟩
  | succ missing ih =>
      rw [topologicalLoop] at h
      split at h
      · cases h
      · next next hnext =>
        split at h
        · cases h
        · next hfits =>
          split at h
          · cases h
          · next released hreleased =>
            have hfound := List.find?_some hnext
            simp only [Bool.and_eq_true, decide_eq_true_eq] at hfound
            have hcounts' : ∀ index,
                released index = openEdges dependencies (start ++ [⟨next⟩]) index := by
              intro index
              have hrelease := releaseSuccessors_eq_some hreleased index
              have hemit := @openEdges_emit dependencies _ _ hfound.1 index
              have hcount := hcounts index
              omega
            obtain ⟨tail, rfl, hleast, htail⟩ := ih hcounts' h
            refine ⟨⟨next⟩ :: tail, by simp, ⟨nextReady_least hcounts hnext, hleast⟩, ?_⟩
            intro id hid
            rcases List.mem_cons.mp hid with rfl | hid
            · exact Nat.lt_of_not_le hfits
            · exact htail id hid

/-- What the loop emits from the start. -/
theorem topologicalOrder_least (h : topologicalOrder count dependencies = pure order) :
    Least (Ready count dependencies) [] order ∧ ∀ id ∈ order, id.get < u32Bound := by
  rw [topologicalOrder] at h
  split at h
  · cases h
  · obtain ⟨tail, htail, hleast, hfits⟩ :=
      topologicalLoop_least (fun index => by simp [openEdges]) h
    obtain rfl : order = tail := htail
    exact ⟨hleast, hfits⟩

/-- An order names each action by a `u32`. -/
theorem count_le_of_topologicalOrder (h : topologicalOrder count dependencies = pure order) :
    count ≤ u32Bound := by
  by_contra hmany
  have hmem := ((topologicalOrder_eq_pure h).2.2 ⟨u32Bound⟩).mpr (Nat.lt_of_not_le hmany)
  exact Nat.lt_irrefl _ ((topologicalOrder_least h).2 _ hmem)

theorem orders_of_topologicalOrder
    (hafter : ∀ edge ∈ dependencies, edge.after.get < count)
    (h : topologicalOrder count dependencies = pure order) : Orders count dependencies order := by
  obtain ⟨hnodup, -, hmem⟩ := topologicalOrder_eq_pure h
  have hrange : ((List.range count).map ActionId.mk).Nodup :=
    List.nodup_range.map fun _ _ heq => congrArg ActionId.get heq
  refine ⟨(List.perm_ext_iff_of_nodup hnodup hrange).mpr fun id => ?_, fun edge hedge => ?_⟩
  · rw [hmem, List.mem_map]
    constructor
    · intro hid
      exact ⟨id.get, List.mem_range.mpr hid, rfl⟩
    · rintro ⟨index, hindex, rfl⟩
      exact List.mem_range.mp hindex
  · exact topologicalOrder_respects h hedge ((hmem edge.after).mpr (hafter edge hedge))

/-- The loop reports an index that does not fit the identity only when there are too many. -/
theorem topologicalLoop_fits {missing : Nat} {indegree : Nat → Nat} {start : List ActionId}
    (hcount : count ≤ u32Bound) :
    (topologicalLoop count dependencies missing indegree start).Spares
      (· ≠ CompositionError.dependencyCycle) := by
  induction missing generalizing indegree start with
  | zero => trivial
  | succ missing ih =>
      rw [topologicalLoop]
      split
      · exact fun h => h rfl
      · next next hnext =>
        split
        · next hlarge =>
          have hrange := List.mem_range.mp (List.mem_of_find?_eq_some hnext)
          omega
        · split
          · trivial
          · exact ih

theorem topologicalOrder_fits (hcount : count ≤ u32Bound) :
    (topologicalOrder count dependencies).Spares (· ≠ CompositionError.dependencyCycle) := by
  unfold topologicalOrder
  split
  · trivial
  · exact topologicalLoop_fits hcount

/-- **When an order is found**: nothing but a cycle and too many actions stands in the way. -/
theorem exists_topologicalOrder_iff
    (hbefore : ∀ edge ∈ dependencies, edge.before.get < count)
    (hafter : ∀ edge ∈ dependencies, edge.after.get < count) :
    (∃ order, topologicalOrder count dependencies = pure order) ↔
      Acyclic dependencies ∧ count ≤ u32Bound := by
  constructor
  · rintro ⟨order, horder⟩
    exact ⟨acyclic_of_topologicalOrder horder, count_le_of_topologicalOrder horder⟩
  · rintro ⟨hacyclic, hcount⟩
    obtain ⟨result, hresult⟩ := topologicalOrder_returns hafter
    cases result with
    | ok order => exact ⟨order, hresult⟩
    | error error =>
        have hcycle : error ≠ .dependencyCycle :=
          (hacyclic.topologicalOrder_spares hbefore).not_bad hresult
        exact absurd hcycle ((topologicalOrder_fits hcount).not_bad hresult)

/-- **`topologicalOrder_exact`** — over edges between the actions, repeated and cyclic ones
included, the order is an error exactly when there is a cycle or an index beyond `u32`, and
otherwise the lexicographically least one that respects the edges; no degree underflows.  The search
stops, and finds exactly the nonempty paths. -/
theorem topologicalOrder_exact (count : Nat) (dependencies : List ActionDependency)
    (hvalid : ∀ edge ∈ dependencies, edge.before.get < count ∧ edge.after.get < count) :
    (∃ result, topologicalOrder count dependencies = some result) ∧
      ((∃ error, topologicalOrder count dependencies = throw error) ↔
        (∃ id, Relation.TransGen (Precedes dependencies) id id) ∨ u32Bound < count) ∧
      (∀ order, topologicalOrder count dependencies = pure order →
        Orders count dependencies order ∧
          ∀ other, Orders count dependencies other → order ≤ other) ∧
      ∀ before after, ∃ found,
        (∀ fuel ≥ 1 + dependencies.length,
          searchPath after dependencies fuel [before] [] = some found) ∧
        dependencyPath before after dependencies = found ∧
        (found = true ↔ Relation.TransGen (Precedes dependencies) before after) := by
  have hbefore := fun edge hedge => (hvalid edge hedge).1
  have hafter := fun edge hedge => (hvalid edge hedge).2
  obtain ⟨result, hresult⟩ := topologicalOrder_returns hafter
  refine ⟨⟨result, hresult⟩, ?_, fun order horder => ⟨?_, fun other hother => ?_⟩,
    fun before after => ⟨_, fun fuel => searchPath_eq_dependencyPath, rfl, dependencyPath_iff⟩⟩
  · have hfound := exists_topologicalOrder_iff hbefore hafter
    have herror : (∃ error, topologicalOrder count dependencies = throw error) ↔
        ¬∃ order, topologicalOrder count dependencies = pure order := by
      rw [hresult]
      cases result with
      | ok order => exact ⟨nofun, fun h => absurd ⟨order, rfl⟩ h⟩
      | error error => exact ⟨fun _ => nofun, fun _ => ⟨error, rfl⟩⟩
    rw [herror, hfound, Acyclic, not_and_or, not_forall, Nat.not_le]
    simp only [not_not]
  · exact orders_of_topologicalOrder hafter horder
  · have hmine := orders_of_topologicalOrder hafter horder
    exact (topologicalOrder_least horder).1.le hother.follows
      (hmine.perm.length_eq.trans hother.perm.length_eq.symm)

/-- Two actions with one edge given twice: the edge is released twice. -/
theorem topologicalOrder_exact_repeated :
    topologicalOrder 2 (List.replicate 2 ⟨⟨1⟩, ⟨0⟩, .requestedOrder⟩) = pure [⟨1⟩, ⟨0⟩] ∧
      Orders 2 (List.replicate 2 ⟨⟨1⟩, ⟨0⟩, .requestedOrder⟩) [⟨1⟩, ⟨0⟩] := by
  have horder : topologicalOrder 2 (List.replicate 2 ⟨⟨1⟩, ⟨0⟩, .requestedOrder⟩) =
      pure [⟨1⟩, ⟨0⟩] := by rfl
  exact ⟨horder, ((topologicalOrder_exact 2 _ (by decide)).2.2.1 _ horder).1⟩

/-- More actions than identities are an error without any edge. -/
theorem topologicalOrder_too_large :
    ¬∀ (count : Nat) (dependencies : List ActionDependency),
      (∀ edge ∈ dependencies, edge.before.get < count ∧ edge.after.get < count) →
      ((∃ error, topologicalOrder count dependencies = throw error) ↔
        ∃ id, Relation.TransGen (Precedes dependencies) id id) := by
  intro hclaim
  obtain ⟨result, hresult⟩ := @topologicalOrder_returns (u32Bound + 1) [] nofun
  cases result with
  | ok order => exact absurd (count_le_of_topologicalOrder hresult) (Nat.not_succ_le_self _)
  | error error =>
      obtain ⟨id, hcycle⟩ := (hclaim (u32Bound + 1) [] nofun).mp ⟨error, hresult⟩
      obtain ⟨_, ⟨_, hedge, -⟩, -⟩ := Relation.TransGen.head'_iff.mp hcycle
      cases hedge

end Order

end DisksGraph
