import Mathlib.Data.List.Nodup
import Mathlib.Logic.Relation

/-!
# Support — Worklist

Depth-first exploration of a finite graph with an explicit stack, over an arbitrary type.

* `explore succ fuel stack visited` marks a vertex when it is popped; `visited` is most recent
  first.
* `mem_explore`: with fuel for one pop per stack entry and per unexpanded edge, the result is
  `visited` together with what is reachable from `stack`.
* `discover succ fuel stack visited` marks a vertex when it is pushed; `mem_discover` is the same
  statement for it.
* `discoverLoop` is the same loop without a bound: `discoverLoop_eq_some` says that it ends.

`succ` may list the successors of a vertex in any order: only their number is bounded by the
edges leaving it (`Bounded`).
-/

namespace DisksGraph.Support

variable {α ε : Type*} [DecidableEq α]

/-- Pops the stack, marks what it had not marked before, and pushes the successors, last on top. -/
def explore (succ : α → List α) : Nat → List α → List α → List α
  | 0, _, visited => visited
  | _ + 1, [], visited => visited
  | fuel + 1, x :: stack, visited =>
      if x ∈ visited then explore succ fuel stack visited
      else explore succ fuel ((succ x).reverse ++ stack) (x :: visited)

/-- Marks the successors of one vertex and pushes those that were not marked before. -/
def mark : List α → List α → List α → List α × List α
  | [], stack, visited => (stack, visited)
  | y :: ys, stack, visited =>
      if y ∈ visited then mark ys stack visited else mark ys (y :: stack) (y :: visited)

/-- Pops the stack and marks the successors of what it pops. -/
def discover (succ : α → List α) : Nat → List α → List α → List α
  | 0, _, visited => visited
  | _ + 1, [], visited => visited
  | fuel + 1, x :: stack, visited =>
      discover succ fuel (mark (succ x) stack visited).1 (mark (succ x) stack visited).2

/-- The loop of `discover`; `none` is a loop that has not ended. -/
def discoverLoop (succ : α → List α) : Nat → List α → List α → Option (List α)
  | _, [], visited => some visited
  | 0, _ :: _, _ => none
  | fuel + 1, x :: stack, visited =>
      discoverLoop succ fuel (mark (succ x) stack visited).1 (mark (succ x) stack visited).2

/-- `y` is reachable from `x`. -/
abbrev Reachable (succ : α → List α) : α → α → Prop :=
  Relation.ReflTransGen fun a b => b ∈ succ a

/-- No vertex has more successors than edges leaving it. -/
def Bounded (succ : α → List α) (src : ε → α) (edges : List ε) : Prop :=
  ∀ x, (succ x).length ≤ edges.countP (fun e => src e = x)

/-- The edges whose source has not been marked. -/
def unexpanded (src : ε → α) (edges : List ε) (visited : List α) : Nat :=
  edges.countP fun e => src e ∉ visited

section Explore

variable {succ : α → List α}

theorem unexpanded_cons (src : ε → α) (edges : List ε) {visited : List α} {x : α}
    (hx : x ∉ visited) :
    unexpanded src edges (x :: visited) + edges.countP (fun e => src e = x)
      = unexpanded src edges visited := by
  induction edges with
  | nil => rfl
  | cons e edges ih =>
      simp only [unexpanded, List.countP_cons, List.mem_cons, not_or] at ih ⊢
      by_cases he : src e = x
      · simp [he, hx] at ih ⊢; omega
      · simp [he] at ih ⊢; split <;> omega

theorem unexpanded_le (src : ε → α) (edges : List ε) (visited : List α) :
    unexpanded src edges visited ≤ edges.length :=
  List.countP_le_length

/-- What has been visited stays visited. -/
theorem explore_superset {x : α} :
    ∀ (fuel : Nat) (stack visited : List α), x ∈ visited → x ∈ explore succ fuel stack visited
  | 0, _, _, h => h
  | _ + 1, [], _, h => h
  | fuel + 1, y :: stack, visited, h => by
      simp only [explore]
      split
      · exact explore_superset fuel _ _ h
      · exact explore_superset fuel _ _ (List.mem_cons_of_mem _ h)

/-- Nothing is marked that is not reachable from the stack. -/
theorem explore_sound {x : α} :
    ∀ (fuel : Nat) (stack visited : List α), x ∈ explore succ fuel stack visited →
      x ∈ visited ∨ ∃ s ∈ stack, Reachable succ s x
  | 0, _, _, h => Or.inl h
  | _ + 1, [], _, h => Or.inl h
  | fuel + 1, y :: stack, visited, h => by
      simp only [explore] at h
      split at h
      · rcases explore_sound fuel _ _ h with h | ⟨s, hs, hr⟩
        · exact Or.inl h
        · exact Or.inr ⟨s, List.mem_cons_of_mem _ hs, hr⟩
      · rcases explore_sound fuel _ _ h with h | ⟨s, hs, hr⟩
        · rcases List.mem_cons.mp h with rfl | h
          · exact Or.inr ⟨x, List.mem_cons_self, .refl⟩
          · exact Or.inl h
        · rcases List.mem_append.mp hs with hs | hs
          · exact Or.inr ⟨y, List.mem_cons_self, .head (List.mem_reverse.mp hs) hr⟩
          · exact Or.inr ⟨s, List.mem_cons_of_mem _ hs, hr⟩

/-- With enough fuel the stack is marked, and the successors of what gets marked are too. -/
theorem explore_closed {src : ε → α} {edges : List ε} (hb : Bounded succ src edges) :
    ∀ (fuel : Nat) (stack visited : List α),
      stack.length + unexpanded src edges visited ≤ fuel →
      (∀ s ∈ stack, s ∈ explore succ fuel stack visited) ∧
      ∀ x ∈ explore succ fuel stack visited, x ∉ visited →
        ∀ y ∈ succ x, y ∈ explore succ fuel stack visited
  | 0, stack, visited, hf => by
      have : stack = [] := List.length_eq_zero_iff.mp (by omega)
      subst this
      exact ⟨fun _ h => absurd h List.not_mem_nil, fun _ h hn => absurd h hn⟩
  | _ + 1, [], visited, _ =>
      ⟨fun _ h => absurd h List.not_mem_nil, fun _ h hn => absurd h hn⟩
  | fuel + 1, y :: stack, visited, hf => by
      simp only [explore]
      split
      · next hy =>
        obtain ⟨h₁, h₂⟩ := explore_closed hb fuel stack visited (by simp at hf; omega)
        refine ⟨fun s hs => ?_, h₂⟩
        rcases List.mem_cons.mp hs with rfl | hs
        · exact explore_superset fuel _ _ hy
        · exact h₁ s hs
      · next hy =>
        have hu := unexpanded_cons src edges hy
        have hl := hb y
        obtain ⟨h₁, h₂⟩ := explore_closed hb fuel ((succ y).reverse ++ stack) (y :: visited)
          (by simp at hf ⊢; omega)
        refine ⟨fun s hs => ?_, fun x hx hn z hz => ?_⟩
        · rcases List.mem_cons.mp hs with rfl | hs
          · exact explore_superset fuel _ _ List.mem_cons_self
          · exact h₁ s (List.mem_append_right _ hs)
        · by_cases hxy : x = y
          · subst hxy
            exact h₁ z (List.mem_append_left _ (List.mem_reverse.mpr hz))
          · exact h₂ x hx (fun h => (List.mem_cons.mp h).elim hxy hn) z hz

/-- **Exploration is reachability**, from an empty set of marks. -/
theorem mem_explore {src : ε → α} {edges : List ε} (hb : Bounded succ src edges) {fuel : Nat}
    {stack : List α} (hf : stack.length + edges.length ≤ fuel) {x : α} :
    x ∈ explore succ fuel stack [] ↔ ∃ s ∈ stack, Reachable succ s x := by
  have hle := unexpanded_le src edges []
  obtain ⟨h₁, h₂⟩ := explore_closed hb fuel stack [] (by omega)
  constructor
  · intro h
    exact (explore_sound fuel stack [] h).resolve_left List.not_mem_nil
  · rintro ⟨s, hs, hr⟩
    induction hr with
    | refl => exact h₁ s hs
    | tail _ hy ih => exact h₂ _ ih List.not_mem_nil _ hy

end Explore

section Discover

variable {succ : α → List α}

/-- Marking visits the nodes. -/
theorem mem_mark_snd {x : α} :
    ∀ (ys stack visited : List α), x ∈ (mark ys stack visited).2 ↔ x ∈ ys ∨ x ∈ visited
  | [], _, _ => by simp [mark]
  | y :: ys, stack, visited => by
      simp only [mark]
      split
      · next hy =>
        rw [mem_mark_snd ys]
        constructor
        · rintro (h | h)
          · exact Or.inl (List.mem_cons_of_mem _ h)
          · exact Or.inr h
        · rintro (h | h)
          · rcases List.mem_cons.mp h with rfl | h
            · exact Or.inr hy
            · exact Or.inl h
          · exact Or.inr h
      · rw [mem_mark_snd ys, List.mem_cons, List.mem_cons]
        tauto

/-- Marking pushes the nodes that are new. -/
theorem mem_mark_fst {x : α} :
    ∀ (ys stack visited : List α), x ∈ (mark ys stack visited).1 ↔
      x ∈ stack ∨ (x ∈ ys ∧ x ∉ visited)
  | [], _, _ => by simp [mark]
  | y :: ys, stack, visited => by
      simp only [mark]
      split
      · next hy =>
        rw [mem_mark_fst ys, List.mem_cons]
        constructor
        · rintro (h | ⟨h, hn⟩)
          · exact Or.inl h
          · exact Or.inr ⟨Or.inr h, hn⟩
        · rintro (h | ⟨rfl | h, hn⟩)
          · exact Or.inl h
          · exact absurd hy hn
          · exact Or.inr ⟨h, hn⟩
      · next hy =>
        rw [mem_mark_fst ys]
        simp only [List.mem_cons, not_or]
        constructor
        · rintro ((rfl | h) | ⟨h, -, hn⟩)
          · exact Or.inr ⟨Or.inl rfl, hy⟩
          · exact Or.inl h
          · exact Or.inr ⟨Or.inr h, hn⟩
        · rintro (h | ⟨rfl | h, hn⟩)
          · exact Or.inl (Or.inr h)
          · exact Or.inl (Or.inl rfl)
          · by_cases e : x = y
            · exact Or.inl (Or.inl e)
            · exact Or.inr ⟨h, e, hn⟩

/-- A vertex is marked once. -/
theorem nodup_mark_snd : ∀ (ys stack visited : List α), visited.Nodup →
    (mark ys stack visited).2.Nodup
  | [], _, _, h => h
  | y :: ys, stack, visited, h => by
      simp only [mark]
      split
      · exact nodup_mark_snd ys _ _ h
      · next hy => exact nodup_mark_snd ys _ _ (List.nodup_cons.mpr ⟨hy, h⟩)

theorem nodup_discover : ∀ (fuel : Nat) (stack visited : List α), visited.Nodup →
    (discover succ fuel stack visited).Nodup
  | 0, _, _, h => h
  | _ + 1, [], _, h => h
  | fuel + 1, x :: stack, visited, h =>
      nodup_discover fuel _ _ (nodup_mark_snd (succ x) stack visited h)

theorem mark_length :
    ∀ (ys stack visited : List α), (mark ys stack visited).1.length ≤ stack.length + ys.length
  | [], _, _ => by simp [mark]
  | y :: ys, stack, visited => by
      simp only [mark]
      split
      · have := mark_length ys stack visited; simp; omega
      · have := mark_length ys (y :: stack) (y :: visited); simp at this ⊢; omega

/-- What was on the stack stays below what `mark` pushes, and what it pushes was unmarked and is
pushed once. -/
theorem mark_nodup : ∀ (ys stack visited expanded : List α),
    (expanded ++ stack).Nodup → (∀ x ∈ expanded ++ stack, x ∈ visited) →
    (expanded ++ (mark ys stack visited).1).Nodup
  | [], _, _, _, h, _ => h
  | y :: ys, stack, visited, expanded, h, hv => by
      simp only [mark]
      split
      · exact mark_nodup ys stack visited expanded h hv
      · next hy =>
        have hy' : y ∉ expanded ++ stack := fun hm => hy (hv y hm)
        refine mark_nodup ys (y :: stack) (y :: visited) expanded ?_ ?_
        · exact List.nodup_middle.mpr (List.nodup_cons.mpr ⟨hy', h⟩)
        · intro x hx
          rcases List.mem_append.mp hx with hx | hx
          · exact List.mem_cons_of_mem _ (hv x (List.mem_append_left _ hx))
          · rcases List.mem_cons.mp hx with rfl | hx
            · exact List.mem_cons_self
            · exact List.mem_cons_of_mem _ (hv x (List.mem_append_right _ hx))

/-- The invariant of `discover`: the marks are the stack and the vertices already expanded, whose
successors are marked. -/
structure Frontier (succ : α → List α) (stack visited expanded : List α) : Prop where
  nodup : (expanded ++ stack).Nodup
  marked : ∀ x, x ∈ visited ↔ x ∈ expanded ∨ x ∈ stack
  closed : ∀ x ∈ expanded, ∀ y ∈ succ x, y ∈ visited

theorem Frontier.step {x : α} {stack visited expanded : List α}
    (h : Frontier succ (x :: stack) visited expanded) :
    Frontier succ (mark (succ x) stack visited).1 (mark (succ x) stack visited).2
      (x :: expanded) where
  nodup := by
    refine mark_nodup _ _ _ _ ?_ ?_
    · exact List.nodup_middle.mp h.nodup
    · intro y hy
      refine (h.marked y).mpr ?_
      simp only [List.cons_append, List.mem_cons, List.mem_append] at hy ⊢
      tauto
  marked y := by
    rw [mem_mark_snd, mem_mark_fst, h.marked y]
    simp only [List.mem_cons]
    tauto
  closed y hy z hz := by
    rw [mem_mark_snd]
    rcases List.mem_cons.mp hy with rfl | hy
    · exact Or.inl hz
    · exact Or.inr (h.closed y hy z hz)

/-- With enough fuel the discovered nodes are closed. -/
theorem discover_closed {src : ε → α} {edges : List ε} (hb : Bounded succ src edges) :
    ∀ (fuel : Nat) (stack visited expanded : List α),
      Frontier succ stack visited expanded →
      stack.length + unexpanded src edges expanded ≤ fuel →
      (∀ s ∈ visited, s ∈ discover succ fuel stack visited) ∧
      ∀ x ∈ discover succ fuel stack visited,
        ∀ y ∈ succ x, y ∈ discover succ fuel stack visited
  | 0, stack, visited, expanded, h, hf => by
      have : stack = [] := List.length_eq_zero_iff.mp (by omega)
      subst this
      refine ⟨fun _ hs => hs, fun x hx y hy => ?_⟩
      exact h.closed x (((h.marked x).mp hx).resolve_right List.not_mem_nil) y hy
  | _ + 1, [], visited, expanded, h, _ => by
      refine ⟨fun _ hs => hs, fun x hx y hy => ?_⟩
      exact h.closed x (((h.marked x).mp hx).resolve_right List.not_mem_nil) y hy
  | fuel + 1, x :: stack, visited, expanded, h, hf => by
      have hx : x ∉ expanded := fun hm =>
        (List.nodup_middle.mp h.nodup |> List.nodup_cons.mp).1 (List.mem_append_left _ hm)
      have hu := unexpanded_cons src edges hx
      have hl := hb x
      have hm := mark_length (succ x) stack visited
      obtain ⟨h₁, h₂⟩ := discover_closed hb fuel _ _ _ h.step (by simp at hf; omega)
      exact ⟨fun s hs => h₁ s ((mem_mark_snd _ _ _).mpr (Or.inr hs)), h₂⟩

/-- From one point on, more fuel changes nothing. -/
theorem Frontier.discoverLoop {src : ε → α} {edges : List ε} (hb : Bounded succ src edges)
    {fuel : Nat} {stack visited expanded : List α} (h : Frontier succ stack visited expanded)
    (hf : stack.length + unexpanded src edges expanded ≤ fuel) :
    ∃ marks, ∀ limit ≥ fuel, Support.discoverLoop succ limit stack visited = some marks ∧
      discover succ limit stack visited = marks := by
  induction fuel generalizing stack visited expanded with
  | zero =>
      obtain rfl : stack = [] := List.length_eq_zero_iff.mp (by omega)
      refine ⟨visited, fun limit _ => ?_⟩
      cases limit <;> exact ⟨rfl, rfl⟩
  | succ fuel ih =>
      cases stack with
      | nil =>
          refine ⟨visited, fun limit _ => ?_⟩
          cases limit <;> exact ⟨rfl, rfl⟩
      | cons x stack =>
          have hx : x ∉ expanded := fun hm =>
            (List.nodup_cons.mp (List.nodup_middle.mp h.nodup)).1 (List.mem_append_left _ hm)
          have hu := unexpanded_cons src edges hx
          have hl := hb x
          have hm := mark_length (succ x) stack visited
          rw [List.length_cons] at hf
          obtain ⟨marks, hmarks⟩ := ih h.step (by omega)
          refine ⟨marks, fun limit hlimit => ?_⟩
          obtain ⟨limit, rfl⟩ : ∃ smaller, limit = smaller + 1 := ⟨limit - 1, by omega⟩
          exact hmarks limit (by omega)

omit [DecidableEq α] in
theorem Frontier.start {s : α} : Frontier succ [s] [s] [] := ⟨by simp, by simp, by simp⟩

/-- **The discovery ends**, on every finite graph, with what `discover` marks. -/
theorem discoverLoop_eq_some {src : ε → α} {edges : List ε} (hb : Bounded succ src edges)
    {fuel : Nat} {s : α} (hf : 1 + edges.length ≤ fuel) :
    discoverLoop succ fuel [s] [s] = some (discover succ (1 + edges.length) [s] [s]) := by
  have hle := unexpanded_le src edges []
  have hbound : [s].length + unexpanded src edges [] ≤ 1 + edges.length := by
    rw [List.length_singleton]
    omega
  obtain ⟨marks, hmarks⟩ := Frontier.start.discoverLoop hb hbound
  rw [(hmarks fuel hf).1, (hmarks _ (Nat.le_refl _)).2]

/-- A discovered node is reachable. -/
theorem discover_sound {x : α} :
    ∀ (fuel : Nat) (stack visited : List α), x ∈ discover succ fuel stack visited →
      x ∈ visited ∨ ∃ s ∈ stack, Reachable succ s x
  | 0, _, _, h => Or.inl h
  | _ + 1, [], _, h => Or.inl h
  | fuel + 1, y :: stack, visited, h => by
      rcases discover_sound fuel _ _ h with h | ⟨s, hs, hr⟩
      · rcases (mem_mark_snd _ _ _).mp h with h | h
        · exact Or.inr ⟨y, List.mem_cons_self, .single h⟩
        · exact Or.inl h
      · rcases (mem_mark_fst _ _ _).mp hs with hs | ⟨hs, -⟩
        · exact Or.inr ⟨s, List.mem_cons_of_mem _ hs, hr⟩
        · exact Or.inr ⟨y, List.mem_cons_self, .head hs hr⟩

/-- **Discovery is reachability**, from one marked vertex. -/
theorem mem_discover {src : ε → α} {edges : List ε} (hb : Bounded succ src edges) {fuel : Nat}
    {s : α} (hf : 1 + edges.length ≤ fuel) {x : α} :
    x ∈ discover succ fuel [s] [s] ↔ Reachable succ s x := by
  have hle := unexpanded_le src edges []
  obtain ⟨h₁, h₂⟩ := discover_closed hb fuel [s] [s] [] .start (by simp; omega)
  constructor
  · intro h
    rcases discover_sound fuel _ _ h with h | ⟨t, ht, hr⟩
    · rw [List.mem_singleton.mp h]
    · rwa [List.mem_singleton.mp ht] at hr
  · intro hr
    induction hr with
    | refl => exact h₁ s List.mem_cons_self
    | tail _ hy ih => exact h₂ _ ih _ hy

end Discover

end DisksGraph.Support
