import Mathlib.Data.List.Count
import Mathlib.Data.List.Nodup
import Mathlib.Data.List.Perm.Subperm
import Mathlib.Logic.Function.Basic
import Mathlib.Order.RelClasses
import Mathlib.Order.WellFounded
import Mathlib.Data.Fintype.EquivFin
import Mathlib.Data.Fintype.Sets

/-!
# Support — Kahn

Kahn's queue over an arbitrary type: `kahn succ fuel ready degree order` takes the first ready
vertex, appends it to `order`, and lowers the degree of each of its successors by one; a vertex
whose degree reaches zero becomes ready.

* `Queue`: the invariant of the loop.
* `mem_kahn`: whatever the order of the queue, it yields the vertices that no cycle leads to.
* `Sorted`: an order in which every edge leads forward; `kahn_sorted`: the queue yields such an
  order.
* `acc_iff_acyclic`: on finitely many vertices, no cycle leads anywhere when there is no cycle.
-/

namespace DisksGraph.Support

variable {α ε : Type*} [DecidableEq α]

/-- Lowers the degree of each listed vertex in turn, queueing those that reach zero. -/
def release : List α → List α → (α → Nat) → List α × (α → Nat)
  | [], ready, degree => (ready, degree)
  | y :: ys, ready, degree =>
      let left := degree y - 1
      release ys (if left = 0 then ready ++ [y] else ready) (Function.update degree y left)

/-- One vertex per unit of fuel, in the order the queue yields them. -/
def kahn (succ : α → List α) : Nat → List α → (α → Nat) → List α → List α
  | 0, _, _, order => order
  | _ + 1, [], _, order => order
  | fuel + 1, x :: ready, degree, order =>
      kahn succ fuel (release (succ x) ready degree).1 (release (succ x) ready degree).2
        (order ++ [x])

/-! ### One vertex -/

section Release

variable {x : α} {ys ready : List α} {degree : α → Nat}

/-- What is left of the degrees after one mention covers the mentions that follow. -/
theorem count_le_update (h : ∀ y, (x :: ys).count y ≤ degree y) (y : α) :
    ys.count y ≤ Function.update degree x (degree x - 1) y := by
  by_cases hy : y = x
  · subst hy
    have hfirst := h y
    rw [List.count_cons_self] at hfirst
    rw [Function.update_self]
    omega
  · rw [Function.update_of_ne hy]
    exact Nat.le_trans List.count_le_count_cons (h y)

/-- A release that does not underflow lowers every degree by the number of mentions. -/
theorem release_degree (h : ∀ y, ys.count y ≤ degree y) (y : α) :
    (release ys ready degree).2 y + ys.count y = degree y := by
  induction ys generalizing ready degree with
  | nil => rfl
  | cons x ys ih =>
      have hx := h x
      rw [List.count_cons_self] at hx
      have hy := @ih (if degree x - 1 = 0 then ready ++ [x] else ready) _ (count_le_update h)
      rw [release]
      by_cases hyx : y = x
      · subst hyx
        rw [Function.update_self] at hy
        rw [List.count_cons_self]
        omega
      · rw [Function.update_of_ne hyx] at hy
        rw [List.count_cons_of_ne (Ne.symm hyx)]
        exact hy

/-- It queues each vertex that reaches zero once. -/
theorem release_ready (h : ∀ y, ys.count y ≤ degree y) :
    ∃ queued, (release ys ready degree).1 = ready ++ queued ∧ queued.Nodup ∧
      ∀ y, y ∈ queued ↔ y ∈ ys ∧ degree y = ys.count y := by
  induction ys generalizing ready degree with
  | nil => exact ⟨[], (List.append_nil _).symm, List.nodup_nil, fun y => by simp⟩
  | cons x ys ih =>
      have hx := h x
      rw [List.count_cons_self] at hx
      obtain ⟨queued, hready, hnodup, hqueued⟩ :=
        @ih (if degree x - 1 = 0 then ready ++ [x] else ready) _ (count_le_update h)
      have hother : ∀ y, y ≠ x → (y ∈ queued ↔ y ∈ x :: ys ∧ degree y = (x :: ys).count y) := by
        intro y hyx
        rw [hqueued, Function.update_of_ne hyx, List.count_cons_of_ne (Ne.symm hyx), List.mem_cons,
          or_iff_right hyx]
      rw [release, hready]
      by_cases hzero : degree x - 1 = 0
      · -- The first mention takes the last open edge, so no later mention queues the vertex again.
        have hlast : ys.count x = 0 := by omega
        have hfresh : x ∉ queued := fun hx' =>
          List.count_eq_zero.mp hlast ((hqueued x).mp hx').1
        refine ⟨x :: queued, by simp [hzero], List.nodup_cons.mpr ⟨hfresh, hnodup⟩, fun y => ?_⟩
        by_cases hyx : y = x
        · subst hyx
          simp only [List.mem_cons, true_or, true_and, List.count_cons_self, true_iff]
          omega
        · rw [← hother y hyx, List.mem_cons, or_iff_right hyx]
      · refine ⟨queued, by simp [hzero], hnodup, fun y => ?_⟩
        by_cases hyx : y = x
        · subst hyx
          rw [hqueued, Function.update_self, List.count_cons_self]
          constructor
          · rintro ⟨hy, hcount⟩
            exact ⟨List.mem_cons_self, by omega⟩
          · rintro ⟨-, hcount⟩
            exact ⟨List.count_pos_iff.mp (by omega), by omega⟩
        · exact hother y hyx

end Release

/-! ### Sorted orders -/

section Sorted

variable {src dst : ε → α} {edges : List ε} {order : List α}

/-- Whatever has an edge to an element stands before it. -/
def Sorted (src dst : ε → α) (edges : List ε) (order : List α) : Prop :=
  ∀ before x after, order = before ++ x :: after → ∀ e ∈ edges, dst e = x → src e ∈ before

omit [DecidableEq α] in
theorem sorted_nil : Sorted src dst edges [] := by
  intro before x after hsplit
  simp at hsplit

omit [DecidableEq α] in
/-- A sorted order is extended by an element all of whose edges start inside. -/
theorem Sorted.concat {x : α} (h : Sorted src dst edges order)
    (hx : ∀ e ∈ edges, dst e = x → src e ∈ order) : Sorted src dst edges (order ++ [x]) := by
  intro before y after hsplit e he hy
  rcases List.eq_nil_or_concat after with rfl | ⟨rest, last, rfl⟩
  · obtain ⟨rfl, hlast⟩ := List.append_inj' hsplit rfl
    obtain rfl := (List.cons.inj hlast).1
    exact hx e he hy
  · have hsplit' : order ++ [x] = (before ++ y :: rest) ++ [last] := by
      rw [hsplit]
      simp
    obtain ⟨hkept, -⟩ := List.append_inj' hsplit' rfl
    exact h before y rest hkept e he hy

/-- In a sorted order every edge leads forward. -/
theorem Sorted.idxOf_lt (h : Sorted src dst edges order) (hnodup : order.Nodup) {e : ε}
    (he : e ∈ edges) (hdst : dst e ∈ order) : order.idxOf (src e) < order.idxOf (dst e) := by
  obtain ⟨before, after, hsplit⟩ := List.append_of_mem hdst
  have hsrc := h before (dst e) after hsplit e he rfl
  have hfresh : dst e ∉ before := by
    rw [hsplit] at hnodup
    exact fun hmem => List.disjoint_of_nodup_append hnodup hmem List.mem_cons_self
  rw [hsplit, List.idxOf_append_of_mem hsrc, List.idxOf_append_of_notMem hfresh,
    List.idxOf_cons_self, Nat.add_zero]
  exact List.idxOf_lt_length_of_mem hsrc

end Sorted

/-! ### Cycles -/

section Cycles

variable {r : α → α → Prop} {vertices : List α}

omit [DecidableEq α] in
/-- **On finitely many vertices nothing depends on a cycle exactly when there is none.** -/
theorem acc_iff_acyclic (hsrc : ∀ a b, r a b → a ∈ vertices) (hdst : ∀ a b, r a b → b ∈ vertices) :
    (∀ a ∈ vertices, Acc r a) ↔ ∀ a, ¬Relation.TransGen r a a := by
  constructor
  · intro hacc a hcycle
    obtain ⟨b, -, hb⟩ := Relation.TransGen.tail'_iff.mp hcycle
    have hloop : ∀ c, Acc (Relation.TransGen r) c → ¬Relation.TransGen r c c := by
      intro c hc
      induction hc with
      | intro c _ ih => exact fun hcc => ih c hcc hcc
    exact hloop a (hacc a (hdst b a hb)).transGen hcycle
  · classical
    intro hacyclic a ha
    let earlier : {v // v ∈ vertices} → {v // v ∈ vertices} → Prop := fun a b =>
      Relation.TransGen r a.1 b.1
    have : Finite {v // v ∈ vertices} := Finite.of_fintype _
    have : IsTrans _ earlier := ⟨fun _ _ _ => .trans⟩
    have : Std.Irrefl earlier := ⟨fun v => hacyclic v.1⟩
    have hvertex : ∀ v : {v // v ∈ vertices}, Acc r v.1 := fun v => by
      induction v using (Finite.wellFounded_of_trans_of_irrefl earlier).induction with
      | _ v ih => exact Acc.intro _ fun b hb => ih ⟨b, hsrc b v.1 hb⟩ (.single hb)
    exact hvertex ⟨a, ha⟩

end Cycles

/-! ### The loop -/

section Loop

variable {succ : α → List α} {src dst : ε → α} {edges : List ε} {vertices : List α}

/-- The edges to a vertex whose source has not been yielded. -/
def openInto (src dst : ε → α) (edges : List ε) (order : List α) (y : α) : Nat :=
  edges.countP fun e => dst e = y ∧ src e ∉ order

/-- One edge from `a` to `b`. -/
def Joins (src dst : ε → α) (edges : List ε) (a b : α) : Prop := ∃ e ∈ edges, src e = a ∧ dst e = b

theorem openInto_yield {order : List α} {x : α} (hx : x ∉ order) (y : α) :
    openInto src dst edges (order ++ [x]) y + edges.countP (fun e => src e = x ∧ dst e = y) =
      openInto src dst edges order y := by
  unfold openInto
  induction edges with
  | nil => rfl
  | cons e rest ih =>
      have hhead : (if dst e = y ∧ src e ∉ order ++ [x] then 1 else 0) +
          (if src e = x ∧ dst e = y then 1 else 0) =
          if dst e = y ∧ src e ∉ order then 1 else 0 := by
        by_cases hsame : src e = x
        · simp [hsame, hx]
        · simp [hsame]
      simp only [List.countP_cons, decide_eq_true_eq] at ih hhead ⊢
      omega

/-- The state of the queue: the degrees count the open edges, and a vertex is ready when it has
none. -/
structure Queue (src dst : ε → α) (edges : List ε) (vertices ready : List α) (degree : α → Nat)
    (order : List α) : Prop where
  degrees : ∀ y, degree y = openInto src dst edges order y
  nodup : (order ++ ready).Nodup
  subset : ∀ y ∈ order ++ ready, y ∈ vertices
  ready_iff : ∀ y ∈ vertices, y ∉ order → (y ∈ ready ↔ degree y = 0)
  closed : ∀ y ∈ order, degree y = 0
  acc : ∀ y ∈ order, Acc (Joins src dst edges) y

variable (hsucc : ∀ x y, (succ x).count y = edges.countP fun e => src e = x ∧ dst e = y)
  (hsrc : ∀ e ∈ edges, src e ∈ vertices) (hdst : ∀ e ∈ edges, dst e ∈ vertices)

include hsucc in
/-- The next vertex is mentioned at most as often as there are open edges. -/
theorem Queue.count_le {x : α} {ready order : List α} {degree : α → Nat}
    (h : Queue src dst edges vertices ready degree order) (hx : x ∉ order) (y : α) :
    (succ x).count y ≤ degree y := by
  rw [hsucc, h.degrees, ← openInto_yield hx y]
  exact Nat.le_add_left _ _

include hsucc hdst in
/-- A vertex that the next one leads to has had an open edge so far. -/
theorem Queue.mention {x y : α} {ready order : List α} {degree : α → Nat}
    (h : Queue src dst edges vertices ready degree order) (hx : x ∉ order) (hy : y ∈ succ x) :
    y ∈ vertices ∧ 0 < degree y := by
  have hpos := List.count_pos_iff.mpr hy
  refine ⟨?_, Nat.lt_of_lt_of_le hpos (h.count_le hsucc hx y)⟩
  rw [hsucc, List.countP_pos_iff] at hpos
  obtain ⟨e, he, hjoin⟩ := hpos
  have hjoin := of_decide_eq_true hjoin
  exact hjoin.2 ▸ hdst e he

include hsucc hdst in
/-- The queue after one vertex. -/
theorem Queue.yield {x : α} {ready order : List α} {degree : α → Nat}
    (h : Queue src dst edges vertices (x :: ready) degree order) :
    Queue src dst edges vertices (release (succ x) ready degree).1
      (release (succ x) ready degree).2 (order ++ [x]) := by
  have hnodup := h.nodup
  rw [List.nodup_append] at hnodup
  obtain ⟨horder, hready, hapart⟩ := hnodup
  have hx : x ∉ order := fun hmem => hapart x hmem x List.mem_cons_self rfl
  have hxv : x ∈ vertices := h.subset x (by simp)
  have hdegree := fun y => @release_degree _ _ (succ x) ready degree (h.count_le hsucc hx) y
  obtain ⟨queued, hqueue, hfresh, hqueued⟩ :=
    @release_ready _ _ (succ x) ready degree (h.count_le hsucc hx)
  have hdegrees : ∀ y, (release (succ x) ready degree).2 y =
      openInto src dst edges (order ++ [x]) y := by
    intro y
    have hy := hdegree y
    have hyield := @openInto_yield _ _ _ src dst edges order x hx y
    rw [h.degrees y, hsucc] at hy
    omega
  have hzero : degree x = 0 := (h.ready_iff x hxv hx).mp List.mem_cons_self
  -- A newly queued vertex had an open edge, so it was neither yielded nor waiting.
  have hnew : ∀ y ∈ queued, y ∉ order ∧ y ∉ x :: ready := by
    intro y hy
    obtain ⟨hyv, hpos⟩ := h.mention hsucc hdst hx ((hqueued y).mp hy).1
    have hyorder : y ∉ order := fun hyorder => Nat.pos_iff_ne_zero.mp hpos (h.closed y hyorder)
    refine ⟨hyorder, fun hyready => ?_⟩
    exact Nat.pos_iff_ne_zero.mp hpos ((h.ready_iff y hyv hyorder).mp hyready)
  refine ⟨hdegrees, ?_, ?_, ?_, ?_, ?_⟩
  · rw [hqueue, List.append_assoc, List.singleton_append, ← List.cons_append, ← List.append_assoc]
    refine List.nodup_append.mpr ⟨h.nodup, hfresh, ?_⟩
    rintro y hy _ hyq rfl
    obtain ⟨hyorder, hyready⟩ := hnew y hyq
    exact (List.mem_append.mp hy).elim hyorder hyready
  · intro y hy
    rw [hqueue, List.append_assoc, List.singleton_append, ← List.cons_append, ← List.append_assoc]
      at hy
    rcases List.mem_append.mp hy with hy | hy
    · exact h.subset y hy
    · exact (h.mention hsucc hdst hx ((hqueued y).mp hy).1).1
  · -- An unyielded vertex waits already, or the release has just taken its last open edge.
    intro y hyv hy
    have hyorder : y ∉ order := fun hmem => hy (List.mem_append_left _ hmem)
    have hyx : y ≠ x := fun heq => hy (heq ▸ List.mem_append_right _ List.mem_cons_self)
    have hbefore := h.ready_iff y hyv hyorder
    rw [List.mem_cons, or_iff_right hyx] at hbefore
    have hafter := hdegree y
    rw [hqueue, List.mem_append, hbefore, hqueued, ← List.count_pos_iff]
    omega
  · intro y hy
    have hafter := hdegree y
    have hbefore : degree y = 0 := by
      rcases List.mem_append.mp hy with hy | hy
      · exact h.closed y hy
      · exact List.mem_singleton.mp hy ▸ hzero
    omega
  · intro y hy
    rcases List.mem_append.mp hy with hy | hy
    · exact h.acc y hy
    · -- Every edge to a ready vertex starts at a yielded one.
      obtain rfl := List.mem_singleton.mp hy
      refine Acc.intro y fun z hz => h.acc z ?_
      obtain ⟨e, he, rfl, hey⟩ := hz
      have hopen := h.degrees y
      rw [hzero, openInto, eq_comm, List.countP_eq_zero] at hopen
      by_contra hz
      exact hopen e he (decide_eq_true ⟨hey, hz⟩)

include hsrc in
/-- An empty queue has yielded every vertex that no cycle leads to. -/
theorem Queue.mem_of_acc {order : List α} {degree : α → Nat} {y : α}
    (h : Queue src dst edges vertices [] degree order) (hy : Acc (Joins src dst edges) y)
    (hyv : y ∈ vertices) : y ∈ order := by
  induction hy with
  | intro y _ ih =>
      by_contra hopen
      have hdegree : degree y ≠ 0 := fun hzero => by
        have hready := (h.ready_iff y hyv hopen).mpr hzero
        cases hready
      rw [h.degrees, openInto, ← Nat.pos_iff_ne_zero, List.countP_pos_iff] at hdegree
      obtain ⟨e, he, hjoin⟩ := hdegree
      obtain ⟨hdst, hout⟩ := of_decide_eq_true hjoin
      exact hout (ih (src e) ⟨e, he, rfl, hdst⟩ (hsrc e he))

include hsucc hsrc hdst in
theorem Queue.kahn {fuel : Nat} {ready order : List α} {degree : α → Nat}
    (h : Queue src dst edges vertices ready degree order)
    (hfuel : vertices.length ≤ order.length + fuel) :
    (Support.kahn succ fuel ready degree order).Nodup ∧
      ∀ y, y ∈ Support.kahn succ fuel ready degree order ↔
        y ∈ vertices ∧ Acc (Joins src dst edges) y := by
  have hsound : ∀ {ready order : List α} {degree : α → Nat},
      Queue src dst edges vertices ready degree order →
      ∀ y ∈ order, y ∈ vertices ∧ Acc (Joins src dst edges) y := fun h y hy =>
    ⟨h.subset y (List.mem_append_left _ hy), h.acc y hy⟩
  induction fuel generalizing ready order degree with
  | zero =>
      have horder := (List.nodup_append.mp h.nodup).1
      have hperm : order.Perm vertices :=
        (horder.subperm fun y hy => (hsound h y hy).1).perm_of_length_le hfuel
      exact ⟨horder, fun y => ⟨hsound h y, fun hy => hperm.mem_iff.mpr hy.1⟩⟩
  | succ fuel ih =>
      cases ready with
      | nil =>
          refine ⟨(List.nodup_append.mp h.nodup).1, fun y => ⟨hsound h y, fun hy => ?_⟩⟩
          exact h.mem_of_acc hsrc hy.2 hy.1
      | cons x ready =>
          refine ih (h.yield hsucc hdst) ?_
          rw [List.length_append, List.length_singleton]
          omega

include hsucc hdst in
/-- The queue yields a vertex after everything that has an edge to it. -/
theorem Queue.kahn_sorted {fuel : Nat} {ready order : List α} {degree : α → Nat}
    (h : Queue src dst edges vertices ready degree order) (hsorted : Sorted src dst edges order) :
    Sorted src dst edges (Support.kahn succ fuel ready degree order) := by
  induction fuel generalizing ready order degree with
  | zero => exact hsorted
  | succ fuel ih =>
      cases ready with
      | nil => exact hsorted
      | cons x ready =>
          refine ih (h.yield hsucc hdst) (hsorted.concat fun e he hx => ?_)
          have horder : x ∉ order := fun hmem =>
            (List.nodup_append.mp h.nodup).2.2 x hmem x List.mem_cons_self rfl
          have hzero := (h.ready_iff x (h.subset x (by simp)) horder).mp List.mem_cons_self
          rw [h.degrees, openInto, List.countP_eq_zero] at hzero
          by_contra hopen
          exact hzero e he (decide_eq_true ⟨hx, hopen⟩)

include hsucc hdst in
/-- The queue is empty before the fuel runs out. -/
theorem Queue.kahn_stable {fuel limit : Nat} {ready order : List α} {degree : α → Nat}
    (h : Queue src dst edges vertices ready degree order)
    (hfuel : vertices.length ≤ order.length + fuel) (hlimit : fuel ≤ limit) :
    Support.kahn succ limit ready degree order = Support.kahn succ fuel ready degree order := by
  induction fuel generalizing limit ready order degree with
  | zero =>
      have hle := (h.nodup.subperm h.subset).length_le
      rw [List.length_append] at hle
      obtain rfl : ready = [] := List.length_eq_zero_iff.mp (by omega)
      cases limit <;> rfl
  | succ fuel ih =>
      obtain ⟨limit, rfl⟩ : ∃ smaller, limit = smaller + 1 := ⟨limit - 1, by omega⟩
      cases ready with
      | nil => rfl
      | cons x ready =>
          refine ih (h.yield hsucc hdst) ?_ (by omega)
          rw [List.length_append, List.length_singleton]
          omega

/-- The queue before the first vertex. -/
theorem Queue.init (hvertices : vertices.Nodup) {degree : α → Nat}
    (hdegree : ∀ y, degree y = edges.countP fun e => dst e = y) :
    Queue src dst edges vertices (vertices.filter fun y => degree y = 0) degree [] := by
  refine ⟨fun y => ?_, ?_, ?_, ?_, nofun, nofun⟩
  · simp [hdegree, openInto]
  · exact hvertices.filter _
  · exact fun y hy => List.mem_of_mem_filter hy
  · intro y hy _
    simp [hy]

include hsucc hsrc hdst in
/-- **`mem_kahn`** — whatever the order of the vertices and of their successors, the queue yields
each vertex that no cycle leads to, once. -/
theorem mem_kahn (hvertices : vertices.Nodup) {degree : α → Nat}
    (hdegree : ∀ y, degree y = edges.countP fun e => dst e = y) :
    (kahn succ vertices.length (vertices.filter fun y => degree y = 0) degree []).Nodup ∧
      ∀ y, y ∈ kahn succ vertices.length (vertices.filter fun y => degree y = 0) degree [] ↔
        y ∈ vertices ∧ Acc (Joins src dst edges) y := by
  exact (Queue.init hvertices hdegree).kahn hsucc hsrc hdst (by simp)

include hsucc hdst in
/-- **`kahn_sorted`** — the queue yields the vertices in a sorted order. -/
theorem kahn_sorted (hvertices : vertices.Nodup) {degree : α → Nat}
    (hdegree : ∀ y, degree y = edges.countP fun e => dst e = y) (fuel : Nat) :
    Sorted src dst edges
      (kahn succ fuel (vertices.filter fun y => degree y = 0) degree []) :=
  (Queue.init hvertices hdegree).kahn_sorted hsucc hdst sorted_nil

end Loop

end DisksGraph.Support
