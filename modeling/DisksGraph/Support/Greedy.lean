import Mathlib.Data.List.Lex

/-!
# Support — Greedy

Orders built one element at a time over an arbitrary linear order: `ready done x` says that `x` may
come next once `done` is out.

* `Follows ready done order`: each element of `order` was ready when its turn came.
* `Least ready done order`: each element was the least that was ready.
* `Least.le`: a least order is lexicographically at most any other.
-/

namespace DisksGraph.Support

variable {α : Type*} {ready : List α → α → Prop} {done order other : List α}

/-- Each element is ready when those before it are out. -/
def Follows (ready : List α → α → Prop) : List α → List α → Prop
  | _, [] => True
  | done, x :: rest => ready done x ∧ Follows ready (done ++ [x]) rest

/-- Each element is at most whatever else was ready. -/
def Least [LinearOrder α] (ready : List α → α → Prop) : List α → List α → Prop
  | _, [] => True
  | done, x :: rest => (∀ y, ready done y → x ≤ y) ∧ Least ready (done ++ [x]) rest

/-- It is enough that every split of the order leaves its next element ready. -/
theorem follows_of_split
    (h : ∀ before x after, order = before ++ x :: after → ready (done ++ before) x) :
    Follows ready done order := by
  induction order generalizing done with
  | nil => trivial
  | cons x rest ih =>
      refine ⟨?_, ih fun before y after hsplit => ?_⟩
      · simpa using h [] x rest rfl
      · simpa using h (x :: before) y after (by rw [hsplit, List.cons_append])

/-- **A least order is lexicographically least.** -/
theorem Least.le [LinearOrder α] (hleast : Least ready done order)
    (hfollows : Follows ready done other) (hlength : order.length = other.length) :
    order ≤ other := by
  induction order generalizing done other with
  | nil =>
      rw [List.length_eq_zero_iff.mp hlength.symm]
  | cons x rest ih =>
      cases other with
      | nil => simp at hlength
      | cons y others =>
          -- Up to the first difference both orders have the same elements out.
          rcases (hleast.1 y hfollows.1).lt_or_eq with hless | rfl
          · exact le_of_lt (List.Lex.rel hless)
          · exact List.cons_le_cons _ (ih hleast.2 hfollows.2 (by simpa using hlength))

end DisksGraph.Support
