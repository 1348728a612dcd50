import Mathlib.Data.List.Perm.Basic

/-!
# Support — Iteration

Searches through a table whose iteration order is not specified.

* `Iteration`: an order for every content of the table.
* `findMap_eq_none`, `exists_of_findMap`: what a search finds in every order.
* `Iteration.first`: the order that meets some entries before all others; with it a search finds
  what is among them (`findMap_first`), or nothing else is left to find (`findMap_last`).
-/

namespace DisksGraph.Support

/-- The order in which a table yields its entries: some order of them, whatever they are. -/
structure Iteration (α : Type) where
  order : List α → List α
  perm : ∀ entries, (order entries).Perm entries

namespace Iteration

variable {α β : Type} (iteration : Iteration α) {entries : List α} {f : α → Option β} {p : α → Bool}
  {a : α} {b : β}

/-- `iter().find_map(f)`. -/
def findMap (f : α → Option β) (entries : List α) : Option β :=
  (iteration.order entries).findSome? f

/-- An iteration visits every entry and no other. -/
theorem mem_order : a ∈ iteration.order entries ↔ a ∈ entries := (iteration.perm entries).mem_iff

theorem findMap_eq_none : iteration.findMap f entries = none ↔ ∀ a ∈ entries, f a = none := by
  rw [findMap, List.findSome?_eq_none_iff]
  simp only [mem_order]

/-- What is found comes from an entry. -/
theorem exists_of_findMap (h : iteration.findMap f entries = some b) :
    ∃ a ∈ entries, f a = some b := by
  obtain ⟨a, ha, hb⟩ := List.exists_of_findSome?_eq_some h
  exact ⟨a, iteration.mem_order.mp ha, hb⟩

/-- A search finds something when there is something to find. -/
theorem exists_findMap (ha : a ∈ entries) (hb : f a = some b) :
    ∃ b', iteration.findMap f entries = some b' := by
  cases h : iteration.findMap f entries with
  | none => exact absurd (iteration.findMap_eq_none.mp h a ha) (by simp [hb])
  | some b' => exact ⟨b', rfl⟩

/-- The entries with a property first, then the others. -/
def first (p : α → Bool) : Iteration α where
  order entries := entries.filter p ++ entries.filter fun a => !p a
  perm entries := List.filter_append_perm p entries

/-- What is found among the first entries is found. -/
theorem findMap_first (ha : a ∈ entries) (hp : p a = true) (hb : f a = some b)
    (hunique : ∀ a ∈ entries, p a = true → ∀ b', f a = some b' → b' = b) :
    (first p).findMap f entries = some b := by
  rw [findMap, first, List.findSome?_append]
  cases h : (entries.filter p).findSome? f with
  | none =>
      have hnone := List.findSome?_eq_none_iff.mp h a (List.mem_filter.mpr ⟨ha, hp⟩)
      rw [hb] at hnone
      cases hnone
  | some b' =>
      obtain ⟨a', ha', hfound⟩ := List.exists_of_findSome?_eq_some h
      obtain ⟨hmem, hp'⟩ := List.mem_filter.mp ha'
      rw [hunique a' hmem hp' b' hfound]
      rfl

/-- What is found only among the last entries shows that the first ones have nothing. -/
theorem findMap_last (h : (first p).findMap f entries = some b)
    (hlast : ∀ a ∈ entries, p a = true → f a ≠ some b) :
    ∀ a ∈ entries, p a = true → f a = none := by
  intro a ha hp
  rw [findMap, first, List.findSome?_append] at h
  cases hfirst : (entries.filter p).findSome? f with
  | none => exact List.findSome?_eq_none_iff.mp hfirst a (List.mem_filter.mpr ⟨ha, hp⟩)
  | some b' =>
      rw [hfirst, Option.some_or, Option.some_inj] at h
      obtain ⟨a', ha', hfound⟩ := List.exists_of_findSome?_eq_some hfirst
      obtain ⟨hmem, hp'⟩ := List.mem_filter.mp ha'
      exact absurd (hfound.trans (congrArg some h)) (hlast a' hmem hp')

end Iteration

end DisksGraph.Support
