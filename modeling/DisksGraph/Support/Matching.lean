import Mathlib.Data.List.Perm.Subperm
import Mathlib.Data.List.Nodup
import Mathlib.Data.Set.Function

/-!
# Support — Matching

Lists without repetition that are matched one-sidedly.

A matching that never uses an entry twice, stays inside the other list and leaves it no longer is
onto: comparing the lengths takes the place of the search in the other direction.

* `perm_map_of_injOn`: the images are the other list, up to order.
* `bijOn_of_injOn`: the same for the sets of entries.
-/

namespace DisksGraph.Support

variable {α β : Type} {f : α → β} {items : List α} {others : List β}

/-- **An injective matching into a list that is not longer is onto.** -/
theorem perm_map_of_injOn (hnodup : items.Nodup)
    (hinj : ∀ a ∈ items, ∀ b ∈ items, f a = f b → a = b)
    (hmaps : ∀ a ∈ items, f a ∈ others) (hlength : others.length ≤ items.length) :
    (items.map f).Perm others := by
  have himages : (items.map f).Nodup := hnodup.map_on fun a ha b hb => hinj a ha b hb
  have hsubset : items.map f ⊆ others := by
    intro b hb
    obtain ⟨a, ha, rfl⟩ := List.mem_map.mp hb
    exact hmaps a ha
  exact (himages.subperm hsubset).perm_of_length_le (by rwa [List.length_map])

/-- The entries of the two lists correspond one to one. -/
theorem bijOn_of_injOn (hnodup : items.Nodup) (hinj : ∀ a ∈ items, ∀ b ∈ items, f a = f b → a = b)
    (hmaps : ∀ a ∈ items, f a ∈ others) (hlength : others.length ≤ items.length) :
    Set.BijOn f {a | a ∈ items} {b | b ∈ others} := by
  refine ⟨fun a ha => hmaps a ha, fun a ha b hb => hinj a ha b hb, fun b hb => ?_⟩
  exact List.mem_map.mp ((perm_map_of_injOn hnodup hinj hmaps hlength).mem_iff.mpr hb)

end DisksGraph.Support
