import Mathlib.Data.List.AList

/-!
# Support — Tables

What changes of a table do to its entries and to the number of its keys.

* `Bounded limit table`: at most `limit` keys.
* `lookup_insert`, `lookup_replace`, `lookup_erase`: an entry after a change is the new one, or one
  from before.
* `perm_erase`: a table is one of its entries and the others.
-/

namespace DisksGraph.Support.Tables

variable {κ : Type} {ν : Type} [DecidableEq κ] {table : AList fun _ : κ => ν} {key other : κ}
  {value found : ν} {limit : Nat}

/-- A table of at most so many keys. -/
def Bounded (limit : Nat) (table : AList fun _ : κ => ν) : Prop := table.keys.length ≤ limit

/-- What is found after an insertion. -/
theorem lookup_insert (h : (table.insert key value).lookup other = some found) :
    other = key ∧ found = value ∨ table.lookup other = some found := by
  by_cases hkey : other = key
  · subst hkey
    rw [AList.lookup_insert] at h
    exact .inl ⟨rfl, (Option.some.inj h).symm⟩
  · rw [AList.lookup_insert_ne hkey] at h
    exact .inr h

/-- What is found after a removal was there before. -/
theorem lookup_erase (h : (table.erase key).lookup other = some found) :
    table.lookup other = some found := by
  by_cases hkey : other = key
  · subst hkey
    rw [AList.lookup_erase] at h
    cases h
  · rwa [AList.lookup_erase_ne hkey] at h

theorem mem_kreplace {entries : List (Sigma fun _ : κ => ν)} {entry : Sigma fun _ : κ => ν}
    (h : entry ∈ entries.kreplace key value) : entry = ⟨key, value⟩ ∨ entry ∈ entries := by
  induction entries with
  | nil => exact .inr h
  | cons first rest ih =>
      rw [List.kreplace] at h
      by_cases hkey : key = first.1
      · rw [List.lookmap_cons_some _ _ (dif_pos hkey)] at h
        exact (List.mem_cons.mp h).imp_right (List.mem_cons_of_mem _)
      · rw [List.lookmap_cons_none _ _ (dif_neg hkey)] at h
        rcases List.mem_cons.mp h with rfl | hrest
        · exact .inr List.mem_cons_self
        · exact (ih hrest).imp_right (List.mem_cons_of_mem _)

/-- What is found after a replacement. -/
theorem lookup_replace (h : (table.replace key value).lookup other = some found) :
    found = value ∨ table.lookup other = some found := by
  rcases mem_kreplace (AList.mem_lookup_iff.mp h) with hnew | hold
  · cases hnew
    exact .inl rfl
  · exact .inr (AList.mem_lookup_iff.mpr hold)

theorem perm_kerase {entries : List (Sigma fun _ : κ => ν)} (h : entries.dlookup key = some value) :
    entries.Perm (⟨key, value⟩ :: entries.kerase key) := by
  induction entries with
  | nil => cases h
  | cons first rest ih =>
      by_cases hkey : key = first.1
      -- The entry that is found is the first of its key, and so is the one that is taken out.
      · obtain ⟨key', value'⟩ := first
        obtain rfl : key = key' := hkey
        rw [List.dlookup_cons_eq] at h
        obtain rfl := Option.some.inj h
        rw [@List.kerase_cons_eq _ _ _ key ⟨key, value'⟩ rest rfl]
      · rw [List.dlookup_cons_ne _ _ hkey] at h
        rw [List.kerase_cons_ne hkey]
        exact ((ih h).cons first).trans (.swap ..)

/-- A table is one of its entries and the others. -/
theorem perm_erase (h : table.lookup key = some value) :
    table.entries.Perm (⟨key, value⟩ :: (table.erase key).entries) :=
  perm_kerase h

/-- A table with room stays bounded. -/
theorem Bounded.insert (h : table.keys.length < limit) :
    Bounded limit (table.insert key value) := by
  rw [Bounded, AList.keys_insert, List.length_cons]
  exact Nat.le_trans (Nat.succ_le_succ List.length_erase_le) h

/-- A replacement keeps a table bounded. -/
theorem Bounded.replace (h : Bounded limit table) : Bounded limit (table.replace key value) := by
  rwa [Bounded, AList.keys_replace]

/-- A removal keeps a table bounded. -/
theorem Bounded.erase (h : Bounded limit table) : Bounded limit (table.erase key) := by
  rw [Bounded, AList.keys_erase]
  exact Nat.le_trans List.length_erase_le h

end DisksGraph.Support.Tables
