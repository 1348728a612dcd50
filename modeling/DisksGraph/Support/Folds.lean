import Mathlib.Data.List.Nodup

/-!
# Support — Folds

What a left fold over a list of records has done at its end, from what one step does.

* `foldl_view`: a step that adds to a view exactly what its record emits.
* `foldl_shows`: a step that adds at most what its record emits.
* `foldl_establishes`: what one record establishes and no other record undoes.
* `foldl_first`: a step that writes only where nothing was written keeps the first record of a key.

An invariant kept by every step is `List.foldlRecOn`.
-/

namespace DisksGraph.Support

variable {σ α β : Type*} {step : σ → α → σ}

theorem foldl_view {V : σ → β → Prop} {E : α → β → Prop}
    (hstep : ∀ s a b, V (step s a) b ↔ V s b ∨ E a b) (items : List α) (s : σ) (b : β) :
    V (items.foldl step s) b ↔ V s b ∨ ∃ a ∈ items, E a b := by
  induction items generalizing s with
  | nil => simp
  | cons a items ih =>
      rw [List.foldl_cons, ih, hstep, List.exists_mem_cons_iff, or_assoc]

/-- What a fold shows at most, when each step adds no more. -/
theorem foldl_shows {V : σ → β → Prop} {E : α → β → Prop} {items : List α}
    (hstep : ∀ s, ∀ a ∈ items, ∀ b, V (step s a) b → V s b ∨ E a b) {s : σ} {b : β}
    (h : V (items.foldl step s) b) : V s b ∨ ∃ a ∈ items, E a b := by
  induction items generalizing s with
  | nil => exact .inl h
  | cons a items ih =>
      rw [List.foldl_cons] at h
      rcases ih (fun s c hc => hstep s c (List.mem_cons_of_mem a hc)) h with hs | ⟨c, hc, he⟩
      · rcases hstep s a List.mem_cons_self b hs with hs | he
        · exact .inl hs
        · exact .inr ⟨a, List.mem_cons_self, he⟩
      · exact .inr ⟨c, List.mem_cons_of_mem a hc, he⟩

theorem foldl_establishes {P : σ → Prop} {items : List α} {a : α} (ha : a ∈ items)
    (hdone : ∀ s, P (step s a)) (hkeep : ∀ s, ∀ c ∈ items, P s → P (step s c)) (s : σ) :
    P (items.foldl step s) := by
  obtain ⟨before, after, rfl⟩ := List.append_of_mem ha
  rw [List.foldl_append, List.foldl_cons]
  refine List.foldlRecOn after step (hdone _) fun s hs c hc => hkeep s c ?_ hs
  exact List.mem_append_right before (List.mem_cons_of_mem a hc)

/-- The first value written under a key stays. -/
theorem foldl_first {κ ν : Type*} [BEq κ] [LawfulBEq κ] (get : σ → κ → Option ν)
    {write : σ → κ × ν → σ}
    (hwrite : ∀ s k v l, get (write s (k, v)) l =
      if l == k then (get s l).or (some v) else get s l)
    (items : List (κ × ν)) (s : σ) (l : κ) :
    get (items.foldl write s) l = (get s l).or (items.lookup l) := by
  induction items generalizing s with
  | nil => simp
  | cons item items ih =>
      obtain ⟨k, v⟩ := item
      rw [List.foldl_cons, ih, hwrite, List.lookup_cons]
      cases hlk : l == k with
      | true => cases get s l <;> simp
      | false => simp

/-- An element passes a test that is passed once. -/
theorem filter_eq_of_countP_one {α : Type*} {items : List α} {p : α → Bool} {x : α}
    (hcount : items.countP p = 1) (hx : x ∈ items) (hp : p x = true) : items.filter p = [x] := by
  rw [List.countP_eq_length_filter, List.length_eq_one_iff] at hcount
  obtain ⟨y, hy⟩ := hcount
  have hmem : x ∈ items.filter p := List.mem_filter.mpr ⟨hx, hp⟩
  rw [hy, List.mem_singleton] at hmem
  rw [hy, hmem]

/-- One element of a list without repetition passes a test. -/
theorem filter_eq_singleton {α : Type*} {items : List α} (hd : items.Nodup) {p : α → Bool} {x : α} :
    items.filter p = [x] ↔ x ∈ items ∧ p x ∧ ∀ y ∈ items, p y → y = x := by
  constructor
  · intro h
    have hx : x ∈ items.filter p := h ▸ List.mem_singleton_self x
    refine ⟨(List.mem_filter.mp hx).1, (List.mem_filter.mp hx).2, fun y hy hp => ?_⟩
    exact List.mem_singleton.mp (h ▸ List.mem_filter.mpr ⟨hy, hp⟩)
  · rintro ⟨hx, hp, hall⟩
    refine List.perm_singleton.mp ((List.perm_ext_iff_of_nodup (hd.filter p)
      (List.nodup_singleton x)).mpr fun y => ?_)
    rw [List.mem_filter, List.mem_singleton]
    exact ⟨fun hy => hall y hy.1 hy.2, fun hy => hy ▸ ⟨hx, hp⟩⟩

/-- A list without repetition that holds exactly one value. -/
theorem eq_singleton_iff {α : Type*} {items : List α} (hd : items.Nodup) {x : α} :
    items = [x] ↔ ∀ y, y ∈ items ↔ y = x := by
  constructor
  · rintro rfl y
    exact List.mem_singleton
  · intro h
    refine List.perm_singleton.mp ((List.perm_ext_iff_of_nodup hd (List.nodup_singleton x)).mpr ?_)
    simpa only [List.mem_singleton] using h

/-- One element of a list without repetition is counted. -/
theorem countP_eq_one {α : Type*} {items : List α} (hd : items.Nodup) {p : α → Bool} {x : α}
    (hx : x ∈ items) (hp : p x) : items.countP p = 1 ↔ ∀ y ∈ items, p y → y = x := by
  rw [List.countP_eq_length_filter, List.length_eq_one_iff]
  constructor
  · rintro ⟨y, hy⟩
    have hmem : x ∈ items.filter p := List.mem_filter.mpr ⟨hx, hp⟩
    rw [hy, List.mem_singleton] at hmem
    exact hmem ▸ ((filter_eq_singleton hd).mp hy).2.2
  · exact fun h => ⟨x, (filter_eq_singleton hd).mpr ⟨hx, hp, h⟩⟩

end DisksGraph.Support
