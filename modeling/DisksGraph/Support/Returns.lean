import Mathlib.Data.List.Forall2

/-!
# Support — Returns

Calls that return a value, return an error, or do not return.

* `Returns ε α` is `ExceptT ε Option α`: `none` stands for a call that panics or never ends.
* `Returns.bind_eq_pure` and `except_bind_eq_ok` take a sequence of calls that returned a value
  apart.
* `foldlM_invariant`: what every round of a loop keeps, the loop keeps.
* `Spares bad x`: the call does not fail with an error of the kind `bad`; the rules follow the way
  calls are put together.
-/

namespace DisksGraph.Support

/-- A call that may return an error and may also not return at all. -/
abbrev Returns (ε : Type) : Type → Type := ExceptT ε Option

namespace Returns

variable {ε α β : Type}

/-- The call panics, or runs forever. -/
def never : Returns ε α := (none : Option (Except ε α))

/-- A call that always returns. -/
def lift (x : Except ε α) : Returns ε α := (some x : Option (Except ε α))

/-- A value that is always there; otherwise the call panics. -/
def unwrap : Option α → Returns ε α
  | none => never
  | some value => pure value

/-- `map_err`. -/
def mapError {δ : Type} (into : ε → δ) : Returns ε α → Returns δ α
  | none => never
  | some (.error error) => throw (into error)
  | some (.ok value) => pure value

/-- The value of a call that returned one. -/
def toOption : Returns ε α → Option α
  | some (.ok value) => some value
  | _ => none

/-- The value of a computation that returns one. -/
theorem toOption_eq_some {x : Returns ε α} {a : α} : x.toOption = some a ↔ x = pure a := by
  cases x with
  | none => constructor <;> intro h <;> cases h
  | some result =>
      cases result with
      | error error => constructor <;> intro h <;> cases h
      | ok value =>
          constructor
          · intro h
            cases h
            rfl
          · intro h
            cases h
            rfl

/-- A lifted result is the value it has. -/
theorem lift_eq_pure {x : Except ε α} {a : α} : (lift x : Returns ε α) = pure a ↔ x = .ok a := by
  constructor
  · intro h
    cases h
    rfl
  · rintro rfl
    rfl

/-- Turning the error into another keeps the value. -/
theorem mapError_eq_pure {δ : Type} {into : ε → δ} {x : Returns ε α} {a : α} :
    mapError into x = pure a ↔ x = pure a := by
  cases x with
  | none => exact ⟨nofun, nofun⟩
  | some result =>
      cases result with
      | error error => exact ⟨nofun, nofun⟩
      | ok value =>
          constructor
          · intro h
            cases h
            rfl
          · intro h
            cases h
            rfl

/-- An unwrapped value was there. -/
theorem unwrap_eq_pure {x : Option α} {a : α} :
    (unwrap x : Returns ε α) = pure a ↔ x = some a := by
  cases x with
  | none => exact ⟨nofun, nofun⟩
  | some value =>
      constructor
      · intro h
        cases h
        rfl
      · rintro ⟨⟩
        rfl

theorem pure_inj {a b : α} : (pure a : Returns ε α) = pure b ↔ a = b := by
  constructor
  · intro h
    cases h
    rfl
  · rintro rfl
    rfl

theorem never_ne_pure {a : α} : (never : Returns ε α) ≠ pure a := nofun

theorem lift_ne_never {result : Except ε α} : lift result ≠ never := nofun

theorem throw_ne_pure {e : ε} {a : α} : (throw e : Returns ε α) ≠ pure a := nofun

/-- A sequence returned a value exactly when each of its calls did. -/
theorem bind_eq_pure {x : Returns ε α} {f : α → Returns ε β} {b : β} :
    x >>= f = pure b ↔ ∃ a, x = pure a ∧ f a = pure b := by
  constructor
  · intro h
    cases x with
    | none => cases h
    | some r =>
        cases r with
        | error e => cases h
        | ok a => exact ⟨a, rfl, h⟩
  · rintro ⟨a, rfl, h⟩
    exact h

/-- A check that is passed. -/
theorem guard_eq_pure {c : Prop} [Decidable c] {error : ε} {rest : PUnit → Returns ε α} {a : α} :
    (if c then throw error >>= rest else rest ⟨⟩) = pure a ↔ ¬c ∧ rest ⟨⟩ = pure a := by
  by_cases h : c
  · rw [if_pos h]
    constructor
    · intro hthrow
      cases hthrow
    · exact fun hnot => absurd h hnot.1
  · rw [if_neg h]
    exact ⟨fun hrest => ⟨h, hrest⟩, fun hnot => hnot.2⟩

/-- A loop of calls returned a list exactly when each of its calls returned the value there. -/
theorem mapM_eq_pure {f : α → Returns ε β} {items : List α} {results : List β} :
    items.mapM f = pure results ↔ List.Forall₂ (fun a b => f a = pure b) items results := by
  induction items generalizing results with
  | nil =>
      rw [List.mapM_nil, pure_inj, List.forall₂_nil_left_iff, eq_comm]
  | cons item rest ih =>
      rw [List.mapM_cons, bind_eq_pure, List.forall₂_cons_left_iff]
      simp only [bind_eq_pure, pure_inj, ih]
      constructor
      · rintro ⟨b, hb, bs, hbs, rfl⟩
        exact ⟨b, bs, hb, hbs, rfl⟩
      · rintro ⟨b, bs, hb, hbs, rfl⟩
        exact ⟨b, hb, bs, hbs, rfl⟩

/-- A sequence returns a value or an error when its calls do. -/
theorem exists_bind {x : Returns ε α} {f : α → Returns ε β} (hx : ∃ result, x = some result)
    (hf : ∀ a, x = pure a → ∃ result, f a = some result) : ∃ result, x >>= f = some result := by
  obtain ⟨result, rfl⟩ := hx
  cases result with
  | error error => exact ⟨.error error, rfl⟩
  | ok a => exact hf a rfl

/-- A list of computations that return returns. -/
theorem exists_mapM {f : α → Returns ε β} {items : List α}
    (hf : ∀ item ∈ items, ∃ result, f item = some result) :
    ∃ result, items.mapM f = some result := by
  induction items with
  | nil => exact ⟨.ok [], rfl⟩
  | cons item rest ih =>
      rw [List.mapM_cons]
      refine exists_bind (hf item List.mem_cons_self) fun _ _ => ?_
      refine exists_bind (ih fun other hother => hf other (List.mem_cons_of_mem _ hother)) ?_
      exact fun _ _ => ⟨_, rfl⟩

theorem exists_mapError {δ : Type} {into : ε → δ} {x : Returns ε α}
    (hx : ∃ result, x = some result) : ∃ result, mapError into x = some result := by
  obtain ⟨result, rfl⟩ := hx
  cases result with
  | error error => exact ⟨.error (into error), rfl⟩
  | ok a => exact ⟨.ok a, rfl⟩

/-- Calls whose values are known. -/
theorem mapM_eq_map {f : α → Returns ε β} {g : α → β} {items : List α} {results : List β}
    (hf : ∀ a b, f a = pure b → g a = b) (h : items.mapM f = pure results) :
    results = items.map g := by
  have hall := (mapM_eq_pure.mp h).imp hf
  rw [← List.forall₂_map_left_iff, List.forall₂_eq_eq_eq] at hall
  exact hall.symm

end Returns

/-- The same for a sequence of calls that always return. -/
theorem except_bind_eq_ok {ε α β : Type} {x : Except ε α} {f : α → Except ε β} {b : β} :
    x >>= f = .ok b ↔ ∃ a, x = .ok a ∧ f a = .ok b := by
  cases x with
  | error e => exact ⟨nofun, fun ⟨_, h, _⟩ => nomatch h⟩
  | ok a => exact ⟨fun h => ⟨a, rfl, h⟩, fun ⟨_, h, hf⟩ => by cases h; exact hf⟩

theorem except_ok_bind {ε α β : Type} {a : α} {f : α → Except ε β} :
    (Except.ok a >>= f) = f a := rfl

/-- A list of computations succeeds when each does. -/
theorem except_mapM_eq_ok {ε α β : Type} {f : α → Except ε β} {items : List α} {results : List β} :
    items.mapM f = .ok results ↔ List.Forall₂ (fun a b => f a = .ok b) items results := by
  induction items generalizing results with
  | nil =>
      rw [List.mapM_nil, List.forall₂_nil_left_iff]
      exact ⟨fun h => (Except.ok.inj h).symm, fun h => h ▸ rfl⟩
  | cons item rest ih =>
      rw [List.mapM_cons, except_bind_eq_ok, List.forall₂_cons_left_iff]
      simp only [except_bind_eq_ok, ih]
      constructor
      · rintro ⟨b, hb, bs, hbs, h⟩
        exact ⟨b, bs, hb, hbs, (Except.ok.inj h).symm⟩
      · rintro ⟨b, bs, hb, hbs, rfl⟩
        exact ⟨b, hb, bs, hbs, rfl⟩

/-- A list of checks passes when each does. -/
theorem except_forM_eq_ok {ε α : Type} {f : α → Except ε Unit} {items : List α} :
    items.forM f = .ok () ↔ ∀ a ∈ items, f a = .ok () := by
  induction items with
  | nil => exact ⟨fun _ _ h => absurd h List.not_mem_nil, fun _ => rfl⟩
  | cons item rest ih =>
      rw [List.forM, except_bind_eq_ok, List.forall_mem_cons]
      constructor
      · rintro ⟨⟨⟩, hitem, hrest⟩
        exact ⟨hitem, ih.mp hrest⟩
      · rintro ⟨hitem, hrest⟩
        exact ⟨⟨⟩, hitem, ih.mpr hrest⟩

/-- A `for` loop whose body only checks its item. -/
theorem except_forIn_eq_ok {ε α : Type} {f : α → Except ε (ForInStep PUnit)} {P : α → Prop}
    {items : List α} (hok : ∀ a, P a → f a = .ok (.yield ⟨⟩))
    (hfail : ∀ a, ¬P a → ∃ e, f a = .error e) :
    forIn items PUnit.unit (fun a _ => f a) = .ok ⟨⟩ ↔ ∀ a ∈ items, P a := by
  induction items with
  | nil => exact ⟨nofun, fun _ => rfl⟩
  | cons a rest ih =>
      rw [List.forIn_cons, List.forall_mem_cons, ← ih]
      by_cases ha : P a
      · rw [hok a ha]
        exact ⟨fun h => ⟨ha, h⟩, fun h => h.2⟩
      · obtain ⟨e, he⟩ := hfail a ha
        rw [he]
        exact ⟨nofun, fun h => absurd h.1 ha⟩

/-- Every value on the right belongs to one on the left. -/
theorem exists_of_forall₂ {α β : Type} {R : α → β → Prop} {as : List α} {bs : List β}
    (h : List.Forall₂ R as bs) {b : β} (hb : b ∈ bs) : ∃ a ∈ as, R a b := by
  induction h with
  | nil => cases hb
  | cons hfirst _ ih =>
      rcases List.mem_cons.mp hb with rfl | hb
      · exact ⟨_, List.mem_cons_self, hfirst⟩
      · obtain ⟨a, ha, hab⟩ := ih hb
        exact ⟨a, List.mem_cons_of_mem _ ha, hab⟩

/-- The value on the left of one on the right, at the same place. -/
theorem getElem?_of_forall₂ {α β : Type} {R : α → β → Prop} {as : List α} {bs : List β}
    (h : List.Forall₂ R as bs) {index : Nat} {b : β} (hb : bs[index]? = some b) :
    ∃ a, as[index]? = some a ∧ R a b := by
  induction h generalizing index with
  | nil => cases hb
  | @cons a b' as bs hfirst _ ih =>
      cases index with
      | zero => exact ⟨a, rfl, Option.some.inj hb ▸ hfirst⟩
      | succ index => exact ih hb

/-- A loop of lookups found a list exactly when each of its lookups found the value there. -/
theorem option_mapM_eq_some {α β : Type} {f : α → Option β} {items : List α} {results : List β} :
    items.mapM f = some results ↔ List.Forall₂ (fun a b => f a = some b) items results := by
  induction items generalizing results with
  | nil => simp
  | cons item rest ih =>
      rw [List.mapM_cons, List.forall₂_cons_left_iff]
      simp only [Option.bind_eq_bind, Option.bind_eq_some_iff, Option.pure_def, ih,
        Option.some.injEq]
      constructor
      · rintro ⟨b, hb, bs, hbs, rfl⟩
        exact ⟨b, bs, hb, hbs, rfl⟩
      · rintro ⟨b, bs, hb, hbs, rfl⟩
        exact ⟨b, hb, bs, hbs, rfl⟩

/-- A loop of lookups that all find a value. -/
theorem option_mapM_of_forall {α β : Type} {f : α → Option β} {items : List α}
    (h : ∀ a ∈ items, ∃ b, f a = some b) :
    ∃ results, items.mapM f = some results ∧
      List.Forall₂ (fun a b => f a = some b) items results := by
  induction items with
  | nil => exact ⟨[], rfl, .nil⟩
  | cons item rest ih =>
      obtain ⟨first, hfirst⟩ := h item List.mem_cons_self
      obtain ⟨results, hresults, hall⟩ := ih fun a ha => h a (List.mem_cons_of_mem _ ha)
      refine ⟨first :: results, ?_, .cons hfirst hall⟩
      rw [List.mapM_cons, hfirst, hresults]
      rfl

/-- A loop of lookups finds a list exactly when each of its lookups finds a value. -/
theorem option_mapM_some_iff {α β : Type} {f : α → Option β} {items : List α} :
    (∃ results, items.mapM f = some results) ↔ ∀ item ∈ items, ∃ b, f item = some b := by
  constructor
  · rintro ⟨results, hresults⟩
    rw [option_mapM_eq_some] at hresults
    induction hresults with
    | nil => exact List.forall_mem_nil _
    | cons hfirst _ ih => exact List.forall_mem_cons.mpr ⟨⟨_, hfirst⟩, ih⟩
  · intro h
    obtain ⟨results, hresults, -⟩ := option_mapM_of_forall h
    exact ⟨results, hresults⟩

theorem option_map_some_iff {α β : Type} {f : α → β} {a : Option α} :
    (∃ b, a.map f = some b) ↔ ∃ b, a = some b := by
  cases a <;> simp

/-- A loop of lookups whose values are known. -/
theorem option_mapM_eq_map {α β : Type} {f : α → Option β} {g : α → β} {items : List α}
    (h : ∀ a ∈ items, f a = some (g a)) : items.mapM f = some (items.map g) := by
  induction items with
  | nil => rfl
  | cons item rest ih =>
      obtain ⟨hitem, hrest⟩ := List.forall_mem_cons.mp h
      rw [List.mapM_cons, hitem, ih hrest]
      rfl

section Loops

variable {ε α β : Type} {f : β → α → Except ε β} {items : List α} {s s' : β}

/-- What every round of a loop keeps, the loop keeps. -/
theorem foldlM_invariant {P : β → Prop} (hs : P s)
    (hf : ∀ item ∈ items, ∀ s s', P s → f s item = .ok s' → P s')
    (h : items.foldlM f s = .ok s') : P s' := by
  induction items generalizing s with
  | nil =>
      obtain rfl : s = s' := Except.ok.inj h
      exact hs
  | cons item rest ih =>
      rw [List.foldlM_cons] at h
      obtain ⟨next, hitem, h⟩ := except_bind_eq_ok.mp h
      refine ih (hf item List.mem_cons_self s next hs hitem) ?_ h
      exact fun item hmem => hf item (List.mem_cons_of_mem _ hmem)

/-- A loop fails at its first failing round. -/
theorem foldlM_eq_error {e : ε} :
    items.foldlM f s = .error e ↔ ∃ before item after t, items = before ++ item :: after ∧
      before.foldlM f s = .ok t ∧ f t item = .error e := by
  constructor
  · intro h
    induction items generalizing s with
    | nil => cases h
    | cons item rest ih =>
        rw [List.foldlM_cons] at h
        cases hitem : f s item with
        | error e' =>
            rw [hitem] at h
            obtain rfl := Except.error.inj h
            exact ⟨[], item, rest, s, rfl, rfl, hitem⟩
        | ok next =>
            rw [hitem] at h
            obtain ⟨before, last, after, t, rfl, hbefore, hlast⟩ := ih h
            refine ⟨item :: before, last, after, t, rfl, ?_, hlast⟩
            rw [List.foldlM_cons, hitem]
            exact hbefore
  · rintro ⟨before, item, after, t, rfl, hbefore, hitem⟩
    rw [List.foldlM_append, hbefore, except_ok_bind, List.foldlM_cons, hitem]
    rfl

/-- A loop that leaves a view alone at each round leaves it alone. -/
theorem foldlM_view {V : Type} (view : β → V)
    (hf : ∀ item ∈ items, ∀ s s', f s item = .ok s' → view s' = view s)
    (h : items.foldlM f s = .ok s') : view s' = view s := by
  refine foldlM_invariant (P := fun t => view t = view s) rfl (fun item hmem t t' ht hstep => ?_) h
  exact (hf item hmem t t' hstep).trans ht

end Loops

/-! ### Excluded errors -/

section Spares

variable {ε α β : Type} {bad : ε → Prop}

/-- A call that always returns does not fail with an excluded error. -/
def Spares (bad : ε → Prop) : Except ε α → Prop
  | .error error => ¬bad error
  | .ok _ => True

/-- The same for a call that may also not return. -/
def Returns.Spares (bad : ε → Prop) : Returns ε α → Prop
  | some result => Support.Spares bad result
  | none => True

/-- Computations in sequence spare what both spare. -/
theorem Spares.bind {x : Except ε α} {f : α → Except ε β} (hx : Spares bad x)
    (hf : ∀ a, x = .ok a → Spares bad (f a)) : Spares bad (x >>= f) := by
  cases x with
  | error error => exact hx
  | ok a => exact hf a rfl

/-- A fold spares what its steps spare. -/
theorem Spares.foldlM {f : β → α → Except ε β} {items : List α}
    (hf : ∀ item ∈ items, ∀ s, Spares bad (f s item)) (s : β) : Spares bad (items.foldlM f s) := by
  induction items generalizing s with
  | nil => trivial
  | cons item rest ih =>
      rw [List.foldlM_cons]
      refine (hf item List.mem_cons_self s).bind fun next _ => ih ?_ next
      exact fun other hother => hf other (List.mem_cons_of_mem _ hother)

/-- A list of computations spares what each spares. -/
theorem Spares.mapM {f : α → Except ε β} {items : List α}
    (hf : ∀ item ∈ items, Spares bad (f item)) : Spares bad (items.mapM f) := by
  induction items with
  | nil => trivial
  | cons item rest ih =>
      rw [List.mapM_cons]
      refine (hf item List.mem_cons_self).bind fun _ _ => ?_
      refine (ih fun other hother => hf other (List.mem_cons_of_mem _ hother)).bind fun _ _ => ?_
      trivial

theorem Spares.forM {f : α → Except ε PUnit} {items : List α}
    (hf : ∀ item ∈ items, Spares bad (f item)) : Spares bad (items.forM f) := by
  induction items with
  | nil => trivial
  | cons item rest ih =>
      refine (hf item List.mem_cons_self).bind fun _ _ => ih ?_
      exact fun other hother => hf other (List.mem_cons_of_mem _ hother)

namespace Returns

theorem Spares.lift {x : Except ε α} (hx : Support.Spares bad x) : (Returns.lift x).Spares bad := hx

theorem Spares.bind {x : Returns ε α} {f : α → Returns ε β} (hx : x.Spares bad)
    (hf : ∀ a, x = pure a → (f a).Spares bad) : (x >>= f).Spares bad := by
  cases x with
  | none => trivial
  | some result =>
      cases result with
      | error error => exact hx
      | ok a => exact hf a rfl

theorem Spares.mapM {f : α → Returns ε β} {items : List α}
    (hf : ∀ item ∈ items, (f item).Spares bad) : Returns.Spares bad (items.mapM f) := by
  induction items with
  | nil => trivial
  | cons item rest ih =>
      rw [List.mapM_cons]
      refine (hf item List.mem_cons_self).bind fun _ _ => ?_
      refine (ih fun other hother => hf other (List.mem_cons_of_mem _ hother)).bind fun _ _ => ?_
      trivial

theorem Spares.unwrap {x : Option α} : (Returns.unwrap x : Returns ε α).Spares bad := by
  cases x <;> trivial

theorem Spares.mapError {δ : Type} {into : δ → ε} {bad' : δ → Prop} {x : Returns δ α}
    (hx : x.Spares bad') (h : ∀ error, bad (into error) → bad' error) :
    (Returns.mapError into x).Spares bad := by
  cases x with
  | none => trivial
  | some result =>
      cases result with
      | error error => exact fun hbad => hx (h error hbad)
      | ok a => trivial

/-- The error of a call is not an excluded one. -/
theorem Spares.not_bad {x : Returns ε α} (hx : x.Spares bad) {error : ε} (h : x = throw error) :
    ¬bad error := by
  subst h
  exact hx

end Returns

end Spares

end DisksGraph.Support
