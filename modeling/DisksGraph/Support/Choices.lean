import DisksGraph.Support.Returns

/-!
# Support — Choices

Calls whose result may depend on a choice that nobody specifies, such as the order in which a hash
table yields its entries.

* `Choices ε α` is the set of the ways a call can end.
* `Alike`: two ways to end that a caller cannot tell apart, given when it can tell two errors and
  two values apart.
* `Choices.Follows`: every way the call can end is alike to one given call.  The rules follow the
  way calls are put together; two ends of a call that follows another are then alike to the same
  one.
-/

namespace DisksGraph.Support

variable {ε α β γ δ : Type}

theorem Returns.lift_bind {x : Except ε α} {f : α → Except ε β} :
    (Returns.lift (x >>= f) : Returns ε β) = Returns.lift x >>= fun a => Returns.lift (f a) := by
  cases x <;> rfl

/-! ### Ends that are alike -/

/-- The calls return alike values, fail with alike errors, or both do not return. -/
inductive Alike (K : ε → ε → Prop) (R : α → β → Prop) : Returns ε α → Returns ε β → Prop where
  | never : Alike K R Returns.never Returns.never
  | throw {e e' : ε} (h : K e e') : Alike K R (throw e) (throw e')
  | pure {a : α} {b : β} (h : R a b) : Alike K R (pure a) (pure b)

namespace Alike

variable {K : ε → ε → Prop} {R : α → β → Prop} {S : γ → δ → Prop}

/-- Computations that end alike, one after the other. -/
theorem bind {x : Returns ε α} {y : Returns ε β} {f : α → Returns ε γ} {g : β → Returns ε δ}
    (h : Alike K R x y) (hf : ∀ a b, R a b → Alike K S (f a) (g b)) :
    Alike K S (x >>= f) (y >>= g) := by
  cases h with
  | never => exact .never
  | throw h => exact .throw h
  | pure h => exact hf _ _ h

theorem mono {R' : α → β → Prop} {K' : ε → ε → Prop} {x : Returns ε α} {y : Returns ε β}
    (h : Alike K R x y) (hK : ∀ e e', K e e' → K' e e') (hR : ∀ a b, R a b → R' a b) :
    Alike K' R' x y := by
  cases h with
  | never => exact .never
  | throw h => exact .throw (hK _ _ h)
  | pure h => exact .pure (hR _ _ h)

/-- Ending alike is transitive for related errors. -/
theorem trans {T : β → γ → Prop} {x : Returns ε α} {y : Returns ε β} {z : Returns ε γ}
    (hK : ∀ e e' e'', K e e' → K e' e'' → K e e'') (h : Alike K R x y) (h' : Alike K T y z) :
    Alike K (fun a c => ∃ b, R a b ∧ T b c) x z := by
  cases h with
  | never => cases h' with | never => exact .never
  | throw h => cases h' with | throw h' => exact .throw (hK _ _ _ h h')
  | pure h => cases h' with | pure h' => exact .pure ⟨_, h, h'⟩

theorem symm {x : Returns ε α} {y : Returns ε β} (hK : ∀ e e', K e e' → K e' e)
    (h : Alike K R x y) : Alike K (fun b a => R a b) y x := by
  cases h with
  | never => exact .never
  | throw h => exact .throw (hK _ _ h)
  | pure h => exact .pure h

/-- Two calls that run one computation on alike values. -/
theorem of_eq {R : α → α → Prop} {x y : Returns ε α} (hK : ∀ e, K e e) (hR : ∀ a, R a a)
    (h : x = y) : Alike K R x y := by
  subst h
  cases x with
  | none => exact .never
  | some result =>
      cases result with
      | error e => exact .throw (hK e)
      | ok a => exact .pure (hR a)

/-- Two loops over one list. -/
theorem foldlM {f : α → γ → Except ε α} {g : β → γ → Except ε β} {items : List γ}
    (hf : ∀ item ∈ items, ∀ a b, R a b →
      Alike K R (Returns.lift (f a item)) (Returns.lift (g b item))) {a : α} {b : β} (h : R a b) :
    Alike K R (Returns.lift (items.foldlM f a)) (Returns.lift (items.foldlM g b)) := by
  induction items generalizing a b with
  | nil => exact .pure h
  | cons item rest ih =>
      rw [List.foldlM_cons, List.foldlM_cons, Returns.lift_bind, Returns.lift_bind]
      exact (hf item List.mem_cons_self a b h).bind fun a b hab =>
        ih (fun other hother => hf other (List.mem_cons_of_mem _ hother)) hab

/-- Two loops over one list that collect what they return. -/
theorem mapM {f : γ → Except ε α} {g : γ → Except ε β} {items : List γ}
    (hf : ∀ item ∈ items, Alike K R (Returns.lift (f item)) (Returns.lift (g item))) :
    Alike K (List.Forall₂ R) (Returns.lift (items.mapM f)) (Returns.lift (items.mapM g)) := by
  induction items with
  | nil => exact .pure .nil
  | cons item rest ih =>
      rw [List.mapM_cons, List.mapM_cons, Returns.lift_bind, Returns.lift_bind]
      refine (hf item List.mem_cons_self).bind fun a b hab => ?_
      rw [Returns.lift_bind, Returns.lift_bind]
      refine (ih fun other hother =>
        hf other (List.mem_cons_of_mem _ hother)).bind fun as bs has => ?_
      exact .pure (.cons hab has)

/-- Two loops that only check, over lists of the same length. -/
theorem forM {f : γ → Except ε PUnit} {g : δ → Except ε PUnit} {items : List γ} {others : List δ}
    (h : List.Forall₂ (fun c d =>
      Alike K (fun _ _ => True) (Returns.lift (f c)) (Returns.lift (g d))) items others) :
    Alike K (fun _ _ => True) (Returns.lift (items.forM f)) (Returns.lift (others.forM g)) := by
  induction h with
  | nil => exact .pure trivial
  | cons hitem _ ih =>
      rw [List.forM, List.forM, Returns.lift_bind, Returns.lift_bind]
      exact hitem.bind fun _ _ _ => ih

end Alike

/-! ### Choices -/

/-- The ways a call can end. -/
def Choices (ε α : Type) : Type := Returns ε α → Prop

namespace Choices

/-- A call without a choice. -/
def lift (x : Returns ε α) : Choices ε α := fun run => run = x

/-- Any value with a property. -/
def pick (values : α → Prop) : Choices ε α := fun run => ∃ a, values a ∧ run = pure a

/-- What a call does after a way the first one can end. -/
def andThen (f : α → Choices ε β) : Returns ε α → Choices ε β
  | none => lift Returns.never
  | some (.error e) => lift (throw e)
  | some (.ok a) => f a

instance : Monad (Choices ε) where
  pure a := lift (pure a)
  bind x f := fun run => ∃ first, x first ∧ andThen f first run

/-- Every way the call can end is alike to `y`. -/
def Follows (K : ε → ε → Prop) (R : α → β → Prop) (x : Choices ε α) (y : Returns ε β) : Prop :=
  ∀ run, x run → Alike K R run y

section Rules

variable {K : ε → ε → Prop} {R : α → β → Prop} {S : γ → δ → Prop}

theorem Follows.pure {a : α} {b : β} (h : R a b) :
    Follows K R (Pure.pure a : Choices ε α) (Pure.pure b) := by
  rintro run rfl
  exact .pure h

theorem Follows.lift {x : Returns ε α} {y : Returns ε β} (h : Alike K R x y) :
    Follows K R (Choices.lift x) y := by
  rintro run rfl
  exact h

/-- Choices one after the other. -/
theorem Follows.bind {x : Choices ε α} {y : Returns ε β} {f : α → Choices ε γ} {g : β → Returns ε δ}
    (h : Follows K R x y) (hf : ∀ a b, R a b → y = Pure.pure b → Follows K S (f a) (g b)) :
    Follows K S (x >>= f) (y >>= g) := by
  rintro run ⟨first, hfirst, hrun⟩
  cases h first hfirst with
  | never =>
      obtain rfl : run = Returns.never := hrun
      exact .never
  | @throw e _ herror =>
      obtain rfl : run = MonadExcept.throw e := hrun
      exact .throw herror
  | pure hvalue => exact hf _ _ hvalue rfl run hrun

/-- Whatever is picked, the rest follows. -/
theorem Follows.pick {values : α → Prop} {f : α → Choices ε γ} {y : Returns ε δ}
    (hf : ∀ a, values a → Follows K S (f a) y) :
    Follows K S (Choices.pick values >>= f) y := by
  rintro run ⟨first, ⟨a, ha, rfl⟩, hrun⟩
  exact hf a ha run hrun

/-- Two ends of a call that follows another are alike. -/
theorem Follows.agree {x : Choices ε α} {y : Returns ε β} (hsymm : ∀ e e', K e e' → K e' e)
    (htrans : ∀ e e' e'', K e e' → K e' e'' → K e e'') (h : Follows K R x y)
    {run run' : Returns ε α} (hrun : x run) (hrun' : x run') :
    Alike K (fun a a' => ∃ b, R a b ∧ R a' b) run run' :=
  (h run hrun).trans htrans ((h run' hrun').symm hsymm)

end Rules

/-! ### Single ends -/

/-- A sequence can end with a value exactly when its parts can. -/
theorem bind_pure_iff {x : Choices ε α} {f : α → Choices ε β} {b : β} :
    (x >>= f) (pure b) ↔ ∃ a, x (pure a) ∧ f a (pure b) := by
  constructor
  · rintro ⟨first, hfirst, hrest⟩
    cases first with
    | none => cases hrest
    | some result =>
        cases result with
        | error e => cases hrest
        | ok a => exact ⟨a, hfirst, hrest⟩
  · rintro ⟨a, ha, hb⟩
    exact ⟨pure a, ha, hb⟩

/-- A result of choices made one after the other. -/
theorem mem_bind {x : Choices ε α} {f : α → Choices ε β} {first : Returns ε α}
    {rest : α → Returns ε β}
    (hfirst : x first) (hrest : ∀ a, first = pure a → f a (rest a)) :
    (x >>= f) (first >>= rest) := by
  refine ⟨first, hfirst, ?_⟩
  cases first with
  | none => rfl
  | some result =>
      cases result with
      | error e => rfl
      | ok a => exact hrest a rfl

/-- One value that may be picked. -/
theorem mem_pick {values : α → Prop} {f : α → Choices ε β} {a : α} {run : Returns ε β}
    (ha : values a)
    (hrun : f a run) : (pick values >>= f) run :=
  ⟨pure a, ⟨a, ha, rfl⟩, hrun⟩

end Choices

end DisksGraph.Support
