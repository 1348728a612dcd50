import Mathlib.Logic.Basic

/-!
# Support — Stateful

Calls on a mutable value that can fail, in the style of a method `fn(&mut self, …) -> Result<…>`.
The value outlives a failed call, so the state is returned next to the result; `none` is a panic.

* `Completes x s Q`: the call returns `Ok` and establishes `Q`.
* `Atomic x s Q`: the call returns `Ok` and establishes `Q`, or it returns an error and leaves the
  value as it was.
* The rules compose them along a body: guards first (`Atomic.bind_guard`), commits after
  (`Completes.bind`).
* `Atomic.error` and `Atomic.ok` read off what one observed result says.
-/

namespace DisksGraph.Support

/-- A call on a value of type `σ`. -/
abbrev Stateful (ε σ : Type) : Type → Type := ExceptT ε (StateT σ Option)

namespace Stateful

variable {ε σ α β : Type}

/-- Runs a call on a value. -/
def call (x : Stateful ε σ α) (s : σ) : Option (Except ε α × σ) := x.run.run s

/-- An index out of bounds, an arithmetic overflow, a failed assertion. -/
def panic : Stateful ε σ α := fun _ => none

/-- `if p { return Err(e) }`. -/
def reject (p : Prop) [Decidable p] (e : ε) : Stateful ε σ PUnit :=
  if p then throw e else pure ⟨⟩

/-- The call returns `Ok` and establishes `Q`. -/
def Completes (x : Stateful ε σ α) (s : σ) (Q : α → σ → Prop) : Prop :=
  ∃ a s', call x s = some (.ok a, s') ∧ Q a s'

/-- The call returns `Ok` and establishes `Q`, or returns an error and changes nothing. -/
def Atomic (x : Stateful ε σ α) (s : σ) (Q : α → σ → Prop) : Prop :=
  (∃ e, call x s = some (.error e, s)) ∨ Completes x s Q

/-- A guard: nothing is changed, and `Ok` establishes `P`. -/
def Guards (x : Stateful ε σ α) (s : σ) (P : α → Prop) : Prop :=
  Atomic x s fun a s' => s' = s ∧ P a

section Call

variable {s s' : σ}

/-- After a value the rest is run in the new state. -/
theorem call_bind_ok {x : Stateful ε σ α} {f : α → Stateful ε σ β} {a : α}
    (h : call x s = some (.ok a, s')) : call (x >>= f) s = call (f a) s' := by
  have h' : x s = some (.ok a, s') := h
  change (x s).bind _ = _
  rw [h']
  rfl

/-- An error ends the sequence. -/
theorem call_bind_error {x : Stateful ε σ α} {f : α → Stateful ε σ β} {e : ε}
    (h : call x s = some (.error e, s')) : call (x >>= f) s = some (.error e, s') := by
  have h' : x s = some (.error e, s') := h
  change (x s).bind _ = _
  rw [h']
  rfl

end Call

section Rules

variable {s : σ} {Q R : β → σ → Prop} {P : α → Prop}

theorem Completes.of_pure {a : β} (h : Q a s) : Completes (pure a : Stateful ε σ β) s Q :=
  ⟨a, s, rfl, h⟩

theorem Completes.of_set {t : σ} {Q : PUnit → σ → Prop} (h : Q ⟨⟩ t) :
    Completes (set t : Stateful ε σ PUnit) s Q :=
  ⟨⟨⟩, t, rfl, h⟩

theorem Completes.of_modify {f : σ → σ} :
    Completes (modify f : Stateful ε σ PUnit) s fun _ s' => s' = f s :=
  ⟨⟨⟩, f s, rfl, rfl⟩

/-- Computations in sequence complete. -/
theorem Completes.bind {x : Stateful ε σ α} {f : α → Stateful ε σ β} {Q' : α → σ → Prop}
    (hx : Completes x s Q') (hf : ∀ a s', Q' a s' → Completes (f a) s' Q) :
    Completes (x >>= f) s Q := by
  obtain ⟨a, s', hcall, hq⟩ := hx
  obtain ⟨b, s'', hcall', hq'⟩ := hf a s' hq
  exact ⟨b, s'', by rw [call_bind_ok hcall, hcall'], hq'⟩

/-- A weaker conclusion holds too. -/
theorem Completes.mono {x : Stateful ε σ β} (hx : Completes x s Q) (h : ∀ b s', Q b s' → R b s') :
    Completes x s R := by
  obtain ⟨b, s', hcall, hq⟩ := hx
  exact ⟨b, s', hcall, h b s' hq⟩

/-- What completes is atomic. -/
theorem Completes.atomic {x : Stateful ε σ β} (hx : Completes x s Q) : Atomic x s Q := .inr hx

/-- A weaker conclusion holds too. -/
theorem Atomic.mono {x : Stateful ε σ β} (hx : Atomic x s Q) (h : ∀ b s', Q b s' → R b s') :
    Atomic x s R :=
  hx.imp id fun hx => hx.mono h

theorem Atomic.of_throw (e : ε) : Atomic (throw e : Stateful ε σ β) s Q := .inl ⟨e, rfl⟩

theorem Guards.of_pure {a : α} (h : P a) : Guards (pure a : Stateful ε σ α) s P :=
  .inr ⟨a, s, rfl, rfl, h⟩

theorem Guards.of_throw (e : ε) : Guards (throw e : Stateful ε σ α) s P := .inl ⟨e, rfl⟩

theorem Guards.of_get {P : σ → Prop} (h : P s) : Guards (get : Stateful ε σ σ) s P :=
  .inr ⟨s, s, rfl, rfl, h⟩

/-- A guard in front of a body: the body starts from the same value, with what the guard found. -/
theorem Atomic.bind_guard {x : Stateful ε σ α} {f : α → Stateful ε σ β} (hx : Guards x s P)
    (hf : ∀ a, P a → Atomic (f a) s Q) : Atomic (x >>= f) s Q := by
  rcases hx with ⟨e, he⟩ | ⟨a, _, hcall, rfl, hp⟩
  · exact .inl ⟨e, call_bind_error he⟩
  · rcases hf a hp with ⟨e, he⟩ | ⟨b, s'', hcall', hq⟩
    · exact .inl ⟨e, by rw [call_bind_ok hcall, he]⟩
    · exact .inr ⟨b, s'', by rw [call_bind_ok hcall, hcall'], hq⟩

/-- A body that cannot fail any more after an atomic call. -/
theorem Atomic.bind_completes {x : Stateful ε σ α} {f : α → Stateful ε σ β} {Q' : α → σ → Prop}
    (hx : Atomic x s Q') (hf : ∀ a s', Q' a s' → Completes (f a) s' Q) : Atomic (x >>= f) s Q := by
  rcases hx with ⟨e, he⟩ | hx
  · exact .inl ⟨e, call_bind_error he⟩
  · exact .inr (hx.bind hf)

/-- `map_err` of an atomic call. -/
theorem Atomic.adapt {δ : Type} {x : Stateful δ σ β} {into : δ → ε} (hx : Atomic x s Q) :
    Atomic (ExceptT.adapt into x : Stateful ε σ β) s Q := by
  rcases hx with ⟨e, he⟩ | ⟨b, s', hcall, hq⟩
  · refine .inl ⟨into e, ?_⟩
    have he' : x s = some (.error e, s) := he
    change (x s).bind _ = _
    rw [he']
    rfl
  · refine .inr ⟨b, s', ?_, hq⟩
    have hcall' : x s = some (.ok b, s') := hcall
    change (x s).bind _ = _
    rw [hcall']
    rfl

/-- Guards in sequence. -/
theorem Guards.bind {x : Stateful ε σ α} {f : α → Stateful ε σ β} {P' : β → Prop}
    (hx : Guards x s P) (hf : ∀ a, P a → Guards (f a) s P') : Guards (x >>= f) s P' :=
  Atomic.bind_guard hx hf

/-- Reading the value first. -/
theorem Atomic.bind_get {f : σ → Stateful ε σ β} (hf : Atomic (f s) s Q) :
    Atomic (get >>= f) s Q :=
  bind_guard (P := (· = s)) (.of_get rfl) fun _ h => h ▸ hf

theorem Completes.bind_get {f : σ → Stateful ε σ β} (hf : Completes (f s) s Q) :
    Completes (get >>= f) s Q := by
  obtain ⟨b, s', hcall, hq⟩ := hf
  exact ⟨b, s', hcall, hq⟩

/-- A rejection guards its condition. -/
theorem Guards.of_reject {p : Prop} [Decidable p] {e : ε} :
    Guards (reject p e : Stateful ε σ PUnit) s fun _ => ¬p := by
  by_cases hp : p
  · exact .inl ⟨e, by rw [reject, if_pos hp]; rfl⟩
  · exact .inr ⟨⟨⟩, s, by rw [reject, if_neg hp]; rfl, rfl, hp⟩

/-- A loop of guards establishes every one of them. -/
theorem Guards.of_forM {ι : Type} {f : ι → Stateful ε σ PUnit} {P : ι → Prop} :
    ∀ {items : List ι}, (∀ i ∈ items, Guards (f i) s fun _ => P i) →
      Guards (items.forM f) s fun _ => ∀ i ∈ items, P i
  | [], _ => .inr ⟨⟨⟩, s, rfl, rfl, nofun⟩
  | i :: items, h => by
      refine Guards.bind (h i List.mem_cons_self) fun _ hi => ?_
      refine Atomic.mono (Guards.of_forM fun j hj => h j (List.mem_cons_of_mem _ hj)) ?_
      rintro _ _ ⟨rfl, hall⟩
      refine ⟨rfl, fun j hj => ?_⟩
      rcases List.mem_cons.mp hj with rfl | hj
      · exact hi
      · exact hall j hj

/-- Dropping the answer of a call. -/
theorem Atomic.discard {x : Stateful ε σ α} {Q : α → σ → Prop} (hx : Atomic x s Q) :
    Atomic (Functor.discard x) s fun _ s' => ∃ a, Q a s' := by
  rcases hx with ⟨e, he⟩ | ⟨a, s', hcall, hq⟩
  · exact .inl ⟨e, call_bind_error he⟩
  · exact .inr ⟨⟨⟩, s', call_bind_ok hcall, a, hq⟩

end Rules

section Results

variable {s s' : σ} {Q : β → σ → Prop} {x : Stateful ε σ β}

/-- An atomic computation returns. -/
theorem Atomic.returns (h : Atomic x s Q) : ∃ r s', call x s = some (r, s') := by
  rcases h with ⟨e, he⟩ | ⟨b, s', hcall, -⟩
  · exact ⟨_, _, he⟩
  · exact ⟨_, _, hcall⟩

/-- Its errors leave the state as it was. -/
theorem Atomic.error {e : ε} (h : Atomic x s Q) (hc : call x s = some (.error e, s')) :
    s' = s := by
  rcases h with ⟨e', he⟩ | ⟨b, s'', hcall, -⟩
  · rw [he] at hc; cases hc; rfl
  · rw [hcall] at hc; cases hc

/-- Its values meet the conclusion. -/
theorem Atomic.ok {b : β} (h : Atomic x s Q) (hc : call x s = some (.ok b, s')) : Q b s' := by
  rcases h with ⟨e', he⟩ | ⟨b', s'', hcall, hq⟩
  · rw [he] at hc; cases hc
  · rw [hcall] at hc; cases hc; exact hq

end Results

end Stateful

end DisksGraph.Support
