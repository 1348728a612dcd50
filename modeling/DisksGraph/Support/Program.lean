import Mathlib.Data.List.Forall2

/-!
# Support — Program

Programs that call their environment and continue with its answers.

* `Program C A α` makes calls `c : C`, each answered by a value of `A c`, and ends in an `α`.
* `Steps p t q`: after the calls and answers of `t`, what is left of `p` is `q`.  `Runs p t a` is a
  complete run.
* `Safe allowed env Q p g`: every call of `p` is allowed in the state it is made in, whatever the
  environment answers, and `p` ends in `Q`.  The state `g` belongs to the environment.
* `Effectful`: programs with a mutable value and failures, and the rules for them.
-/

namespace DisksGraph.Support

/-- A program over calls `C` with answers `A`. -/
inductive Program (C : Type) (A : C → Type) (α : Type) : Type where
  | ret (value : α)
  | call (request : C) (next : A request → Program C A α)

namespace Program

variable {C : Type} {A : C → Type} {α β : Type}

/-- Continues a program with another one. -/
def bind : Program C A α → (α → Program C A β) → Program C A β
  | .ret a, f => f a
  | .call c next, f => .call c fun answer => (next answer).bind f

instance : Monad (Program C A) where
  pure := .ret
  bind := bind

theorem id_map_eq (p : Program C A α) : id <$> p = p := by
  induction p with
  | ret a => rfl
  | call c next ih => exact congrArg (Program.call c) (funext ih)

/-- Sequencing is associative. -/
theorem bind_assoc_eq {γ : Type} (p : Program C A α) (f : α → Program C A β)
    (g : β → Program C A γ) : p >>= f >>= g = p >>= fun a => f a >>= g := by
  induction p with
  | ret a => rfl
  | call c next ih => exact congrArg (Program.call c) (funext ih)

instance : LawfulMonad (Program C A) :=
  LawfulMonad.mk' _ id_map_eq (fun _ _ => rfl) bind_assoc_eq

/-- One call. -/
def ask (c : C) : Program C A (A c) := .call c .ret

/-- A call together with its answer. -/
abbrev Event (C : Type) (A : C → Type) : Type := (c : C) × A c

/-- The calls and answers of `t` take `p` to `q`. -/
inductive Steps : Program C A α → List (Event C A) → Program C A α → Prop where
  | refl (p : Program C A α) : Steps p [] p
  | call {c : C} {next : A c → Program C A α} {answer : A c} {t : List (Event C A)}
      {q : Program C A α} (h : Steps (next answer) t q) : Steps (.call c next) (⟨c, answer⟩ :: t) q

/-- A complete run. -/
abbrev Runs (p : Program C A α) (t : List (Event C A)) (a : α) : Prop := Steps p t (.ret a)

theorem runs_ret {a b : α} {t : List (Event C A)} :
    Runs (.ret a : Program C A α) t b ↔ t = [] ∧ a = b := by
  constructor
  · intro h
    cases h
    exact ⟨rfl, rfl⟩
  · rintro ⟨rfl, rfl⟩
    exact .refl _

theorem runs_ask {c : C} {t : List (Event C A)} {answer : A c} :
    Runs (ask c) t answer ↔ t = [⟨c, answer⟩] := by
  constructor
  · intro h
    cases h with
    | call h =>
        obtain ⟨rfl, rfl⟩ := runs_ret.mp h
        rfl
  · rintro rfl
    exact .call (.refl _)

/-- A run of a sequence is a run of the first part followed by one of the second. -/
theorem runs_bind {p : Program C A α} {f : α → Program C A β} {t : List (Event C A)} {b : β} :
    Runs (p >>= f) t b ↔ ∃ t₁ t₂ a, t = t₁ ++ t₂ ∧ Runs p t₁ a ∧ Runs (f a) t₂ b := by
  constructor
  · intro h
    induction p generalizing t with
    | ret a => exact ⟨[], t, a, rfl, .refl _, h⟩
    | call c next ih =>
        cases h with
        | call h =>
            obtain ⟨t₁, t₂, a, rfl, h₁, h₂⟩ := ih _ h
            exact ⟨_, t₂, a, rfl, .call h₁, h₂⟩
  · rintro ⟨t₁, t₂, a, rfl, h₁, h₂⟩
    induction p generalizing t₁ with
    | ret a' =>
        obtain ⟨rfl, rfl⟩ := runs_ret.mp h₁
        exact h₂
    | call c next ih =>
        cases h₁ with
        | call h => exact .call (ih _ _ h)

/-- The run against an environment that answers by a function. -/
def respond (answers : (c : C) → A c) : Program C A α → List (Event C A) × α
  | .ret a => ([], a)
  | .call c next =>
      let rest := (next (answers c)).respond answers
      (⟨c, answers c⟩ :: rest.1, rest.2)

theorem runs_respond (answers : (c : C) → A c) (p : Program C A α) :
    Runs p (p.respond answers).1 (p.respond answers).2 := by
  induction p with
  | ret a => exact .refl _
  | call c next ih => exact .call (ih (answers c))

/-- The first calls against such an environment, and what is left. -/
def advance (answers : (c : C) → A c) : Nat → Program C A α → List (Event C A) × Program C A α
  | 0, p => ([], p)
  | _ + 1, .ret a => ([], .ret a)
  | n + 1, .call c next =>
      let rest := (next (answers c)).advance answers n
      (⟨c, answers c⟩ :: rest.1, rest.2)

theorem steps_advance (answers : (c : C) → A c) (n : Nat) (p : Program C A α) :
    Steps p (p.advance answers n).1 (p.advance answers n).2 := by
  induction n generalizing p with
  | zero => exact .refl p
  | succ n ih =>
      cases p with
      | ret a => exact .refl _
      | call c next => exact .call (ih (next (answers c)))

/-! ### Safety -/

section Safe

variable {G : Type} {allowed : G → C → Prop} {env : G → (c : C) → A c → G → Prop}

/-- Every call is allowed when it is made, and the program ends in `Q`. -/
def Safe (allowed : G → C → Prop) (env : G → (c : C) → A c → G → Prop) (Q : α → G → Prop) :
    Program C A α → G → Prop
  | .ret a, g => Q a g
  | .call c next, g =>
      allowed g c ∧ ∀ answer g', env g c answer g' → Safe allowed env Q (next answer) g'

/-- Programs in sequence are safe. -/
theorem Safe.bind {Q : β → G → Prop} {Q' : α → G → Prop} {p : Program C A α}
    {f : α → Program C A β} {g : G} (hp : Safe allowed env Q' p g)
    (hf : ∀ a g', Q' a g' → Safe allowed env Q (f a) g') : Safe allowed env Q (p >>= f) g := by
  induction p generalizing g with
  | ret a => exact hf a g hp
  | call c next ih => exact ⟨hp.1, fun answer g' henv => ih answer (hp.2 answer g' henv)⟩

/-- A weaker conclusion holds too. -/
theorem Safe.mono {Q Q' : α → G → Prop} {p : Program C A α} {g : G} (hp : Safe allowed env Q p g)
    (h : ∀ a g', Q a g' → Q' a g') : Safe allowed env Q' p g := by
  induction p generalizing g with
  | ret a => exact h a g hp
  | call c next ih => exact ⟨hp.1, fun answer g' henv => ih answer (hp.2 answer g' henv)⟩

/-- More may be allowed. -/
theorem Safe.allow {allowed' : G → C → Prop} {Q : α → G → Prop} {p : Program C A α} {g : G}
    (hp : Safe allowed env Q p g) (h : ∀ g c, allowed g c → allowed' g c) :
    Safe allowed' env Q p g := by
  induction p generalizing g with
  | ret a => exact hp
  | call c next ih => exact ⟨h g c hp.1, fun answer g' henv => ih answer (hp.2 answer g' henv)⟩

/-- A call that is allowed is safe. -/
theorem Safe.ask {c : C} {Q : A c → G → Prop} {g : G} (hallowed : allowed g c)
    (hQ : ∀ answer g', env g c answer g' → Q answer g') :
    Safe allowed env Q (Program.ask c) g :=
  ⟨hallowed, fun answer g' henv => hQ answer g' henv⟩

/-- Safety is kept along the events of a run, when the environment's state is a function of
them. -/
theorem Safe.steps {observe : G → Event C A → G} {Q : α → G → Prop} {p q : Program C A α}
    {t : List (Event C A)} {g : G}
    (hp : Safe allowed (fun g c answer g' => g' = observe g ⟨c, answer⟩) Q p g)
    (h : Steps p t q) :
    Safe allowed (fun g c answer g' => g' = observe g ⟨c, answer⟩) Q q (t.foldl observe g) := by
  induction h generalizing g with
  | refl => exact hp
  | call _ ih => exact ih (hp.2 _ _ rfl)

end Safe

end Program

/-! ### Failures -/

/-- Two passes over a list, related element by element. -/
theorem forall₂_comp {α β γ : Type} {R : α → β → Prop} {S : β → γ → Prop} {T : α → γ → Prop}
    (h : ∀ a b c, R a b → S b c → T a c) {as : List α} {bs : List β} {cs : List γ}
    (h₁ : List.Forall₂ R as bs) (h₂ : List.Forall₂ S bs cs) : List.Forall₂ T as cs := by
  induction h₁ generalizing cs with
  | nil =>
      cases h₂
      exact .nil
  | cons hab _ ih =>
      cases h₂ with
      | cons hbc hrest => exact .cons (h _ _ _ hab hbc) (ih hrest)

/-- How a call that does not return a value ends. -/
inductive Failure (ε : Type) where
  | error (error : ε)
  | panic

/-- A program that can fail. -/
abbrev Fallible (C : Type) (A : C → Type) (ε : Type) : Type → Type :=
  ExceptT (Failure ε) (Program C A)

namespace Fallible

variable {C : Type} {A : C → Type} {ε α β : Type}

/-- One call. -/
def ask (c : C) : Fallible C A ε (A c) := ExceptT.lift (Program.ask c)

/-- `Err(e)?`. -/
def fail (error : ε) : Fallible C A ε α := throw (.error error)

/-- A computation without calls. -/
def lift {δ : Type} (into : δ → ε) (x : ExceptT δ Option α) : Fallible C A ε α :=
  match x with
  | none => throw .panic
  | some (.error error) => fail (into error)
  | some (.ok value) => pure value

/-- The run of a program that returned `Ok`. -/
def Yields (p : Fallible C A ε α) (t : List (Program.Event C A)) (a : α) : Prop :=
  Program.Runs p.run t (.ok a)

theorem yields_pure {a b : α} {t : List (Program.Event C A)} :
    Yields (pure a : Fallible C A ε α) t b ↔ t = [] ∧ a = b := by
  rw [Yields, show (pure a : Fallible C A ε α).run = .ret (.ok a) from rfl, Program.runs_ret]
  simp

theorem yields_throw {e : Failure ε} {b : α} {t : List (Program.Event C A)} :
    ¬ Yields (throw e : Fallible C A ε α) t b := by
  intro h
  obtain ⟨-, h⟩ := Program.runs_ret.mp h
  cases h

/-- A call yields its answer. -/
theorem yields_ask {c : C} {t : List (Program.Event C A)} {answer : A c} :
    Yields (ask c : Fallible C A ε (A c)) t answer ↔ t = [⟨c, answer⟩] := by
  constructor
  · intro h
    obtain ⟨t₁, t₂, a, ht, h₁, h₂⟩ := Program.runs_bind.mp h
    obtain ⟨rfl, ha⟩ := Program.runs_ret.mp h₂
    obtain rfl := Except.ok.inj ha
    rw [ht, List.append_nil]
    exact Program.runs_ask.mp h₁
  · rintro rfl
    exact .call (.refl _)

/-- A sequence yields what its second part does after the first. -/
theorem yields_bind {p : Fallible C A ε α} {f : α → Fallible C A ε β}
    {t : List (Program.Event C A)} {b : β} :
    Yields (p >>= f) t b ↔ ∃ t₁ t₂ a, t = t₁ ++ t₂ ∧ Yields p t₁ a ∧ Yields (f a) t₂ b := by
  constructor
  · intro h
    obtain ⟨t₁, t₂, r, rfl, h₁, h₂⟩ := Program.runs_bind.mp h
    cases r with
    | error e => exact absurd h₂ yields_throw
    | ok a => exact ⟨t₁, t₂, a, rfl, h₁, h₂⟩
  · rintro ⟨t₁, t₂, a, rfl, h₁, h₂⟩
    exact Program.runs_bind.mpr ⟨t₁, t₂, .ok a, rfl, h₁, h₂⟩

/-- A loop over a list runs its body on each element. -/
theorem forall₂_of_yields_mapM {f : α → Fallible C A ε β} :
    ∀ {items : List α} {results : List β} {t : List (Program.Event C A)},
      Yields (items.mapM f) t results →
        List.Forall₂ (fun item result => ∃ t', t' ⊆ t ∧ Yields (f item) t' result) items results
  | [], results, t, h => by
      rw [List.mapM_nil, yields_pure] at h
      exact h.2 ▸ .nil
  | item :: items, results, t, h => by
      rw [List.mapM_cons, yields_bind] at h
      obtain ⟨t₁, t₂, first, rfl, h₁, h₂⟩ := h
      obtain ⟨t₃, t₄, rest, rfl, h₃, h₄⟩ := yields_bind.mp h₂
      obtain ⟨rfl, rfl⟩ := yields_pure.mp h₄
      refine .cons ⟨t₁, List.subset_append_left _ _, h₁⟩ ?_
      refine (forall₂_of_yields_mapM h₃).imp fun _ _ => ?_
      rintro ⟨t', hsub, ht'⟩
      exact ⟨t', List.Subset.trans hsub (by simp), ht'⟩

/-- A lifted result yields its value without a call. -/
theorem yields_lift {δ : Type} {into : δ → ε} {x : ExceptT δ Option α} {a : α}
    {t : List (Program.Event C A)} :
    Yields (lift into x : Fallible C A ε α) t a ↔ t = [] ∧ x = pure a := by
  match x with
  | none => exact ⟨fun h => absurd h yields_throw, fun h => nomatch h.2⟩
  | some (.error error) => exact ⟨fun h => absurd h yields_throw, fun h => nomatch h.2⟩
  | some (.ok value) =>
      rw [show (lift into (some (.ok value) : ExceptT δ Option α) : Fallible C A ε α)
        = pure value from rfl, yields_pure]
      constructor
      · rintro ⟨rfl, rfl⟩
        exact ⟨rfl, rfl⟩
      · rintro ⟨rfl, h⟩
        cases h
        exact ⟨rfl, rfl⟩

end Fallible

/-! ### A mutable value -/

/-- A program on a value of type `σ` that can fail; the value outlives the failure. -/
abbrev Effectful (C : Type) (A : C → Type) (ε σ : Type) : Type → Type :=
  ExceptT (Failure ε) (StateT σ (Program C A))

namespace Effectful

variable {C : Type} {A : C → Type} {ε σ α β : Type}

/-- The program from a value. -/
def start (x : Effectful C A ε σ α) (s : σ) : Program C A (Except (Failure ε) α × σ) := x.run.run s

/-- One call. -/
def ask (c : C) : Effectful C A ε σ (A c) := ExceptT.lift (StateT.lift (Program.ask c))

/-- `Err(e)?`. -/
def fail (error : ε) : Effectful C A ε σ α := throw (.error error)

/-- `if p { return Err(e) }`. -/
def reject (p : Prop) [Decidable p] (error : ε) : Effectful C A ε σ PUnit :=
  if p then fail error else pure ⟨⟩

/-- A result of another kind, with its error converted. -/
def lift {δ : Type} (into : δ → ε) : Except δ α → Effectful C A ε σ α
  | .error error => fail (into error)
  | .ok value => pure value

/-- The result of a call that can panic. -/
def unwrap : Option α → Effectful C A ε σ α
  | none => throw .panic
  | some value => pure value

/-- The result of a call that can fail or panic. -/
def returned {δ : Type} (into : δ → ε) : Except (Failure δ) α → Effectful C A ε σ α
  | .error .panic => throw .panic
  | .error (.error error) => fail (into error)
  | .ok value => pure value

/-- Runs `last` after `x`, however `x` ends: a guard that is dropped. -/
def ensuring (x : Effectful C A ε σ α) (last : Program C A PUnit) : Effectful C A ε σ α :=
  ExceptT.mk fun s => do
    let result ← x.start s
    last
    return result

section Rules

variable {G : Type} {allowed : G → C → Prop} {env : G → (c : C) → A c → G → Prop}
  {Q : α → σ → G → Prop} {R : β → σ → G → Prop} {E : σ → G → Prop} {s : σ} {g : G}

/-- From `s`, every call is allowed; the program returns in `Q` or fails in `E`. -/
def Ends (allowed : G → C → Prop) (env : G → (c : C) → A c → G → Prop) (Q : α → σ → G → Prop)
    (E : σ → G → Prop) (x : Effectful C A ε σ α) (s : σ) (g : G) : Prop :=
  Program.Safe allowed env (fun result g' => match result.1 with
    | .ok a => Q a result.2 g'
    | .error _ => E result.2 g') (x.start s) g

/-- The specification of the program from a value. -/
theorem Ends.safe {x : Effectful C A ε σ α} {P : Except (Failure ε) α × σ → G → Prop}
    (h : Ends allowed env Q E x s g) (hQ : ∀ a s g, Q a s g → P (.ok a, s) g)
    (hE : ∀ failure s g, E s g → P (.error failure, s) g) :
    Program.Safe allowed env P (x.start s) g := by
  refine Program.Safe.mono h fun result g' hresult => ?_
  match result, hresult with
  | (.ok a, s'), hresult => exact hQ a s' g' hresult
  | (.error failure, s'), hresult => exact hE failure s' g' hresult

theorem Ends.pure {a : α} (h : Q a s g) : Ends allowed env Q E (pure a : Effectful C A ε σ α) s g :=
  h

theorem Ends.throw {failure : Failure ε} (h : E s g) :
    Ends allowed env Q E (throw failure : Effectful C A ε σ α) s g :=
  h

theorem Ends.fail {error : ε} (h : E s g) :
    Ends allowed env Q E (fail error : Effectful C A ε σ α) s g :=
  h

/-- Programs in sequence. -/
theorem Ends.bind {x : Effectful C A ε σ α} {f : α → Effectful C A ε σ β}
    (hx : Ends allowed env Q E x s g)
    (hf : ∀ a s' g', Q a s' g' → Ends allowed env R E (f a) s' g') :
    Ends allowed env R E (x >>= f) s g := by
  refine Program.Safe.bind hx fun result g' h => ?_
  match result, h with
  | (.ok a, s'), h => exact hf a s' g' h
  | (.error _, _), h => exact h

/-- Weaker conclusions hold too. -/
theorem Ends.mono {x : Effectful C A ε σ α} {Q' : α → σ → G → Prop} {E' : σ → G → Prop}
    (hx : Ends allowed env Q E x s g) (hQ : ∀ a s' g', Q a s' g' → Q' a s' g')
    (hE : ∀ s' g', E s' g' → E' s' g') : Ends allowed env Q' E' x s g := by
  refine Program.Safe.mono hx fun result g' h => ?_
  match result, h with
  | (.ok a, s'), h => exact hQ a s' g' h
  | (.error _, s'), h => exact hE s' g' h

theorem Ends.get {Q : σ → σ → G → Prop} (h : Q s s g) :
    Ends allowed env Q E (get : Effectful C A ε σ σ) s g :=
  h

/-- Reading the value first. -/
theorem Ends.bind_get {f : σ → Effectful C A ε σ β} (h : Ends allowed env R E (f s) s g) :
    Ends allowed env R E (MonadState.get >>= f) s g :=
  h

theorem Ends.modify {f : σ → σ} {Q : PUnit → σ → G → Prop} (h : Q ⟨⟩ (f s) g) :
    Ends allowed env Q E (modify f : Effectful C A ε σ PUnit) s g :=
  h

/-- A call that is allowed ends with its answer. -/
theorem Ends.ask {c : C} {Q : A c → σ → G → Prop} (hallowed : allowed g c)
    (hQ : ∀ answer g', env g c answer g' → Q answer s g') :
    Ends allowed env Q E (Effectful.ask c : Effectful C A ε σ (A c)) s g :=
  ⟨hallowed, fun answer g' henv => hQ answer g' henv⟩

/-- A call in front of a body. -/
theorem Ends.bind_ask (c : C) {f : A c → Effectful C A ε σ β} (hallowed : allowed g c)
    (hf : ∀ answer g', env g c answer g' → Ends allowed env R E (f answer) s g') :
    Ends allowed env R E (Effectful.ask c >>= f) s g :=
  ⟨hallowed, fun answer g' henv => hf answer g' henv⟩

/-- A rejection ends in an error where it applies. -/
theorem Ends.reject {p : Prop} [Decidable p] {error : ε} {Q : PUnit → σ → G → Prop}
    (hp : p → E s g) (hQ : ¬p → Q ⟨⟩ s g) :
    Ends allowed env Q E (Effectful.reject p error : Effectful C A ε σ PUnit) s g := by
  by_cases h : p
  · rw [Effectful.reject, if_pos h]
    exact hp h
  · rw [Effectful.reject, if_neg h]
    exact hQ h

/-- A guard in front of a body. -/
theorem Ends.bind_reject {p : Prop} [Decidable p] {error : ε} {f : PUnit → Effectful C A ε σ β}
    (hp : p → E s g) (hf : ¬p → Ends allowed env R E (f ⟨⟩) s g) :
    Ends allowed env R E (Effectful.reject p error >>= f) s g := by
  refine .bind (Q := fun _ s' g' => ¬p ∧ s' = s ∧ g' = g) (.reject hp fun h => ⟨h, rfl, rfl⟩) ?_
  rintro _ _ _ ⟨h, rfl, rfl⟩
  exact hf h

/-- A lifted result ends as it does. -/
theorem Ends.lift {δ : Type} {into : δ → ε} {x : Except δ α} (hE : E s g)
    (hQ : ∀ a, x = .ok a → Q a s g) :
    Ends allowed env Q E (Effectful.lift into x : Effectful C A ε σ α) s g := by
  cases x with
  | error error => exact hE
  | ok value => exact hQ value rfl

/-- A missing value ends in a panic. -/
theorem Ends.unwrap {x : Option α} (hE : E s g) (hQ : ∀ a, x = some a → Q a s g) :
    Ends allowed env Q E (Effectful.unwrap x : Effectful C A ε σ α) s g := by
  cases x with
  | none => exact hE
  | some value => exact hQ value rfl

/-- A result in front of a body. -/
theorem Ends.bind_unwrap {x : Option α} {f : α → Effectful C A ε σ β} (hE : E s g)
    (hf : ∀ a, x = some a → Ends allowed env R E (f a) s g) :
    Ends allowed env R E (Effectful.unwrap x >>= f) s g := by
  cases x with
  | none => exact hE
  | some value => exact hf value rfl

theorem Ends.bind_lift {δ : Type} {into : δ → ε} {x : Except δ α} {f : α → Effectful C A ε σ β}
    (hE : E s g) (hf : ∀ a, x = .ok a → Ends allowed env R E (f a) s g) :
    Ends allowed env R E (Effectful.lift into x >>= f) s g := by
  cases x with
  | error error => exact hE
  | ok value => exact hf value rfl

/-- A result of the host ends as it does. -/
theorem Ends.returned {δ : Type} {into : δ → ε} {x : Except (Failure δ) α} (hE : E s g)
    (hQ : ∀ a, x = .ok a → Q a s g) :
    Ends allowed env Q E (Effectful.returned into x : Effectful C A ε σ α) s g := by
  match x with
  | .error .panic => exact hE
  | .error (.error error) => exact hE
  | .ok value => exact hQ value rfl

/-- A handled failure ends as its handler does. -/
theorem Ends.tryCatch {x : Effectful C A ε σ α} {handle : Failure ε → Effectful C A ε σ α}
    {E' : σ → G → Prop} (hx : Ends allowed env Q E' x s g)
    (hE : ∀ failure s' g', E' s' g' → Ends allowed env Q E (handle failure) s' g') :
    Ends allowed env Q E (tryCatch x handle) s g := by
  refine Program.Safe.bind hx fun result g' h => ?_
  match result, h with
  | (.ok a, s'), h => exact h
  | (.error failure, s'), h => exact hE failure s' g' h

/-- The last part is run from wherever the program ends. -/
theorem Ends.ensuring {x : Effectful C A ε σ α} {last : Program C A PUnit}
    {Q' : α → σ → G → Prop} {E' : σ → G → Prop} (hx : Ends allowed env Q' E' x s g)
    (hQ : ∀ a s' g', Q' a s' g' → Program.Safe allowed env (fun _ g'' => Q a s' g'') last g')
    (hE : ∀ s' g', E' s' g' → Program.Safe allowed env (fun _ g'' => E s' g'') last g') :
    Ends allowed env Q E (x.ensuring last) s g := by
  refine Program.Safe.bind hx fun result g' h => ?_
  match result, h with
  | (.ok a, s'), h => exact Program.Safe.bind (hQ a s' g' h) fun _ _ h => h
  | (.error _, s'), h => exact Program.Safe.bind (hE s' g' h) fun _ _ h => h

/-- A loop keeps what one round keeps. -/
theorem Ends.forM {ι : Type} {f : ι → Effectful C A ε σ PUnit} {I : σ → G → Prop}
    (hf : ∀ i s' g', I s' g' → Ends allowed env (fun _ => I) E (f i) s' g') :
    ∀ (items : List ι) {s : σ} {g : G}, I s g →
      Ends allowed env (fun _ => I) E (items.forM f) s g
  | [], _, _, h => h
  | i :: items, s, g, h => Ends.bind (hf i s g h) fun _ _ _ h => Ends.forM hf items h

end Rules

end Effectful

end DisksGraph.Support
