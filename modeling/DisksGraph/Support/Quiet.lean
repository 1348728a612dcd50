import DisksGraph.Support.Frame

/-!
# Support — Quiet

Programs that leave the value and the state of the environment as they were, and what a run says
when its answers are known to be of a kind.

* `Quiet allowed env x`: whatever is answered and however `x` ends, neither has changed.
* `Ends.zoom`, `Ends.evaluate`, `Ends.map`: the rules for a method of a part, for a computation and
  for a changed result.
* `Program.Safe.runs`, `Program.Safe.granted`: a run whose events are honest ends as the program
  promises, and every call on the way is allowed where it is made.
-/

namespace DisksGraph.Support

variable {C : Type} {A : C → Type} {ε δ σ τ α β G : Type}

/-- A run whose events are honest ends as the program promises. -/
theorem Program.Safe.runs {allowed : G → C → Prop} {honest : Program.Event C A → Prop}
    {observe : G → Program.Event C A → G} {Q : α → G → Prop} {p : Program C A α} {g : G}
    (h : Program.Safe allowed
      (fun g c answer g' => honest ⟨c, answer⟩ ∧ g' = observe g ⟨c, answer⟩) Q p g)
    {t : List (Program.Event C A)} {a : α} (hrun : Program.Runs p t a)
    (hhonest : ∀ event ∈ t, honest event) : Q a (t.foldl observe g) := by
  induction p generalizing t g with
  | ret value =>
      obtain ⟨rfl, rfl⟩ := Program.runs_ret.mp hrun
      exact h
  | call c next ih =>
      cases hrun with
      | call hrest =>
          obtain ⟨hfirst, hothers⟩ := List.forall_mem_cons.mp hhonest
          exact ih _ (h.2 _ _ ⟨hfirst, rfl⟩) hrest hothers

/-- Every call of a trace is allowed in the state that the events before it lead to. -/
def Program.Granted (allowed : G → C → Prop) (observe : G → Program.Event C A → G) (g : G)
    (t : List (Program.Event C A)) : Prop :=
  ∀ before event after, t = before ++ event :: after → allowed (before.foldl observe g) event.1

/-- A trace granted in two parts is granted as a whole. -/
theorem Program.Granted.append {allowed : G → C → Prop} {observe : G → Program.Event C A → G}
    {g : G} {t more : List (Program.Event C A)} (h : Program.Granted allowed observe g t)
    (hmore : Program.Granted allowed observe (t.foldl observe g) more) :
    Program.Granted allowed observe g (t ++ more) := by
  intro before event after htrace
  rcases List.append_eq_append_iff.mp htrace with ⟨front, rfl, hfront⟩ | ⟨back, hback, hlast⟩
  · rw [List.foldl_append]
    exact hmore front event after hfront
  · cases back with
    | nil =>
        rw [List.append_nil] at hback
        exact hback ▸ hmore [] event after hlast.symm
    | cons first back =>
        obtain ⟨rfl, rfl⟩ := List.cons.inj hlast
        exact h before event back hback

/-- A safe program makes no other calls. -/
theorem Program.Safe.granted {allowed : G → C → Prop} {honest : Program.Event C A → Prop}
    {observe : G → Program.Event C A → G} {Q : α → G → Prop} {p : Program C A α} {g : G}
    (h : Program.Safe allowed
      (fun g c answer g' => honest ⟨c, answer⟩ ∧ g' = observe g ⟨c, answer⟩) Q p g)
    {t : List (Program.Event C A)} {a : α} (hrun : Program.Runs p t a)
    (hhonest : ∀ event ∈ t, honest event) : Program.Granted allowed observe g t := by
  induction p generalizing t g with
  | ret value =>
      obtain ⟨rfl, rfl⟩ := Program.runs_ret.mp hrun
      intro before event after htrace
      simp at htrace
  | call c next ih =>
      cases hrun with
      | call hrest =>
          obtain ⟨hfirst, hothers⟩ := List.forall_mem_cons.mp hhonest
          intro before event after htrace
          cases before with
          | nil =>
              obtain ⟨rfl, rfl⟩ := List.cons.inj htrace
              exact h.1
          | cons first before =>
              obtain ⟨rfl, hafter⟩ := List.cons.inj htrace
              exact ih _ (h.2 _ _ ⟨hfirst, rfl⟩) hrest hothers before event after hafter

namespace Effectful

variable {allowed : G → C → Prop} {env : G → (c : C) → A c → G → Prop}

/-- A computed result ends as it does. -/
theorem Ends.evaluate {x : ExceptT δ Option α} {into : δ → ε} {Q : α → σ → G → Prop}
    {E : σ → G → Prop} {s : σ} {g : G} (hE : E s g) (hQ : ∀ a, x = Pure.pure a → Q a s g) :
    Ends allowed env Q E (Effectful.evaluate into x : Effectful C A ε σ α) s g := by
  match x with
  | none => exact .throw hE
  | some result => exact .lift hE fun a ha => hQ a (ha ▸ rfl)

/-- A method of a part of the value. -/
theorem Ends.zoom {part : τ → σ} {update : σ → τ → τ} {into : ε → δ} {x : Effectful C A ε σ α}
    {Q : α → τ → G → Prop} {E : τ → G → Prop} {whole : τ} {g : G}
    (hx : Ends allowed env (fun a s => Q a (update s whole)) (fun s => E (update s whole)) x
      (part whole) g) :
    Ends allowed env Q E (Effectful.zoom part update into x) whole g := by
  refine Program.Safe.bind hx fun result g' h => ?_
  match result, h with
  | (.ok a, s), h => exact h
  | (.error failure, s), h => exact h

/-- A mapped result ends as the one before. -/
theorem Ends.map {x : Effectful C A ε σ α} {f : α → β} {Q : β → σ → G → Prop} {E : σ → G → Prop}
    {s : σ} {g : G} (hx : Ends allowed env (fun a => Q (f a)) E x s g) :
    Ends allowed env Q E (f <$> x) s g := by
  refine Program.Safe.bind hx fun result g' h => ?_
  match result, h with
  | (.ok a, s), h => exact h
  | (.error failure, s), h => exact h

/-- Neither the value nor the state of the environment changes. -/
def Quiet (allowed : G → C → Prop) (env : G → (c : C) → A c → G → Prop)
    (x : Effectful C A ε σ α) : Prop :=
  ∀ s g, Ends allowed env (fun _ s' g' => s' = s ∧ g' = g) (fun s' g' => s' = s ∧ g' = g) x s g

namespace Quiet

/-- A quiet part in front of a body. -/
theorem andThen {x : Effectful C A ε σ α} {f : α → Effectful C A ε σ β}
    {R : β → σ → G → Prop} {E : σ → G → Prop} {s : σ} {g : G} (hx : Quiet allowed env x)
    (hE : E s g) (hf : ∀ a, Ends allowed env R E (f a) s g) :
    Ends allowed env R E (x >>= f) s g := by
  refine Ends.bind (Q := fun _ s' g' => s' = s ∧ g' = g) ((hx s g).mono (fun _ _ _ h => h) ?_) ?_
  · rintro _ _ ⟨rfl, rfl⟩
    exact hE
  · rintro a _ _ ⟨rfl, rfl⟩
    exact hf a

theorem pure (a : α) : Quiet allowed env (pure a : Effectful C A ε σ α) :=
  fun _ _ => .pure ⟨rfl, rfl⟩

theorem throw (failure : Failure ε) : Quiet allowed env (throw failure : Effectful C A ε σ α) :=
  fun _ _ => .throw ⟨rfl, rfl⟩

theorem get : Quiet allowed env (get : Effectful C A ε σ σ) := fun _ _ => .get ⟨rfl, rfl⟩

/-- Quiet programs in sequence are quiet. -/
theorem bind {x : Effectful C A ε σ α} {f : α → Effectful C A ε σ β} (hx : Quiet allowed env x)
    (hf : ∀ a, Quiet allowed env (f a)) : Quiet allowed env (x >>= f) :=
  fun s g => hx.andThen ⟨rfl, rfl⟩ fun a => hf a s g

/-- A call that is always allowed and changes nothing is quiet. -/
theorem ask (c : C) (hallowed : ∀ g, allowed g c)
    (henv : ∀ g answer g', env g c answer g' → g' = g) :
    Quiet allowed env (ask c : Effectful C A ε σ (A c)) :=
  fun _ g => .ask (hallowed g) fun answer g' h => ⟨rfl, henv g answer g' h⟩

theorem reject (p : Prop) [Decidable p] (error : ε) :
    Quiet allowed env (reject p error : Effectful C A ε σ PUnit) :=
  fun _ _ => .reject (fun _ => ⟨rfl, rfl⟩) fun _ => ⟨rfl, rfl⟩

theorem lift (into : δ → ε) (x : Except δ α) :
    Quiet allowed env (lift into x : Effectful C A ε σ α) :=
  fun _ _ => .lift ⟨rfl, rfl⟩ fun _ _ => ⟨rfl, rfl⟩

theorem unwrap (x : Option α) : Quiet allowed env (unwrap x : Effectful C A ε σ α) :=
  fun _ _ => .unwrap ⟨rfl, rfl⟩ fun _ _ => ⟨rfl, rfl⟩

theorem returned (into : δ → ε) (x : Except (Failure δ) α) :
    Quiet allowed env (returned into x : Effectful C A ε σ α) :=
  fun _ _ => .returned ⟨rfl, rfl⟩ fun _ _ => ⟨rfl, rfl⟩

theorem evaluate (into : δ → ε) (x : ExceptT δ Option α) :
    Quiet allowed env (evaluate into x : Effectful C A ε σ α) :=
  fun _ _ => .evaluate ⟨rfl, rfl⟩ fun _ _ => ⟨rfl, rfl⟩

/-- A loop of quiet rounds. -/
theorem mapM {f : α → Effectful C A ε σ β} (hf : ∀ a, Quiet allowed env (f a)) :
    ∀ items : List α, Quiet allowed env (items.mapM f)
  | [] => by
      rw [List.mapM_nil]
      exact pure _
  | item :: items => by
      rw [List.mapM_cons]
      exact bind (hf item) fun first => bind (mapM hf items) fun rest => pure _

/-- A guard that is dropped with one call. -/
theorem ensuring {x : Effectful C A ε σ α} (hx : Quiet allowed env x) {last : Program C A PUnit}
    (hlast : ∀ g, Program.Safe allowed env (fun _ g' => g' = g) last g) :
    Quiet allowed env (x.ensuring last) := by
  intro s g
  refine Ends.ensuring (hx s g) ?_ ?_
  · rintro _ _ _ ⟨rfl, rfl⟩
    exact (hlast _).mono fun _ _ h => ⟨rfl, h⟩
  · rintro _ _ ⟨rfl, rfl⟩
    exact (hlast _).mono fun _ _ h => ⟨rfl, h⟩

/-- A method that is quiet on a part is quiet on the whole. -/
theorem zoom {x : Effectful C A ε σ α} (hx : Quiet allowed env x) {part : τ → σ}
    {update : σ → τ → τ} (hpart : ∀ whole, update (part whole) whole = whole) (into : ε → δ) :
    Quiet allowed env (zoom part update into x) := by
  intro whole g
  refine Ends.zoom ((hx _ g).mono ?_ ?_)
  · rintro _ _ _ ⟨rfl, rfl⟩
    exact ⟨hpart whole, rfl⟩
  · rintro _ _ ⟨rfl, rfl⟩
    exact ⟨hpart whole, rfl⟩

end Quiet

end Effectful

end DisksGraph.Support
