import DisksGraph.Support.Program

/-!
# Support — Frame

What programs leave alone, and programs on a part of a value.

* `Effectful.zoom`: a method of a part, `self.part.method()?`.
* `Effectful.evaluate`: a computation without calls that may not return.
* `Reads x`: however the environment answers and however `x` ends, the value is what it was.
* `Commutes f x`: changing the value by `f` first or last makes no difference to the calls, their
  answers and the result.
* `Raises P x`: every error that `x` returns satisfies `P`.

The rules follow the way programs are put together; `Reads.inv` takes a run of a sequence apart.
-/

namespace DisksGraph.Support

variable {C : Type} {A : C → Type} {ε δ σ τ α β : Type}

/-- The failure with its error turned into another. -/
def Failure.map (into : ε → δ) : Failure ε → Failure δ
  | .error cause => .error (into cause)
  | .panic => .panic

namespace Effectful

/-- Runs a program on a part of the value, with its errors converted. -/
def zoom (view : τ → σ) (update : σ → τ → τ) (into : ε → δ) (x : Effectful C A ε σ α) :
    Effectful C A δ τ α :=
  ExceptT.mk fun whole => do
    let result ← x.start (view whole)
    return (result.1.mapError (Failure.map into), update result.2 whole)

/-- A computation that returns, fails, or does neither. -/
def evaluate (into : δ → ε) (x : ExceptT δ Option α) : Effectful C A ε σ α :=
  match (x : Option (Except δ α)) with
  | none => throw .panic
  | some result => lift into result

/-- Every run leaves the value as it was. -/
def Reads (x : Effectful C A ε σ α) : Prop :=
  ∀ s t result, Program.Runs (x.start s) t result → result.2 = s

namespace Reads

/-- A program that has returned keeps the state it has. -/
theorem ret {s : σ} {t : List (Program.Event C A)} {r result : Except (Failure ε) α × σ}
    (h : Program.Runs (.ret r) t result) (hr : r.2 = s) : result.2 = s := by
  obtain ⟨-, rfl⟩ := Program.runs_ret.mp h
  exact hr

theorem pure (a : α) : Reads (pure a : Effectful C A ε σ α) := fun _ _ _ h => ret h rfl

theorem throw (failure : Failure ε) : Reads (throw failure : Effectful C A ε σ α) :=
  fun _ _ _ h => ret h rfl

theorem get : Reads (get : Effectful C A ε σ σ) := fun _ _ _ h => ret h rfl

/-- Programs in sequence only read if both do. -/
theorem bind {x : Effectful C A ε σ α} {f : α → Effectful C A ε σ β} (hx : Reads x)
    (hf : ∀ a, Reads (f a)) : Reads (x >>= f) := by
  intro s t result h
  obtain ⟨t₁, t₂, ⟨first, s'⟩, rfl, h₁, h₂⟩ := Program.runs_bind.mp h
  obtain rfl : s' = s := hx s t₁ _ h₁
  cases first with
  | error failure => exact ret h₂ rfl
  | ok a => exact hf a _ t₂ result h₂

theorem ask (c : C) : Reads (ask c : Effectful C A ε σ (A c)) := by
  intro s t result h
  cases h with
  | call h => exact ret h rfl

theorem reject (p : Prop) [Decidable p] (error : ε) :
    Reads (reject p error : Effectful C A ε σ PUnit) := by
  by_cases h : p
  · rw [Effectful.reject, if_pos h]
    exact throw _
  · rw [Effectful.reject, if_neg h]
    exact pure _

theorem lift (into : δ → ε) (x : Except δ α) : Reads (lift into x : Effectful C A ε σ α) := by
  cases x with
  | error error => exact throw _
  | ok value => exact pure value

theorem unwrap (x : Option α) : Reads (unwrap x : Effectful C A ε σ α) := by
  cases x with
  | none => exact throw _
  | some value => exact pure value

theorem returned (into : δ → ε) (x : Except (Failure δ) α) :
    Reads (returned into x : Effectful C A ε σ α) := by
  match x with
  | .error .panic => exact throw _
  | .error (.error error) => exact throw _
  | .ok value => exact pure value

theorem evaluate (into : δ → ε) (x : ExceptT δ Option α) :
    Reads (evaluate into x : Effectful C A ε σ α) := by
  match x with
  | none => exact throw _
  | some result => exact lift into result

/-- A run of a sequence whose first part reads. -/
theorem inv {x : Effectful C A ε σ α} {f : α → Effectful C A ε σ β} (hx : Reads x) {s s' : σ}
    {t : List (Program.Event C A)} {result : Except (Failure ε) β}
    (h : Program.Runs ((x >>= f).start s) t (result, s')) :
    s' = s ∨ ∃ t₁ t₂ a, t = t₁ ++ t₂ ∧ Program.Runs (x.start s) t₁ (.ok a, s) ∧
      Program.Runs ((f a).start s) t₂ (result, s') := by
  obtain ⟨t₁, t₂, ⟨first, last⟩, rfl, h₁, h₂⟩ := Program.runs_bind.mp h
  obtain rfl : last = s := hx s t₁ _ h₁
  cases first with
  | error failure => exact .inl (ret h₂ rfl)
  | ok a => exact .inr ⟨t₁, t₂, a, rfl, h₁, h₂⟩

/-- A loop whose rounds read. -/
theorem mapM {f : α → Effectful C A ε σ β} (hf : ∀ a, Reads (f a)) :
    ∀ items : List α, Reads (items.mapM f)
  | [] => by
      rw [List.mapM_nil]
      exact pure _
  | item :: items => by
      rw [List.mapM_cons]
      exact bind (hf item) fun first => bind (mapM hf items) fun rest => pure _

/-- A guard that is dropped does not reach the value. -/
theorem ensuring {x : Effectful C A ε σ α} (hx : Reads x) (last : Program C A PUnit) :
    Reads (x.ensuring last) := by
  intro s t result h
  obtain ⟨t₁, t₂, first, rfl, h₁, h₂⟩ := Program.runs_bind.mp h
  obtain ⟨t₃, t₄, done, rfl, h₃, h₄⟩ := Program.runs_bind.mp h₂
  exact ret h₄ (hx s t₁ first h₁)

/-- A method that reads a part reads the whole. -/
theorem zoom {x : Effectful C A ε σ α} (hx : Reads x) {view : τ → σ} {update : σ → τ → τ}
    (hupdate : ∀ whole, update (view whole) whole = whole) (into : ε → δ) :
    Reads (zoom view update into x) := by
  intro whole t result h
  obtain ⟨t₁, t₂, first, rfl, h₁, h₂⟩ := Program.runs_bind.mp h
  obtain ⟨-, rfl⟩ := Program.runs_ret.mp h₂
  exact (congrArg (update · whole) (hx _ t₁ first h₁)).trans (hupdate whole)

end Reads

/-- Every run from a changed value is the run from the value, with the same change at its end. -/
def Commutes (f : σ → σ) (x : Effectful C A ε σ α) : Prop :=
  ∀ s, x.start (f s) = x.start s >>= fun result => Program.ret (result.1, f result.2)

namespace Commutes

variable {f : σ → σ}

/-- A run from the changed state is a run from the state, changed. -/
theorem runs {x : Effectful C A ε σ α} (h : Commutes f x) {s s' : σ}
    {t : List (Program.Event C A)} {result : Except (Failure ε) α} :
    Program.Runs (x.start (f s)) t (result, s') ↔
      ∃ last, Program.Runs (x.start s) t (result, last) ∧ s' = f last := by
  rw [h s, Program.runs_bind]
  constructor
  · rintro ⟨t₁, t₂, ⟨first, last⟩, rfl, h₁, h₂⟩
    obtain ⟨rfl, heq⟩ := Program.runs_ret.mp h₂
    obtain ⟨rfl, rfl⟩ := Prod.mk.inj heq
    exact ⟨last, by rwa [List.append_nil], rfl⟩
  · rintro ⟨last, hrun, rfl⟩
    exact ⟨t, [], (result, last), (List.append_nil t).symm, hrun, .refl _⟩

theorem pure (a : α) : Commutes f (pure a : Effectful C A ε σ α) := fun _ => rfl

theorem throw (failure : Failure ε) : Commutes f (throw failure : Effectful C A ε σ α) :=
  fun _ => rfl

theorem modify {g : σ → σ} (h : ∀ s, g (f s) = f (g s)) :
    Commutes f (modify g : Effectful C A ε σ PUnit) := by
  intro s
  have hmodify (s : σ) : (MonadState.modifyGet fun s => (PUnit.unit, g s) :
      Effectful C A ε σ PUnit).start s = Program.ret (.ok ⟨⟩, g s) := rfl
  exact (hmodify (f s)).trans (by rw [h]; rfl)

theorem reject (p : Prop) [Decidable p] (error : ε) :
    Commutes f (reject p error : Effectful C A ε σ PUnit) := by
  unfold Effectful.reject
  split
  · exact throw _
  · exact pure _

/-- What is read of the state is not changed. -/
theorem get_bind {g : σ → Effectful C A ε σ α} (hsame : ∀ s, g (f s) = g s)
    (h : ∀ s, Commutes f (g s)) : Commutes f (get >>= g) := by
  intro s
  have hget (s : σ) : (MonadState.get >>= g).start s = (g s).start s := rfl
  rw [hget, hget, hsame, h s s]

theorem bind {x : Effectful C A ε σ α} {g : α → Effectful C A ε σ β} (hx : Commutes f x)
    (hg : ∀ a, Commutes f (g a)) : Commutes f (x >>= g) := by
  intro s
  have hbind (s : σ) : (x >>= g).start s = x.start s >>= fun result =>
      match result with
      | (.ok a, s') => (g a).start s'
      | (.error failure, s') => Program.ret (.error failure, s') :=
    congrArg (x.start s >>= ·) (funext fun result => match result with
      | (.ok _, _) => rfl
      | (.error _, _) => rfl)
  rw [hbind, hbind, hx, Program.bind_assoc_eq, Program.bind_assoc_eq]
  refine congrArg (x.start s >>= ·) (funext fun result => ?_)
  match result with
  | (.ok a, s') => exact hg a s'
  | (.error failure, s') => rfl

/-- Handling a failure commutes if both parts do. -/
theorem tryCatch {x : Effectful C A ε σ α} {handle : Failure ε → Effectful C A ε σ α}
    (hx : Commutes f x) (hhandle : ∀ failure, Commutes f (handle failure)) :
    Commutes f (tryCatch x handle) := by
  intro s
  have hcatch (s : σ) : (MonadExcept.tryCatch x handle).start s = x.start s >>= fun result =>
      match result with
      | (.ok a, s') => Program.ret (.ok a, s')
      | (.error failure, s') => (handle failure).start s' :=
    congrArg (x.start s >>= ·) (funext fun result => match result with
      | (.ok _, _) => rfl
      | (.error _, _) => rfl)
  rw [hcatch, hcatch, hx, Program.bind_assoc_eq, Program.bind_assoc_eq]
  refine congrArg (x.start s >>= ·) (funext fun result => ?_)
  match result with
  | (.ok a, s') => rfl
  | (.error failure, s') => exact hhandle failure s'

theorem lift (into : δ → ε) (x : Except δ α) : Commutes f (lift into x : Effectful C A ε σ α) := by
  cases x with
  | error error => exact throw _
  | ok value => exact pure value

theorem unwrap (x : Option α) : Commutes f (unwrap x : Effectful C A ε σ α) := by
  cases x with
  | none => exact throw _
  | some value => exact pure value

/-- A method of a part does not see a change elsewhere. -/
theorem zoom {f : τ → τ} {view : τ → σ} {update : σ → τ → τ} (hview : ∀ whole,
    view (f whole) = view whole) (hupdate : ∀ part whole, update part (f whole) =
      f (update part whole)) (into : ε → δ) (x : Effectful C A ε σ α) :
    Commutes f (zoom view update into x) := by
  intro whole
  have hzoom (whole : τ) : (Effectful.zoom view update into x).start whole =
      x.start (view whole) >>= fun result =>
        Program.ret (result.1.mapError (Failure.map into), update result.2 whole) := rfl
  rw [hzoom, hzoom, hview, Program.bind_assoc_eq]
  refine congrArg (x.start (view whole) >>= ·) (funext fun result => ?_)
  rw [hupdate]
  rfl

end Commutes

/-- Every returned error is of one kind. -/
def Raises (P : ε → Prop) (x : Effectful C A ε σ α) : Prop :=
  ∀ s t error s', Program.Runs (x.start s) t (.error (.error error), s') → P error

namespace Raises

variable {P : ε → Prop}

theorem pure (a : α) : Raises P (pure a : Effectful C A ε σ α) := by
  intro s t error s' h
  cases (Program.runs_ret.mp h).2

/-- An error of the kind may be raised. -/
theorem fail {error : ε} (h : P error) : Raises P (fail error : Effectful C A ε σ α) := by
  intro s t raised s' hrun
  cases (Program.runs_ret.mp hrun).2
  exact h

theorem panic : Raises P (throw .panic : Effectful C A ε σ α) := by
  intro s t error s' h
  cases (Program.runs_ret.mp h).2

theorem get : Raises P (get : Effectful C A ε σ σ) := by
  intro s t error s' h
  cases (Program.runs_ret.mp h).2

theorem modify (f : σ → σ) : Raises P (modify f : Effectful C A ε σ PUnit) := by
  intro s t error s' h
  cases (Program.runs_ret.mp h).2

theorem set (s : σ) : Raises P (set s : Effectful C A ε σ PUnit) := by
  intro _ t error s' h
  cases (Program.runs_ret.mp h).2

theorem ask (c : C) : Raises P (ask c : Effectful C A ε σ (A c)) := by
  intro s t error s' h
  cases h with
  | call h => cases (Program.runs_ret.mp h).2

theorem bind {x : Effectful C A ε σ α} {f : α → Effectful C A ε σ β} (hx : Raises P x)
    (hf : ∀ a, Raises P (f a)) : Raises P (x >>= f) := by
  intro s t error s' h
  obtain ⟨t₁, t₂, ⟨first, last⟩, rfl, h₁, h₂⟩ := Program.runs_bind.mp h
  cases first with
  | error failure =>
      cases (Program.runs_ret.mp h₂).2
      exact hx s t₁ error _ h₁
  | ok a => exact hf a last t₂ error s' h₂

theorem reject {p : Prop} [Decidable p] {error : ε} (h : P error) :
    Raises P (reject p error : Effectful C A ε σ PUnit) := by
  by_cases hp : p
  · rw [Effectful.reject, if_pos hp]
    exact fail h
  · rw [Effectful.reject, if_neg hp]
    exact pure _

theorem lift {into : δ → ε} (h : ∀ error, P (into error)) (x : Except δ α) :
    Raises P (lift into x : Effectful C A ε σ α) := by
  cases x with
  | error error => exact fail (h error)
  | ok value => exact pure value

theorem unwrap (x : Option α) : Raises P (unwrap x : Effectful C A ε σ α) := by
  cases x with
  | none => exact panic
  | some value => exact pure value

theorem returned {into : δ → ε} (h : ∀ error, P (into error)) (x : Except (Failure δ) α) :
    Raises P (returned into x : Effectful C A ε σ α) := by
  match x with
  | .error .panic => exact panic
  | .error (.error error) => exact fail (h error)
  | .ok value => exact pure value

/-- A program on a part raises what it raises there. -/
theorem zoom {R : δ → Prop} {into : ε → δ} {x : Effectful C A ε σ α} (hx : Raises P x)
    (h : ∀ error, P error → R (into error)) (view : τ → σ) (update : σ → τ → τ) :
    Raises R (zoom view update into x) := by
  intro whole t error whole' hrun
  obtain ⟨t₁, t₂, ⟨first, last⟩, rfl, h₁, h₂⟩ := Program.runs_bind.mp hrun
  obtain ⟨-, heq⟩ := Program.runs_ret.mp h₂
  match first, heq with
  | .error (.error raised), heq =>
      cases heq
      exact h raised (hx _ t₁ raised last h₁)

end Raises

/-- A run of a sequence from the runs of its parts. -/
theorem runs_append {x : Effectful C A ε σ α} {f : α → Effectful C A ε σ β} {s s' : σ}
    {t rest : List (Program.Event C A)} {a : α} {result : Except (Failure ε) β × σ}
    (hx : Program.Runs (x.start s) t (.ok a, s')) (hf : Program.Runs ((f a).start s') rest result) :
    Program.Runs ((x >>= f).start s) (t ++ rest) result :=
  Program.runs_bind.mpr ⟨t, rest, (.ok a, s'), rfl, hx, hf⟩

/-- A rejection that does not apply does nothing. -/
theorem runs_reject_neg {p : Prop} [Decidable p] (hp : ¬p) (error : ε) (s : σ) :
    Program.Runs ((reject p error : Effectful C A ε σ PUnit).start s) [] (.ok ⟨⟩, s) := by
  rw [Effectful.reject, if_neg hp]
  exact .refl _

/-- What a call answered, when its result was a value. -/
theorem runs_returned (c : C) (view : A c → Except (Failure δ) α) {into : δ → ε} {s s' : σ}
    {t : List (Program.Event C A)} {a : α}
    (h : Program.Runs ((Effectful.ask c >>= fun answer => Effectful.returned into (view answer) :
      Effectful C A ε σ α).start s) t (.ok a, s')) :
    ∃ answer, ⟨c, answer⟩ ∈ t ∧ view answer = .ok a := by
  cases h with
  | call h =>
      rename_i rest answer
      refine ⟨answer, List.mem_cons_self, ?_⟩
      have hreturned : Program.Runs ((Effectful.returned into (view answer) :
          Effectful C A ε σ α).start s) rest (.ok a, s') := h
      revert hreturned
      match view answer with
      | .error .panic => exact fun hrun => nomatch (Program.runs_ret.mp hrun).2
      | .error (.error error) => exact fun hrun => nomatch (Program.runs_ret.mp hrun).2
      | .ok value =>
          intro hrun
          cases (Program.runs_ret.mp hrun).2
          rfl

/-- A run on the whole is a run on its part. -/
theorem runs_zoom {view : τ → σ} {update : σ → τ → τ} {into : ε → δ} {x : Effectful C A ε σ α}
    {whole whole' : τ} {t : List (Program.Event C A)} {a : α}
    (h : Program.Runs ((zoom view update into x).start whole) t (.ok a, whole')) :
    ∃ part, Program.Runs (x.start (view whole)) t (.ok a, part) := by
  obtain ⟨t₁, t₂, ⟨first, part⟩, rfl, h₁, h₂⟩ := Program.runs_bind.mp h
  obtain ⟨rfl, heq⟩ := Program.runs_ret.mp h₂
  match first, heq with
  | .ok value, heq =>
      cases heq
      exact ⟨part, by rwa [List.append_nil]⟩

end Effectful

end DisksGraph.Support
