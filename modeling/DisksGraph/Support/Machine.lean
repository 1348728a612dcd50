import Mathlib.Data.List.Induction
import Mathlib.Order.WellFounded

/-!
# Support — Machine

Labelled transition systems.

* `Machine.Run`: the states that any sequence of steps leads to, with the trace of their labels.
* `Run.invariant`: what holds at the start and is kept by every step.  `Run.recorded` is the same
  for statements about the trace.
* `Path`: the steps after a given state.  `Run.split` takes a run apart at a place of its trace.
* `Simulates`: forward simulation.  `view` says what a concrete label shows of the abstract machine.
  `Simulates.run`: what a concrete run shows is a run of the abstract machine.
-/

namespace DisksGraph.Support

/-- Where a machine may start, and its steps. -/
structure Machine (State Label : Type) where
  start : State → Prop
  step : State → Label → State → Prop

namespace Machine

variable {State Label : Type}

/-- The states that any sequence of steps leads to, with what the steps showed. -/
inductive Run (machine : Machine State Label) : List Label → State → Prop where
  | start {s : State} (h : machine.start s) : Run machine [] s
  | step {trace : List Label} {s s' : State} {label : Label} (h : Run machine trace s)
      (hstep : machine.step s label s') : Run machine (trace ++ [label]) s'

/-- The steps after a state. -/
inductive Path (machine : Machine State Label) : State → List Label → State → Prop where
  | nil (s : State) : Path machine s [] s
  | cons {s middle last : State} {label : Label} {labels : List Label}
      (hstep : machine.step s label middle) (h : Path machine middle labels last) :
      Path machine s (label :: labels) last

variable {machine : Machine State Label} {trace : List Label} {s : State}

/-- What every step keeps, together with the trace. -/
theorem Run.recorded {I : List Label → State → Prop}
    (hstart : ∀ s, machine.start s → I [] s)
    (hstep : ∀ trace s label s', machine.Run trace s → I trace s → machine.step s label s' →
      I (trace ++ [label]) s')
    (h : machine.Run trace s) : I trace s := by
  induction h with
  | start h => exact hstart _ h
  | step h hs ih => exact hstep _ _ _ _ h ih hs

/-- What every step keeps. -/
theorem Run.invariant {I : State → Prop} (hstart : ∀ s, machine.start s → I s)
    (hstep : ∀ s label s', I s → machine.step s label s' → I s') (h : machine.Run trace s) :
    I s :=
  Run.recorded (I := fun _ s => I s) hstart (fun _ _ _ _ _ hi hs => hstep _ _ _ hi hs) h

/-- What every step keeps, from a state on. -/
theorem Path.invariant {I : State → Prop} {s' : State}
    (hstep : ∀ s label s', I s → machine.step s label s' → I s')
    (h : machine.Path s trace s') (hi : I s) : I s' := by
  induction h with
  | nil s => exact hi
  | cons hs _ ih => exact ih (hstep _ _ _ hi hs)

/-- What every step shows, from a state on. -/
theorem Path.shows {I : State → Prop} {P : Label → Prop} {s' : State}
    (hstep : ∀ s label s', I s → machine.step s label s' → P label ∧ I s')
    (h : machine.Path s trace s') (hi : I s) : ∀ label ∈ trace, P label := by
  induction h with
  | nil s => simp
  | cons hs _ ih =>
      obtain ⟨hlabel, hnext⟩ := hstep _ _ _ hi hs
      exact List.forall_mem_cons.mpr ⟨hlabel, ih hnext⟩

/-- One step more at the end. -/
theorem Path.snoc {s' last : State} {label : Label} (h : machine.Path s trace s')
    (hstep : machine.step s' label last) : machine.Path s (trace ++ [label]) last := by
  induction h with
  | nil s => exact .cons hstep (.nil _)
  | cons hs _ ih => exact .cons hs (ih hstep)

/-- A run that goes on. -/
theorem Run.path {before after : List Label} {s s' : State} (h : machine.Run before s)
    (hpath : machine.Path s after s') : machine.Run (before ++ after) s' := by
  induction hpath generalizing before with
  | nil s => rwa [List.append_nil]
  | cons hs _ ih =>
      rw [← List.singleton_append, ← List.append_assoc]
      exact ih (h.step hs)

/-- A path that ends where it is said to. -/
theorem Path.done {s' : State} (h : s = s') : machine.Path s [] s' := h ▸ .nil s

/-- A run passes through a state at every place of its trace. -/
theorem Run.split {after : List Label} : ∀ {trace : List Label} {s : State},
    machine.Run trace s → ∀ {before : List Label}, trace = before ++ after →
      ∃ middle, machine.Run before middle ∧ machine.Path middle after s := by
  induction after using List.reverseRecOn with
  | nil =>
      intro trace s h before heq
      rw [List.append_nil] at heq
      exact ⟨s, heq ▸ h, .nil s⟩
  | append_singleton after label ih =>
      intro trace s h before heq
      cases h with
      | start h => simp at heq
      | step h hs =>
          rw [← List.append_assoc] at heq
          obtain ⟨hinit, hlast⟩ := List.append_inj' heq rfl
          obtain rfl := List.singleton_inj.mp hlast
          obtain ⟨middle, hbefore, hpath⟩ := ih h hinit
          exact ⟨middle, hbefore, hpath.snoc hs⟩

/-- What one more label of a trace shows. -/
theorem filterMap_snoc {Shown : Type} (view : Label → Option Shown) (trace : List Label)
    (label : Label) :
    (trace ++ [label]).filterMap view = trace.filterMap view ++ (view label).toList := by
  rw [List.filterMap_append]
  cases hview : view label with
  | none => rw [List.filterMap_cons_none hview]; rfl
  | some seen => rw [List.filterMap_cons_some hview]; rfl

/-- What every step decreases comes to an end. -/
theorem acc_of_decreases {M : Type} [Preorder M] [WellFoundedLT M] {R : State → State → Prop}
    {I : State → Prop} (measure : State → M)
    (hstep : ∀ s s', I s → R s s' → I s' ∧ measure s' < measure s) (hi : I s) :
    Acc (fun s' s => R s s') s := by
  generalize hmeasure : measure s = m
  induction m using WellFoundedLT.induction generalizing s with
  | ind m ih =>
      refine ⟨s, fun s' hr => ?_⟩
      obtain ⟨hnext, hless⟩ := hstep s s' hi hr
      exact ih (measure s') (hmeasure ▸ hless) hnext rfl

/-! ### Simulation -/

section Simulation

variable {Abstract Shown : Type}

/-- Every step of the concrete machine is matched by the abstract one, where it shows anything. -/
structure Simulates (machine : Machine State Label) (abstract : Machine Abstract Shown)
    (view : Label → Option Shown) (R : State → Abstract → Prop) : Prop where
  start : ∀ s, machine.start s → ∃ a, abstract.start a ∧ R s a
  silent : ∀ {trace s label s' a}, machine.Run trace s → R s a → machine.step s label s' →
    view label = none → R s' a
  shown : ∀ {trace s label s' a seen}, machine.Run trace s → R s a → machine.step s label s' →
    view label = some seen → ∃ a', abstract.step a seen a' ∧ R s' a'

/-- What a concrete run shows is a run of the abstract machine. -/
theorem Simulates.run {abstract : Machine Abstract Shown} {view : Label → Option Shown}
    {R : State → Abstract → Prop} (hsim : machine.Simulates abstract view R)
    (h : machine.Run trace s) : ∃ a, abstract.Run (trace.filterMap view) a ∧ R s a := by
  induction h with
  | start h =>
      obtain ⟨a, hstart, hr⟩ := hsim.start _ h
      exact ⟨a, .start hstart, hr⟩
  | @step trace s s' label h hs ih =>
      obtain ⟨a, hrun, hr⟩ := ih
      rw [filterMap_snoc]
      cases hview : view label with
      | none =>
          refine ⟨a, ?_, hsim.silent h hr hs hview⟩
          rwa [Option.toList_none, List.append_nil]
      | some seen =>
          obtain ⟨a', hstep, hr'⟩ := hsim.shown h hr hs hview
          exact ⟨a', .step hrun hstep, hr'⟩

end Simulation

end Machine

end DisksGraph.Support
