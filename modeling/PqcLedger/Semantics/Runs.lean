import Mathlib.Data.List.Induction

/-!
# Runs and their invariants

A labelled step relation, the finite runs it has from a state, and invariants:
what holds at the start and is preserved by every step holds after every run,
and where it also enables every label, every sequence of labels has a run.
-/

namespace Semantics

variable {σ κ : Type}

/-- Finite runs from a state: the labels taken, in order, and the state reached. -/
inductive Run (step : σ → κ → σ → Prop) (start : σ) : List κ → σ → Prop where
  | nil : Run step start [] start
  | snoc {labels : List κ} {label : κ} {state next : σ} :
      Run step start labels state → step state label next →
        Run step start (labels ++ [label]) next

/-- The label is taken in the state, by a run of these labels. -/
def TakenIn (step : σ → κ → σ → Prop) (start : σ) (labels : List κ) (label : κ) (state : σ) :
    Prop :=
  ∃ earlier later, labels = earlier ++ label :: later ∧ Run step start earlier state

/-- The last step of a run. -/
theorem Run.last {step : σ → κ → σ → Prop} {start next : σ} {labels : List κ} {label : κ}
    (run : Run step start (labels ++ [label]) next) :
    ∃ state, Run step start labels state ∧ step state label next := by
  generalize all : labels ++ [label] = taken at run
  cases run with
  | nil => exact absurd all (List.append_ne_nil_of_right_ne_nil _ (List.cons_ne_nil _ _))
  | snoc earlier step =>
      obtain ⟨rfl, same⟩ := List.append_inj' all rfl
      cases same
      exact ⟨_, earlier, step⟩

/-- A run whose labels are all allowed is a run of the allowed steps. -/
theorem Run.restrict {step : σ → κ → σ → Prop} {start state : σ} {labels : List κ}
    {allowed : κ → Prop} (run : Run step start labels state)
    (all : ∀ label ∈ labels, allowed label) :
    Run (fun state label next => allowed label ∧ step state label next) start labels state := by
  induction run with
  | nil => exact .nil
  | snoc _ taken ih =>
      have last := all _ (List.mem_append_right _ List.mem_cons_self)
      exact .snoc (ih fun label earlier => all label (List.mem_append_left _ earlier))
        ⟨last, taken⟩

/-- A property of the start that every step preserves. -/
structure Invariant (step : σ → κ → σ → Prop) (start : σ) (holds : σ → Prop) : Prop where
  initial : holds start
  preserved : ∀ {state label next}, holds state → step state label next → holds next

namespace Invariant

variable {step : σ → κ → σ → Prop} {start : σ} {holds : σ → Prop}

/-- An invariant holds after every run. -/
theorem of_run (invariant : Invariant step start holds) {labels : List κ} {state : σ}
    (run : Run step start labels state) : holds state := by
  induction run with
  | nil => exact invariant.initial
  | snoc _ taken ih => exact invariant.preserved ih taken

/-- An invariant that enables every label lets every sequence of labels run. -/
theorem run_exists (invariant : Invariant step start holds)
    (enabled : ∀ state, holds state → ∀ label, ∃ next, step state label next)
    (labels : List κ) : ∃ state, Run step start labels state := by
  induction labels using List.reverseRecOn with
  | nil => exact ⟨start, .nil⟩
  | append_singleton labels label ih =>
      obtain ⟨state, run⟩ := ih
      obtain ⟨next, taken⟩ := enabled state (invariant.of_run run) label
      exact ⟨next, .snoc run taken⟩

end Invariant

end Semantics
