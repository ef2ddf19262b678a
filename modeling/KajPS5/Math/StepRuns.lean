/-
# Runs

A system is a state and a function that takes it from step to step. What every step
keeps holds after every run. Some steps may be taken only in some states; what those
keep holds after the runs in which each step may be taken where it is. A tally adds up
a weight over the steps of a run; where each step balances two weights against what
the state holds, the tallies of a whole run balance too.
-/

import Mathlib.Algebra.Order.Ring.Nat

namespace KajPS5.Math.StepRuns

universe u v

variable {σ : Type u} {α : Type v} (step : σ → α → σ)

def run (s : σ) (steps : List α) : σ := steps.foldl step s

@[simp]
theorem run_nil (s : σ) : run step s [] = s := rfl

theorem run_append (s : σ) (first second : List α) :
    run step s (first ++ second) = run step (run step s first) second :=
  List.foldl_append

/-- Every step of the run may be taken in the state it finds. -/
def Along (may : σ → α → Prop) (s : σ) : List α → Prop
  | [] => True
  | a :: steps => may s a ∧ Along may (step s a) steps

variable {P : σ → Prop} {s : σ} {steps : List α}

/-- What every step that may be taken keeps holds after every run of such steps. -/
theorem run_along {may : σ → α → Prop}
    (hstep : ∀ s, ∀ a ∈ steps, may s a → P s → P (step s a)) (hs : P s)
    (halong : Along step may s steps) : P (run step s steps) := by
  induction steps generalizing s with
  | nil => exact hs
  | cons a steps ih =>
    apply ih
    · exact fun s b hb => hstep s b (List.mem_cons_of_mem _ hb)
    · exact hstep s a List.mem_cons_self halong.1 hs
    · exact halong.2

/-- What every step that may be taken keeps can be used to say more of each step. -/
theorem Along.imp {may may' : σ → α → Prop} (hstep : ∀ s a, may s a → P s → P (step s a))
    (himp : ∀ s a, may s a → P s → may' s a) (hs : P s) (halong : Along step may s steps) :
    Along step may' s steps := by
  induction steps generalizing s with
  | nil => trivial
  | cons a steps ih =>
    exact ⟨himp s a halong.1 hs, ih (hstep s a halong.1 hs) halong.2⟩

/-- What every step keeps holds after every run. -/
theorem run_induction (hstep : ∀ s a, P s → P (step s a)) (hs : P s) (steps : List α) :
    P (run step s steps) := by
  induction steps generalizing s with
  | nil => exact hs
  | cons a steps ih => exact ih (hstep s a hs)

/-- The weights of all steps of a run together. -/
def tally (weight : σ → α → ℕ) (s : σ) : List α → ℕ
  | [] => 0
  | a :: steps => weight s a + tally weight (step s a) steps

end KajPS5.Math.StepRuns
