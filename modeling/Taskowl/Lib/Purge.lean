import Mathlib.Data.List.Basic

/-!
# What the others see

A machine takes inputs one after the other and answers each. Inputs that leave
the state alone can be taken out of a run: it ends in the same state, and the
inputs that remain get the answers they got (`outputs_filter`).
-/

namespace Taskowl.Lib

variable {σ α β : Type} (step : α → σ → σ × β)

def final : List α → σ → σ
  | [], s => s
  | a :: as, s => final as (step a s).1

def outputs : List α → σ → List (α × β)
  | [], _ => []
  | a :: as, s => (a, (step a s).2) :: outputs as (step a s).1

variable {step} {p : α → Bool}

/-- Inputs that change nothing leave no trace in the state. -/
theorem final_filter (hquiet : ∀ a, p a = false → ∀ s, (step a s).1 = s) (as : List α) (s : σ) :
    final step (as.filter p) s = final step as s := by
  induction as generalizing s with
  | nil => rfl
  | cons a as ih =>
    cases hp : p a with
    | false =>
      rw [List.filter_cons_of_neg (by simp [hp]), final, hquiet a hp, ih]
    | true => rw [List.filter_cons_of_pos hp, final, final, ih]

theorem outputs_filter (hquiet : ∀ a, p a = false → ∀ s, (step a s).1 = s) (as : List α) (s : σ) :
    outputs step (as.filter p) s = (outputs step as s).filter (p ·.1) := by
  induction as generalizing s with
  | nil => rfl
  | cons a as ih =>
    cases hp : p a with
    | false =>
      rw [List.filter_cons_of_neg (by simp [hp]), outputs, List.filter_cons_of_neg (by simp [hp]),
        hquiet a hp, ih]
    | true =>
      rw [List.filter_cons_of_pos hp, outputs, outputs, List.filter_cons_of_pos (by simp [hp]), ih]

end Taskowl.Lib
