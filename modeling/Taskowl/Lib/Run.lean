import Mathlib.Data.List.Basic
import Mathlib.Logic.Function.Iterate

/-!
# Labelled runs

A system is a total step function on states, a label saying what happens. A
run is the fold of its labels. `Along` says that a condition on (state,
label) is met at every step of a run; an invariant is kept by every such step.
-/

namespace Taskowl.Lib

universe u v w x

variable {σ : Type u} {ℓ : Type v} {step : σ → ℓ → σ}

/-- The state after the labels. -/
def run (step : σ → ℓ → σ) (s : σ) (ls : List ℓ) : σ := ls.foldl step s

@[simp] theorem run_nil (s : σ) : run step s [] = s := rfl

@[simp] theorem run_cons (s : σ) (l : ℓ) (ls : List ℓ) :
    run step s (l :: ls) = run step (step s l) ls := rfl

theorem run_append (s : σ) (ls ls' : List ℓ) :
    run step s (ls ++ ls') = run step (run step s ls) ls' := List.foldl_append

/-- Every step of the run meets `P`. -/
def Along (step : σ → ℓ → σ) (P : σ → ℓ → Prop) : σ → List ℓ → Prop
  | _, [] => True
  | s, l :: ls => P s l ∧ Along step P (step s l) ls

variable {P Q : σ → ℓ → Prop}

instance Along.decidable [∀ s l, Decidable (P s l)] :
    (s : σ) → (ls : List ℓ) → Decidable (Along step P s ls)
  | _, [] => .isTrue trivial
  | s, l :: ls => @instDecidableAnd _ _ _ (Along.decidable (step s l) ls)

theorem along_append {s : σ} {ls ls' : List ℓ} : Along step P s (ls ++ ls') ↔
    Along step P s ls ∧ Along step P (run step s ls) ls' := by
  induction ls generalizing s with
  | nil => exact ⟨fun h => ⟨trivial, h⟩, And.right⟩
  | cons l ls ih =>
    constructor
    · rintro ⟨hl, hls⟩
      obtain ⟨hls, hls'⟩ := ih.mp hls
      exact ⟨⟨hl, hls⟩, hls'⟩
    · rintro ⟨⟨hl, hls⟩, hls'⟩
      exact ⟨hl, ih.mpr ⟨hls, hls'⟩⟩

theorem Along.and {s : σ} {ls : List ℓ} (hp : Along step P s ls) (hq : Along step Q s ls) :
    Along step (fun s l => P s l ∧ Q s l) s ls := by
  induction ls generalizing s with
  | nil => trivial
  | cons l ls ih => exact ⟨⟨hp.1, hq.1⟩, ih hp.2 hq.2⟩

theorem along_of_forall {P : ℓ → Prop} {s : σ} {ls : List ℓ} (h : ∀ l ∈ ls, P l) :
    Along step (fun _ l => P l) s ls := by
  induction ls generalizing s with
  | nil => trivial
  | cons l ls ih =>
    exact ⟨h l List.mem_cons_self, ih fun l' hl' => h l' (List.mem_cons_of_mem l hl')⟩

/-- What every step meeting `P` keeps holds at the end. -/
theorem Along.invariant {I : σ → Prop} (hstep : ∀ s l, P s l → I s → I (step s l))
    {s : σ} {ls : List ℓ} (ha : Along step P s ls) (h : I s) : I (run step s ls) := by
  induction ls generalizing s with
  | nil => exact h
  | cons l ls ih => exact ih ha.2 (hstep s l ha.1 h)

/-- When a step keeps the invariant exactly if it meets `P`, every state of a run has it exactly if
every step does. -/
theorem along_iff {I : σ → Prop} (hstep : ∀ s l, I s → (I (step s l) ↔ P s l)) {s : σ}
    (ls : List ℓ) (h : I s) : Along step (fun s l => I (step s l)) s ls ↔ Along step P s ls := by
  induction ls generalizing s with
  | nil => exact Iff.rfl
  | cons l ls ih =>
    constructor
    · rintro ⟨hl, hls⟩
      exact ⟨(hstep s l h).mp hl, (ih hl).mp hls⟩
    · rintro ⟨hl, hls⟩
      have hnext := (hstep s l h).mpr hl
      exact ⟨hnext, (ih hnext).mpr hls⟩

theorem along_congr {I : σ → Prop} (hinv : ∀ s l, I s → I (step s l))
    (h : ∀ s l, I s → (P s l ↔ Q s l)) {s : σ} (ls : List ℓ) (hs : I s) :
    Along step P s ls ↔ Along step Q s ls := by
  induction ls generalizing s with
  | nil => exact Iff.rfl
  | cons l ls ih => exact and_congr (h s l hs) (ih (hinv s l hs))

/-- What every step keeps holds at the end of every run. -/
theorem run_invariant {I : σ → Prop} (hstep : ∀ s l, I s → I (step s l)) {s : σ}
    (ls : List ℓ) (h : I s) : I (run step s ls) := by
  induction ls generalizing s with
  | nil => exact h
  | cons l ls ih => exact ih (hstep s l h)

/-- A system that each step follows another by one step of it follows it over a run. -/
theorem Along.simulates {τ : Type w} {κ : Type x} {f : τ → κ → τ} {g : ℓ → κ}
    {R : τ → σ → Prop} (hstep : ∀ t s l, P s l → R t s → R (f t (g l)) (step s l))
    {s : σ} {t : τ} {ls : List ℓ} (ha : Along step P s ls) (h : R t s) :
    R (run f t (ls.map g)) (run step s ls) := by
  induction ls generalizing s t with
  | nil => exact h
  | cons l ls ih => exact ih ha.2 (hstep t s l ha.1 h)

/-- An iteration ends that has a measure until it does. -/
theorem exists_iterate_of_measure {f : σ → σ} {I D : σ → Prop} (μ : σ → Nat)
    (hkeep : ∀ s, I s → I (f s)) (hless : ∀ s, I s → ¬ D s → μ (f s) < μ s) (s : σ) (h : I s) :
    ∃ n, D (f^[n] s) := by
  induction hn : μ s using Nat.strongRecOn generalizing s with
  | _ m ih =>
    by_cases hdone : D s
    · exact ⟨0, hdone⟩
    · obtain ⟨n, hdone⟩ := ih _ (hn ▸ hless s h hdone) (f s) (hkeep s h) rfl
      exact ⟨n + 1, hdone⟩

end Taskowl.Lib
