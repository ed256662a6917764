import Mathlib.Data.Finset.Max
import Taskowl.Lib.Run

/-!
# Progress

A system whose effective steps lower a measure ends under every fair schedule
when something can always move (`run_rounds`). Among clients that hold
resources and wait for at most one, something can move when the resources are
ranked and a client waits only above what it holds (`exists_free`).
-/

namespace Taskowl.Lib

universe u v w

/-! ## The resource hierarchy -/

section Hierarchy

variable {π : Type u} {κ : Type v} {ρ : Type w} [LinearOrder ρ]

/-- Of clients that wait only above what they hold, one waits for nothing that is held: one that
waits for nothing, or else one whose resource is of the highest rank waited for. -/
theorem exists_free (rank : κ → ρ) (holds : π → κ → Prop) (waits : π → Option κ) {ps : List π}
    (hne : ps ≠ []) (habove : ∀ p ∈ ps, ∀ k, waits p = some k → ∀ h, holds p h → rank h < rank k) :
    ∃ p ∈ ps, ∀ k, waits p = some k → ∀ q ∈ ps, ¬ holds q k := by
  classical
  by_cases hidle : ∃ p ∈ ps, waits p = none
  · obtain ⟨p, hp, hnone⟩ := hidle
    exact ⟨p, hp, fun k hk => by rw [hnone] at hk; cases hk⟩
  · have hwaits : ∀ p ∈ ps, ∃ k, waits p = some k := fun p hp =>
      Option.ne_none_iff_exists'.mp fun hnone => hidle ⟨p, hp, hnone⟩
    obtain ⟨p₀, hp₀⟩ := List.exists_mem_of_ne_nil ps hne
    obtain ⟨k₀, hk₀⟩ := hwaits p₀ hp₀
    obtain ⟨k, hk, hmax⟩ := (ps.filterMap waits).toFinset.exists_max_image rank
      ⟨k₀, List.mem_toFinset.mpr (List.mem_filterMap.mpr ⟨p₀, hp₀, hk₀⟩)⟩
    obtain ⟨p, hp, hpk⟩ := List.mem_filterMap.mp (List.mem_toFinset.mp hk)
    refine ⟨p, hp, fun k' hk' q hq hheld => ?_⟩
    cases hpk.symm.trans hk'
    obtain ⟨l, hl⟩ := hwaits q hq
    have hle := hmax l (List.mem_toFinset.mpr (List.mem_filterMap.mpr ⟨q, hq, hl⟩))
    exact absurd (habove q hq l hl k hheld) (not_lt.mpr hle)

end Hierarchy

/-! ## Fair schedules -/

section Rounds

variable {σ : Type u} {ι : Type v} {step : σ → ι → σ} {I D : σ → Prop} (μ : σ → Nat)

theorem measure_run (hkeep : ∀ s i, I s → I (step s i))
    (hless : ∀ s i, I s → step s i = s ∨ μ (step s i) < μ s) {s : σ} (is : List ι) (h : I s) :
    μ (run step s is) ≤ μ s := by
  induction is generalizing s with
  | nil => exact Nat.le_refl _
  | cons i is ih =>
    refine (ih (hkeep s i h)).trans ?_
    rcases hless s i h with heq | hlt
    · rw [heq]
    · exact Nat.le_of_lt hlt

/-- A schedule with a step that would have had an effect at its start lowers the measure: nothing
changes before the first step with an effect. -/
theorem measure_run_lt (hkeep : ∀ s i, I s → I (step s i))
    (hless : ∀ s i, I s → step s i = s ∨ μ (step s i) < μ s) {s : σ} {is : List ι} {i : ι}
    (h : I s) (hi : i ∈ is) (hmoves : step s i ≠ s) : μ (run step s is) < μ s := by
  induction is with
  | nil => exact absurd hi List.not_mem_nil
  | cons j is ih =>
    rw [run_cons]
    rcases hless s j h with heq | hlt
    · rw [heq]
      rcases List.mem_cons.mp hi with rfl | hi
      · exact absurd heq hmoves
      · exact ih hi
    · exact Nat.lt_of_le_of_lt (measure_run μ hkeep hless is (hkeep s j h)) hlt

/-- Rounds that give everyone a turn come to the end, one for each unit of the measure. -/
theorem run_rounds {U : ι → Prop} (hkeep : ∀ s i, I s → I (step s i))
    (hless : ∀ s i, I s → step s i = s ∨ μ (step s i) < μ s)
    (hmoves : ∀ s, I s → ¬ D s → ∃ i, U i ∧ step s i ≠ s)
    (hdone : ∀ s i, I s → D s → D (step s i)) {s : σ} {rounds : List (List ι)} (h : I s)
    (hfair : ∀ is ∈ rounds, ∀ i, U i → i ∈ is) (hlong : μ s ≤ rounds.length) :
    D (run step s rounds.flatten) := by
  have hends : ∀ {s : σ} (is : List ι), I s → D s → D (run step s is) := fun is hI hD =>
    (run_invariant (I := fun s => I s ∧ D s)
      (fun s i hs => ⟨hkeep s i hs.1, hdone s i hs.1 hs.2⟩) is ⟨hI, hD⟩).2
  induction rounds generalizing s with
  | nil =>
    by_contra hD
    obtain ⟨i, -, hne⟩ := hmoves s h hD
    rcases hless s i h with heq | hlt
    · exact hne heq
    · exact absurd (Nat.lt_of_lt_of_le hlt hlong) (Nat.not_lt_zero _)
  | cons is rounds ih =>
    rw [List.flatten_cons, run_append]
    have hI : I (run step s is) := run_invariant hkeep is h
    by_cases hD : D s
    · exact hends _ hI (hends is h hD)
    · obtain ⟨i, hi, hne⟩ := hmoves s h hD
      have hlt := measure_run_lt μ hkeep hless h (hfair is List.mem_cons_self i hi) hne
      exact ih hI (fun js hjs => hfair js (List.mem_cons_of_mem is hjs))
        (by rw [List.length_cons] at hlong; omega)

end Rounds

end Taskowl.Lib
