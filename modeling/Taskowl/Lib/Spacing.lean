import Mathlib.Data.List.Nodup

/-!
# Logs of keyed instants

A log says when something happened, and to which key. `Spaced` asks for a gap
between any two instants, `Capped` for a bound on every closed window. Each is
kept by appending an instant that meets a condition on the log before it.
-/

namespace Taskowl.Lib

variable {κ : Type} [DecidableEq κ] {k : κ} {log log' : List (κ × Int)}

/-- The instants of a key, in log order. -/
def times (k : κ) (log : List (κ × Int)) : List Int :=
  (log.filter fun entry => entry.1 = k).map (·.2)

@[simp] theorem times_nil : times k [] = [] := rfl

@[simp] theorem times_append : times k (log ++ log') = times k log ++ times k log' := by
  simp [times]

@[simp] theorem mem_times {t : Int} : t ∈ times k log ↔ (k, t) ∈ log := by
  unfold times
  rw [List.mem_map]
  constructor
  · rintro ⟨⟨k', t'⟩, hm, rfl⟩
    obtain ⟨hm, hk⟩ := List.mem_filter.mp hm
    have hk : k' = k := by simpa using hk
    exact hk ▸ hm
  · intro hm
    exact ⟨(k, t), List.mem_filter.mpr ⟨hm, by simp⟩, rfl⟩

theorem times_map {ks : List κ} (hnodup : ks.Nodup) (t : Int) :
    times k (ks.map (·, t)) = if k ∈ ks then [t] else [] := by
  induction ks with
  | nil => rfl
  | cons k' ks ih =>
    obtain ⟨hnotin, hnodup⟩ := List.nodup_cons.mp hnodup
    have hcons : times k ((k' :: ks).map (·, t)) =
        (if k' = k then [t] else []) ++ times k (ks.map (·, t)) := by
      by_cases h : k' = k <;> simp [times, h]
    rw [hcons, ih hnodup]
    by_cases h : k' = k
    · subst h
      simp [hnotin]
    · simp [h, Ne.symm h]

/-! ## Gaps -/

def Spaced (gap : Int) (ts : List Int) : Prop := ts.Pairwise fun s t => s + gap ≤ t

theorem spaced_nil (gap : Int) : Spaced gap [] := .nil

theorem Spaced.snoc {gap t : Int} {ts : List Int} (h : Spaced gap ts)
    (ht : ∀ s ∈ ts, s + gap ≤ t) : Spaced gap (ts ++ [t]) := by
  refine List.pairwise_append.mpr ⟨h, List.pairwise_singleton .., fun s hs u hu => ?_⟩
  rw [List.mem_singleton] at hu
  subst hu
  exact ht s hs

/-! ## Caps -/

/-- At most `n` instants in any closed window of length `w`. -/
def Capped (n : Nat) (w : Int) (ts : List Int) : Prop :=
  ∀ x, ts.countP (fun t => decide (x ≤ t ∧ t ≤ x + w)) ≤ n

theorem capped_nil (n : Nat) (w : Int) : Capped n w [] := fun _ => Nat.zero_le n

/-- An instant when fewer than `n` others are no further back than the window it ends. -/
theorem Capped.snoc {n : Nat} {w t : Int} {ts : List Int} (h : Capped n w ts)
    (hroom : ts.countP (fun s => decide (t - w ≤ s)) < n) :
    Capped n w (ts ++ [t]) := by
  intro x
  rw [List.countP_append, List.countP_singleton]
  by_cases hx : x ≤ t ∧ t ≤ x + w
  · -- The window holds `t`, so what else it holds is in the window that `t` ends.
    rw [if_pos (by simpa using hx)]
    have hsub : ts.countP (fun s => decide (x ≤ s ∧ s ≤ x + w)) ≤
        ts.countP fun s => decide (t - w ≤ s) := by
      refine List.countP_mono_left fun s _ hsx => ?_
      simp only [decide_eq_true_eq] at hsx ⊢
      omega
    omega
  · rw [if_neg (by simpa using hx)]
    exact h x

end Taskowl.Lib
