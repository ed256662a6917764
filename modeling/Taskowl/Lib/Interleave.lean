import Mathlib.Data.List.Perm.Basic
import Taskowl.Lib.Run

/-!
# Interleaved processes

Processes share a store, and a schedule says which of them takes the next
step. The rule for invariants is one of rely and guarantee: a process keeps
the store's invariant and its own, and what its step may do to the store does
no harm to the others' (`interleave_invariant`). What a step takes out of the
store and adds to the account of its process is conserved over a run
(`interleave_conserved`).
-/

namespace Taskowl.Lib

variable {σ π β : Type}

/-- The process at an index takes a step. -/
def interleave (step : σ → π → σ × π) (s : σ × List π) (i : Nat) : σ × List π :=
  match s.2[i]? with
  | none => s
  | some p => ((step s.1 p).1, s.2.set i (step s.1 p).2)

theorem length_interleave (step : σ → π → σ × π) (s : σ × List π) (i : Nat) :
    (interleave step s i).2.length = s.2.length := by
  unfold interleave
  split
  · rfl
  · exact List.length_set

theorem length_run_interleave (step : σ → π → σ × π) (s : σ × List π) (is : List Nat) :
    (run (interleave step) s is).2.length = s.2.length :=
  run_invariant (I := fun t => t.2.length = s.2.length)
    (fun t i h => (length_interleave step t i).trans h) is rfl

variable {step : σ → π → σ × π} {J : σ → Prop} {K : σ → π → Prop} {G : σ → σ → Prop}

/-- The store and every process are as they should be. -/
def SoundOn (J : σ → Prop) (K : σ → π → Prop) (s : σ × List π) : Prop :=
  J s.1 ∧ ∀ p ∈ s.2, K s.1 p

theorem soundOn_interleave
    (hstep : ∀ s p, J s → K s p → J (step s p).1 ∧ K (step s p).1 (step s p).2 ∧ G s (step s p).1)
    (hstable : ∀ s s' q, G s s' → K s q → K s' q) (s : σ × List π) (i : Nat) (h : SoundOn J K s) :
    SoundOn J K (interleave step s i) := by
  unfold interleave
  cases hp : s.2[i]? with
  | none => exact h
  | some p =>
    obtain ⟨hJ, hK, hG⟩ := hstep s.1 p h.1 (h.2 p (List.mem_of_getElem? hp))
    refine ⟨hJ, fun q hq => ?_⟩
    rcases List.mem_or_eq_of_mem_set hq with hq | rfl
    · exact hstable _ _ q hG (h.2 q hq)
    · exact hK

/-- Rely and guarantee. -/
theorem interleave_invariant
    (hstep : ∀ s p, J s → K s p → J (step s p).1 ∧ K (step s p).1 (step s p).2 ∧ G s (step s p).1)
    (hstable : ∀ s s' q, G s s' → K s q → K s' q) {s : σ × List π} (is : List Nat)
    (h : SoundOn J K s) : SoundOn J K (run (interleave step) s is) :=
  run_invariant (soundOn_interleave hstep hstable) is h

/-- What the processes have and what the store has left. -/
theorem interleave_conserved (account : π → List β) (store : σ → List β)
    (hstep : ∀ s p, J s → K s p → J (step s p).1 ∧ K (step s p).1 (step s p).2 ∧ G s (step s p).1)
    (hstable : ∀ s s' q, G s s' → K s q → K s' q)
    (hmoved : ∀ s p, J s → K s p →
      (account (step s p).2 ++ store (step s p).1).Perm (account p ++ store s))
    {s : σ × List π} (is : List Nat) (h : SoundOn J K s) :
    ((run (interleave step) s is).2.flatMap account ++
      store (run (interleave step) s is).1).Perm (s.2.flatMap account ++ store s.1) := by
  induction is generalizing s with
  | nil => exact .refl _
  | cons i is ih =>
    refine (ih (soundOn_interleave hstep hstable s i h)).trans ?_
    unfold interleave
    cases hp : s.2[i]? with
    | none => exact .refl _
    | some p =>
      obtain ⟨hi, rfl⟩ := List.getElem?_eq_some_iff.mp hp
      have hmoved := hmoved s.1 _ h.1 (h.2 _ (List.getElem_mem hi))
      have hrest := (List.set_perm_cons_eraseIdx hi (step s.1 s.2[i]).2).flatMap_right account
      have hbefore := (List.getElem_cons_eraseIdx_perm hi).flatMap_right account
      rw [List.flatMap_cons] at hrest hbefore
      generalize (s.2.eraseIdx i).flatMap account = others at hrest hbefore
      have hswap : ∀ mine left : List β,
          (mine ++ others ++ left).Perm (mine ++ left ++ others) := by
        intro mine left
        rw [List.append_assoc, List.append_assoc]
        exact List.perm_append_comm.append_left _
      exact (hrest.append_right _).trans ((hswap ..).trans ((hmoved.append_right _).trans
        ((hswap ..).symm.trans (hbefore.append_right _))))

end Taskowl.Lib
