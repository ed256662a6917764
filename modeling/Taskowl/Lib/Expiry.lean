import Taskowl.Lib.Run

/-!
# Logs with expiry

Entries are added to a log and expire from it by a condition. An entry is in
the log after a history exactly when it was added at some point and no expiry
after that point takes it (`mem_run_log`). Entries are told apart by their
value: adding one again brings it back.
-/

namespace Taskowl.Lib

universe u

variable {α : Type u}

inductive LogOp (α : Type u) where
  | add (a : α)
  | expire (dead : α → Bool)
  | skip

def LogOp.apply (log : List α) : LogOp α → List α
  | .add a => log ++ [a]
  | .expire dead => log.filter fun a => !dead a
  | .skip => log

/-- No expiry among the operations takes the entry. -/
def Spared (a : α) (ops : List (LogOp α)) : Prop := ∀ dead, LogOp.expire dead ∈ ops → dead a = false

theorem spared_nil (a : α) : Spared a [] := fun _ h => absurd h List.not_mem_nil

theorem spared_cons {a : α} {op : LogOp α} {ops : List (LogOp α)} : Spared a (op :: ops) ↔
    (∀ dead, op = .expire dead → dead a = false) ∧ Spared a ops := by
  constructor
  · intro h
    exact ⟨fun dead heq => h dead (heq ▸ List.mem_cons_self),
      fun dead hmem => h dead (List.mem_cons_of_mem op hmem)⟩
  · rintro ⟨hop, hops⟩ dead hmem
    rcases List.mem_cons.mp hmem with heq | hmem
    · exact hop dead heq.symm
    · exact hops dead hmem

theorem mem_apply {a : α} {log : List α} {op : LogOp α} : a ∈ op.apply log ↔
    (a ∈ log ∧ ∀ dead, op = .expire dead → dead a = false) ∨ op = .add a := by
  cases op with
  | add b =>
    have hadd : LogOp.add b = LogOp.add a ↔ a = b :=
      ⟨fun h => (LogOp.add.inj h).symm, fun h => congrArg LogOp.add h.symm⟩
    rw [hadd]
    simp [LogOp.apply]
  | expire dead => simp [LogOp.apply]
  | skip => simp [LogOp.apply]

/-- After a history: the entries of the start that it spares, and those it adds and then spares. -/
theorem mem_run_log {a : α} {log : List α} {ops : List (LogOp α)} :
    a ∈ run LogOp.apply log ops ↔ (a ∈ log ∧ Spared a ops) ∨
      ∃ before after, ops = before ++ .add a :: after ∧ Spared a after := by
  induction ops generalizing log with
  | nil => simp [spared_nil]
  | cons op ops ih =>
    rw [run_cons, ih, mem_apply, spared_cons]
    constructor
    · rintro (⟨⟨hmem, hop⟩ | rfl, hops⟩ | ⟨before, after, rfl, hafter⟩)
      · exact .inl ⟨hmem, hop, hops⟩
      · exact .inr ⟨[], ops, rfl, hops⟩
      · exact .inr ⟨op :: before, after, rfl, hafter⟩
    · rintro (⟨hmem, hop, hops⟩ | ⟨before, after, heq, hafter⟩)
      · exact .inl ⟨.inl ⟨hmem, hop⟩, hops⟩
      · cases before with
        | nil =>
          obtain ⟨rfl, rfl⟩ := List.cons.inj heq
          exact .inl ⟨.inr rfl, hafter⟩
        | cons b before =>
          obtain ⟨rfl, rfl⟩ := List.cons.inj heq
          exact .inr ⟨before, after, rfl, hafter⟩

end Taskowl.Lib
