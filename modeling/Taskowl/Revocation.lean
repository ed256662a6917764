import Taskowl.Actions

/-!
# Revocation

`revoke_task` looks a task up by the UUID that its text parses to, and sends
the text itself to Celery, which knows the task by its canonical text. So it
revokes the task it found exactly when the text is canonical.
-/

namespace Taskowl

open Lib Py

/-- A revocation that reports success sent the canonical text of a task of the log. -/
def RevokesFound (env : Env) (w : World) (taskId : String) (terminate : Json) : Prop :=
  ∀ w' text, revokeTask env w (.str taskId) terminate = (w', .ok (.success text)) →
    ∃ id, Uuid.parse taskId = some id ∧ taskExists env.taskRows id = true ∧
      w'.effects = w.effects ++ [.revoke id.str terminate]

section Revoke

variable {env : Env} {w w' : World} {taskId text : String} {terminate : Json}

theorem revokeTask_found {id : Uuid} (hid : Uuid.parse taskId = some id)
    (hexists : taskExists env.taskRows id = true) :
    revokeTask env w (.str taskId) terminate = (w.send (.revoke taskId terminate),
      match env.answer w.effects (.revoke taskId terminate) with
      | .ok _ => .ok (.success taskId)
      | .error e => .ok (.error s!"Failed to revoke task: {e.msg}")) := by
  have hjson : Uuid.ofJson (.str taskId) = .ok id := by
    simp only [Uuid.ofJson, hid]
  unfold revokeTask
  rw [hjson]
  dsimp only
  rw [hexists]
  cases hanswer : env.answer w.effects (.revoke taskId terminate) with
  | ok answer =>
    have hcall : w.call env (.revoke taskId terminate) =
        (w.send (.revoke taskId terminate), .ok answer) := congrArg (Prod.mk _) hanswer
    simp [Json.toStr, hcall]
  | error e =>
    have hcall : w.call env (.revoke taskId terminate) =
        (w.send (.revoke taskId terminate), .error e) := congrArg (Prod.mk _) hanswer
    simp [Json.toStr, hcall]

theorem revokeTask_success_iff :
    revokeTask env w (.str taskId) terminate = (w', .ok (.success text)) ↔
      text = taskId ∧ w' = w.send (.revoke taskId terminate) ∧
        (∃ id, Uuid.parse taskId = some id ∧ taskExists env.taskRows id = true) ∧
        (env.answer w.effects (.revoke taskId terminate)).isOk = true := by
  cases hparse : Uuid.parse taskId with
  | none => simp [revokeTask, Uuid.ofJson, hparse]
  | some id =>
    cases hexists : taskExists env.taskRows id with
    | false => simp [revokeTask, Uuid.ofJson, hparse, hexists]
    | true =>
      rw [revokeTask_found hparse hexists]
      cases env.answer w.effects (.revoke taskId terminate) with
      | error e => simp [Except.isOk, Except.toBool]
      | ok answer =>
        constructor
        · intro h
          cases h
          exact ⟨rfl, rfl, ⟨id, rfl, hexists⟩, rfl⟩
        · rintro ⟨rfl, rfl, -⟩
          rfl

theorem canonical_of_sent {id : Uuid} (hid : Uuid.parse taskId = some id)
    (hsent : (w.send (.revoke taskId terminate)).effects =
      w.effects ++ [.revoke id.str terminate]) : Uuid.Canonical taskId := by
  have hsame := List.append_cancel_left hsent
  simp only [List.cons.injEq, Effect.revoke.injEq, and_true] at hsame
  exact (Uuid.canonical_iff_of_parse hid).mpr hsame.symm

def loggedTask (id : Uuid) : Table TaskEvent :=
  Table.empty.insert 0 { eventType := .started, taskId := id, timestamp := 1 }

/-- One call: what it found is what it revokes where its text is canonical, unless it fails. -/
theorem revokesFound_call_iff : RevokesFound env w taskId terminate ↔
    ∀ id, Uuid.parse taskId = some id → taskExists env.taskRows id = true →
      (env.answer w.effects (.revoke taskId terminate)).isOk = true → Uuid.Canonical taskId := by
  constructor
  · intro h id hid hexists hok
    obtain ⟨id', hid', -, hsent⟩ :=
      h _ _ (revokeTask_success_iff.mpr ⟨rfl, rfl, ⟨id, hid, hexists⟩, hok⟩)
    exact canonical_of_sent hid' hsent
  · intro h w' text hrevoke
    obtain ⟨rfl, rfl, ⟨id, hid, hexists⟩, hok⟩ := revokeTask_success_iff.mp hrevoke
    have hstr := (Uuid.canonical_iff_of_parse hid).mp (h id hid hexists hok)
    exact ⟨id, hid, hexists, by rw [World.effects_send, hstr]⟩

theorem taskExists_loggedTask (id : Uuid) : taskExists (loggedTask id).rows id = true := by
  simp [taskExists, loggedTask, Table.insert, Table.empty]

/-- **A revocation that reports success targets the task it found exactly if its text is
canonical; for every log exactly if it is canonical or no UUID at all.** -/
theorem revokesFound_iff (taskId : String) :
    (∀ env w terminate, RevokesFound env w taskId terminate ↔
      ∀ id, Uuid.parse taskId = some id → taskExists env.taskRows id = true →
        (env.answer w.effects (.revoke taskId terminate)).isOk = true → Uuid.Canonical taskId) ∧
    ((∀ env w terminate, RevokesFound env w taskId terminate) ↔
      Uuid.parse taskId = none ∨ Uuid.Canonical taskId) := by
  refine ⟨fun env w terminate => revokesFound_call_iff, ?_⟩
  simp only [revokesFound_call_iff]
  constructor
  · intro h
    cases hparse : Uuid.parse taskId with
    | none => exact .inl rfl
    | some id =>
      exact .inr (h { Env.idle 0 with taskRows := (loggedTask id).rows } {} .null id hparse
        (taskExists_loggedTask id) rfl)
  · rintro (hnone | hcanonical) env w terminate id hid hexists hok
    · rw [hnone] at hid
      cases hid
    · exact hcanonical

/-- A task id without hyphens is reported as revoked, and another id is sent. -/
theorem revokes_unknown_id :
    ¬ RevokesFound { Env.idle 0 with taskRows := (loggedTask ⟨46, by decide⟩).rows } {}
      "0000000000000000000000000000002e" (.bool false) := by
  intro h
  have hid : Uuid.parse "0000000000000000000000000000002e" = some ⟨46, by decide⟩ := by decide
  obtain ⟨id, hid', -, hsent⟩ :=
    h _ _ (revokeTask_success_iff.mpr ⟨rfl, rfl, ⟨_, hid, taskExists_loggedTask _⟩, rfl⟩)
  exact absurd (canonical_of_sent hid' hsent) (by decide)

end Revoke

end Taskowl
