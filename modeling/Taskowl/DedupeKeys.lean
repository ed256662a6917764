import Taskowl.Ingest

/-!
# Dedupe keys

A dedupe key is the hash of an event's fields, separated by bars and not
escaped. Only the hostname may contain a bar, and neither the fields before it
nor the time after it do, so short of a collision of the hash two keys are
equal only if all fields are.
-/

namespace Taskowl

open Lib Py

/-- The hash does not collide on the payloads of the two keys. -/
def HashApart (parts parts' : List (Option String)) : Prop :=
  Sha.sha256hex (keyPayload parts) = Sha.sha256hex (keyPayload parts') →
    keyPayload parts = keyPayload parts'

theorem HashApart.key_eq_iff {parts parts' : List (Option String)}
    (h : HashApart parts parts') :
    dedupeKey parts = dedupeKey parts' ↔ keyPayload parts = keyPayload parts' :=
  ⟨h, congrArg Sha.sha256hex⟩

section Parts

variable {lib : PyLib}

theorem keyPart_jsonOf (hostname : Option String) :
    keyPart lib (jsonOf .str hostname) = hostname := by
  cases hostname <;> rfl

theorem payload_taskKeyParts (type : TaskEventType) (taskId : Uuid) (hostname : Option String)
    (ts : Int) : keyPayload (taskKeyParts lib type taskId (jsonOf .str hostname) ts) =
      (EventRow.task { eventType := type, taskId, timestamp := ts, hostname }).payload := by
  rw [taskKeyParts, keyPart_jsonOf]
  rfl

theorem payload_workerKeyParts (type : WorkerEventType) (hostname : String) (ts : Int) :
    keyPayload (workerKeyParts lib type (.str hostname) ts) =
      (EventRow.worker { eventType := type, hostname, timestamp := ts }).payload := rfl

theorem inRange_eventTimestamp {event : Dict} {ts : Int}
    (h : eventTimestamp event = .ok (some ts)) : InRange ts := by
  have hs : Stamped event := by
    intro hnull
    rw [eventTimestamp, hnull] at h
    cases h
  obtain ⟨t, ht, hrange⟩ := eventTimestamp_stamped hs h
  exact Option.some.inj ht ▸ hrange

end Parts

/-- **Dedupe keys identify events: those of two task events, and those of two worker events, are
equal exactly if the types, the task ids, the hostnames and the times in microseconds are.** -/
theorem dedupeKey_eq_iff (lib : PyLib) {event event' : Dict} {ts ts' : Int}
    (hts : eventTimestamp event = .ok (some ts)) (hts' : eventTimestamp event' = .ok (some ts')) :
    (∀ (type type' : TaskEventType) (taskId taskId' : Uuid) (hostname hostname' : Option String),
      HashApart (taskKeyParts lib type taskId (jsonOf .str hostname) ts)
        (taskKeyParts lib type' taskId' (jsonOf .str hostname') ts') →
      (taskDedupeKey lib type taskId (jsonOf .str hostname) (some ts) =
          taskDedupeKey lib type' taskId' (jsonOf .str hostname') (some ts') ↔
        type = type' ∧ taskId = taskId' ∧ hostname.getD "" = hostname'.getD "" ∧ ts = ts')) ∧
    (∀ (type type' : WorkerEventType) (hostname hostname' : String),
      HashApart (workerKeyParts lib type (.str hostname) ts)
        (workerKeyParts lib type' (.str hostname') ts') →
      (workerDedupeKey lib type (.str hostname) (some ts) =
          workerDedupeKey lib type' (.str hostname') (some ts') ↔
        type = type' ∧ hostname = hostname' ∧ ts = ts')) := by
  have hrange := inRange_eventTimestamp hts
  have hrange' := inRange_eventTimestamp hts'
  constructor
  · intro type type' taskId taskId' hostname hostname' hsha
    unfold taskDedupeKey
    rw [Option.map_some, Option.map_some, Option.some.injEq, hsha.key_eq_iff,
      payload_taskKeyParts, payload_taskKeyParts]
    exact payload_task_eq_iff hrange hrange'
  · intro type type' hostname hostname' hsha
    unfold workerDedupeKey
    rw [Option.map_some, Option.map_some, Option.some.injEq, hsha.key_eq_iff,
      payload_workerKeyParts, payload_workerKeyParts]
    exact payload_worker_eq_iff hrange hrange'

/-- A bar in the hostname does not blur the keys. -/
theorem dedupeKey_bar :
    taskDedupeKey (Env.idle 0).lib .sent ⟨47, by decide⟩ (.str "a|b") (some 5000000) ≠
        taskDedupeKey (Env.idle 0).lib .sent ⟨47, by decide⟩ (.str "a") (some 5000000) ∧
      workerDedupeKey (Env.idle 0).lib .online (.str "a|b") (some 5000000) ≠
        workerDedupeKey (Env.idle 0).lib .online (.str "a") (some 5000000) := by
  have hts : eventTimestamp [("timestamp", .int 5)] = .ok (some 5000000) := by decide
  obtain ⟨htask, hworker⟩ := dedupeKey_eq_iff (Env.idle 0).lib hts hts
  constructor
  · intro h
    have hkey := htask .sent .sent ⟨47, by decide⟩ ⟨47, by decide⟩ (some "a|b") (some "a")
      fun hhash => absurd hhash (by decide +kernel)
    exact absurd (hkey.mp h).2.2.1 (by decide)
  · intro h
    have hkey := hworker .online .online "a|b" "a"
      fun hhash => absurd hhash (by decide +kernel)
    exact absurd (hkey.mp h).2.1 (by decide)

end Taskowl
