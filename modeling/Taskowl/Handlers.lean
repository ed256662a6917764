import Taskowl.Models
import Taskowl.Py.Sha

/-!
# Event handlers

`consumer/handlers.py`: the eleven handlers, each building one row from an
event, and `insert_event`, which drops a row whose `dedupe_key` is taken. The
payload of a key is the row's type, subject and timestamp, separated by bars.
-/

namespace Taskowl

open Lib Py

/-- `event[k]`. -/
def getItem (event : Dict) (k : String) : Except PyErr Json :=
  match event.lookup k with
  | some v => .ok v
  | none => .error ⟨.keyError, k⟩

/-- `_parse_timestamp(timestamp)`. -/
def parseTimestamp : Json → Except PyErr (Option Int)
  | .null => .ok none
  | v => match fromTimestamp v with
    | .error e => .error e
    | .ok t => .ok (some t)

/-- `_parse_uuid(value)`. -/
def parseUuid (v : Json) : Option Uuid :=
  match Uuid.ofJson v with
  | .ok u => some u
  | .error _ => none

/-- `_event_timestamp(event)`. -/
def eventTimestamp (event : Dict) : Except PyErr (Option Int) :=
  parseTimestamp (event.get "timestamp")

/-- `"|".join("" if part is None else str(part) for part in parts)`. -/
def keyPayload (parts : List (Option String)) : String := "|".intercalate (parts.map (·.getD ""))

/-- `_dedupe_key(*parts)`. -/
def dedupeKey (parts : List (Option String)) : String := Sha.sha256hex (keyPayload parts)

def keyPart (lib : PyLib) : Json → Option String
  | .null => none
  | v => some (v.toStr lib)

/-- The parts of `_task_dedupe_key`. -/
def taskKeyParts (lib : PyLib) (type : TaskEventType) (taskId : Uuid) (hostname : Json)
    (sourceTs : Int) : List (Option String) :=
  [some type.text, some taskId.str, keyPart lib hostname, some (isoformat sourceTs)]

/-- `_task_dedupe_key(event_type, task_id, hostname, source_ts)`. -/
def taskDedupeKey (lib : PyLib) (type : TaskEventType) (taskId : Uuid) (hostname : Json)
    (sourceTs : Option Int) : Option String :=
  sourceTs.map fun ts => dedupeKey (taskKeyParts lib type taskId hostname ts)

def workerKeyParts (lib : PyLib) (type : WorkerEventType) (hostname : Json) (sourceTs : Int) :
    List (Option String) :=
  [some type.text, keyPart lib hostname, some (isoformat sourceTs)]

/-- `_worker_dedupe_key(event_type, hostname, source_ts)`. -/
def workerDedupeKey (lib : PyLib) (type : WorkerEventType) (hostname : Json)
    (sourceTs : Option Int) : Option String :=
  sourceTs.map fun ts => dedupeKey (workerKeyParts lib type hostname ts)

/-! ## The rows -/

/-- The columns that every task handler writes. -/
def taskRow (type : TaskEventType) (lib : PyLib) (now : Int) (event : Dict) :
    Except PyErr TaskEvent := do
  let sourceTs ← eventTimestamp event
  let uuid ← getItem event "uuid"
  let taskId ← Uuid.ofJson uuid
  let hostname ← bindStr 255 (event.get "hostname")
  return { eventType := type, taskId, timestamp := sourceTs.getD now, hostname,
           dedupeKey := taskDedupeKey lib type taskId (event.get "hostname") sourceTs }

/-- The row of a message: sent and received carry the same columns. -/
def messageRow (type : TaskEventType) (lib : PyLib) (now : Int) (event : Dict) :
    Except PyErr TaskEvent := do
  let row ← taskRow type lib now event
  let eta ← parseTimestamp (event.get "eta")
  let expires ← parseTimestamp (event.get "expires")
  let name ← bindStr 255 (event.get "name")
  let retries ← bindInt 31 (event.get "retries")
  let queue ← bindStr 255 (event.get "queue")
  return { row with name, args := .store (event.get "args"), kwargs := .store (event.get "kwargs"),
                    retries, eta, expires, queue, rootId := parseUuid (event.get "root_id"),
                    parentId := parseUuid (event.get "parent_id") }

def handleTaskSent := messageRow .sent

def handleTaskReceived := messageRow .received

def handleTaskStarted (lib : PyLib) (now : Int) (event : Dict) : Except PyErr TaskEvent := do
  let row ← taskRow .started lib now event
  let pid ← bindInt 31 (event.get "pid")
  return { row with pid }

def handleTaskSucceeded (lib : PyLib) (now : Int) (event : Dict) : Except PyErr TaskEvent := do
  let row ← taskRow .succeeded lib now event
  let runtime ← bindFloat (event.get "runtime")
  return { row with result := .store (event.get "result"), runtime }

/-- The row of an attempt that ended in an exception. -/
def exceptionRow (type : TaskEventType) (lib : PyLib) (now : Int) (event : Dict) :
    Except PyErr TaskEvent := do
  let row ← taskRow type lib now event
  let exc ← bindText (event.get "exception")
  let traceback ← bindText (event.get "traceback")
  return { row with exception := exc, traceback }

def handleTaskFailed := exceptionRow .failed

def handleTaskRevoked (lib : PyLib) (now : Int) (event : Dict) : Except PyErr TaskEvent := do
  let row ← taskRow .revoked lib now event
  let terminated ← bindBool (event.get "terminated")
  let signum ← bindInt 31 (event.get "signum")
  let expired ← bindBool (event.get "expired")
  return { row with terminated, signum, expired }

def handleTaskRetried := exceptionRow .retried

def handleTaskRejected (lib : PyLib) (now : Int) (event : Dict) : Except PyErr TaskEvent := do
  let row ← taskRow .rejected lib now event
  let requeue ← bindBool (event.get "requeue")
  return { row with requeue }

/-- The columns that every worker handler writes. -/
def workerRow (type : WorkerEventType) (lib : PyLib) (now : Int) (event : Dict) :
    Except PyErr WorkerEvent := do
  let sourceTs ← eventTimestamp event
  let hostname ← getItem event "hostname"
  let host ← required (bindStr 255 hostname)
  let freq ← bindFloat (event.get "freq")
  let swIdent ← bindStr 255 (event.get "sw_ident")
  let swVer ← bindStr 255 (event.get "sw_ver")
  let swSys ← bindStr 255 (event.get "sw_sys")
  return { eventType := type, hostname := host, timestamp := sourceTs.getD now, freq, swIdent,
           swVer, swSys, dedupeKey := workerDedupeKey lib type hostname sourceTs }

def handleWorkerOnline := workerRow .online

def handleWorkerHeartbeat (lib : PyLib) (now : Int) (event : Dict) : Except PyErr WorkerEvent := do
  let row ← workerRow .heartbeat lib now event
  let active ← bindInt 31 (event.get "active")
  let processed ← bindInt 63 (event.get "processed")
  return { row with active, processed }

def handleWorkerOffline := workerRow .offline

/-! ## Ingestion -/

/-- A handler of a task event or of a worker event. -/
inductive Handler where
  | task (row : PyLib → Int → Dict → Except PyErr TaskEvent)
  | worker (row : PyLib → Int → Dict → Except PyErr WorkerEvent)

/-- `TASK_EVENT_HANDLERS` and `WORKER_EVENT_HANDLERS`. -/
def handlers : String → Option Handler
  | "task-sent" => some (.task handleTaskSent)
  | "task-received" => some (.task handleTaskReceived)
  | "task-started" => some (.task handleTaskStarted)
  | "task-succeeded" => some (.task handleTaskSucceeded)
  | "task-failed" => some (.task handleTaskFailed)
  | "task-revoked" => some (.task handleTaskRevoked)
  | "task-retried" => some (.task handleTaskRetried)
  | "task-rejected" => some (.task handleTaskRejected)
  | "worker-online" => some (.worker handleWorkerOnline)
  | "worker-heartbeat" => some (.worker handleWorkerHeartbeat)
  | "worker-offline" => some (.worker handleWorkerOffline)
  | _ => none

/-- `insert_event(session, model, values)`, for a model with the given key. -/
def insertEvent {α : Type} (key : α → Option String) (t : Table α) (now : Int) (row : α) :
    Table α :=
  t.insertOnConflict key now row

/-- A handler on an event: the row it builds is inserted. -/
def Handler.run (h : Handler) (lib : PyLib) (now : Int) (event : Dict) (db : Db) :
    Except PyErr Db :=
  match h with
  | .task row => match row lib now event with
    | .error e => .error e
    | .ok r => .ok { db with taskEvents := insertEvent (·.dedupeKey) db.taskEvents now r }
  | .worker row => match row lib now event with
    | .error e => .error e
    | .ok r => .ok { db with workerEvents := insertEvent (·.dedupeKey) db.workerEvents now r }

/-- A handler that does not raise inserts the row it builds, and nothing else. -/
theorem Handler.run_cases {hd : Handler} {lib : PyLib} {now : Int} {event : Dict} {db db' : Db}
    (h : hd.run lib now event db = .ok db') :
    (∃ row r, hd = .task row ∧ row lib now event = .ok r ∧
      db' = { db with taskEvents := insertEvent (·.dedupeKey) db.taskEvents now r }) ∨
    ∃ row r, hd = .worker row ∧ row lib now event = .ok r ∧
      db' = { db with workerEvents := insertEvent (·.dedupeKey) db.workerEvents now r } := by
  unfold Handler.run at h
  split at h
  · next row =>
    split at h
    · cases h
    · next r hr =>
      cases h
      exact .inl ⟨row, r, rfl, hr, rfl⟩
  · next row =>
    split at h
    · cases h
    · next r hr =>
      cases h
      exact .inr ⟨row, r, rfl, hr, rfl⟩

theorem Handler.automations_run {hd : Handler} {lib : PyLib} {now : Int} {event : Dict}
    {db db' : Db} (h : hd.run lib now event db = .ok db') : db'.automations = db.automations := by
  obtain ⟨_, _, -, -, rfl⟩ | ⟨_, _, -, -, rfl⟩ := run_cases h <;> rfl

/-! ## What a handler writes -/

theorem bind_eq_ok {α β : Type} {x : Except PyErr α} {f : α → Except PyErr β} {b : β} :
    x >>= f = .ok b ↔ ∃ a, x = .ok a ∧ f a = .ok b := by
  cases x with
  | error e => exact ⟨nofun, fun ⟨_, h, _⟩ => nomatch h⟩
  | ok a => exact ⟨fun h => ⟨a, rfl, h⟩, fun ⟨_, h, hf⟩ => by cases h; exact hf⟩

theorem get_of_getItem {event : Dict} {k : String} {v : Json} (h : getItem event k = .ok v) :
    event.get k = v := by
  unfold getItem at h
  split at h
  · next w hw =>
    cases h
    unfold Dict.get
    rw [hw]
    rfl
  · cases h

theorem keyPart_of_bindStr {lib : PyLib} {n : Nat} {v : Json} {s : Option String}
    (h : bindStr n v = .ok s) : keyPart lib v = s := by
  cases v with
  | null => cases h; rfl
  | str t =>
    unfold bindStr at h
    split at h
    · next heq => cases heq
    · next heq =>
      cases heq
      split at h
      · cases h; rfl
      · cases h
    · next hstr => exact absurd rfl (hstr t)
  | _ => cases h

theorem taskRow_eq_ok {type : TaskEventType} {lib : PyLib} {now : Int} {event : Dict}
    {r : TaskEvent} : taskRow type lib now event = .ok r ↔
      ∃ sourceTs uuid taskId hostname, eventTimestamp event = .ok sourceTs ∧
        getItem event "uuid" = .ok uuid ∧ Uuid.ofJson uuid = .ok taskId ∧
        bindStr 255 (event.get "hostname") = .ok hostname ∧
        r = { eventType := type, taskId, timestamp := sourceTs.getD now, hostname,
              dedupeKey := sourceTs.map fun ts =>
                dedupeKey [some type.text, some taskId.str, hostname, some (isoformat ts)] } := by
  unfold taskRow
  simp only [bind_eq_ok]
  constructor
  · rintro ⟨ts, hts, uuid, huuid, id, hid, host, hhost, hr⟩
    refine ⟨ts, uuid, id, host, hts, huuid, hid, hhost, ?_⟩
    cases hr
    simp only [taskDedupeKey, taskKeyParts, keyPart_of_bindStr hhost]
  · rintro ⟨ts, uuid, id, host, hts, huuid, hid, hhost, rfl⟩
    refine ⟨ts, hts, uuid, huuid, id, hid, host, hhost, ?_⟩
    simp only [taskDedupeKey, taskKeyParts, keyPart_of_bindStr hhost]
    rfl

theorem workerRow_eq_ok {type : WorkerEventType} {lib : PyLib} {now : Int} {event : Dict}
    {r : WorkerEvent} : workerRow type lib now event = .ok r ↔
      ∃ sourceTs hostname host freq swIdent swVer swSys, eventTimestamp event = .ok sourceTs ∧
        getItem event "hostname" = .ok hostname ∧ bindStr 255 hostname = .ok (some host) ∧
        bindFloat (event.get "freq") = .ok freq ∧ bindStr 255 (event.get "sw_ident") = .ok swIdent ∧
        bindStr 255 (event.get "sw_ver") = .ok swVer ∧
        bindStr 255 (event.get "sw_sys") = .ok swSys ∧
        r = { eventType := type, hostname := host, timestamp := sourceTs.getD now, freq, swIdent,
              swVer, swSys, dedupeKey := sourceTs.map fun ts =>
                dedupeKey [some type.text, some host, some (isoformat ts)] } := by
  have hreq : ∀ {x : Except PyErr (Option String)} {host : String},
      required x = .ok host ↔ x = .ok (some host) := by
    intro x host
    unfold required
    rcases x with e | (_ | s)
    · exact ⟨nofun, nofun⟩
    · exact ⟨nofun, nofun⟩
    · exact ⟨fun h => by cases h; rfl, fun h => by cases h; rfl⟩
  unfold workerRow
  simp only [bind_eq_ok, hreq]
  constructor
  · rintro ⟨ts, hts, v, hv, host, hhost, freq, hf, i, hi, ver, hver, sys, hsys, hr⟩
    refine ⟨ts, v, host, freq, i, ver, sys, hts, hv, hhost, hf, hi, hver, hsys, ?_⟩
    cases hr
    simp only [workerDedupeKey, workerKeyParts, keyPart_of_bindStr hhost]
  · rintro ⟨ts, v, host, freq, i, ver, sys, hts, hv, hhost, hf, hi, hver, hsys, rfl⟩
    refine ⟨ts, hts, v, hv, host, hhost, freq, hf, i, hi, ver, hver, sys, hsys, ?_⟩
    simp only [workerDedupeKey, workerKeyParts, keyPart_of_bindStr hhost]
    rfl

/-- An event that carries a timestamp. -/
def Stamped (event : Dict) : Prop := event.get "timestamp" ≠ .null

theorem eventTimestamp_stamped {event : Dict} {ts : Option Int} (hs : Stamped event)
    (h : eventTimestamp event = .ok ts) : ∃ t, ts = some t ∧ InRange t := by
  unfold eventTimestamp parseTimestamp at h
  split at h
  · next hnull => exact absurd hnull hs
  · split at h
    · cases h
    · next t ht =>
      cases h
      exact ⟨t, rfl, fromTimestamp_inRange ht⟩

/-- The five columns a handler takes from `taskRow`. -/
def SameColumns (r b : TaskEvent) : Prop :=
  r.eventType = b.eventType ∧ r.taskId = b.taskId ∧ r.timestamp = b.timestamp ∧
    r.hostname = b.hostname ∧ r.dedupeKey = b.dedupeKey

/-- A handler adds columns of its own to `taskRow`, from the event alone. -/
structure WritesTask (type : TaskEventType)
    (row : PyLib → Int → Dict → Except PyErr TaskEvent) : Prop where
  base : ∀ {lib now event r}, row lib now event = .ok r →
    ∃ b, taskRow type lib now event = .ok b ∧ SameColumns r b
  stable : ∀ {lib now lib' now' event r b}, row lib now event = .ok r →
    taskRow type lib now event = .ok b → taskRow type lib' now' event = .ok b →
    row lib' now' event = .ok r

structure WritesWorker (type : WorkerEventType)
    (row : PyLib → Int → Dict → Except PyErr WorkerEvent) : Prop where
  base : ∀ {lib now event r}, row lib now event = .ok r → ∃ b,
    workerRow type lib now event = .ok b ∧ r.eventType = b.eventType ∧ r.hostname = b.hostname ∧
      r.timestamp = b.timestamp ∧ r.dedupeKey = b.dedupeKey
  stable : ∀ {lib now lib' now' event r b}, row lib now event = .ok r →
    workerRow type lib now event = .ok b → workerRow type lib' now' event = .ok b →
    row lib' now' event = .ok r

theorem WritesTask.of_bind {type : TaskEventType} {g : Dict → TaskEvent → Except PyErr TaskEvent}
    (hg : ∀ {event b r}, g event b = .ok r → SameColumns r b) :
    WritesTask type fun lib now event => taskRow type lib now event >>= g event where
  base h := by
    obtain ⟨b, hb, hr⟩ := bind_eq_ok.mp h
    exact ⟨b, hb, hg hr⟩
  stable h hb hb' := by
    obtain ⟨b, hb₀, hr⟩ := bind_eq_ok.mp h
    rw [hb] at hb₀
    cases hb₀
    exact bind_eq_ok.mpr ⟨_, hb', hr⟩

theorem writes_message (type : TaskEventType) : WritesTask type (messageRow type) :=
  .of_bind fun h => by
    simp only [bind_eq_ok] at h
    obtain ⟨eta, -, expires, -, name, -, retries, -, queue, -, hr⟩ := h
    cases hr
    exact ⟨rfl, rfl, rfl, rfl, rfl⟩

theorem writes_exception (type : TaskEventType) : WritesTask type (exceptionRow type) :=
  .of_bind fun h => by
    simp only [bind_eq_ok] at h
    obtain ⟨exc, -, traceback, -, hr⟩ := h
    cases hr
    exact ⟨rfl, rfl, rfl, rfl, rfl⟩

theorem writes_started : WritesTask .started handleTaskStarted :=
  .of_bind fun h => by
    obtain ⟨pid, -, hr⟩ := bind_eq_ok.mp h
    cases hr
    exact ⟨rfl, rfl, rfl, rfl, rfl⟩

theorem writes_succeeded : WritesTask .succeeded handleTaskSucceeded :=
  .of_bind fun h => by
    obtain ⟨runtime, -, hr⟩ := bind_eq_ok.mp h
    cases hr
    exact ⟨rfl, rfl, rfl, rfl, rfl⟩

theorem writes_revoked : WritesTask .revoked handleTaskRevoked :=
  .of_bind fun h => by
    simp only [bind_eq_ok] at h
    obtain ⟨terminated, -, signum, -, expired, -, hr⟩ := h
    cases hr
    exact ⟨rfl, rfl, rfl, rfl, rfl⟩

theorem writes_rejected : WritesTask .rejected handleTaskRejected :=
  .of_bind fun h => by
    obtain ⟨requeue, -, hr⟩ := bind_eq_ok.mp h
    cases hr
    exact ⟨rfl, rfl, rfl, rfl, rfl⟩

theorem writes_heartbeat : WritesWorker .heartbeat handleWorkerHeartbeat where
  base h := by
    simp only [handleWorkerHeartbeat, bind_eq_ok] at h
    obtain ⟨b, hb, active, -, processed, -, hr⟩ := h
    cases hr
    exact ⟨b, hb, rfl, rfl, rfl, rfl⟩
  stable h hb hb' := by
    unfold handleWorkerHeartbeat at h ⊢
    rw [hb] at h
    rw [hb']
    exact h

theorem writes_worker (type : WorkerEventType) : WritesWorker type (workerRow type) where
  base h := ⟨_, h, rfl, rfl, rfl, rfl⟩
  stable h hb hb' := by
    rw [hb] at h
    rw [hb', h]

theorem writesTask_of_handlers {t : String} {row} (h : handlers t = some (.task row)) :
    ∃ type, WritesTask type row := by
  unfold handlers at h
  split at h
  · cases h; exact ⟨_, writes_message _⟩
  · cases h; exact ⟨_, writes_message _⟩
  · cases h; exact ⟨_, writes_started⟩
  · cases h; exact ⟨_, writes_succeeded⟩
  · cases h; exact ⟨_, writes_exception _⟩
  · cases h; exact ⟨_, writes_revoked⟩
  · cases h; exact ⟨_, writes_exception _⟩
  · cases h; exact ⟨_, writes_rejected⟩
  all_goals cases h

theorem writesWorker_of_handlers {t : String} {row} (h : handlers t = some (.worker row)) :
    ∃ type, WritesWorker type row := by
  unfold handlers at h
  split at h
  iterate 8 · cases h
  · cases h; exact ⟨_, writes_worker _⟩
  · cases h; exact ⟨_, writes_heartbeat⟩
  · cases h; exact ⟨_, writes_worker _⟩
  · cases h

/-- Only a message records a name, and the root and parent of its event; it has no runtime. -/
theorem message_or_bare {lib : PyLib} {now : Int} {event : Dict} {r : TaskEvent} {t : String} {row}
    (h : handlers t = some (.task row)) (hr : row lib now event = .ok r) :
    ((r.eventType = .sent ∨ r.eventType = .received) ∧ r.runtime = none ∧
      r.rootId = parseUuid (event.get "root_id") ∧
      r.parentId = parseUuid (event.get "parent_id")) ∨
      (r.name = none ∧ r.rootId = none ∧ r.parentId = none) := by
  have hbase : ∀ {type b}, taskRow type lib now event = .ok b →
      b.eventType = type ∧ b.runtime = none ∧ b.name = none ∧ b.rootId = none ∧
        b.parentId = none := by
    intro type b hb
    obtain ⟨ts, uuid, id, host, -, -, -, -, rfl⟩ := taskRow_eq_ok.mp hb
    exact ⟨rfl, rfl, rfl, rfl, rfl⟩
  have hmessage : ∀ type, type = .sent ∨ type = .received →
      messageRow type lib now event = .ok r →
      (r.eventType = .sent ∨ r.eventType = .received) ∧ r.runtime = none ∧
        r.rootId = parseUuid (event.get "root_id") ∧
        r.parentId = parseUuid (event.get "parent_id") := by
    intro type htype hrow
    simp only [messageRow, bind_eq_ok] at hrow
    obtain ⟨b, hb, eta, -, expires, -, name, -, retries, -, queue, -, hr⟩ := hrow
    cases hr
    obtain ⟨htype', hruntime, -⟩ := hbase hb
    exact ⟨by rw [← htype'] at htype; exact htype, hruntime, rfl, rfl⟩
  have hexception : ∀ type, exceptionRow type lib now event = .ok r →
      r.name = none ∧ r.rootId = none ∧ r.parentId = none := by
    intro type hrow
    simp only [exceptionRow, bind_eq_ok] at hrow
    obtain ⟨b, hb, exc, -, traceback, -, hr⟩ := hrow
    cases hr
    exact (hbase hb).2.2
  unfold handlers at h
  split at h
  · cases h; exact .inl (hmessage _ (.inl rfl) hr)
  · cases h; exact .inl (hmessage _ (.inr rfl) hr)
  · cases h
    simp only [handleTaskStarted, bind_eq_ok] at hr
    obtain ⟨b, hb, pid, -, hr⟩ := hr
    cases hr
    exact .inr (hbase hb).2.2
  · cases h
    simp only [handleTaskSucceeded, bind_eq_ok] at hr
    obtain ⟨b, hb, runtime, -, hr⟩ := hr
    cases hr
    exact .inr (hbase hb).2.2
  · cases h; exact .inr (hexception _ hr)
  · cases h
    simp only [handleTaskRevoked, bind_eq_ok] at hr
    obtain ⟨b, hb, terminated, -, signum, -, expired, -, hr⟩ := hr
    cases hr
    exact .inr (hbase hb).2.2
  · cases h; exact .inr (hexception _ hr)
  · cases h
    simp only [handleTaskRejected, bind_eq_ok] at hr
    obtain ⟨b, hb, requeue, -, hr⟩ := hr
    cases hr
    exact .inr (hbase hb).2.2
  all_goals cases h

end Taskowl
