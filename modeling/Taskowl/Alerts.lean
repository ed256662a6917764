import Taskowl.Builtin

/-!
# The seeded alerts against the legacy alerter

A `Watch` runs the consumer process on the seeded automations beside an
`AlertNotifier`. Both remember the hosts already alerted, but the notifier
also remembers those a `worker-offline` event named, and the engine does not.
-/

namespace Taskowl

open Lib Py

/-! ## What an alert is about -/

inductive Subject where
  | task (id : Json)
  | worker (hostname : Json)
  deriving DecidableEq, Repr

def attachmentFields : Json → List Json
  | .obj payload => match Dict.get payload "attachments" with
    | .arr [.obj attachment] => match Dict.get attachment "fields" with
      | .arr fields => fields
      | _ => []
    | _ => []
  | _ => []

def fieldValue (title : String) : List Json → Option Json
  | [] => none
  | .obj f :: fields =>
    if Dict.get f "title" = .str title then some (Dict.get f "value") else fieldValue title fields
  | _ :: fields => fieldValue title fields

/-- The task an alert names, or else the worker. -/
def subjectOf : Effect → Option Subject
  | .post _ payload =>
    let fields := attachmentFields payload
    ((fieldValue "Task ID" fields).map .task).or ((fieldValue "Worker" fields).map .worker)
  | _ => none

section Subjects

variable {lib : PyLib} {event : Dict} {url : Json} {s : String}

/-- `{event.k}` alone gives way to the value. -/
theorem substitute_str (path : List Char)
    (h : resolveField event (String.ofList path) = .str s) :
    String.ofList (substitute lib event path ++ []) = s := by
  unfold substitute
  rw [h, List.append_nil]
  exact String.ofList_toList

theorem interpolateStr_uuid (h : event.get "uuid" = .str s) :
    interpolateStr lib event "\x7bevent.uuid\x7d" = s := substitute_str "uuid".toList h

theorem interpolateStr_hostname (h : event.get "hostname" = .str s) :
    interpolateStr lib event "\x7bevent.hostname\x7d" = s := substitute_str "hostname".toList h

theorem toStr_or_unknown (hs : s ≠ "") : ((Json.str s).or (.str "unknown")).toStr lib = s := by
  rw [or_of_truthy (truthy_str hs)]
  rfl

theorem subjectOf_taskFailed (h : event.get "uuid" = .str s) (hs : s ≠ "") :
    subjectOf (.post url (buildTaskFailedPayload lib event)) = some (.task (.str s)) := by
  show some (Subject.task (.str (((event.get "uuid").or (.str "unknown")).toStr lib))) = _
  rw [h, toStr_or_unknown hs]

theorem subjectOf_slowTask (h : event.get "uuid" = .str s) (hs : s ≠ "") :
    subjectOf (.post url (buildSlowTaskPayload lib event)) = some (.task (.str s)) := by
  show some (Subject.task (.str (((event.get "uuid").or (.str "unknown")).toStr lib))) = _
  rw [h, toStr_or_unknown hs]

theorem subjectOf_workerOffline (hs : s ≠ "") :
    subjectOf (.post url (buildWorkerOfflinePayload lib s)) = some (.worker (.str s)) := by
  show some (Subject.worker (.str (((Json.str s).or (.str "unknown")).toStr lib))) = _
  rw [toStr_or_unknown hs]

end Subjects

/-! ## The two alerters side by side -/

structure Watch where
  engine : System
  legacy : AlertNotifier
  /-- Ghost: the hosts a `worker-offline` event has named since they were last seen online. -/
  named : List String := []

inductive WatchOp where
  | event (env : Env) (scan : Scan) (event : Dict)
  | sweep (env : Env) (scan : Scan)

def WatchOp.env : WatchOp → Env
  | .event env _ _ => env
  | .sweep env _ => env

/-- The type of an event that `_handle_event` stores, and the database with its row. -/
def System.stored (s : System) (env : Env) (event : Dict) : Option (String × Db) :=
  match handlerOf event with
  | none => none
  | some (type, h) => match h.run env.lib env.now event s.db with
    | .error _ => none
    | .ok db => some (type, db)

def SeenOnline (type : String) : Prop := type = "worker-online" ∨ type = "worker-heartbeat"

instance (type : String) : Decidable (SeenOnline type) := inferInstanceAs (Decidable (_ ∨ _))

/-- `mark_online` for a worker that is up, then `notify_event`. -/
def AlertNotifier.receive (lib : PyLib) (settings : Settings) (n : AlertNotifier) (type : String)
    (event : Dict) : AlertNotifier × List Effect :=
  let n := if SeenOnline type then
      match AlertNotifier.textOf (event.get "hostname") with
      | some h => n.markOnline h
      | none => n
    else n
  n.notifyEvent lib settings type event

def namedAfter (named : List String) (type : String) (event : Dict) : List String :=
  match event.get "hostname" with
  | .str h =>
    if SeenOnline type then named.filter (· != h)
    else if type = "worker-offline" then named ++ [h] else named
  | _ => named

/-- The schedule check of `_evaluate_periodic`. -/
def isDue (env : Env) (a : Row Automation) (runs : Runs) : Bool :=
  match scheduleOf a.val with
  | none => false
  | some schedule => match lastRunTime a.id runs with
    | none => true
    | some lastRun => within schedule lastRun env.now == .ok false

namespace Watch

/-- What the process makes of a step. -/
def engineStep (w : Watch) : WatchOp → System
  | .event env scan event => (w.engine.handle env scan event).system
  | .sweep env scan => w.engine.tick env scan

/-- What the notifier makes of it; a check that raises alerts nobody. -/
def legacyStep (w : Watch) : WatchOp → AlertNotifier × List Effect
  | .event env _ event => match w.engine.stored env event with
    | none => (w.legacy, [])
    | some (type, _) => w.legacy.receive env.lib env.settings type event
  | .sweep env scan =>
    match w.legacy.checkWorkers env.lib env.settings (scan.order w.engine.db.workerEvents.rows)
      env.now with
    | .error _ => (w.legacy, [])
    | .ok r => r

def namedStep (w : Watch) : WatchOp → List String
  | .event env _ event => match w.engine.stored env event with
    | none => w.named
    | some (type, _) => namedAfter w.named type event
  | .sweep _ _ => w.named

def step (w : Watch) (op : WatchOp) : Watch :=
  ⟨w.engineStep op, (w.legacyStep op).1, w.namedStep op⟩

def engineAlerts (w : Watch) (op : WatchOp) : List Effect :=
  (w.engineStep op).world.effects.drop w.engine.world.effects.length

/-- At this step both send as many alerts, about the same tasks and workers. -/
def AlertsAgree (w : Watch) (op : WatchOp) : Prop :=
  (w.engineAlerts op).map subjectOf = (w.legacyStep op).2.map subjectOf

/-- A sweep comes when the schedule of the sweep automation is due. -/
def Due (w : Watch) : WatchOp → Prop
  | .event _ _ _ => True
  | .sweep env _ => ∀ a ∈ w.engine.db.automations.rows, matchesPeriodic a = true →
    isDue env a w.engine.db.runs.rows = true

/-- With worker alerts on: a `worker-offline` event names a host not alerted since it was last
seen online, and a sweep finds stale no host that such an event has named since; neither has an
empty name. -/
def Undoubled (w : Watch) (op : WatchOp) : Prop :=
  op.env.settings.alertOnWorkerOffline = true → match op with
    | .event env _ event => ∀ db h, w.engine.stored env event = some ("worker-offline", db) →
      event.get "hostname" = .str h →
      h ≠ "" ∧ h ∉ w.engine.world.offlineNotified ∧ h ∉ w.named
    | .sweep env scan => ∀ timeout,
      secondsInt env.settings.workerOfflineTimeoutSeconds = .ok timeout →
      ∀ h ∈ hostnames (scan.order w.engine.db.workerEvents.rows),
        workerStale (scan.order w.engine.db.workerEvents.rows) h env.now timeout = true →
        h ≠ "" ∧ h ∉ w.named

end Watch

/-! ## What a stored event carries -/

theorem System.stored_eq_some {s : System} {env : Env} {event : Dict} {type : String} {db : Db}
    (h : s.stored env event = some (type, db)) :
    ∃ hd, handlerOf event = some (type, hd) ∧ hd.run env.lib env.now event s.db = .ok db := by
  unfold System.stored at h
  split at h
  · cases h
  · next type' hd hh =>
    split at h
    · cases h
    · next hrun =>
      cases h
      exact ⟨hd, hh, hrun⟩

theorem uuid_of_stored {row : PyLib → Int → Dict → Except PyErr TaskEvent} (type : String)
    (hh : handlers type = some (.task row)) {lib : PyLib} {now : Int} {event : Dict} {db db' : Db}
    (h : Handler.run (.task row) lib now event db = .ok db') :
    ∃ s, event.get "uuid" = .str s ∧ s ≠ "" := by
  obtain ⟨t, hw⟩ := writesTask_of_handlers hh
  obtain ⟨_, r, ⟨⟩, hr, -⟩ | ⟨_, _, hrow, -⟩ := Handler.run_cases h
  · obtain ⟨b, hb, -⟩ := hw.base hr
    obtain ⟨-, uuid, id, -, -, hget, hid, -, -⟩ := taskRow_eq_ok.mp hb
    have hu := get_of_getItem hget
    cases uuid with
    | str s =>
      refine ⟨s, hu, ?_⟩
      rintro rfl
      have hparse : Uuid.parse "" = none := by decide
      unfold Uuid.ofJson at hid
      dsimp only at hid
      rw [hparse] at hid
      cases hid
    | _ => cases hid
  · cases hrow

theorem hostname_of_stored {row : PyLib → Int → Dict → Except PyErr WorkerEvent} (type : String)
    (hh : handlers type = some (.worker row)) {lib : PyLib} {now : Int} {event : Dict}
    {db db' : Db} (h : Handler.run (.worker row) lib now event db = .ok db') :
    ∃ s, event.get "hostname" = .str s := by
  obtain ⟨t, hw⟩ := writesWorker_of_handlers hh
  obtain ⟨_, _, hrow, -⟩ | ⟨_, r, ⟨⟩, hr, -⟩ := Handler.run_cases h
  · cases hrow
  · obtain ⟨b, hb, -⟩ := hw.base hr
    obtain ⟨-, host, name, -, -, -, -, -, hget, hbind, -⟩ := workerRow_eq_ok.mp hb
    have hu := get_of_getItem hget
    cases host with
    | str s => exact ⟨s, hu⟩
    | _ => cases hbind

end Taskowl
