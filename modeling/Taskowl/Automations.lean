import Taskowl.Models

/-!
# Automation definitions

`automations.py`: `_validate_automation`, `_serialize` and the operations that
write the `automations` table. An operation that returns an error dict or
raises leaves the database it was given; `seed_builtin_automations` writes
through one transaction.
-/

namespace Taskowl

open Lib Py

/-- `_VALID_TRIGGERS`. -/
def validTriggers : List String := ["event", "periodic"]

/-- `_VALID_EVENT_TYPES`. -/
def validEventTypes : List String :=
  ["task-sent", "task-received", "task-started", "task-succeeded", "task-failed", "task-revoked",
    "task-retried", "task-rejected", "worker-online", "worker-heartbeat", "worker-offline"]

/-- `list(xs)` of strings without quotes, as an f-string prints it. -/
def strList (xs : List String) : String :=
  "[" ++ ", ".intercalate (xs.map fun s => "'" ++ s ++ "'") ++ "]"

def isOneOf (v : Json) (xs : List String) : Bool :=
  match v with
  | .str s => s ∈ xs
  | _ => false

/-- `isinstance(v, int)`, with its value: a `bool` is an `int`. -/
def asInt : Json → Option Int
  | .int i => some i
  | .bool b => some (if b then 1 else 0)
  | _ => none

def isPositiveInt (v : Json) : Bool :=
  match asInt v with
  | some i => decide (0 < i)
  | none => false

def isNonnegInt (v : Json) : Bool :=
  match asInt v with
  | some i => decide (0 ≤ i)
  | none => false

/-- The trigger checks of `_validate_automation`. -/
def validateTrigger (data : Dict) : Option String :=
  if !isOneOf (data.get "trigger_type") validTriggers then
    some s!"trigger_type must be one of {strList validTriggers}"
  else if data.get "trigger_type" = .str "event" then
    if !(data.get "event_type").truthy then some "event_type is required for event triggers"
    else if !isOneOf (data.get "event_type") validEventTypes then
      some s!"event_type must be one of {strList validEventTypes}"
    else none
  else if !isPositiveInt (data.get "schedule_seconds") then
    some "schedule_seconds must be a positive integer for periodic triggers"
  else none

/-- The safety-knob checks of `_validate_automation`. -/
def validateLimits (data : Dict) : Option String :=
  let cooldown := data.get "cooldown_seconds"
  let maxRuns := data.get "max_runs_per_window"
  let window := data.get "window_seconds"
  if cooldown ≠ .null ∧ isNonnegInt cooldown = false then
    some "cooldown_seconds must be a non-negative integer"
  else if maxRuns ≠ .null ∧ isPositiveInt maxRuns = false then
    some "max_runs_per_window must be a positive integer"
  else if maxRuns ≠ .null ∧ isPositiveInt window = false then
    some "window_seconds is required when max_runs_per_window is set"
  else none

/-- `_validate_automation(data)`: an error message or `none`. -/
def validateAutomation (data : Dict) : Option String :=
  match validateTrigger data with
  | some error => some error
  | none => validateLimits data

/-- `_serialize(automation)`. -/
def serialize (a : Row Automation) : Dict :=
  [("id", .int a.id), ("name", .str a.val.name), ("enabled", .bool a.val.enabled),
    ("trigger_type", .str a.val.triggerType), ("event_type", jsonOf .str a.val.eventType),
    ("schedule_seconds", jsonOf .int a.val.scheduleSeconds),
    ("conditions", a.val.conditions.read), ("actions", a.val.actions.read),
    ("cooldown_seconds", jsonOf .int a.val.cooldownSeconds),
    ("max_runs_per_window", jsonOf .int a.val.maxRunsPerWindow),
    ("window_seconds", jsonOf .int a.val.windowSeconds),
    ("circuit_breaker", a.val.circuitBreaker.read), ("created_at", .str (isoformat a.createdAt)),
    ("updated_at", .str (isoformat a.val.updatedAt))]

/-! ## Operations -/

inductive OpReply where
  | error (msg : String)
  | ok (result : Json)
  deriving DecidableEq, Repr

/-- The columns of a new row, bound at the flush. An explicit `None` for `enabled` takes the
column's default. -/
def bindNew (now : Int) (data : Dict) : Except PyErr Automation := do
  let name ← required (bindStr 255 (data.get "name"))
  let enabled ← bindBool (data.get "enabled")
  let triggerType ← required (bindStr 20 (data.get "trigger_type"))
  let eventType ← bindStr 50 (data.get "event_type")
  let scheduleSeconds ← bindInt 31 (data.get "schedule_seconds")
  let cooldownSeconds ← bindInt 31 (data.get "cooldown_seconds")
  let maxRunsPerWindow ← bindInt 31 (data.get "max_runs_per_window")
  let windowSeconds ← bindInt 31 (data.get "window_seconds")
  return { name, enabled := enabled.getD true, triggerType, eventType, scheduleSeconds,
           conditions := .store (data.get "conditions"), actions := .store (data.get "actions"),
           cooldownSeconds, maxRunsPerWindow, windowSeconds,
           circuitBreaker := .store (data.get "circuit_breaker"), updatedAt := now }

/-- `create_automation(data)`. -/
def createAutomation (now : Int) (data : Dict) (db : Db) : Db × Except PyErr OpReply :=
  match validateAutomation data with
  | some error => (db, .ok (.error error))
  | none =>
    if !(data.get "name").truthy then (db, .ok (.error "name is required"))
    else match required (bindText (data.get "name")) with
      | .error e => (db, .error e)
      | .ok name =>
        if name ∈ db.automations.vals.map (·.name) then
          (db, .ok (.error s!"Automation with name '{name}' already exists"))
        else match bindNew now data with
          | .error e => (db, .error e)
          | .ok a =>
            ({ db with automations := db.automations.insert now a },
              .ok (.ok (.obj (serialize ⟨db.automations.nextId, now, a⟩))))

/-- The value a partial update binds for a column: the new one, or the stored one. -/
def bindSet {α : Type} (merged : Dict) (field : String) (bind : Json → Except PyErr α) (old : α) :
    Except PyErr α :=
  match merged.lookup field with
  | none => .ok old
  | some v => bind v

/-- `setattr` over the merged fields, bound at the flush. A field that is no column never
reaches the row. -/
def bindUpdate (merged : Dict) (a : Automation) : Except PyErr Automation := do
  let name ← bindSet merged "name" (fun v => required (bindStr 255 v)) a.name
  let enabled ← bindSet merged "enabled" (fun v => required (bindBool v)) a.enabled
  let triggerType ← bindSet merged "trigger_type" (fun v => required (bindStr 20 v)) a.triggerType
  let eventType ← bindSet merged "event_type" (bindStr 50) a.eventType
  let scheduleSeconds ← bindSet merged "schedule_seconds" (bindInt 31) a.scheduleSeconds
  let conditions ← bindSet merged "conditions" (fun v => .ok (.store v)) a.conditions
  let actions ← bindSet merged "actions" (fun v => .ok (.store v)) a.actions
  let cooldownSeconds ← bindSet merged "cooldown_seconds" (bindInt 31) a.cooldownSeconds
  let maxRunsPerWindow ← bindSet merged "max_runs_per_window" (bindInt 31) a.maxRunsPerWindow
  let windowSeconds ← bindSet merged "window_seconds" (bindInt 31) a.windowSeconds
  let circuitBreaker ← bindSet merged "circuit_breaker" (fun v => .ok (.store v)) a.circuitBreaker
  return { name, enabled, triggerType, eventType, scheduleSeconds, conditions, actions,
           cooldownSeconds, maxRunsPerWindow, windowSeconds, circuitBreaker,
           updatedAt := a.updatedAt }

/-- `onupdate=func.now()`: an UPDATE is emitted when a column changed. -/
def touch (now : Int) (old new : Automation) : Automation :=
  if new = old then old else { new with updatedAt := now }

/-- The fields of a request that are not `None`. -/
def notNone (data : Dict) : Dict := Dict.merge [] (data.filter fun kv => kv.2 != .null)

/-- `update_automation(id, data)`. -/
def updateAutomation (now : Int) (id : Nat) (data : Dict) (db : Db) : Db × Except PyErr OpReply :=
  let merged := notNone data
  if merged.isEmpty then (db, .ok (.error "No fields to update"))
  else match db.automations.get? id with
    | none => (db, .ok (.error s!"Automation not found: {id}"))
    | some a => match validateAutomation (Dict.merge (serialize a) merged) with
      | some error => (db, .ok (.error error))
      | none => match bindUpdate merged a.val with
        | .error e => (db, .error e)
        | .ok new =>
          if ∃ b ∈ db.automations.rows, b.id ≠ id ∧ b.val.name = new.name then
            (db, .error ⟨.integrityError, "duplicate key value violates unique constraint"⟩)
          else
            let new := touch now a.val new
            ({ db with automations := db.automations.modify id fun _ => new },
              .ok (.ok (.obj (serialize { a with val := new }))))

/-- `delete_automation(id)`. -/
def deleteAutomation (id : Nat) (db : Db) : Db × Except PyErr OpReply :=
  match db.automations.get? id with
  | none => (db, .ok (.error s!"Automation not found: {id}"))
  | some _ =>
    ({ db with
        automations := db.automations.deleteWhere (·.id == id)
        runs := db.runs.deleteWhere (·.val.automationId == id) },
      .ok (.ok (.obj [("status", .str "success"), ("message", .str s!"Automation {id} deleted")])))

/-- `toggle_automation(id)`. -/
def toggleAutomation (now : Int) (id : Nat) (db : Db) : Db × Except PyErr OpReply :=
  match db.automations.get? id with
  | none => (db, .ok (.error s!"Automation not found: {id}"))
  | some a =>
    let new := { a.val with enabled := !a.val.enabled, updatedAt := now }
    ({ db with automations := db.automations.modify id fun _ => new },
      .ok (.ok (.obj (serialize { a with val := new }))))

/-! ## The built-in automations -/

/-- A definition dict of `_seed`: the columns it sets; the others stay SQL NULL. -/
structure Definition where
  name : String
  triggerType : String
  eventType : Option String := none
  scheduleSeconds : Option Int := none
  conditions : Json
  actions : Json
  deriving DecidableEq, Repr

def Definition.automation (d : Definition) (now : Int) : Automation where
  name := d.name
  triggerType := d.triggerType
  eventType := d.eventType
  scheduleSeconds := d.scheduleSeconds
  conditions := .store d.conditions
  actions := .store d.actions
  circuitBreaker := .sqlNull
  updatedAt := now

/-- `_ensure(name, definition)`: insert unless the name exists. -/
def ensureAutomation (now : Int) (t : Table Automation) (d : Definition) :
    Except PyErr (Table Automation) :=
  if d.name ∈ t.vals.map (·.name) then .ok t
  else match bindInt 31 (jsonOf .int d.scheduleSeconds) with
    | .error e => .error e
    | .ok _ => .ok (t.insert now (d.automation now))

/-- The `slack_webhook` action of a built-in alert. -/
def slackAction (url text : String) (fields : List (String × Json)) : Json :=
  .arr [.obj [("type", .str "slack_webhook"), ("webhook_url", .str url), ("text", .str text),
    ("fields", .obj fields)]]

def alertTaskFailed (url : String) : Definition where
  name := "alert-task-failed"
  triggerType := "event"
  eventType := some "task-failed"
  conditions := .arr []
  actions := slackAction url "Task failed"
    [("Task", .str "\x7bevent.name\x7d"), ("Task ID", .str "\x7bevent.uuid\x7d"),
      ("Worker", .str "\x7bevent.hostname\x7d"), ("Error", .str "\x7bevent.exception\x7d")]

def alertSlowTask (url : String) (threshold : PyFloat) : Definition where
  name := "alert-slow-task"
  triggerType := "event"
  eventType := some "task-succeeded"
  conditions := .arr [.obj [("field", .str "runtime"), ("op", .str "gt"),
    ("value", .float threshold)]]
  actions := slackAction url "Slow task detected"
    [("Task", .str "\x7bevent.name\x7d"), ("Task ID", .str "\x7bevent.uuid\x7d"),
      ("Runtime (s)", .str "\x7bevent.runtime\x7d"), ("Worker", .str "\x7bevent.hostname\x7d")]

def alertWorkerOffline (url : String) : Definition where
  name := "alert-worker-offline"
  triggerType := "event"
  eventType := some "worker-offline"
  conditions := .arr []
  actions := slackAction url "Worker offline" [("Worker", .str "\x7bevent.hostname\x7d")]

def alertWorkerOfflineSweep (url : String) (checkSeconds : Int) : Definition where
  name := "alert-worker-offline-sweep"
  triggerType := "periodic"
  scheduleSeconds := some checkSeconds
  conditions := .arr []
  actions := .arr [.obj [("type", .str "check_workers_offline"), ("webhook_url", .str url)]]

/-- The definitions `_seed` ensures, in order. -/
def seedDefinitions (settings : Settings) : List Definition :=
  match settings.alertWebhookUrl with
  | none | some "" => []
  | some url =>
    (if settings.alertOnTaskFailed then [alertTaskFailed url] else []) ++
      (match settings.alertSlowTaskSeconds with
        | some threshold => [alertSlowTask url threshold]
        | none => []) ++
      (if settings.alertOnWorkerOffline then
        [alertWorkerOffline url, alertWorkerOfflineSweep url settings.alertWorkerCheckSeconds]
      else [])

/-- `_seed` on the transaction's view of the table. -/
def ensureAll (now : Int) : Table Automation → List Definition → Except PyErr (Table Automation)
  | t, [] => .ok t
  | t, d :: ds => match ensureAutomation now t d with
    | .error e => .error e
    | .ok t => ensureAll now t ds

/-- `seed_builtin_automations()`. -/
def seedBuiltinAutomations (settings : Settings) (now : Int) (db : Db) :
    Db × Except PyErr OpReply :=
  match ensureAll now db.automations (seedDefinitions settings) with
  | .error e => (db, .error e)
  | .ok t =>
    let created := t.rows.drop db.automations.rows.length
    ({ db with automations := t }, .ok (.ok (.arr (created.map fun a => .obj (serialize a)))))

end Taskowl
