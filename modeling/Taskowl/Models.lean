import Taskowl.Lib.Table
import Taskowl.Py.Time
import Taskowl.Py.Uuid

/-!
# The tables and the settings

The four tables of `models.py`, their columns typed, and the fields of
`config.py` that the modelled functions read. The primary key and
`created_at` of a row are those of `Lib.Row`.
-/

namespace Taskowl

open Lib Py

/-- `task_events.event_type`, the eight values the handlers write. -/
inductive TaskEventType where
  | sent
  | received
  | started
  | succeeded
  | failed
  | revoked
  | retried
  | rejected
  deriving DecidableEq, Repr

def TaskEventType.text : TaskEventType → String
  | sent => "sent"
  | received => "received"
  | started => "started"
  | succeeded => "succeeded"
  | failed => "failed"
  | revoked => "revoked"
  | retried => "retried"
  | rejected => "rejected"

theorem TaskEventType.text_inj {a b : TaskEventType} (h : a.text = b.text) : a = b := by
  cases a <;> cases b <;> first | rfl | exact absurd h (by decide)

/-- `worker_events.event_type`. -/
inductive WorkerEventType where
  | online
  | heartbeat
  | offline
  deriving DecidableEq, Repr

def WorkerEventType.text : WorkerEventType → String
  | online => "online"
  | heartbeat => "heartbeat"
  | offline => "offline"

theorem WorkerEventType.text_inj {a b : WorkerEventType} (h : a.text = b.text) : a = b := by
  cases a <;> cases b <;> first | rfl | exact absurd h (by decide)

structure TaskEvent where
  eventType : TaskEventType
  taskId : Uuid
  timestamp : Int
  hostname : Option String := none
  name : Option String := none
  args : JsonCell := .sqlNull
  kwargs : JsonCell := .sqlNull
  result : JsonCell := .sqlNull
  exception : Option String := none
  traceback : Option String := none
  runtime : Option PyFloat := none
  retries : Option Int := none
  eta : Option Int := none
  expires : Option Int := none
  queue : Option String := none
  rootId : Option Uuid := none
  parentId : Option Uuid := none
  pid : Option Int := none
  signum : Option Int := none
  terminated : Option Bool := none
  expired : Option Bool := none
  requeue : Option Bool := none
  dedupeKey : Option String := none
  deriving DecidableEq, Repr

structure WorkerEvent where
  eventType : WorkerEventType
  hostname : String
  timestamp : Int
  active : Option Int := none
  processed : Option Int := none
  freq : Option PyFloat := none
  swIdent : Option String := none
  swVer : Option String := none
  swSys : Option String := none
  dedupeKey : Option String := none
  deriving DecidableEq, Repr

structure Automation where
  name : String
  enabled : Bool := true
  triggerType : String
  eventType : Option String := none
  scheduleSeconds : Option Int := none
  conditions : JsonCell := .store .null
  actions : JsonCell := .store .null
  cooldownSeconds : Option Int := none
  maxRunsPerWindow : Option Int := none
  windowSeconds : Option Int := none
  circuitBreaker : JsonCell := .store .null
  updatedAt : Int := 0
  deriving DecidableEq, Repr

structure AutomationRun where
  automationId : Nat
  trigger : String
  matched : Bool
  conditionsPassed : Bool
  actionsFired : JsonCell
  details : JsonCell
  deriving DecidableEq, Repr

/-- The database. -/
structure Db where
  taskEvents : Table TaskEvent
  workerEvents : Table WorkerEvent
  automations : Table Automation
  runs : Table AutomationRun

def Db.empty : Db := ⟨.empty, .empty, .empty, .empty⟩

structure Settings where
  orphanGraceSeconds : Int := 60
  workerOfflineTimeoutSeconds : Int := 30
  alertWebhookUrl : Option String := none
  alertOnTaskFailed : Bool := true
  alertOnWorkerOffline : Bool := true
  alertSlowTaskSeconds : Option PyFloat := none
  alertWorkerCheckSeconds : Int := 30
  deriving DecidableEq, Repr

def jsonOf {α : Type} (f : α → Json) : Option α → Json
  | none => .null
  | some a => f a

/-- `_ensure_utc(ts)` of a stored datetime: the model's datetimes are already aware. -/
def ensureUtc (ts : Int) : Int := ts

/-! ## Binding a value to a column

What the driver accepts for a column type; `None` is NULL, and a value of
another type raises. -/

def dataError {α : Type} (expected : String) (v : Json) : Except PyErr α :=
  .error ⟨.dataError, s!"expected {expected}, got {v.typeName}"⟩

/-- `String(n)`. -/
def bindStr (n : Nat) : Json → Except PyErr (Option String)
  | .null => .ok none
  | .str s =>
    if s.length ≤ n then .ok (some s)
    else .error ⟨.dataError, s!"value too long for type character varying({n})"⟩
  | v => dataError "str" v

/-- `Text`. -/
def bindText : Json → Except PyErr (Option String)
  | .null => .ok none
  | .str s => .ok (some s)
  | v => dataError "str" v

/-- `Integer` (`bits` 31) and `BigInteger` (`bits` 63). -/
def bindInt (bits : Nat) : Json → Except PyErr (Option Int)
  | .null => .ok none
  | .bool b => .ok (some (if b then 1 else 0))
  | .int i =>
    if -2 ^ bits ≤ i ∧ i < 2 ^ bits then .ok (some i)
    else .error ⟨.dataError, "value out of int range"⟩
  | v => dataError "int" v

/-- `Float`. -/
def bindFloat (v : Json) : Except PyErr (Option PyFloat) :=
  match v, v.num? with
  | .null, _ => .ok none
  | _, some x => .ok (some x)
  | v, none => dataError "float" v

/-- `Boolean`: `True`, `False` and the numbers equal to them. -/
def bindBool (v : Json) : Except PyErr (Option Bool) :=
  if v = .null then .ok none
  else if v.pyEq (.bool true) then .ok (some true)
  else if v.pyEq (.bool false) then .ok (some false)
  else dataError "bool" v

/-- A NOT NULL column. -/
def required {α : Type} : Except PyErr (Option α) → Except PyErr α
  | .ok (some a) => .ok a
  | .ok none => .error ⟨.integrityError, "null value violates not-null constraint"⟩
  | .error e => .error e

end Taskowl
