import Taskowl.Lib.Window
import Taskowl.Models

/-!
# What an evaluation reads and does outside the runs table

`Effect` is a message that leaves the process; nothing undoes it. `World` is
what has left so far together with the engine's in-memory set of hosts
already alerted. `Env` is what an evaluation reads: library functions,
settings, the clock, the event tables in the order the database scans them,
and the broker, whose answer to a call may depend on everything sent before.
-/

namespace Taskowl

open Lib Py

structure SentTask where
  name : Json
  args : Json := .null
  kwargs : Json := .null
  queue : Json := .null
  countdown : Json := .null
  eta : Option Int := none
  expires : Option Int := none
  priority : Json := .null
  rootId : Option Uuid := none
  parentId : Option Uuid := none
  deriving DecidableEq, Repr

inductive Effect where
  /-- `logger.log(level, message)`. -/
  | log (level : Nat) (message : Json)
  /-- The POST of `WebhookClient(url).send(payload)`. -/
  | post (url payload : Json)
  /-- `app.send_task(..)`. -/
  | sendTask (task : SentTask)
  /-- `app.control.revoke(task_id, terminate=terminate)`. -/
  | revoke (taskId : String) (terminate : Json)
  deriving DecidableEq, Repr

structure World where
  effects : List Effect := []
  /-- `WorkflowEngine._offline_notified`. -/
  offlineNotified : List String := []
  deriving DecidableEq, Repr

structure Env where
  lib : PyLib
  settings : Settings
  /-- The broker's answer to a call, after the effects sent so far: a task id, or an exception. -/
  answer : List Effect → Effect → Except PyErr String
  /-- `datetime.fromisoformat`, in UTC. -/
  fromIso : String → Option Int
  /-- `datetime.now(UTC)`. -/
  now : Int
  taskRows : List (Row TaskEvent)
  workerRows : List (Row WorkerEvent)

/-- No rows, default settings, a broker that accepts every call, and library functions right on
ASCII text, literal patterns and integral floats. -/
def Env.idle (now : Int) : Env where
  lib := { reSearch := fun pattern text => .ok (Json.strIn pattern text)
           floatStr := fun
             | .fin q => toString q.num ++ ".0"
             | .inf => "inf"
             | .negInf => "-inf"
             | .nan => "nan"
           reprStr := fun s => "'" ++ s ++ "'"
           upper := fun s => String.ofList (s.toList.map Char.toUpper)
           lower := fun s => String.ofList (s.toList.map Char.toLower)
           isWordExt := fun _ => false }
  settings := {}
  answer := fun _ _ => .ok "task"
  fromIso := fun _ => none
  now := now
  taskRows := []
  workerRows := []

def World.send (w : World) (e : Effect) : World := { w with effects := w.effects ++ [e] }

/-- `WorkflowEngine.mark_online(hostname)`. -/
def World.markOnline (w : World) (hostname : String) : World :=
  { w with offlineNotified := w.offlineNotified.filter (· != hostname) }

@[simp] theorem World.effects_send (w : World) (e : Effect) :
    (w.send e).effects = w.effects ++ [e] := rfl

@[simp] theorem World.offlineNotified_send (w : World) (e : Effect) :
    (w.send e).offlineNotified = w.offlineNotified := rfl

@[simp] theorem World.mem_markOnline {w : World} {g h : String} :
    g ∈ (w.markOnline h).offlineNotified ↔ g ∈ w.offlineNotified ∧ g ≠ h := by
  simp [World.markOnline]

/-- A broker call: the message leaves, then the answer comes. -/
def World.call (w : World) (env : Env) (e : Effect) : World × Except PyErr String :=
  (w.send e, env.answer w.effects e)

/-- The dict a task action returns: `{"error": msg}` or a success carrying `id`. -/
inductive Reply where
  | error (msg : String)
  | success (id : String)
  deriving DecidableEq, Repr

end Taskowl
