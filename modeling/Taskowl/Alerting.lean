import Taskowl.Actions

/-!
# The legacy alerter

`alerting.py`: the Slack payloads, `AlertNotifier` with its set of hosts
already alerted, and `_worker_stale`. A webhook POST never raises, so an
alert is the payload that leaves.
-/

namespace Taskowl

open Lib Py

/-- `_field(title, value, short)`. -/
def alertField (lib : PyLib) (title : String) (value : Json) (short : Bool) : Json :=
  .obj [("title", .str title), ("value", .str ((value.or (.str "unknown")).toStr lib)),
    ("short", .bool short)]

def alertPayload (text color : String) (fields : List Json) : Json :=
  .obj [("text", .str text),
    ("attachments", .arr [.obj [("color", .str color), ("fields", .arr fields)]])]

def buildTaskFailedPayload (lib : PyLib) (event : Dict) : Json :=
  alertPayload "⚠️ Task failed" "danger"
    [alertField lib "Task" (event.get "name") true,
      alertField lib "Task ID" (event.get "uuid") true,
      alertField lib "Worker" (event.get "hostname") true,
      alertField lib "Error" (event.get "exception") false]

/-- Both callers leave `last_heartbeat` out. -/
def buildWorkerOfflinePayload (lib : PyLib) (hostname : String) : Json :=
  alertPayload "⚠️ Worker offline" "danger"
    [alertField lib "Worker" (.str hostname) true,
      alertField lib "Last heartbeat" (.str "unknown") true]

def buildSlowTaskPayload (lib : PyLib) (event : Dict) : Json :=
  alertPayload "🐢 Slow task detected" "warning"
    [alertField lib "Task" (event.get "name") true,
      alertField lib "Task ID" (event.get "uuid") true,
      alertField lib "Runtime (s)" (event.get "runtime") true,
      alertField lib "Worker" (event.get "hostname") true]

/-- `_worker_stale(hostname, now, offline_timeout)`, in `alerting.py` and in `workflow.py`. -/
def workerStale (rows : List (Row WorkerEvent)) (hostname : String) (now timeout : Int) : Bool :=
  workerGone rows hostname now timeout

/-- `SELECT DISTINCT hostname FROM worker_events`. -/
def hostnames (rows : List (Row WorkerEvent)) : List String := (rows.map (·.val.hostname)).dedup

/-- `AlertNotifier`: the webhook URL and the hosts already alerted. -/
structure AlertNotifier where
  webhookUrl : Option String
  offlineNotified : List String := []
  deriving DecidableEq, Repr

namespace AlertNotifier

def ofSettings (settings : Settings) : AlertNotifier := { webhookUrl := settings.alertWebhookUrl }

def enabled (n : AlertNotifier) : Bool := strTruthy n.webhookUrl

def post (n : AlertNotifier) (payload : Json) : Effect := .post (jsonOf .str n.webhookUrl) payload

/-- `_alert_worker_offline(hostname)`. -/
def alertWorkerOffline (lib : PyLib) (n : AlertNotifier) (hostname : Option String) :
    AlertNotifier × List Effect :=
  match hostname with
  | none | some "" => (n, [])
  | some h =>
    if h ∈ n.offlineNotified then (n, [])
    else ({ n with offlineNotified := n.offlineNotified ++ [h] },
      [n.post (buildWorkerOfflinePayload lib h)])

theorem alertWorkerOffline_eq {lib : PyLib} {n : AlertNotifier} {h : String} (hne : h ≠ "") :
    n.alertWorkerOffline lib (some h) =
      if h ∈ n.offlineNotified then (n, [])
      else ({ n with offlineNotified := n.offlineNotified ++ [h] },
        [n.post (buildWorkerOfflinePayload lib h)]) := by
  unfold alertWorkerOffline
  split
  · next heq => cases heq
  · next heq =>
    cases heq
    exact absurd rfl hne
  · next heq =>
    cases heq
    rfl

theorem alertWorkerOffline_empty {lib : PyLib} {n : AlertNotifier} :
    n.alertWorkerOffline lib (some "") = (n, []) := rfl

def textOf : Json → Option String
  | .str s => some s
  | _ => none

/-- `isinstance(runtime, (int, float)) and runtime > settings.alert_slow_task_seconds`. -/
def slow (runtime : Json) (threshold : PyFloat) : Bool :=
  match runtime.num? with
  | some x => CmpOp.gt.num x threshold
  | none => false

/-- `notify_event(event_type, event)`. -/
def notifyEvent (lib : PyLib) (settings : Settings) (n : AlertNotifier) (eventType : String)
    (event : Dict) : AlertNotifier × List Effect :=
  if !n.enabled then (n, [])
  else if eventType = "task-failed" ∧ settings.alertOnTaskFailed = true then
    (n, [n.post (buildTaskFailedPayload lib event)])
  else match eventType, settings.alertSlowTaskSeconds with
    | "task-succeeded", some threshold =>
      if slow (event.get "runtime") threshold then (n, [n.post (buildSlowTaskPayload lib event)])
      else (n, [])
    | _, _ =>
      if eventType = "worker-offline" ∧ settings.alertOnWorkerOffline = true then
        n.alertWorkerOffline lib (textOf (event.get "hostname"))
      else (n, [])

/-- `mark_online(hostname)`. -/
def markOnline (n : AlertNotifier) (hostname : String) : AlertNotifier :=
  { n with offlineNotified := n.offlineNotified.filter (· != hostname) }

def sweepHosts (lib : PyLib) (rows : List (Row WorkerEvent)) (now timeout : Int) :
    List String → AlertNotifier → AlertNotifier × List Effect
  | [], n => (n, [])
  | h :: hs, n =>
    if h ∈ n.offlineNotified then sweepHosts lib rows now timeout hs n
    else if workerStale rows h now timeout then
      let (n, sent) := n.alertWorkerOffline lib (some h)
      let (n, rest) := sweepHosts lib rows now timeout hs n
      (n, sent ++ rest)
    else sweepHosts lib rows now timeout hs n

/-- `check_workers(now)`. -/
def checkWorkers (lib : PyLib) (settings : Settings) (rows : List (Row WorkerEvent)) (now : Int)
    (n : AlertNotifier) : Except PyErr (AlertNotifier × List Effect) :=
  if !n.enabled || !settings.alertOnWorkerOffline then .ok (n, [])
  else match secondsInt settings.workerOfflineTimeoutSeconds with
    | .error e => .error e
    | .ok timeout => .ok (sweepHosts lib rows now timeout (hostnames rows) n)

end AlertNotifier

end Taskowl
