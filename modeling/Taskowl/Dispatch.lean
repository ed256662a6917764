import Taskowl.Alerting
import Taskowl.Conditions

/-!
# Action dispatch

`_dispatch_actions`, `_interpolate` and the `_fire_*` methods of
`WorkflowEngine`. An action that is a dict is tried: what its branch raises
is caught and recorded as `action failed`. An action that is not a dict
raises outside the `try` and ends the dispatch.
-/

namespace Taskowl

open Lib Py

/-- `_SAFE_FIELDS`. -/
def safeFields : List String :=
  ["type", "uuid", "hostname", "name", "runtime", "exception", "retries", "queue", "pid",
    "root_id", "parent_id"]

/-- `_safe_snapshot(event)`. -/
def safeSnapshot (event : Dict) : Dict :=
  safeFields.filterMap fun field => (event.lookup field).map fun v => (field, v)

/-! ## Interpolation -/

def pathChar (lib : PyLib) (c : Char) : Bool :=
  c.isAlphanum || c == '_' || c == '.' || (decide (128 ≤ c.toNat) && lib.isWordExt c)

/-- The path of a match of `\{event\.([\w.]+)\}` at the head of the text. -/
def placeholder (lib : PyLib) (cs : List Char) : Option (List Char) :=
  let pre := "\x7bevent.".toList
  let rest := cs.drop pre.length
  let path := rest.takeWhile (pathChar lib)
  if pre.isPrefixOf cs && !path.isEmpty && (rest.drop path.length).head? == some '\x7d' then
    some path
  else none

/-- `_sub(match)`: the value at the path, or the match itself. -/
def substitute (lib : PyLib) (event : Dict) (path : List Char) : List Char :=
  match resolveField event (String.ofList path) with
  | .null => "\x7bevent.".toList ++ path ++ ['\x7d']
  | v => (v.toStr lib).toList

/-- `re.sub(pattern, _sub, text)`; `skip` characters of a match are still to be passed over. -/
def interpolateChars (lib : PyLib) (event : Dict) : Nat → List Char → List Char
  | _, [] => []
  | skip + 1, _ :: cs => interpolateChars lib event skip cs
  | 0, c :: cs => match placeholder lib (c :: cs) with
    | some path =>
      substitute lib event path ++ interpolateChars lib event (path.length + 7) cs
    | none => c :: interpolateChars lib event 0 cs

def interpolateStr (lib : PyLib) (event : Dict) (s : String) : String :=
  String.ofList (interpolateChars lib event 0 s.toList)

mutual

/-- `_interpolate(value, event)`. -/
def interpolate (lib : PyLib) (event : Dict) : Json → Json
  | .str s => .str (interpolateStr lib event s)
  | .arr xs => .arr (interpolateList lib event xs)
  | .obj kvs => .obj (interpolateObj lib event kvs)
  | .null => .null
  | .bool b => .bool b
  | .int i => .int i
  | .float f => .float f
termination_by structural v => v

def interpolateList (lib : PyLib) (event : Dict) : List Json → List Json
  | [] => []
  | x :: xs => interpolate lib event x :: interpolateList lib event xs
termination_by structural xs => xs

def interpolateObj (lib : PyLib) (event : Dict) : List (String × Json) → List (String × Json)
  | [] => []
  | (k, x) :: xs => (k, interpolate lib event x) :: interpolateObj lib event xs
termination_by structural xs => xs

end

/-! ## The action branches -/

/-- `getattr(logging, level, logging.INFO)`: two upper-case names of the module are not levels. -/
def logLevel : String → Except PyErr Nat
  | "CRITICAL" | "FATAL" => .ok 50
  | "ERROR" => .ok 40
  | "WARNING" | "WARN" => .ok 30
  | "DEBUG" => .ok 10
  | "NOTSET" => .ok 0
  | "BASIC_FORMAT" | "_STYLES" => .error ⟨.typeError, "level must be an integer"⟩
  | _ => .ok 20

def fireLog (lib : PyLib) (automation : Automation) (event action : Dict) : Except PyErr Effect :=
  match (action.get "level").or (.str "info") with
  | .str level => match logLevel (lib.upper level) with
    | .error e => .error e
    | .ok level =>
      let eventType := (event.get "type").toStr lib
      let default := s!"Automation '{automation.name}' fired on {eventType}"
      .ok (.log level ((action.get "message").or (.str default)))
  | v => .error (attributeError v "upper")

/-- `action.get(key) or settings.alert_webhook_url`. -/
def webhookUrl (env : Env) (action : Dict) : Json :=
  (action.get "webhook_url").or (jsonOf .str env.settings.alertWebhookUrl)

def fireSlackWebhook (env : Env) (automation : Automation) (event action : Dict) :
    Except PyErr Effect :=
  let url := webhookUrl env action
  if !url.truthy then
    .error ⟨.valueError, "slack_webhook action requires webhook_url (or ALERT_WEBHOOK_URL)"⟩
  else
    let text := (action.get "text").or (.str s!"Automation '{automation.name}' fired")
    match (action.get "fields").or (.obj []) with
    | .obj kvs =>
      let fields := kvs.map fun kv =>
        Json.obj [("title", .str kv.1), ("value", interpolate env.lib event kv.2)]
      .ok (.post url (.obj [("text", text), ("attachments",
        .arr [.obj [("color", .str "warning"), ("fields", (Json.arr fields).or .null)]])]))
    | v => .error (attributeError v "items")

def fireWebhook (lib : PyLib) (automation : Automation) (event action : Dict) :
    Except PyErr Effect :=
  let url := action.get "url"
  if !url.truthy then .error ⟨.valueError, "webhook action requires url"⟩
  else
    let default := Json.obj [("automation", .str automation.name), ("event_type", event.get "type"),
      ("event", .obj (safeSnapshot event))]
    .ok (.post url (interpolate lib event ((action.get "payload").or default)))

def Reply.toDict (r : Reply) (taskId : String → Json) : Dict :=
  match r with
  | .error msg => [("error", .str msg)]
  | .success id => [("task_id", taskId id)]

def fireRetryTask (env : Env) (event action : Dict) (w : World) : World × Except PyErr Dict :=
  let taskId := (action.get "task_id").or (event.get "uuid")
  if !taskId.truthy then (w, .ok [("error", .str "no task_id available")])
  else match retryTask env w taskId with
    | (w, .error e) => (w, .error e)
    | (w, .ok r) => (w, .ok (r.toDict fun _ => taskId))

def fireExecuteTask (env : Env) (event action : Dict) (w : World) : World × Except PyErr Dict :=
  let name := (action.get "name").or (event.get "name")
  if !name.truthy then (w, .ok [("error", .str "no task name available")])
  else match executeTask env w name action with
    | (w, .error e) => (w, .error e)
    | (w, .ok r) => (w, .ok (r.toDict .str))

def fireRevokeTask (env : Env) (event action : Dict) (w : World) : World × Except PyErr Dict :=
  let taskId := (action.get "task_id").or (event.get "uuid")
  if !taskId.truthy then (w, .ok [("error", .str "no task_id available")])
  else
    let terminate := (action.lookup "terminate").getD (.bool false)
    match revokeTask env w taskId terminate with
    | (w, .error e) => (w, .error e)
    | (w, .ok r) => (w, .ok (r.toDict fun _ => taskId))

/-- The loop of `_fire_check_workers_offline`: the hosts newly alerted are counted. -/
def sweepWorkers (env : Env) (url : Json) (timeout : Int) : List String → World → World × Nat
  | [], w => (w, 0)
  | h :: hs, w =>
    if h ∈ w.offlineNotified then sweepWorkers env url timeout hs w
    else if workerStale env.workerRows h env.now timeout then
      let w := { w with offlineNotified := w.offlineNotified ++ [h] }
      let (w, n) := sweepWorkers env url timeout hs
        (w.send (.post url (buildWorkerOfflinePayload env.lib h)))
      (w, n + 1)
    else sweepWorkers env url timeout hs w

def fireCheckWorkersOffline (env : Env) (action : Dict) (w : World) : World × Except PyErr Dict :=
  let url := webhookUrl env action
  if !url.truthy then
    (w, .ok [("error",
      .str "check_workers_offline requires webhook_url (or ALERT_WEBHOOK_URL)")])
  else match secondsInt env.settings.workerOfflineTimeoutSeconds with
    | .error e => (w, .error e)
    | .ok timeout =>
      let (w, alerted) := sweepWorkers env url timeout (hostnames env.workerRows) w
      (w, .ok [("workers_alerted", .int alerted)])

/-! ## The dispatch loop -/

def World.sendOr (w : World) : Except PyErr Effect → World × Except PyErr Dict
  | .error e => (w, .error e)
  | .ok e => (w.send e, .ok [])

/-- The branch of an action type; `none` is the unsupported type. -/
def fireAction (env : Env) (automation : Automation) (event action : Dict) (w : World) :
    Json → Option (World × Except PyErr Dict)
  | .str "log" => some (w.sendOr (fireLog env.lib automation event action))
  | .str "slack_webhook" => some (w.sendOr (fireSlackWebhook env automation event action))
  | .str "webhook" => some (w.sendOr (fireWebhook env.lib automation event action))
  | .str "retry_task" => some (fireRetryTask env event action w)
  | .str "execute_task" => some (fireExecuteTask env event action w)
  | .str "revoke_task" => some (fireRevokeTask env event action w)
  | .str "check_workers_offline" => some (fireCheckWorkersOffline env action w)
  | _ => none

/-- The loop of `_dispatch_actions`, with the fired list so far. -/
def dispatchList (env : Env) (automation : Automation) (event : Dict) :
    List Json → World → List Json → World × Except PyErr (List Json)
  | [], w, fired => (w, .ok fired)
  | action :: actions, w, fired => match action with
    | .obj a =>
      let type := Dict.get a "type"
      match fireAction env automation event a w type with
      | none => dispatchList env automation event actions w fired
      | some (w, .ok result) =>
        dispatchList env automation event actions w
          (fired ++ [.obj (Dict.merge [("type", type)] result)])
      | some (w, .error _) =>
        dispatchList env automation event actions w
          (fired ++ [.obj [("type", type), ("error", .str "action failed")]])
    | v => (w, .error (attributeError v "get"))

/-- `_dispatch_actions(automation, event)`. -/
def dispatchActions (env : Env) (automation : Automation) (event : Dict) (w : World) :
    World × Except PyErr (List Json) :=
  match (automation.actions.read.or (.arr [])).iter with
  | .error e => (w, .error e)
  | .ok actions => dispatchList env automation event actions w []

def isObj : Json → Bool
  | .obj _ => true
  | _ => false

def actionsWellFormed (automation : Automation) : Bool :=
  match (automation.actions.read.or (.arr [])).iter with
  | .error _ => false
  | .ok actions => actions.all isObj

/-- The dispatch gets as far as its first action; an empty list ends well at once. -/
def actionsBegin (automation : Automation) : Bool :=
  match (automation.actions.read.or (.arr [])).iter with
  | .error _ => false
  | .ok actions => actions.head?.all isObj

theorem actionsBegin_of_wellFormed {automation : Automation}
    (h : actionsWellFormed automation = true) : actionsBegin automation = true := by
  unfold actionsWellFormed at h
  unfold actionsBegin
  split at h
  · cases h
  · next actions _ =>
    cases actions with
    | nil => rfl
    | cons action actions =>
      rw [List.all_cons, Bool.and_eq_true] at h
      exact h.1

theorem dispatchList_ok_iff (env : Env) (automation : Automation) (event : Dict)
    (actions : List Json) (w : World) (fired : List Json) :
    (∃ l, (dispatchList env automation event actions w fired).2 = .ok l) ↔
      actions.all isObj = true := by
  induction actions generalizing w fired with
  | nil => simp [dispatchList]
  | cons action actions ih =>
    cases action with
    | obj a =>
      simp only [dispatchList, List.all_cons, isObj, Bool.true_and]
      split <;> exact ih _ _
    | _ => simp [dispatchList, isObj]

/-- Dispatch ends normally exactly on well-formed actions. -/
theorem dispatchActions_ok_iff (env : Env) (automation : Automation) (event : Dict) (w : World) :
    (∃ l, (dispatchActions env automation event w).2 = .ok l) ↔
      actionsWellFormed automation = true := by
  unfold dispatchActions actionsWellFormed
  split
  · simp
  · exact dispatchList_ok_iff ..

end Taskowl
