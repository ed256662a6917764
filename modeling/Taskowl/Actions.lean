import Taskowl.World

/-!
# Task actions

`retry_task`, `revoke_task` and `execute_task` of `actions.py`, with the
folds over a task's events they read. A call that returns an error dict
before the broker is contacted sends nothing.
-/

namespace Taskowl

open Lib Py

/-- `bool(s)` of a nullable string. -/
def strTruthy : Option String → Bool
  | some s => s != ""
  | none => false

/-- `if event.x: acc = event.x`. -/
def orKeep (old new : Option String) : Option String := if strTruthy new then new else old

/-- The events of a task in the order `ORDER BY timestamp` returns them. -/
def taskEvents (rows : List (Row TaskEvent)) (id : Uuid) : List (Row TaskEvent) :=
  orderBy (·.val.timestamp) (rows.filter fun r => r.val.taskId = id)

/-- `_task_exists(task_uuid)`. -/
def taskExists (rows : List (Row TaskEvent)) (id : Uuid) : Bool :=
  rows.any fun r => r.val.taskId = id

/-- The dict `_get_task_info` builds. -/
structure TaskInfo where
  state : String
  name : Option String := none
  args : Json := .null
  kwargs : Json := .null
  queue : Option String := none
  rootId : Option Uuid := none
  parentId : Option Uuid := none
  deriving DecidableEq, Repr

def TaskInfo.add (info : TaskInfo) (event : TaskEvent) : TaskInfo :=
  { info with
    name := orKeep info.name event.name
    args := event.args.read.or info.args
    kwargs := event.kwargs.read.or info.kwargs
    queue := orKeep info.queue event.queue
    rootId := event.rootId.or info.rootId
    parentId := event.parentId.or info.parentId }

/-- The worker half of the orphan rules: no event, an `offline` event, or a stale latest event. -/
def workerGone (rows : List (Row WorkerEvent)) (hostname : String) (now timeout : Int) : Bool :=
  match topBy (·.val.timestamp) (rows.filter fun r => r.val.hostname = hostname) with
  | none => true
  | some event =>
    event.val.eventType == .offline || decide (timeout < now - ensureUtc event.val.timestamp)

/-- The orphan rules over a task's latest event. -/
def orphanRules (settings : Settings) (rows : List (Row WorkerEvent)) (latest : TaskEvent)
    (now : Int) : Except PyErr Bool :=
  match secondsInt settings.orphanGraceSeconds,
    secondsInt settings.workerOfflineTimeoutSeconds with
  | .ok grace, .ok timeout =>
    if latest.eventType ≠ .started then .ok false
    else if now - ensureUtc latest.timestamp ≤ grace then .ok false
    else match latest.hostname with
      | none | some "" => .ok false
      | some hostname => .ok (workerGone rows hostname now timeout)
  | .error e, _ | _, .error e => .error e

/-- `_task_is_orphaned(latest_event, now)` of `actions.py`. -/
def taskIsOrphaned (env : Env) (latest : TaskEvent) : Except PyErr Bool :=
  orphanRules env.settings env.workerRows latest env.now

/-- The fold of `_get_task_info` over a task's ordered events, before the orphan check. -/
def taskInfoOf (latest : TaskEvent) (events : List (Row TaskEvent)) : TaskInfo :=
  events.foldl (fun info r => info.add r.val) { state := latest.eventType.text }

theorem state_taskInfoOf (latest : TaskEvent) (events : List (Row TaskEvent)) :
    (taskInfoOf latest events).state = latest.eventType.text := by
  have hfold : ∀ info : TaskInfo, (events.foldl (fun info r => info.add r.val) info).state =
      info.state := by
    induction events with
    | nil => exact fun _ => rfl
    | cons r events ih => exact fun info => ih (info.add r.val)
  exact hfold _

/-- `_get_task_info(task_uuid)`. -/
def getTaskInfo (env : Env) (id : Uuid) : Except PyErr (Option TaskInfo) :=
  let events := taskEvents env.taskRows id
  match events.getLast? with
  | none => .ok none
  | some latest =>
    let info := taskInfoOf latest.val events
    match taskIsOrphaned env latest.val with
    | .error e => .error e
    | .ok orphaned => .ok (some (if orphaned then { info with state := "orphaned" } else info))

theorem rootId_of_getTaskInfo {env : Env} {id : Uuid} {info : TaskInfo}
    (h : getTaskInfo env id = .ok (some info)) : info.rootId =
      ((taskEvents env.taskRows id).filter
        (·.val.rootId.isSome)).getLast?.bind (·.val.rootId) := by
  unfold getTaskInfo at h
  dsimp only at h
  split at h
  · cases h
  · next latest _ =>
    split at h
    · cases h
    · have hroot : (taskInfoOf latest.val (taskEvents env.taskRows id)).rootId = _ :=
        (foldl_lastSome TaskInfo.rootId (fun r => r.val.rootId) (fun _ _ => rfl) _ _).trans
          Option.or_none
      have hinfo := Option.some.inj (Except.ok.inj h)
      split at hinfo
      · subst hinfo
        exact hroot
      · subst hinfo
        exact hroot

theorem exists_name_of_getTaskInfo {env : Env} {id : Uuid} {info : TaskInfo}
    (h : getTaskInfo env id = .ok (some info)) (hname : strTruthy info.name = true) :
    ∃ r ∈ taskEvents env.taskRows id, strTruthy r.val.name = true := by
  have hfold : ∀ (events : List (Row TaskEvent)) (info : TaskInfo),
      strTruthy (events.foldl (fun info r => info.add r.val) info).name = true →
        strTruthy info.name = true ∨ ∃ r ∈ events, strTruthy r.val.name = true := by
    intro events
    induction events with
    | nil => exact fun info h => .inl h
    | cons r events ih =>
      intro info h
      rcases ih _ h with h | ⟨s, hs, h⟩
      · cases hr : strTruthy r.val.name with
        | true => exact .inr ⟨r, List.mem_cons_self, hr⟩
        | false =>
          have hkeep : (info.add r.val).name = info.name := by simp [TaskInfo.add, orKeep, hr]
          exact .inl (hkeep ▸ h)
      · exact .inr ⟨s, List.mem_cons_of_mem r hs, h⟩
  unfold getTaskInfo at h
  dsimp only at h
  split at h
  · cases h
  · next latest _ =>
    split at h
    · cases h
    · have hinfo := Option.some.inj (Except.ok.inj h)
      have hsame : strTruthy (taskInfoOf latest.val (taskEvents env.taskRows id)).name = true := by
        split at hinfo
        · subst hinfo
          exact hname
        · subst hinfo
          exact hname
      exact (hfold _ _ hsame).resolve_left (by rintro ⟨⟩)

/-- `revoke_task(task_id, terminate)`. -/
def revokeTask (env : Env) (w : World) (taskId : Json) (terminate : Json) :
    World × Except PyErr Reply :=
  match Uuid.ofJson taskId with
  | .error ⟨.valueError, _⟩ =>
    (w, .ok (.error s!"Invalid task_id format: {taskId.toStr env.lib}"))
  | .error e => (w, .error e)
  | .ok id =>
    if !taskExists env.taskRows id then
      (w, .ok (.error s!"Task not found: {taskId.toStr env.lib}"))
    else
      let text := taskId.toStr env.lib
      match w.call env (.revoke text terminate) with
      | (w, .ok _) => (w, .ok (.success text))
      | (w, .error e) => (w, .ok (.error s!"Failed to revoke task: {e.msg}"))

/-- The states `retry_task` accepts. -/
def retryable (state : String) : Bool :=
  state == "failed" || state == "revoked" || state == "orphaned"

/-- `retry_task(task_id)`. -/
def retryTask (env : Env) (w : World) (taskId : Json) : World × Except PyErr Reply :=
  match Uuid.ofJson taskId with
  | .error ⟨.valueError, _⟩ =>
    (w, .ok (.error s!"Invalid task_id format: {taskId.toStr env.lib}"))
  | .error e => (w, .error e)
  | .ok id => match getTaskInfo env id with
    | .error e => (w, .error e)
    | .ok none => (w, .ok (.error s!"Task not found: {taskId.toStr env.lib}"))
    | .ok (some info) =>
      if !retryable info.state then
        (w, .ok (.error (s!"Task is in '{info.state}' state. " ++
          "Only failed, revoked, or orphaned tasks can be retried.")))
      else if !strTruthy info.name then
        (w, .ok (.error "Cannot retry task: task name not found in events"))
      else
        let task : SentTask :=
          { name := jsonOf .str info.name, args := info.args, kwargs := info.kwargs,
            queue := jsonOf .str info.queue, rootId := some (info.rootId.getD id),
            parentId := some id }
        match w.call env (.sendTask task) with
        | (w, .ok newId) => (w, .ok (.success newId))
        | (w, .error e) => (w, .ok (.error s!"Failed to retry task: {e.msg}"))

/-- What a retry of a task with a name sends: the root recorded for the task, or else the task, and
the task as parent. -/
theorem retryTask_success {env : Env} {w w' : World} {taskId : Json} {newId : String}
    (h : retryTask env w taskId = (w', .ok (.success newId))) :
    ∃ id info task, Uuid.ofJson taskId = .ok id ∧ getTaskInfo env id = .ok (some info) ∧
      w' = w.send (.sendTask task) ∧ task.rootId = some (info.rootId.getD id) ∧
      task.parentId = some id ∧ strTruthy info.name = true := by
  unfold retryTask at h
  split at h
  · cases h
  · cases h
  · next id hid =>
    split at h
    · cases h
    · cases h
    · next info hinfo =>
      split at h
      · cases h
      · split at h
        · cases h
        · next hname =>
          dsimp only at h
          split at h
          · next w₁ newId' hcall =>
            cases h
            unfold World.call at hcall
            obtain ⟨rfl, -⟩ := Prod.mk.inj hcall
            exact ⟨id, info, _, hid, hinfo, rfl, rfl, rfl, by simpa using hname⟩
          · cases h

/-- `_parse_iso_datetime(value)`; `none` is the `ValueError`. -/
def parseIsoDatetime (env : Env) : Json → Except PyErr (Option (Option Int))
  | .null => .ok (some none)
  | .str s => .ok ((env.fromIso s).map some)
  | _ => .error ⟨.typeError, "fromisoformat: argument must be str"⟩

/-- `execute_task(name, args, kwargs, queue, countdown, eta, expires, priority)`, over the
parameters of an action. -/
def executeTask (env : Env) (w : World) (name : Json) (action : Dict) :
    World × Except PyErr Reply :=
  if !name.truthy then (w, .ok (.error "Task name is required"))
  else match parseIsoDatetime env (action.get "eta") with
    | .error e => (w, .error e)
    | .ok none => (w, .ok (.error "eta and expires must be valid ISO 8601 datetimes"))
    | .ok (some eta) => match parseIsoDatetime env (action.get "expires") with
      | .error e => (w, .error e)
      | .ok none => (w, .ok (.error "eta and expires must be valid ISO 8601 datetimes"))
      | .ok (some expires) => match ((action.get "args").or (.arr [])).iter with
        | .error e => (w, .ok (.error s!"Failed to execute task: {e.msg}"))
        | .ok args =>
          let task : SentTask :=
            { name := name, args := .arr args, kwargs := (action.get "kwargs").or (.obj []),
              queue := action.get "queue", countdown := action.get "countdown", eta := eta,
              expires := expires, priority := action.get "priority" }
          match w.call env (.sendTask task) with
          | (w, .ok newId) => (w, .ok (.success newId))
          | (w, .error e) => (w, .ok (.error s!"Failed to execute task: {e.msg}"))

end Taskowl
