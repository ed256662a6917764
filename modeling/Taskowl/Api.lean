import Taskowl.Automations

/-!
# The REST API

The route table of `main.py`, in the order the routes are registered, and what
each route reads off a request. The Web framework is a `Framework`: how a URL
splits into segments, how texts and JSON values are coerced, and which
credentials an `Authorization` header carries. `dispatch` is the operation a
request comes to: the first route that matches serves it.
-/

namespace Taskowl

open Lib Py

/-! ## Requests -/

inductive Method where
  | get
  | post
  | put
  | delete
  deriving DecidableEq, Repr

structure HttpRequest where
  method : Method
  /-- The path of the URL, as it was sent. -/
  url : String
  /-- The query, decoded. -/
  query : List (String × String) := []
  body : Option Json := none
  /-- There is a body, and it is no JSON. -/
  malformed : Bool := false
  /-- The `Authorization` header. -/
  authorization : Option String := none
  deriving DecidableEq, Repr

def cleanChar (c : Char) : Bool := c.isAlphanum || "-_.~@:".toList.contains c

/-- A text that is one segment of a path and stays as it is. -/
def Clean (s : String) : Prop :=
  s ≠ "" ∧ s ≠ "." ∧ s ≠ ".." ∧ ∀ c ∈ s.toList, cleanChar c = true

instance (s : String) : Decidable (Clean s) :=
  decidable_of_iff (s ≠ "" ∧ s ≠ "." ∧ s ≠ ".." ∧ s.toList.all cleanChar = true)
    (by simp [Clean])

/-- What FastAPI, pydantic and Starlette do with the parts of a request. -/
structure Framework where
  /-- The segments of a path, decoded. -/
  segments : String → List String
  segments_clean : ∀ parts : List String, parts ≠ [] → (∀ s ∈ parts, Clean s) →
    segments ("/" ++ "/".intercalate parts) = parts
  /-- The `int` of a text. -/
  intOfText : String → Option Int
  intOfText_toString : ∀ i : Int, intOfText (toString i) = some i
  /-- The `bool` of a text. -/
  boolOfText : String → Option Bool
  boolOfText_true : boolOfText "true" = some true
  boolOfText_false : boolOfText "false" = some false
  /-- The `int` of a JSON value. -/
  intOfJson : Json → Option Int
  intOfJson_int : ∀ i, intOfJson (.int i) = some i
  /-- The `bool` of a JSON value. -/
  boolOfJson : Json → Option Bool
  boolOfJson_bool : ∀ b, boolOfJson (.bool b) = some b
  /-- The credentials of `HTTPBearer(auto_error=False)`. -/
  bearer : Option String → Option String

/-! ## Operations -/

/-- The parameters of `list_tasks_query`. -/
structure TaskQuery where
  state : Option String := none
  name : Option String := none
  worker : Option String := none
  since : Option String := none
  limit : Int := 100
  search : Option String := none
  offset : Int := 0
  sortBy : String := "timestamp"
  deriving DecidableEq, Repr

/-- `SendTaskRequest`. -/
structure SendTaskRequest where
  name : String
  args : Option (List Json) := none
  kwargs : Option Dict := none
  queue : Option String := none
  countdown : Option Int := none
  eta : Option String := none
  expires : Option String := none
  priority : Option Int := none
  deriving DecidableEq, Repr

/-- `AutomationCreate`. -/
structure AutomationCreate where
  name : String
  enabled : Bool := true
  triggerType : String
  eventType : Option String := none
  scheduleSeconds : Option Int := none
  conditions : Option (List Json) := none
  actions : Option (List Json) := none
  cooldownSeconds : Option Int := none
  maxRunsPerWindow : Option Int := none
  windowSeconds : Option Int := none
  circuitBreaker : Option Dict := none
  deriving DecidableEq, Repr

/-- `AutomationUpdate`. -/
structure AutomationUpdate where
  name : Option String := none
  enabled : Option Bool := none
  triggerType : Option String := none
  eventType : Option String := none
  scheduleSeconds : Option Int := none
  conditions : Option (List Json) := none
  actions : Option (List Json) := none
  cooldownSeconds : Option Int := none
  maxRunsPerWindow : Option Int := none
  windowSeconds : Option Int := none
  circuitBreaker : Option Dict := none
  deriving DecidableEq, Repr

/-- The function a route calls, with its arguments. -/
inductive Operation where
  | healthCheck
  | generateMetrics
  | root
  | listTasks (query : TaskQuery)
  | listTaskTypes (limit : Int)
  | getTaskSummary (hours : Int)
  | listOrphanedTasks (limit : Int)
  | getTask (taskId : String)
  | getTaskTimeline (taskId : String)
  | getTaskChain (taskId : String)
  | getWorkerStatus
  | revokeTask (taskId : String) (terminate : Bool)
  | retryTask (taskId : String)
  | executeTask (request : SendTaskRequest)
  | listWorkers
  | getWorkerStats (workerName : String)
  | shutdownWorker (workerName : String)
  | scaleWorkerPool (workerName : String) (delta : Int)
  | restartWorkerPool (workerName : String) (reload : Bool)
  | getActiveTasks (workerName : Option String)
  | getScheduledTasks (workerName : Option String)
  | getReservedTasks (workerName : Option String)
  | listQueues
  | listAutomations (enabled : Option Bool)
  | createAutomation (request : AutomationCreate)
  | getAutomation (automationId : Int)
  | updateAutomation (automationId : Int) (request : AutomationUpdate)
  | deleteAutomation (automationId : Int)
  | toggleAutomation (automationId : Int)
  | listAutomationRuns (automationId : Int) (limit : Int)
  | getAutomationStatus (automationId : Int)
  deriving DecidableEq, Repr

/-! ## What a route reads -/

section Reading

variable (f : Framework) (r : HttpRequest)

/-- `name: str | None = None`. -/
def HttpRequest.text (name : String) : Option String := r.query.lookup name

/-- `name: int = default`; `none` is a value that is no integer. -/
def HttpRequest.int (name : String) (default : Int) : Option Int :=
  match r.query.lookup name with
  | none => some default
  | some text => f.intOfText text

def HttpRequest.bool (name : String) (default : Bool) : Option Bool :=
  match r.query.lookup name with
  | none => some default
  | some text => f.boolOfText text

def HttpRequest.optionalBool (name : String) : Option (Option Bool) :=
  match r.query.lookup name with
  | none => some none
  | some text => (f.boolOfText text).map some

def strOfJson : Json → Option String
  | .str s => some s
  | _ => none

def listOfJson : Json → Option (List Json)
  | .arr xs => some xs
  | _ => none

def dictOfJson : Json → Option Dict
  | .obj d => some d
  | _ => none

def field {α : Type} (d : Dict) (name : String) (parse : Json → Option α) : Option (Option α) :=
  match d.lookup name with
  | none | some .null => some none
  | some v => (parse v).map some

def requiredField {α : Type} (d : Dict) (name : String) (parse : Json → Option α) : Option α :=
  (d.lookup name).bind parse

def SendTaskRequest.parse (body : Json) : Option SendTaskRequest := do
  let d ← dictOfJson body
  let name ← requiredField d "name" strOfJson
  let args ← field d "args" listOfJson
  let kwargs ← field d "kwargs" dictOfJson
  let queue ← field d "queue" strOfJson
  let countdown ← field d "countdown" f.intOfJson
  let eta ← field d "eta" strOfJson
  let expires ← field d "expires" strOfJson
  let priority ← field d "priority" f.intOfJson
  return { name, args, kwargs, queue, countdown, eta, expires, priority }

def AutomationCreate.parse (body : Json) : Option AutomationCreate := do
  let d ← dictOfJson body
  let name ← requiredField d "name" strOfJson
  let enabled ← match d.lookup "enabled" with
    | none => some true
    | some v => f.boolOfJson v
  let triggerType ← requiredField d "trigger_type" strOfJson
  let eventType ← field d "event_type" strOfJson
  let scheduleSeconds ← field d "schedule_seconds" f.intOfJson
  let conditions ← field d "conditions" listOfJson
  let actions ← field d "actions" listOfJson
  let cooldownSeconds ← field d "cooldown_seconds" f.intOfJson
  let maxRunsPerWindow ← field d "max_runs_per_window" f.intOfJson
  let windowSeconds ← field d "window_seconds" f.intOfJson
  let circuitBreaker ← field d "circuit_breaker" dictOfJson
  return { name, enabled, triggerType, eventType, scheduleSeconds, conditions, actions,
           cooldownSeconds, maxRunsPerWindow, windowSeconds, circuitBreaker }

def AutomationUpdate.parse (body : Json) : Option AutomationUpdate := do
  let d ← dictOfJson body
  let name ← field d "name" strOfJson
  let enabled ← field d "enabled" f.boolOfJson
  let triggerType ← field d "trigger_type" strOfJson
  let eventType ← field d "event_type" strOfJson
  let scheduleSeconds ← field d "schedule_seconds" f.intOfJson
  let conditions ← field d "conditions" listOfJson
  let actions ← field d "actions" listOfJson
  let cooldownSeconds ← field d "cooldown_seconds" f.intOfJson
  let maxRunsPerWindow ← field d "max_runs_per_window" f.intOfJson
  let windowSeconds ← field d "window_seconds" f.intOfJson
  let circuitBreaker ← field d "circuit_breaker" dictOfJson
  return { name, enabled, triggerType, eventType, scheduleSeconds, conditions, actions,
           cooldownSeconds, maxRunsPerWindow, windowSeconds, circuitBreaker }

def TaskQuery.parse : Option TaskQuery := do
  let limit ← r.int f "limit" 100
  let offset ← r.int f "offset" 0
  return { state := r.text "state", name := r.text "name", worker := r.text "worker",
           since := r.text "since", limit, search := r.text "search", offset,
           sortBy := (r.text "sort_by").getD "timestamp" }

end Reading

/-! ## The route table -/

/-- A part of a route's path: a fixed segment or a parameter. -/
inductive Part where
  | lit (s : String)
  | param
  deriving DecidableEq, Repr

structure Route where
  method : Method
  path : List Part
  /-- It has no `Depends(verify_api_key)`. -/
  isPublic : Bool := false
  /-- The call, given the path parameters; `none` is a validation error. -/
  call : Framework → List String → HttpRequest → Option Operation

@[simp]
def withParam (g : Framework → String → HttpRequest → Option Operation) :
    Framework → List String → HttpRequest → Option Operation
  | f, [p], r => g f p r
  | _, _, _ => none

@[simp]
def withId (g : Framework → Int → HttpRequest → Option Operation) :
    Framework → List String → HttpRequest → Option Operation :=
  withParam fun f p r => (f.intOfText p).bind fun id => g f id r

/-- `/api/tasks/..` -/
def taskRoutes : List Route := [
  { method := .get, path := [.lit "api", .lit "tasks"],
    call := fun f _ r => (TaskQuery.parse f r).map .listTasks },
  { method := .get, path := [.lit "api", .lit "tasks", .lit "types"],
    call := fun f _ r => (r.int f "limit" 50).map .listTaskTypes },
  { method := .get, path := [.lit "api", .lit "tasks", .lit "summary"],
    call := fun f _ r => (r.int f "hours" 1).map .getTaskSummary },
  { method := .get, path := [.lit "api", .lit "tasks", .lit "orphaned"],
    call := fun f _ r => (r.int f "limit" 100).map .listOrphanedTasks },
  { method := .get, path := [.lit "api", .lit "tasks", .param],
    call := withParam fun _ taskId _ => some (.getTask taskId) },
  { method := .get, path := [.lit "api", .lit "tasks", .param, .lit "timeline"],
    call := withParam fun _ taskId _ => some (.getTaskTimeline taskId) },
  { method := .get, path := [.lit "api", .lit "tasks", .param, .lit "chain"],
    call := withParam fun _ taskId _ => some (.getTaskChain taskId) },
  { method := .get, path := [.lit "api", .lit "workers"],
    call := fun _ _ _ => some .getWorkerStatus },
  { method := .post, path := [.lit "api", .lit "tasks", .param, .lit "revoke"],
    call := withParam fun f taskId r =>
      (r.bool f "terminate" false).map fun terminate => .revokeTask taskId terminate },
  { method := .post, path := [.lit "api", .lit "tasks", .param, .lit "retry"],
    call := withParam fun _ taskId _ => some (.retryTask taskId) },
  { method := .post, path := [.lit "api", .lit "tasks", .lit "execute"],
    call := fun f _ r => (r.body.bind (SendTaskRequest.parse f)).map .executeTask }]

def workerRoutes : List Route := [
  { method := .get, path := [.lit "api", .lit "workers", .lit "list"],
    call := fun _ _ _ => some .listWorkers },
  { method := .get, path := [.lit "api", .lit "workers", .param, .lit "stats"],
    call := withParam fun _ worker _ => some (.getWorkerStats worker) },
  { method := .post, path := [.lit "api", .lit "workers", .param, .lit "shutdown"],
    call := withParam fun _ worker _ => some (.shutdownWorker worker) },
  { method := .post, path := [.lit "api", .lit "workers", .param, .lit "scale"],
    call := withParam fun f worker r =>
      ((r.text "delta").bind f.intOfText).map fun delta => .scaleWorkerPool worker delta },
  { method := .post, path := [.lit "api", .lit "workers", .param, .lit "restart"],
    call := withParam fun f worker r =>
      (r.bool f "reload" false).map fun reload => .restartWorkerPool worker reload },
  { method := .get, path := [.lit "api", .lit "workers", .lit "active-tasks"],
    call := fun _ _ r => some (.getActiveTasks (r.text "worker_name")) },
  { method := .get, path := [.lit "api", .lit "workers", .lit "scheduled"],
    call := fun _ _ r => some (.getScheduledTasks (r.text "worker_name")) },
  { method := .get, path := [.lit "api", .lit "workers", .lit "reserved"],
    call := fun _ _ r => some (.getReservedTasks (r.text "worker_name")) },
  { method := .get, path := [.lit "api", .lit "queues"],
    call := fun _ _ _ => some .listQueues }]

def automationRoutes : List Route := [
  { method := .get, path := [.lit "api", .lit "automations"],
    call := fun f _ r => (r.optionalBool f "enabled").map .listAutomations },
  { method := .post, path := [.lit "api", .lit "automations"],
    call := fun f _ r => (r.body.bind (AutomationCreate.parse f)).map .createAutomation },
  { method := .get, path := [.lit "api", .lit "automations", .param],
    call := withId fun _ id _ => some (.getAutomation id) },
  { method := .put, path := [.lit "api", .lit "automations", .param],
    call := withId fun f id r =>
      (r.body.bind (AutomationUpdate.parse f)).map fun request => .updateAutomation id request },
  { method := .delete, path := [.lit "api", .lit "automations", .param],
    call := withId fun _ id _ => some (.deleteAutomation id) },
  { method := .post, path := [.lit "api", .lit "automations", .param, .lit "toggle"],
    call := withId fun _ id _ => some (.toggleAutomation id) },
  { method := .get, path := [.lit "api", .lit "automations", .param, .lit "runs"],
    call := withId fun f id r =>
      (r.int f "limit" 50).map fun limit => .listAutomationRuns id limit },
  { method := .get, path := [.lit "api", .lit "automations", .param, .lit "status"],
    call := withId fun _ id _ => some (.getAutomationStatus id) }]

/-- The routes of `app`, as they are registered. -/
def routes : List Route := [
  { method := .get, path := [.lit "health"], isPublic := true,
    call := fun _ _ _ => some .healthCheck },
  { method := .get, path := [.lit "metrics"], isPublic := true,
    call := fun _ _ _ => some .generateMetrics },
  { method := .get, path := [], isPublic := true, call := fun _ _ _ => some .root }] ++
    taskRoutes ++ workerRoutes ++ automationRoutes

@[simp]
def matchPath : List Part → List String → Option (List String)
  | [], [] => some []
  | .lit s :: parts, t :: segments => if s = t then matchPath parts segments else none
  | .param :: parts, t :: segments => (matchPath parts segments).map (t :: ·)
  | _, _ => none

/-- The first route of a list that serves the method at the path, with its parameters. -/
@[simp]
def findRoute (method : Method) (segments : List String) :
    List Route → Option (Route × List String)
  | [] => none
  | route :: rest =>
    match matchPath route.path segments with
    | none => findRoute method segments rest
    | some params =>
      if route.method = method then some (route, params) else findRoute method segments rest

/-- What a request comes to. -/
inductive Dispatch where
  /-- 404 or 405. -/
  | noRoute
  /-- 422. -/
  | invalid
  | call (op : Operation)
  deriving DecidableEq, Repr

/-- The call a request makes, when it may. -/
def dispatch (f : Framework) (r : HttpRequest) : Dispatch :=
  match findRoute r.method (f.segments r.url) routes with
  | none => .noRoute
  | some (route, params) => match route.call f params r with
    | none => .invalid
    | some op => .call op

end Taskowl
