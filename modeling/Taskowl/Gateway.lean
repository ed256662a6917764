import Mathlib
import Taskowl.Api

/-!
# The MCP gateway

The MCP server runs no query of its own: each of its tools sends a request to
the REST API (`mcp/tools.py`). What a tool sends is written here field by
field, as the tool builds it, and `dispatch` says where it lands: at the
operation the tool is named after, with the arguments it was given
(`gateway_lands`). Three task ids and the empty worker name land elsewhere
(`Operation.landed`).
-/

namespace Taskowl

open Lib Py

/-! ## What a tool sends -/

/-- `if value is not None: params[name] = value`. -/
def sent {α : Type} (name : String) (value : Option α) : List (String × α) :=
  (value.map fun v => (name, v)).toList

/-- `if value: params[name] = value`. -/
def sentTruthy (name : String) (value : Option String) : List (String × String) :=
  sent name (value.filter (· ≠ ""))

/-- `str(value)` of a query parameter that is a `bool`, as the client writes it. -/
def boolText (b : Bool) : String := if b then "true" else "false"

def orNull {α : Type} (encode : α → Json) (value : Option α) : Json := (value.map encode).getD .null

/-- `_get_headers()["Authorization"]`. -/
def getHeaders (apiKey : Option String) : Option String :=
  (apiKey.filter (· ≠ "")).map ("Bearer " ++ ·)

def TaskQuery.params (q : TaskQuery) : List (String × String) :=
  [("limit", toString q.limit), ("offset", toString q.offset), ("sort_by", q.sortBy)] ++
    sent "state" q.state ++ sent "name" q.name ++ sent "worker" q.worker ++
    sent "since" q.since ++ sent "search" q.search

def SendTaskRequest.payload (q : SendTaskRequest) : Dict :=
  [("name", .str q.name)] ++ sent "args" (q.args.map .arr) ++ sent "kwargs" (q.kwargs.map .obj) ++
    sent "queue" (q.queue.map .str) ++ sent "countdown" (q.countdown.map .int) ++
    sent "eta" (q.eta.map .str) ++ sent "expires" (q.expires.map .str) ++
    sent "priority" (q.priority.map .int)

def AutomationCreate.payload (q : AutomationCreate) : Dict := [
  ("name", .str q.name), ("trigger_type", .str q.triggerType), ("enabled", .bool q.enabled),
  ("event_type", orNull .str q.eventType), ("schedule_seconds", orNull .int q.scheduleSeconds),
  ("conditions", orNull .arr q.conditions), ("actions", orNull .arr q.actions),
  ("cooldown_seconds", orNull .int q.cooldownSeconds),
  ("max_runs_per_window", orNull .int q.maxRunsPerWindow),
  ("window_seconds", orNull .int q.windowSeconds),
  ("circuit_breaker", orNull .obj q.circuitBreaker)]

/-- The `fields` of a call of `update_automation` that gives what is not `None`. -/
def AutomationUpdate.fields (q : AutomationUpdate) : Dict :=
  sent "name" (q.name.map .str) ++ sent "enabled" (q.enabled.map .bool) ++
    sent "trigger_type" (q.triggerType.map .str) ++ sent "event_type" (q.eventType.map .str) ++
    sent "schedule_seconds" (q.scheduleSeconds.map .int) ++
    sent "conditions" (q.conditions.map .arr) ++ sent "actions" (q.actions.map .arr) ++
    sent "cooldown_seconds" (q.cooldownSeconds.map .int) ++
    sent "max_runs_per_window" (q.maxRunsPerWindow.map .int) ++
    sent "window_seconds" (q.windowSeconds.map .int) ++
    sent "circuit_breaker" (q.circuitBreaker.map .obj)

section Tools

variable (apiKey : Option String)

def clientGet (url : String) (query : List (String × String)) : HttpRequest :=
  { method := .get, url, query, authorization := getHeaders apiKey }

def clientPost (url : String) (query : List (String × String)) (body : Option Json) : HttpRequest :=
  { method := .post, url, query, body, authorization := getHeaders apiKey }

/-- What `update_automation` sends, whatever its `fields` are. -/
def updateAutomationRequest (id : Int) (fields : Dict) : HttpRequest :=
  { method := .put, url := "/api/automations/" ++ toString id, body := some (.obj fields),
    authorization := getHeaders apiKey }

/-- The request of the tool an operation has; the operations of the public routes have none. -/
def Operation.request : Operation → Option HttpRequest
  | .healthCheck | .generateMetrics | .root => none
  | .listTasks q => some (clientGet apiKey "/api/tasks" q.params)
  | .listTaskTypes limit =>
    some (clientGet apiKey "/api/tasks/types" [("limit", toString limit)])
  | .listOrphanedTasks limit =>
    some (clientGet apiKey "/api/tasks/orphaned" [("limit", toString limit)])
  | .getTask taskId => some (clientGet apiKey ("/api/tasks/" ++ taskId) [])
  | .getTaskTimeline taskId =>
    some (clientGet apiKey ("/api/tasks/" ++ taskId ++ "/timeline") [])
  | .getTaskChain taskId => some (clientGet apiKey ("/api/tasks/" ++ taskId ++ "/chain") [])
  | .getTaskSummary hours =>
    some (clientGet apiKey "/api/tasks/summary" [("hours", toString hours)])
  | .getWorkerStatus => some (clientGet apiKey "/api/workers" [])
  | .revokeTask taskId terminate =>
    some (clientPost apiKey ("/api/tasks/" ++ taskId ++ "/revoke")
      [("terminate", boolText terminate)] none)
  | .retryTask taskId => some (clientPost apiKey ("/api/tasks/" ++ taskId ++ "/retry") [] none)
  | .executeTask q =>
    some (clientPost apiKey "/api/tasks/execute" [] (some (.obj q.payload)))
  | .listWorkers => some (clientGet apiKey "/api/workers/list" [])
  | .getWorkerStats worker => some (clientGet apiKey ("/api/workers/" ++ worker ++ "/stats") [])
  | .shutdownWorker worker =>
    some (clientPost apiKey ("/api/workers/" ++ worker ++ "/shutdown") [] none)
  | .scaleWorkerPool worker delta =>
    some (clientPost apiKey ("/api/workers/" ++ worker ++ "/scale")
      [("delta", toString delta)] none)
  | .restartWorkerPool worker reload =>
    some (clientPost apiKey ("/api/workers/" ++ worker ++ "/restart")
      [("reload", boolText reload)] none)
  | .getActiveTasks worker =>
    some (clientGet apiKey "/api/workers/active-tasks" (sentTruthy "worker_name" worker))
  | .getScheduledTasks worker =>
    some (clientGet apiKey "/api/workers/scheduled" (sentTruthy "worker_name" worker))
  | .getReservedTasks worker =>
    some (clientGet apiKey "/api/workers/reserved" (sentTruthy "worker_name" worker))
  | .listQueues => some (clientGet apiKey "/api/queues" [])
  | .listAutomations enabled =>
    some (clientGet apiKey "/api/automations" (sent "enabled" (enabled.map boolText)))
  | .createAutomation q =>
    some (clientPost apiKey "/api/automations" [] (some (.obj q.payload)))
  | .getAutomation id => some (clientGet apiKey ("/api/automations/" ++ toString id) [])
  | .updateAutomation id q =>
    some (updateAutomationRequest apiKey id q.fields)
  | .deleteAutomation id =>
    some { method := .delete, url := "/api/automations/" ++ toString id,
           authorization := getHeaders apiKey }
  | .toggleAutomation id =>
    some (clientPost apiKey ("/api/automations/" ++ toString id ++ "/toggle") [] none)
  | .listAutomationRuns id limit =>
    some (clientGet apiKey ("/api/automations/" ++ toString id ++ "/runs")
      [("limit", toString limit)])
  | .getAutomationStatus id =>
    some (clientGet apiKey ("/api/automations/" ++ toString id ++ "/status") [])

end Tools

/-- The argument that a tool writes into the path of its URL. -/
def Operation.pathArg : Operation → Option String
  | .getTask taskId | .getTaskTimeline taskId | .getTaskChain taskId | .revokeTask taskId _
  | .retryTask taskId => some taskId
  | .getWorkerStats worker | .shutdownWorker worker | .scaleWorkerPool worker _
  | .restartWorkerPool worker _ => some worker
  | _ => none

/-- The operation that the request of a tool comes to. -/
@[simp]
def Operation.landed : Operation → Operation
  | .getTask taskId =>
    if taskId = "types" then .listTaskTypes 50
    else if taskId = "summary" then .getTaskSummary 1
    else if taskId = "orphaned" then .listOrphanedTasks 100
    else .getTask taskId
  | .getActiveTasks worker => .getActiveTasks (worker.filter (· ≠ ""))
  | .getScheduledTasks worker => .getScheduledTasks (worker.filter (· ≠ ""))
  | .getReservedTasks worker => .getReservedTasks (worker.filter (· ≠ ""))
  | op => op

def Operation.isPublic : Operation → Bool
  | .healthCheck | .generateMetrics | .root => true
  | _ => false

/-- Another route takes the request, or an argument is left out of it. -/
def Operation.shadowed : Operation → Bool
  | .getTask taskId => taskId = "types" || taskId = "summary" || taskId = "orphaned"
  | .getActiveTasks worker | .getScheduledTasks worker | .getReservedTasks worker =>
    worker = some ""
  | _ => false

theorem exists_request (apiKey : Option String) {op : Operation} (hop : op.isPublic = false) :
    ∃ r, op.request apiKey = some r := by
  cases op with
  | healthCheck | generateMetrics | root => simp [Operation.isPublic] at hop
  | _ => exact ⟨_, rfl⟩

theorem authorization_request {apiKey : Option String} {op : Operation} {r : HttpRequest}
    (hr : op.request apiKey = some r) : r.authorization = getHeaders apiKey := by
  cases op with
  | healthCheck | generateMetrics | root => cases hr
  | _ =>
    obtain rfl := Option.some.inj hr
    rfl

theorem filter_ne_empty_eq_self_iff (worker : Option String) :
    worker.filter (· ≠ "") = worker ↔ worker ≠ some "" := by
  cases worker with
  | none => simp
  | some w => by_cases h : w = "" <;> simp [Option.filter, h]

theorem landed_eq_self_iff (op : Operation) : op.landed = op ↔ op.shadowed = false := by
  cases op with
  | getTask taskId =>
    simp only [Operation.landed, Operation.shadowed, Bool.or_eq_false_iff, decide_eq_false_iff_not]
    split_ifs <;> simp_all
  | getActiveTasks worker | getScheduledTasks worker | getReservedTasks worker =>
    simpa [Operation.shadowed] using filter_ne_empty_eq_self_iff worker
  | _ => simp [Operation.shadowed]

/-! ## Arguments that come through -/

theorem lookup_sent_append {α : Type} (name : String) (value : Option α) (l : List (String × α))
    (key : String) :
    (sent name value ++ l).lookup key =
      if key = name then value.or (l.lookup key) else l.lookup key := by
  cases value with
  | none => simp [sent]
  | some v =>
    by_cases h : key = name
    · simp [sent, h]
    · have hbeq : (key == name) = false := by simpa using h
      simp [sent, List.lookup_cons, h, hbeq]

theorem lookup_sent {α : Type} (name : String) (value : Option α) (key : String) :
    (sent name value).lookup key = if key = name then value else none := by
  simpa using lookup_sent_append name value [] key

section Fields

variable {α : Type} {d : Dict} {name : String} {parse : Json → Option α} (encode : α → Json)

theorem field_of_sent {value : Option α} (h : d.lookup name = value.map encode)
    (hnull : ∀ a, encode a ≠ .null) (hparse : ∀ a, parse (encode a) = some a) :
    field d name parse = some value := by
  unfold field
  rw [h]
  cases value with
  | none => rfl
  | some a =>
    have := hparse a
    have := hnull a
    cases he : encode a <;> simp_all

theorem field_of_orNull {value : Option α} (h : d.lookup name = some (orNull encode value))
    (hnull : ∀ a, encode a ≠ .null) (hparse : ∀ a, parse (encode a) = some a) :
    field d name parse = some value := by
  cases value with
  | none => simp [field, h, orNull]
  | some a => exact field_of_sent encode h hnull hparse

end Fields

section Parsing

variable (f : Framework)

theorem Framework.intOfText_repr (i : Int) : f.intOfText i.repr = some i := f.intOfText_toString i

/-- What the route reads is what the tool was given. -/
theorem SendTaskRequest.parse_payload (q : SendTaskRequest) :
    SendTaskRequest.parse f (.obj q.payload) = some q := by
  have hname : requiredField q.payload "name" strOfJson = some q.name := by
    simp [requiredField, payload, strOfJson]
  have hargs : field q.payload "args" listOfJson = some q.args :=
    field_of_sent .arr (by simp [payload, lookup_sent_append, lookup_sent, List.lookup_cons])
      nofun fun _ => rfl
  have hkwargs : field q.payload "kwargs" dictOfJson = some q.kwargs :=
    field_of_sent .obj (by simp [payload, lookup_sent_append, lookup_sent, List.lookup_cons])
      nofun fun _ => rfl
  have hqueue : field q.payload "queue" strOfJson = some q.queue :=
    field_of_sent .str (by simp [payload, lookup_sent_append, lookup_sent, List.lookup_cons])
      nofun fun _ => rfl
  have hcountdown : field q.payload "countdown" f.intOfJson = some q.countdown :=
    field_of_sent .int (by simp [payload, lookup_sent_append, lookup_sent, List.lookup_cons])
      nofun f.intOfJson_int
  have heta : field q.payload "eta" strOfJson = some q.eta :=
    field_of_sent .str (by simp [payload, lookup_sent_append, lookup_sent, List.lookup_cons])
      nofun fun _ => rfl
  have hexpires : field q.payload "expires" strOfJson = some q.expires :=
    field_of_sent .str (by simp [payload, lookup_sent_append, lookup_sent, List.lookup_cons])
      nofun fun _ => rfl
  have hpriority : field q.payload "priority" f.intOfJson = some q.priority :=
    field_of_sent .int (by simp [payload, lookup_sent_append, lookup_sent, List.lookup_cons])
      nofun f.intOfJson_int
  simp [SendTaskRequest.parse, dictOfJson, hname, hargs, hkwargs, hqueue, hcountdown, heta,
    hexpires, hpriority]

theorem AutomationCreate.parse_payload (q : AutomationCreate) :
    AutomationCreate.parse f (.obj q.payload) = some q := by
  have hname : requiredField q.payload "name" strOfJson = some q.name := by
    simp [requiredField, payload, strOfJson]
  have henabled : q.payload.lookup "enabled" = some (.bool q.enabled) := by
    simp [payload, List.lookup_cons]
  have htrigger : requiredField q.payload "trigger_type" strOfJson = some q.triggerType := by
    simp [requiredField, payload, strOfJson, List.lookup_cons]
  have hevent : field q.payload "event_type" strOfJson = some q.eventType :=
    field_of_orNull .str (by simp [payload, List.lookup_cons]) nofun fun _ => rfl
  have hschedule : field q.payload "schedule_seconds" f.intOfJson = some q.scheduleSeconds :=
    field_of_orNull .int (by simp [payload, List.lookup_cons]) nofun f.intOfJson_int
  have hconditions : field q.payload "conditions" listOfJson = some q.conditions :=
    field_of_orNull .arr (by simp [payload, List.lookup_cons]) nofun fun _ => rfl
  have hactions : field q.payload "actions" listOfJson = some q.actions :=
    field_of_orNull .arr (by simp [payload, List.lookup_cons]) nofun fun _ => rfl
  have hcooldown : field q.payload "cooldown_seconds" f.intOfJson = some q.cooldownSeconds :=
    field_of_orNull .int (by simp [payload, List.lookup_cons]) nofun f.intOfJson_int
  have hmax : field q.payload "max_runs_per_window" f.intOfJson = some q.maxRunsPerWindow :=
    field_of_orNull .int (by simp [payload, List.lookup_cons]) nofun f.intOfJson_int
  have hwindow : field q.payload "window_seconds" f.intOfJson = some q.windowSeconds :=
    field_of_orNull .int (by simp [payload, List.lookup_cons]) nofun f.intOfJson_int
  have hbreaker : field q.payload "circuit_breaker" dictOfJson = some q.circuitBreaker :=
    field_of_orNull .obj (by simp [payload, List.lookup_cons]) nofun fun _ => rfl
  simp [AutomationCreate.parse, dictOfJson, hname, henabled, f.boolOfJson_bool, htrigger, hevent,
    hschedule, hconditions, hactions, hcooldown, hmax, hwindow, hbreaker]

theorem AutomationUpdate.parse_fields (q : AutomationUpdate) :
    AutomationUpdate.parse f (.obj q.fields) = some q := by
  have hname : field q.fields "name" strOfJson = some q.name :=
    field_of_sent .str (by simp [fields, lookup_sent_append, lookup_sent]) nofun fun _ => rfl
  have henabled : field q.fields "enabled" f.boolOfJson = some q.enabled :=
    field_of_sent .bool (by simp [fields, lookup_sent_append, lookup_sent]) nofun
      f.boolOfJson_bool
  have htrigger : field q.fields "trigger_type" strOfJson = some q.triggerType :=
    field_of_sent .str (by simp [fields, lookup_sent_append, lookup_sent]) nofun fun _ => rfl
  have hevent : field q.fields "event_type" strOfJson = some q.eventType :=
    field_of_sent .str (by simp [fields, lookup_sent_append, lookup_sent]) nofun fun _ => rfl
  have hschedule : field q.fields "schedule_seconds" f.intOfJson = some q.scheduleSeconds :=
    field_of_sent .int (by simp [fields, lookup_sent_append, lookup_sent]) nofun f.intOfJson_int
  have hconditions : field q.fields "conditions" listOfJson = some q.conditions :=
    field_of_sent .arr (by simp [fields, lookup_sent_append, lookup_sent]) nofun fun _ => rfl
  have hactions : field q.fields "actions" listOfJson = some q.actions :=
    field_of_sent .arr (by simp [fields, lookup_sent_append, lookup_sent]) nofun fun _ => rfl
  have hcooldown : field q.fields "cooldown_seconds" f.intOfJson = some q.cooldownSeconds :=
    field_of_sent .int (by simp [fields, lookup_sent_append, lookup_sent]) nofun f.intOfJson_int
  have hmax : field q.fields "max_runs_per_window" f.intOfJson = some q.maxRunsPerWindow :=
    field_of_sent .int (by simp [fields, lookup_sent_append, lookup_sent]) nofun f.intOfJson_int
  have hwindow : field q.fields "window_seconds" f.intOfJson = some q.windowSeconds :=
    field_of_sent .int (by simp [fields, lookup_sent_append, lookup_sent]) nofun f.intOfJson_int
  have hbreaker : field q.fields "circuit_breaker" dictOfJson = some q.circuitBreaker :=
    field_of_sent .obj (by simp [fields, lookup_sent_append, lookup_sent]) nofun fun _ => rfl
  simp [AutomationUpdate.parse, dictOfJson, hname, henabled, htrigger, hevent, hschedule,
    hconditions, hactions, hcooldown, hmax, hwindow, hbreaker]

theorem TaskQuery.parse_params (q : TaskQuery) (url : String) (apiKey : Option String) :
    TaskQuery.parse f (clientGet apiKey url q.params) = some q := by
  simp [TaskQuery.parse, clientGet, HttpRequest.int, HttpRequest.text, params, List.lookup_cons,
    lookup_sent_append, lookup_sent, f.intOfText_repr]

end Parsing

/-! ## Where a request lands -/

theorem mem_repr (i : Int) : ∀ c ∈ i.repr.toList, c.isDigit = true ∨ c = '-' := by
  have hdigits : ∀ n : Nat, ∀ c ∈ n.repr.toList, c.isDigit = true := by
    intro n c hc
    rw [Nat.toList_repr] at hc
    exact Nat.isDigit_of_mem_toDigits (by decide) (by decide) hc
  intro c hc
  cases i with
  | ofNat n => exact .inl (hdigits n c hc)
  | negSucc n =>
    have hrepr : (Int.negSucc n).repr.toList = '-' :: (n + 1).repr.toList := by
      simp [Int.repr]
    rw [hrepr, List.mem_cons] at hc
    exact hc.symm.imp_left (hdigits (n + 1) c)

theorem repr_toList_ne_nil (i : Int) : i.repr.toList ≠ [] := by
  cases i with
  | ofNat n =>
    have : n.repr.toList ≠ [] := by
      rw [Nat.toList_repr]
      exact Nat.toDigits_ne_nil
    exact this
  | negSucc n => simp [Int.repr]

theorem clean_repr (i : Int) : Clean i.repr := by
  have hdot : '.' ∉ i.repr.toList := fun h => by simpa using mem_repr i '.' h
  refine ⟨fun h => repr_toList_ne_nil i (by simp [h]), fun h => hdot (by simp [h]),
    fun h => hdot (by simp [h]), fun c hc => ?_⟩
  rcases mem_repr i c hc with h | rfl
  · simp [cleanChar, Char.isAlphanum, h]
  · decide

section Landing

variable {f : Framework}

theorem boolOfText_boolText (b : Bool) : f.boolOfText (boolText b) = some b := by
  cases b with
  | false => exact f.boolOfText_false
  | true => exact f.boolOfText_true

theorem segments_kind {url : String} (kind : String) (hurl : url = "/api/" ++ kind)
    (hkind : Clean kind) : f.segments url = ["api", kind] := by
  have hapi : Clean "api" := by decide
  have hjoin : url = "/" ++ "/".intercalate ["api", kind] := by simp [hurl, ← String.toList_inj]
  rw [hjoin, f.segments_clean _ (by simp) (by simp [hapi, hkind])]

theorem segments_word {url : String} (kind word : String)
    (hurl : url = "/api/" ++ kind ++ "/" ++ word) (hkind : Clean kind) (hword : Clean word) :
    f.segments url = ["api", kind, word] := by
  have hapi : Clean "api" := by decide
  have hjoin : url = "/" ++ "/".intercalate ["api", kind, word] := by
    simp [hurl, ← String.toList_inj]
  rw [hjoin, f.segments_clean _ (by simp) (by simp [hapi, hkind, hword])]

theorem segments_arg {front arg : String} (kind : String) (hfront : front = "/api/" ++ kind ++ "/")
    (hkind : Clean kind) (harg : Clean arg) : f.segments (front ++ arg) = ["api", kind, arg] := by
  have hapi : Clean "api" := by decide
  have hjoin : front ++ arg = "/" ++ "/".intercalate ["api", kind, arg] := by
    simp [hfront, ← String.toList_inj]
  rw [hjoin, f.segments_clean _ (by simp) (by simp [hapi, hkind, harg])]

theorem segments_action {front back arg : String} (kind action : String)
    (hfront : front = "/api/" ++ kind ++ "/") (hback : back = "/" ++ action) (hkind : Clean kind)
    (haction : Clean action) (harg : Clean arg) :
    f.segments (front ++ arg ++ back) = ["api", kind, arg, action] := by
  have hapi : Clean "api" := by decide
  have hjoin : front ++ arg ++ back = "/" ++ "/".intercalate ["api", kind, arg, action] := by
    simp [hfront, hback, ← String.toList_inj]
  rw [hjoin, f.segments_clean _ (by simp) (by simp [hapi, hkind, harg, haction])]

theorem dispatch_updateAutomation (apiKey : Option String) (id : Int) (fields : Dict) :
    dispatch f (updateAutomationRequest apiKey id fields) =
      match AutomationUpdate.parse f (.obj fields) with
      | none => .invalid
      | some q => .call (.updateAutomation id q) := by
  have hsegments : f.segments ("/api/automations/" ++ id.repr) =
      ["api", "automations", id.repr] :=
    segments_arg "automations" rfl (by decide) (clean_repr id)
  cases hparse : AutomationUpdate.parse f (.obj fields) <;>
    simp [dispatch, updateAutomationRequest, hsegments, routes, taskRoutes, workerRoutes,
      automationRoutes, f.intOfText_repr, hparse]

/-- The request of a tool comes to the operation of its name, but for the ids that another route
takes. -/
theorem dispatch_request (apiKey : Option String) {op : Operation} {r : HttpRequest}
    (hr : op.request apiKey = some r) (hclean : ∀ arg ∈ op.pathArg, Clean arg) :
    dispatch f r = .call op.landed := by
  cases op with
  | healthCheck | generateMetrics | root => simp [Operation.request] at hr
  | listTasks q =>
    obtain rfl := Option.some.inj hr
    have hsegments : f.segments "/api/tasks" = ["api", "tasks"] :=
      segments_kind "tasks" rfl (by decide)
    have hquery := TaskQuery.parse_params f q "/api/tasks" apiKey
    simp only [clientGet] at hquery
    simp [dispatch, clientGet, hsegments, routes, taskRoutes, hquery]
  | listTaskTypes limit =>
    obtain rfl := Option.some.inj hr
    have hsegments : f.segments "/api/tasks/types" = ["api", "tasks", "types"] :=
      segments_word "tasks" "types" rfl (by decide) (by decide)
    simp [dispatch, clientGet, hsegments, routes, taskRoutes, HttpRequest.int, f.intOfText_repr]
  | getTaskSummary hours =>
    obtain rfl := Option.some.inj hr
    have hsegments : f.segments "/api/tasks/summary" = ["api", "tasks", "summary"] :=
      segments_word "tasks" "summary" rfl (by decide) (by decide)
    simp [dispatch, clientGet, hsegments, routes, taskRoutes, HttpRequest.int, f.intOfText_repr]
  | listOrphanedTasks limit =>
    obtain rfl := Option.some.inj hr
    have hsegments : f.segments "/api/tasks/orphaned" = ["api", "tasks", "orphaned"] :=
      segments_word "tasks" "orphaned" rfl (by decide) (by decide)
    simp [dispatch, clientGet, hsegments, routes, taskRoutes, HttpRequest.int, f.intOfText_repr]
  | getTask id =>
    obtain rfl := Option.some.inj hr
    have hsegments : f.segments ("/api/tasks/" ++ id) = ["api", "tasks", id] :=
      segments_arg "tasks" rfl (by decide) (hclean id rfl)
    simp only [dispatch, clientGet, hsegments]
    -- the routes of the three words stand before the route of an id
    by_cases htypes : "types" = id
    · simp [routes, taskRoutes, ← htypes, HttpRequest.int]
    by_cases hsummary : "summary" = id
    · simp [routes, taskRoutes, ← hsummary, HttpRequest.int]
    by_cases horphaned : "orphaned" = id
    · simp [routes, taskRoutes, ← horphaned, HttpRequest.int]
    simp [routes, taskRoutes, htypes, hsummary, horphaned, Ne.symm htypes, Ne.symm hsummary,
      Ne.symm horphaned]
  | getTaskTimeline id =>
    obtain rfl := Option.some.inj hr
    have hsegments : f.segments ("/api/tasks/" ++ id ++ "/timeline") =
        ["api", "tasks", id, "timeline"] :=
      segments_action "tasks" "timeline" rfl rfl (by decide) (by decide) (hclean id rfl)
    simp [dispatch, clientGet, hsegments, routes, taskRoutes]
  | getTaskChain id =>
    obtain rfl := Option.some.inj hr
    have hsegments : f.segments ("/api/tasks/" ++ id ++ "/chain") = ["api", "tasks", id, "chain"] :=
      segments_action "tasks" "chain" rfl rfl (by decide) (by decide) (hclean id rfl)
    simp [dispatch, clientGet, hsegments, routes, taskRoutes]
  | getWorkerStatus =>
    obtain rfl := Option.some.inj hr
    have hsegments : f.segments "/api/workers" = ["api", "workers"] :=
      segments_kind "workers" rfl (by decide)
    simp [dispatch, clientGet, hsegments, routes, taskRoutes]
  | revokeTask id terminate =>
    obtain rfl := Option.some.inj hr
    have hsegments : f.segments ("/api/tasks/" ++ id ++ "/revoke") =
        ["api", "tasks", id, "revoke"] :=
      segments_action "tasks" "revoke" rfl rfl (by decide) (by decide) (hclean id rfl)
    simp [dispatch, clientPost, hsegments, routes, taskRoutes, HttpRequest.bool,
      boolOfText_boolText]
  | retryTask id =>
    obtain rfl := Option.some.inj hr
    have hsegments : f.segments ("/api/tasks/" ++ id ++ "/retry") = ["api", "tasks", id, "retry"] :=
      segments_action "tasks" "retry" rfl rfl (by decide) (by decide) (hclean id rfl)
    simp [dispatch, clientPost, hsegments, routes, taskRoutes]
  | executeTask q =>
    obtain rfl := Option.some.inj hr
    have hsegments : f.segments "/api/tasks/execute" = ["api", "tasks", "execute"] :=
      segments_word "tasks" "execute" rfl (by decide) (by decide)
    simp [dispatch, clientPost, hsegments, routes, taskRoutes, SendTaskRequest.parse_payload]
  | listWorkers =>
    obtain rfl := Option.some.inj hr
    have hsegments : f.segments "/api/workers/list" = ["api", "workers", "list"] :=
      segments_word "workers" "list" rfl (by decide) (by decide)
    simp [dispatch, clientGet, hsegments, routes, taskRoutes, workerRoutes]
  | getWorkerStats worker =>
    obtain rfl := Option.some.inj hr
    have hsegments : f.segments ("/api/workers/" ++ worker ++ "/stats") =
        ["api", "workers", worker, "stats"] :=
      segments_action "workers" "stats" rfl rfl (by decide) (by decide) (hclean worker rfl)
    simp [dispatch, clientGet, hsegments, routes, taskRoutes, workerRoutes]
  | shutdownWorker worker =>
    obtain rfl := Option.some.inj hr
    have hsegments : f.segments ("/api/workers/" ++ worker ++ "/shutdown") =
        ["api", "workers", worker, "shutdown"] :=
      segments_action "workers" "shutdown" rfl rfl (by decide) (by decide) (hclean worker rfl)
    simp [dispatch, clientPost, hsegments, routes, taskRoutes, workerRoutes]
  | scaleWorkerPool worker delta =>
    obtain rfl := Option.some.inj hr
    have hsegments : f.segments ("/api/workers/" ++ worker ++ "/scale") =
        ["api", "workers", worker, "scale"] :=
      segments_action "workers" "scale" rfl rfl (by decide) (by decide) (hclean worker rfl)
    simp [dispatch, clientPost, hsegments, routes, taskRoutes, workerRoutes, HttpRequest.text,
      f.intOfText_repr]
  | restartWorkerPool worker reload =>
    obtain rfl := Option.some.inj hr
    have hsegments : f.segments ("/api/workers/" ++ worker ++ "/restart") =
        ["api", "workers", worker, "restart"] :=
      segments_action "workers" "restart" rfl rfl (by decide) (by decide) (hclean worker rfl)
    simp [dispatch, clientPost, hsegments, routes, taskRoutes, workerRoutes, HttpRequest.bool,
      boolOfText_boolText]
  | getActiveTasks worker =>
    obtain rfl := Option.some.inj hr
    have hsegments : f.segments "/api/workers/active-tasks" = ["api", "workers", "active-tasks"] :=
      segments_word "workers" "active-tasks" rfl (by decide) (by decide)
    simp [dispatch, clientGet, hsegments, routes, taskRoutes, workerRoutes, HttpRequest.text,
      sentTruthy, lookup_sent]
  | getScheduledTasks worker =>
    obtain rfl := Option.some.inj hr
    have hsegments : f.segments "/api/workers/scheduled" = ["api", "workers", "scheduled"] :=
      segments_word "workers" "scheduled" rfl (by decide) (by decide)
    simp [dispatch, clientGet, hsegments, routes, taskRoutes, workerRoutes, HttpRequest.text,
      sentTruthy, lookup_sent]
  | getReservedTasks worker =>
    obtain rfl := Option.some.inj hr
    have hsegments : f.segments "/api/workers/reserved" = ["api", "workers", "reserved"] :=
      segments_word "workers" "reserved" rfl (by decide) (by decide)
    simp [dispatch, clientGet, hsegments, routes, taskRoutes, workerRoutes, HttpRequest.text,
      sentTruthy, lookup_sent]
  | listQueues =>
    obtain rfl := Option.some.inj hr
    have hsegments : f.segments "/api/queues" = ["api", "queues"] :=
      segments_kind "queues" rfl (by decide)
    simp [dispatch, clientGet, hsegments, routes, taskRoutes, workerRoutes]
  | listAutomations enabled =>
    obtain rfl := Option.some.inj hr
    have hsegments : f.segments "/api/automations" = ["api", "automations"] :=
      segments_kind "automations" rfl (by decide)
    cases enabled with
    | none =>
      simp [dispatch, clientGet, hsegments, routes, taskRoutes, workerRoutes, automationRoutes,
        HttpRequest.optionalBool, sent]
    | some enabled =>
      simp [dispatch, clientGet, hsegments, routes, taskRoutes, workerRoutes, automationRoutes,
        HttpRequest.optionalBool, sent, boolOfText_boolText]
  | createAutomation q =>
    obtain rfl := Option.some.inj hr
    have hsegments : f.segments "/api/automations" = ["api", "automations"] :=
      segments_kind "automations" rfl (by decide)
    simp [dispatch, clientPost, hsegments, routes, taskRoutes, workerRoutes, automationRoutes,
      AutomationCreate.parse_payload]
  | getAutomation id =>
    obtain rfl := Option.some.inj hr
    have hsegments : f.segments ("/api/automations/" ++ id.repr) =
        ["api", "automations", id.repr] :=
      segments_arg "automations" rfl (by decide) (clean_repr id)
    simp [dispatch, clientGet, hsegments, routes, taskRoutes, workerRoutes, automationRoutes,
      f.intOfText_repr]
  | updateAutomation id q =>
    obtain rfl := Option.some.inj hr
    rw [dispatch_updateAutomation, AutomationUpdate.parse_fields]
    rfl
  | deleteAutomation id =>
    obtain rfl := Option.some.inj hr
    have hsegments : f.segments ("/api/automations/" ++ id.repr) =
        ["api", "automations", id.repr] :=
      segments_arg "automations" rfl (by decide) (clean_repr id)
    simp [dispatch, hsegments, routes, taskRoutes, workerRoutes, automationRoutes,
      f.intOfText_repr]
  | toggleAutomation id =>
    obtain rfl := Option.some.inj hr
    have hsegments : f.segments ("/api/automations/" ++ id.repr ++ "/toggle") =
        ["api", "automations", id.repr, "toggle"] :=
      segments_action "automations" "toggle" rfl rfl (by decide) (by decide) (clean_repr id)
    simp [dispatch, clientPost, hsegments, routes, taskRoutes, workerRoutes, automationRoutes,
      f.intOfText_repr]
  | listAutomationRuns id limit =>
    obtain rfl := Option.some.inj hr
    have hsegments : f.segments ("/api/automations/" ++ id.repr ++ "/runs") =
        ["api", "automations", id.repr, "runs"] :=
      segments_action "automations" "runs" rfl rfl (by decide) (by decide) (clean_repr id)
    simp [dispatch, clientGet, hsegments, routes, taskRoutes, workerRoutes, automationRoutes,
      f.intOfText_repr, HttpRequest.int]
  | getAutomationStatus id =>
    obtain rfl := Option.some.inj hr
    have hsegments : f.segments ("/api/automations/" ++ id.repr ++ "/status") =
        ["api", "automations", id.repr, "status"] :=
      segments_action "automations" "status" rfl rfl (by decide) (by decide) (clean_repr id)
    simp [dispatch, clientGet, hsegments, routes, taskRoutes, workerRoutes, automationRoutes,
      f.intOfText_repr]

/-- Every operation behind the key has a tool, and what the tool sends comes to it exactly when
no other route takes the request. -/
theorem gateway_lands (f : Framework) (apiKey : Option String) (op : Operation)
    (hop : op.isPublic = false) (hclean : ∀ arg ∈ op.pathArg, Clean arg) :
    ∃ r, op.request apiKey = some r ∧ dispatch f r = .call op.landed ∧
      (dispatch f r = .call op ↔ op.shadowed = false) := by
  obtain ⟨r, hr⟩ := exists_request apiKey hop
  have hlands := dispatch_request (f := f) apiKey hr hclean
  refine ⟨r, hr, hlands, ?_⟩
  rw [hlands, Dispatch.call.injEq]
  exact landed_eq_self_iff op

end Landing

/-! ## A framework -/

/-- The path after its first slash, cut at the others; `/` has no segment. -/
def cutPath (url : String) : List String :=
  if url = "/" then [] else ((url.toList.splitOn '/').drop 1).map String.ofList

theorem cutPath_join {parts : List String} (hparts : parts ≠ []) (hclean : ∀ s ∈ parts, Clean s) :
    cutPath ("/" ++ "/".intercalate parts) = parts := by
  have hslash : ∀ l ∈ parts.map String.toList, '/' ∉ l := by
    simp only [List.mem_map, forall_exists_index, and_imp, forall_apply_eq_imp_iff₂]
    exact fun s hs h => absurd ((hclean s hs).2.2.2 '/' h) (by decide)
  have hchars : ("/" ++ "/".intercalate parts).toList =
      ['/'].intercalate ([] :: parts.map String.toList) := by
    cases parts with
    | nil => exact absurd rfl hparts
    | cons p ps => simp [String.toList_intercalate, List.intercalate]
  have hsplit : (['/'].intercalate ([] :: parts.map String.toList)).splitOn '/' =
      [] :: parts.map String.toList :=
    List.splitOn_intercalate '/' (by simpa using hslash) (List.cons_ne_nil _ _)
  have hne : "/" ++ "/".intercalate parts ≠ "/" := by
    intro h
    rw [h] at hchars
    rw [← hchars] at hsplit
    have hroot : "/".toList.splitOn '/' = [[], []] := by decide
    have hempty : parts.map String.toList = [[]] :=
      (List.cons.inj (hroot.symm.trans hsplit)).2.symm
    have hmem : [] ∈ parts.map String.toList := by simp [hempty]
    obtain ⟨p, hp, hnil⟩ := List.mem_map.mp hmem
    exact (hclean p hp).1 (by simpa using hnil)
  rw [cutPath, if_neg hne, hchars, hsplit]
  simp

/-- `HTTPBearer(auto_error=False)`: the scheme, in any case, and what follows the first space. -/
def bearerCredentials (authorization : String) : Option String :=
  let scheme := authorization.toList.takeWhile (· ≠ ' ')
  let credentials := (authorization.toList.dropWhile (· ≠ ' ')).drop 1
  if scheme.map Char.toLower = "bearer".toList ∧ credentials ≠ [] then
    some (String.ofList credentials)
  else none

/-- A framework that reads integers and booleans as they are written. -/
def Framework.plain : Framework where
  segments := cutPath
  segments_clean _ hparts hclean := cutPath_join hparts hclean
  intOfText := String.toInt?
  intOfText_toString _ := by simp
  boolOfText s := if s = "true" then some true else if s = "false" then some false else none
  boolOfText_true := rfl
  boolOfText_false := rfl
  intOfJson
    | .int i => some i
    | _ => none
  intOfJson_int _ := rfl
  boolOfJson
    | .bool b => some b
    | _ => none
  boolOfJson_bool _ := rfl
  bearer authorization := authorization.bind bearerCredentials

/-- The id `orphaned` is the one of another route. -/
theorem gateway_lands_orphaned :
    ∃ r, Operation.request (some "k") (.getTask "orphaned") = some r ∧
      dispatch Framework.plain r = .call (.listOrphanedTasks 100) := by
  obtain ⟨r, hr, hlands, -⟩ := gateway_lands Framework.plain (some "k") (.getTask "orphaned") rfl
    (by decide)
  exact ⟨r, hr, hlands⟩

end Taskowl
