import Mathlib.Algebra.BigOperators.Group.List.Lemmas
import Mathlib.Data.String.Basic
import Taskowl.Actions
import Taskowl.Automations
import Taskowl.Lib.Like

/-!
# Queries

`queries.py`: the task listings, a task rebuilt from its events, the summary,
the worker status, the orphaned tasks and the retry chain. The rows come in
the order the database scans them. What SQL leaves to the database, the
collation and `ILIKE`, is `Sql`; the average runtime of the summary is a
float and is left out.
-/

namespace Taskowl

open Lib Py

structure Sql where
  /-- `text ILIKE pattern`. -/
  ilike : String → String → Bool
  /-- The collation. -/
  le : String → String → Bool
  total : ∀ a b, le a b = true ∨ le b a = true
  trans : ∀ a b c, le a b = true → le b c = true → le a c = true
  antisymm : ∀ a b, le a b = true → le b a = true → a = b

/-- The wildcards of `LIKE`, and its default escape character. -/
def sqlWildcards : Wildcards Char where
  many := '%'
  one := '_'
  escape := '\\'
  many_ne_one := by decide
  many_ne_escape := by decide
  one_ne_escape := by decide

/-- Code points in order, and letter case as in ASCII. -/
def Sql.ascii : Sql where
  ilike text pattern :=
    sqlWildcards.like (pattern.toList.map Char.toLower) (text.toList.map Char.toLower)
  le a b := decide (a ≤ b)
  total a b := by simpa only [decide_eq_true_eq] using le_total a b
  trans a b c := by simpa only [decide_eq_true_eq] using le_trans
  antisymm a b := by simpa only [decide_eq_true_eq] using le_antisymm

example : Sql.ascii.ilike "billing.charge" "%Charge%" = true := by decide

/-- `ORDER BY column ASC`: NULLs come last. -/
def Sql.nullsLast (sql : Sql) : Option String → Option String → Bool
  | some a, some b => sql.le a b
  | none, some _ => false
  | _, none => true

/-! ## Listings -/

/-- `_earliest_name_expr()` of a task: `ORDER BY name IS NULL, timestamp`. -/
def earliestName (rows : List (Row TaskEvent)) (id : Uuid) : Option String :=
  (orderBy (fun r => if r.val.name.isNone then 1 else 0)
    (orderBy (·.val.timestamp) (rows.filter fun r => r.val.taskId = id))).head?.bind (·.val.name)

/-- A row of the window subquery. -/
structure Windowed where
  taskId : Uuid
  eventType : TaskEventType
  hostname : Option String
  queue : Option String
  timestamp : Int
  taskName : Option String
  deriving DecidableEq, Repr

/-- The rows with `latest_rn == 1`. -/
def windowed (rows : List (Row TaskEvent)) : List Windowed :=
  (latestRows (·.taskId) (·.timestamp) rows).map fun r =>
    { taskId := r.val.taskId, eventType := r.val.eventType, hostname := r.val.hostname,
      queue := r.val.queue, timestamp := r.val.timestamp,
      taskName := earliestName rows r.val.taskId }

/-- The filters of `list_tasks_query`. -/
structure TaskFilter where
  state : Option String := none
  name : Option String := none
  worker : Option String := none
  since : Option String := none
  search : Option String := none
  deriving DecidableEq, Repr

/-- `if value:` of a filter. -/
def given (value : Option String) : Option String := value.filter (· != "")

/-- The WHERE clauses, given the parsed `since`. -/
def TaskFilter.selects (f : TaskFilter) (env : Env) (sql : Sql) (since : Option Int)
    (w : Windowed) : Bool :=
  (given f.state).all (fun state => w.eventType.text == env.lib.lower state) &&
    (given f.name).all (fun name => w.taskName == some name) &&
    (given f.search).all (fun search =>
      w.taskName.any fun name => sql.ilike name ("%" ++ search ++ "%")) &&
    (given f.worker).all (fun worker => w.hostname == some worker) &&
    since.all (fun since => decide (since ≤ w.timestamp))

/-- The keys of `sort_keys`. -/
def sortKeys : List String := ["timestamp", "name", "state", "worker"]

/-- The ORDER BY of a sort key. -/
def sortOrder (sql : Sql) : String → Option (Windowed → Windowed → Bool)
  | "timestamp" => some fun a b => decide (b.timestamp ≤ a.timestamp)
  | "name" => some fun a b => sql.nullsLast a.taskName b.taskName
  | "state" => some fun a b => sql.le a.eventType.text b.eventType.text
  | "worker" => some fun a b => sql.nullsLast a.hostname b.hostname
  | _ => none

structure TaskEntry where
  id : String
  name : Option String
  state : String
  worker : Option String
  queue : Option String
  timestamp : String
  deriving DecidableEq, Repr

/-- A dict with an `error`, or a result. -/
inductive Answer (α : Type) where
  | error (msg : String)
  | ok (result : α)
  deriving DecidableEq, Repr

def limited {α : Type} (limit : Option Nat) (xs : List α) : List α :=
  match limit with
  | none => xs
  | some n => xs.take n

/-- `datetime.fromisoformat(since)` of a given `since`. -/
def parseSince (env : Env) (since : Option String) : Except PyErr (Option Int) :=
  match given since with
  | none => .ok none
  | some text => match env.fromIso text with
    | some t => .ok (some t)
    | none => .error ⟨.valueError, s!"Invalid isoformat string: '{text}'"⟩

/-- `list_tasks_query`. -/
def listTasks (env : Env) (sql : Sql) (filter : TaskFilter) (limit : Option Nat) (offset : Int)
    (sortBy : String) : Except PyErr (Answer (List TaskEntry)) :=
  match parseSince env filter.since with
  | .error e => .error e
  | .ok since => match sortOrder sql sortBy with
    | none => .ok (.error s!"Invalid sort_by: {sortBy}. Must be one of {strList sortKeys}")
    | some le =>
      let selected := (windowed env.taskRows).filter (filter.selects env sql since)
      let ordered := selected.insertionSort fun a b => le a b = true
      .ok (.ok ((limited limit (ordered.drop (max offset 0).toNat)).map fun w =>
        { id := w.taskId.str, name := w.taskName, state := w.eventType.text, worker := w.hostname,
          queue := w.queue, timestamp := isoformat w.timestamp }))

/-- `GROUP BY value` with `count()`. -/
def counts {α : Type} [DecidableEq α] (values : List α) : List (α × Nat) :=
  values.dedup.map fun v => (v, values.count v)

section Counts

variable {α : Type} [DecidableEq α]

theorem counts_pos {values : List α} {g : α × Nat} (h : g ∈ counts values) : 0 < g.2 := by
  obtain ⟨v, hv, rfl⟩ := List.mem_map.mp h
  exact List.count_pos_iff.mpr (List.mem_dedup.mp hv)

/-- The groups that a condition selects count the values it selects. -/
theorem sum_counts_filter (p : α → Bool) (values : List α) :
    (((counts values).filter fun g => p g.1).map (·.2)).sum = values.countP p := by
  unfold counts
  rw [List.filter_map, List.map_map]
  exact List.sum_map_count_dedup_filter_eq_countP p values

end Counts

/-- `list_task_types_query`: names and counts, the most frequent first, then by name. -/
def listTaskTypes (env : Env) (sql : Sql) (limit : Nat) : List (String × Nat) :=
  let groups := counts ((windowed env.taskRows).filterMap (·.taskName))
  let ordered := groups.insertionSort fun a b =>
    (decide (b.2 < a.2) || (decide (a.2 = b.2) && sql.le a.1 b.1)) = true
  ordered.take limit

/-! ## One task -/

structure EventEntry where
  eventType : String
  timestamp : String
  hostname : Option String
  deriving DecidableEq, Repr

/-- The dict `_get_task_impl` builds; `null` and `none` are missing keys, but for the ids. -/
structure TaskState where
  id : String
  rootId : Option String := none
  parentId : Option String := none
  events : List EventEntry := []
  name : Option String := none
  args : Json := .null
  kwargs : Json := .null
  result : Json := .null
  exception : Option String := none
  traceback : Option String := none
  runtime : Option PyFloat := none
  queue : Option String := none
  state : String := ""
  worker : Option String := none
  orphaned : Bool := false
  deriving DecidableEq, Repr

/-- One turn of the loop of `_get_task_impl`. -/
def TaskState.add (s : TaskState) (event : TaskEvent) : TaskState :=
  { s with
    name := orKeep s.name event.name
    args := event.args.read.or s.args
    kwargs := event.kwargs.read.or s.kwargs
    result := event.result.read.or s.result
    exception := orKeep s.exception event.exception
    traceback := orKeep s.traceback event.traceback
    runtime := event.runtime.or s.runtime
    queue := orKeep s.queue event.queue
    rootId := (event.rootId.map (·.str)).or s.rootId
    parentId := (event.parentId.map (·.str)).or s.parentId
    events := s.events ++ [⟨event.eventType.text, isoformat event.timestamp, event.hostname⟩] }

/-- `_get_task_impl(task_uuid, task_id)`. -/
def getTaskImpl (env : Env) (id : Uuid) (taskId : String) : Except PyErr (Answer TaskState) :=
  let events := taskEvents env.taskRows id
  match events.getLast? with
  | none => .ok (.error s!"Task not found: {taskId}")
  | some last =>
    let s := events.foldl (fun s r => s.add r.val) ({ id := id.str } : TaskState)
    match orphanRules env.settings env.workerRows last.val env.now with
    | .error e => .error e
    | .ok orphaned =>
      .ok (.ok { s with state := last.val.eventType.text, worker := last.val.hostname, orphaned })

/-- `get_task_query(task_id)`. -/
def getTask (env : Env) (taskId : String) : Except PyErr (Answer TaskState) :=
  match Uuid.parse taskId with
  | none => .ok (.error s!"Invalid task_id format: {taskId}")
  | some id => getTaskImpl env id taskId

/-! ## Summary and workers -/

structure Summary where
  periodHours : Int
  totalTasks : Nat
  byState : List (String × Nat)
  deriving DecidableEq, Repr

/-- `_get_task_summary_impl(since, hours)`. -/
def getTaskSummaryImpl (rows : List (Row TaskEvent)) (since hours : Int) : Summary :=
  let inWindow := (rows.filter fun r => decide (since ≤ r.val.timestamp)).map (·.val.taskId)
  let active := rows.filter fun r => r.val.taskId ∈ inWindow
  let states := (latestRows (·.taskId) (·.timestamp) active).map (·.val.eventType.text)
  let byState := counts states
  { periodHours := hours, totalTasks := (byState.map (·.2)).sum, byState }

/-- `get_task_summary_query(hours)`. -/
def getTaskSummary (env : Env) (hours : Int) : Except PyErr Summary :=
  match mkTimedelta (hours * 3600 * secondUs) with
  | .error e => .error e
  | .ok delta => match subDelta env.now delta with
    | .error e => .error e
    | .ok since => .ok (getTaskSummaryImpl env.taskRows since hours)

structure WorkerInfo where
  hostname : String
  status : String
  lastEvent : String
  lastHeartbeat : String
  active : Option Int
  processed : Option Int
  freq : Option PyFloat
  swIdent : Option String
  swVer : Option String
  swSys : Option String
  deriving DecidableEq, Repr

/-- `_worker_status(event, now)`. -/
def workerStatus (env : Env) (event : WorkerEvent) : Except PyErr String :=
  match secondsInt env.settings.workerOfflineTimeoutSeconds with
  | .error e => .error e
  | .ok timeout =>
    if event.eventType = .offline then .ok "offline"
    else if timeout < env.now - ensureUtc event.timestamp then .ok "offline"
    else .ok "online"

def workerInfo (event : WorkerEvent) (status : String) : WorkerInfo where
  hostname := event.hostname
  status := status
  lastEvent := event.eventType.text
  lastHeartbeat := isoformat event.timestamp
  active := event.active
  processed := event.processed
  freq := event.freq
  swIdent := given event.swIdent
  swVer := given event.swVer
  swSys := given event.swSys

/-- `get_worker_status_query()`. -/
def getWorkerStatus (env : Env) : Except PyErr (List WorkerInfo) :=
  (latestRows (·.hostname) (·.timestamp) env.workerRows).mapM fun r =>
    (workerStatus env r.val).map (workerInfo r.val)

/-- An `offline` event, or one older than the timeout. -/
def reportsOffline (timeout now : Int) (event : WorkerEvent) : Bool :=
  event.eventType == .offline || decide (timeout < now - ensureUtc event.timestamp)

theorem getWorkerStatus_ok {env : Env} {timeout : Int}
    (h : secondsInt env.settings.workerOfflineTimeoutSeconds = .ok timeout) :
    getWorkerStatus env = .ok ((latestRows (·.hostname) (·.timestamp) env.workerRows).map fun r =>
      workerInfo r.val (if reportsOffline timeout env.now r.val then "offline" else "online")) := by
  have hstatus : ∀ r : Row WorkerEvent, (workerStatus env r.val).map (workerInfo r.val) =
      (pure (workerInfo r.val
        (if reportsOffline timeout env.now r.val then "offline" else "online")) :
          Except PyErr WorkerInfo) := by
    intro r
    unfold workerStatus reportsOffline
    rw [h]
    dsimp only
    by_cases hoff : r.val.eventType = .offline
    · simp only [hoff, if_true, beq_self_eq_true, Bool.true_or]
      rfl
    · simp only [hoff, if_false, beq_eq_false_iff_ne.mpr hoff, Bool.false_or, decide_eq_true_eq]
      split <;> rfl
  unfold getWorkerStatus
  simp only [hstatus, List.mapM_pure]
  rfl

/-! ## Orphaned tasks -/

/-- `_workers_offline_map(now, offline_timeout)`. -/
def workersOfflineMap (env : Env) (timeout : Int) : List (String × Bool) :=
  (latestRows (·.hostname) (·.timestamp) env.workerRows).map fun r =>
    (r.val.hostname, r.val.eventType == .offline ||
      decide (timeout < env.now - ensureUtc r.val.timestamp))

structure OrphanEntry where
  id : String
  name : Option String
  state : String
  worker : String
  queue : Option String
  startedAt : String
  deriving DecidableEq, Repr

/-- What the loop of `_list_orphaned_tasks_impl` makes of a row. -/
def orphanEntry (env : Env) (grace : Int) (offline : List (String × Bool)) (w : Windowed) :
    Option OrphanEntry :=
  if w.eventType ≠ .started then none
  else if env.now - ensureUtc w.timestamp ≤ grace then none
  else match w.hostname with
    | none | some "" => none
    | some hostname =>
      if (offline.lookup hostname).getD true then
        some { id := w.taskId.str, name := w.taskName, state := "orphaned", worker := hostname,
               queue := w.queue, startedAt := isoformat w.timestamp }
      else none

/-- `list_orphaned_tasks_query(limit)`. -/
def listOrphanedTasks (env : Env) (limit : Option Nat) : Except PyErr (List OrphanEntry) :=
  match secondsInt env.settings.orphanGraceSeconds,
    secondsInt env.settings.workerOfflineTimeoutSeconds with
  | .ok grace, .ok timeout =>
    let offline := workersOfflineMap env timeout
    .ok (limited limit ((windowed env.taskRows).filterMap (orphanEntry env grace offline)))
  | .error e, _ | _, .error e => .error e

/-! ## Retry chains -/

structure ChainNode where
  taskId : String
  parentId : Option String
  state : String
  startedAt : String
  runtime : Option PyFloat
  deriving DecidableEq, Repr

structure Chain where
  rootId : String
  chain : List ChainNode
  deriving DecidableEq, Repr

/-- The root that the queried task recorded last, or else the task itself. -/
def resolveRoot (rows : List (Row TaskEvent)) (id : Uuid) : Uuid :=
  match topBy (·.val.timestamp)
    (rows.filter fun r => decide (r.val.taskId = id) && r.val.rootId.isSome) with
  | some r => r.val.rootId.getD id
  | none => id

/-- The rows of the `family` subquery. -/
def family (rows : List (Row TaskEvent)) (root id : Uuid) : List (Row TaskEvent) :=
  rows.filter fun r => decide (r.val.rootId = some root) || decide (r.val.taskId = id)

def chainNode (r : Row TaskEvent) : ChainNode where
  taskId := r.val.taskId.str
  parentId := r.val.parentId.map (·.str)
  state := r.val.eventType.text
  startedAt := isoformat r.val.timestamp
  runtime := r.val.runtime

/-- `_get_task_chain_impl(task_uuid, task_id)`. -/
def getTaskChainImpl (rows : List (Row TaskEvent)) (id : Uuid) : Chain :=
  let root := resolveRoot rows id
  let family := family rows root id
  let chainMap := (latestRows (·.taskId) (·.timestamp) family).map fun r =>
    (r.val.taskId, chainNode r)
  let ordered := orderBy (·.val.timestamp) (firstRows (·.taskId) (·.timestamp) family)
  { rootId := root.str, chain := ordered.filterMap fun r => chainMap.lookup r.val.taskId }

/-- `get_task_chain_query(task_id)`. -/
def getTaskChain (env : Env) (taskId : String) : Answer Chain :=
  match Uuid.parse taskId with
  | none => .error s!"Invalid task_id format: {taskId}"
  | some id => .ok (getTaskChainImpl env.taskRows id)

end Taskowl
