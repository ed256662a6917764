import Taskowl.Lib.Samples
import Taskowl.Queries
import Taskowl.Receiver

/-!
# Metrics

`metrics.py`: a scrape fills a new registry from the tables. The client
library is a parameter, known by its documented operations; a sample is the
exact number, as a float holds it up to `2^53`. A scrape returns unless a
counter would go down or the details of a run are no dict, and the samples
are then those of the updates it makes (`scrape_samples`).
-/

namespace Taskowl

open Lib Py

inductive CounterMetric where
  /-- `taskowl_task_events_total`, by `event_type`, `task_name` and `worker`. -/
  | taskEventsTotal
  /-- `taskowl_worker_processed_total`, by `worker`. -/
  | workerProcessedTotal
  /-- `taskowl_automation_fired_total`, by `automation_id` and `trigger`. -/
  | automationFiredTotal
  /-- `taskowl_automation_skipped_total`, by `automation_id` and `reason`. -/
  | automationSkippedTotal
  deriving DecidableEq, Repr

inductive GaugeMetric where
  /-- `taskowl_worker_status`, by `worker`. -/
  | workerStatus
  /-- `taskowl_worker_active_tasks`, by `worker`. -/
  | workerActiveTasks
  deriving DecidableEq, Repr

inductive HistogramMetric where
  /-- `taskowl_task_execution_duration_seconds`, by `task_name`. -/
  | taskDuration
  deriving DecidableEq, Repr

structure Series (μ : Type) where
  metric : μ
  labels : List String
  deriving DecidableEq, Repr

/-- `prometheus_client`. -/
abbrev Prometheus :=
  Client (Series CounterMetric) (Series GaugeMetric) (Series HistogramMetric) PyFloat PyErr

/-- `amount <= bound` for some bound of the buckets, of which the last is `+Inf`. -/
def bucketed (amount : PyFloat) : Bool := CmpOp.le.num amount .inf

def Prometheus.recorder : Prometheus :=
  Client.recorder ⟨.valueError, "Counters can only be incremented by non-negative amounts."⟩
    bucketed

theorem documented_recorder : Prometheus.recorder.Documented bucketed :=
  Client.documented_recorder ..

abbrev MetricUpdate :=
  Update (Series CounterMetric) (Series GaugeMetric) (Series HistogramMetric) PyFloat

section Populate

variable (p : Prometheus)

/-! ## Tasks -/

/-- The columns the events are grouped by. -/
abbrev TaskGroup := TaskEventType × Option String × Option String

def taskGroup (r : Row TaskEvent) : TaskGroup := (r.val.eventType, r.val.name, r.val.hostname)

def groupSeries (g : TaskGroup) : Series CounterMetric :=
  ⟨.taskEventsTotal, [g.1.text, g.2.1.getD "", g.2.2.getD ""]⟩

def durationSeries (name : Option String) : Series HistogramMetric :=
  ⟨.taskDuration, [name.getD ""]⟩

/-- The rows of the duration query. -/
def durationRows (rows : List (Row TaskEvent)) : List (Option String × Option PyFloat) :=
  (rows.filter fun r => r.val.eventType == .succeeded && r.val.runtime.isSome).map fun r =>
    (r.val.name, r.val.runtime)

/-- `_populate_task_metrics`. -/
def populateTaskMetrics (rows : List (Row TaskEvent)) (r : p.Registry) :
    Except PyErr p.Registry := do
  let r ← (counts (rows.map taskGroup)).foldlM (fun r g => p.inc (groupSeries g.1) g.2 r) r
  (durationRows rows).foldlM (fun r d => match d.2 with
    | none => .ok r
    | some runtime => .ok (p.observe (durationSeries d.1) runtime r)) r

/-! ## Workers -/

/-- `max_timestamps`. -/
def maxTimestamps (rows : List (Row WorkerEvent)) : List (String × Option Int) :=
  (rows.map (·.val.hostname)).dedup.map fun hostname =>
    (hostname, ((rows.filter fun r => r.val.hostname = hostname).map (·.val.timestamp)).max?)

/-- The events joined with `max_timestamps`. -/
def latestEvents (rows : List (Row WorkerEvent)) : List (Row WorkerEvent) :=
  rows.filter fun r => (r.val.hostname, some r.val.timestamp) ∈ maxTimestamps rows

/-- `offline_timeout`. -/
def offlineTimeout : Int := 30 * secondUs

/-- `_is_online(event, now, offline_timeout)`. -/
def isOnline (event : WorkerEvent) (now timeout : Int) : Bool :=
  if event.eventType = .offline then false
  else decide (now - ensureUtc event.timestamp ≤ timeout)

/-- The loop body of `_populate_worker_metrics`. -/
def populateWorker (now : Int) (event : WorkerEvent) (r : p.Registry) : Except PyErr p.Registry :=
  let status := if isOnline event now offlineTimeout then 1 else 0
  let r := p.set ⟨.workerStatus, [event.hostname]⟩ status r
  let r := match event.active with
    | none => r
    | some active => p.set ⟨.workerActiveTasks, [event.hostname]⟩ active r
  match event.processed with
  | none => .ok r
  | some processed => p.inc ⟨.workerProcessedTotal, [event.hostname]⟩ processed r

/-- `_populate_worker_metrics`. -/
def populateWorkerMetrics (now : Int) (rows : List (Row WorkerEvent)) (r : p.Registry) :
    Except PyErr p.Registry :=
  (latestEvents rows).foldlM (fun r event => populateWorker p now event.val r) r

/-! ## Automations -/

def runSeries (lib : PyLib) (run : AutomationRun) :
    Except PyErr (Option (Series CounterMetric)) :=
  if run.actionsFired.read ≠ .null then
    .ok (some ⟨.automationFiredTotal, [toString run.automationId, run.trigger]⟩)
  else if !run.details.read.truthy then .ok none
  else match run.details.read.getAttr "skipped" with
    | .error e => .error e
    | .ok skipped =>
      if !skipped.truthy then .ok none
      else .ok (some ⟨.automationSkippedTotal,
        [toString run.automationId, skipped.toStr lib]⟩)

/-- The loop body of `_populate_automation_metrics`. -/
def populateRun (lib : PyLib) (run : AutomationRun) (r : p.Registry) : Except PyErr p.Registry :=
  match runSeries lib run with
  | .error e => .error e
  | .ok none => .ok r
  | .ok (some series) => p.inc series 1 r

/-- `_populate_automation_metrics`, over the runs in id order. -/
def populateAutomationMetrics (lib : PyLib) (runs : Runs) (r : p.Registry) :
    Except PyErr p.Registry :=
  runs.foldlM (fun r run => populateRun p lib run.val r) r

/-- `generate_metrics`, up to the text format. -/
def generateMetrics (lib : PyLib) (now : Int) (taskRows : List (Row TaskEvent))
    (workerRows : List (Row WorkerEvent)) (runs : Runs) : Except PyErr p.Registry := do
  let r ← populateTaskMetrics p taskRows p.empty
  let r ← populateWorkerMetrics p now workerRows r
  populateAutomationMetrics p lib runs r

def scrape (lib : PyLib) (now : Int) (scan : Scan) (db : Db) : Except PyErr p.Registry :=
  generateMetrics p lib now (scan.order db.taskEvents.rows) (scan.order db.workerEvents.rows)
    db.runs.rows

end Populate

/-! ## The updates of a scrape -/

section Scrape

variable {p : Prometheus} {lib : PyLib} {now : Int}

def taskUpdates (rows : List (Row TaskEvent)) : List MetricUpdate :=
  (counts (rows.map taskGroup)).map (fun g => .inc (groupSeries g.1) g.2) ++
    (durationRows rows).flatMap fun d =>
      d.2.toList.map fun runtime => .observe (durationSeries d.1) runtime

def workerUpdates (now : Int) (event : WorkerEvent) : List MetricUpdate :=
  .set ⟨.workerStatus, [event.hostname]⟩ (if isOnline event now offlineTimeout then 1 else 0) ::
    (event.active.toList.map (.set ⟨.workerActiveTasks, [event.hostname]⟩) ++
      event.processed.toList.map (.inc ⟨.workerProcessedTotal, [event.hostname]⟩))

def countedSeries (lib : PyLib) (run : AutomationRun) : Option (Series CounterMetric) :=
  match runSeries lib run with
  | .ok series => series
  | .error _ => none

def runUpdates (lib : PyLib) (run : AutomationRun) : List MetricUpdate :=
  (countedSeries lib run).toList.map (.inc · 1)

theorem metric_countedSeries {run : AutomationRun} {series : Series CounterMetric}
    (h : countedSeries lib run = some series) : series.metric ≠ .workerProcessedTotal := by
  unfold countedSeries runSeries at h
  split at h
  · next hseries =>
    subst h
    split at hseries
    · cases hseries
      exact nofun
    · split at hseries
      · cases hseries
      · split at hseries
        · cases hseries
        · split at hseries <;> cases hseries
          exact nofun
  · cases h

/-- The details of a run that fired nothing are a dict, if there are any. -/
def Readable (run : AutomationRun) : Prop :=
  run.actionsFired.read = .null → run.details.read.truthy = true →
    ∃ details, run.details.read = .obj details

def metricUpdates (lib : PyLib) (now : Int) (taskRows : List (Row TaskEvent))
    (workerRows : List (Row WorkerEvent)) (runs : Runs) : List MetricUpdate :=
  taskUpdates taskRows ++ (latestEvents workerRows).flatMap (fun r => workerUpdates now r.val) ++
    runs.flatMap fun r => runUpdates lib r.val

theorem populateTaskMetrics_eq (rows : List (Row TaskEvent)) (r : p.Registry) :
    populateTaskMetrics p rows r = p.updates (taskUpdates rows) r := by
  unfold populateTaskMetrics taskUpdates
  rw [Client.updates_append]
  have hcounts : (counts (rows.map taskGroup)).foldlM
      (fun r g => p.inc (groupSeries g.1) g.2 r) r =
      p.updates ((counts (rows.map taskGroup)).map fun g => .inc (groupSeries g.1) g.2) r := by
    unfold Client.updates
    rw [List.foldlM_map]
    rfl
  rw [hcounts]
  refine congrArg _ (funext fun r => Client.foldlM_updates p (fun r d => ?_) _ r)
  cases d.2 <;> rfl

theorem populateWorkerMetrics_eq (rows : List (Row WorkerEvent)) (r : p.Registry) :
    populateWorkerMetrics p now rows r =
      p.updates ((latestEvents rows).flatMap fun event => workerUpdates now event.val) r := by
  refine Client.foldlM_updates p (fun r event => ?_) _ r
  unfold populateWorker workerUpdates
  rw [Client.updates_cons, Client.update]
  dsimp only [Except.bind]
  rw [Client.updates_append]
  cases event.val.active <;> cases event.val.processed <;> simp [Client.update, Except.bind]

theorem readable_iff {run : AutomationRun} :
    Readable run ↔ ∃ series, runSeries lib run = .ok series := by
  unfold Readable runSeries
  by_cases hfired : run.actionsFired.read = .null
  · by_cases ht : run.details.read.truthy = true
    · cases hd : run.details.read with
      | obj details =>
        simp only [hfired, ne_eq, not_true_eq_false, if_false, Json.getAttr]
        split
        · simp
        · split <;> simp
      | _ => simp_all [Json.getAttr]
    · simp [hfired, ht]
  · simp [hfired]

theorem populateAutomationMetrics_eq_ok (runs : Runs) (r r' : p.Registry) :
    populateAutomationMetrics p lib runs r = .ok r' ↔ (∀ run ∈ runs, Readable run.val) ∧
      p.updates (runs.flatMap fun run => runUpdates lib run.val) r = .ok r' := by
  unfold populateAutomationMetrics
  induction runs generalizing r with
  | nil => simp [pure, Except.pure]
  | cons run runs ih =>
    rw [List.foldlM_cons, List.flatMap_cons, Client.updates_append, List.forall_mem_cons]
    have hbody : ∀ series, runSeries lib run.val = .ok series →
        populateRun p lib run.val r = p.updates (runUpdates lib run.val) r := by
      intro series hs
      unfold populateRun runUpdates countedSeries
      rw [hs]
      cases series with
      | none => rfl
      | some s => simp [Client.update]
    by_cases hread : Readable run.val
    · obtain ⟨series, hs⟩ := readable_iff.mp hread
      rw [hbody series hs]
      cases p.updates (runUpdates lib run.val) r with
      | error e => simp [bind, Except.bind]
      | ok r₁ => simp [bind, Except.bind, ih, hread]
    · have hno : ∀ series, runSeries lib run.val ≠ .ok series := fun series hs =>
        hread (readable_iff.mpr ⟨series, hs⟩)
      cases hs : runSeries lib run.val with
      | ok series => exact absurd hs (hno series)
      | error e => simp [populateRun, hs, hread, bind, Except.bind]

theorem generateMetrics_eq_ok {taskRows : List (Row TaskEvent)}
    {workerRows : List (Row WorkerEvent)} {runs : Runs} {r : p.Registry} :
    generateMetrics p lib now taskRows workerRows runs = .ok r ↔
      (∀ run ∈ runs, Readable run.val) ∧
        p.updates (metricUpdates lib now taskRows workerRows runs) p.empty = .ok r := by
  unfold generateMetrics metricUpdates
  simp only [populateTaskMetrics_eq, populateWorkerMetrics_eq, Client.updates_append]
  cases p.updates (taskUpdates taskRows) p.empty with
  | error e => simp [bind, Except.bind]
  | ok r₁ =>
    simp only [bind, Except.bind]
    cases p.updates ((latestEvents workerRows).flatMap fun event => workerUpdates now event.val)
        r₁ with
    | error e => simp
    | ok r₂ => exact populateAutomationMetrics_eq_ok runs r₂ r

def scrapeUpdates (lib : PyLib) (now : Int) (scan : Scan) (db : Db) : List MetricUpdate :=
  metricUpdates lib now (scan.order db.taskEvents.rows) (scan.order db.workerEvents.rows)
    db.runs.rows

section Db

variable {scan : Scan} {db : Db} {r : p.Registry}

theorem scrape_samples (hp : p.Documented bucketed) (h : scrape p lib now scan db = .ok r) :
    Samples p bucketed (scrapeUpdates lib now scan db) r :=
  hp.samples (generateMetrics_eq_ok.mp h).2

theorem inc_mem_taskUpdates {rows : List (Row TaskEvent)} {s : Series CounterMetric} {n : Int}
    (h : .inc s n ∈ taskUpdates rows) : 0 < n := by
  simp only [taskUpdates, List.mem_append, List.mem_map, List.mem_flatMap, reduceCtorEq, and_false,
    exists_false, or_false] at h
  obtain ⟨g, hg, heq⟩ := h
  cases heq
  exact Int.natCast_pos.mpr (counts_pos hg)

theorem inc_mem_workerUpdates {event : WorkerEvent} {s : Series CounterMetric} {n : Int} :
    .inc s n ∈ workerUpdates now event ↔
      s = ⟨.workerProcessedTotal, [event.hostname]⟩ ∧ event.processed = some n := by
  simp [workerUpdates]
  exact ⟨fun ⟨hn, hs⟩ => ⟨hs.symm, hn⟩, fun ⟨hs, hn⟩ => ⟨hn, hs.symm⟩⟩

theorem mem_runUpdates {runs : Runs} {u : MetricUpdate}
    (h : u ∈ runs.flatMap fun r => runUpdates lib r.val) :
    ∃ run series, countedSeries lib run = some series ∧ u = .inc series 1 := by
  simp only [runUpdates, List.mem_flatMap, List.mem_map, Option.mem_toList] at h
  obtain ⟨run, -, series, hseries, rfl⟩ := h
  exact ⟨run.val, series, hseries, rfl⟩

theorem inc_mem_runUpdates {runs : Runs} {s : Series CounterMetric} {n : Int}
    (h : .inc s n ∈ runs.flatMap fun r => runUpdates lib r.val) : 0 < n := by
  obtain ⟨run, series, -, hinc⟩ := mem_runUpdates h
  cases hinc
  decide

/-- A scrape returns unless the processed total of a worker is negative, or a run unreadable. -/
theorem scrape_ok_iff (hp : p.Documented bucketed) : (∃ r, scrape p lib now scan db = .ok r) ↔
    (∀ run ∈ db.runs.rows, Readable run.val) ∧
      ∀ event ∈ latestEvents (scan.order db.workerEvents.rows), ∀ n,
        event.val.processed = some n → 0 ≤ n := by
  unfold scrape
  simp only [generateMetrics_eq_ok, exists_and_left, hp.updates_ok_iff]
  refine and_congr_right fun _ => ⟨fun h event hevent n hn => ?_, fun h s n hmem => ?_⟩
  · refine h ⟨.workerProcessedTotal, [event.val.hostname]⟩ n ?_
    exact List.mem_append_left _ (List.mem_append_right _ (List.mem_flatMap.mpr
      ⟨event, hevent, inc_mem_workerUpdates.mpr ⟨rfl, hn⟩⟩))
  · rcases List.mem_append.mp hmem with hmem | hmem
    · rcases List.mem_append.mp hmem with hmem | hmem
      · exact (inc_mem_taskUpdates hmem).le
      · obtain ⟨event, hevent, hinc⟩ := List.mem_flatMap.mp hmem
        exact h event hevent n (inc_mem_workerUpdates.mp hinc).2
    · exact (inc_mem_runUpdates hmem).le

/-! ## The samples of a scrape -/

theorem assignments_taskUpdates (rows : List (Row TaskEvent)) (s : Series GaugeMetric) :
    assignments (taskUpdates rows) s = [] := by
  refine List.filterMap_eq_nil_iff.mpr fun u hu => ?_
  simp only [taskUpdates, List.mem_append, List.mem_map, List.mem_flatMap] at hu
  rcases hu with ⟨g, -, rfl⟩ | ⟨d, -, x, -, rfl⟩ <;> rfl

theorem observations_workerUpdates (events : List (Row WorkerEvent)) (s : Series HistogramMetric) :
    observations (events.flatMap fun r => workerUpdates now r.val) s = [] := by
  refine List.filterMap_eq_nil_iff.mpr fun u hu => ?_
  simp only [workerUpdates, List.mem_flatMap, List.mem_cons, List.mem_append, List.mem_map] at hu
  obtain ⟨event, -, rfl | ⟨n, -, rfl⟩ | ⟨n, -, rfl⟩⟩ := hu <;> rfl

theorem assignments_runUpdates (runs : Runs) (s : Series GaugeMetric) :
    assignments (runs.flatMap fun r => runUpdates lib r.val) s = [] := by
  refine List.filterMap_eq_nil_iff.mpr fun u hu => ?_
  obtain ⟨run, series, -, rfl⟩ := mem_runUpdates hu
  rfl

theorem observations_runUpdates (runs : Runs) (s : Series HistogramMetric) :
    observations (runs.flatMap fun r => runUpdates lib r.val) s = [] := by
  refine List.filterMap_eq_nil_iff.mpr fun u hu => ?_
  obtain ⟨run, series, -, rfl⟩ := mem_runUpdates hu
  rfl

theorem sum_increments_taskUpdates (rows : List (Row TaskEvent)) (s : Series CounterMetric) :
    (increments (taskUpdates rows) s).sum =
      rows.countP fun r => groupSeries (taskGroup r) = s := by
  unfold taskUpdates
  have hobserve : increments ((durationRows rows).flatMap fun d => d.2.toList.map fun runtime =>
      (.observe (durationSeries d.1) runtime : MetricUpdate)) s = [] := by
    apply List.eq_nil_iff_forall_not_mem.mpr
    intro n hn
    simp [mem_increments] at hn
  have hsum := sum_counts_filter (fun g => groupSeries g = s) (rows.map taskGroup)
  rw [List.countP_map] at hsum
  rw [increments_append, hobserve, List.append_nil, increments_map_inc]
  refine Eq.trans ?_ (congrArg Nat.cast hsum)
  refine Eq.trans ?_ (map_list_sum (Nat.castAddMonoidHom Int) _).symm
  rw [List.map_map]
  rfl

theorem increments_workerUpdates (events : List (Row WorkerEvent)) {s : Series CounterMetric}
    (hs : s.metric ≠ .workerProcessedTotal) :
    increments (events.flatMap fun r => workerUpdates now r.val) s = [] := by
  apply List.eq_nil_iff_forall_not_mem.mpr
  intro n hn
  obtain ⟨event, -, hinc⟩ := List.mem_flatMap.mp (mem_increments.mp hn)
  exact hs (congrArg Series.metric (inc_mem_workerUpdates.mp hinc).1)

theorem sum_increments_runUpdates (runs : Runs) (s : Series CounterMetric) :
    (increments (runs.flatMap fun r => runUpdates lib r.val) s).sum =
      runs.countP fun r => countedSeries lib r.val = some s := by
  induction runs with
  | nil => rfl
  | cons run runs ih =>
    have hone : increments (runUpdates lib run.val) s =
        if countedSeries lib run.val = some s then [1] else [] := by
      unfold runUpdates
      rw [increments_map_inc]
      cases countedSeries lib run.val with
      | none => rfl
      | some t => by_cases hts : t = s <;> simp [hts]
    rw [List.flatMap_cons, increments_append, List.sum_append, ih, hone, List.countP_cons]
    by_cases hs : countedSeries lib run.val = some s
    · simp [hs, Int.add_comm]
    · simp [hs]

/-- What a counter of the event log or of the runs counts. -/
theorem counter_scrape (hp : p.Documented bucketed) (h : scrape p lib now scan db = .ok r)
    {s : Series CounterMetric} (hs : s.metric ≠ .workerProcessedTotal) :
    p.counter r s = tally (db.taskEvents.rows.countP (fun r => groupSeries (taskGroup r) = s) +
      db.runs.rows.countP fun r => countedSeries lib r.val = some s) := by
  have hincs : increments (scrapeUpdates lib now scan db) s =
      increments (taskUpdates (scan.order db.taskEvents.rows)) s ++
        increments (db.runs.rows.flatMap fun r => runUpdates lib r.val) s := by
    unfold scrapeUpdates metricUpdates
    rw [increments_append, increments_append, increments_workerUpdates _ hs, List.append_nil]
  rw [(scrape_samples hp h).counter]
  apply exported_eq_tally
  · intro n hn
    rw [hincs, List.mem_append, mem_increments, mem_increments] at hn
    rcases hn with hn | hn
    · exact inc_mem_taskUpdates hn
    · exact inc_mem_runUpdates hn
  · rw [hincs, List.sum_append, sum_increments_taskUpdates, sum_increments_runUpdates,
      (scan.perm db.taskEvents.rows).countP_eq]
    push_cast
    rfl

end Db

end Scrape

end Taskowl
