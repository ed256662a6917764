import Taskowl.Metrics

/-!
# Worker metrics and worker status

A scrape takes a worker's latest events by `MAX(timestamp)` and goes through
all that are tied, in the order of the scan; `get_worker_status` takes the one
of greatest id. A scrape knows a timeout of its own. The two agree, whatever
the scan, exactly when every tied event says what the latest one says.
-/

namespace Taskowl

open Lib Py

/-- The samples of a worker are what `get_worker_status` reports. -/
structure WorkerAgrees (p : Prometheus) (r : p.Registry) (info : WorkerInfo) : Prop where
  online : p.gauge r ⟨.workerStatus, [info.hostname]⟩ = some 1 ↔ info.status = "online"
  offline : p.gauge r ⟨.workerStatus, [info.hostname]⟩ = some 0 ↔ info.status = "offline"
  active : p.gauge r ⟨.workerActiveTasks, [info.hostname]⟩ = info.active
  processed : p.counter r ⟨.workerProcessedTotal, [info.hostname]⟩ = info.processed

/-- In every order of the rows `/metrics` and `get_worker_status` answer, and agree on every
worker. -/
def WorkersAgree (p : Prometheus) (env : Env) (db : Db) : Prop :=
  ∀ scan scan', ∃ r infos, scrape p env.lib env.now scan db = .ok r ∧
    getWorkerStatus (env.reading scan' db) = .ok infos ∧ ∀ info ∈ infos, WorkerAgrees p r info

/-- The latest event of each worker, by time and then by id. -/
def topEvents (db : Db) : List (Row WorkerEvent) :=
  latestRows (·.hostname) (·.timestamp) db.workerEvents.rows

/-- An event `r` as late as the latest event `t` of its worker, or `t` itself, says what `t`
says. -/
structure Echoes (now timeout : Int) (t r : Row WorkerEvent) : Prop where
  status : (r.val.eventType ≠ .offline ∧ now - r.val.timestamp ≤ 30 * secondUs) ↔
    (t.val.eventType ≠ .offline ∧ now - t.val.timestamp ≤ timeout)
  active : r.val.active = none ∨ r.val.active = t.val.active
  nonneg : ∀ n, r.val.processed = some n → 0 ≤ n
  processed : r ≠ t → r.val.processed = none ∨ (r.val.processed = some 0 ∧ t.val.processed ≠ none)

/-- Every event that a scrape goes through says what the latest one says. -/
structure WorkersEcho (env : Env) (db : Db) : Prop where
  readable : ∀ run ∈ db.runs.rows, Readable run.val
  timeout : db.workerEvents.rows ≠ [] →
    ∃ timeout, secondsInt env.settings.workerOfflineTimeoutSeconds = .ok timeout
  echoes : ∀ timeout, secondsInt env.settings.workerOfflineTimeoutSeconds = .ok timeout →
    ∀ t ∈ topEvents db, ∀ r ∈ db.workerEvents.rows, r.val.hostname = t.val.hostname →
      r.val.timestamp = t.val.timestamp → Echoes env.now timeout t r

/-! ## The events of a scrape -/

section Latest

variable {rows : List (Row WorkerEvent)} {r : Row WorkerEvent}

theorem mem_latestEvents : r ∈ latestEvents rows ↔ r ∈ rows ∧
    ∀ s ∈ rows, s.val.hostname = r.val.hostname → s.val.timestamp ≤ r.val.timestamp := by
  unfold latestEvents maxTimestamps
  simp only [List.mem_filter, List.mem_map, List.mem_dedup, decide_eq_true_eq, Prod.mk.injEq]
  refine and_congr_right fun hr => ?_
  constructor
  · rintro ⟨hostname, -, rfl, hmax⟩ s hs hhost
    exact (max?_key_eq_some.mp hmax).2 s hs (by simpa using hhost)
  · intro h
    refine ⟨r.val.hostname, ⟨r, hr, rfl⟩, rfl, ?_⟩
    refine max?_key_eq_some.mpr ⟨⟨r, hr, by simp, rfl⟩, fun s hs hhost => ?_⟩
    exact h s hs (by simpa using hhost)

def tiedEvents (rows : List (Row WorkerEvent)) (hostname : String) : List (Row WorkerEvent) :=
  (latestEvents rows).filter (·.val.hostname = hostname)

theorem mem_tiedEvents {t : Row WorkerEvent}
    (ht : t ∈ latestRows (·.hostname) (·.timestamp) rows) :
    r ∈ tiedEvents rows t.val.hostname ↔
      r ∈ rows ∧ r.val.hostname = t.val.hostname ∧ r.val.timestamp = t.val.timestamp := by
  obtain ⟨htmem, hmax⟩ := mem_latestRows.mp ht
  unfold tiedEvents
  rw [List.mem_filter, mem_latestEvents, decide_eq_true_eq]
  constructor
  · rintro ⟨⟨hr, hle⟩, hhost⟩
    exact ⟨hr, hhost, Int.le_antisymm (hmax r hr hhost).1 (hle t htmem hhost.symm)⟩
  · rintro ⟨hr, hhost, hts⟩
    refine ⟨⟨hr, fun s hs hs' => ?_⟩, hhost⟩
    rw [hts]
    exact (hmax s hs (hs'.trans hhost)).1

end Latest

/-! ## The samples of a worker -/

section Samples

variable {p : Prometheus} {lib : PyLib} {now : Int} {scan : Scan} {db : Db} {r : p.Registry}

theorem flatMap_if {α β : Type} (q : α → Bool) (f : α → List β) (as : List α) :
    (as.flatMap fun a => if q a then f a else []) = (as.filter q).flatMap f := by
  induction as with
  | nil => rfl
  | cons a as ih => cases hq : q a <;> simp [hq, ih]

theorem assignments_scrape (s : Series GaugeMetric) :
    assignments (scrapeUpdates lib now scan db) s =
      (latestEvents (scan.order db.workerEvents.rows)).flatMap fun event =>
        assignments (workerUpdates now event.val) s := by
  unfold scrapeUpdates metricUpdates
  rw [assignments_append, assignments_append, assignments_taskUpdates, assignments_runUpdates,
    List.nil_append, List.append_nil, assignments_flatMap]

theorem status_scrape (hp : p.Documented bucketed) (h : scrape p lib now scan db = .ok r)
    (hostname : String) : p.gauge r ⟨.workerStatus, [hostname]⟩ =
      ((tiedEvents (scan.order db.workerEvents.rows) hostname).map fun event =>
        if isOnline event.val now offlineTimeout then 1 else 0).getLast? := by
  have hone : ∀ event : WorkerEvent,
      assignments (workerUpdates now event) ⟨.workerStatus, [hostname]⟩ =
        if decide (event.hostname = hostname) then
          [if isOnline event now offlineTimeout then 1 else 0] else [] := by
    intro event
    cases event.active <;> cases event.processed <;> by_cases hhost : event.hostname = hostname <;>
      simp [assignments, workerUpdates, hhost]
  rw [(scrape_samples hp h).gauge, assignments_scrape]
  simp only [hone]
  rw [flatMap_if, ← List.map_eq_flatMap]
  rfl

theorem active_scrape (hp : p.Documented bucketed) (h : scrape p lib now scan db = .ok r)
    (hostname : String) : p.gauge r ⟨.workerActiveTasks, [hostname]⟩ =
      ((tiedEvents (scan.order db.workerEvents.rows) hostname).flatMap fun event =>
        event.val.active.toList).getLast? := by
  have hone : ∀ event : WorkerEvent,
      assignments (workerUpdates now event) ⟨.workerActiveTasks, [hostname]⟩ =
        if decide (event.hostname = hostname) then event.active.toList else [] := by
    intro event
    cases hactive : event.active <;> cases event.processed <;>
      by_cases hhost : event.hostname = hostname <;>
      simp [assignments, workerUpdates, hactive, hhost]
  rw [(scrape_samples hp h).gauge, assignments_scrape]
  simp only [hone]
  rw [flatMap_if]
  rfl

theorem processed_scrape (hp : p.Documented bucketed) (h : scrape p lib now scan db = .ok r)
    (hostname : String) : p.counter r ⟨.workerProcessedTotal, [hostname]⟩ =
      exported ((tiedEvents (scan.order db.workerEvents.rows) hostname).flatMap fun event =>
        event.val.processed.toList)
      ((tiedEvents (scan.order db.workerEvents.rows) hostname).flatMap fun event =>
        event.val.processed.toList).sum := by
  have hone : ∀ event : WorkerEvent,
      increments (workerUpdates now event) ⟨.workerProcessedTotal, [hostname]⟩ =
        if decide (event.hostname = hostname) then event.processed.toList else [] := by
    intro event
    cases event.active <;> cases hprocessed : event.processed <;>
      by_cases hhost : event.hostname = hostname <;>
      simp [increments, workerUpdates, hprocessed, hhost]
  have htasks : increments (taskUpdates (scan.order db.taskEvents.rows))
      ⟨.workerProcessedTotal, [hostname]⟩ = [] := by
    refine List.eq_nil_iff_forall_not_mem.mpr fun n hn => ?_
    rw [mem_increments] at hn
    simp only [taskUpdates, List.mem_append, List.mem_map, List.mem_flatMap] at hn
    rcases hn with ⟨g, -, hinc⟩ | ⟨d, -, x, -, hinc⟩ <;> cases hinc
  have hruns : increments (db.runs.rows.flatMap fun r => runUpdates lib r.val)
      ⟨.workerProcessedTotal, [hostname]⟩ = [] := by
    refine List.eq_nil_iff_forall_not_mem.mpr fun n hn => ?_
    obtain ⟨run, series, hseries, hinc⟩ := mem_runUpdates (mem_increments.mp hn)
    cases hinc
    exact metric_countedSeries hseries rfl
  have hall : increments (scrapeUpdates lib now scan db) ⟨.workerProcessedTotal, [hostname]⟩ =
      (tiedEvents (scan.order db.workerEvents.rows) hostname).flatMap fun event =>
        event.val.processed.toList := by
    unfold scrapeUpdates metricUpdates
    rw [increments_append, increments_append, htasks, hruns, List.nil_append, List.append_nil,
      increments_flatMap]
    simp only [hone]
    rw [flatMap_if]
    rfl
  rw [(scrape_samples hp h).counter, hall]

end Samples

/-! ## Samples of tied events -/

section Ties

variable {α : Type} {f : α → Option Int} {as : List α} {t : α}

theorem getLast?_of_forall {a : α} (hne : as ≠ []) (h : ∀ b ∈ as, b = a) :
    as.getLast? = some a := by
  rw [List.getLast?_eq_some_getLast hne, h _ (List.getLast_mem hne)]

theorem getLast?_toList (ht : t ∈ as) (h : ∀ a ∈ as, f a = none ∨ f a = f t) :
    (as.flatMap fun a => (f a).toList).getLast? = f t := by
  cases hft : f t with
  | none =>
    have hnil : (as.flatMap fun a => (f a).toList) = [] := by
      refine List.flatMap_eq_nil_iff.mpr fun a ha => ?_
      rcases h a ha with hfa | hfa <;> simp [hfa, hft]
    rw [hnil]
    rfl
  | some n =>
    have hmem : n ∈ as.flatMap fun a => (f a).toList := List.mem_flatMap.mpr ⟨t, ht, by simp [hft]⟩
    refine getLast?_of_forall (List.ne_nil_of_mem hmem) fun m hm => ?_
    obtain ⟨a, ha, hm⟩ := List.mem_flatMap.mp hm
    rcases h a ha with hfa | hfa <;> simp_all

theorem sum_zeros (h : ∀ a ∈ as, f a = none ∨ f a = some 0) :
    (as.flatMap fun a => (f a).toList).sum = 0 := by
  induction as with
  | nil => rfl
  | cons a as ih =>
    rw [List.flatMap_cons, List.sum_append, ih fun b hb => h b (List.mem_cons_of_mem a hb)]
    rcases h a List.mem_cons_self with ha | ha <;> simp [ha]

theorem exported_toList (hnodup : as.Nodup) (ht : t ∈ as)
    (h : ∀ a ∈ as, a ≠ t → f a = none ∨ (f a = some 0 ∧ f t ≠ none)) :
    exported (as.flatMap fun a => (f a).toList) (as.flatMap fun a => (f a).toList).sum = f t := by
  obtain ⟨l, l', rfl⟩ := List.append_of_mem ht
  have hne : ∀ a, a ∈ l ∨ a ∈ l' → a ≠ t := by
    rintro a ha rfl
    rw [List.nodup_middle, List.nodup_cons, List.mem_append] at hnodup
    exact hnodup.1 ha
  have hl : ∀ a ∈ l, f a = none ∨ (f a = some 0 ∧ f t ≠ none) := fun a ha =>
    h a (List.mem_append_left _ ha) (hne a (.inl ha))
  have hl' : ∀ a ∈ l', f a = none ∨ (f a = some 0 ∧ f t ≠ none) := fun a ha =>
    h a (List.mem_append_right _ (List.mem_cons_of_mem t ha)) (hne a (.inr ha))
  have hsum := sum_zeros fun a ha => (hl a ha).imp_right And.left
  have hsum' := sum_zeros fun a ha => (hl' a ha).imp_right And.left
  rw [List.flatMap_append, List.flatMap_cons]
  cases hft : f t with
  | none =>
    have hnil : ∀ as : List α, (∀ a ∈ as, f a = none ∨ (f a = some 0 ∧ f t ≠ none)) →
        (as.flatMap fun a => (f a).toList) = [] := by
      refine fun as has => List.flatMap_eq_nil_iff.mpr fun a ha => ?_
      rcases has a ha with hfa | ⟨-, hne⟩
      · simp [hfa]
      · exact absurd hft hne
    rw [hnil l hl, hnil l' hl']
    rfl
  | some n =>
    rw [List.sum_append, List.sum_append, hsum, hsum']
    simp [exported]

theorem eq_zero_of_sum_mem {ns : List Int} {n : Int} (hns : ∀ m ∈ ns, 0 ≤ m) (hn : 0 ≤ n)
    (h : (ns ++ [n]).sum ∈ ns) : n = 0 := by
  have hle := List.single_le_sum hns _ h
  rw [List.sum_append, List.sum_singleton] at hle
  omega

end Ties

/-! ## One worker -/

section Worker

variable {p : Prometheus} {env : Env} {scan : Scan} {db : Db} {r : p.Registry} {timeout : Int}
  {t : Row WorkerEvent}

theorem mem_topEvents_scan (ht : t ∈ topEvents db) :
    t ∈ latestRows (·.hostname) (·.timestamp) (scan.order db.workerEvents.rows) :=
  (latestRows_perm (scan.perm _)).mem_iff.mpr ht

theorem mem_tied (ht : t ∈ topEvents db) {event : Row WorkerEvent} :
    event ∈ tiedEvents (scan.order db.workerEvents.rows) t.val.hostname ↔
      event ∈ db.workerEvents.rows ∧ event.val.hostname = t.val.hostname ∧
        event.val.timestamp = t.val.timestamp := by
  rw [mem_tiedEvents (mem_topEvents_scan ht), (scan.perm _).mem_iff]

theorem nodup_tied (hostname : String) :
    (tiedEvents (scan.order db.workerEvents.rows) hostname).Nodup :=
  ((List.Nodup.of_map _ (db.workerEvents.nodup_ids (scan.perm _))).filter _).filter _

/-- What `get_worker_status` reports of the worker. -/
def reported (timeout now : Int) (t : WorkerEvent) : WorkerInfo :=
  workerInfo t (if reportsOffline timeout now t then "offline" else "online")

theorem isOnline_iff {event : WorkerEvent} {now timeout : Int} : isOnline event now timeout = true ↔
    event.eventType ≠ .offline ∧ now - event.timestamp ≤ timeout := by
  unfold isOnline ensureUtc
  split
  · next h => simp [h]
  · next h => simp [h]

theorem reportsOffline_iff {event : WorkerEvent} {now timeout : Int} :
    reportsOffline timeout now event = false ↔
      event.eventType ≠ .offline ∧ now - event.timestamp ≤ timeout := by
  unfold reportsOffline ensureUtc
  simp

theorem echo_status {event : Row WorkerEvent} :
    ((event.val.eventType ≠ .offline ∧ env.now - event.val.timestamp ≤ 30 * secondUs) ↔
      (t.val.eventType ≠ .offline ∧ env.now - t.val.timestamp ≤ timeout)) ↔
    isOnline event.val env.now offlineTimeout = !reportsOffline timeout env.now t.val := by
  have hr : ∀ b : Bool, (!b) = true ↔ b = false := by decide
  rw [Bool.eq_iff_iff, hr, isOnline_iff, reportsOffline_iff]
  rfl

theorem workerAgrees_of_echoes (hp : p.Documented bucketed)
    (h : scrape p env.lib env.now scan db = .ok r) (ht : t ∈ topEvents db)
    (hechoes : ∀ event ∈ db.workerEvents.rows, event.val.hostname = t.val.hostname →
      event.val.timestamp = t.val.timestamp → Echoes env.now timeout t event) :
    WorkerAgrees p r (reported timeout env.now t.val) := by
  have htied : ∀ event ∈ tiedEvents (scan.order db.workerEvents.rows) t.val.hostname,
      Echoes env.now timeout t event := by
    intro event hevent
    obtain ⟨hmem, hhost, hts⟩ := (mem_tied ht).mp hevent
    exact hechoes event hmem hhost hts
  have hself : t ∈ tiedEvents (scan.order db.workerEvents.rows) t.val.hostname :=
    (mem_tied ht).mpr ⟨(mem_latestRows.mp ht).1, rfl, rfl⟩
  have hgauge : p.gauge r ⟨.workerStatus, [t.val.hostname]⟩ =
      some (if reportsOffline timeout env.now t.val then 0 else 1) := by
    rw [status_scrape hp h]
    refine getLast?_of_forall (List.ne_nil_of_mem (List.mem_map_of_mem hself)) fun n hn => ?_
    obtain ⟨event, hevent, rfl⟩ := List.mem_map.mp hn
    rw [echo_status.mp (htied event hevent).status]
    cases reportsOffline timeout env.now t.val <;> rfl
  constructor
  · show p.gauge r ⟨.workerStatus, [t.val.hostname]⟩ = _ ↔ (if _ then _ else _) = _
    rw [hgauge]
    cases reportsOffline timeout env.now t.val <;> decide
  · show p.gauge r ⟨.workerStatus, [t.val.hostname]⟩ = _ ↔ (if _ then _ else _) = _
    rw [hgauge]
    cases reportsOffline timeout env.now t.val <;> decide
  · show p.gauge r ⟨.workerActiveTasks, [t.val.hostname]⟩ = t.val.active
    rw [active_scrape hp h]
    exact getLast?_toList hself fun event hevent => (htied event hevent).active
  · show p.counter r ⟨.workerProcessedTotal, [t.val.hostname]⟩ = t.val.processed
    rw [processed_scrape hp h]
    exact exported_toList (nodup_tied t.val.hostname) hself fun event hevent =>
      (htied event hevent).processed

/-- A scan in which a tied event comes last. -/
theorem exists_tied_last (ht : t ∈ topEvents db) {event : Row WorkerEvent}
    (hevent : event ∈ db.workerEvents.rows) (hhost : event.val.hostname = t.val.hostname)
    (hts : event.val.timestamp = t.val.timestamp) : ∃ scan : Scan, ∃ others,
      tiedEvents (scan.order db.workerEvents.rows) t.val.hostname = others ++ [event] := by
  obtain ⟨scan, others, hscan, -⟩ := exists_scan_last hevent
  have hfilter : ∀ q : Row WorkerEvent → Bool,
      event ∈ (scan.order db.workerEvents.rows).filter q →
        ∃ l, (scan.order db.workerEvents.rows).filter q = l ++ [event] := by
    intro q hq
    refine ⟨others.filter q, ?_⟩
    rw [hscan, List.filter_append, List.filter_cons_of_pos (List.mem_filter.mp hq).2,
      List.filter_nil]
  have hmem : event ∈ tiedEvents (scan.order db.workerEvents.rows) t.val.hostname :=
    (mem_tied ht).mpr ⟨hevent, hhost, hts⟩
  unfold tiedEvents latestEvents at hmem ⊢
  rw [List.filter_filter] at hmem
  obtain ⟨l, hl⟩ := hfilter _ hmem
  refine ⟨scan, l, ?_⟩
  rw [List.filter_filter]
  exact hl

theorem echoes_of_agree (hp : p.Documented bucketed) (ht : t ∈ topEvents db)
    (hscrape : ∀ scan, ∃ r, scrape p env.lib env.now scan db = .ok r ∧
      WorkerAgrees p r (reported timeout env.now t.val))
    {event : Row WorkerEvent} (hevent : event ∈ db.workerEvents.rows)
    (hhost : event.val.hostname = t.val.hostname) (hts : event.val.timestamp = t.val.timestamp) :
    Echoes env.now timeout t event := by
  obtain ⟨scan, others, hlast⟩ := exists_tied_last ht hevent hhost hts
  obtain ⟨r, hr, hagrees⟩ := hscrape scan
  have hnonneg : ∀ e ∈ others ++ [event], ∀ n, e.val.processed = some n → 0 ≤ n := by
    intro e he
    rw [← hlast] at he
    exact ((scrape_ok_iff hp).mp ⟨r, hr⟩).2 e (List.mem_filter.mp he).1
  constructor
  · have hstatus : p.gauge r ⟨.workerStatus, [t.val.hostname]⟩ =
        some (if isOnline event.val env.now offlineTimeout then 1 else 0) := by
      rw [status_scrape hp hr, hlast]
      simp
    have honline : p.gauge r ⟨.workerStatus, [t.val.hostname]⟩ = some 1 ↔
        (if reportsOffline timeout env.now t.val then "offline" else "online") = "online" :=
      hagrees.online
    rw [echo_status]
    rw [hstatus] at honline
    revert honline
    cases isOnline event.val env.now offlineTimeout <;>
      cases reportsOffline timeout env.now t.val <;> simp
  · have hactive : p.gauge r ⟨.workerActiveTasks, [t.val.hostname]⟩ = t.val.active :=
      hagrees.active
    rw [active_scrape hp hr, hlast, List.flatMap_append] at hactive
    cases ha : event.val.active with
    | none => exact .inl rfl
    | some n =>
      simp only [List.flatMap_singleton, ha, Option.toList_some, List.getLast?_concat] at hactive
      exact .inr hactive
  · exact hnonneg event (List.mem_append_right _ List.mem_cons_self)
  · intro hne
    have hprocessed : p.counter r ⟨.workerProcessedTotal, [t.val.hostname]⟩ = t.val.processed :=
      hagrees.processed
    rw [processed_scrape hp hr, hlast, List.flatMap_append, List.flatMap_singleton] at hprocessed
    cases he : event.val.processed with
    | none => exact .inl rfl
    | some n =>
      rw [he, Option.toList_some, exported_snoc] at hprocessed
      have hself : t ∈ others ++ [event] := by
        rw [← hlast]
        exact (mem_tied ht).mpr ⟨(mem_latestRows.mp ht).1, rfl, rfl⟩
      have htothers : t ∈ others := by
        rcases List.mem_append.mp hself with hmem | hmem
        · exact hmem
        · exact absurd (List.mem_singleton.mp hmem).symm hne
      have hpos : ∀ m ∈ others.flatMap fun e => e.val.processed.toList, 0 ≤ m := by
        intro m hm
        obtain ⟨e, he, hm⟩ := List.mem_flatMap.mp hm
        exact hnonneg e (List.mem_append_left _ he) m (by simpa using hm)
      have hzero : n = 0 := eq_zero_of_sum_mem hpos
        (hnonneg event (List.mem_append_right _ List.mem_cons_self) n he)
        (List.mem_flatMap.mpr ⟨t, htothers, by rw [← hprocessed]; simp⟩)
      exact .inr ⟨by rw [hzero], by rw [← hprocessed]; nofun⟩

end Worker

theorem timeout_of_getWorkerStatus {env : Env} {infos : List WorkerInfo}
    (h : getWorkerStatus env = .ok infos) (hne : env.workerRows ≠ []) :
    ∃ timeout, secondsInt env.settings.workerOfflineTimeoutSeconds = .ok timeout := by
  cases hs : secondsInt env.settings.workerOfflineTimeoutSeconds with
  | ok timeout => exact ⟨timeout, rfl⟩
  | error e =>
    obtain ⟨row, hrow⟩ := List.exists_mem_of_ne_nil _ hne
    obtain ⟨t, ht, -⟩ := exists_latestRow (fun v : WorkerEvent => v.hostname) (·.timestamp) hrow
    unfold getWorkerStatus at h
    cases hrows : latestRows (fun v : WorkerEvent => v.hostname) (·.timestamp) env.workerRows with
    | nil => rw [hrows] at ht; cases ht
    | cons t rows =>
      rw [hrows, List.mapM_cons] at h
      simp only [workerStatus, hs, Except.map] at h
      cases h

section Agreement

variable {p : Prometheus} {env : Env} {db : Db}

/-- Agreement in every scan makes the tied events say what the latest one says. -/
theorem WorkersAgree.echo (hp : p.Documented bucketed) (h : WorkersAgree p env db) :
    WorkersEcho env db := by
  obtain ⟨r, infos, hr, hinfos, -⟩ := h .byId .byId
  refine ⟨((scrape_ok_iff hp).mp ⟨r, hr⟩).1, fun hne => ?_,
    fun timeout htimeout t ht event hevent hhost hts => ?_⟩
  · have htimeout := timeout_of_getWorkerStatus hinfos hne
    exact htimeout
  · refine echoes_of_agree hp ht (fun scan => ?_) hevent hhost hts
    obtain ⟨r, infos, hr, hinfos, hagrees⟩ := h scan .byId
    have hok : getWorkerStatus (env.reading .byId db) = _ := getWorkerStatus_ok htimeout
    rw [hok] at hinfos
    cases hinfos
    exact ⟨r, hr, hagrees _ (List.mem_map_of_mem ht)⟩

/-- Where they do, every scan agrees. -/
theorem WorkersEcho.agree (hp : p.Documented bucketed) (h : WorkersEcho env db) :
    WorkersAgree p env db := by
  intro scan scan'
  obtain ⟨hreadable, htimeout, hechoes⟩ := h
  by_cases hnil : db.workerEvents.rows = []
  · -- No worker has a status, and no event is scraped.
    have hscan : ∀ scan : Scan, scan.order db.workerEvents.rows = [] := fun scan =>
      List.perm_nil.mp (hnil ▸ scan.perm db.workerEvents.rows)
    have hscrape : ∃ r, scrape p env.lib env.now scan db = .ok r := by
      refine (scrape_ok_iff hp).mpr ⟨hreadable, ?_⟩
      rw [hscan]
      exact fun _ h => absurd h List.not_mem_nil
    obtain ⟨r, hr⟩ := hscrape
    refine ⟨r, [], hr, ?_, fun info h => absurd h List.not_mem_nil⟩
    show (latestRows _ _ (scan'.order db.workerEvents.rows)).mapM _ = _
    rw [hscan]
    rfl
  · obtain ⟨timeout, htimeout⟩ := htimeout hnil
    have hechoes := hechoes timeout htimeout
    have hscrape : ∃ r, scrape p env.lib env.now scan db = .ok r := by
      refine (scrape_ok_iff hp).mpr ⟨hreadable, fun event hevent => ?_⟩
      obtain ⟨t, ht, hhost⟩ := exists_latestRow (fun v : WorkerEvent => v.hostname) (·.timestamp)
        (List.mem_of_mem_filter hevent)
      have htop : t ∈ topEvents db := (latestRows_perm (scan.perm _)).mem_iff.mp ht
      have htied : event ∈ tiedEvents (scan.order db.workerEvents.rows) t.val.hostname :=
        List.mem_filter.mpr ⟨hevent, by simpa using hhost.symm⟩
      obtain ⟨hmem, hhost, hts⟩ := (mem_tied htop).mp htied
      exact (hechoes t htop event hmem hhost hts).nonneg
    obtain ⟨r, hr⟩ := hscrape
    have hok : getWorkerStatus (env.reading scan' db) = _ := getWorkerStatus_ok htimeout
    refine ⟨r, _, hr, hok, fun info hinfo => ?_⟩
    obtain ⟨t, ht, rfl⟩ := List.mem_map.mp hinfo
    have htop : t ∈ topEvents db := (latestRows_perm (scan'.perm _)).mem_iff.mp ht
    exact workerAgrees_of_echoes hp hr htop (hechoes t htop)

end Agreement

/-- The worker metrics agree with the worker status exactly when, for every worker, the events
tied with its latest one say what that one says. -/
theorem workersAgree_iff {p : Prometheus} (hp : p.Documented bucketed) (env : Env) (db : Db) :
    WorkersAgree p env db ↔ WorkersEcho env db :=
  ⟨WorkersAgree.echo hp, WorkersEcho.agree hp⟩

def oneHeartbeat : Db :=
  { Db.empty with
    workerEvents := Table.empty.insert 0
      { eventType := .heartbeat, hostname := "celery@a", timestamp := 0, active := some 1,
        processed := some 7 } }

def slowTimeout (seconds : Int) : Env :=
  { Env.idle (seconds * secondUs) with
    settings := { workerOfflineTimeoutSeconds := 60 } }

/-- A worker that is quiet for 45 seconds is online, and `/metrics` says it is offline. -/
theorem workers_disagree : ¬ WorkersAgree .recorder (slowTimeout 45) oneHeartbeat := by
  intro h
  obtain ⟨row, hrow, htop⟩ : ∃ row ∈ oneHeartbeat.workerEvents.rows, row ∈ topEvents oneHeartbeat ∧
      row.val.eventType = .heartbeat ∧ row.val.timestamp = 0 := by decide
  obtain ⟨htop, htype, hts⟩ := htop
  have hstatus := ((h.echo documented_recorder).echoes (60 * secondUs) rfl row htop row hrow rfl
    rfl).status
  have hnow : (slowTimeout 45).now = 45 * secondUs := rfl
  rw [hts, hnow] at hstatus
  have hfresh := hstatus.mpr ⟨by rw [htype]; decide, by decide⟩
  exact absurd hfresh.2 (by decide)

/-- After 15 seconds both say online. -/
theorem workersAgree_oneHeartbeat :
    WorkersAgree .recorder (slowTimeout 15) oneHeartbeat := by
  refine (workersAgree_iff documented_recorder _ _).mpr ⟨nofun, fun _ => ⟨_, rfl⟩, ?_⟩
  rintro timeout ⟨⟩ t ht r hr - -
  have ht := List.mem_of_mem_filter ht
  obtain rfl := List.mem_singleton.mp ht
  obtain rfl := List.mem_singleton.mp hr
  refine ⟨by decide, .inr rfl, ?_, fun hne => absurd rfl hne⟩
  rintro n ⟨⟩
  decide

end Taskowl
