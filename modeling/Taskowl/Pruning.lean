import Taskowl.Maintenance
import Taskowl.OrphanVerdict

/-!
# What pruning leaves of the event log

A prune keeps the events from its cutoff on, so of a task that keeps an event
it keeps the latest one, whatever the ties: the task is listed as before but
for its name, which may have gone with the older events. A worker whose rows
are all pruned is gone from the lookup, whose default calls it offline; its
last heartbeat was older than the retention, and so than a timeout no longer
than that.
-/

namespace Taskowl

open Lib Py

def TaskEntry.unnamed (e : TaskEntry) : TaskEntry := { e with name := none }

def survivors (db : Db) (cutoff : Int) : List String :=
  (db.taskEvents.rows.filter fun r => decide (cutoff ≤ r.val.timestamp)).map (·.val.taskId.str)

/-- The entry `list_tasks` makes of a row of the window. -/
def taskEntry (w : Windowed) : TaskEntry where
  id := w.taskId.str
  name := w.taskName
  state := w.eventType.text
  worker := w.hostname
  queue := w.queue
  timestamp := isoformat w.timestamp

theorem exists_sortOrder (sql : Sql) {sortBy : String} (h : sortBy ∈ sortKeys) :
    ∃ le, sortOrder sql sortBy = some le := by
  simp only [sortKeys, List.mem_cons, List.not_mem_nil, or_false] at h
  rcases h with rfl | rfl | rfl | rfl <;> exact ⟨_, rfl⟩

section Listing

variable {env : Env} {sql : Sql} {filter : TaskFilter} {sortBy : String} {since : Option Int}

theorem listTasks_ok {le : Windowed → Windowed → Bool}
    (hsince : parseSince env filter.since = .ok since) (hle : sortOrder sql sortBy = some le)
    (limit : Option Nat) (offset : Int) :
    listTasks env sql filter limit offset sortBy = .ok (.ok ((limited limit
      ((((windowed env.taskRows).filter (filter.selects env sql since)).insertionSort
        fun a b => le a b = true).drop (max offset 0).toNat)).map taskEntry)) := by
  unfold listTasks
  rw [hsince]
  dsimp only
  rw [hle]
  rfl

theorem listTasks_selected (sql : Sql) (hsince : parseSince env filter.since = .ok since)
    (hsort : sortBy ∈ sortKeys) :
    ∃ entries, listTasks env sql filter none 0 sortBy = .ok (.ok entries) ∧
      entries.Perm (((windowed env.taskRows).filter
        (filter.selects env sql since)).map taskEntry) := by
  obtain ⟨le, hle⟩ := exists_sortOrder sql hsort
  exact ⟨_, listTasks_ok hsince hle none 0, (List.perm_insertionSort _ _).map taskEntry⟩

end Listing

theorem listTasks_all (env : Env) (sql : Sql) {sortBy : String} (h : sortBy ∈ sortKeys) :
    ∃ entries, listTasks env sql {} none 0 sortBy = .ok (.ok entries) ∧
      entries.Perm ((windowed env.taskRows).map taskEntry) := by
  have hall : (windowed env.taskRows).filter (TaskFilter.selects {} env sql none) =
      windowed env.taskRows := List.filter_eq_self.mpr fun w _ => rfl
  have hsince : parseSince env (TaskFilter.since {}) = .ok none := rfl
  rw [← hall]
  exact listTasks_selected sql hsince h

def rowEntry (r : Row TaskEvent) : TaskEntry where
  id := r.val.taskId.str
  name := none
  state := r.val.eventType.text
  worker := r.val.hostname
  queue := r.val.queue
  timestamp := isoformat r.val.timestamp

theorem map_unnamed_windowed (rows : List (Row TaskEvent)) :
    ((windowed rows).map taskEntry).map TaskEntry.unnamed =
      (latestRows (·.taskId) (·.timestamp) rows).map rowEntry := by
  unfold windowed
  rw [List.map_map, List.map_map]
  rfl

section Cutoff

variable {db : Db} {env : Env} {scan scan' : Scan} {events runs : Option Int} {cutoff : Int}

theorem taskEvents_prune (db : Db) (runs : Option Int) (cutoff : Int) :
    (db.prune (some cutoff) runs).taskEvents.rows =
      db.taskEvents.rows.filter fun r => decide (cutoff ≤ r.val.timestamp) := by
  cases runs <;> exact Table.rows_deleteWhere_lt ..

theorem workerEvents_prune (db : Db) (runs : Option Int) (cutoff : Int) :
    (db.prune (some cutoff) runs).workerEvents.rows =
      db.workerEvents.rows.filter fun r => decide (cutoff ≤ r.val.timestamp) := by
  cases runs <;> exact Table.rows_deleteWhere_lt ..

/-- The latest rows after a prune, in any scan: those before it that are not too old. -/
theorem latestRows_pruned {β κ : Type} [DecidableEq κ] (part : β → κ) (key : β → Int)
    (scan scan' : Scan) {rows kept : List (Row β)}
    (hkept : kept = rows.filter fun r => decide (cutoff ≤ key r.val)) :
    (latestRows part key (scan'.order kept)).Perm
      ((latestRows part key (scan.order rows)).filter fun r => decide (cutoff ≤ key r.val)) := by
  rw [← latestRows_filter_ge]
  apply latestRows_perm
  rw [hkept]
  exact (scan'.perm _).trans ((scan.perm rows).filter _).symm

theorem mem_survivors_iff {r : Row TaskEvent}
    (hr : r ∈ latestRows (·.taskId) (·.timestamp) (scan.order db.taskEvents.rows)) :
    r.val.taskId.str ∈ survivors db cutoff ↔ cutoff ≤ r.val.timestamp := by
  rw [le_key_latestRow_iff hr]
  unfold survivors
  simp only [List.mem_map, List.mem_filter, decide_eq_true_eq, (scan.perm _).mem_iff]
  constructor
  · rintro ⟨s, ⟨hs, hk⟩, hid⟩
    exact ⟨s, hs, Uuid.str_inj hid, hk⟩
  · rintro ⟨s, hs, hid, hk⟩
    exact ⟨s, ⟨hs, hk⟩, congrArg Uuid.str hid⟩

/-- No worker is gone, or back, for a prune that keeps what the timeout looks at. -/
theorem lookup_gone_prune (db : Db) (scan scan' : Scan) (runs : Option Int) {timeout : Int}
    (hold : timeout ≤ env.now - cutoff) (hostname : String) :
    ((workersOfflineMap (env.reading scan' (db.prune (some cutoff) runs)) timeout).lookup
        hostname).getD true = true ↔
      ((workersOfflineMap (env.reading scan db) timeout).lookup hostname).getD true = true := by
  have hone : ∀ (scan : Scan) (db : Db),
      ((latestWorkers (env.reading scan db)).map (·.val.hostname)).Nodup := fun scan db =>
    nodup_parts_latestRows (db.workerEvents.nodup_ids (scan.perm _))
  have hmem : ∀ r, r ∈ latestWorkers (env.reading scan' (db.prune (some cutoff) runs)) ↔
      r ∈ latestWorkers (env.reading scan db) ∧ cutoff ≤ r.val.timestamp := by
    intro r
    have hperm := (latestRows_pruned (fun v : WorkerEvent => v.hostname) (fun v => v.timestamp)
      scan scan' (workerEvents_prune db runs cutoff)).mem_iff (a := r)
    rw [List.mem_filter, decide_eq_true_eq] at hperm
    exact hperm
  rw [lookup_gone_iff (hone _ _), lookup_gone_iff (hone _ _)]
  constructor
  · intro h r hr hhost
    by_cases hk : cutoff ≤ r.val.timestamp
    · exact h r ((hmem r).mpr ⟨hr, hk⟩) hhost
    · -- A pruned row was stale.
      have hnow : (env.reading scan db).now = env.now := rfl
      unfold reportsOffline ensureUtc
      rw [hnow, decide_eq_true (by omega), Bool.or_true]
  · exact fun h r hr hhost => h r ((hmem r).mp hr).1 hhost

theorem listedOrphan_prune {id : Uuid} (hid : id.str ∈ survivors db cutoff)
    (hold : ∀ timeout, secondsInt env.settings.workerOfflineTimeoutSeconds = .ok timeout →
      timeout ≤ env.now - cutoff) :
    ListedOrphan (env.reading scan' (db.prune (some cutoff) runs)) id ↔
      ListedOrphan (env.reading scan db) id := by
  have hmem : ∀ r : Row TaskEvent, r.val.taskId = id →
      (r ∈ latestRows (·.taskId) (·.timestamp)
          (env.reading scan' (db.prune (some cutoff) runs)).taskRows ↔
        r ∈ latestRows (·.taskId) (·.timestamp) (env.reading scan db).taskRows) := by
    intro r hrid
    have hperm := (latestRows_pruned (fun v : TaskEvent => v.taskId) (fun v => v.timestamp)
      scan scan' (taskEvents_prune db runs cutoff)).mem_iff (a := r)
    rw [List.mem_filter, decide_eq_true_eq] at hperm
    refine hperm.trans ⟨And.left, fun hr => ⟨hr, ?_⟩⟩
    exact (mem_survivors_iff hr).mp (hrid ▸ hid)
  have hstuck : ∀ timeout, secondsInt env.settings.workerOfflineTimeoutSeconds = .ok timeout →
      ∀ event, StuckOn (env.reading scan' (db.prune (some cutoff) runs)) (fun h =>
          ((workersOfflineMap (env.reading scan' (db.prune (some cutoff) runs)) timeout).lookup
            h).getD true = true) event ↔
        StuckOn (env.reading scan db) (fun h =>
          ((workersOfflineMap (env.reading scan db) timeout).lookup h).getD true = true) event := by
    intro timeout ht event
    have hgone := lookup_gone_prune db scan scan' runs (hold timeout ht)
    constructor
    · rintro ⟨hstarted, hlate, hostname, hhost, hne, h⟩
      exact ⟨hstarted, hlate, hostname, hhost, hne, (hgone hostname).mp h⟩
    · rintro ⟨hstarted, hlate, hostname, hhost, hne, h⟩
      exact ⟨hstarted, hlate, hostname, hhost, hne, (hgone hostname).mpr h⟩
  rw [listedOrphan_iff, listedOrphan_iff]
  constructor
  · rintro ⟨timeout, ht, r, hr, hrid, hrules⟩
    exact ⟨timeout, ht, r, (hmem r hrid).mp hr, hrid, (hstuck timeout ht _).mp hrules⟩
  · rintro ⟨timeout, ht, r, hr, hrid, hrules⟩
    exact ⟨timeout, ht, r, (hmem r hrid).mpr hr, hrid, (hstuck timeout ht _).mpr hrules⟩

/-- The listing after a prune: the tasks that keep an event, as they were but for the name. -/
theorem listTasks_prune (db : Db) (env : Env) (scan scan' : Scan) (runs : Option Int) (cutoff : Int)
    (sql : Sql) {sortBy : String} (hsort : sortBy ∈ sortKeys) :
    ∃ before after, listTasks (env.reading scan db) sql {} none 0 sortBy = .ok (.ok before) ∧
      listTasks (env.reading scan' (db.prune (some cutoff) runs)) sql {} none 0 sortBy =
        .ok (.ok after) ∧
      (after.map TaskEntry.unnamed).Perm
        ((before.filter fun e => decide (e.id ∈ survivors db cutoff)).map TaskEntry.unnamed) := by
  obtain ⟨before, hbefore, hpb⟩ := listTasks_all (env.reading scan db) sql hsort
  obtain ⟨after, hafter, hpa⟩ := listTasks_all
    (env.reading scan' (db.prune (some cutoff) runs)) sql hsort
  refine ⟨before, after, hbefore, hafter, ?_⟩
  have hkept : ∀ entries : List TaskEntry,
      (entries.filter fun e => decide (e.id ∈ survivors db cutoff)).map TaskEntry.unnamed =
        (entries.map TaskEntry.unnamed).filter fun e => decide (e.id ∈ survivors db cutoff) := by
    intro entries
    rw [List.filter_map]
    rfl
  have hold := (hpb.map TaskEntry.unnamed).filter fun e => decide (e.id ∈ survivors db cutoff)
  have hnew := hpa.map TaskEntry.unnamed
  rw [map_unnamed_windowed] at hold hnew
  rw [hkept]
  refine hnew.trans (List.Perm.trans ?_ hold.symm)
  rw [List.filter_map]
  refine ((latestRows_pruned (fun v : TaskEvent => v.taskId) (fun v => v.timestamp) scan scan'
    (taskEvents_prune db runs cutoff)).map rowEntry).trans (.of_eq ?_)
  congr 1
  apply List.filter_congr
  intro r hr
  exact decide_eq_decide.mpr (mem_survivors_iff hr).symm

theorem exists_entry_of_survivor {entries : List TaskEntry} {id : String}
    (hperm : entries.Perm ((windowed (env.reading scan db).taskRows).map taskEntry))
    (hid : id ∈ survivors db cutoff) : ∃ e ∈ entries, e.id = id := by
  obtain ⟨r, hr, rfl⟩ := List.mem_map.mp hid
  obtain ⟨s, hs, hpart⟩ := exists_latestRow (fun v : TaskEvent => v.taskId) (·.timestamp)
    ((scan.perm db.taskEvents.rows).mem_iff.mpr (List.mem_of_mem_filter hr))
  refine ⟨_, hperm.mem_iff.mpr (List.mem_map_of_mem (List.mem_map_of_mem hs)), ?_⟩
  exact congrArg Uuid.str hpart

end Cutoff

/-- After a prune of the events, in batches of any size, every task that keeps an event is listed
as before, and has the orphan verdict it had. -/
theorem prune_invisible (db : Db) (batch : Batch) (env : Env) (eventDays runDays cutoff : Int)
    (hcutoff : retentionCutoff env.now eventDays = .ok (some cutoff))
    (htimeout : env.settings.workerOfflineTimeoutSeconds * secondUs ≤ eventDays * dayUs)
    (scan scan' : Scan) (sql : Sql) (sortBy : String) (hsort : sortBy ∈ sortKeys) :
    let pruned := (pruneEvents env.now false batch eventDays runDays db).1
    ∃ before after, listTasks (env.reading scan db) sql {} none 0 sortBy = .ok (.ok before) ∧
      listTasks (env.reading scan' pruned) sql {} none 0 sortBy = .ok (.ok after) ∧
      (∀ id : Uuid, (∃ e ∈ after, e.id = id.str) ↔
        ∃ r ∈ db.taskEvents.rows, r.val.taskId = id ∧ cutoff ≤ r.val.timestamp) ∧
      (after.map TaskEntry.unnamed).Perm
        ((before.filter fun e => decide (e.id ∈ survivors db cutoff)).map TaskEntry.unnamed) ∧
      ∀ id : Uuid, (∃ e ∈ after, e.id = id.str) →
        (ListedOrphan (env.reading scan' pruned) id ↔ ListedOrphan (env.reading scan db) id) := by
  intro pruned
  obtain ⟨runs, hpruned⟩ : ∃ runs, pruned = db.prune (some cutoff) runs := by
    refine ⟨(appliedCutoffs env.now eventDays runDays).2, ?_⟩
    have hfirst : (appliedCutoffs env.now eventDays runDays).1 = some cutoff := by
      unfold appliedCutoffs
      rw [hcutoff]
      dsimp only
      cases retentionCutoff env.now runDays <;> rfl
    rw [← hfirst]
    exact pruneEvents_eq ..
  rw [hpruned]
  obtain ⟨before, after, hbefore, hafter, hperm⟩ :=
    listTasks_prune db env scan scan' runs cutoff sql hsort
  have hids : ∀ id : Uuid, (∃ e ∈ after, e.id = id.str) ↔ id.str ∈ survivors db cutoff := by
    intro id
    constructor
    · rintro ⟨e, he, hid⟩
      obtain ⟨e', he', heq⟩ := List.mem_map.mp (hperm.mem_iff.mp (List.mem_map_of_mem he))
      have hsurvives := (List.mem_filter.mp he').2
      rw [decide_eq_true_eq] at hsurvives
      rw [← hid]
      exact (congrArg TaskEntry.id heq) ▸ hsurvives
    · intro hid
      obtain ⟨entries, hentries, hall⟩ := listTasks_all (env.reading scan db) sql hsort
      rw [hbefore] at hentries
      cases hentries
      obtain ⟨e, he, heid⟩ := exists_entry_of_survivor hall hid
      obtain ⟨e', he', heq⟩ := List.mem_map.mp (hperm.mem_iff.mpr (List.mem_map_of_mem
        (List.mem_filter.mpr ⟨he, by rw [heid]; exact decide_eq_true hid⟩)))
      exact ⟨e', he', (congrArg TaskEntry.id heq).trans heid⟩
  refine ⟨before, after, hbefore, hafter, fun id => (hids id).trans ?_, hperm, fun id hid => ?_⟩
  · unfold survivors
    simp only [List.mem_map, List.mem_filter, decide_eq_true_eq]
    constructor
    · rintro ⟨r, ⟨hr, hk⟩, heq⟩
      exact ⟨r, hr, Uuid.str_inj heq, hk⟩
    · rintro ⟨r, hr, rfl, hk⟩
      exact ⟨r, ⟨hr, hk⟩, rfl⟩
  · refine listedOrphan_prune ((hids id).mp hid) fun timeout ht => ?_
    have hdays := retentionCutoff_eq_some hcutoff
    have htimeout := secondsInt_eq ht
    omega

/-- A task started within the last day, on a worker whose only heartbeat is two days older. -/
def quietWorker : Db :=
  { Db.empty with
    taskEvents := Table.empty.insert 0 { stuckTask.val with timestamp := 2 * dayUs }
    workerEvents := Table.empty.insert 0
      { eventType := .heartbeat, hostname := "celery@a", timestamp := 0 } }

/-- The heartbeat is pruned, and the task stays orphaned. -/
theorem prune_invisible_quietWorker :
    (ListedOrphan ((Env.idle (3 * dayUs)).reading .byId
        (pruneEvents (3 * dayUs) false ⟨1, by decide⟩ 1 0 quietWorker).1) stuckTask.val.taskId ↔
      ListedOrphan ((Env.idle (3 * dayUs)).reading .byId quietWorker) stuckTask.val.taskId) := by
  obtain ⟨before, after, -, -, hlisted, -, hverdict⟩ := prune_invisible quietWorker ⟨1, by decide⟩
    (.idle (3 * dayUs)) 1 0 (2 * dayUs) rfl (by decide) .byId .byId .ascii "timestamp" (by decide)
  exact hverdict _ ((hlisted _).mpr ⟨_, List.mem_singleton_self _, rfl, by decide⟩)

end Taskowl
