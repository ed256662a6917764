import Taskowl.Ingest
import Taskowl.Queries

/-!
# Queries without the order of arrival

Two logs with the same rows, in whatever order and under whatever ids, answer
alike when no two rows of a task or of a worker share a time: every ranking
and every fold goes by time alone. Deliveries of the same events leave such
logs.
-/

namespace Taskowl

open Lib Py

/-! ## Lists up to order -/

section Lists

variable {α β : Type}

theorem counts_perm [DecidableEq α] {xs ys : List α} (h : xs.Perm ys) :
    (counts xs).Perm (counts ys) := by
  unfold counts
  have hcount : ∀ v, xs.count v = ys.count v := fun v => h.count_eq v
  simp only [hcount]
  exact h.dedup.map _

end Lists

/-! ## The same log, in another order -/

/-- Two environments alike but for the order, the ids and the write times of the event rows, with
no two rows of a task or of a worker at one time. -/
structure SameLog (env env' : Env) : Prop where
  lib : env.lib = env'.lib
  settings : env.settings = env'.settings
  now : env.now = env'.now
  fromIso : env.fromIso = env'.fromIso
  tasks : (env.taskRows.map (·.val)).Perm (env'.taskRows.map (·.val))
  workers : (env.workerRows.map (·.val)).Perm (env'.workerRows.map (·.val))
  tasksApart : Apart (·.taskId) (·.timestamp) (env.taskRows.map (·.val))
  workersApart : Apart (·.hostname) (·.timestamp) (env.workerRows.map (·.val))

section Rows

variable {rows rows' : List (Row TaskEvent)} {id : Uuid}

theorem map_taskEvents (rows : List (Row TaskEvent)) (id : Uuid) :
    (taskEvents rows id).map (·.val) =
      orderBy (·.timestamp) ((rows.map (·.val)).filter fun v => v.taskId = id) := by
  unfold taskEvents
  rw [map_orderBy (fun r : Row TaskEvent => r.val) (·.timestamp), List.filter_map]
  rfl

theorem apart_filter (h : Apart (·.taskId) (·.timestamp) (rows.map (·.val))) (id : Uuid) :
    ∀ a ∈ (rows.map (·.val)).filter (fun v : TaskEvent => v.taskId = id),
      ∀ b ∈ (rows.map (·.val)).filter (fun v : TaskEvent => v.taskId = id),
        a.timestamp = b.timestamp → a = b := by
  intro a ha b hb hts
  simp only [List.mem_filter, decide_eq_true_eq] at ha hb
  exact h.2 a ha.1 b hb.1 (ha.2.trans hb.2.symm) hts

theorem taskEvents_congr (hp : (rows.map (·.val)).Perm (rows'.map (·.val)))
    (h : Apart (·.taskId) (·.timestamp) (rows.map (·.val))) (id : Uuid) :
    (taskEvents rows id).map (·.val) = (taskEvents rows' id).map (·.val) := by
  rw [map_taskEvents, map_taskEvents]
  exact orderBy_eq_of_perm (hp.filter _) (apart_filter h id)

theorem earliestName_congr (hp : (rows.map (·.val)).Perm (rows'.map (·.val)))
    (h : Apart (·.taskId) (·.timestamp) (rows.map (·.val))) (id : Uuid) :
    earliestName rows id = earliestName rows' id := by
  have hvals : ∀ rows : List (Row TaskEvent), earliestName rows id =
      (orderBy (fun v => if v.name.isNone then 1 else 0)
        ((taskEvents rows id).map (·.val))).head?.bind (·.name) := by
    intro rows
    unfold earliestName
    rw [← map_orderBy (fun r : Row TaskEvent => r.val), List.head?_map, Option.bind_map]
    rfl
  rw [hvals, hvals, taskEvents_congr hp h id]

theorem windowed_perm (hp : (rows.map (·.val)).Perm (rows'.map (·.val)))
    (h : Apart (·.taskId) (·.timestamp) (rows.map (·.val))) :
    (windowed rows).Perm (windowed rows') := by
  let entry := fun (v : TaskEvent) =>
    ({ taskId := v.taskId, eventType := v.eventType, hostname := v.hostname, queue := v.queue,
       timestamp := v.timestamp, taskName := earliestName rows v.taskId } : Windowed)
  have hrows : windowed rows =
      (newestOf (·.taskId) (·.timestamp) (rows.map (·.val))).map entry := by
    rw [← map_latestRows h, List.map_map]
    rfl
  have hrows' : windowed rows' =
      (newestOf (·.taskId) (·.timestamp) (rows'.map (·.val))).map entry := by
    rw [← map_latestRows (h.perm hp), List.map_map]
    unfold windowed
    simp only [← earliestName_congr hp h]
    rfl
  rw [hrows, hrows']
  exact (newestOf_perm hp).map entry

end Rows

section Workers

variable {rows rows' : List (Row WorkerEvent)}

theorem workerGone_congr (hp : (rows.map (·.val)).Perm (rows'.map (·.val)))
    (h : Apart (·.hostname) (·.timestamp) (rows.map (·.val))) (hostname : String)
    (now timeout : Int) : workerGone rows hostname now timeout =
      workerGone rows' hostname now timeout := by
  let gone : Option WorkerEvent → Bool := fun
    | none => true
    | some v => v.eventType == .offline || decide (timeout < now - ensureUtc v.timestamp)
  have hvals : ∀ rows : List (Row WorkerEvent), workerGone rows hostname now timeout =
      gone (topBy (·.timestamp) ((rows.map (·.val)).filter fun v => v.hostname = hostname)) := by
    intro rows
    unfold workerGone
    rw [List.filter_map, ← topBy_map (fun r : Row WorkerEvent => r.val)]
    show _ = gone ((topBy _ (rows.filter fun r => decide (r.val.hostname = hostname))).map _)
    cases topBy (fun r : Row WorkerEvent => r.val.timestamp)
      (rows.filter fun r => decide (r.val.hostname = hostname)) <;> rfl
  rw [hvals, hvals, topBy_eq_of_perm (hp.filter _)]
  intro a ha b hb hts
  simp only [List.mem_filter, decide_eq_true_eq] at ha hb
  exact h.2 a ha.1 b hb.1 (ha.2.trans hb.2.symm) hts

theorem orphanRules_congr {settings : Settings} {latest : TaskEvent} {now : Int}
    (hp : (rows.map (·.val)).Perm (rows'.map (·.val)))
    (h : Apart (·.hostname) (·.timestamp) (rows.map (·.val))) :
    orphanRules settings rows latest now = orphanRules settings rows' latest now := by
  unfold orphanRules
  simp only [workerGone_congr hp h]

end Workers

/-! ## The same answers -/

/-- The same exception, or results related. -/
def Agree {α : Type} (R : α → α → Prop) : Except PyErr α → Except PyErr α → Prop
  | .ok a, .ok b => R a b
  | .error e, .error e' => e = e'
  | _, _ => False

def Answer.Agree {α : Type} (R : α → α → Prop) : Answer α → Answer α → Prop
  | .ok a, .ok b => R a b
  | .error e, .error e' => e = e'
  | _, _ => False

def Summary.SameCounts (s t : Summary) : Prop :=
  s.periodHours = t.periodHours ∧ s.totalTasks = t.totalTasks ∧ s.byState.Perm t.byState

section Answers

variable {env env' : Env}

theorem listTasks_agree (h : SameLog env env') (sql : Sql) (filter : TaskFilter) (sortBy : String) :
    Agree (Answer.Agree List.Perm) (listTasks env sql filter none 0 sortBy)
      (listTasks env' sql filter none 0 sortBy) := by
  have hsince : parseSince env filter.since = parseSince env' filter.since := by
    unfold parseSince
    rw [h.fromIso]
  have hselects : filter.selects env sql = filter.selects env' sql := by
    unfold TaskFilter.selects
    rw [h.lib]
  unfold listTasks
  rw [hsince, hselects]
  cases parseSince env' filter.since with
  | error e => exact rfl
  | ok since =>
    cases sortOrder sql sortBy with
    | none => exact rfl
    | some le =>
      show List.Perm (List.map _ (List.drop 0 _)) (List.map _ (List.drop 0 _))
      rw [List.drop_zero, List.drop_zero]
      refine List.Perm.map _ ?_
      exact (List.perm_insertionSort _ _).trans
        (((windowed_perm h.tasks h.tasksApart).filter _).trans (List.perm_insertionSort _ _).symm)

theorem listTaskTypes_congr (h : SameLog env env') (sql : Sql) (limit : Nat) :
    listTaskTypes env sql limit = listTaskTypes env' sql limit := by
  let le := fun a b : String × Nat =>
    (decide (b.2 < a.2) || (decide (a.2 = b.2) && sql.le a.1 b.1)) = true
  have htotal : Std.Total le := ⟨fun a b => by
    have := sql.total a.1 b.1
    simp only [le, Bool.or_eq_true, Bool.and_eq_true, decide_eq_true_eq]
    rcases Nat.lt_trichotomy a.2 b.2 with hab | hab | hab
    · exact .inr (.inl hab)
    · exact this.elim (fun ht => .inl (.inr ⟨hab, ht⟩)) fun ht => .inr (.inr ⟨hab.symm, ht⟩)
    · exact .inl (.inl hab)⟩
  have htrans : IsTrans (String × Nat) le := ⟨fun a b c => by
    simp only [le, Bool.or_eq_true, Bool.and_eq_true, decide_eq_true_eq]
    rintro (hab | ⟨hab, hle⟩) (hbc | ⟨hbc, hle'⟩)
    · exact .inl (hbc.trans hab)
    · exact .inl (hbc ▸ hab)
    · exact .inl (hab ▸ hbc)
    · exact .inr ⟨hab.trans hbc, sql.trans _ _ _ hle hle'⟩⟩
  have hperm := counts_perm ((windowed_perm h.tasks h.tasksApart).filterMap (·.taskName))
  unfold listTaskTypes
  dsimp only
  congr 1
  apply List.Perm.eq_of_pairwise _ (List.pairwise_insertionSort le _)
    (List.pairwise_insertionSort le _)
  · exact (List.perm_insertionSort _ _).trans (hperm.trans (List.perm_insertionSort _ _).symm)
  · intro a b _ _ hab hba
    simp only [le, Bool.or_eq_true, Bool.and_eq_true, decide_eq_true_eq] at hab hba
    rcases hab with hab | ⟨hcount, hab⟩
    · omega
    · rcases hba with hba | ⟨-, hba⟩
      · omega
      · exact Prod.ext (sql.antisymm _ _ hab hba) hcount

theorem getTask_congr (h : SameLog env env') (taskId : String) :
    getTask env taskId = getTask env' taskId := by
  unfold getTask
  cases Uuid.parse taskId with
  | none => rfl
  | some id =>
    dsimp only
    have hevents := taskEvents_congr h.tasks h.tasksApart id
    have hfold : ∀ rows : List (Row TaskEvent), ∀ s : TaskState,
        rows.foldl (fun s r => s.add r.val) s = (rows.map (·.val)).foldl TaskState.add s := by
      intro rows s
      rw [List.foldl_map]
    have hlast : (taskEvents env.taskRows id).getLast?.map (·.val) =
        (taskEvents env'.taskRows id).getLast?.map (·.val) := by
      rw [← List.getLast?_map, ← List.getLast?_map, hevents]
    unfold getTaskImpl
    dsimp only
    rw [hfold, hfold, hevents, h.settings, h.now]
    cases ha : (taskEvents env.taskRows id).getLast? with
    | none =>
      rw [ha] at hlast
      rw [Option.map_eq_none_iff.mp hlast.symm]
    | some a =>
      rw [ha] at hlast
      obtain ⟨b, hb, hab⟩ := Option.map_eq_some_iff.mp hlast.symm
      have hval : b.val = a.val := hab
      rw [hb]
      dsimp only
      rw [hval, orphanRules_congr h.workers h.workersApart]

theorem map_active (rows : List (Row TaskEvent)) (since : Int) :
    (rows.filter fun r => r.val.taskId ∈
        (rows.filter fun r => decide (since ≤ r.val.timestamp)).map (·.val.taskId)).map (·.val) =
      (rows.map (·.val)).filter fun v => v.taskId ∈
        ((rows.map (·.val)).filter fun v => decide (since ≤ v.timestamp)).map (·.taskId) := by
  have hids : ((rows.map (·.val)).filter fun v => decide (since ≤ v.timestamp)).map (·.taskId) =
      (rows.filter fun r => decide (since ≤ r.val.timestamp)).map (·.val.taskId) := by
    rw [List.filter_map, List.map_map]
    rfl
  rw [hids, List.filter_map]
  rfl

theorem getTaskSummaryImpl_same {rows rows' : List (Row TaskEvent)}
    (hp : (rows.map (·.val)).Perm (rows'.map (·.val)))
    (h : Apart (·.taskId) (·.timestamp) (rows.map (·.val))) (since hours : Int) :
    (getTaskSummaryImpl rows since hours).SameCounts (getTaskSummaryImpl rows' since hours) := by
  let active := fun rows : List (Row TaskEvent) => rows.filter fun r => r.val.taskId ∈
    (rows.filter fun r => decide (since ≤ r.val.timestamp)).map (·.val.taskId)
  have hactive : ((active rows).map (·.val)).Perm ((active rows').map (·.val)) := by
    rw [map_active, map_active]
    have hids := (hp.filter fun v => decide (since ≤ v.timestamp)).map (·.taskId)
    simp only [hids.mem_iff]
    exact hp.filter _
  have hapart : Apart (·.taskId) (·.timestamp) ((active rows).map (·.val)) :=
    h.sublist (List.filter_sublist.map _)
  have hlatest : ((latestRows (·.taskId) (·.timestamp) (active rows)).map (·.val)).Perm
      ((latestRows (·.taskId) (·.timestamp) (active rows')).map (·.val)) := by
    rw [map_latestRows hapart, map_latestRows (hapart.perm hactive)]
    exact newestOf_perm hactive
  have hstates : ((latestRows (·.taskId) (·.timestamp) (active rows)).map
      (·.val.eventType.text)).Perm
      ((latestRows (·.taskId) (·.timestamp) (active rows')).map (·.val.eventType.text)) := by
    have hmap := hlatest.map (·.eventType.text)
    rw [List.map_map, List.map_map] at hmap
    exact hmap
  have hcounts := counts_perm hstates
  exact ⟨rfl, (hcounts.map _).sum_eq, hcounts⟩

theorem getTaskSummary_agree (h : SameLog env env') (hours : Int) :
    Agree Summary.SameCounts (getTaskSummary env hours) (getTaskSummary env' hours) := by
  unfold getTaskSummary
  rw [h.now]
  cases mkTimedelta (hours * 3600 * secondUs) with
  | error e => exact rfl
  | ok delta =>
    dsimp only
    cases subDelta env'.now delta with
    | error e => exact rfl
    | ok since => exact getTaskSummaryImpl_same h.tasks h.tasksApart since hours

theorem latestWorkers_perm (h : SameLog env env') :
    ((latestRows (·.hostname) (·.timestamp) env.workerRows).map (·.val)).Perm
      ((latestRows (·.hostname) (·.timestamp) env'.workerRows).map (·.val)) := by
  rw [map_latestRows h.workersApart, map_latestRows (h.workersApart.perm h.workers)]
  exact newestOf_perm h.workers

theorem getWorkerStatus_agree (h : SameLog env env') :
    Agree List.Perm (getWorkerStatus env) (getWorkerStatus env') := by
  have hlatest := latestWorkers_perm h
  cases ht : secondsInt env'.settings.workerOfflineTimeoutSeconds with
  | error e =>
    unfold getWorkerStatus workerStatus
    rw [h.settings, ht]
    have hlen := hlatest.length_eq
    rw [List.length_map, List.length_map] at hlen
    generalize latestRows (·.hostname) (·.timestamp) env.workerRows = l at hlen ⊢
    generalize latestRows (·.hostname) (·.timestamp) env'.workerRows = l' at hlen ⊢
    cases l with
    | nil =>
      rw [List.length_eq_zero_iff.mp hlen.symm]
      exact .nil
    | cons a l =>
      cases l' with
      | nil => cases hlen
      | cons a' l' => exact rfl
  | ok timeout =>
    have ht' : secondsInt env.settings.workerOfflineTimeoutSeconds = .ok timeout := by
      rw [h.settings, ht]
    rw [getWorkerStatus_ok ht, getWorkerStatus_ok ht', h.now]
    have hmap := hlatest.map fun v => workerInfo v
      (if reportsOffline timeout env'.now v then "offline" else "online")
    rw [List.map_map, List.map_map] at hmap
    exact hmap

theorem workersOfflineMap_lookup (h : SameLog env env') (timeout : Int) (hostname : String) :
    (workersOfflineMap env timeout).lookup hostname =
      (workersOfflineMap env' timeout).lookup hostname := by
  apply lookup_eq_of_perm
  · have hp := (latestWorkers_perm h).map fun v : WorkerEvent =>
      (v.hostname, v.eventType == .offline || decide (timeout < env.now - ensureUtc v.timestamp))
    rw [List.map_map, List.map_map] at hp
    unfold workersOfflineMap
    rw [← h.now]
    exact hp
  · unfold workersOfflineMap
    rw [List.map_map]
    exact nodup_latestRows h.workersApart

theorem listOrphanedTasks_agree (h : SameLog env env') :
    Agree List.Perm (listOrphanedTasks env none) (listOrphanedTasks env' none) := by
  unfold listOrphanedTasks
  rw [h.settings]
  cases secondsInt env'.settings.orphanGraceSeconds with
  | error e => cases secondsInt env'.settings.workerOfflineTimeoutSeconds <;> exact rfl
  | ok grace =>
    cases secondsInt env'.settings.workerOfflineTimeoutSeconds with
    | error e => exact rfl
    | ok timeout =>
      have hentry : orphanEntry env grace (workersOfflineMap env timeout) =
          orphanEntry env' grace (workersOfflineMap env' timeout) := by
        funext w
        unfold orphanEntry
        rw [h.now]
        simp only [workersOfflineMap_lookup h]
      show List.Perm (List.filterMap _ _) (List.filterMap _ _)
      rw [hentry]
      exact (windowed_perm h.tasks h.tasksApart).filterMap _

end Answers

/-- The same answers to every query. -/
structure SameAnswers (sql : Sql) (env env' : Env) : Prop where
  listTasks : ∀ filter sortBy, Agree (Answer.Agree List.Perm)
    (listTasks env sql filter none 0 sortBy) (listTasks env' sql filter none 0 sortBy)
  listTaskTypes : ∀ limit, listTaskTypes env sql limit = listTaskTypes env' sql limit
  getTask : ∀ taskId, getTask env taskId = getTask env' taskId
  getTaskSummary : ∀ hours,
    Agree Summary.SameCounts (getTaskSummary env hours) (getTaskSummary env' hours)
  getWorkerStatus : Agree List.Perm (getWorkerStatus env) (getWorkerStatus env')
  listOrphanedTasks : Agree List.Perm (listOrphanedTasks env none) (listOrphanedTasks env' none)

theorem SameLog.sameAnswers {env env' : Env} (h : SameLog env env') (sql : Sql) :
    SameAnswers sql env env' where
  listTasks := listTasks_agree h sql
  listTaskTypes := listTaskTypes_congr h sql
  getTask := getTask_congr h
  getTaskSummary := getTaskSummary_agree h
  getWorkerStatus := getWorkerStatus_agree h
  listOrphanedTasks := listOrphanedTasks_agree h

/-! ## Order and redelivery of events -/

section Deliveries

variable {lib : PyLib} {ds ds' : List Delivery}

theorem rowsOf_subset
    (hsame : ∀ i ∈ (rowsOf lib ds).map EventRow.identity,
      i ∈ (rowsOf lib ds').map EventRow.identity)
    (hone : OneAtATime (rowsOf lib (ds ++ ds'))) : rowsOf lib ds ⊆ rowsOf lib ds' := by
  intro r hr
  obtain ⟨s, hs, hid⟩ := List.mem_map.mp (hsame _ (List.mem_map_of_mem hr))
  have happend : rowsOf lib (ds ++ ds') = rowsOf lib ds ++ rowsOf lib ds' :=
    List.filterMap_append
  rw [happend] at hone
  simp only [EventRow.identity, Identity.mk.injEq] at hid
  rw [hone r (List.mem_append_left _ hr) s (List.mem_append_right _ hs) hid.2.1.symm hid.2.2.symm]
  exact hs

/-- The rows at one time are one, so in the tables too. -/
theorem Holds.apart {rows : List EventRow} {db : Db} (h : Holds rows db) (hone : OneAtATime rows) :
    Apart (·.taskId) (·.timestamp) db.taskEvents.vals ∧
      Apart (·.hostname) (·.timestamp) db.workerEvents.vals := by
  refine ⟨⟨h.nodupTasks, fun u hu v hv hid hts => ?_⟩, h.nodupWorkers, fun u hu v hv hid hts => ?_⟩
  · exact EventRow.task.inj (hone _ ((h.tasks u).mp hu) _ ((h.tasks v).mp hv)
      (congrArg Sum.inl hid) hts)
  · exact EventRow.worker.inj (hone _ ((h.workers u).mp hu) _ ((h.workers v).mp hv)
      (congrArg Sum.inr hid) hts)

theorem Holds.perm {rows rows' : List EventRow} {db db' : Db} (h : Holds rows db)
    (h' : Holds rows' db') (hrows : ∀ r, r ∈ rows ↔ r ∈ rows') :
    db.taskEvents.vals.Perm db'.taskEvents.vals ∧
      db.workerEvents.vals.Perm db'.workerEvents.vals := by
  constructor
  · rw [List.perm_ext_iff_of_nodup h.nodupTasks h'.nodupTasks]
    intro r
    rw [h.tasks, h'.tasks, hrows]
  · rw [List.perm_ext_iff_of_nodup h.nodupWorkers h'.nodupWorkers]
    intro r
    rw [h.workers, h'.workers, hrows]

/-- Deliveries of the same events, in any order and any number of times, leave the same rows and
the same answers. -/
theorem order_free (lib : PyLib) (ds ds' : List Delivery) (hvalid : ∀ d ∈ ds ++ ds', d.Valid lib)
    (hsame : ∀ i, i ∈ (rowsOf lib ds).map EventRow.identity ↔
      i ∈ (rowsOf lib ds').map EventRow.identity)
    (hone : OneAtATime (rowsOf lib (ds ++ ds')))
    (hsha : NoCollision (rowsOf lib (ds ++ ds'))) :
    let db := run (ingest lib) .empty ds
    let db' := run (ingest lib) .empty ds'
    db.taskEvents.vals.Perm db'.taskEvents.vals ∧ db.workerEvents.vals.Perm db'.workerEvents.vals ∧
      ∀ (sql : Sql) (env : Env) (scan scan' : Scan),
        SameAnswers sql (env.reading scan db) (env.reading scan' db') := by
  intro db db'
  have happend : rowsOf lib (ds ++ ds') = rowsOf lib ds ++ rowsOf lib ds' :=
    List.filterMap_append
  have hleft : rowsOf lib ds ⊆ rowsOf lib (ds ++ ds') := happend ▸ List.subset_append_left _ _
  have hright : rowsOf lib ds' ⊆ rowsOf lib (ds ++ ds') := happend ▸ List.subset_append_right _ _
  have hone' : OneAtATime (rowsOf lib (ds' ++ ds)) := by
    refine hone.subset ?_
    unfold rowsOf
    rw [List.filterMap_append]
    exact List.append_subset.mpr ⟨hright, hleft⟩
  have hrows : ∀ r, r ∈ rowsOf lib ds ↔ r ∈ rowsOf lib ds' := fun r =>
    ⟨fun hr => rowsOf_subset (fun i => (hsame i).mp) hone hr,
      fun hr => rowsOf_subset (fun i => (hsame i).mpr) hone' hr⟩
  have hholds : Holds (rowsOf lib ds) db := holds_run
    (fun d hd => hvalid d (List.mem_append_left _ hd)) (hone.subset hleft) (hsha.subset hleft)
  have hholds' : Holds (rowsOf lib ds') db' := holds_run
    (fun d hd => hvalid d (List.mem_append_right _ hd)) (hone.subset hright) (hsha.subset hright)
  obtain ⟨htasks, hworkers⟩ := hholds.perm hholds' hrows
  obtain ⟨hat, haw⟩ := hholds.apart (hone.subset hleft)
  refine ⟨htasks, hworkers, fun sql env scan scan' => SameLog.sameAnswers ?_ sql⟩
  have hscan : ((env.reading scan db).taskRows.map (·.val)).Perm db.taskEvents.vals :=
    (scan.perm _).map _
  have hscanw : ((env.reading scan db).workerRows.map (·.val)).Perm db.workerEvents.vals :=
    (scan.perm _).map _
  exact
    { lib := rfl, settings := rfl, now := rfl, fromIso := rfl
      tasks := hscan.trans (htasks.trans ((scan'.perm _).map _).symm)
      workers := hscanw.trans (hworkers.trans ((scan'.perm _).map _).symm)
      tasksApart := hat.perm hscan.symm
      workersApart := haw.perm hscanw.symm }

end Deliveries

def sentEvent : Dict :=
  [("type", .str "task-sent"), ("uuid", .str "12345678-1234-5678-1234-567812345678"),
    ("name", .str "billing.charge"), ("timestamp", .int 1)]

def startedEvent : Dict :=
  [("type", .str "task-started"), ("uuid", .str "12345678-1234-5678-1234-567812345678"),
    ("hostname", .str "celery@a"), ("timestamp", .int 2)]

/-- The two in order, and the second before the first and again after it. -/
theorem order_free_started :
    let lib := (Env.idle 0).lib
    let ds : List Delivery := [⟨5, sentEvent⟩, ⟨6, startedEvent⟩]
    let ds' : List Delivery := [⟨7, startedEvent⟩, ⟨8, sentEvent⟩, ⟨9, startedEvent⟩]
    (run (ingest lib) .empty ds).taskEvents.vals.Perm
      (run (ingest lib) .empty ds').taskEvents.vals := by
  intro lib ds ds'
  have hsent : Stamped sentEvent := by
    unfold Stamped
    decide
  have hstarted : Stamped startedEvent := by
    unfold Stamped
    decide
  obtain ⟨a, ha⟩ : ∃ a, eventRow lib 0 sentEvent = some a :=
    Option.isSome_iff_exists.mp (by decide +kernel)
  obtain ⟨b, hb⟩ : ∃ b, eventRow lib 0 startedEvent = some b :=
    Option.isSome_iff_exists.mp (by decide +kernel)
  have hrows : rowsOf lib ds = [a, b] := by
    simp [ds, rowsOf, eventRow_stable hsent ha, eventRow_stable hstarted hb]
  have hrows' : rowsOf lib ds' = [b, a, b] := by
    simp [ds', rowsOf, eventRow_stable hsent ha, eventRow_stable hstarted hb]
  have hall : rowsOf lib (ds ++ ds') ⊆ [a, b] := by
    unfold rowsOf at *
    rw [List.filterMap_append, hrows, hrows']
    simp
  have hapart : a.timestamp ≠ b.timestamp := by
    have hts : (eventRow lib 0 sentEvent).map (·.timestamp) ≠
        (eventRow lib 0 startedEvent).map (·.timestamp) := by decide +kernel
    rw [ha, hb] at hts
    exact fun h => hts (congrArg some h)
  have hhash : Sha.sha256hex a.payload ≠ Sha.sha256hex b.payload := by
    have hne : (eventRow lib 0 sentEvent).map (fun r => Sha.sha256hex r.payload) ≠
        (eventRow lib 0 startedEvent).map (fun r => Sha.sha256hex r.payload) := by decide +kernel
    rw [ha, hb] at hne
    exact fun h => hne (congrArg some h)
  refine (order_free lib ds ds' ?_ ?_ (OneAtATime.subset ?_ hall) (NoCollision.subset ?_ hall)).1
  · intro d hd
    simp only [ds, ds', List.cons_append, List.nil_append, List.mem_cons, List.not_mem_nil,
      or_false] at hd
    rcases hd with rfl | rfl | rfl | rfl | rfl
    all_goals first
      | exact ⟨hsent, by rw [eventRow_stable hsent ha]; rfl⟩
      | exact ⟨hstarted, by rw [eventRow_stable hstarted hb]; rfl⟩
  · rw [hrows, hrows']
    simp [or_comm]
  · intro r hr s hs _ hts
    simp only [List.mem_cons, List.not_mem_nil, or_false] at hr hs
    rcases hr with rfl | rfl <;> rcases hs with rfl | rfl
    · rfl
    · exact absurd hts hapart
    · exact absurd hts.symm hapart
    · rfl
  · intro r hr s hs heq
    simp only [List.mem_cons, List.not_mem_nil, or_false] at hr hs
    rcases hr with rfl | rfl <;> rcases hs with rfl | rfl
    · rfl
    · exact absurd heq hhash
    · exact absurd heq.symm hhash
    · rfl

end Taskowl
