import Taskowl.Queries

/-!
# The orphan verdict

Four places say whether a task is orphaned: the listing, `get_task`,
`_get_task_info` for a retry, and a reader of `get_worker_status`. Each picks a
latest row, by rank, by order or by `LIMIT 1`; where no two events of a
subject share a timestamp they pick the same one. The worker view computes no
timeout when there is no worker, the others always do: an offline timeout that
is no timedelta parts them.
-/

namespace Taskowl

open Lib Py

/-- `list_orphaned_tasks`, without a limit, lists the task. -/
def ListedOrphan (env : Env) (id : Uuid) : Prop :=
  ∃ entries, listOrphanedTasks env none = .ok entries ∧ ∃ e ∈ entries, e.id = id.str

/-- `get_task` reports it with `orphaned: true`. -/
def ReportedOrphan (env : Env) (id : Uuid) : Prop :=
  ∃ s, getTask env id.str = .ok (.ok s) ∧ s.orphaned = true

/-- `_get_task_info` gives it the state `orphaned`. -/
def RetryableOrphan (env : Env) (id : Uuid) : Prop :=
  ∃ info, getTaskInfo env id = .ok (some info) ∧ info.state = "orphaned"

/-- `get_worker_status` does not list the host, or reports it offline. -/
def StatusGone (env : Env) (hostname : String) : Prop :=
  ∃ workers, getWorkerStatus env = .ok workers ∧
    ((∀ w ∈ workers, w.hostname ≠ hostname) ∨
      ∃ w ∈ workers, w.hostname = hostname ∧ w.status = "offline")

def LatestEvent (rows : List (Row TaskEvent)) (r : Row TaskEvent) : Prop :=
  r ∈ rows ∧ ∀ s ∈ rows, s.val.taskId = r.val.taskId → s.val.timestamp ≤ r.val.timestamp

/-- The latest event is `started`, older than the grace period, on a worker that is gone. -/
structure StuckOn (env : Env) (gone : String → Prop) (event : TaskEvent) : Prop where
  started : event.eventType = .started
  late : ∃ grace, secondsInt env.settings.orphanGraceSeconds = .ok grace ∧
    grace < env.now - ensureUtc event.timestamp
  worker : ∃ hostname, event.hostname = some hostname ∧ hostname ≠ "" ∧ gone hostname

/-- The rule a reader of the logs and of `get_worker_status` would apply. -/
def Orphaned (env : Env) (id : Uuid) : Prop :=
  ∃ r, LatestEvent env.taskRows r ∧ r.val.taskId = id ∧ StuckOn env (StatusGone env) r.val

section Verdict

variable {env : Env} {id : Uuid} {timeout : Int}

theorem orphanRules_eq_true {event : TaskEvent} :
    orphanRules env.settings env.workerRows event env.now = .ok true ↔
      ∃ timeout, secondsInt env.settings.workerOfflineTimeoutSeconds = .ok timeout ∧
        StuckOn env (fun h => workerGone env.workerRows h env.now timeout = true) event := by
  unfold orphanRules
  cases hg : secondsInt env.settings.orphanGraceSeconds with
  | error e =>
    constructor
    · intro h
      cases ht : secondsInt env.settings.workerOfflineTimeoutSeconds <;> rw [ht] at h <;> cases h
    · rintro ⟨-, -, -, ⟨grace, hgrace, -⟩, -⟩
      rw [hg] at hgrace
      cases hgrace
  | ok grace =>
    cases ht : secondsInt env.settings.workerOfflineTimeoutSeconds with
    | error e => exact ⟨nofun, fun ⟨_, h, _⟩ => nomatch h⟩
    | ok timeout =>
      dsimp only
      constructor
      · intro h
        split at h
        · cases h
        · next hstarted =>
          split at h
          · cases h
          · next hlate =>
            split at h
            · cases h
            · cases h
            · next hostname hne hhost =>
              refine ⟨timeout, rfl, by simpa using hstarted, ⟨grace, hg, by omega⟩, hostname, hhost,
                hne, ?_⟩
              simpa using h
      · rintro ⟨timeout', ht', hstarted, ⟨grace', hg', hlate⟩, hostname, hhost, hne, hgone⟩
        cases ht'
        rw [hg] at hg'
        cases hg'
        rw [if_neg (by simpa using hstarted), if_neg (by omega), hhost]
        split
        · next heq => cases heq
        · next heq => exact absurd (Option.some.inj heq) hne
        · next heq =>
          rw [← Option.some.inj heq, hgone]

/-- What the two queries of one task read: the rules on the row that comes last. -/
def RulesHold (env : Env) (id : Uuid) : Prop :=
  ∃ last, (taskEvents env.taskRows id).getLast? = some last ∧
    orphanRules env.settings env.workerRows last.val env.now = .ok true

theorem reportedOrphan_iff : ReportedOrphan env id ↔ RulesHold env id := by
  unfold ReportedOrphan RulesHold getTask
  rw [Uuid.parse_str]
  dsimp only
  unfold getTaskImpl
  dsimp only
  cases (taskEvents env.taskRows id).getLast? with
  | none => simp
  | some last =>
    simp only [Option.some.injEq, exists_eq_left']
    cases orphanRules env.settings env.workerRows last.val env.now with
    | error e => simp
    | ok orphaned =>
      simp only [Except.ok.injEq, Answer.ok.injEq, exists_eq_left']

theorem retryableOrphan_iff : RetryableOrphan env id ↔ RulesHold env id := by
  unfold RetryableOrphan RulesHold getTaskInfo taskIsOrphaned
  dsimp only
  cases (taskEvents env.taskRows id).getLast? with
  | none => simp
  | some last =>
    simp only [Option.some.injEq, exists_eq_left']
    cases orphanRules env.settings env.workerRows last.val env.now with
    | error e => simp
    | ok orphaned =>
      simp only [Except.ok.injEq, Option.some.injEq, exists_eq_left']
      cases orphaned with
      | true => simp
      | false =>
        -- No event type is called `orphaned`.
        have hname : (taskInfoOf last.val (taskEvents env.taskRows id)).state ≠ "orphaned" := by
          rw [state_taskInfoOf]
          cases last.val.eventType <;> decide
        simpa using hname

theorem orphanEntry_iff {grace : Int} {offline : List (String × Bool)} {w : Windowed} :
    (∃ e, orphanEntry env grace offline w = some e ∧ e.id = id.str) ↔
      w.taskId = id ∧ w.eventType = .started ∧ grace < env.now - ensureUtc w.timestamp ∧
        ∃ hostname, w.hostname = some hostname ∧ hostname ≠ "" ∧
          (offline.lookup hostname).getD true = true := by
  unfold orphanEntry
  constructor
  · rintro ⟨e, he, hid⟩
    split at he
    · cases he
    · next hstarted =>
      split at he
      · cases he
      · next hlate =>
        split at he
        · cases he
        · cases he
        · next hostname hne hhost =>
          split at he
          · next hgone =>
            obtain rfl := Option.some.inj he
            exact ⟨Uuid.str_inj hid, by simpa using hstarted, by omega, hostname, hhost, hne, hgone⟩
          · cases he
  · rintro ⟨rfl, hstarted, hlate, hostname, hhost, hne, hgone⟩
    rw [if_neg (by simpa using hstarted), if_neg (by omega), hhost]
    split
    · next heq => cases heq
    · next heq => exact absurd (Option.some.inj heq) hne
    · next heq =>
      rw [← Option.some.inj heq, if_pos hgone]
      exact ⟨_, rfl, rfl⟩

/-- The listing applies the rules to the row of rank one. -/
theorem listedOrphan_iff : ListedOrphan env id ↔
    ∃ timeout, secondsInt env.settings.workerOfflineTimeoutSeconds = .ok timeout ∧
      ∃ r ∈ latestRows (·.taskId) (·.timestamp) env.taskRows, r.val.taskId = id ∧
        StuckOn env (fun h => ((workersOfflineMap env timeout).lookup h).getD true = true)
          r.val := by
  unfold ListedOrphan listOrphanedTasks
  cases hg : secondsInt env.settings.orphanGraceSeconds with
  | error e =>
    constructor
    · rintro ⟨entries, hentries, -⟩
      cases ht : secondsInt env.settings.workerOfflineTimeoutSeconds <;> rw [ht] at hentries <;>
        cases hentries
    · rintro ⟨-, -, r, -, -, -, ⟨grace, hgrace, -⟩, -⟩
      rw [hg] at hgrace
      cases hgrace
  | ok grace =>
    cases ht : secondsInt env.settings.workerOfflineTimeoutSeconds with
    | error e => simp
    | ok timeout =>
      have hlimited : ∀ l : List OrphanEntry, limited none l = l := fun _ => rfl
      simp only [Except.ok.injEq, exists_eq_left', hlimited, List.mem_filterMap]
      constructor
      · rintro ⟨e, ⟨w, hw, he⟩, hid⟩
        obtain ⟨r, hr, rfl⟩ := List.mem_map.mp hw
        obtain ⟨hid, hstarted, hlate, hworker⟩ := orphanEntry_iff.mp ⟨e, he, hid⟩
        exact ⟨r, hr, hid, hstarted, ⟨grace, hg, hlate⟩, hworker⟩
      · rintro ⟨r, hr, hid, hstarted, ⟨grace', hg', hlate⟩, hworker⟩
        rw [hg] at hg'
        cases hg'
        obtain ⟨w, hw, hsame⟩ : ∃ w ∈ windowed env.taskRows, w.taskId = r.val.taskId ∧
            w.eventType = r.val.eventType ∧ w.timestamp = r.val.timestamp ∧
            w.hostname = r.val.hostname := ⟨_, List.mem_map_of_mem hr, rfl, rfl, rfl, rfl⟩
        obtain ⟨hwid, hwtype, hwts, hwhost⟩ := hsame
        obtain ⟨e, he, hid⟩ := orphanEntry_iff.mpr ⟨hwid.trans hid, hwtype.trans hstarted,
          hwts ▸ hlate, hwhost ▸ hworker⟩
        exact ⟨e, ⟨w, hw, he⟩, hid⟩

end Verdict

/-! ## The workers -/

section Workers

variable {env : Env} {timeout : Int} {hostname : String}

def latestWorkers (env : Env) : List (Row WorkerEvent) :=
  latestRows (·.hostname) (·.timestamp) env.workerRows

theorem nodup_latestWorkers_of_apart
    (h : Apart (·.hostname) (·.timestamp) (env.workerRows.map (·.val))) :
    ((latestWorkers env).map (·.val.hostname)).Nodup := nodup_latestRows h

/-- The batched lookup with its default: a host is gone unless its latest row is not offline. -/
theorem lookup_gone_iff (hone : ((latestWorkers env).map (·.val.hostname)).Nodup) :
    ((workersOfflineMap env timeout).lookup hostname).getD true = true ↔
      ∀ r ∈ latestWorkers env, r.val.hostname = hostname →
        reportsOffline timeout env.now r.val = true := by
  have hkeys : ((workersOfflineMap env timeout).map (·.1)).Nodup := by
    unfold workersOfflineMap
    rw [List.map_map]
    exact hone
  cases hl : (workersOfflineMap env timeout).lookup hostname with
  | none =>
    refine ⟨fun _ r hr hhost => ?_, fun _ => rfl⟩
    have hne := List.lookup_eq_none_iff.mp hl _ (List.mem_map_of_mem hr)
    rw [bne_iff_ne] at hne
    exact absurd hhost.symm hne
  | some gone =>
    obtain ⟨s, hs, heq⟩ := List.mem_map.mp ((lookup_eq_some_iff hkeys).mp hl)
    obtain ⟨hhost, hgone⟩ := Prod.mk.inj heq
    have hgone : reportsOffline timeout env.now s.val = gone := hgone
    constructor
    · intro htrue r hr hrhost
      have hsame : r = s := List.inj_on_of_nodup_map hone hr hs (hrhost.trans hhost.symm)
      rw [hsame, hgone]
      exact htrue
    · intro hall
      rw [Option.getD_some, ← hgone]
      exact hall s hs hhost

/-- The query of one worker answers as the batched lookup. -/
theorem workerGone_iff (h : Apart (·.hostname) (·.timestamp) (env.workerRows.map (·.val))) :
    workerGone env.workerRows hostname env.now timeout = true ↔
      ((workersOfflineMap env timeout).lookup hostname).getD true = true := by
  rw [lookup_gone_iff (nodup_latestWorkers_of_apart h)]
  unfold workerGone latestWorkers
  cases htop : topBy (fun r : Row WorkerEvent => r.val.timestamp)
      (env.workerRows.filter fun r => decide (r.val.hostname = hostname)) with
  | none =>
    refine ⟨fun _ r hr hhost => ?_, fun _ => rfl⟩
    have hrow := List.filter_eq_nil_iff.mp (topBy_eq_none.mp htop) r (mem_latestRows.mp hr).1
    exact absurd (decide_eq_true hhost) hrow
  | some s =>
    obtain ⟨hs, hmax⟩ := topBy_spec htop
    obtain ⟨hs, hhost⟩ := List.mem_filter.mp hs
    have hhost : s.val.hostname = hostname := by simpa using hhost
    have hlatest : s ∈ latestWorkers env := by
      refine (mem_latestRows_of_apart h).mpr ⟨hs, fun u hu hpart => hmax u ?_⟩
      exact List.mem_filter.mpr ⟨hu, by simpa using hpart.trans hhost⟩
    constructor
    · intro hgone r hr hrhost
      rw [List.inj_on_of_nodup_map (nodup_latestWorkers_of_apart h) hr hlatest
        (hrhost.trans hhost.symm)]
      exact hgone
    · exact fun hall => hall s hlatest hhost

theorem statusGone_iff (ht : secondsInt env.settings.workerOfflineTimeoutSeconds = .ok timeout)
    (hone : ((latestWorkers env).map (·.val.hostname)).Nodup) :
    StatusGone env hostname ↔
      ((workersOfflineMap env timeout).lookup hostname).getD true = true := by
  have hstatus : ∀ r : Row WorkerEvent,
      (if reportsOffline timeout env.now r.val then "offline" else "online") = "offline" ↔
        reportsOffline timeout env.now r.val = true := by
    intro r
    cases reportsOffline timeout env.now r.val <;> decide
  rw [lookup_gone_iff hone]
  unfold StatusGone
  rw [getWorkerStatus_ok ht]
  simp only [Except.ok.injEq, exists_eq_left', List.mem_map, forall_exists_index, and_imp,
    forall_apply_eq_imp_iff₂, exists_exists_and_eq_and]
  constructor
  · rintro (hnot | ⟨s, hs, hshost, hoff⟩) r hr hhost
    · exact absurd hhost (hnot r hr)
    · rw [List.inj_on_of_nodup_map hone hr hs (hhost.trans (Eq.symm hshost))]
      exact (hstatus s).mp hoff
  · intro hall
    by_cases hex : ∃ r ∈ latestWorkers env, r.val.hostname = hostname
    · obtain ⟨r, hr, hhost⟩ := hex
      exact .inr ⟨r, hr, hhost, (hstatus r).mpr (hall r hr hhost)⟩
    · exact .inl fun r hr hhost => hex ⟨r, hr, hhost⟩

end Workers

/-! ## The four verdicts -/

section Verdicts

variable {env : Env} {id : Uuid}

theorem rulesHold_iff (htasks : Apart (·.taskId) (·.timestamp) (env.taskRows.map (·.val)))
    (hworkers : Apart (·.hostname) (·.timestamp) (env.workerRows.map (·.val))) :
    RulesHold env id ↔ ListedOrphan env id := by
  rw [listedOrphan_iff]
  unfold RulesHold
  simp only [orphanRules_eq_true, workerGone_iff hworkers]
  constructor
  · rintro ⟨last, hlast, timeout, ht, hrules⟩
    obtain ⟨hmem, hmax⟩ := getLast?_orderBy hlast
    obtain ⟨hmem, hid⟩ := List.mem_filter.mp hmem
    have hid : last.val.taskId = id := by simpa using hid
    refine ⟨timeout, ht, last, (mem_latestRows_of_apart htasks).mpr ⟨hmem, ?_⟩, hid, hrules⟩
    intro s hs hpart
    exact hmax s (List.mem_filter.mpr ⟨hs, by simpa using hpart.trans hid⟩)
  · rintro ⟨timeout, ht, r, hr, hid, hrules⟩
    obtain ⟨hmem, hmax⟩ := (mem_latestRows_of_apart htasks).mp hr
    have hrow : r ∈ taskEvents env.taskRows id :=
      mem_orderBy.mpr (List.mem_filter.mpr ⟨hmem, by simpa using hid⟩)
    obtain ⟨last, hlast⟩ := Option.isSome_iff_exists.mp
      (List.getLast?_isSome.mpr (List.ne_nil_of_mem hrow))
    obtain ⟨hlmem, hlmax⟩ := getLast?_orderBy hlast
    obtain ⟨hlmem, hlid⟩ := List.mem_filter.mp hlmem
    have hlid : last.val.taskId = id := by simpa using hlid
    have hts : last.val.timestamp = r.val.timestamp := Int.le_antisymm
      (hmax last hlmem (hlid.trans hid.symm)) (hlmax r (mem_orderBy.mp hrow))
    have hval : last.val = r.val := htasks.2 _ (List.mem_map_of_mem hlmem) _
      (List.mem_map_of_mem hmem) (hlid.trans hid.symm) hts
    exact ⟨last, hlast, timeout, ht, hval ▸ hrules⟩

theorem orphaned_iff {timeout : Int}
    (ht : secondsInt env.settings.workerOfflineTimeoutSeconds = .ok timeout)
    (htasks : Apart (·.taskId) (·.timestamp) (env.taskRows.map (·.val)))
    (hworkers : Apart (·.hostname) (·.timestamp) (env.workerRows.map (·.val))) :
    Orphaned env id ↔ ListedOrphan env id := by
  rw [listedOrphan_iff]
  unfold Orphaned LatestEvent
  constructor
  · rintro ⟨r, hlatest, hid, hstarted, hlate, hostname, hhost, hne, hgone⟩
    exact ⟨timeout, ht, r, (mem_latestRows_of_apart htasks).mpr hlatest, hid, hstarted, hlate,
      hostname, hhost, hne, (statusGone_iff ht (nodup_latestWorkers_of_apart hworkers)).mp hgone⟩
  · rintro ⟨timeout', ht', r, hr, hid, hstarted, hlate, hostname, hhost, hne, hgone⟩
    rw [ht] at ht'
    cases ht'
    exact ⟨r, (mem_latestRows_of_apart htasks).mp hr, hid, hstarted, hlate, hostname, hhost, hne,
      (statusGone_iff ht (nodup_latestWorkers_of_apart hworkers)).mpr hgone⟩

/-- Over logs without ties, the listing, `get_task` and `_get_task_info` give the same verdict; and
with an offline timeout that is a timedelta, it is the one the logs and the worker status give. -/
theorem orphan_verdicts (env : Env) (id : Uuid)
    (htasks : Apart (·.taskId) (·.timestamp) (env.taskRows.map (·.val)))
    (hworkers : Apart (·.hostname) (·.timestamp) (env.workerRows.map (·.val))) :
    (ListedOrphan env id ↔ ReportedOrphan env id) ∧
      (ListedOrphan env id ↔ RetryableOrphan env id) ∧
      ((∃ timeout, secondsInt env.settings.workerOfflineTimeoutSeconds = .ok timeout) →
        (ListedOrphan env id ↔ Orphaned env id)) := by
  have hrules : RulesHold env id ↔ ListedOrphan env id := rulesHold_iff htasks hworkers
  refine ⟨hrules.symm.trans reportedOrphan_iff.symm, hrules.symm.trans retryableOrphan_iff.symm, ?_⟩
  rintro ⟨timeout, ht⟩
  exact (orphaned_iff ht htasks hworkers).symm

end Verdicts

/-- A task started a minute and a second ago, on a worker never heard of. -/
def stuckTask : Row TaskEvent where
  id := 1
  createdAt := 0
  val := { eventType := .started, taskId := ⟨7, by decide⟩, timestamp := 0,
           hostname := some "celery@a" }

def stuckEnv (settings : Settings) : Env :=
  { Env.idle (61 * secondUs) with settings := settings, taskRows := [stuckTask] }

/-- An offline timeout of thirty million years: the worker status is an empty list, and the listing
raises. -/
theorem orphan_verdicts_part :
    Orphaned (stuckEnv { workerOfflineTimeoutSeconds := 10 ^ 15 }) ⟨7, by decide⟩ ∧
      ¬ ListedOrphan (stuckEnv { workerOfflineTimeoutSeconds := 10 ^ 15 }) ⟨7, by decide⟩ := by
  constructor
  · refine ⟨stuckTask, ⟨List.mem_singleton_self _, ?_⟩, rfl, rfl, ⟨60 * secondUs, by decide⟩,
      "celery@a", rfl, by decide, [], rfl, .inl fun _ hw => absurd hw List.not_mem_nil⟩
    intro s hs _
    rw [List.mem_singleton.mp hs]
  · rw [listedOrphan_iff]
    rintro ⟨timeout, ht, -⟩
    have hraises : (secondsInt (10 ^ 15)).isOk = false := by decide
    rw [show secondsInt (10 ^ 15) = .ok timeout from ht] at hraises
    cases hraises

/-- A log of three started tasks, one of which has succeeded, and of two workers: `celery@a` last
heard of a minute ago, `celery@b` now. -/
def busyEnv : Env :=
  { Env.idle (61 * secondUs) with
    taskRows := [stuckTask,
      ⟨2, 0, { eventType := .started, taskId := ⟨8, by decide⟩, timestamp := 0,
               hostname := some "celery@b" }⟩,
      ⟨3, 0, { eventType := .started, taskId := ⟨9, by decide⟩, timestamp := 0,
               hostname := some "celery@a" }⟩,
      ⟨4, 0, { eventType := .succeeded, taskId := ⟨9, by decide⟩, timestamp := 1,
               hostname := some "celery@a" }⟩]
    workerRows := [
      ⟨1, 0, { eventType := .heartbeat, hostname := "celery@a", timestamp := 1 }⟩,
      ⟨2, 0, { eventType := .heartbeat, hostname := "celery@b", timestamp := 1 }⟩,
      ⟨3, 0, { eventType := .heartbeat, hostname := "celery@b", timestamp := 60 * secondUs }⟩] }

/-- Everywhere the first of them is an orphan, and the other two are none. -/
theorem orphan_verdicts_busyEnv :
    (Orphaned busyEnv ⟨7, by decide⟩ ∧ ReportedOrphan busyEnv ⟨7, by decide⟩ ∧
        RetryableOrphan busyEnv ⟨7, by decide⟩) ∧
      (¬ Orphaned busyEnv ⟨8, by decide⟩ ∧ ¬ ReportedOrphan busyEnv ⟨8, by decide⟩ ∧
        ¬ RetryableOrphan busyEnv ⟨8, by decide⟩) ∧
      ¬ Orphaned busyEnv ⟨9, by decide⟩ ∧ ¬ ReportedOrphan busyEnv ⟨9, by decide⟩ ∧
        ¬ RetryableOrphan busyEnv ⟨9, by decide⟩ := by
  have htasks : Apart (·.taskId) (·.timestamp) (busyEnv.taskRows.map (·.val)) := by
    unfold Apart
    decide +kernel
  have hworkers : Apart (·.hostname) (·.timestamp) (busyEnv.workerRows.map (·.val)) := by
    unfold Apart
    decide +kernel
  have hlisted : (listOrphanedTasks busyEnv none).map (·.map (·.id)) =
      .ok [Uuid.str ⟨7, by decide⟩] := by
    decide +kernel
  have hverdict : ∀ id, ListedOrphan busyEnv id ↔ id.str = Uuid.str ⟨7, by decide⟩ := by
    intro id
    unfold ListedOrphan
    cases hentries : listOrphanedTasks busyEnv none with
    | error e =>
      rw [hentries] at hlisted
      cases hlisted
    | ok entries =>
      rw [hentries] at hlisted
      have hids : entries.map (·.id) = [Uuid.str ⟨7, by decide⟩] := Except.ok.inj hlisted
      have hmem : (∃ e ∈ entries, e.id = id.str) ↔ id.str ∈ entries.map (·.id) := by
        simp only [List.mem_map]
      rw [hids, List.mem_singleton] at hmem
      simpa using hmem
  obtain ⟨hreported, hretryable, horphaned⟩ :=
    orphan_verdicts busyEnv ⟨7, by decide⟩ htasks hworkers
  obtain ⟨hreported', hretryable', horphaned'⟩ :=
    orphan_verdicts busyEnv ⟨8, by decide⟩ htasks hworkers
  obtain ⟨hreported'', hretryable'', horphaned''⟩ :=
    orphan_verdicts busyEnv ⟨9, by decide⟩ htasks hworkers
  have hyes : ListedOrphan busyEnv ⟨7, by decide⟩ := (hverdict _).mpr rfl
  have hno : ¬ ListedOrphan busyEnv ⟨8, by decide⟩ :=
    fun h => absurd ((hverdict _).mp h) (by decide)
  have hno' : ¬ ListedOrphan busyEnv ⟨9, by decide⟩ :=
    fun h => absurd ((hverdict _).mp h) (by decide)
  have htimeout : ∃ t, secondsInt busyEnv.settings.workerOfflineTimeoutSeconds = .ok t :=
    ⟨30 * secondUs, by decide⟩
  refine ⟨⟨(horphaned htimeout).mp hyes, hreported.mp hyes, hretryable.mp hyes⟩,
    ⟨mt (horphaned' htimeout).mpr hno, mt hreported'.mpr hno, mt hretryable'.mpr hno⟩,
    mt (horphaned'' htimeout).mpr hno', mt hreported''.mpr hno', mt hretryable''.mpr hno'⟩

end Taskowl
