import Taskowl.Alerts

/-!
# Alerts of a sweep

Both loops over the hosts seen alert the stale ones their set does not hold;
the notifier leaves out the empty name.
-/

namespace Taskowl

open Lib Py

/-- The stale hosts among some, unless already known. -/
def staleHosts (rows : List (Row WorkerEvent)) (now timeout : Int) (known hosts : List String) :
    List String :=
  hosts.filter fun h => decide (h ∉ known) && workerStale rows h now timeout

section Sweeps

variable {rows : List (Row WorkerEvent)} {now timeout : Int} {known hosts : List String}
  {h : String}

theorem mem_staleHosts : h ∈ staleHosts rows now timeout known hosts ↔
    h ∈ hosts ∧ h ∉ known ∧ workerStale rows h now timeout = true := by
  simp [staleHosts]

theorem staleHosts_snoc (hh : h ∉ hosts) : staleHosts rows now timeout (known ++ [h]) hosts =
    staleHosts rows now timeout known hosts := by
  apply List.filter_congr
  intro g hg
  have hne : g ≠ h := fun heq => hh (heq ▸ hg)
  simp [hne]

/-- The engine alerts the stale hosts it does not know. -/
theorem sweepWorkers_eq {env : Env} {url : Json} (hnodup : hosts.Nodup) (w : World) :
    (sweepWorkers env url timeout hosts w).1 =
      ⟨w.effects ++ (staleHosts env.workerRows env.now timeout w.offlineNotified hosts).map
          fun h => .post url (buildWorkerOfflinePayload env.lib h),
        w.offlineNotified ++
          staleHosts env.workerRows env.now timeout w.offlineNotified hosts⟩ := by
  induction hosts generalizing w with
  | nil => simp [sweepWorkers, staleHosts]
  | cons h hs ih =>
    obtain ⟨hh, hnd⟩ := List.nodup_cons.mp hnodup
    unfold sweepWorkers
    by_cases hk : h ∈ w.offlineNotified
    · rw [if_pos hk, ih hnd w]
      simp [staleHosts, hk]
    · rw [if_neg hk]
      cases hs' : workerStale env.workerRows h env.now timeout with
      | false =>
        rw [if_neg Bool.false_ne_true, ih hnd w]
        simp [staleHosts, hs']
      | true =>
        rw [if_pos rfl]
        dsimp only
        rw [ih hnd]
        simp only [World.effects_send, World.offlineNotified_send, staleHosts_snoc hh]
        simp [staleHosts, hk, hs']

/-- The notifier alerts the stale hosts it does not know, of some name. -/
theorem AlertNotifier.sweepHosts_eq {lib : PyLib} (hnodup : hosts.Nodup) (n : AlertNotifier) :
    AlertNotifier.sweepHosts lib rows now timeout hosts n =
      let found := (staleHosts rows now timeout n.offlineNotified hosts).filter (· != "")
      ({ n with offlineNotified := n.offlineNotified ++ found },
        found.map fun h => n.post (buildWorkerOfflinePayload lib h)) := by
  induction hosts generalizing n with
  | nil => simp [AlertNotifier.sweepHosts, staleHosts]
  | cons h hs ih =>
    obtain ⟨hh, hnd⟩ := List.nodup_cons.mp hnodup
    unfold AlertNotifier.sweepHosts
    by_cases hk : h ∈ n.offlineNotified
    · rw [if_pos hk, ih hnd n]
      simp [staleHosts, hk]
    · rw [if_neg hk]
      cases hs' : workerStale rows h now timeout with
      | false =>
        rw [if_neg Bool.false_ne_true, ih hnd n]
        simp [staleHosts, hs']
      | true =>
        rw [if_pos rfl]
        by_cases hne : h = ""
        · subst hne
          rw [AlertNotifier.alertWorkerOffline_empty]
          dsimp only
          rw [ih hnd n]
          simp [staleHosts, hk, hs']
        · rw [AlertNotifier.alertWorkerOffline_eq hne, if_neg hk]
          dsimp only
          rw [ih hnd]
          simp only [staleHosts_snoc hh]
          simp [staleHosts, hk, hs', hne, AlertNotifier.post]

end Sweeps

section Tick

variable {settings : Settings} {url : String} {env : Env} {seededAt : Int}

theorem fireCheckWorkersOffline_eq {action : Dict}
    (hwebhook : action.get "webhook_url" = .str url) (hurl : url ≠ "") (w : World) :
    (fireCheckWorkersOffline env action w).1 =
      match secondsInt env.settings.workerOfflineTimeoutSeconds with
      | .error _ => w
      | .ok timeout => (sweepWorkers env (.str url) timeout (hostnames env.workerRows) w).1 := by
  have hto : webhookUrl env action = .str url := by
    rw [webhookUrl, hwebhook, or_of_truthy (truthy_str hurl)]
  unfold fireCheckWorkersOffline
  rw [hto]
  dsimp only
  rw [truthy_str hurl]
  cases secondsInt env.settings.workerOfflineTimeoutSeconds <;> rfl

theorem dispatch_checkWorkers {a : Automation} {action : Dict}
    (ha : a.actions.read = .arr [.obj action])
    (htype : action.get "type" = .str "check_workers_offline") (w : World) :
    (dispatchActions env a [] w).1 = (fireCheckWorkersOffline env action w).1 := by
  unfold dispatchActions
  rw [ha]
  show (dispatchList env a [] [.obj action] w []).1 = _
  unfold dispatchList
  dsimp only
  rw [htype]
  unfold fireAction
  rcases fireCheckWorkersOffline env action w with ⟨w', e | result⟩ <;> rfl

theorem dispatch_sweep {checkSeconds : Int} (hurl : url ≠ "") (w : World) :
    (dispatchActions env ((alertWorkerOfflineSweep url checkSeconds).automation seededAt) [] w).1 =
      match secondsInt env.settings.workerOfflineTimeoutSeconds with
      | .error _ => w
      | .ok timeout => (sweepWorkers env (.str url) timeout (hostnames env.workerRows) w).1 :=
  (dispatch_checkWorkers rfl rfl w).trans (fireCheckWorkersOffline_eq rfl hurl w)

theorem evaluateDue_of_isDue {a : Row Automation} {s : Session}
    (h : isDue env a s.runs.rows = true) :
    evaluateDue env a s = evaluateAutomation env "periodic" [] a s := by
  unfold isDue at h
  unfold evaluateDue
  cases hs : scheduleOf a.val with
  | none => rw [hs] at h; cases h
  | some schedule =>
    rw [hs] at h
    dsimp only at h ⊢
    cases hl : lastRunTime a.id s.runs.rows with
    | none => rfl
    | some last =>
      rw [hl] at h
      dsimp only at h ⊢
      rw [eq_of_beq h]

/-- A due tick sweeps the workers if the settings ask for it. -/
theorem world_tick (ha : Alerting settings url) {s : System}
    (ht : s.db.automations.vals = (seedDefinitions settings).map (·.automation seededAt))
    (scan : Scan) (hdue : ∀ a ∈ s.db.automations.rows, matchesPeriodic a = true →
      isDue env a s.db.runs.rows = true) :
    (s.tick env scan).world =
      if settings.alertOnWorkerOffline then
        match secondsInt env.settings.workerOfflineTimeoutSeconds with
        | .error _ => s.world
        | .ok timeout => (sweepWorkers (env.reading scan s.db) (.str url) timeout
            (hostnames (scan.order s.db.workerEvents.rows)) s.world).1
      else s.world := by
  have hfilter := ha.definitions_periodic seededAt
  rw [← ht] at hfilter
  show (evaluatePeriodic (env.reading scan s.db) (scan.order s.db.automations.rows) s.db.runs
    s.world).world = _
  unfold evaluatePeriodic
  rw [Pass.world_finish]
  cases hflag : settings.alertOnWorkerOffline with
  | false =>
    rw [hflag] at hfilter
    obtain ⟨o, ho, hv⟩ := scan_filter (scan.perm s.db.automations.rows) (v := none) hfilter
    rw [Option.map_eq_none_iff] at hv
    have hmatch : (scan.order s.db.automations.rows).filter matchesPeriodic = o.toList := ho
    rw [hmatch, world_forEach_toList, hv]
    rfl
  | true =>
    rw [hflag] at hfilter
    obtain ⟨o, ho, hv⟩ := scan_filter (scan.perm s.db.automations.rows) (v := some _) hfilter
    obtain ⟨r, rfl, hr⟩ := Option.map_eq_some_iff.mp hv
    have hmatch : (scan.order s.db.automations.rows).filter matchesPeriodic = (some r).toList := ho
    have hmem : r ∈ (scan.order s.db.automations.rows).filter matchesPeriodic := by
      rw [hmatch]
      exact List.mem_singleton_self r
    obtain ⟨hrow, hperiodic⟩ := List.mem_filter.mp hmem
    have hready : isDue (env.reading scan s.db) r s.db.runs.rows = true :=
      hdue r ((scan.perm _).mem_iff.mp hrow) hperiodic
    have hpassed : conditionsPassed (env.reading scan s.db).lib [] r.val = .ok true := by
      rw [hr]
      rfl
    rw [hmatch, world_forEach_toList]
    dsimp only
    rw [evaluateDue_of_isDue hready, world_evaluateAutomation hr hpassed, if_pos rfl, hr,
      dispatch_sweep ha.set]
    rfl

end Tick

end Taskowl
