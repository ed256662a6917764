import Taskowl.Alerts

/-!
# Alerts on events

What the settings ask to alert on an event, that the engine sends it from the
seeded table, and that the notifier sends it too unless a worker went offline.
-/

namespace Taskowl

open Lib Py

/-! ## What an event asks for -/

def alertWanted (settings : Settings) (type : String) (event : Dict) : Bool :=
  if type = "task-failed" then settings.alertOnTaskFailed
  else if type = "task-succeeded" then
    settings.alertSlowTaskSeconds.any (AlertNotifier.slow (event.get "runtime"))
  else if type = "worker-offline" then settings.alertOnWorkerOffline
  else false

def subjectOn (type : String) (event : Dict) : Subject :=
  if type = "worker-offline" then .worker (event.get "hostname") else .task (event.get "uuid")

structure Named (type : String) (event : Dict) : Prop where
  task : type = "task-failed" ∨ type = "task-succeeded" →
    ∃ s, event.get "uuid" = .str s ∧ s ≠ ""
  worker : SeenOnline type ∨ type = "worker-offline" → ∃ s, event.get "hostname" = .str s

theorem named_of_stored {s : System} {env : Env} {event : Dict} {type : String} {db : Db}
    (h : s.stored env event = some (type, db)) : Named type event := by
  obtain ⟨hd, hh, hrun⟩ := System.stored_eq_some h
  have hh := handlers_of_handlerOf hh
  constructor
  · rintro (rfl | rfl)
    · cases hh; exact uuid_of_stored "task-failed" rfl hrun
    · cases hh; exact uuid_of_stored "task-succeeded" rfl hrun
  · rintro ((rfl | rfl) | rfl)
    · cases hh; exact hostname_of_stored "worker-online" rfl hrun
    · cases hh; exact hostname_of_stored "worker-heartbeat" rfl hrun
    · cases hh; exact hostname_of_stored "worker-offline" rfl hrun

section Engine

variable {settings : Settings} {url type : String} {d : Definition} {env : Env} {event : Dict}

theorem evaluateCondition_runtime (threshold : PyFloat) :
    evaluateCondition env.lib event (.obj [("field", .str "runtime"), ("op", .str "gt"),
      ("value", .float threshold)]) = .ok (AlertNotifier.slow (event.get "runtime") threshold) := by
  show safeOrder .gt (event.get "runtime") (.float threshold) = _
  generalize event.get "runtime" = runtime
  cases runtime <;> rfl

theorem alertOn_cases (h : alertOn settings url type = some d) :
    (type = "task-failed" ∧ settings.alertOnTaskFailed = true ∧ d = alertTaskFailed url) ∨
    (type = "task-succeeded" ∧ ∃ threshold, settings.alertSlowTaskSeconds = some threshold ∧
      d = alertSlowTask url threshold) ∨
    (type = "worker-offline" ∧ settings.alertOnWorkerOffline = true ∧
      d = alertWorkerOffline url) := by
  unfold alertOn at h
  split at h
  · next ht =>
    split at h
    · next hf => cases h; exact .inl ⟨ht, hf, rfl⟩
    · cases h
  · split at h
    · next ht =>
      obtain ⟨threshold, hs, rfl⟩ := Option.map_eq_some_iff.mp h
      exact .inr (.inl ⟨ht, threshold, hs, rfl⟩)
    · split at h
      · next ht =>
        split at h
        · next hf => cases h; exact .inr (.inr ⟨ht, hf, rfl⟩)
        · cases h
      · cases h

theorem conditionsPassed_alertOn (h : alertOn settings url type = some d) (t : Int) :
    conditionsPassed env.lib event (d.automation t) = .ok (alertWanted settings type event) := by
  obtain ⟨rfl, hf, rfl⟩ | ⟨rfl, threshold, hs, rfl⟩ | ⟨rfl, hf, rfl⟩ := alertOn_cases h
  · exact congrArg Except.ok hf.symm
  · unfold alertWanted
    rw [if_neg (by decide), if_pos rfl, hs]
    show allConditions env.lib event [.obj [("field", .str "runtime"), ("op", .str "gt"),
      ("value", .float threshold)]] = _
    unfold allConditions
    rw [evaluateCondition_runtime]
    show _ = Except.ok (AlertNotifier.slow (event.get "runtime") threshold)
    cases AlertNotifier.slow (event.get "runtime") threshold <;> rfl
  · exact congrArg Except.ok hf.symm

theorem alertWanted_of_alertOn_none (h : alertOn settings url type = none) :
    alertWanted settings type event = false := by
  unfold alertOn at h
  unfold alertWanted
  by_cases hf : type = "task-failed"
  · rw [if_pos hf] at h ⊢
    simpa using h
  · rw [if_neg hf] at h ⊢
    by_cases hs : type = "task-succeeded"
    · rw [if_pos hs] at h ⊢
      rw [Option.map_eq_none_iff.mp h]
      rfl
    · rw [if_neg hs] at h ⊢
      simpa using h

theorem dispatch_alertOn (env : Env) (h : alertOn settings url type = some d) (hurl : url ≠ "")
    (hn : Named type event) (t : Int) : ∃ e, subjectOf e = some (subjectOn type event) ∧
      ∀ w, (dispatchActions env (d.automation t) event w).1 = w.send e := by
  obtain ⟨rfl, -, rfl⟩ | ⟨rfl, threshold, -, rfl⟩ | ⟨rfl, -, rfl⟩ := alertOn_cases h
  · obtain ⟨s, hs, -⟩ := hn.task (.inl rfl)
    refine ⟨_, ?_, dispatch_slack rfl hurl (by decide)⟩
    show some (Subject.task (.str (interpolateStr env.lib event "\x7bevent.uuid\x7d"))) =
      some (.task (event.get "uuid"))
    rw [interpolateStr_uuid hs, hs]
  · obtain ⟨s, hs, -⟩ := hn.task (.inr rfl)
    refine ⟨_, ?_, dispatch_slack rfl hurl (by decide)⟩
    show some (Subject.task (.str (interpolateStr env.lib event "\x7bevent.uuid\x7d"))) =
      some (.task (event.get "uuid"))
    rw [interpolateStr_uuid hs, hs]
  · obtain ⟨s, hs⟩ := hn.worker (.inr rfl)
    refine ⟨_, ?_, dispatch_slack rfl hurl (by decide)⟩
    show some (Subject.worker (.str (interpolateStr env.lib event "\x7bevent.hostname\x7d"))) =
      some (.worker (event.get "hostname"))
    rw [interpolateStr_hostname hs, hs]

/-- Evaluating an event on a seeded table sends the alert the settings ask for. -/
theorem world_evaluateEvent (env : Env) (ha : Alerting settings url) {t : Table Automation}
    {seededAt : Int} (ht : t.vals = (seedDefinitions settings).map (·.automation seededAt))
    (scan : Scan) (hn : Named type event) (runs : Table AutomationRun) (w : World) :
    ∃ new, (evaluateEvent env type event (scan.order t.rows) runs w).world =
        { w with effects := w.effects ++ new } ∧
      new.map subjectOf =
        if alertWanted settings type event then [some (subjectOn type event)] else [] := by
  obtain ⟨o, ho, hv⟩ := scan_filter (scan.perm t.rows)
    (p := fun a => a.enabled && a.triggerType == "event" && a.eventType == some type)
    (by rw [ht]; exact ha.definitions_filter seededAt type)
  have hmatch : (scan.order t.rows).filter (matchesEvent type) = o.toList := ho
  unfold evaluateEvent
  rw [Pass.world_finish, hmatch, world_forEach_toList]
  cases hd : alertOn settings url type with
  | none =>
    rw [hd, Option.map_none, Option.map_eq_none_iff] at hv
    subst hv
    refine ⟨[], ?_, ?_⟩
    · rw [List.append_nil]
    · rw [alertWanted_of_alertOn_none hd]
      rfl
  | some d =>
    rw [hd, Option.map_some] at hv
    obtain ⟨r, rfl, hr⟩ := Option.map_eq_some_iff.mp hv
    have hc : conditionsPassed env.lib event r.val = .ok (alertWanted settings type event) := by
      rw [hr]
      exact conditionsPassed_alertOn hd seededAt
    dsimp only
    rw [world_evaluateAutomation hr hc]
    cases alertWanted settings type event with
    | false => exact ⟨[], by rw [List.append_nil]; rfl, rfl⟩
    | true =>
      obtain ⟨e, he, hsend⟩ := dispatch_alertOn env hd ha.set hn seededAt
      refine ⟨[e], ?_, ?_⟩
      · rw [if_pos rfl, hr, hsend]
        rfl
      · rw [if_pos rfl]
        exact congrArg (fun s => [s]) he

end Engine

/-! ## The notifier -/

section Notifier

variable {lib : PyLib} {settings : Settings} {n : AlertNotifier} {url type : String} {event : Dict}

theorem AlertNotifier.enabled_of_webhook (hw : n.webhookUrl = some url) (hurl : url ≠ "") :
    n.enabled = true := by
  unfold AlertNotifier.enabled strTruthy
  rw [hw]
  simpa using hurl

theorem AlertNotifier.notifyEvent_offline (hn : n.enabled = true) {h : String}
    (hh : event.get "hostname" = .str h) :
    n.notifyEvent lib settings "worker-offline" event =
      if settings.alertOnWorkerOffline then n.alertWorkerOffline lib (some h) else (n, []) := by
  unfold AlertNotifier.notifyEvent
  rw [hn, hh]
  cases settings.alertOnWorkerOffline <;> cases settings.alertSlowTaskSeconds <;> rfl

theorem AlertNotifier.notifyEvent_task (lib : PyLib) (settings : Settings)
    (hn : n.enabled = true) (htype : type ≠ "worker-offline") (hnamed : Named type event) :
    ∃ sent, n.notifyEvent lib settings type event = (n, sent) ∧
      sent.map subjectOf =
        if alertWanted settings type event then [some (subjectOn type event)] else [] := by
  unfold AlertNotifier.notifyEvent alertWanted subjectOn
  rw [hn, if_neg htype]
  by_cases hf : type = "task-failed"
  · subst hf
    obtain ⟨s, hs, hne⟩ := hnamed.task (.inl rfl)
    cases settings.alertOnTaskFailed with
    | false => exact ⟨[], by cases settings.alertSlowTaskSeconds <;> rfl, rfl⟩
    | true =>
      refine ⟨[n.post (buildTaskFailedPayload lib event)], rfl, ?_⟩
      show [subjectOf _] = [some (Subject.task (event.get "uuid"))]
      rw [AlertNotifier.post, subjectOf_taskFailed hs hne, hs]
  · by_cases ht : type = "task-succeeded"
    · subst ht
      obtain ⟨s, hs, hne⟩ := hnamed.task (.inr rfl)
      cases settings.alertSlowTaskSeconds with
      | none => exact ⟨[], rfl, rfl⟩
      | some threshold =>
        cases hslow : AlertNotifier.slow (event.get "runtime") threshold with
        | false =>
          refine ⟨[], ?_, ?_⟩
          · simp [hslow]
          · simp [hslow]
        | true =>
          refine ⟨[n.post (buildSlowTaskPayload lib event)], ?_, ?_⟩
          · simp [hslow]
          · simp [hslow, AlertNotifier.post, subjectOf_slowTask hs hne, hs]
    · refine ⟨[], ?_, ?_⟩
      · simp [hf, ht, htype]
      · simp [hf, ht]

end Notifier

end Taskowl
