import Taskowl.EventAlerts
import Taskowl.SweepAlerts

/-!
# The seeded alerts replicate the legacy alerter

A simulation between the process and the notifier. The notifier knows the
hosts the engine knows and those that `worker-offline` events named; where
that difference is looked at, the two part.
-/

namespace Taskowl

open Lib Py

/-! ## The simulation -/

/-- The notifier knows the hosts the engine knows and the hosts named since; no host is both. -/
structure Remembers (notified named known : List String) : Prop where
  union : ∀ h, h ∈ known ↔ h ∈ notified ∨ h ∈ named
  apart : ∀ h ∈ notified, h ∉ named
  nonempty : "" ∉ known

namespace Remembers

variable {notified named known notified' named' known' : List String} {h : String}

theorem nil : Remembers [] [] [] := by constructor <;> simp

theorem forget (hr : Remembers notified named known)
    (hn : ∀ g, g ∈ notified' ↔ g ∈ notified ∧ g ≠ h) (hm : ∀ g, g ∈ named' ↔ g ∈ named ∧ g ≠ h)
    (hk : ∀ g, g ∈ known' ↔ g ∈ known ∧ g ≠ h) : Remembers notified' named' known' where
  union g := by rw [hk, hn, hm, hr.union]; tauto
  apart g hg hg' := hr.apart g ((hn g).mp hg).1 ((hm g).mp hg').1
  nonempty hg := hr.nonempty ((hk "").mp hg).1

theorem name (hr : Remembers notified named known) (hne : h ≠ "") (hn : h ∉ notified) :
    Remembers notified (named ++ [h]) (known ++ [h]) where
  union g := by simp [hr.union, or_assoc]
  apart g hg hg' := by
    rcases List.mem_append.mp hg' with hg' | hg'
    · exact hr.apart g hg hg'
    · rw [List.mem_singleton] at hg'
      exact hn (hg' ▸ hg)
  nonempty hg := by
    rcases List.mem_append.mp hg with hg | hg
    · exact hr.nonempty hg
    · exact hne (List.mem_singleton.mp hg).symm

theorem sweep (hr : Remembers notified named known) {found : List String}
    (hf : ∀ g ∈ found, g ≠ "" ∧ g ∉ named) :
    Remembers (notified ++ found) named (known ++ found) where
  union g := by simp only [List.mem_append, hr.union]; tauto
  apart g hg := by
    rcases List.mem_append.mp hg with hg | hg
    · exact hr.apart g hg
    · exact (hf g hg).2
  nonempty hg := by
    rcases List.mem_append.mp hg with hg | hg
    · exact hr.nonempty hg
    · exact (hf "" hg).1 rfl

end Remembers

/-- The table is the seeded one, both use its URL, and remember hosts alike. -/
structure Sim (settings : Settings) (url : String) (seededAt : Int) (w : Watch) : Prop where
  table : w.engine.db.automations.vals = (seedDefinitions settings).map (·.automation seededAt)
  webhook : w.legacy.webhookUrl = some url
  remembers : settings.alertOnWorkerOffline = true →
    Remembers w.engine.world.offlineNotified w.named w.legacy.offlineNotified

theorem markOnlineOf_other {type : String} (h : ¬ SeenOnline type) (event : Dict) (w : World) :
    markOnlineOf type event w = w := if_neg h

theorem mem_markOnlineOf {type : String} (h : SeenOnline type) {event : Dict} {host : String}
    (hh : event.get "hostname" = .str host) {w : World} (hne : "" ∉ w.offlineNotified)
    (g : String) : g ∈ (markOnlineOf type event w).offlineNotified ↔
      g ∈ w.offlineNotified ∧ g ≠ host := by
  unfold markOnlineOf
  rw [if_pos (show type = "worker-online" ∨ type = "worker-heartbeat" from h), hh]
  by_cases he : host = ""
  · subst he
    exact ⟨fun hg => ⟨hg, fun heq => hne (heq ▸ hg)⟩, And.left⟩
  · split
    · next heq => cases heq; exact absurd rfl he
    · next heq => cases heq; exact World.mem_markOnline
    · next hs => exact absurd rfl (hs host)

section Steps

variable {settings : Settings} {url : String} {seededAt : Int} {w : Watch} {env : Env} {scan : Scan}
  {event : Dict} {type : String} {db : Db}

theorem handle_of_not_stored {s : System} (h : s.stored env event = none) :
    (s.handle env scan event).system = s := by
  unfold System.stored at h
  unfold System.handle
  cases hh : handlerOf event with
  | none => rfl
  | some p =>
    obtain ⟨type, hd⟩ := p
    rw [hh] at h
    dsimp only at h ⊢
    cases hrun : hd.run env.lib env.now event s.db with
    | error e => rfl
    | ok db =>
      rw [hrun] at h
      cases h

theorem legacyStep_of_not_stored (h : w.engine.stored env event = none) :
    w.legacyStep (.event env scan event) = (w.legacy, []) := by
  unfold Watch.legacyStep
  dsimp only
  rw [h]

theorem legacyStep_of_stored (h : w.engine.stored env event = some (type, db)) :
    w.legacyStep (.event env scan event) =
      w.legacy.receive env.lib env.settings type event := by
  unfold Watch.legacyStep
  dsimp only
  rw [h]

theorem namedStep_of_not_stored (h : w.engine.stored env event = none) :
    w.namedStep (.event env scan event) = w.named := by
  unfold Watch.namedStep
  dsimp only
  rw [h]

theorem namedStep_of_stored (h : w.engine.stored env event = some (type, db)) :
    w.namedStep (.event env scan event) = namedAfter w.named type event := by
  unfold Watch.namedStep
  dsimp only
  rw [h]

theorem engine_event (scan : Scan) (ha : Alerting settings url) (hsim : Sim settings url seededAt w)
    (hst : w.engine.stored env event = some (type, db)) :
    ∃ new, (w.engineStep (.event env scan event)).world =
        ⟨w.engine.world.effects ++ new,
          (markOnlineOf type event w.engine.world).offlineNotified⟩ ∧
      (w.engineStep (.event env scan event)).db.automations = w.engine.db.automations ∧
      new.map subjectOf =
        if alertWanted settings type event then [some (subjectOn type event)] else [] := by
  obtain ⟨hd, hh, hrun⟩ := System.stored_eq_some hst
  have hdb := Handler.automations_run hrun
  have htable : db.automations.vals = (seedDefinitions settings).map (·.automation seededAt) := by
    rw [hdb]
    exact hsim.table
  obtain ⟨new, hworld, hsub⟩ := world_evaluateEvent (env.reading scan db) ha htable scan
    (named_of_stored hst) db.runs (markOnlineOf type event w.engine.world)
  refine ⟨new, ?_, ?_, hsub⟩
  · show (w.engine.handle env scan event).system.world = _
    rw [System.handle_eq hh hrun]
    refine hworld.trans ?_
    rw [effects_markOnlineOf]
  · show (w.engine.handle env scan event).system.db.automations = _
    rw [System.handle_eq hh hrun]
    exact hdb

theorem engineAlerts_of_effects {op : WatchOp} {new : List Effect}
    (h : (w.engineStep op).world.effects = w.engine.world.effects ++ new) :
    w.engineAlerts op = new := by
  unfold Watch.engineAlerts
  rw [h, List.drop_left]

theorem legacy_other (scan : Scan) (ha : Alerting settings url) (hsim : Sim settings url seededAt w)
    (hset : env.settings = settings) (hst : w.engine.stored env event = some (type, db))
    (htype : type ≠ "worker-offline") :
    (w.legacyStep (.event env scan event)).2.map subjectOf =
        (if alertWanted settings type event then [some (subjectOn type event)] else []) ∧
      (w.legacyStep (.event env scan event)).1 =
        if SeenOnline type then
          match AlertNotifier.textOf (event.get "hostname") with
          | some h => w.legacy.markOnline h
          | none => w.legacy
        else w.legacy := by
  rw [legacyStep_of_stored hst, hset]
  unfold AlertNotifier.receive
  dsimp only
  generalize hn : (if SeenOnline type then
      match AlertNotifier.textOf (event.get "hostname") with
      | some h => w.legacy.markOnline h
      | none => w.legacy
    else w.legacy) = n
  have hweb : n.webhookUrl = some url := by
    rw [← hn]
    split
    · split
      · exact hsim.webhook
      · exact hsim.webhook
    · exact hsim.webhook
  obtain ⟨sent, hsent, hsub⟩ := AlertNotifier.notifyEvent_task env.lib settings
    (AlertNotifier.enabled_of_webhook hweb ha.set) htype (named_of_stored hst)
  rw [hsent]
  exact ⟨hsub, rfl⟩

theorem legacy_offline (ha : Alerting settings url) (hsim : Sim settings url seededAt w)
    (hset : env.settings = settings)
    (hst : w.engine.stored env event = some ("worker-offline", db)) {h : String}
    (hh : event.get "hostname" = .str h) :
    w.legacyStep (.event env scan event) =
      if settings.alertOnWorkerOffline then w.legacy.alertWorkerOffline env.lib (some h)
      else (w.legacy, []) := by
  rw [legacyStep_of_stored hst, hset]
  exact AlertNotifier.notifyEvent_offline
    (AlertNotifier.enabled_of_webhook hsim.webhook ha.set) hh

theorem agree_offline_iff (ha : Alerting settings url) (hsim : Sim settings url seededAt w)
    (hset : env.settings = settings)
    (hst : w.engine.stored env event = some ("worker-offline", db)) :
    w.AlertsAgree (.event env scan event) ↔ w.Undoubled (.event env scan event) := by
  obtain ⟨h, hh⟩ := (named_of_stored hst).worker (.inr rfl)
  obtain ⟨new, hworld, -, hsub⟩ := engine_event scan ha hsim hst
  have hnew : w.engineAlerts (.event env scan event) = new :=
    engineAlerts_of_effects (congrArg World.effects hworld)
  unfold Watch.AlertsAgree Watch.Undoubled
  rw [hnew, hsub, legacy_offline ha hsim hset hst hh]
  show _ ↔ (env.settings.alertOnWorkerOffline = true → _)
  rw [hset]
  have hwanted : alertWanted settings "worker-offline" event = settings.alertOnWorkerOffline := rfl
  rw [hwanted]
  cases hflag : settings.alertOnWorkerOffline with
  | false => exact ⟨fun _ h => absurd h Bool.false_ne_true, fun _ => rfl⟩
  | true =>
    have hrem := hsim.remembers hflag
    have hfresh : (∀ db h, w.engine.stored env event = some ("worker-offline", db) →
        event.get "hostname" = .str h →
        h ≠ "" ∧ h ∉ w.engine.world.offlineNotified ∧ h ∉ w.named) ↔
        h ≠ "" ∧ h ∉ w.legacy.offlineNotified := by
      rw [hrem.union]
      constructor
      · intro hall
        obtain ⟨hne, hn, hm⟩ := hall db h hst hh
        exact ⟨hne, fun ho => ho.elim hn hm⟩
      · rintro ⟨hne, hk⟩ db' h' - hh'
        rw [hh] at hh'
        cases hh'
        exact ⟨hne, fun hn => hk (.inl hn), fun hm => hk (.inr hm)⟩
    simp only [forall_const, if_true]
    rw [hfresh]
    by_cases hne : h = ""
    · subst hne
      rw [AlertNotifier.alertWorkerOffline_empty]
      exact ⟨fun h => absurd h (List.cons_ne_nil _ _), fun h => absurd rfl h.1⟩
    · rw [AlertNotifier.alertWorkerOffline_eq hne]
      by_cases hk : h ∈ w.legacy.offlineNotified
      · rw [if_pos hk]
        exact ⟨fun h => absurd h (List.cons_ne_nil _ _), fun h => absurd hk h.2⟩
      · rw [if_neg hk]
        refine ⟨fun _ => ⟨hne, hk⟩, fun _ => ?_⟩
        show [some (Subject.worker (event.get "hostname"))] = [subjectOf _]
        rw [AlertNotifier.post, subjectOf_workerOffline hne, hh]

theorem agree_event_iff (ha : Alerting settings url) (hsim : Sim settings url seededAt w)
    (hset : env.settings = settings) :
    w.AlertsAgree (.event env scan event) ↔ w.Undoubled (.event env scan event) := by
  cases hst : w.engine.stored env event with
  | none =>
    have hengine : w.engineAlerts (.event env scan event) = [] := by
      apply engineAlerts_of_effects
      show (w.engine.handle env scan event).system.world.effects = _
      rw [handle_of_not_stored hst, List.append_nil]
    unfold Watch.AlertsAgree
    rw [hengine, legacyStep_of_not_stored hst]
    refine ⟨fun _ _ db h hst' => ?_, fun _ => rfl⟩
    rw [hst] at hst'
    cases hst'
  | some p =>
    obtain ⟨type, db⟩ := p
    by_cases htype : type = "worker-offline"
    · subst htype
      exact agree_offline_iff ha hsim hset hst
    · obtain ⟨new, hworld, -, hsub⟩ := engine_event scan ha hsim hst
      unfold Watch.AlertsAgree
      rw [engineAlerts_of_effects (congrArg World.effects hworld), hsub,
        (legacy_other scan ha hsim hset hst htype).1]
      refine ⟨fun _ _ db' h hst' => ?_, fun _ => rfl⟩
      rw [hst] at hst'
      cases hst'
      exact absurd rfl htype

theorem sim_event (ha : Alerting settings url) (hsim : Sim settings url seededAt w)
    (hset : env.settings = settings) (hu : w.Undoubled (.event env scan event)) :
    Sim settings url seededAt (w.step (.event env scan event)) := by
  cases hst : w.engine.stored env event with
  | none =>
    have hengine : w.engineStep (.event env scan event) = w.engine := handle_of_not_stored hst
    unfold Watch.step
    rw [hengine, legacyStep_of_not_stored hst, namedStep_of_not_stored hst]
    exact ⟨hsim.table, hsim.webhook, hsim.remembers⟩
  | some p =>
    obtain ⟨type, db⟩ := p
    obtain ⟨new, hworld, hdb, -⟩ := engine_event scan ha hsim hst
    have htable : (w.engineStep (.event env scan event)).db.automations.vals =
        (seedDefinitions settings).map (·.automation seededAt) := by
      rw [hdb]
      exact hsim.table
    have hnotified : (w.engineStep (.event env scan event)).world.offlineNotified =
        (markOnlineOf type event w.engine.world).offlineNotified := by
      rw [hworld]
    unfold Watch.step
    rw [namedStep_of_stored hst]
    by_cases htype : type = "worker-offline"
    · subst htype
      obtain ⟨h, hh⟩ := (named_of_stored hst).worker (.inr rfl)
      have hother : ¬ SeenOnline "worker-offline" := by decide
      have hnamed : namedAfter w.named "worker-offline" event = w.named ++ [h] := by
        unfold namedAfter
        rw [hh]
        rfl
      rw [legacy_offline ha hsim hset hst hh, hnamed]
      rw [markOnlineOf_other hother] at hnotified
      cases hflag : settings.alertOnWorkerOffline with
      | false => exact ⟨htable, hsim.webhook, fun h => absurd (hflag ▸ h) Bool.false_ne_true⟩
      | true =>
        have hrem := hsim.remembers hflag
        obtain ⟨hne, hn, hm⟩ := hu (hset ▸ hflag) db h hst hh
        have hk : h ∉ w.legacy.offlineNotified := fun hk => ((hrem.union h).mp hk).elim hn hm
        rw [if_pos rfl, AlertNotifier.alertWorkerOffline_eq hne, if_neg hk]
        refine ⟨htable, hsim.webhook, fun _ => ?_⟩
        show Remembers (w.engineStep (.event env scan event)).world.offlineNotified _ _
        rw [hnotified]
        exact hrem.name hne hn
    · have hlegacy := (legacy_other scan ha hsim hset hst htype).2
      rw [hlegacy]
      by_cases hseen : SeenOnline type
      · obtain ⟨h, hh⟩ := (named_of_stored hst).worker (.inl hseen)
        rw [if_pos hseen, hh]
        refine ⟨htable, hsim.webhook, fun hflag => ?_⟩
        have hrem := hsim.remembers hflag
        have hempty : "" ∉ w.engine.world.offlineNotified := fun he =>
          hrem.nonempty ((hrem.union "").mpr (.inl he))
        refine hrem.forget (h := h) ?_ ?_ ?_
        · rw [hnotified]
          exact mem_markOnlineOf hseen hh hempty
        · intro g
          unfold namedAfter
          rw [hh]
          dsimp only
          rw [if_pos hseen]
          simp
        · intro g
          simp [AlertNotifier.textOf, AlertNotifier.markOnline]
      · have hnamed : namedAfter w.named type event = w.named := by
          unfold namedAfter
          split
          · rw [if_neg hseen, if_neg htype]
          · rfl
        rw [markOnlineOf_other hseen] at hnotified
        rw [if_neg hseen, hnamed]
        refine ⟨htable, hsim.webhook, fun hflag => ?_⟩
        show Remembers (w.engineStep (.event env scan event)).world.offlineNotified _ _
        rw [hnotified]
        exact hsim.remembers hflag

/-! ### A sweep -/

theorem engine_sweep (ha : Alerting settings url) (hsim : Sim settings url seededAt w)
    (hflag : settings.alertOnWorkerOffline = true) (hdue : w.Due (.sweep env scan)) {timeout : Int}
    (ht : secondsInt env.settings.workerOfflineTimeoutSeconds = .ok timeout) :
    let rows := scan.order w.engine.db.workerEvents.rows
    let found := staleHosts rows env.now timeout w.engine.world.offlineNotified (hostnames rows)
    (w.engineStep (.sweep env scan)).world =
      ⟨w.engine.world.effects ++
          found.map fun h => .post (.str url) (buildWorkerOfflinePayload env.lib h),
        w.engine.world.offlineNotified ++ found⟩ := by
  show (w.engine.tick env scan).world = _
  rw [world_tick ha hsim.table scan hdue, if_pos hflag, ht]
  exact sweepWorkers_eq (List.nodup_dedup _) _

theorem legacy_sweep (ha : Alerting settings url) (hsim : Sim settings url seededAt w)
    (hset : env.settings = settings) (hflag : settings.alertOnWorkerOffline = true) {timeout : Int}
    (ht : secondsInt env.settings.workerOfflineTimeoutSeconds = .ok timeout) :
    let rows := scan.order w.engine.db.workerEvents.rows
    let found := (staleHosts rows env.now timeout w.legacy.offlineNotified (hostnames rows)).filter
      (· != "")
    w.legacyStep (.sweep env scan) =
      ({ w.legacy with offlineNotified := w.legacy.offlineNotified ++ found },
        found.map fun h => w.legacy.post (buildWorkerOfflinePayload env.lib h)) := by
  unfold Watch.legacyStep AlertNotifier.checkWorkers
  dsimp only
  rw [AlertNotifier.enabled_of_webhook hsim.webhook ha.set, hset, hflag, ← hset, ht]
  exact AlertNotifier.sweepHosts_eq (List.nodup_dedup _) _

/-- A sweep that finds nobody: the alerts are off, or the timeout is no `timedelta`. -/
theorem quiet_sweep (ha : Alerting settings url) (hsim : Sim settings url seededAt w)
    (hset : env.settings = settings) (hdue : w.Due (.sweep env scan))
    (hq : settings.alertOnWorkerOffline = false ∨
      ∃ e, secondsInt env.settings.workerOfflineTimeoutSeconds = .error e) :
    (w.engineStep (.sweep env scan)).world = w.engine.world ∧
      w.legacyStep (.sweep env scan) = (w.legacy, []) := by
  constructor
  · show (w.engine.tick env scan).world = _
    rw [world_tick ha hsim.table scan hdue]
    obtain hflag | ⟨e, he⟩ := hq
    · rw [hflag]
      rfl
    · rw [he]
      exact ite_self _
  · unfold Watch.legacyStep AlertNotifier.checkWorkers
    dsimp only
    rw [AlertNotifier.enabled_of_webhook hsim.webhook ha.set]
    obtain hflag | ⟨e, he⟩ := hq
    · rw [hset, hflag]
      rfl
    · rw [he]
      cases env.settings.alertOnWorkerOffline <;> rfl

/-- With the notifier's memory split, what a sweep must not find. -/
theorem staleHosts_filter_eq_iff {notified named known hosts : List String}
    {rows : List (Row WorkerEvent)} {now timeout : Int}
    (hr : Remembers notified named known) :
    (staleHosts rows now timeout known hosts).filter (· != "") =
        staleHosts rows now timeout notified hosts ↔
      ∀ h ∈ hosts, workerStale rows h now timeout = true → h ≠ "" ∧ h ∉ named := by
  constructor
  · intro heq h hh hstale
    by_cases hn : h ∈ notified
    · exact ⟨fun he => hr.nonempty ((hr.union "").mpr (.inl (he ▸ hn))), hr.apart h hn⟩
    · have hmem : h ∈ staleHosts rows now timeout notified hosts :=
        mem_staleHosts.mpr ⟨hh, hn, hstale⟩
      rw [← heq, List.mem_filter, mem_staleHosts] at hmem
      exact ⟨by simpa using hmem.2, fun hm => hmem.1.2.1 ((hr.union h).mpr (.inr hm))⟩
  · intro hall
    unfold staleHosts
    rw [List.filter_filter]
    apply List.filter_congr
    intro h hh
    cases hstale : workerStale rows h now timeout with
    | false => simp
    | true =>
      obtain ⟨hne, hm⟩ := hall h hh hstale
      simp [hne, hr.union, hm]

theorem staleHosts_filter_sublist {notified named known hosts : List String}
    {rows : List (Row WorkerEvent)} {now timeout : Int} (hr : Remembers notified named known) :
    ((staleHosts rows now timeout known hosts).filter (· != "")).Sublist
      (staleHosts rows now timeout notified hosts) := by
  unfold staleHosts
  rw [List.filter_filter]
  refine List.monotone_filter_right hosts fun h hh => ?_
  simp only [Bool.and_eq_true, decide_eq_true_eq] at hh ⊢
  exact ⟨fun hn => hh.2.1 ((hr.union h).mpr (.inl hn)), hh.2.2⟩

theorem sweep_cases (settings : Settings) (env : Env) :
    (settings.alertOnWorkerOffline = false ∨
      ∃ e, secondsInt env.settings.workerOfflineTimeoutSeconds = .error e) ∨
    (settings.alertOnWorkerOffline = true ∧
      ∃ timeout, secondsInt env.settings.workerOfflineTimeoutSeconds = .ok timeout) := by
  cases settings.alertOnWorkerOffline with
  | false => exact .inl (.inl rfl)
  | true =>
    cases secondsInt env.settings.workerOfflineTimeoutSeconds with
    | error e => exact .inl (.inr ⟨e, rfl⟩)
    | ok timeout => exact .inr ⟨rfl, timeout, rfl⟩

theorem agree_sweep_iff (ha : Alerting settings url) (hsim : Sim settings url seededAt w)
    (hset : env.settings = settings) (hdue : w.Due (.sweep env scan)) :
    w.AlertsAgree (.sweep env scan) ↔ w.Undoubled (.sweep env scan) := by
  unfold Watch.AlertsAgree
  rcases sweep_cases settings env with hq | ⟨hflag, timeout, ht⟩
  · obtain ⟨hengine, hlegacy⟩ := quiet_sweep ha hsim hset hdue hq
    have hnone : w.engineAlerts (.sweep env scan) = [] :=
      engineAlerts_of_effects (by rw [hengine, List.append_nil])
    rw [hnone, hlegacy]
    refine ⟨fun _ hon timeout ht => ?_, fun _ => rfl⟩
    obtain hflag | ⟨e, he⟩ := hq
    · change env.settings.alertOnWorkerOffline = true at hon
      rw [hset, hflag] at hon
      cases hon
    · rw [he] at ht
      cases ht
  · have hrem := hsim.remembers hflag
    rw [engineAlerts_of_effects (congrArg World.effects (engine_sweep ha hsim hflag hdue ht)),
      legacy_sweep ha hsim hset hflag ht]
    constructor
    · intro heq hon timeout' ht'
      rw [ht] at ht'
      cases ht'
      apply (staleHosts_filter_eq_iff hrem).mp
      apply (staleHosts_filter_sublist hrem).eq_of_length
      simpa using (congrArg List.length heq).symm
    · intro hu
      have hfound := (staleHosts_filter_eq_iff hrem).mpr (hu (hset ▸ hflag) timeout ht)
      have hpost : ∀ h, w.legacy.post (buildWorkerOfflinePayload env.lib h) =
          .post (.str url) (buildWorkerOfflinePayload env.lib h) := by
        intro h
        unfold AlertNotifier.post
        rw [hsim.webhook]
        rfl
      rw [hfound]
      simp only [hpost]

theorem sim_sweep (ha : Alerting settings url) (hsim : Sim settings url seededAt w)
    (hset : env.settings = settings) (hdue : w.Due (.sweep env scan))
    (hu : w.Undoubled (.sweep env scan)) :
    Sim settings url seededAt (w.step (.sweep env scan)) := by
  unfold Watch.step
  rcases sweep_cases settings env with hq | ⟨hflag, timeout, ht⟩
  · obtain ⟨hengine, hlegacy⟩ := quiet_sweep ha hsim hset hdue hq
    rw [hlegacy]
    refine ⟨hsim.table, hsim.webhook, fun hflag => ?_⟩
    show Remembers (w.engineStep (.sweep env scan)).world.offlineNotified _ _
    rw [hengine]
    exact hsim.remembers hflag
  · have hrem := hsim.remembers hflag
    have hfound := hu (hset ▸ hflag) timeout ht
    rw [legacy_sweep ha hsim hset hflag ht, (staleHosts_filter_eq_iff hrem).mpr hfound]
    refine ⟨hsim.table, hsim.webhook, fun _ => ?_⟩
    show Remembers (w.engineStep (.sweep env scan)).world.offlineNotified _ _
    rw [engine_sweep ha hsim hflag hdue ht]
    refine hrem.sweep fun g hg => ?_
    obtain ⟨hg, -, hstale⟩ := mem_staleHosts.mp hg
    exact hfound g hg hstale

end Steps

/-- A step of a run: a sweep is due, and the settings are those of the seeding. -/
theorem agree_iff {settings : Settings} {url : String} {seededAt : Int} {w : Watch} {op : WatchOp}
    (ha : Alerting settings url) (hsim : Sim settings url seededAt w)
    (hset : op.env.settings = settings) (hdue : w.Due op) : w.AlertsAgree op ↔ w.Undoubled op := by
  cases op with
  | event env scan event => exact agree_event_iff ha hsim hset
  | sweep env scan => exact agree_sweep_iff ha hsim hset hdue

theorem sim_step {settings : Settings} {url : String} {seededAt : Int} {w : Watch} {op : WatchOp}
    (ha : Alerting settings url) (hsim : Sim settings url seededAt w)
    (hset : op.env.settings = settings) (hdue : w.Due op) (hu : w.Undoubled op) :
    Sim settings url seededAt (w.step op) := by
  cases op with
  | event env scan event => exact sim_event ha hsim hset hu
  | sweep env scan => exact sim_sweep ha hsim hset hdue hu

def Watch.start (settings : Settings) (seededAt : Int) (db : Db) : Watch :=
  ⟨⟨(seedBuiltinAutomations settings seededAt db).1, {}⟩, .ofSettings settings, []⟩

/-- The two send the same alerts all along a run exactly if no step doubles an alert. -/
theorem alertsAgree_iff {settings : Settings} {url : String} (ha : Alerting settings url)
    (seededAt : Int) (db : Db) (hempty : db.automations.rows = [])
    (hok : ∃ reply, (seedBuiltinAutomations settings seededAt db).2 = .ok reply)
    (ops : List WatchOp) (hset : ∀ op ∈ ops, op.env.settings = settings)
    (hdue : Along Watch.step Watch.Due (Watch.start settings seededAt db) ops) :
    Along Watch.step Watch.AlertsAgree (Watch.start settings seededAt db) ops ↔
      Along Watch.step Watch.Undoubled (Watch.start settings seededAt db) ops := by
  obtain ⟨reply, hok⟩ := hok
  have hsim : Sim settings url seededAt (Watch.start settings seededAt db) :=
    ⟨ha.seeded hempty hok, ha.webhook, fun _ => .nil⟩
  generalize Watch.start settings seededAt db = w at *
  induction ops generalizing w with
  | nil => exact Iff.rfl
  | cons op ops ih =>
    have hop := hset op List.mem_cons_self
    have hrest := fun op' h => hset op' (List.mem_cons_of_mem op h)
    have hstep := agree_iff ha hsim hop hdue.1
    constructor
    · rintro ⟨hagree, hag⟩
      have hu := hstep.mp hagree
      exact ⟨hu, (ih hrest _ hdue.2 (sim_step ha hsim hop hdue.1 hu)).mp hag⟩
    · rintro ⟨hu, hus⟩
      exact ⟨hstep.mpr hu, (ih hrest _ hdue.2 (sim_step ha hsim hop hdue.1 hu)).mpr hus⟩

/-! ## A worker that goes offline twice -/

def webhookSettings : Settings := { alertWebhookUrl := some "https://hooks.example/alerts" }

def offlineAt (seconds : Int) : WatchOp :=
  .event { Env.idle (seconds * secondUs) with settings := webhookSettings } .byId
    [("type", .str "worker-offline"), ("hostname", .str "celery@a"), ("timestamp", .int seconds)]

/-- The engine alerts both events, the notifier the first. -/
theorem alerts_disagree : ¬ Along Watch.step Watch.AlertsAgree
    (Watch.start webhookSettings 0 .empty) [offlineAt 10, offlineAt 20] := by
  intro h
  have hsecond : ((Watch.start webhookSettings 0 .empty).step (offlineAt 10)).AlertsAgree
    (offlineAt 20) := h.2.1
  unfold Watch.AlertsAgree at hsecond
  revert hsecond
  decide

def sweepAt (seconds : Int) : WatchOp :=
  .sweep { Env.idle (seconds * secondUs) with settings := webhookSettings } .byId

theorem alertsAgree_iff_sweep :
    Along Watch.step Watch.AlertsAgree (Watch.start webhookSettings 0 .empty)
        [offlineAt 10, sweepAt 100] ↔
      Along Watch.step Watch.Undoubled (Watch.start webhookSettings 0 .empty)
        [offlineAt 10, sweepAt 100] := by
  refine alertsAgree_iff ⟨rfl, by decide⟩ 0 .empty rfl ⟨_, rfl⟩ _ ?_ ⟨trivial, ?_, trivial⟩
  · intro op hop
    simp only [List.mem_cons, List.not_mem_nil, or_false] at hop
    rcases hop with rfl | rfl <;> rfl
  · show ∀ a ∈ _, _
    decide

end Taskowl
