import Taskowl.SweepAlerts

/-!
# Sweeps by several automations

The engine has one set of hosts already alerted, and every
`check_workers_offline` automation reads and extends it. Its alert goes to the
webhook of the automation that swept first: the others find the host in the
set, and stay silent until it has been seen online.
-/

namespace Taskowl

open Lib Py

/-- A `check_workers_offline` action of an automation, with a webhook of its own. -/
structure Sweeper where
  automationId : Nat
  action : Dict
  url : String
  webhook : action.get "webhook_url" = .str url
  nonempty : url ≠ ""

def Down (env : Env) (hostname : String) : Prop :=
  hostname ∈ hostnames env.workerRows ∧ workerStale env.workerRows hostname env.now
    (env.settings.workerOfflineTimeoutSeconds * secondUs) = true

/-- The process, with a ghost: which automation has alerted about which host since the host was
last seen online. -/
structure Sweeps where
  world : World := {}
  alerted : List (Nat × String) := []

inductive SweepsOp where
  | sweep (env : Env) (a : Sweeper)
  | markOnline (hostname : String)

namespace Sweeps

def sweepWorld (s : Sweeps) (env : Env) (a : Sweeper) : World :=
  (fireCheckWorkersOffline env a.action s.world).1

def newlyAlerted (s : Sweeps) (env : Env) (a : Sweeper) : List String :=
  (s.sweepWorld env a).offlineNotified.filter fun h => decide (h ∉ s.world.offlineNotified)

def step (s : Sweeps) : SweepsOp → Sweeps
  | .sweep env a =>
    ⟨s.sweepWorld env a, s.alerted ++ (s.newlyAlerted env a).map fun h => (a.automationId, h)⟩
  | .markOnline hostname =>
    ⟨s.world.markOnline hostname, s.alerted.filter fun sent => sent.2 != hostname⟩

/-- A sweep sends its automation's webhook one alert about each host that is down and about which
the automation has not alerted, and no other message. -/
def AlertsOnce (s : Sweeps) : SweepsOp → Prop
  | .sweep env a =>
    (s.sweepWorld env a).effects = s.world.effects ++ (s.newlyAlerted env a).map
        (fun h => .post (.str a.url) (buildWorkerOfflinePayload env.lib h)) ∧
      (s.newlyAlerted env a).Nodup ∧
      ∀ h, h ∈ s.newlyAlerted env a ↔ Down env h ∧ (a.automationId, h) ∉ s.alerted
  | .markOnline _ => True

/-- Nobody else has alerted about a host that the sweep should alert about, and the timeout is a
timedelta if there is such a host. -/
def Unshared (s : Sweeps) : SweepsOp → Prop
  | .sweep env a => ∀ h, Down env h → (a.automationId, h) ∉ s.alerted →
    (∀ id, (id, h) ∉ s.alerted) ∧
      ∃ timeout, secondsInt env.settings.workerOfflineTimeoutSeconds = .ok timeout
  | .markOnline _ => True

/-- The set has the hosts that some automation has alerted about. -/
def Remembers (s : Sweeps) : Prop :=
  ∀ h, h ∈ s.world.offlineNotified ↔ ∃ id, (id, h) ∈ s.alerted

section Steps

variable {s : Sweeps} {env : Env} {a : Sweeper} {timeout : Int}

theorem nodup_hostnames (env : Env) : (hostnames env.workerRows).Nodup := List.nodup_dedup _

/-- What a sweep does: it alerts about the stale hosts that the set lacks. -/
theorem sweepWorld_ok (h : secondsInt env.settings.workerOfflineTimeoutSeconds = .ok timeout) :
    s.sweepWorld env a =
      (sweepWorkers env (.str a.url) timeout (hostnames env.workerRows) s.world).1 := by
  unfold sweepWorld
  rw [fireCheckWorkersOffline_eq a.webhook a.nonempty, h]

theorem sweepWorld_error {e : PyErr}
    (h : secondsInt env.settings.workerOfflineTimeoutSeconds = .error e) :
    s.sweepWorld env a = s.world := by
  unfold sweepWorld
  rw [fireCheckWorkersOffline_eq a.webhook a.nonempty, h]

theorem newlyAlerted_ok (h : secondsInt env.settings.workerOfflineTimeoutSeconds = .ok timeout) :
    s.newlyAlerted env a =
      staleHosts env.workerRows env.now timeout s.world.offlineNotified
        (hostnames env.workerRows) := by
  unfold newlyAlerted
  rw [sweepWorld_ok h, sweepWorkers_eq (nodup_hostnames env)]
  dsimp only
  rw [List.filter_append, List.filter_eq_nil_iff.mpr, List.nil_append, List.filter_eq_self.mpr]
  · intro g hg
    exact decide_eq_true (mem_staleHosts.mp hg).2.1
  · intro g hg
    simpa using hg

theorem newlyAlerted_error {e : PyErr}
    (h : secondsInt env.settings.workerOfflineTimeoutSeconds = .error e) :
    s.newlyAlerted env a = [] := by
  unfold newlyAlerted
  rw [sweepWorld_error h, List.filter_eq_nil_iff]
  intro g hg
  simpa using hg

theorem mem_newlyAlerted (h : secondsInt env.settings.workerOfflineTimeoutSeconds = .ok timeout)
    {g : String} : g ∈ s.newlyAlerted env a ↔ Down env g ∧ g ∉ s.world.offlineNotified := by
  rw [newlyAlerted_ok h, mem_staleHosts, secondsInt_eq h]
  unfold Down
  rw [and_assoc, and_comm (a := g ∉ _)]

theorem mem_offlineNotified_sweep {g : String} : g ∈ (s.sweepWorld env a).offlineNotified ↔
    g ∈ s.world.offlineNotified ∨ g ∈ s.newlyAlerted env a := by
  cases h : secondsInt env.settings.workerOfflineTimeoutSeconds with
  | error e =>
    rw [sweepWorld_error h, newlyAlerted_error h]
    simp
  | ok timeout =>
    rw [newlyAlerted_ok h, sweepWorld_ok h, sweepWorkers_eq (nodup_hostnames env)]
    exact List.mem_append

theorem Remembers.step (hs : s.Remembers) (op : SweepsOp) : (s.step op).Remembers := by
  intro g
  cases op with
  | sweep env a =>
    show g ∈ (s.sweepWorld env a).offlineNotified ↔
      ∃ id, (id, g) ∈ s.alerted ++ (s.newlyAlerted env a).map fun h => (a.automationId, h)
    rw [mem_offlineNotified_sweep, hs g]
    simp only [List.mem_append, List.mem_map, Prod.mk.injEq, exists_or]
    refine or_congr_right ⟨fun hg => ⟨_, g, hg, rfl, rfl⟩, ?_⟩
    rintro ⟨_, _, hg, -, rfl⟩
    exact hg
  | markOnline hostname =>
    show g ∈ (s.world.markOnline hostname).offlineNotified ↔
      ∃ id, (id, g) ∈ s.alerted.filter fun sent => sent.2 != hostname
    rw [World.mem_markOnline, hs g]
    simp

/-- A sweep alerts as it should exactly when it does not share the host with another. -/
theorem alertsOnce_iff (hs : s.Remembers) (op : SweepsOp) : s.AlertsOnce op ↔ s.Unshared op := by
  cases op with
  | markOnline hostname => exact Iff.rfl
  | sweep env a =>
    show (_ ∧ _ ∧ ∀ h, h ∈ s.newlyAlerted env a ↔ Down env h ∧ (a.automationId, h) ∉ s.alerted) ↔
      ∀ h, Down env h → (a.automationId, h) ∉ s.alerted → (∀ id, (id, h) ∉ s.alerted) ∧ _
    cases ht : secondsInt env.settings.workerOfflineTimeoutSeconds with
    | error e =>
      rw [newlyAlerted_error ht, sweepWorld_error ht]
      constructor
      · rintro ⟨-, -, hnone⟩ h hdown hnew
        exact absurd ((hnone h).mpr ⟨hdown, hnew⟩) List.not_mem_nil
      · intro hshared
        refine ⟨(List.append_nil _).symm, .nil, fun h => ⟨fun hh => absurd hh List.not_mem_nil, ?_⟩⟩
        rintro ⟨hdown, hnew⟩
        obtain ⟨-, timeout, ⟨⟩⟩ := hshared h hdown hnew
    | ok timeout =>
      constructor
      · rintro ⟨-, -, hexact⟩ h hdown hnew
        have hadded := (mem_newlyAlerted ht).mp ((hexact h).mpr ⟨hdown, hnew⟩)
        exact ⟨fun id hid => hadded.2 ((hs h).mpr ⟨id, hid⟩), timeout, rfl⟩
      · intro hshared
        refine ⟨?_, ?_, fun h => ?_⟩
        · rw [newlyAlerted_ok ht, sweepWorld_ok ht, sweepWorkers_eq (nodup_hostnames env)]
        · rw [newlyAlerted_ok ht]
          exact (nodup_hostnames env).filter _
        · rw [mem_newlyAlerted ht, hs h]
          refine and_congr_right fun hdown => ⟨fun hnew hold => hnew ⟨_, hold⟩, ?_⟩
          rintro hnew ⟨id, hid⟩
          exact (hshared h hdown hnew).1 id hid

end Steps

/-- Along a run every sweep alerts as it should exactly where no automation has taken the alert of
another. -/
theorem sweeps_alert_iff (ops : List SweepsOp) :
    Along step AlertsOnce {} ops ↔ Along step Unshared {} ops :=
  along_congr (I := Remembers) (fun _ op hs => hs.step op) (fun _ op hs => alertsOnce_iff hs op) ops
    (by simp [Remembers])

/-! ## A pass as a run of sweeps -/

/-- An automation whose one action is a sweep. -/
structure SweepAutomation where
  row : Row Automation
  sweeper : Sweeper
  id : sweeper.automationId = row.id
  actions : row.val.actions.read = .arr [.obj sweeper.action]
  type : sweeper.action.get "type" = .str "check_workers_offline"

theorem world_evaluateDue (env : Env) (a : Row Automation) (s : Session) :
    (evaluateDue env a s).1.world = s.world ∨
      (evaluateDue env a s).1.world = (dispatchActions env a.val [] s.world).1 := by
  obtain hleft | heval := evaluateDue_cases env a s
  · exact .inl (congrArg Session.world hleft)
  rw [heval]
  unfold evaluateAutomation
  rcases decision env [] a s.runs.rows with e | ⟨_ | reason | _⟩
  · exact .inl rfl
  · exact .inl rfl
  · exact .inl rfl
  · refine .inr ?_
    dsimp only
    rcases dispatchActions env a.val [] s.world with ⟨w, e | fired⟩ <;> rfl

/-- `_evaluate_periodic` over such automations is a run of the sweeps of those it fires. -/
theorem exists_sweeps_of_pass (env : Env) (as : List SweepAutomation) (session : Session)
    (s : Sweeps) (hs : s.world = session.world) :
    ∃ fired : List SweepAutomation, fired.Sublist as ∧
      (forEach (evaluateDue env) (as.map (·.row)) session).1.world =
        (run step s (fired.map fun a => .sweep env a.sweeper)).world := by
  induction as generalizing session s with
  | nil => exact ⟨[], .slnil, hs.symm⟩
  | cons a as ih =>
    have hone := world_evaluateDue env a.row session
    rw [dispatch_checkWorkers a.actions a.type, ← hs] at hone
    rw [List.map_cons]
    unfold forEach
    revert hone
    rcases evaluateDue env a.row session with ⟨session', _ | e⟩ <;> dsimp only <;> intro hone
    · rcases hone with hkeep | hsweep
      · obtain ⟨fired, hsub, hw⟩ := ih session' s hkeep.symm
        exact ⟨fired, hsub.cons a, hw⟩
      · obtain ⟨fired, hsub, hw⟩ := ih session' (s.step (.sweep env a.sweeper)) hsweep.symm
        exact ⟨a :: fired, hsub.cons_cons a, hw⟩
    · rcases hone with hkeep | hsweep
      · exact ⟨[], List.nil_sublist _, hkeep⟩
      · exact ⟨[a], List.singleton_sublist.mpr List.mem_cons_self, hsweep⟩

/-! ## Two webhooks -/

def sweeperFor (id : Nat) (url : String) (h : url ≠ "") : Sweeper where
  automationId := id
  action := [("type", .str "check_workers_offline"), ("webhook_url", .str url)]
  url := url
  webhook := rfl
  nonempty := h

def oneOffline : Env :=
  { Env.idle 0 with
    workerRows := [⟨1, 0, { eventType := .offline, hostname := "w1", timestamp := 0 }⟩] }

theorem down_oneOffline : Down oneOffline "w1" := by
  unfold Down
  decide

/-- The second of two automations does not alert about it. -/
theorem sweeps_share_alerts :
    ¬ Along step AlertsOnce {} [.sweep oneOffline (sweeperFor 1 "https://hooks/ops" (by decide)),
      .sweep oneOffline (sweeperFor 2 "https://hooks/oncall" (by decide))] := by
  rintro ⟨⟨-, -, hfirst⟩, ⟨-, -, hsecond⟩, -⟩
  have hknown := (hfirst "w1").mpr ⟨down_oneOffline, List.not_mem_nil⟩
  have hadded := (hsecond "w1").mpr ⟨down_oneOffline, by simp [step, sweeperFor]⟩
  have hnew := of_decide_eq_true (List.mem_filter.mp hadded).2
  exact hnew (mem_offlineNotified_sweep.mpr (.inr hknown))

end Sweeps

end Taskowl
