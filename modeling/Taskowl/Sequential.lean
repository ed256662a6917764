import Mathlib.Algebra.Order.Floor.Semiring
import Mathlib.Data.Rat.Floor
import Taskowl.Firing
import Taskowl.Lib.Spacing

/-!
# Limits over a sequential run

Passes that follow one another, each seeing what those before it committed. A
dispatch finds the cooldown of every earlier one over and fewer than
`failure_threshold` runs in the window that ends with it, so any two are the
cooldown apart and no window of that length holds more. What the limits count
besides dispatches can only hold an automation back. A threshold that is no
integer is reached by the integer above it.
-/

namespace Taskowl

open Lib Py

def firedTimes (id : Nat) (runs : Runs) : List Int :=
  (runs.filter fun r => r.val.automationId == id && r.val.fired).map (·.createdAt)

def PassInput.scan : PassInput → List (Row Automation)
  | .event _ _ _ scan => scan
  | .periodic _ scan => scan

def Fixed (a : Row Automation) (p : PassInput) : Prop := ∀ b ∈ p.scan, b.id = a.id → b = a

/-- The cooldown and the breaker have kept the dispatches apart. -/
structure LimitsKept (a : Automation) (fired : List Int) : Prop where
  cooldown : ∀ cooldown, a.cooldownSeconds = some cooldown → Spaced (cooldown * secondUs) fired
  /-- A window that is no timedelta lets nothing through. -/
  measured : ∀ threshold window, breakerKnobs a = some (threshold, window) → fired ≠ [] →
    ∃ delta, seconds window = .ok delta
  breaker : ∀ threshold window delta q, breakerKnobs a = some (threshold, window) →
    seconds window = .ok delta → threshold.num? = some (.fin q) → Capped ⌈q⌉₊ delta fired

theorem limitsKept_nil (a : Automation) : LimitsKept a [] where
  cooldown _ _ := spaced_nil _
  measured _ _ _ h := absurd rfl h
  breaker _ _ _ _ _ _ _ := capped_nil _ _

/-! ## A dispatch -/

section Dispatch

variable {id : Nat} {runs : Runs}

theorem firedRow_of_fired {r : Row AutomationRun} (hid : r.val.automationId = id)
    (h : r.val.fired = true) : firedRow id r = true := by
  unfold AutomationRun.fired at h
  unfold firedRow
  rw [hid, beq_self_eq_true, Bool.true_and]
  cases hcell : r.val.actionsFired with
  | sqlNull => rw [hcell] at h; cases h
  | json v => rfl

theorem mem_firedTimes {t : Int} (h : t ∈ firedTimes id runs) :
    ∃ r ∈ runs, firedRow id r = true ∧ r.createdAt = t := by
  obtain ⟨r, hr, rfl⟩ := List.mem_map.mp h
  obtain ⟨hr, hown⟩ := List.mem_filter.mp hr
  rw [Bool.and_eq_true, beq_iff_eq] at hown
  exact ⟨r, hr, firedRow_of_fired hown.1 hown.2, rfl⟩

theorem countP_firedTimes_le (id : Nat) (since : Int) (runs : Runs) :
    (firedTimes id runs).countP (fun t => decide (since ≤ t)) ≤ countFiredSince id since runs := by
  unfold firedTimes countFiredSince
  rw [List.countP_map, List.countP_filter]
  refine List.countP_mono_left fun r _ h => ?_
  simp only [Function.comp_apply, Bool.and_eq_true, beq_iff_eq] at h
  obtain ⟨hsince, hid, hfired⟩ := h
  rw [firedRow_of_fired hid hfired, Bool.true_and]
  exact hsince

variable {a : Row Automation} {now : Int}

/-- The breaker lets a dispatch through when its window holds fewer runs than the threshold. -/
theorem lt_of_checkCircuitBreaker {threshold window : Json}
    (h : checkCircuitBreaker a now runs = .ok none)
    (hk : breakerKnobs a.val = some (threshold, window)) :
    ∃ delta, seconds window = .ok delta ∧ ∀ q, threshold.num? = some (.fin q) →
      countFiredSince a.id (now - delta) runs < ⌈q⌉₊ := by
  rw [checkCircuitBreaker_eq hk] at h
  unfold windowStart subDelta at h
  cases hd : seconds window with
  | error e => rw [hd] at h; cases h
  | ok delta =>
    refine ⟨delta, rfl, fun q hq => ?_⟩
    rw [hd] at h
    dsimp only at h
    split at h
    · cases h
    · next since hs =>
      split at hs
      · cases hs
        rw [Json.compare_ge_fin hq] at h
        rw [Nat.lt_ceil]
        by_contra hle
        rw [not_lt] at hle
        rw [decide_eq_true (by exact_mod_cast hle)] at h
        cases h
      · cases hs

/-- The cooldown lets a dispatch through when that of every earlier one is over. -/
theorem le_of_coolingDown {cooldown : Int} (h : coolingDown a now runs = .ok false)
    (hc : a.val.cooldownSeconds = some cooldown) {r : Row AutomationRun} (hr : r ∈ runs)
    (hown : firedRow a.id r = true) : r.createdAt + cooldown * secondUs ≤ now := by
  unfold coolingDown at h
  rw [hc] at h
  cases hl : lastFireTime a.id runs with
  | none =>
    have := latest_eq_none.mp hl r hr
    rw [hown] at this
    cases this
  | some last =>
    rw [hl] at h
    have hle := (latest_eq_some.mp hl).2 r hr hown
    have hover := le_of_within h
    omega

theorem skipReason_none (h : skipReason a now runs = .ok none) :
    checkCircuitBreaker a now runs = .ok none ∧ coolingDown a now runs = .ok false := by
  unfold skipReason checkRateLimits at h
  cases hb : checkCircuitBreaker a now runs with
  | error e => rw [hb] at h; cases h
  | ok reason =>
    rw [hb] at h
    cases reason with
    | some reason => cases h
    | none =>
      cases hc : coolingDown a now runs with
      | error e => rw [hc] at h; cases h
      | ok cooling =>
        cases cooling with
        | true => rw [hc] at h; cases h
        | false => exact ⟨rfl, rfl⟩

/-- A dispatch keeps the limits. -/
theorem LimitsKept.dispatch (hkept : LimitsKept a.val (firedTimes a.id runs))
    (h : skipReason a now runs = .ok none) :
    LimitsKept a.val (firedTimes a.id runs ++ [now]) := by
  obtain ⟨hbreaker, hcooling⟩ := skipReason_none h
  constructor
  · intro cooldown hc
    refine (hkept.cooldown cooldown hc).snoc fun t ht => ?_
    obtain ⟨r, hr, hown, rfl⟩ := mem_firedTimes ht
    exact le_of_coolingDown hcooling hc hr hown
  · intro threshold window hk _
    obtain ⟨delta, hd, -⟩ := lt_of_checkCircuitBreaker hbreaker hk
    exact ⟨delta, hd⟩
  · intro threshold window delta q hk hd hq
    refine (hkept.breaker threshold window delta q hk hd hq).snoc ?_
    obtain ⟨delta', hd', hlt⟩ := lt_of_checkCircuitBreaker hbreaker hk
    rw [hd] at hd'
    cases hd'
    exact (countP_firedTimes_le ..).trans_lt (hlt q hq)

end Dispatch

/-! ## A pass -/

section Passes

variable {a b : Row Automation} {now : Int} {env : Env} {event : Dict} {runs : Runs}
  {passed : Bool}

/-- Only an automation that no limit holds back is dispatched. -/
theorem skipReason_of_records (h : outcome env event b runs = .records true passed) :
    skipReason b env.now runs = .ok none := by
  unfold outcome decision at h
  cases hc : conditionsPassed env.lib event b.val with
  | error e => rw [hc] at h; cases h
  | ok ok =>
    rw [hc] at h
    cases ok with
    | false => cases h
    | true =>
      dsimp only at h
      cases hs : skipReason b env.now runs with
      | error e => rw [hs] at h; cases h
      | ok reason =>
        cases reason with
        | none => rfl
        | some reason => rw [hs] at h; cases h

theorem skipReason_of_dueRecords (h : dueOutcome env b runs = .records true passed) :
    skipReason b env.now runs = .ok none := by
  unfold dueOutcome at h
  cases hs : scheduleOf b.val with
  | none => rw [hs] at h; cases h
  | some schedule =>
    rw [hs] at h
    dsimp only at h
    cases hl : lastRunTime b.id runs with
    | none => rw [hl] at h; exact skipReason_of_records h
    | some last =>
      rw [hl] at h
      dsimp only at h
      cases hw : within schedule last env.now with
      | error e => rw [hw] at h; cases h
      | ok early =>
        rw [hw] at h
        cases early with
        | true => cases h
        | false => exact skipReason_of_records h

theorem firedTimes_snoc (id : Nat) (runs : Runs) (r : Row AutomationRun) :
    firedTimes id (runs ++ [r]) = firedTimes id runs ++
      if r.val.automationId = id ∧ r.val.fired = true then [r.createdAt] else [] := by
  unfold firedTimes
  rw [List.filter_append, List.map_append]
  by_cases h : r.val.automationId = id ∧ r.val.fired = true
  · rw [if_pos h, List.filter_cons_of_pos (by simp [h.1, h.2])]
    rfl
  · rw [if_neg h, List.filter_cons_of_neg]
    · rfl
    · simpa using h

theorem limitsKept_body {body : Row Automation → Session → Session × Option PyErr}
    {verdict : Row Automation → Runs → Outcome} (hb : Performs now body verdict)
    (hv : ∀ b runs p, verdict b runs = .records true p → skipReason b now runs = .ok none)
    (hfixed : b.id = a.id → b = a) (s : Session)
    (h : LimitsKept a.val (firedTimes a.id s.runs.rows)) :
    LimitsKept a.val (firedTimes a.id (body b s).1.runs.rows) := by
  have hstep := hb.step b s
  cases hverdict : verdict b s.runs.rows with
  | raises d => rw [hverdict] at hstep; rw [hstep.2.1]; exact h
  | idle => rw [hverdict] at hstep; rw [hstep]; exact h
  | records d p =>
    rw [hverdict] at hstep
    obtain ⟨-, -, run, hruns, hrun⟩ := hstep
    rw [hruns, Table.rows_insert, firedTimes_snoc]
    split
    · next hown =>
      have hba : b = a := hfixed (hrun.automationId ▸ hown.1)
      have hd : d = true := hrun.fired ▸ hown.2
      subst hba hd
      exact h.dispatch (hv _ _ _ hverdict)
    · rw [List.append_nil]
      exact h

theorem limitsKept_step (s : Engine) (p : PassInput) (hfixed : Fixed a p)
    (h : LimitsKept a.val (firedTimes a.id s.runs.rows)) :
    LimitsKept a.val (firedTimes a.id (s.step p).runs.rows) := by
  have hfinish : ∀ r : Session × Option PyErr,
      LimitsKept a.val (firedTimes a.id r.1.runs.rows) →
      LimitsKept a.val (firedTimes a.id (Pass.finish s.runs r).runs.rows) := by
    intro r hr
    rw [Pass.runs_finish]
    split
    · exact h
    · exact hr
  cases p with
  | event env eventType event scan =>
    refine hfinish _ (forEach_invariant
      (I := fun s : Session => LimitsKept a.val (firedTimes a.id s.runs.rows)) ?_ h)
    exact fun b hb => limitsKept_body (performs_evaluateAutomation eventType event)
      (fun _ _ _ => skipReason_of_records) (hfixed b (List.mem_of_mem_filter hb))
  | periodic env scan =>
    refine hfinish _ (forEach_invariant
      (I := fun s : Session => LimitsKept a.val (firedTimes a.id s.runs.rows)) ?_ h)
    exact fun b hb => limitsKept_body performs_evaluateDue
      (fun _ _ _ => skipReason_of_dueRecords) (hfixed b (List.mem_of_mem_filter hb))

end Passes

/-! ## Windows of any length -/

theorem le_roundHalfEven {n : Int} {q : Rat} (h : n ≤ q) : n ≤ roundHalfEven q := by
  have hfloor : n ≤ q.floor := Rat.le_floor_iff.mpr h
  unfold roundHalfEven
  dsimp only
  split
  · exact hfloor
  · split
    · omega
    · split <;> omega

theorem le_seconds {window : Json} {w : Rat} {delta n : Int} (hw : window.num? = some (.fin w))
    (hd : seconds window = .ok delta) (hn : (n : Rat) ≤ w * secondUs) : n ≤ delta := by
  cases window with
  | int i =>
    cases hw
    rw [mkTimedelta_eq hd]
    exact_mod_cast hn
  | bool b =>
    cases hw
    rw [mkTimedelta_eq hd]
    cases b <;> exact_mod_cast hn
  | float f =>
    cases hw
    rw [mkTimedelta_eq hd]
    exact le_roundHalfEven hn
  | _ => cases hw

theorem countP_interval_le {n : Nat} {delta : Int} {ts : List Int} (h : Capped n delta ts)
    {x y : Rat} (hlen : ∀ k : Int, (k : Rat) ≤ y - x → k ≤ delta) :
    ts.countP (fun t : Int => decide (x ≤ t ∧ t ≤ y)) ≤ n := by
  refine le_trans (List.countP_mono_left fun t _ ht => ?_) (h ⌈x⌉)
  rw [decide_eq_true_eq] at ht ⊢
  refine ⟨Int.ceil_le.mpr ht.1, ?_⟩
  have hk := hlen (t - ⌈x⌉) (by
    push_cast
    have := Int.le_ceil x
    linarith [ht.2])
  omega

theorem breakerKnobs_of_obj {a : Automation} {config : Dict} {q w : Rat}
    (hconfig : a.circuitBreaker.read = .obj config)
    (hq : (config.get "failure_threshold").num? = some (.fin q)) (hq0 : 0 < q)
    (hw : (config.get "window_seconds").num? = some (.fin w)) (hw0 : 0 < w) :
    breakerKnobs a = some (config.get "failure_threshold", config.get "window_seconds") := by
  have htruthy : ∀ {v : Json} {q : Rat}, v.num? = some (.fin q) → 0 < q → v.truthy = true := by
    intro v q hv hpos
    cases v with
    | bool b => cases hv; cases b with
      | true => rfl
      | false => exact absurd hpos (by decide)
    | int i =>
      cases hv
      have hi : i ≠ 0 := by
        rintro rfl
        exact absurd hpos (by decide)
      simpa [Json.truthy] using hi
    | float f => cases hv; simpa [Json.truthy] using hpos.ne'
    | _ => cases hv
  have hne : config ≠ [] := by
    rintro rfl
    cases hq
  have hobj : (Json.obj config).truthy = true := by simpa [Json.truthy] using hne
  unfold breakerKnobs
  rw [hconfig]
  simp only [hobj, Bool.not_true, Bool.false_eq_true, if_false]
  show (if !(config.get "failure_threshold").truthy || !(config.get "window_seconds").truthy then
    none else some (config.get "failure_threshold", config.get "window_seconds")) = _
  rw [htruthy hq hq0, htruthy hw hw0]
  rfl

/-- In every sequential run, any two dispatches of an automation are its cooldown apart, and every
closed interval no longer than the breaker's window holds at most its threshold, rounded up. -/
theorem limits_bound (a : Row Automation) (start : Engine) (passes : List PassInput)
    (hnew : ownRuns a.id start.runs.rows = []) (hfixed : ∀ p ∈ passes, Fixed a p) :
    let fired := firedTimes a.id (run Engine.step start passes).runs.rows
    (∀ cooldown, a.val.cooldownSeconds = some cooldown → Spaced (cooldown * secondUs) fired) ∧
      ∀ (config : Dict) (q w : Rat), a.val.circuitBreaker.read = .obj config →
        (config.get "failure_threshold").num? = some (.fin q) → 0 < q →
        (config.get "window_seconds").num? = some (.fin w) → 0 < w →
        ∀ x y : Rat, y - x ≤ w * secondUs →
          fired.countP (fun t : Int => decide (x ≤ t ∧ t ≤ y)) ≤ ⌈q⌉₊ := by
  have hstart : LimitsKept a.val (firedTimes a.id start.runs.rows) := by
    have hnil : firedTimes a.id start.runs.rows = [] := by
      unfold firedTimes
      rw [List.map_eq_nil_iff, ← List.filter_filter]
      have hown : start.runs.rows.filter (fun r => r.val.automationId == a.id) = [] := hnew
      rw [List.filter_comm, hown]
      rfl
    rw [hnil]
    exact limitsKept_nil a.val
  have hkept := (along_of_forall hfixed).invariant
    (I := fun s : Engine => LimitsKept a.val (firedTimes a.id s.runs.rows))
    (fun s p hp hs => limitsKept_step s p hp hs) hstart
  refine ⟨hkept.cooldown, fun config q w hconfig hq hq0 hw hw0 x y hlen => ?_⟩
  have hknobs := breakerKnobs_of_obj hconfig hq hq0 hw hw0
  by_cases hnil : firedTimes a.id (run Engine.step start passes).runs.rows = []
  · rw [hnil]
    exact Nat.zero_le _
  · obtain ⟨delta, hd⟩ := hkept.measured _ _ hknobs hnil
    exact countP_interval_le (hkept.breaker _ _ delta q hknobs hd hq) fun k hk =>
      le_seconds hw hd (hk.trans hlen)

/-- An event automation made by `create_automation`, with a breaker. -/
def withBreaker (threshold : Json) : Table Automation :=
  (createAutomation 0 [("name", .str "log-failures"), ("trigger_type", .str "event"),
    ("event_type", .str "task-failed"), ("actions", .arr [.obj [("type", .str "log")]]),
    ("cooldown_seconds", .int 10), ("circuit_breaker",
      .obj [("failure_threshold", threshold), ("window_seconds", .int 60)])] .empty).1.automations

/-- Half a run a minute lets one run through. -/
theorem limits_exceed : ¬ (((firedTimes 1 (history {} [.event (.idle 0) "task-failed" []
    (withBreaker (.float (.fin (1 / 2)))).rows]).rows).countP
      fun t => decide (0 ≤ t ∧ t ≤ 60 * secondUs) : Nat) : Rat) ≤ 1 / 2 := by
  have hone : (firedTimes 1 (history {} [.event (.idle 0) "task-failed" []
    (withBreaker (.float (.fin (1 / 2)))).rows]).rows).countP
      (fun t => decide (0 ≤ t ∧ t ≤ 60 * secondUs)) = 1 := by decide +kernel
  rw [hone]
  norm_num

/-- Four failures in a minute: the second finds the cooldown, the fourth the breaker. -/
theorem limits_bound_withBreaker :
    Spaced (10 * secondUs) (firedTimes 1 (history {} ([0, 5, 15, 30].map fun t =>
      .event (.idle (t * secondUs)) "task-failed" [] (withBreaker (.int 3)).rows)).rows) := by
  obtain ⟨a, ha, hid, hcooldown⟩ : ∃ a ∈ (withBreaker (.int 3)).rows, a.id = 1 ∧
      a.val.cooldownSeconds = some 10 := by decide
  have hbound := (limits_bound a ⟨.empty, {}⟩ ([0, 5, 15, 30].map fun t =>
    .event (.idle (t * secondUs)) "task-failed" [] (withBreaker (.int 3)).rows) rfl ?_).1 10
    hcooldown
  · rw [hid] at hbound
    exact hbound
  · intro p hp b hb hbid
    obtain ⟨t, -, rfl⟩ := List.mem_map.mp hp
    exact Table.eq_of_id_eq _ hb ha hbid

end Taskowl
