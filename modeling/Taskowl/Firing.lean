import Taskowl.Lib.Run
import Taskowl.Outcome

/-!
# What the limits count

A history is the runs table after any passes from an empty table. A run
records a firing when its `actions_fired` reads back as a list. The cells of a
history are never SQL NULL, so `IS NOT NULL` selects every run of an
automation: a limit that should look only at firings looks at every run, and
goes wrong exactly where the other runs tip it.
-/

namespace Taskowl

open Lib Py

/-! ## Histories -/

/-- The runs table and the world, between passes. -/
structure Engine where
  runs : Table AutomationRun
  world : World

/-- A call of `_evaluate_event` or `_evaluate_periodic`, with the rows it loads in scan order. -/
inductive PassInput where
  | event (env : Env) (eventType : String) (event : Dict) (scan : List (Row Automation))
  | periodic (env : Env) (scan : List (Row Automation))

def Engine.pass (s : Engine) : PassInput → Pass
  | .event env eventType event scan => evaluateEvent env eventType event scan s.runs s.world
  | .periodic env scan => evaluatePeriodic env scan s.runs s.world

def Engine.step (s : Engine) (p : PassInput) : Engine := ⟨(s.pass p).runs, (s.pass p).world⟩

def history (w : World) (passes : List PassInput) : Table AutomationRun :=
  (run Engine.step ⟨.empty, w⟩ passes).runs

theorem forEach_invariant {α σ : Type} {body : α → σ → σ × Option PyErr} {I : σ → Prop}
    {as : List α} (hbody : ∀ a ∈ as, ∀ s, I s → I (body a s).1) {s : σ} (h : I s) :
    I (forEach body as s).1 := by
  induction as generalizing s with
  | nil => exact h
  | cons a as ih =>
    have ha : I (body a s).1 := hbody a List.mem_cons_self s h
    have hrest := fun b hb => hbody b (List.mem_cons_of_mem a hb)
    unfold forEach
    split
    · next hb => rw [hb] at ha; exact ha
    · next hb => rw [hb] at ha; exact ih hrest ha

/-- Every run's `actions_fired` was set: to `None` or to a list. -/
def Recorded (t : Table AutomationRun) : Prop :=
  ∀ r ∈ t.rows, ∃ v, r.val.actionsFired = .store v ∧ (v = .null ∨ ∃ l, v = .arr l)

theorem recorded_body {now : Int} {body : Row Automation → Session → Session × Option PyErr}
    {verdict : Row Automation → Runs → Outcome} (hb : Performs now body verdict)
    (a : Row Automation) (s : Session) (h : Recorded s.runs) : Recorded (body a s).1.runs := by
  have hstep := hb.step a s
  cases hv : verdict a s.runs.rows with
  | raises d => rw [hv] at hstep; rw [hstep.2.1]; exact h
  | idle => rw [hv] at hstep; rw [hstep]; exact h
  | records d p =>
    rw [hv] at hstep
    obtain ⟨-, -, run, hruns, hrun⟩ := hstep
    rw [hruns]
    intro r hr
    rcases List.mem_append.mp hr with hr | hr
    · exact h r hr
    · rw [List.mem_singleton] at hr
      subst hr
      exact hrun.cell

theorem recorded_finish {t : Table AutomationRun} (h : Recorded t) {r : Session × Option PyErr}
    (hr : Recorded r.1.runs) : Recorded (Pass.finish t r).runs := by
  rcases r with ⟨s, _ | e⟩
  · exact hr
  · exact h

theorem recorded_step (s : Engine) (p : PassInput) (h : Recorded s.runs) :
    Recorded (s.step p).runs := by
  cases p with
  | event env eventType event scan =>
    exact recorded_finish h (forEach_invariant (I := fun s : Session => Recorded s.runs)
      (fun a _ => recorded_body (performs_evaluateAutomation eventType event) a) h)
  | periodic env scan =>
    exact recorded_finish h (forEach_invariant (I := fun s : Session => Recorded s.runs)
      (fun a _ => recorded_body performs_evaluateDue a) h)

theorem recorded_history (w : World) (passes : List PassInput) : Recorded (history w passes) :=
  run_invariant (I := fun s : Engine => Recorded s.runs) recorded_step passes
    (fun _ hr => absurd hr List.not_mem_nil)

/-! ## All runs, and the firings among them -/

/-- The runs that dispatched actions. -/
def firings (runs : Runs) : Runs := runs.filter (·.val.fired)

def runsSince (id : Nat) (since : Int) (runs : Runs) : Nat :=
  runs.countP fun r => r.val.automationId == id && decide (since ≤ r.createdAt)

def breakerKnobs (a : Automation) : Option (Json × Json) :=
  let config := a.circuitBreaker.read
  if !config.truthy then none
  else match config.getAttr "failure_threshold", config.getAttr "window_seconds" with
    | .ok threshold, .ok window =>
      if !threshold.truthy || !window.truthy then none else some (threshold, window)
    | _, _ => none

def cools (a : Row Automation) (now : Int) (r : Row AutomationRun) : Prop :=
  r.val.automationId = a.id ∧
    ∃ cooldown, a.val.cooldownSeconds = some cooldown ∧ within cooldown r.createdAt now = .ok true

/-- The verdicts are those of the firings alone, and without a firing in its window the breaker
is closed. -/
structure CountsFirings (a : Row Automation) (now : Int) (runs : Runs) : Prop where
  breaker : checkCircuitBreaker a now runs = checkCircuitBreaker a now (firings runs)
  limits : checkRateLimits a now runs = checkRateLimits a now (firings runs)
  closes : ∀ threshold window since, breakerKnobs a.val = some (threshold, window) →
    windowStart window now = .ok since → runsSince a.id since (firings runs) = 0 →
    checkCircuitBreaker a now runs ≠ .ok (some .circuitOpen)

/-- The runs that fired nothing tip no limit. -/
structure OthersTipNothing (a : Row Automation) (now : Int) (runs : Runs) : Prop where
  breaker : ∀ threshold window since, breakerKnobs a.val = some (threshold, window) →
    windowStart window now = .ok since →
    Json.compare .ge (.int (runsSince a.id since runs)) threshold = .ok true →
    0 < runsSince a.id since (firings runs) ∧
      Json.compare .ge (.int (runsSince a.id since (firings runs))) threshold = .ok true
  cooldown : (∃ r ∈ runs, cools a now r) → ∃ r ∈ firings runs, cools a now r
  limit : ∀ maxRuns window since, a.val.maxRunsPerWindow = some maxRuns →
    a.val.windowSeconds = some window → windowStart (.int window) now = .ok since →
    (∀ r ∈ firings runs, ¬ cools a now r) →
    maxRuns ≤ runsSince a.id since runs → maxRuns ≤ runsSince a.id since (firings runs)

section Counting

variable {a : Row Automation} {id : Nat} {since now : Int} {runs : Runs}

def CellsSet (runs : Runs) : Prop := ∀ r ∈ runs, r.val.actionsFired.isnotNone = true

theorem Recorded.cellsSet {t : Table AutomationRun} (h : Recorded t) : CellsSet t.rows := by
  intro r hr
  obtain ⟨v, hv, -⟩ := h r hr
  rw [hv, JsonCell.isnotNone_store]

theorem CellsSet.firings (h : CellsSet runs) : CellsSet (firings runs) :=
  fun r hr => h r (List.mem_of_mem_filter hr)

theorem CellsSet.firedRow (h : CellsSet runs) {r : Row AutomationRun} (hr : r ∈ runs) :
    firedRow id r = (r.val.automationId == id) := by
  rw [Taskowl.firedRow, h r hr, Bool.and_true]

theorem CellsSet.countFiredSince (h : CellsSet runs) :
    countFiredSince id since runs = runsSince id since runs :=
  List.countP_congr fun r hr => by rw [h.firedRow hr]

theorem CellsSet.lastFireTime (h : CellsSet runs) : lastFireTime id runs = lastRunTime id runs := by
  unfold Taskowl.lastFireTime lastRunTime ownRuns
  rw [List.filter_congr fun r hr => h.firedRow hr]

theorem runsSince_firings_le : runsSince id since (firings runs) ≤ runsSince id since runs :=
  List.Sublist.countP_le List.filter_sublist

theorem compare_ge_int (threshold : Json) :
    (∃ e, ∀ n : Int, Json.compare .ge (.int n) threshold = .error e) ∨
      ∃ reached : Int → Bool, (∀ n, Json.compare .ge (.int n) threshold = .ok (reached n)) ∧
        ∀ m n, m ≤ n → reached m = true → reached n = true := by
  cases h : threshold.num? with
  | none =>
    refine .inl ⟨Json.notSupported .ge (.int 0) threshold, fun n => ?_⟩
    rw [Json.compare_int, h]
    rfl
  | some y =>
    refine .inr ⟨fun n => CmpOp.num .ge (.fin n) y, fun n => by rw [Json.compare_int, h],
      fun m n hmn hm => ?_⟩
    have hmn' : (m : Rat) ≤ n := by exact_mod_cast hmn
    cases y with
    | fin q =>
      simp only [CmpOp.num, PyFloat.lt, PyFloat.eq, Bool.or_eq_true, decide_eq_true_eq,
        beq_iff_eq] at hm ⊢
      rcases hm with hm | hm
      · exact .inl (lt_of_lt_of_le hm hmn')
      · rcases lt_or_eq_of_le hmn' with hlt | heq
        · exact .inl (hm ▸ hlt)
        · exact .inr (heq ▸ hm)
    | _ => simp_all [CmpOp.num, PyFloat.lt, PyFloat.eq]

/-! ## The breaker -/

theorem checkCircuitBreaker_unset (h : breakerKnobs a.val = none) (runs' : Runs) :
    checkCircuitBreaker a now runs = checkCircuitBreaker a now runs' ∧
      checkCircuitBreaker a now runs ≠ .ok (some .circuitOpen) := by
  unfold breakerKnobs at h
  unfold checkCircuitBreaker
  simp only at h ⊢
  split
  · exact ⟨rfl, nofun⟩
  · next ht =>
    rw [if_neg ht] at h
    split
    · next hT hW =>
      rw [hT, hW] at h
      simp only at h
      split
      · exact ⟨rfl, nofun⟩
      · next hset => rw [if_neg hset] at h; cases h
    · exact ⟨rfl, nofun⟩
    · exact ⟨rfl, nofun⟩

theorem checkCircuitBreaker_eq {threshold window : Json}
    (h : breakerKnobs a.val = some (threshold, window)) :
    checkCircuitBreaker a now runs = match windowStart window now with
      | .error e => .error e
      | .ok since =>
        match Json.compare .ge (.int (countFiredSince a.id since runs)) threshold with
        | .error e => .error e
        | .ok open_ => .ok (if open_ then some .circuitOpen else none) := by
  unfold breakerKnobs at h
  unfold checkCircuitBreaker countFiredInWindow
  simp only at h ⊢
  split at h
  · cases h
  · next ht =>
    rw [if_neg ht]
    split at h
    · next hT hW =>
      rw [hT, hW]
      simp only
      split at h
      · cases h
      · next hset =>
        cases h
        rw [if_neg hset]
        cases windowStart window now with
        | error e => rfl
        | ok since => rfl
    · cases h

theorem checkCircuitBreaker_set {threshold window : Json}
    (h : breakerKnobs a.val = some (threshold, window)) (hc : CellsSet runs) :
    checkCircuitBreaker a now runs = match windowStart window now with
      | .error e => .error e
      | .ok since => match Json.compare .ge (.int (runsSince a.id since runs)) threshold with
        | .error e => .error e
        | .ok open_ => .ok (if open_ then some .circuitOpen else none) := by
  rw [checkCircuitBreaker_eq h]
  cases windowStart window now with
  | error e => rfl
  | ok since =>
    dsimp only
    rw [hc.countFiredSince]

/-- The breaker looks only at firings exactly when the other runs do not tip it. -/
theorem breaker_counts_iff (hc : CellsSet runs) :
    (checkCircuitBreaker a now runs = checkCircuitBreaker a now (firings runs) ∧
      ∀ threshold window since, breakerKnobs a.val = some (threshold, window) →
        windowStart window now = .ok since → runsSince a.id since (firings runs) = 0 →
        checkCircuitBreaker a now runs ≠ .ok (some .circuitOpen)) ↔
    ∀ threshold window since, breakerKnobs a.val = some (threshold, window) →
      windowStart window now = .ok since →
      Json.compare .ge (.int (runsSince a.id since runs)) threshold = .ok true →
      0 < runsSince a.id since (firings runs) ∧
        Json.compare .ge (.int (runsSince a.id since (firings runs))) threshold = .ok true := by
  cases hk : breakerKnobs a.val with
  | none =>
    obtain ⟨heq, -⟩ := checkCircuitBreaker_unset hk (firings runs)
    exact ⟨fun _ => nofun, fun _ => ⟨heq, nofun⟩⟩
  | some knobs =>
    rcases knobs with ⟨threshold, window⟩
    rw [checkCircuitBreaker_set hk hc, checkCircuitBreaker_set hk hc.firings]
    cases hw : windowStart window now with
    | error e =>
      refine ⟨fun _ T W since h hs => ?_, fun _ => ⟨rfl, fun T W since h hs => ?_⟩⟩ <;>
        · cases h; rw [hw] at hs; cases hs
    | ok since =>
      have hle : (runsSince a.id since (firings runs) : Int) ≤ runsSince a.id since runs := by
        exact_mod_cast runsSince_firings_le
      dsimp only
      rcases compare_ge_int threshold with ⟨e, he⟩ | ⟨reached, hr, hmono⟩
      · rw [he, he]
        refine ⟨fun _ T W since' h hs hreach => ?_, fun _ => ⟨rfl, fun _ _ _ _ _ _ => nofun⟩⟩
        cases h
        rw [he] at hreach
        cases hreach
      · rw [hr, hr]
        constructor
        · rintro ⟨heq, hcloses⟩ T W since' h hs hreach
          cases h
          rw [hw] at hs
          cases hs
          rw [hr] at hreach ⊢
          have hn : reached (runsSince a.id since runs) = true := by simpa using hreach
          rw [hn] at heq hcloses
          refine ⟨Nat.pos_of_ne_zero fun h0 => hcloses _ _ _ rfl hw h0 rfl, ?_⟩
          by_cases hm : reached (runsSince a.id since (firings runs)) = true
          · rw [hm]
          · rw [Bool.not_eq_true] at hm
            rw [hm] at heq
            cases heq
        · intro hcond
          have hcond := hcond threshold window since rfl hw
          rw [hr, hr] at hcond
          by_cases hn : reached (runsSince a.id since runs) = true
          · obtain ⟨hpos, hm⟩ := hcond (by rw [hn])
            have hm : reached (runsSince a.id since (firings runs)) = true := by simpa using hm
            rw [hn, hm]
            refine ⟨rfl, fun T W since' h hs h0 => ?_⟩
            cases h
            rw [hw] at hs
            cases hs
            omega
          · have hm : ¬ reached (runsSince a.id since (firings runs)) = true :=
              fun hm => hn (hmono _ _ hle hm)
            rw [Bool.not_eq_true] at hn hm
            rw [hn, hm]
            exact ⟨rfl, fun _ _ _ _ _ _ => nofun⟩

/-! ## The rate limits -/

theorem secondsInt_of_fits {n : Int} (h : -2 ^ 31 ≤ n ∧ n < 2 ^ 31) :
    secondsInt n = .ok (n * secondUs) := by
  unfold secondsInt mkTimedelta
  rw [if_pos]
  unfold dayUs secondUs
  omega

theorem within_of_fits {n t now : Int} (h : -2 ^ 31 ≤ n ∧ n < 2 ^ 31) :
    within n t now = .ok (decide (now - t < n * secondUs)) := by
  unfold within
  rw [secondsInt_of_fits h]

/-- The cooldown holds exactly when some run's own cooldown is not over. -/
theorem coolingDown_eq (now : Int) (hc : CellsSet runs)
    (hfit : ∀ c, a.val.cooldownSeconds = some c → -2 ^ 31 ≤ c ∧ c < 2 ^ 31) :
    ∃ b, coolingDown a now runs = .ok b ∧ (b = true ↔ ∃ r ∈ runs, cools a now r) := by
  unfold coolingDown
  rw [hc.lastFireTime]
  cases hcd : a.val.cooldownSeconds with
  | none => exact ⟨false, rfl, by simp [cools, hcd]⟩
  | some c =>
    have hwithin : ∀ t, within c t now = .ok (decide (now - t < c * secondUs)) :=
      fun t => within_of_fits (hfit c hcd)
    cases hl : lastRunTime a.id runs with
    | none =>
      refine ⟨false, rfl, ⟨nofun, fun ⟨r, hr, hid, _⟩ => ?_⟩⟩
      have := latest_eq_none.mp hl r hr
      rw [hid, beq_self_eq_true] at this
      cases this
    | some last =>
      obtain ⟨⟨s, hs, hsid, hst⟩, hmax⟩ := latest_eq_some.mp hl
      refine ⟨_, hwithin last, ?_⟩
      rw [decide_eq_true_eq]
      constructor
      · intro h
        refine ⟨s, hs, by simpa using hsid, c, hcd, ?_⟩
        rw [hwithin, hst, decide_eq_true h]
      · rintro ⟨r, hr, hid, c', hc', hw⟩
        rw [hcd] at hc'
        cases hc'
        rw [hwithin] at hw
        have hlt : now - r.createdAt < c * secondUs := by simpa using hw
        have := hmax r hr (by simpa using hid)
        omega

theorem overLimit_eq (hc : CellsSet runs) :
    overLimit a now runs = match a.val.maxRunsPerWindow, a.val.windowSeconds with
      | some maxRuns, some window => match windowStart (.int window) now with
        | .error e => .error e
        | .ok since => .ok (decide (maxRuns ≤ runsSince a.id since runs))
      | _, _ => .ok false := by
  unfold overLimit countFiredInWindow
  cases a.val.maxRunsPerWindow with
  | none => rfl
  | some maxRuns =>
    cases a.val.windowSeconds with
    | none => rfl
    | some window =>
      dsimp only
      cases windowStart (.int window) now with
      | error e => rfl
      | ok since =>
        dsimp only
        rw [hc.countFiredSince]

/-- The rate limits look only at firings exactly when the other runs do not tip them. -/
theorem limits_count_iff (hc : CellsSet runs)
    (hfit : ∀ c, a.val.cooldownSeconds = some c → -2 ^ 31 ≤ c ∧ c < 2 ^ 31) :
    checkRateLimits a now runs = checkRateLimits a now (firings runs) ↔
      ((∃ r ∈ runs, cools a now r) → ∃ r ∈ firings runs, cools a now r) ∧
      ∀ maxRuns window since, a.val.maxRunsPerWindow = some maxRuns →
        a.val.windowSeconds = some window → windowStart (.int window) now = .ok since →
        (∀ r ∈ firings runs, ¬ cools a now r) →
        maxRuns ≤ runsSince a.id since runs →
        maxRuns ≤ runsSince a.id since (firings runs) := by
  obtain ⟨b, hb, hbi⟩ := coolingDown_eq now hc hfit
  obtain ⟨b', hb', hbi'⟩ := coolingDown_eq now hc.firings hfit
  unfold checkRateLimits
  rw [hb, hb']
  cases b' with
  | true =>
    obtain ⟨r, hr, hcool⟩ := hbi'.mp rfl
    have hbt : b = true := hbi.mpr ⟨r, List.mem_of_mem_filter hr, hcool⟩
    subst hbt
    exact ⟨fun _ => ⟨fun _ => ⟨r, hr, hcool⟩, fun _ _ _ _ _ _ h => absurd hcool (h r hr)⟩,
      fun _ => rfl⟩
  | false =>
    have hnone : ¬ ∃ r ∈ firings runs, cools a now r := fun h => nomatch hbi'.mpr h
    cases b with
    | true =>
      refine ⟨fun h => ?_, fun h => absurd (h.1 (hbi.mp rfl)) hnone⟩
      dsimp only at h
      split at h <;> cases h
    | false =>
      have hall : ¬ ∃ r ∈ runs, cools a now r := fun h => nomatch hbi.mpr h
      rw [overLimit_eq hc, overLimit_eq hc.firings]
      dsimp only
      cases hm : a.val.maxRunsPerWindow with
      | none => exact ⟨fun _ => ⟨fun h => absurd h hall, nofun⟩, fun _ => rfl⟩
      | some maxRuns =>
        cases hw : a.val.windowSeconds with
        | none => exact ⟨fun _ => ⟨fun h => absurd h hall, fun _ _ _ _ => nofun⟩, fun _ => rfl⟩
        | some window =>
          dsimp only
          cases hs : windowStart (.int window) now with
          | error e =>
            refine ⟨fun _ => ⟨fun h => absurd h hall, fun _ _ _ _ h hs' => ?_⟩, fun _ => rfl⟩
            cases h
            rw [hs] at hs'
            cases hs'
          | ok since =>
            have hle : (runsSince a.id since (firings runs) : Int) ≤ runsSince a.id since runs := by
              exact_mod_cast runsSince_firings_le
            dsimp only
            constructor
            · intro h
              refine ⟨fun h => absurd h hall, fun M W since' hM hW hs' _ hreach => ?_⟩
              cases hM
              cases hW
              rw [hs] at hs'
              cases hs'
              by_contra hlt
              rw [decide_eq_true hreach, decide_eq_false hlt] at h
              cases h
            · rintro ⟨-, hcond⟩
              have hcond := hcond maxRuns window since rfl rfl hs fun r hr hcool =>
                hnone ⟨r, hr, hcool⟩
              have hiff : maxRuns ≤ (runsSince a.id since runs : Int) ↔
                  maxRuns ≤ (runsSince a.id since (firings runs) : Int) :=
                ⟨hcond, fun h => by omega⟩
              simp only [hiff]

end Counting

/-- Over every history, the verdicts are those of the firings alone exactly when the runs that
fired nothing tip no limit. -/
theorem countsFirings_iff (w : World) (passes : List PassInput) (a : Row Automation) (now : Int)
    (hfit : ∀ c, a.val.cooldownSeconds = some c → -2 ^ 31 ≤ c ∧ c < 2 ^ 31) :
    CountsFirings a now (history w passes).rows ↔
      OthersTipNothing a now (history w passes).rows := by
  have hc := (recorded_history w passes).cellsSet
  constructor
  · rintro ⟨hb, hl, hclose⟩
    obtain ⟨hcool, hlimit⟩ := (limits_count_iff hc hfit).mp hl
    exact ⟨(breaker_counts_iff hc).mp ⟨hb, hclose⟩, hcool, hlimit⟩
  · rintro ⟨hb, hcool, hlimit⟩
    obtain ⟨heq, hclose⟩ := (breaker_counts_iff hc).mpr hb
    exact ⟨heq, (limits_count_iff hc hfit).mpr ⟨hcool, hlimit⟩, hclose⟩

/-- A log automation for one task name, with a cooldown of a minute. -/
def cooledLog : Row Automation where
  id := 1
  createdAt := 0
  val := { name := "cooled-log", triggerType := "event", eventType := some "task-failed",
           conditions := .store (.arr [.obj [("field", .str "name"), ("op", .str "eq"),
             ("value", .str "billing.charge")]]),
           actions := .store (.arr [.obj [("type", .str "log")]]), cooldownSeconds := some 60 }

/-- Ten seconds after an event its conditions reject, it is cooling down. -/
theorem countsFirings_fails :
    ¬ CountsFirings cooledLog (10 * secondUs) (history {}
      [.event (.idle 0) "task-failed" [("name", .str "billing.refund")] [cooledLog]]).rows := by
  intro h
  have hlimits := h.limits
  revert hlimits
  decide

theorem countsFirings_iff_cooledLog :
    CountsFirings cooledLog (70 * secondUs) (history {}
      [.event (.idle 0) "task-failed" [("name", .str "billing.refund")] [cooledLog]]).rows ↔
    OthersTipNothing cooledLog (70 * secondUs) (history {}
      [.event (.idle 0) "task-failed" [("name", .str "billing.refund")] [cooledLog]]).rows :=
  countsFirings_iff {} _ cooledLog _ fun c hc => by
    cases hc
    decide

end Taskowl
