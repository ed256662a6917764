import Taskowl.Firing

/-!
# The reported circuit state

`get_automation_status` calls a circuit open when the automation's latest run
was skipped for the breaker; the breaker counts the runs in its window. The
two part as soon as the window rolls past without an event, when a run reaches
the threshold, and when another kind of run is recorded while the breaker is
tripped.
-/

namespace Taskowl

open Lib Py

/-! ## The status -/

/-- `_serialize_run(run)`. -/
def serializeRun (r : Row AutomationRun) : Dict :=
  [("id", .int r.id), ("automation_id", .int r.val.automationId), ("trigger", .str r.val.trigger),
    ("matched", .bool r.val.matched), ("conditions_passed", .bool r.val.conditionsPassed),
    ("actions_fired", r.val.actionsFired.read), ("details", r.val.details.read),
    ("created_at", .str (isoformat r.createdAt))]

def newestFirst (r s : Row AutomationRun) : Bool :=
  decide (s.createdAt < r.createdAt) || (decide (s.createdAt = r.createdAt) && decide (s.id ≤ r.id))

/-- The rows `list_automation_runs(automation_id, limit)` selects. -/
def selectRuns (automationId : Option Nat) (limit : Nat) (runs : Runs) : Runs :=
  let own := match automationId with
    | none => runs
    | some id => ownRuns id runs
  (own.insertionSort fun r s => newestFirst r s = true).take limit

/-- `list_automation_runs(automation_id, limit)`. -/
def listAutomationRuns (automationId : Option Nat) (limit : Nat) (runs : Runs) : List Dict :=
  (selectRuns automationId limit runs).map serializeRun

/-- `latest_run`: the newest run, or `None`. -/
def lastRun (automationId : Nat) (runs : Runs) : Json :=
  match listAutomationRuns (some automationId) 1 runs with
  | [] => .null
  | latest :: _ => .obj latest

/-- The circuit state, from the breaker's configuration and the latest run. -/
def circuitState (circuitConfig latestRun : Json) : Except PyErr String :=
  if circuitConfig.truthy && latestRun.truthy then
    match latestRun.getAttr "details" with
    | .error e => .error e
    | .ok details => match (details.or (.obj [])).getAttr "skipped" with
      | .error e => .error e
      | .ok skipped =>
        .ok (if skipped.pyEq (.str "circuit_open") then "open" else "closed")
  else .ok "closed"

/-- `get_automation_status(automation_id)`. -/
def getAutomationStatus (id : Nat) (db : Db) : Except PyErr OpReply :=
  match db.automations.get? id with
  | none => .ok (.error s!"Automation not found: {id}")
  | some automation =>
    let latestRun := lastRun id db.runs.rows
    match circuitState automation.val.circuitBreaker.read latestRun with
    | .error e => .error e
    | .ok state => .ok (.ok (.obj ((serialize automation).merge
        [("circuit_state", .str state), ("last_run", latestRun)])))

/-! ## Reported and real -/

/-- The status reports what the breaker answers. -/
def CircuitReported (a : Row Automation) (now : Int) (db : Db) : Prop :=
  ∃ status : Dict, getAutomationStatus a.id db = .ok (.ok (.obj status)) ∧
    (checkCircuitBreaker a now db.runs.rows = .ok (some .circuitOpen) →
      status.get "circuit_state" = .str "open") ∧
    (checkCircuitBreaker a now db.runs.rows ≠ .ok (some .circuitOpen) →
      status.get "circuit_state" = .str "closed")

def AutomationRun.skipped (run : AutomationRun) : Json :=
  match run.details.read with
  | .obj details => Dict.get details "skipped"
  | _ => .null

structure LatestRun (id : Nat) (runs : Runs) (r : Row AutomationRun) : Prop where
  mem : r ∈ runs
  own : r.val.automationId = id
  newest : ∀ s ∈ runs, s.val.automationId = id → newestFirst r s = true

/-- The runs of the automation from the start of its breaker's window on reach the threshold. -/
def Tripped (a : Row Automation) (now : Int) (runs : Runs) : Prop :=
  ∃ threshold window since, breakerKnobs a.val = some (threshold, window) ∧
    windowStart window now = .ok since ∧
    Json.compare .ge (.int (runsSince a.id since runs)) threshold = .ok true

/-- The latest run tells whether enough runs are in the window. -/
structure CircuitCurrent (a : Row Automation) (now : Int) (runs : Runs) : Prop where
  /-- After a skip for the breaker there still are, unless no breaker is set up any more. -/
  afterSkip : ∀ r, LatestRun a.id runs r → r.val.skipped = .str "circuit_open" →
    a.val.circuitBreaker.read.truthy = true → Tripped a now runs
  /-- After any other run there are not. -/
  afterOther : ∀ r, LatestRun a.id runs r → r.val.skipped ≠ .str "circuit_open" →
    ¬ Tripped a now runs
  /-- Nor without a run. -/
  withoutRuns : (∀ r, ¬ LatestRun a.id runs r) → ¬ Tripped a now runs

section Latest

variable {id : Nat} {runs : Runs}

theorem newestFirst_total (r s : Row AutomationRun) :
    newestFirst r s = true ∨ newestFirst s r = true := by
  simp only [newestFirst, Bool.or_eq_true, Bool.and_eq_true, decide_eq_true_eq]
  omega

theorem newestFirst_trans (r s u : Row AutomationRun) (hrs : newestFirst r s = true)
    (hsu : newestFirst s u = true) : newestFirst r u = true := by
  simp only [newestFirst, Bool.or_eq_true, Bool.and_eq_true, decide_eq_true_eq] at *
  omega

theorem lastRun_cases (id : Nat) (runs : Runs) :
    (lastRun id runs = .null ∧ ∀ r, ¬ LatestRun id runs r) ∨
      ∃ r, lastRun id runs = .obj (serializeRun r) ∧ LatestRun id runs r := by
  have hperm := List.perm_insertionSort (fun r s => newestFirst r s = true) (ownRuns id runs)
  have htotal : Std.Total fun r s => newestFirst r s = true := ⟨newestFirst_total⟩
  have htrans : IsTrans (Row AutomationRun) fun r s => newestFirst r s = true :=
    ⟨newestFirst_trans⟩
  have hsorted := List.pairwise_insertionSort (fun r s => newestFirst r s = true) (ownRuns id runs)
  have hown : ∀ s, s ∈ runs → s.val.automationId = id → s ∈ ownRuns id runs :=
    fun s hs hid => List.mem_filter.mpr ⟨hs, by simpa using hid⟩
  unfold lastRun listAutomationRuns selectRuns
  dsimp only
  cases hl : (ownRuns id runs).insertionSort fun r s => newestFirst r s = true with
  | nil =>
    rw [hl] at hperm
    refine .inl ⟨rfl, fun r hr => ?_⟩
    have hmem := hown r hr.mem hr.own
    rw [hperm.symm.eq_nil] at hmem
    exact List.not_mem_nil hmem
  | cons r rest =>
    rw [hl] at hperm hsorted
    obtain ⟨hmem, hid⟩ := List.mem_filter.mp (hperm.mem_iff.mp List.mem_cons_self)
    refine .inr ⟨r, rfl, hmem, by simpa using hid, fun s hs hsid => ?_⟩
    rcases List.mem_cons.mp (hperm.mem_iff.mpr (hown s hs hsid)) with rfl | hrest
    · exact (newestFirst_total s s).elim (fun h => h) fun h => h
    · exact List.rel_of_pairwise_cons hsorted hrest

theorem LatestRun.unique {t : Table AutomationRun} {r s : Row AutomationRun}
    (hr : LatestRun id t.rows r) (hs : LatestRun id t.rows s) : r = s := by
  have hrs := hr.newest s hs.mem hs.own
  have hsr := hs.newest r hr.mem hr.own
  simp only [newestFirst, Bool.or_eq_true, Bool.and_eq_true, decide_eq_true_eq] at hrs hsr
  exact t.eq_of_id_eq hr.mem hs.mem (by omega)

end Latest

/-! ## What the engine writes -/

def Detailed (t : Table AutomationRun) : Prop :=
  ∀ r ∈ t.rows, ∃ details, r.val.details.read = .obj details

theorem Detailed.add {s : Session} (h : Detailed s.runs) (now : Int) (trigger : String)
    (event : Dict) (a : Row Automation) (passed : Bool) (fired : Json) (skipped : Option Skip) :
    Detailed (s.add now (runOf trigger event a passed fired skipped)).runs := by
  intro r hr
  rcases List.mem_append.mp hr with hr | hr
  · exact h r hr
  · rw [List.mem_singleton] at hr
    subst hr
    exact ⟨_, rfl⟩

theorem detailed_evaluateAutomation (env : Env) (trigger : String) (event : Dict)
    (a : Row Automation) (s : Session) (h : Detailed s.runs) :
    Detailed (evaluateAutomation env trigger event a s).1.runs := by
  unfold evaluateAutomation
  rcases decision env event a s.runs.rows with e | ⟨_ | reason | _⟩
  · exact h
  · exact h.add _ _ _ _ _ _ _
  · exact h.add _ _ _ _ _ _ _
  · dsimp only
    rcases dispatchActions env a.val event s.world with ⟨w, e | fired⟩
    · exact h
    · exact Detailed.add (s := ⟨w, s.runs, _⟩) h _ _ _ _ _ _ _

theorem detailed_evaluateDue (env : Env) (a : Row Automation) (s : Session) (h : Detailed s.runs) :
    Detailed (evaluateDue env a s).1.runs := by
  obtain hleft | heval := evaluateDue_cases env a s
  · rw [hleft]
    exact h
  · rw [heval]
    exact detailed_evaluateAutomation env "periodic" [] a s h

theorem detailed_finish {t : Table AutomationRun} (h : Detailed t) {r : Session × Option PyErr}
    (hr : Detailed r.1.runs) : Detailed (Pass.finish t r).runs := by
  rcases r with ⟨s, _ | e⟩
  · exact hr
  · exact h

theorem detailed_step (s : Engine) (p : PassInput) (h : Detailed s.runs) :
    Detailed (s.step p).runs := by
  cases p with
  | event env eventType event scan =>
    exact detailed_finish h (forEach_invariant (I := fun s : Session => Detailed s.runs)
      (fun a _ => detailed_evaluateAutomation env eventType event a) h)
  | periodic env scan =>
    exact detailed_finish h (forEach_invariant (I := fun s : Session => Detailed s.runs)
      (fun a _ => detailed_evaluateDue env a) h)

theorem detailed_history (w : World) (passes : List PassInput) : Detailed (history w passes) :=
  run_invariant (I := fun s : Engine => Detailed s.runs) detailed_step passes
    (fun _ hr => absurd hr List.not_mem_nil)

/-! ## The breaker and the status -/

section Status

variable {a : Row Automation} {now : Int} {runs : Runs}

theorem checkCircuitBreaker_open (hc : CellsSet runs) :
    checkCircuitBreaker a now runs = .ok (some .circuitOpen) ↔ Tripped a now runs := by
  unfold Tripped
  cases hk : breakerKnobs a.val with
  | none =>
    refine ⟨fun h => absurd h (checkCircuitBreaker_unset hk runs).2, ?_⟩
    rintro ⟨_, _, _, ⟨⟩, _⟩
  | some knobs =>
    obtain ⟨threshold, window⟩ := knobs
    rw [checkCircuitBreaker_set hk hc]
    constructor
    · intro h
      cases hw : windowStart window now with
      | error e => rw [hw] at h; cases h
      | ok since =>
        rw [hw] at h
        dsimp only at h
        cases hcmp : Json.compare .ge (.int (runsSince a.id since runs)) threshold with
        | error e => rw [hcmp] at h; cases h
        | ok reached =>
          rw [hcmp] at h
          cases reached with
          | false => cases h
          | true => exact ⟨threshold, window, since, rfl, hw, hcmp⟩
    · rintro ⟨threshold', window', since, heq, hw, hcmp⟩
      cases heq
      rw [hw]
      dsimp only
      rw [hcmp]
      rfl

theorem Tripped.truthy (h : Tripped a now runs) : a.val.circuitBreaker.read.truthy = true := by
  obtain ⟨threshold, window, -, hk, -⟩ := h
  unfold breakerKnobs at hk
  by_contra hfalse
  have hunset : (!a.val.circuitBreaker.read.truthy) = true := by simpa using hfalse
  rw [if_pos hunset] at hk
  cases hk

theorem pyEq_str (v : Json) (s : String) : v.pyEq (.str s) = (v == .str s) := by
  cases v with
  | str t =>
    show (Json.str s == .str t) = (Json.str t == .str s)
    exact BEq.comm
  | _ => rfl

theorem circuitState_latest (config : Json) {r : Row AutomationRun}
    (hr : ∃ details, r.val.details.read = .obj details) :
    circuitState config (.obj (serializeRun r)) =
      .ok (if config.truthy = true ∧ r.val.skipped = .str "circuit_open" then "open"
        else "closed") := by
  obtain ⟨details, hd⟩ := hr
  have hget : (Json.obj (serializeRun r)).getAttr "details" = .ok (.obj details) :=
    congrArg Except.ok hd
  have hor : (Json.obj details).or (.obj []) = .obj details := by
    cases details <;> rfl
  have hskipped : (Json.obj details).getAttr "skipped" = .ok r.val.skipped := by
    unfold AutomationRun.skipped
    rw [hd]
    rfl
  unfold circuitState
  rw [hget]
  dsimp only
  rw [hor, hskipped]
  dsimp only
  rw [pyEq_str, show (Json.obj (serializeRun r)).truthy = true from rfl, Bool.and_true]
  cases config.truthy <;> simp

theorem exists_status {db : Db} (ha : a ∈ db.automations.rows) {state : String}
    (hs : circuitState a.val.circuitBreaker.read (lastRun a.id db.runs.rows) = .ok state) :
    ∃ status : Dict, getAutomationStatus a.id db = .ok (.ok (.obj status)) ∧
      status.get "circuit_state" = .str state := by
  refine ⟨(serialize a).merge [("circuit_state", .str state),
    ("last_run", lastRun a.id db.runs.rows)], ?_, ?_⟩
  · unfold getAutomationStatus
    rw [Table.get?_eq_some.mpr ⟨ha, rfl⟩]
    dsimp only
    rw [hs]
  · unfold Dict.get
    rw [Dict.lookup_merge _ (by simp)]
    rfl

/-- The state is open when the latest run is a skip for a breaker that is set up. -/
theorem getAutomationStatus_ok {db : Db} (ha : a ∈ db.automations.rows) (hd : Detailed db.runs) :
    ∃ status : Dict, getAutomationStatus a.id db = .ok (.ok (.obj status)) ∧
      ((∃ r, LatestRun a.id db.runs.rows r ∧ r.val.skipped = .str "circuit_open" ∧
          a.val.circuitBreaker.read.truthy = true) ∧ status.get "circuit_state" = .str "open" ∨
        (∀ r, LatestRun a.id db.runs.rows r → a.val.circuitBreaker.read.truthy = true →
          r.val.skipped ≠ .str "circuit_open") ∧ status.get "circuit_state" = .str "closed") := by
  rcases lastRun_cases a.id db.runs.rows with ⟨hnull, hnone⟩ | ⟨r, hr, hlatest⟩
  · have hclosed : circuitState a.val.circuitBreaker.read (lastRun a.id db.runs.rows) =
        .ok "closed" := by
      unfold circuitState
      rw [hnull, show Json.null.truthy = false from rfl, Bool.and_false]
      rfl
    obtain ⟨status, hstatus, hs⟩ := exists_status ha hclosed
    exact ⟨status, hstatus, .inr ⟨fun r hr => absurd hr (hnone r), hs⟩⟩
  · have hstate := circuitState_latest a.val.circuitBreaker.read (hd r hlatest.mem)
    rw [← hr] at hstate
    obtain ⟨status, hstatus, hs⟩ := exists_status ha hstate
    refine ⟨status, hstatus, ?_⟩
    rw [hs]
    by_cases h : a.val.circuitBreaker.read.truthy = true ∧ r.val.skipped = .str "circuit_open"
    · rw [if_pos h]
      exact .inl ⟨⟨r, hlatest, h.2, h.1⟩, rfl⟩
    · rw [if_neg h]
      refine .inr ⟨fun s hs ht hskip => h ⟨ht, ?_⟩, rfl⟩
      rwa [hlatest.unique hs]

theorem circuitReported_iff_current {db : Db} (ha : a ∈ db.automations.rows)
    (hd : Detailed db.runs) (hc : CellsSet db.runs.rows) :
    CircuitReported a now db ↔ CircuitCurrent a now db.runs.rows := by
  obtain ⟨status, hstatus, hstate⟩ := getAutomationStatus_ok ha hd
  have hreported : CircuitReported a now db ↔
      (Tripped a now db.runs.rows → status.get "circuit_state" = .str "open") ∧
        (¬ Tripped a now db.runs.rows → status.get "circuit_state" = .str "closed") := by
    unfold CircuitReported
    rw [← checkCircuitBreaker_open hc]
    refine ⟨?_, fun h => ⟨status, hstatus, h⟩⟩
    rintro ⟨status', hstatus', h⟩
    cases hstatus.symm.trans hstatus'
    exact h
  rw [hreported]
  rcases hstate with ⟨⟨r, hr, hskip, hset⟩, hopen⟩ | ⟨hother, hclosed⟩
  · rw [hopen]
    constructor
    · rintro ⟨-, hnot⟩
      have htripped : Tripped a now db.runs.rows := by
        by_contra h
        exact absurd (hnot h) (by decide)
      refine ⟨fun _ _ _ _ => htripped, fun s hs hne => ?_, fun hnone => absurd hr (hnone r)⟩
      exact absurd (hr.unique hs ▸ hskip) hne
    · intro h
      exact ⟨fun _ => rfl, fun hnot => absurd (h.afterSkip r hr hskip hset) hnot⟩
  · rw [hclosed]
    constructor
    · rintro ⟨hnot, -⟩
      have hquiet : ¬ Tripped a now db.runs.rows := fun h => absurd (hnot h) (by decide)
      exact ⟨fun r hr hskip hset => absurd hskip (hother r hr hset), fun _ _ _ => hquiet,
        fun _ => hquiet⟩
    · intro h
      refine ⟨fun htripped => ?_, fun _ => rfl⟩
      by_cases hruns : ∃ r, LatestRun a.id db.runs.rows r
      · obtain ⟨r, hr⟩ := hruns
        exact absurd htripped (h.afterOther r hr (hother r hr htripped.truthy))
      · exact absurd htripped (h.withoutRuns fun r hr => hruns ⟨r, hr⟩)

end Status

/-- Over every history, the status reports what the breaker answers exactly when the latest run
tells whether enough runs are in the window. -/
theorem circuit_reported_iff (automations : Table Automation) (a : Row Automation)
    (ha : a ∈ automations.rows) (w : World) (passes : List PassInput) (now : Int) :
    CircuitReported a now { Db.empty with automations, runs := history w passes } ↔
      CircuitCurrent a now (history w passes).rows :=
  circuitReported_iff_current ha (detailed_history w passes) (recorded_history w passes).cellsSet

/-- A log automation whose breaker trips at its first run in a minute. -/
def breakerLog : Row Automation where
  id := 1
  createdAt := 0
  val := { name := "breaker-log", triggerType := "event", eventType := some "task-failed",
           actions := .store (.arr [.obj [("type", .str "log")]]),
           circuitBreaker := .store (.obj [("failure_threshold", .int 1),
             ("window_seconds", .int 60)]) }

def breakerStore : Table Automation := Table.empty.insert 0 breakerLog.val

theorem mem_breakerStore : breakerLog ∈ breakerStore.rows := List.mem_singleton.mpr rfl

/-- It fires at the first of two failures, a second apart, and is skipped at the other. -/
def twoFailures : Table AutomationRun :=
  history {} [.event (.idle 0) "task-failed" [] breakerStore.rows,
    .event (.idle secondUs) "task-failed" [] breakerStore.rows]

theorem latestRun_twoFailures : ∃ r, LatestRun 1 twoFailures.rows r ∧
    r.val.skipped = .str "circuit_open" := by
  have hlatest : ∃ r ∈ twoFailures.rows, (r.val.automationId = 1 ∧
      ∀ s ∈ twoFailures.rows, s.val.automationId = 1 → newestFirst r s = true) ∧
      r.val.skipped = .str "circuit_open" := by decide
  obtain ⟨r, hr, ⟨hid, hnewest⟩, hskipped⟩ := hlatest
  exact ⟨r, ⟨hr, hid, hnewest⟩, hskipped⟩

/-- Half a minute later the status is right. -/
theorem circuit_reported_twoFailures : CircuitReported breakerLog (30 * secondUs)
    { Db.empty with automations := breakerStore, runs := twoFailures } := by
  obtain ⟨r, hr, hskipped⟩ := latestRun_twoFailures
  have htripped : Tripped breakerLog (30 * secondUs) twoFailures.rows :=
    ⟨.int 1, .int 60, _, rfl, rfl, by decide⟩
  refine (circuit_reported_iff breakerStore breakerLog mem_breakerStore _ _ _).mpr
    ⟨fun _ _ _ _ => htripped, fun s hs hne => ?_, fun hnone => absurd hr (hnone r)⟩
  exact absurd (hr.unique hs ▸ hskipped) hne

/-- An hour later the breaker has closed, and the status still is `open`. -/
theorem circuit_stays_open : ¬ CircuitReported breakerLog (3600 * secondUs)
    { Db.empty with automations := breakerStore, runs := twoFailures } := by
  intro h
  have hcells : CellsSet twoFailures.rows := (recorded_history _ _).cellsSet
  have hcurrent := (circuitReported_iff_current mem_breakerStore (detailed_history _ _) hcells).mp h
  obtain ⟨r, hr, hskipped⟩ := latestRun_twoFailures
  have hopen := (checkCircuitBreaker_open hcells).mpr (hcurrent.afterSkip r hr hskipped rfl)
  revert hopen
  decide

end Taskowl
