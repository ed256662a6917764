import Taskowl.Lib.Order
import Taskowl.Models

/-!
# Safety limits

`_check_circuit_breaker`, `_check_rate_limits` and the four history queries
they and the periodic loop read (`workflow.py`). The history is a list of
`automation_runs` rows; the queries never depend on its order.
-/

namespace Taskowl

open Lib Py

/-- The `details.skipped` reasons. -/
inductive Skip where
  | circuitOpen
  | cooldown
  | rateLimited
  deriving DecidableEq, Repr

def Skip.text : Skip → String
  | circuitOpen => "circuit_open"
  | cooldown => "cooldown"
  | rateLimited => "rate_limited"

abbrev Runs := List (Row AutomationRun)

/-- The runs of an automation. -/
def ownRuns (id : Nat) (runs : Runs) : Runs := runs.filter fun r => r.val.automationId == id

/-- `AutomationRun.automation_id == id AND AutomationRun.actions_fired IS NOT NULL`. -/
def firedRow (id : Nat) (r : Row AutomationRun) : Bool :=
  r.val.automationId == id && r.val.actionsFired.isnotNone

/-- `_last_fire_time(id)`. -/
def lastFireTime (id : Nat) (runs : Runs) : Option Int :=
  ((runs.filter (firedRow id)).map (·.createdAt)).max?

/-- `_last_run_time(id)`. -/
def lastRunTime (id : Nat) (runs : Runs) : Option Int :=
  ((ownRuns id runs).map (·.createdAt)).max?

/-- The rows `_count_fired_in_window` counts, from the start of its window. -/
def countFiredSince (id : Nat) (since : Int) (runs : Runs) : Nat :=
  runs.countP fun r => firedRow id r && decide (since ≤ r.createdAt)

/-- `now - timedelta(seconds=window)`. -/
def windowStart (window : Json) (now : Int) : Except PyErr Int :=
  match seconds window with
  | .error e => .error e
  | .ok delta => subDelta now delta

/-- `_count_fired_in_window(id, window, now)`. -/
def countFiredInWindow (id : Nat) (window : Json) (now : Int) (runs : Runs) : Except PyErr Nat :=
  match windowStart window now with
  | .error e => .error e
  | .ok since => .ok (countFiredSince id since runs)

/-- `_check_circuit_breaker(automation, now)`. -/
def checkCircuitBreaker (automation : Row Automation) (now : Int) (runs : Runs) :
    Except PyErr (Option Skip) :=
  let config := automation.val.circuitBreaker.read
  if !config.truthy then .ok none
  else match config.getAttr "failure_threshold", config.getAttr "window_seconds" with
    | .ok threshold, .ok window =>
      if !threshold.truthy || !window.truthy then .ok none
      else match countFiredInWindow automation.id window now runs with
        | .error e => .error e
        | .ok fired => match Json.compare .ge (.int fired) threshold with
          | .error e => .error e
          | .ok open_ => .ok (if open_ then some .circuitOpen else none)
    | .error e, _ | _, .error e => .error e

/-- `now - t < timedelta(seconds=n)`. -/
def within (n : Int) (t now : Int) : Except PyErr Bool :=
  match secondsInt n with
  | .error e => .error e
  | .ok delta => .ok (decide (now - t < delta))

/-- The cooldown test of `_check_rate_limits`. -/
def coolingDown (automation : Row Automation) (now : Int) (runs : Runs) : Except PyErr Bool :=
  match automation.val.cooldownSeconds, lastFireTime automation.id runs with
  | some cooldown, some lastFire => within cooldown lastFire now
  | _, _ => .ok false

/-- The `max_runs_per_window` test of `_check_rate_limits`. -/
def overLimit (automation : Row Automation) (now : Int) (runs : Runs) : Except PyErr Bool :=
  match automation.val.maxRunsPerWindow, automation.val.windowSeconds with
  | some maxRuns, some window =>
    match countFiredInWindow automation.id (.int window) now runs with
    | .error e => .error e
    | .ok fired => .ok (decide (maxRuns ≤ fired))
  | _, _ => .ok false

/-- `_check_rate_limits(automation, now)`. -/
def checkRateLimits (automation : Row Automation) (now : Int) (runs : Runs) :
    Except PyErr (Option Skip) :=
  match coolingDown automation now runs with
  | .error e => .error e
  | .ok true => .ok (some .cooldown)
  | .ok false => match overLimit automation now runs with
    | .error e => .error e
    | .ok true => .ok (some .rateLimited)
    | .ok false => .ok none

/-- `await self._check_circuit_breaker(..) or await self._check_rate_limits(..)`. -/
def skipReason (automation : Row Automation) (now : Int) (runs : Runs) :
    Except PyErr (Option Skip) :=
  match checkCircuitBreaker automation now runs with
  | .error e => .error e
  | .ok (some reason) => .ok (some reason)
  | .ok none => checkRateLimits automation now runs

/-! ## The history queries -/

theorem latest_eq_some {p : Row AutomationRun → Bool} {runs : Runs} {t : Int} :
    ((runs.filter p).map (·.createdAt)).max? = some t ↔
      (∃ r ∈ runs, p r = true ∧ r.createdAt = t) ∧
        ∀ r ∈ runs, p r = true → r.createdAt ≤ t := max?_key_eq_some

theorem latest_eq_none {p : Row AutomationRun → Bool} {runs : Runs} :
    ((runs.filter p).map (·.createdAt)).max? = none ↔ ∀ r ∈ runs, p r = false := by
  simp [List.max?_eq_none_iff]

theorem le_of_within {n t now : Int} (h : within n t now = .ok false) :
    t + n * secondUs ≤ now := by
  unfold within at h
  split at h
  · cases h
  · next delta hd =>
    have hdelta := secondsInt_eq hd
    have hover : ¬ now - t < delta := by simpa using h
    omega

/-- The limits of an automation read only its own runs. -/
theorem skipReason_congr {automation : Row Automation} {now : Int} {runs runs' : Runs}
    (h : ownRuns automation.id runs = ownRuns automation.id runs') :
    skipReason automation now runs = skipReason automation now runs' := by
  have hfired : runs.filter (firedRow automation.id) = runs'.filter (firedRow automation.id) := by
    have key : ∀ l : Runs, l.filter (firedRow automation.id) =
        (ownRuns automation.id l).filter fun r => r.val.actionsFired.isnotNone := by
      intro l
      rw [ownRuns, List.filter_filter]
      exact List.filter_congr fun r _ => by rw [firedRow, Bool.and_comm]
    rw [key, key, h]
  have hlast : lastFireTime automation.id runs = lastFireTime automation.id runs' := by
    unfold lastFireTime
    rw [hfired]
  have hcount : ∀ since, countFiredSince automation.id since runs =
      countFiredSince automation.id since runs' := by
    intro since
    have key : ∀ l : Runs, countFiredSince automation.id since l =
        (l.filter (firedRow automation.id)).countP fun r => decide (since ≤ r.createdAt) := by
      intro l
      rw [List.countP_filter]
      exact List.countP_congr fun r _ => by rw [Bool.and_comm]
    rw [key, key, hfired]
  have hwindow : ∀ window, countFiredInWindow automation.id window now runs =
      countFiredInWindow automation.id window now runs' := by
    intro window
    unfold countFiredInWindow
    simp only [hcount]
  unfold skipReason checkCircuitBreaker checkRateLimits coolingDown overLimit
  simp only [hwindow, hlast]

end Taskowl
