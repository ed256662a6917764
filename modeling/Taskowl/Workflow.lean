import Taskowl.Automations
import Taskowl.Dispatch
import Taskowl.Limits

/-!
# Evaluation passes

`_evaluate_event` and `_evaluate_periodic` of `WorkflowEngine`. A pass works
in a `Session`: a transaction's view of the runs table, which its own queries
see, and the `World`, which no rollback undoes. An exception leaves the pass;
the rows added so far are rolled back and what was dispatched stays
dispatched. The loop body the two passes share is `evaluateAutomation`; what
it decides before dispatching is `decision`.
-/

namespace Taskowl

open Lib Py

/-- A pass in progress. -/
structure Session where
  world : World
  runs : Table AutomationRun
  /-- The automations whose actions were dispatched, all or up to an exception, in order. -/
  dispatched : List Nat := []

/-- What the loop body decides about an automation. -/
inductive Decision where
  | conditionsFailed
  | skipped (reason : Skip)
  | fire
  deriving DecidableEq, Repr

/-- The conditions, then the breaker, then the rate limits. -/
def decision (env : Env) (event : Dict) (a : Row Automation) (runs : Runs) :
    Except PyErr Decision :=
  match conditionsPassed env.lib event a.val with
  | .error e => .error e
  | .ok false => .ok .conditionsFailed
  | .ok true => match skipReason a env.now runs with
    | .error e => .error e
    | .ok (some reason) => .ok (.skipped reason)
    | .ok none => .ok .fire

/-- The `details` dict of a run. -/
def runDetails (trigger : String) (event : Dict) (a : Row Automation) (skipped : Option Skip) :
    Dict :=
  [("event_type", .str trigger), ("event", .obj (safeSnapshot event)),
    ("automation", .obj (serialize a))] ++
    match skipped with
    | none => []
    | some reason => [("skipped", .str reason.text)]

/-- The `AutomationRun` a pass adds: `actions_fired` is `None` unless the actions fired. -/
def runOf (trigger : String) (event : Dict) (a : Row Automation) (passed : Bool)
    (actionsFired : Json) (skipped : Option Skip) : AutomationRun where
  automationId := a.id
  trigger := trigger
  matched := true
  conditionsPassed := passed
  actionsFired := .store actionsFired
  details := .store (.obj (runDetails trigger event a skipped))

/-- `session.add(run)`, flushed by the next query or the commit. -/
def Session.add (s : Session) (now : Int) (run : AutomationRun) : Session :=
  { s with runs := s.runs.insert now run }

/-- The loop body of both passes, with the exception it raises. -/
def evaluateAutomation (env : Env) (trigger : String) (event : Dict) (a : Row Automation)
    (s : Session) : Session × Option PyErr :=
  match decision env event a s.runs.rows with
  | .error e => (s, some e)
  | .ok .conditionsFailed => (s.add env.now (runOf trigger event a false .null none), none)
  | .ok (.skipped reason) => (s.add env.now (runOf trigger event a true .null (some reason)), none)
  | .ok .fire =>
    let dispatched : List Nat := s.dispatched ++ if actionsBegin a.val then [a.id] else []
    match dispatchActions env a.val event s.world with
    | (w, .error e) => (⟨w, s.runs, dispatched⟩, some e)
    | (w, .ok fired) =>
      (Session.add ⟨w, s.runs, dispatched⟩ env.now (runOf trigger event a true (.arr fired) none),
        none)

/-- A loop whose body may raise. -/
def forEach {α σ : Type} (body : α → σ → σ × Option PyErr) : List α → σ → σ × Option PyErr
  | [], s => (s, none)
  | a :: as, s => match body a s with
    | (s, some e) => (s, some e)
    | (s, none) => forEach body as s

structure Pass where
  world : World
  /-- The committed runs table. -/
  runs : Table AutomationRun
  dispatched : List Nat
  raised : Option PyErr

/-- The commit at the end of a pass; an exception rolls the session back. -/
def Pass.finish (committed : Table AutomationRun) : Session × Option PyErr → Pass
  | (s, none) => ⟨s.world, s.runs, s.dispatched, none⟩
  | (s, some e) => ⟨s.world, committed, s.dispatched, some e⟩

@[simp] theorem Pass.dispatched_finish (t : Table AutomationRun) (r : Session × Option PyErr) :
    (Pass.finish t r).dispatched = r.1.dispatched := by
  rcases r with ⟨s, _ | e⟩ <;> rfl

@[simp] theorem Pass.world_finish (t : Table AutomationRun) (r : Session × Option PyErr) :
    (Pass.finish t r).world = r.1.world := by
  rcases r with ⟨s, _ | e⟩ <;> rfl

@[simp] theorem Pass.raised_finish (t : Table AutomationRun) (r : Session × Option PyErr) :
    (Pass.finish t r).raised = r.2 := by
  rcases r with ⟨s, _ | e⟩ <;> rfl

theorem Pass.runs_finish {t : Table AutomationRun} {r : Session × Option PyErr} :
    (Pass.finish t r).runs = if r.2.isSome then t else r.1.runs := by
  rcases r with ⟨s, _ | e⟩ <;> rfl

/-- The automations `_evaluate_event` selects. -/
def matchesEvent (eventType : String) (a : Row Automation) : Bool :=
  a.val.enabled && a.val.triggerType == "event" && a.val.eventType == some eventType

/-- `_evaluate_event(event_type, event)` over the `automations` rows in scan order. -/
def evaluateEvent (env : Env) (eventType : String) (event : Dict)
    (automations : List (Row Automation)) (runs : Table AutomationRun) (w : World) : Pass :=
  Pass.finish runs (forEach (evaluateAutomation env eventType event)
    (automations.filter (matchesEvent eventType)) ⟨w, runs, []⟩)

/-- The automations `_evaluate_periodic` selects. -/
def matchesPeriodic (a : Row Automation) : Bool := a.val.enabled && a.val.triggerType == "periodic"

/-- A schedule that `if not schedule` lets through. -/
def scheduleOf (a : Automation) : Option Int := a.scheduleSeconds.filter (· != 0)

/-- The loop body of `_evaluate_periodic`: the schedule, then the shared body. -/
def evaluateDue (env : Env) (a : Row Automation) (s : Session) : Session × Option PyErr :=
  match scheduleOf a.val with
  | none => (s, none)
  | some schedule => match lastRunTime a.id s.runs.rows with
    | none => evaluateAutomation env "periodic" [] a s
    | some lastRun => match within schedule lastRun env.now with
      | .error e => (s, some e)
      | .ok true => (s, none)
      | .ok false => evaluateAutomation env "periodic" [] a s

theorem evaluateDue_cases (env : Env) (a : Row Automation) (s : Session) :
    (evaluateDue env a s).1 = s ∨
      evaluateDue env a s = evaluateAutomation env "periodic" [] a s := by
  unfold evaluateDue
  cases scheduleOf a.val with
  | none => exact .inl rfl
  | some schedule =>
    dsimp only
    cases lastRunTime a.id s.runs.rows with
    | none => exact .inr rfl
    | some last =>
      dsimp only
      rcases within schedule last env.now with e | ⟨_ | _⟩
      · exact .inl rfl
      · exact .inr rfl
      · exact .inl rfl

/-- `_evaluate_periodic()`. -/
def evaluatePeriodic (env : Env) (automations : List (Row Automation))
    (runs : Table AutomationRun) (w : World) : Pass :=
  Pass.finish runs (forEach (evaluateDue env) (automations.filter matchesPeriodic) ⟨w, runs, []⟩)

/-- What the loop body decides depends only on the runs of its own automation. -/
theorem decision_congr {env : Env} {event : Dict} {a : Row Automation} {runs runs' : Runs}
    (h : ownRuns a.id runs = ownRuns a.id runs') :
    decision env event a runs = decision env event a runs' := by
  unfold decision
  rw [skipReason_congr h]

end Taskowl
