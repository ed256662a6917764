import Taskowl.Workflow

/-!
# What a pass does

The loop body of a pass, seen from outside: an `Outcome` per automation,
which depends on nothing but the automation, the event and the automation's
own runs. `Performs` ties a loop body to its outcomes. Over automations with
distinct ids the outcomes of a pass are those at its start: a pass in which
none raises records one run per automation that records (`forEach_quiet`),
and a pass in which one raises stops there (`forEach_raised`).
-/

namespace Taskowl

open Lib Py

/-- What the loop body does with an automation. -/
inductive Outcome where
  /-- An exception, after some action was dispatched or before. -/
  | raises (dispatched : Bool)
  /-- Not due: no row and no action. -/
  | idle
  /-- One run. -/
  | records (dispatched passed : Bool)
  deriving DecidableEq, Repr

namespace Outcome

def isRaise : Outcome → Bool
  | raises _ => true
  | _ => false

def isRecord : Outcome → Bool
  | records _ _ => true
  | _ => false

def dispatches : Outcome → Bool
  | raises d => d
  | idle => false
  | records d _ => d

end Outcome

/-- The outcome of `evaluateAutomation`. -/
def outcome (env : Env) (event : Dict) (a : Row Automation) (runs : Runs) : Outcome :=
  match decision env event a runs with
  | .error _ => .raises false
  | .ok .conditionsFailed => .records false false
  | .ok (.skipped _) => .records false true
  | .ok .fire =>
    if actionsWellFormed a.val then .records true true else .raises (actionsBegin a.val)

def dueOutcome (env : Env) (a : Row Automation) (runs : Runs) : Outcome :=
  match scheduleOf a.val with
  | none => .idle
  | some schedule => match lastRunTime a.id runs with
    | none => outcome env [] a runs
    | some lastRun => match within schedule lastRun env.now with
      | .error _ => .raises false
      | .ok true => .idle
      | .ok false => outcome env [] a runs

/-- The run row records a dispatch exactly when its `actions_fired` is a list. -/
def AutomationRun.fired (r : AutomationRun) : Bool :=
  match r.actionsFired.read with
  | .arr _ => true
  | _ => false

structure RunOf (a : Row Automation) (dispatched passed : Bool) (run : AutomationRun) : Prop where
  automationId : run.automationId = a.id
  fired : run.fired = dispatched
  conditionsPassed : run.conditionsPassed = passed
  cell : ∃ v, run.actionsFired = .store v ∧ (v = .null ∨ ∃ l, v = .arr l)

/-- A session and exception that an outcome allows after `s`. -/
def Performed (now : Int) (a : Row Automation) (s : Session) (r : Session × Option PyErr) :
    Outcome → Prop
  | .raises d =>
    r.2.isSome ∧ r.1.runs = s.runs ∧ r.1.dispatched = s.dispatched ++ if d then [a.id] else []
  | .idle => r = (s, none)
  | .records d p =>
    r.2 = none ∧ r.1.dispatched = s.dispatched ++ (if d then [a.id] else []) ∧
      ∃ run, r.1.runs = s.runs.insert now run ∧ RunOf a d p run

/-- A loop body does what its outcomes say, and these depend on an automation's own runs. -/
structure Performs (now : Int) (body : Row Automation → Session → Session × Option PyErr)
    (verdict : Row Automation → Runs → Outcome) : Prop where
  own : ∀ a runs runs', ownRuns a.id runs = ownRuns a.id runs' → verdict a runs = verdict a runs'
  step : ∀ a s, Performed now a s (body a s) (verdict a s.runs.rows)

/-! ## The two loop bodies -/

section Bodies

variable {env : Env} {event : Dict}

theorem outcome_congr {a : Row Automation} {runs runs' : Runs}
    (h : ownRuns a.id runs = ownRuns a.id runs') :
    outcome env event a runs = outcome env event a runs' := by
  unfold outcome
  rw [decision_congr h]

theorem performed_evaluateAutomation (trigger : String) (a : Row Automation) (s : Session) :
    Performed env.now a s (evaluateAutomation env trigger event a s)
      (outcome env event a s.runs.rows) := by
  unfold outcome evaluateAutomation
  cases decision env event a s.runs.rows with
  | error e => exact ⟨rfl, rfl, (List.append_nil _).symm⟩
  | ok d =>
    cases d with
    | conditionsFailed =>
      exact ⟨rfl, (List.append_nil _).symm, _, rfl, rfl, rfl, rfl, _, rfl, .inl rfl⟩
    | skipped reason =>
      exact ⟨rfl, (List.append_nil _).symm, _, rfl, rfl, rfl, rfl, _, rfl, .inl rfl⟩
    | fire =>
      dsimp only
      rcases hr : dispatchActions env a.val event s.world with ⟨w, e | fired⟩
      · have hw : actionsWellFormed a.val = false := by
          rw [← Bool.not_eq_true, ← dispatchActions_ok_iff env a.val event s.world, hr]
          exact fun ⟨l, hl⟩ => nomatch hl
        rw [hw]
        exact ⟨rfl, rfl, rfl⟩
      · have hw : actionsWellFormed a.val = true := by
          rw [← dispatchActions_ok_iff env a.val event s.world, hr]
          exact ⟨fired, rfl⟩
        rw [hw, actionsBegin_of_wellFormed hw]
        exact ⟨rfl, rfl, _, rfl, rfl, rfl, rfl, _, rfl, .inr ⟨fired, rfl⟩⟩

theorem performs_evaluateAutomation (trigger : String) (event : Dict) :
    Performs env.now (evaluateAutomation env trigger event) (outcome env event) where
  own _ _ _ := outcome_congr
  step := performed_evaluateAutomation trigger

theorem lastRunTime_congr {id : Nat} {runs runs' : Runs} (h : ownRuns id runs = ownRuns id runs') :
    lastRunTime id runs = lastRunTime id runs' := by
  unfold lastRunTime
  rw [h]

theorem performs_evaluateDue : Performs env.now (evaluateDue env) (dueOutcome env) where
  own a runs runs' h := by
    unfold dueOutcome
    rw [lastRunTime_congr h, outcome_congr h]
  step a s := by
    unfold dueOutcome evaluateDue
    cases scheduleOf a.val with
    | none => exact rfl
    | some schedule =>
      cases lastRunTime a.id s.runs.rows with
      | none => exact performed_evaluateAutomation "periodic" a s
      | some lastRun =>
        dsimp only
        cases within schedule lastRun env.now with
        | error e => exact ⟨rfl, rfl, (List.append_nil _).symm⟩
        | ok early =>
          cases early with
          | true => exact rfl
          | false => exact performed_evaluateAutomation "periodic" a s

end Bodies

/-! ## The loop -/

section Loop

variable {now : Int} {body : Row Automation → Session → Session × Option PyErr}
  {verdict : Row Automation → Runs → Outcome} {s : Session} {as : List (Row Automation)}

theorem forEach_cons_none {α σ : Type} {body : α → σ → σ × Option PyErr} {a : α} {as : List α}
    {s : σ} (h : (body a s).2.isSome = false) :
    forEach body (a :: as) s = forEach body as (body a s).1 := by
  rw [forEach]
  split
  · next hr => rw [hr] at h; cases h
  · next hr => rw [hr]

theorem forEach_cons_some {α σ : Type} {body : α → σ → σ × Option PyErr} {a : α} {as : List α}
    {s : σ} (h : (body a s).2.isSome = true) : forEach body (a :: as) s = body a s := by
  rw [forEach]
  split
  · next hr => rw [hr]
  · next hr => rw [hr] at h; cases h

theorem ownRuns_append_other {id : Nat} {runs : Runs} {r : Row AutomationRun}
    (h : r.val.automationId ≠ id) : ownRuns id (runs ++ [r]) = ownRuns id runs := by
  unfold ownRuns
  rw [List.filter_append, List.filter_cons_of_neg (by simpa using h), List.filter_nil,
    List.append_nil]

theorem Performed.raised {a : Row Automation} {r : Session × Option PyErr} {o : Outcome}
    (h : Performed now a s r o) : r.2.isSome = o.isRaise := by
  cases o with
  | raises d => rw [h.1]; rfl
  | idle => cases h; rfl
  | records d p => rw [h.1]; rfl

theorem Performed.dispatched {a : Row Automation} {r : Session × Option PyErr} {o : Outcome}
    (h : Performed now a s r o) :
    r.1.dispatched = s.dispatched ++ if o.dispatches then [a.id] else [] := by
  cases o with
  | raises d => exact h.2.2
  | idle => cases h; exact (List.append_nil _).symm
  | records d p => exact h.2.1

theorem Performed.ownRuns_other {a : Row Automation} {r : Session × Option PyErr} {o : Outcome}
    (h : Performed now a s r o) {id : Nat} (hne : a.id ≠ id) :
    ownRuns id r.1.runs.rows = ownRuns id s.runs.rows := by
  cases o with
  | raises d => rw [h.2.1]
  | idle => cases h; rfl
  | records d p =>
    obtain ⟨-, -, run, hruns, hrun⟩ := h
    rw [hruns, Table.rows_insert]
    exact ownRuns_append_other (by rw [hrun.automationId]; exact hne)

/-- After a body, the outcomes of the automations still to come are those before it. -/
theorem Performs.outcomes_after (hb : Performs now body verdict) {v : Row Automation → Outcome}
    {a : Row Automation} (hv : ∀ b ∈ a :: as, verdict b s.runs.rows = v b)
    (hids : ((a :: as).map (·.id)).Nodup) :
    ∀ b ∈ as, verdict b (body a s).1.runs.rows = v b := by
  intro b hm
  have hne : a.id ≠ b.id := fun heq =>
    (List.nodup_cons.mp hids).1 (List.mem_map.mpr ⟨b, hm, heq.symm⟩)
  rw [← hv b (List.mem_cons_of_mem a hm)]
  exact hb.own b _ _ ((hb.step a s).ownRuns_other hne)

theorem map_filter_cons {v : Row Automation → Outcome} {a : Row Automation} :
    (((a :: as).filter fun a => (v a).dispatches).map (·.id)) =
      (if (v a).dispatches then [a.id] else []) ++
        (as.filter fun a => (v a).dispatches).map (·.id) := by
  cases h : (v a).dispatches <;> simp [h]

def Outcome.Added (now : Int) (a : Row Automation) (o : Outcome) (r : Row AutomationRun) : Prop :=
  r.createdAt = now ∧ ∃ d p, o = .records d p ∧ RunOf a d p r.val

theorem exists_added {v : Row Automation → Outcome} {new : Runs}
    (hall : List.Forall₂ (fun a r => (v a).Added now a r) as new) {a : Row Automation}
    (ha : a ∈ as) : ∃ r ∈ new, (v a).Added now a r := by
  induction hall with
  | nil => cases ha
  | cons hadd _ ih =>
    rcases List.mem_cons.mp ha with rfl | ha
    · exact ⟨_, List.mem_cons_self, hadd⟩
    · obtain ⟨r, hr, hadd⟩ := ih ha
      exact ⟨r, List.mem_cons_of_mem _ hr, hadd⟩

theorem Outcome.isRecord_of_dispatches {o : Outcome} (hraise : o.isRaise = false)
    (h : o.dispatches = true) : o.isRecord = true := by
  cases o with
  | raises d => cases hraise
  | idle => cases h
  | records d p => rfl

theorem forEach_quiet (hb : Performs now body verdict) (v : Row Automation → Outcome)
    (hv : ∀ a ∈ as, verdict a s.runs.rows = v a) (hids : (as.map (·.id)).Nodup)
    (hquiet : ∀ a ∈ as, (v a).isRaise = false) :
    (forEach body as s).2 = none ∧
    (forEach body as s).1.dispatched =
      s.dispatched ++ (as.filter fun a => (v a).dispatches).map (·.id) ∧
    ∃ new, (forEach body as s).1.runs.rows = s.runs.rows ++ new ∧
      List.Forall₂ (fun a r => (v a).Added now a r) (as.filter fun a => (v a).isRecord) new := by
  induction as generalizing s with
  | nil => exact ⟨rfl, (List.append_nil _).symm, [], (List.append_nil _).symm, .nil⟩
  | cons a as ih =>
    have hstep : Performed now a s (body a s) (v a) := by
      rw [← hv a List.mem_cons_self]
      exact hb.step a s
    have hnone : (body a s).2.isSome = false := by
      rw [hstep.raised]
      exact hquiet a List.mem_cons_self
    obtain ⟨herr, hdisp, new, hnew, hall⟩ := ih (hb.outcomes_after hv hids)
      (List.nodup_cons.mp hids).2 fun b hm => hquiet b (List.mem_cons_of_mem a hm)
    rw [hstep.dispatched, List.append_assoc, ← map_filter_cons] at hdisp
    rw [forEach_cons_none hnone]
    refine ⟨herr, hdisp, ?_⟩
    cases hva : v a with
    | raises d => exact absurd (hquiet a List.mem_cons_self) (by rw [hva]; nofun)
    | idle =>
      rw [hva] at hstep
      rw [List.filter_cons_of_neg (by rw [hva]; nofun)]
      have hsame : (body a s).1.runs = s.runs := by rw [hstep]
      exact ⟨new, by rw [hnew, hsame], hall⟩
    | records d p =>
      rw [hva] at hstep
      obtain ⟨-, -, run, hruns, hrun⟩ := hstep
      rw [List.filter_cons_of_pos (by rw [hva]; rfl)]
      refine ⟨⟨s.runs.nextId, now, run⟩ :: new, ?_, .cons ⟨rfl, d, p, hva, hrun⟩ hall⟩
      rw [hnew, hruns, Table.rows_insert, List.append_assoc, List.singleton_append]

/-- A loop in which some automation raises stops at the first that does. -/
theorem forEach_raised (hb : Performs now body verdict) (v : Row Automation → Outcome)
    (hv : ∀ a ∈ as, verdict a s.runs.rows = v a) (hids : (as.map (·.id)).Nodup)
    (hraise : ∃ a ∈ as, (v a).isRaise = true) :
    (forEach body as s).2.isSome ∧ ∃ l a l', as = l ++ a :: l' ∧
      (∀ b ∈ l, (v b).isRaise = false) ∧ (v a).isRaise = true ∧
      (forEach body as s).1.dispatched =
        s.dispatched ++ ((l ++ [a]).filter fun a => (v a).dispatches).map (·.id) := by
  induction as generalizing s with
  | nil => obtain ⟨a, ha, -⟩ := hraise; cases ha
  | cons a as ih =>
    have hstep : Performed now a s (body a s) (v a) := by
      rw [← hv a List.mem_cons_self]
      exact hb.step a s
    cases hva : (v a).isRaise with
    | true =>
      rw [forEach_cons_some (hstep.raised.trans hva)]
      refine ⟨hstep.raised.trans hva, [], a, as, rfl,
        fun b hb => absurd hb List.not_mem_nil, hva, ?_⟩
      rw [hstep.dispatched, List.nil_append, map_filter_cons, List.filter_nil, List.map_nil,
        List.append_nil]
    | false =>
      have hraise' : ∃ b ∈ as, (v b).isRaise = true := by
        obtain ⟨b, hm, hb'⟩ := hraise
        rcases List.mem_cons.mp hm with rfl | hm
        · rw [hva] at hb'; cases hb'
        · exact ⟨b, hm, hb'⟩
      obtain ⟨hsome, l, b, l', rfl, hl, hb', hdisp⟩ := ih (hb.outcomes_after hv hids)
        (List.nodup_cons.mp hids).2 hraise'
      rw [forEach_cons_none (hstep.raised.trans hva)]
      refine ⟨hsome, a :: l, b, l', rfl, List.forall_mem_cons.mpr ⟨hva, hl⟩, hb', ?_⟩
      rw [hdisp, hstep.dispatched, List.append_assoc, ← map_filter_cons, List.cons_append]

end Loop

end Taskowl
