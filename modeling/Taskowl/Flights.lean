import Taskowl.Concurrent
import Taskowl.Ingest
import Taskowl.Outbox

/-!
# Evaluations in flight

While coroutines of the consumer evaluate automations, the API and the
retention loop commit transactions of their own. A coroutine evaluates the
automations it has loaded, whatever becomes of them, reads the run log anew for
each check, and commits its records at its end, all or none. So the log is that
of the coroutines which have committed, one after another; each record is of an
automation that was there, enabled and triggered when its coroutine started,
and rests on what the coroutine saw; and what is sent is sent for such a one.
-/

namespace Taskowl

open Lib Py

/-! ## The coroutines and the tables they share -/

/-- A coroutine in `_evaluate_event` or `_evaluate_periodic`. -/
structure Flight where
  evaluation : Evaluation
  periodic : Bool
  /-- The schedule of the automation at the head has let it through. -/
  due : Bool := false

/-- The schedule and `_last_run_time` of the automation at the head: whether it is due, or passed
over. -/
def Evaluation.checkDue (committed : Table AutomationRun) (e : Evaluation) (a : Row Automation) :
    Bool × Evaluation :=
  let passed := { e with todo := e.todo.tail }
  match scheduleOf a.val with
  | none => (false, passed)
  | some schedule => match lastRunTime a.id (e.view committed).rows with
    | none => (true, e)
    | some last => match within schedule last e.now with
      | .error _ => (false, e.fail)
      | .ok true => (false, passed)
      | .ok false => (true, e)

/-- From one await to the next, with whether the automation at the head is due. -/
def Flight.move (env : Env) (committed : Table AutomationRun) (w : World) (f : Flight) :
    Bool × Yield :=
  match f.evaluation.todo, f.evaluation.stage with
  | a :: _, .conditions =>
    if f.periodic && !f.due then
      let (due, e) := f.evaluation.checkDue committed a
      (due, ⟨e, committed, w, none⟩)
    else (false, f.evaluation.advance env committed w a)
  | _, _ => (false, f.evaluation.move env committed w)

/-- What other transactions commit: the row of an event, an edit of the automations, a prune. -/
inductive Write where
  | insert (lib : PyLib) (d : Delivery)
  | create (now : Int) (data : Dict)
  | update (now : Int) (id : Nat) (data : Dict)
  | toggle (now : Int) (id : Nat)
  | seed (settings : Settings) (now : Int)
  | prune (events runs : Option Int)

def Write.apply (db : Db) : Write → Db
  | .insert lib d => ingest lib db d
  | .create now data => (createAutomation now data db).1
  | .update now id data => (updateAutomation now id data db).1
  | .toggle now id => (toggleAutomation now id db).1
  | .seed settings now => (seedBuiltinAutomations settings now db).1
  | .prune events runs => db.prune events runs

/-- An open `delete_automation`, with the ids of the runs that its second DELETE has found. -/
structure Deletion where
  id : Nat
  runs : List Nat

/-- The tables, the process, and the coroutines and deletes that have started. -/
structure InFlight where
  db : Db
  world : World := {}
  clock : Int := 0
  flights : List Flight := []
  deletions : List Deletion := []
  /-- The coroutines that have committed, in order. -/
  commits : List Nat := []
  /-- The dispatches begun: the coroutine and the automation. -/
  log : List (Nat × Nat) := []

inductive FlightTurn where
  | wait (elapsed : Nat)
  /-- An event's row is stored, and its coroutine loads the automations, in scan order. -/
  | event (eventType : String) (event : Dict) (scan : Scan)
  /-- The periodic loop starts a turn. -/
  | periodic (scan : Scan)
  /-- The coroutine at an index runs to its next await. -/
  | resume (i : Nat) (env : Env) (scan : Scan)
  /-- It is cancelled, or loses its database connection. -/
  | abort (i : Nat)
  | write (w : Write)
  | startDelete (id : Nat)
  | commitDelete (j : Nat)
  | abortDelete (j : Nat)

namespace InFlight

/-- The coroutine a turn starts, with the automations it loads. -/
def started (s : InFlight) : FlightTurn → Option Flight
  | .event eventType event scan =>
    let todo := (scan.order s.db.automations.rows).filter (matchesEvent eventType)
    some { evaluation := { eventType, event, now := s.clock, todo }, periodic := false }
  | .periodic scan =>
    let todo := (scan.order s.db.automations.rows).filter matchesPeriodic
    some { evaluation := { eventType := "periodic", event := [], now := s.clock, todo }
           periodic := true }
  | _ => none

/-- What a coroutine reads with. -/
def env (s : InFlight) (lib : PyLib) (env : Env) (scan : Scan) : Env :=
  Env.reading { env with lib := lib, now := s.clock } scan s.db

def put (s : InFlight) (i : Nat) (f : Flight) (r : Bool × Yield) : InFlight where
  db := { s.db with runs := r.2.committed }
  world := r.2.world
  clock := s.clock
  flights := s.flights.set i ⟨r.2.evaluation, f.periodic, r.1⟩
  deletions := s.deletions
  commits := s.commits ++ if f.evaluation.todo.isEmpty then [i] else []
  log := s.log ++ r.2.dispatched.toList.map fun id => (i, id)

def step (lib : PyLib) (s : InFlight) (t : FlightTurn) : InFlight :=
  match t with
  | .wait elapsed => { s with clock := s.clock + elapsed }
  | .event eventType event _ =>
    { s with world := markOnlineOf eventType event s.world
             flights := s.flights ++ (s.started t).toList }
  | .periodic _ => { s with flights := s.flights ++ (s.started t).toList }
  | .resume i env scan => match s.flights[i]? with
    | none => s
    | some f =>
      if f.evaluation.finished then s
      else s.put i f (f.move (s.env lib env scan) s.db.runs s.world)
  | .abort i => match s.flights[i]? with
    | none => s
    | some f =>
      if f.evaluation.finished then s
      else { s with flights := s.flights.set i { f with evaluation := f.evaluation.fail } }
  | .write w => { s with db := w.apply s.db }
  | .startDelete id => match s.db.automations.get? id with
    | none => s
    | some _ =>
      { s with deletions := s.deletions ++ [⟨id, (ownRuns id s.db.runs.rows).map (·.id)⟩] }
  | .commitDelete j => match s.deletions[j]? with
    | none => s
    | some d =>
      { s with
        db := { s.db with automations := s.db.automations.deleteWhere (·.id == d.id)
                          runs := s.db.runs.deleteWhere fun r => d.runs.contains r.id }
        deletions := s.deletions.eraseIdx j }
  | .abortDelete j => { s with deletions := s.deletions.eraseIdx j }

end InFlight

/-! ## What a coroutine records -/

section Records

variable (lib : PyLib) (event : Dict) (now : Int) (a : Row Automation) (seen : Runs → Prop)

/-- The conditions hold, and each limit lets the automation through on runs the coroutine saw. -/
structure LetThrough : Prop where
  conditions : conditionsPassed lib event a.val = .ok true
  breaker : ∃ runs, seen runs ∧ checkCircuitBreaker a now runs = .ok none
  cooldown : ∃ runs, seen runs ∧ coolingDown a now runs = .ok false
  limit : ∃ runs, seen runs ∧ overLimit a now runs = .ok false

/-- The first actions of the automation have been dispatched, the others are left. -/
structure Dispatching (left fired : List Json) : Prop where
  letThrough : LetThrough lib event now a seen
  fired : ∃ before, (a.val.actions.read.or (.arr [])).iter = .ok (before ++ left) ∧
    before.all isObj = true ∧ fired.map typeOf = (before.filter supportedAction).map typeOf

/-- What the checks before a stage have found. -/
def Passed : Stage → Prop
  | .conditions => True
  | .breaker => conditionsPassed lib event a.val = .ok true
  | .cooldown => conditionsPassed lib event a.val = .ok true ∧
    ∃ runs, seen runs ∧ checkCircuitBreaker a now runs = .ok none
  | .limit => (conditionsPassed lib event a.val = .ok true ∧
    ∃ runs, seen runs ∧ checkCircuitBreaker a now runs = .ok none) ∧
    ∃ runs, seen runs ∧ coolingDown a now runs = .ok false
  | .dispatch left fired => Dispatching lib event now a seen left fired

/-- What an evaluation of the automation may record: the verdict on its conditions, the fired list
and the skip reason, each as the runs it saw at that check demand. -/
inductive FlightVerdict : Bool → Json → Option Skip → Prop
  | failed (hconditions : conditionsPassed lib event a.val = .ok false) :
    FlightVerdict false .null none
  | circuitOpen {runs : Runs} {reason : Skip}
      (hconditions : conditionsPassed lib event a.val = .ok true) (hseen : seen runs)
      (hreason : checkCircuitBreaker a now runs = .ok (some reason)) :
    FlightVerdict true .null (some reason)
  | cooldown {runs : Runs} (hconditions : conditionsPassed lib event a.val = .ok true)
      (hseen : seen runs) (hreason : coolingDown a now runs = .ok true) :
    FlightVerdict true .null (some .cooldown)
  | rateLimited {runs : Runs} (hconditions : conditionsPassed lib event a.val = .ok true)
      (hseen : seen runs) (hreason : overLimit a now runs = .ok true) :
    FlightVerdict true .null (some .rateLimited)
  | fired {actions entries : List Json} (hthrough : LetThrough lib event now a seen)
      (hactions : (a.val.actions.read.or (.arr [])).iter = .ok actions)
      (hobj : actions.all isObj = true)
      (hentries : entries.map typeOf = (actions.filter supportedAction).map typeOf) :
    FlightVerdict true (.arr entries) none

/-- The run of such an evaluation. -/
def RecordOf (trigger : String) (r : AutomationRun) : Prop :=
  ∃ passed fired skipped, FlightVerdict lib event now a seen passed fired skipped ∧
    r = runOf trigger event a passed fired skipped

end Records

section Advance

variable {env : Env} {committed : Table AutomationRun} {w : World} {e : Evaluation}
  {a : Row Automation} {event : Dict} {now : Int} {lib : PyLib} {seen seen' : Runs → Prop}

theorem LetThrough.mono (hmono : ∀ runs, seen runs → seen' runs)
    (h : LetThrough lib event now a seen) : LetThrough lib event now a seen' where
  conditions := h.conditions
  breaker := h.breaker.imp fun runs => And.imp_left (hmono runs)
  cooldown := h.cooldown.imp fun runs => And.imp_left (hmono runs)
  limit := h.limit.imp fun runs => And.imp_left (hmono runs)

theorem Passed.mono (hmono : ∀ runs, seen runs → seen' runs) {stage : Stage}
    (h : Passed lib event now a seen stage) : Passed lib event now a seen' stage := by
  have hex : ∀ {P : Runs → Prop}, (∃ runs, seen runs ∧ P runs) → ∃ runs, seen' runs ∧ P runs :=
    fun ⟨runs, hseen, hruns⟩ => ⟨runs, hmono runs hseen, hruns⟩
  cases stage with
  | conditions => exact h
  | breaker => exact h
  | cooldown => exact ⟨h.1, hex h.2⟩
  | limit => exact ⟨⟨h.1.1, hex h.1.2⟩, hex h.2⟩
  | dispatch left fired =>
    have hd : Dispatching lib event now a seen left fired := h
    exact ⟨hd.letThrough.mono hmono, hd.fired⟩

theorem RecordOf.mono (hmono : ∀ runs, seen runs → seen' runs) {trigger : String}
    {r : AutomationRun} (h : RecordOf lib event now a seen trigger r) :
    RecordOf lib event now a seen' trigger r := by
  obtain ⟨passed, fired, skipped, hverdict, rfl⟩ := h
  refine ⟨passed, fired, skipped, ?_, rfl⟩
  cases hverdict with
  | failed hconditions => exact .failed hconditions
  | circuitOpen hconditions hseen hreason =>
    exact .circuitOpen hconditions (hmono _ hseen) hreason
  | cooldown hconditions hseen hreason => exact .cooldown hconditions (hmono _ hseen) hreason
  | rateLimited hconditions hseen hreason =>
    exact .rateLimited hconditions (hmono _ hseen) hreason
  | fired hthrough hactions hobj hentries =>
    exact .fired (hthrough.mono hmono) hactions hobj hentries

theorem Dispatching.next {action : Dict} {left fired fired' : List Json}
    (h : Dispatching lib event now a seen (.obj action :: left) fired)
    (hfired : fired'.map typeOf = fired.map typeOf ++
      ([Json.obj action].filter supportedAction).map typeOf) :
    Dispatching lib event now a seen left fired' := by
  obtain ⟨before, hactions, hobj, hbefore⟩ := h.fired
  refine ⟨h.letThrough, before ++ [.obj action], ?_, ?_, ?_⟩
  · rw [hactions, List.append_assoc]
    rfl
  · rw [List.all_append, hobj]
    rfl
  · rw [hfired, hbefore, List.filter_append, List.map_append]

inductive Advanced (lib : PyLib) (seen : Runs → Prop) (a : Row Automation) (e : Evaluation) :
    Evaluation → Prop
  | stays (stage : Stage) (hpassed : Passed lib e.event e.now a seen stage) :
    Advanced lib seen a e { e with stage }
  | records {r : AutomationRun} (hrecord : RecordOf lib e.event e.now a seen e.eventType r) :
    Advanced lib seen a e (e.record r)
  | fails : Advanced lib seen a e e.fail

theorem advance_advanced (hseen : seen (e.view committed).rows)
    (hpassed : Passed env.lib e.event e.now a seen e.stage) :
    Advanced env.lib seen a e (e.advance env committed w a).evaluation := by
  unfold Evaluation.advance
  cases hstage : e.stage with
  | conditions =>
    dsimp only
    cases hconditions : conditionsPassed env.lib e.event a.val with
    | error error => exact .fails
    | ok passed =>
      cases passed with
      | false => exact .records ⟨_, _, _, .failed hconditions, rfl⟩
      | true => exact .stays .breaker hconditions
  | breaker =>
    rw [hstage] at hpassed
    dsimp only
    cases hreason : checkCircuitBreaker a e.now (e.view committed).rows with
    | error error => exact .fails
    | ok reason =>
      cases reason with
      | some reason => exact .records ⟨_, _, _, .circuitOpen hpassed hseen hreason, rfl⟩
      | none => exact .stays .cooldown ⟨hpassed, _, hseen, hreason⟩
  | cooldown =>
    rw [hstage] at hpassed
    dsimp only
    cases hreason : coolingDown a e.now (e.view committed).rows with
    | error error => exact .fails
    | ok reason =>
      cases reason with
      | true => exact .records ⟨_, _, _, .cooldown hpassed.1 hseen hreason, rfl⟩
      | false => exact .stays .limit ⟨hpassed, _, hseen, hreason⟩
  | limit =>
    rw [hstage] at hpassed
    obtain ⟨⟨hconditions, hbreaker⟩, hcooldown⟩ := hpassed
    dsimp only
    cases hreason : overLimit a e.now (e.view committed).rows with
    | error error => exact .fails
    | ok reason =>
      cases reason with
      | true => exact .records ⟨_, _, _, .rateLimited hconditions hseen hreason, rfl⟩
      | false =>
        dsimp only
        cases hactions : (a.val.actions.read.or (.arr [])).iter with
        | error error => exact .fails
        | ok actions =>
          have hthrough : LetThrough env.lib e.event e.now a seen :=
            ⟨hconditions, hbreaker, hcooldown, _, hseen, hreason⟩
          exact .stays (.dispatch actions []) ⟨hthrough, [], hactions, rfl, rfl⟩
  | dispatch left fired =>
    rw [hstage] at hpassed
    have hdispatching : Dispatching env.lib e.event e.now a seen left fired := hpassed
    dsimp only
    cases left with
    | nil =>
      obtain ⟨before, hactions, hobj, hfired⟩ := hdispatching.fired
      rw [List.append_nil] at hactions
      exact .records ⟨_, _, _, .fired hdispatching.letThrough hactions hobj hfired, rfl⟩
    | cons action left =>
      cases action with
      | obj action =>
        have hsome : (fireAction env a.val e.event action w (Dict.get action "type")).isSome =
            supportedAction (.obj action) := fireAction_isSome _
        dsimp only
        cases hfire : fireAction env a.val e.event action w (Dict.get action "type") with
        | none =>
          rw [hfire] at hsome
          refine .stays (.dispatch left fired) (hdispatching.next ?_)
          have hunsupported : ¬ supportedAction (.obj action) = true := by
            rw [← hsome]
            exact Bool.false_ne_true
          rw [List.filter_cons_of_neg hunsupported]
          exact (List.append_nil _).symm
        | some fire =>
          rw [hfire] at hsome
          have hnext : ∀ entry, typeOf entry = Dict.get action "type" →
              Dispatching env.lib e.event e.now a seen left (fired ++ [entry]) := by
            intro entry hentry
            refine hdispatching.next ?_
            rw [List.filter_cons_of_pos hsome.symm, List.map_append, List.map_singleton, hentry]
            rfl
          obtain ⟨w', result⟩ := fire
          cases result with
          | error error => exact .stays (.dispatch left _) (hnext _ rfl)
          | ok result =>
            exact .stays (.dispatch left _) (hnext _ (typeOf_entry (untyped_fireAction hfire)))
      | _ => exact .fails

/-- Only a dispatch sends, and it sends what the action at hand does. -/
theorem leaves_advance : Leaves (fun es => es = [] ∨ ∃ action left fired,
      e.stage = .dispatch (.obj action :: left) fired ∧ ActionSends env e.event action es)
    w (e.advance env committed w a).world := by
  unfold Evaluation.advance
  cases hstage : e.stage with
  | conditions => dsimp only; split <;> exact .none rfl (.inl rfl)
  | breaker => dsimp only; split <;> exact .none rfl (.inl rfl)
  | cooldown => dsimp only; split <;> exact .none rfl (.inl rfl)
  | limit =>
    dsimp only
    split
    · exact .none rfl (.inl rfl)
    · exact .none rfl (.inl rfl)
    · split <;> exact .none rfl (.inl rfl)
  | dispatch left fired =>
    dsimp only
    split
    · exact .none rfl (.inl rfl)
    · next action left =>
      split
      · exact .none rfl (.inl rfl)
      · next hfire =>
        exact (leaves_fireAction hfire).mono fun es hes => .inr ⟨action, left, fired, rfl, hes⟩
      · next hfire =>
        exact (leaves_fireAction hfire).mono fun es hes => .inr ⟨action, left, fired, rfl, hes⟩
    · exact .none rfl (.inl rfl)

theorem committed_advance : (e.advance env committed w a).committed = committed := by
  unfold Evaluation.advance
  cases e.stage with
  | conditions => dsimp only; split <;> rfl
  | breaker => dsimp only; split <;> rfl
  | cooldown => dsimp only; split <;> rfl
  | limit => dsimp only; split <;> first | rfl | (split <;> rfl)
  | dispatch left fired => dsimp only; split <;> first | rfl | (split <;> rfl)

end Advance

/-! ## What a coroutine makes of the automations it has loaded -/

/-- The coroutine has evaluated the automation, which was due if that is asked. -/
structure Evaluated (lib : PyLib) (seen : Runs → Prop) (f : Flight) (a : Row Automation)
    (r : AutomationRun) : Prop where
  record : RecordOf lib f.evaluation.event f.evaluation.now a seen f.evaluation.eventType r
  due : f.periodic = true → ∃ runs, seen runs ∧ DueOn f.evaluation.now a runs

/-- The coroutine goes by what it began with: it has evaluated the automations before the ones left,
in order, and passed over those of them only that were not due. -/
structure Follows (lib : PyLib) (seen : Runs → Prop) (begun f : Flight) : Prop where
  trigger : f.evaluation.eventType = begun.evaluation.eventType
  event : f.evaluation.event = begun.evaluation.event
  now : f.evaluation.now = begun.evaluation.now
  periodic : f.periodic = begun.periodic
  records : ∃ before kept, begun.evaluation.todo = before ++ f.evaluation.todo ∧
    kept.Sublist before ∧ (f.periodic = false → kept = before) ∧
    List.Forall₂ (Evaluated lib seen f) kept f.evaluation.added
  stage : ∀ a rest, f.evaluation.todo = a :: rest →
    Passed lib f.evaluation.event f.evaluation.now a seen f.evaluation.stage
  due : f.periodic = true → f.due = true ∨ f.evaluation.stage ≠ .conditions →
    ∀ a rest, f.evaluation.todo = a :: rest → ∃ runs, seen runs ∧ DueOn f.evaluation.now a runs

def Flight.after (f : Flight) (r : Bool × Yield) : Flight := ⟨r.2.evaluation, f.periodic, r.1⟩

section Follows

variable {env : Env} {committed : Table AutomationRun} {w : World} {lib : PyLib}
  {seen seen' : Runs → Prop} {begun f : Flight} {a : Row Automation} {rest : List (Row Automation)}

theorem Follows.mono (hmono : ∀ runs, seen runs → seen' runs) (h : Follows lib seen begun f) :
    Follows lib seen' begun f where
  trigger := h.trigger
  event := h.event
  now := h.now
  periodic := h.periodic
  records := by
    obtain ⟨before, kept, htodo, hkept, hall, hrecords⟩ := h.records
    refine ⟨before, kept, htodo, hkept, hall, hrecords.imp fun a r hr => ⟨hr.record.mono hmono, ?_⟩⟩
    exact fun hp => (hr.due hp).imp fun runs => And.imp_left (hmono runs)
  stage a rest htodo := (h.stage a rest htodo).mono hmono
  due hp hd a rest htodo := (h.due hp hd a rest htodo).imp fun runs => And.imp_left (hmono runs)

theorem Follows.pass (h : Follows lib seen begun f) (hperiodic : f.periodic = true)
    (hstage : f.evaluation.stage = .conditions) (htodo : f.evaluation.todo = a :: rest) :
    Follows lib seen begun
      ⟨{ f.evaluation with todo := f.evaluation.todo.tail }, f.periodic, false⟩ where
  trigger := h.trigger
  event := h.event
  now := h.now
  periodic := h.periodic
  records := by
    obtain ⟨before, kept, hbegun, hkept, -, hrecords⟩ := h.records
    refine ⟨before ++ [a], kept, ?_, hkept.trans (List.sublist_append_left _ _), ?_, ?_⟩
    · rw [hbegun, htodo, List.append_assoc]
      rfl
    · intro hf
      exact absurd (hperiodic.symm.trans hf) Bool.noConfusion
    · exact hrecords.imp fun a r hr => ⟨hr.record, hr.due⟩
  stage a' rest' _ := by
    dsimp only
    rw [hstage]
    trivial
  due _ hd := by
    rcases hd with hd | hd
    · exact Bool.noConfusion hd
    · exact absurd hstage hd

theorem Follows.advanced {e : Evaluation} (h : Follows lib seen begun f)
    (htodo : f.evaluation.todo = a :: rest)
    (hdue : f.periodic = true → ∃ runs, seen runs ∧ DueOn f.evaluation.now a runs)
    (he : Advanced lib seen a f.evaluation e) :
    Follows lib seen begun ⟨e, f.periodic, false⟩ ∧ e.finished = f.evaluation.finished ∨
      e = f.evaluation.fail := by
  obtain ⟨before, kept, hbegun, hkept, hall, hrecords⟩ := h.records
  cases he with
  | stays stage hpassed =>
    refine .inl ⟨⟨h.trigger, h.event, h.now, h.periodic, ?_, ?_, ?_⟩, rfl⟩
    · exact ⟨before, kept, hbegun, hkept, hall, hrecords.imp fun a r hr => ⟨hr.record, hr.due⟩⟩
    · intro a' rest' htodo'
      cases htodo.symm.trans htodo'
      exact hpassed
    · intro hp _ a' rest' htodo'
      cases htodo.symm.trans htodo'
      exact hdue hp
  | @records r hrecord =>
    refine .inl ⟨⟨h.trigger, h.event, h.now, h.periodic, ?_, ?_, ?_⟩, rfl⟩
    · refine ⟨before ++ [a], kept ++ [a], ?_, hkept.append (List.Sublist.refl _), ?_, ?_⟩
      · show begun.evaluation.todo = before ++ [a] ++ f.evaluation.todo.tail
        rw [hbegun, htodo, List.append_assoc]
        rfl
      · intro hf
        rw [hall hf]
      · show List.Forall₂ _ (kept ++ [a]) (f.evaluation.added ++ [r])
        refine List.rel_append (hrecords.imp fun a r hr => ⟨hr.record, hr.due⟩) ?_
        exact .cons ⟨hrecord, hdue⟩ .nil
    · intro a' rest' _
      trivial
    · intro hp hd
      rcases hd with hd | hd
      · exact Bool.noConfusion hd
      · exact absurd rfl hd
  | fails => exact .inr rfl

theorem checkDue_cases (committed : Table AutomationRun) (e : Evaluation) (a : Row Automation) :
    e.checkDue committed a = (false, { e with todo := e.todo.tail }) ∨
      e.checkDue committed a = (true, e) ∧ DueOn e.now a (e.view committed).rows ∨
      e.checkDue committed a = (false, e.fail) := by
  unfold Evaluation.checkDue
  cases hschedule : scheduleOf a.val with
  | none => exact .inl rfl
  | some schedule =>
    dsimp only
    cases hlast : lastRunTime a.id (e.view committed).rows with
    | none => exact .inr (.inl ⟨rfl, schedule, hschedule, by rw [hlast]; nofun⟩)
    | some last =>
      dsimp only
      cases hwithin : within schedule last e.now with
      | error error => exact .inr (.inr rfl)
      | ok early =>
        cases early with
        | true => exact .inl rfl
        | false =>
          refine .inr (.inl ⟨rfl, schedule, hschedule, fun last' hlast' => ?_⟩)
          cases hlast.symm.trans hlast'
          exact le_of_within hwithin

theorem move_nil (htodo : f.evaluation.todo = []) : f.move env committed w =
    (false, ⟨{ f.evaluation with finished := true }, f.evaluation.view committed, w, none⟩) := by
  obtain ⟨⟨eventType, event, now, todo, stage, added, finished⟩, periodic, due⟩ := f
  cases htodo
  cases stage <;> rfl

theorem move_cons (htodo : f.evaluation.todo = a :: rest) :
    f.periodic = true ∧ f.due = false ∧ f.evaluation.stage = .conditions ∧
        f.move env committed w = ((f.evaluation.checkDue committed a).1,
          ⟨(f.evaluation.checkDue committed a).2, committed, w, none⟩) ∨
      (f.periodic = true → f.due = true ∨ f.evaluation.stage ≠ .conditions) ∧
        f.move env committed w = (false, f.evaluation.advance env committed w a) := by
  unfold Flight.move Evaluation.move
  rw [htodo]
  cases hstage : f.evaluation.stage with
  | conditions =>
    dsimp only
    cases hperiodic : f.periodic with
    | false => exact .inr ⟨nofun, rfl⟩
    | true =>
      cases hdue : f.due with
      | false => exact .inl ⟨rfl, rfl, rfl, rfl⟩
      | true => exact .inr ⟨fun _ => .inl rfl, rfl⟩
  | breaker => exact .inr ⟨fun _ => .inr Stage.noConfusion, rfl⟩
  | cooldown => exact .inr ⟨fun _ => .inr Stage.noConfusion, rfl⟩
  | limit => exact .inr ⟨fun _ => .inr Stage.noConfusion, rfl⟩
  | dispatch left fired => exact .inr ⟨fun _ => .inr Stage.noConfusion, rfl⟩

theorem Follows.move (env : Env) (w : World) (hseen : seen (f.evaluation.view committed).rows)
    (h : Follows env.lib seen begun f) (htodo : f.evaluation.todo = a :: rest) :
    (Follows env.lib seen begun (f.after (f.move env committed w)) ∧
      (f.after (f.move env committed w)).evaluation.finished = f.evaluation.finished ∨
      (f.after (f.move env committed w)).evaluation = f.evaluation.fail) ∧
    (f.move env committed w).2.committed = committed := by
  rcases move_cons htodo with ⟨hperiodic, hdue, hstage, hmove⟩ | ⟨hdue, hmove⟩
  · rw [hmove]
    refine ⟨?_, rfl⟩
    unfold Flight.after
    rcases checkDue_cases committed f.evaluation a with hr | ⟨hr, hd⟩ | hr <;> rw [hr]
    · exact .inl ⟨h.pass hperiodic hstage htodo, rfl⟩
    · refine .inl ⟨⟨h.trigger, h.event, h.now, h.periodic, ?_, h.stage, ?_⟩, rfl⟩
      · obtain ⟨before, kept, hbegun, hkept, hall, hrecords⟩ := h.records
        exact ⟨before, kept, hbegun, hkept, hall,
          hrecords.imp fun a r hr => ⟨hr.record, hr.due⟩⟩
      · intro _ _ a' rest' htodo'
        cases htodo.symm.trans htodo'
        exact ⟨_, hseen, hd⟩
    · exact .inr rfl
  · rw [hmove]
    refine ⟨?_, committed_advance⟩
    exact h.advanced htodo (fun hp => h.due hp (hdue hp) a rest htodo)
      (advance_advanced hseen (h.stage a rest htodo))

end Follows

/-! ## Whole runs -/

namespace InFlight

def start (db : Db) (clock : Int) : InFlight := { db, clock }

def after (lib : PyLib) (db : Db) (clock : Int) (turns : List FlightTurn) : InFlight :=
  run (step lib) (start db clock) turns

/-- The records a coroutine holds or has committed. -/
def added (s : InFlight) (i : Nat) : List AutomationRun :=
  (s.flights[i]?.map (·.evaluation.added)).getD []

/-- The run logs that the coroutine's transaction has shown at some time. -/
def Seen (lib : PyLib) (db : Db) (clock : Int) (turns : List FlightTurn) (i : Nat) (runs : Runs) :
    Prop :=
  ∃ earlier later f, turns = earlier ++ later ∧
    (after lib db clock earlier).flights[i]? = some f ∧
    runs = (f.evaluation.view (after lib db clock earlier).db.runs).rows

/-- The coroutine follows what it began with, and ends by committing or by leaving nothing. -/
structure Tracked (lib : PyLib) (seen : Runs → Prop) (begun f : Flight) (committed : Prop) :
    Prop where
  follows : f.evaluation.finished = false ∨ committed → Follows lib seen begun f
  ends : committed → f.evaluation.finished = true ∧ f.evaluation.todo = []
  leaves : f.evaluation.finished = true → ¬ committed → f.evaluation.added = []

/-- What a turn sends: nothing, or what the action at hand does, of the automation at the head of
the coroutine. -/
inductive TurnSends (lib : PyLib) (db : Db) (clock : Int) (earlier : List FlightTurn) :
    FlightTurn → List Effect → Prop
  | nothing (t : FlightTurn) : TurnSends lib db clock earlier t []
  | action {i : Nat} {env : Env} {scan : Scan} {f : Flight} {a : Row Automation}
      {rest : List (Row Automation)} {action : Dict} {left fired : List Json} {es : List Effect}
      (hf : (after lib db clock earlier).flights[i]? = some f)
      (hopen : f.evaluation.finished = false) (htodo : f.evaluation.todo = a :: rest)
      (hstage : f.evaluation.stage = .dispatch (.obj action :: left) fired)
      (hdispatching : Dispatching lib f.evaluation.event f.evaluation.now a
        (Seen lib db clock earlier i) (.obj action :: left) fired)
      (hsends : ActionSends ((after lib db clock earlier).env lib env scan) f.evaluation.event
        action es) : TurnSends lib db clock earlier (.resume i env scan) es

/-- The rows of the log that a turn deletes: those from before the cutoff of a prune, or those an
open delete has found. -/
def deletes (s : InFlight) : FlightTurn → Row AutomationRun → Bool
  | .write (.prune _ (some cutoff)), r => decide (r.createdAt < cutoff)
  | .commitDelete j, r => s.deletions[j]?.any fun d => d.runs.contains r.id
  | _, _ => false

/-- A turn has deleted the row, which had been written by then: ids are given out in order. -/
def erased (lib : PyLib) (s : InFlight) : List FlightTurn → Row AutomationRun → Bool
  | [], _ => false
  | t :: turns, r =>
    decide (r.id < s.db.runs.nextId) && s.deletes t r || erased lib (s.step lib t) turns r

/-- The log if nothing were deleted: the coroutines that have committed write their records, one
after another. -/
def history (s : InFlight) (first : Table AutomationRun) : Table AutomationRun :=
  s.commits.foldl (fun t i => (s.flights[i]?.map (·.evaluation.view t)).getD t) first

structure Coroutines (lib : PyLib) (db : Db) (clock : Int) (turns : List FlightTurn) : Prop where
  /-- Each coroutine goes by the automations that were enabled and triggered when it started. -/
  flights : ∀ i f, (after lib db clock turns).flights[i]? = some f → ∃ earlier t later begun,
    turns = earlier ++ t :: later ∧ (after lib db clock earlier).flights.length = i ∧
    (after lib db clock earlier).started t = some begun ∧
    Tracked lib (Seen lib db clock turns i) begun f (i ∈ (after lib db clock turns).commits)
  /-- A coroutine commits once. -/
  commits : (after lib db clock turns).commits.Nodup ∧
    ∀ i ∈ (after lib db clock turns).commits, i < (after lib db clock turns).flights.length

/-- What holds of evaluations in flight. -/
structure Sound (lib : PyLib) (db : Db) (clock : Int) (turns : List FlightTurn) : Prop
    extends Coroutines lib db clock turns where
  /-- The log is that of the commits, one after another, less what was deleted. -/
  log : (after lib db clock turns).db.runs.rows =
    ((after lib db clock turns).history db.runs).rows.filter
      fun r => !erased lib (start db clock) turns r
  /-- A turn sends what a dispatch does that every check let through, and nothing else. -/
  outbox : ∀ earlier t later, turns = earlier ++ t :: later →
    Leaves (TurnSends lib db clock earlier t) (after lib db clock earlier).world
      (after lib db clock (earlier ++ [t])).world

section Steps

variable {lib : PyLib} {db : Db} {clock : Int} {turns : List FlightTurn} {t : FlightTurn}
  {s : InFlight} {i j : Nat} {f f' : Flight}

theorem after_snoc : after lib db clock (turns ++ [t]) = (after lib db clock turns).step lib t := by
  unfold after
  rw [run_append]
  rfl

theorem Seen.mono {runs : Runs} (h : Seen lib db clock turns i runs) :
    Seen lib db clock (turns ++ [t]) i runs := by
  obtain ⟨earlier, later, f, rfl, hf, hruns⟩ := h
  exact ⟨earlier, later ++ [t], f, by rw [List.append_assoc], hf, hruns⟩

theorem seen_now (hf : (after lib db clock turns).flights[i]? = some f) :
    Seen lib db clock turns i (f.evaluation.view (after lib db clock turns).db.runs).rows :=
  ⟨turns, [], f, (List.append_nil _).symm, hf, rfl⟩

/-- Other transactions add no runs, and only a prune deletes any. -/
theorem runs_write (s : InFlight) (w : Write) : (w.apply s.db).runs.rows =
      s.db.runs.rows.filter (fun r => !s.deletes (.write w) r) ∧
    (w.apply s.db).runs.nextId = s.db.runs.nextId := by
  have hsame : (w.apply s.db).runs = s.db.runs → (∀ r, s.deletes (.write w) r = false) →
      (w.apply s.db).runs.rows = s.db.runs.rows.filter (fun r => !s.deletes (.write w) r) ∧
        (w.apply s.db).runs.nextId = s.db.runs.nextId := by
    intro h hnone
    rw [h]
    refine ⟨(List.filter_eq_self.mpr fun r _ => ?_).symm, rfl⟩
    rw [hnone]
    rfl
  cases w with
  | insert lib d =>
    refine hsame ?_ fun _ => rfl
    show (ingest lib s.db d).runs = _
    unfold ingest
    split
    · rfl
    · split
      · rfl
      · next hrun =>
        obtain ⟨_, _, -, -, rfl⟩ | ⟨_, _, -, -, rfl⟩ := Handler.run_cases hrun <;> rfl
  | create now data => exact hsame (onlyAutomations_create s.db now data).runs fun _ => rfl
  | update now id data => exact hsame (onlyAutomations_update s.db now id data).runs fun _ => rfl
  | toggle now id => exact hsame (onlyAutomations_toggle s.db now id).runs fun _ => rfl
  | seed settings now => exact hsame (onlyAutomations_seed s.db settings now).runs fun _ => rfl
  | prune events runs =>
    cases runs with
    | none => exact hsame (by cases events <;> rfl) fun _ => rfl
    | some cutoff => cases events <;> exact ⟨rfl, rfl⟩

/-- What a turn can do: something of another transaction, a new coroutine, or a turn or the abort of
an open one. -/
inductive Moved (lib : PyLib) (s : InFlight) (t : FlightTurn) : InFlight → Prop
  | other {s' : InFlight} (hflights : s'.flights = s.flights) (hcommits : s'.commits = s.commits)
      (hlog : s'.log = s.log) (hworld : s'.world = s.world)
      (hruns : s'.db.runs.rows = s.db.runs.rows.filter fun r => !s.deletes t r)
      (hnext : s'.db.runs.nextId = s.db.runs.nextId) : Moved lib s t s'
  | starts {begun : Flight} {w : World} (hstarted : s.started t = some begun)
      (heffects : w.effects = s.world.effects) :
    Moved lib s t { s with world := w, flights := s.flights ++ [begun] }
  | turns {i : Nat} {f : Flight} {env : Env} {scan : Scan} (ht : t = .resume i env scan)
      (hf : s.flights[i]? = some f) (hopen : f.evaluation.finished = false) :
    Moved lib s t (s.put i f (f.move (s.env lib env scan) s.db.runs s.world))
  | aborts {i : Nat} {f : Flight} (ht : t = .abort i) (hf : s.flights[i]? = some f)
      (hopen : f.evaluation.finished = false) :
    Moved lib s t { s with flights := s.flights.set i { f with evaluation := f.evaluation.fail } }

theorem moved_step (lib : PyLib) (s : InFlight) (t : FlightTurn) :
    Moved lib s t (s.step lib t) := by
  have hkept : (∀ r, s.deletes t r = false) →
      s.db.runs.rows = s.db.runs.rows.filter fun r => !s.deletes t r := by
    intro hnone
    refine (List.filter_eq_self.mpr fun r _ => ?_).symm
    rw [hnone]
    rfl
  have hsame : (∀ r, s.deletes t r = false) → Moved lib s t s := fun hnone =>
    .other rfl rfl rfl rfl (hkept hnone) rfl
  cases t with
  | wait elapsed => exact .other rfl rfl rfl rfl (hkept fun _ => rfl) rfl
  | event eventType event scan =>
    exact .starts (t := .event eventType event scan) rfl (effects_markOnlineOf eventType event _)
  | periodic scan => exact .starts (t := .periodic scan) rfl rfl
  | resume i env scan =>
    unfold step
    dsimp only
    cases hf : s.flights[i]? with
    | none => exact hsame fun _ => rfl
    | some f =>
      dsimp only
      cases hopen : f.evaluation.finished with
      | true => exact hsame fun _ => rfl
      | false => exact .turns rfl hf hopen
  | abort i =>
    unfold step
    dsimp only
    cases hf : s.flights[i]? with
    | none => exact hsame fun _ => rfl
    | some f =>
      dsimp only
      cases hopen : f.evaluation.finished with
      | true => exact hsame fun _ => rfl
      | false => exact .aborts rfl hf hopen
  | write w =>
    obtain ⟨hruns, hnext⟩ := runs_write s w
    exact .other rfl rfl rfl rfl hruns hnext
  | startDelete id =>
    unfold step
    dsimp only
    cases s.db.automations.get? id with
    | none => exact hsame fun _ => rfl
    | some a => exact .other rfl rfl rfl rfl (hkept fun _ => rfl) rfl
  | commitDelete j =>
    have hdeletes : ∀ r, s.deletes (.commitDelete j) r =
        s.deletions[j]?.any fun d => d.runs.contains r.id := fun _ => rfl
    unfold step
    dsimp only
    cases hd : s.deletions[j]? with
    | none =>
      rw [hd] at hdeletes
      exact hsame hdeletes
    | some d =>
      rw [hd] at hdeletes
      refine .other rfl rfl rfl rfl (List.filter_congr fun r _ => ?_) rfl
      rw [hdeletes]
      rfl
  | abortDelete j => exact .other rfl rfl rfl rfl (hkept fun _ => rfl) rfl

theorem follows_started {seen : Runs → Prop} {begun : Flight} (h : s.started t = some begun) :
    Follows lib seen begun begun ∧ begun.evaluation.finished = false := by
  have hbegun : begun.evaluation.stage = .conditions ∧ begun.evaluation.added = [] ∧
      begun.due = false ∧ begun.evaluation.finished = false := by
    unfold started at h
    cases t <;> cases h <;> exact ⟨rfl, rfl, rfl, rfl⟩
  obtain ⟨hstage, hadded, hdue, hopen⟩ := hbegun
  refine ⟨⟨rfl, rfl, rfl, rfl, ⟨[], [], rfl, List.Sublist.refl _, fun _ => rfl, ?_⟩, ?_, ?_⟩, hopen⟩
  · rw [hadded]
    exact .nil
  · intro a rest _
    rw [hstage]
    trivial
  · intro _ hd
    rcases hd with hd | hd
    · rw [hdue] at hd
      cases hd
    · exact absurd hstage hd

theorem Tracked.mono {seen seen' : Runs → Prop} {begun : Flight} {committed committed' : Prop}
    (hmono : ∀ runs, seen runs → seen' runs) (hiff : committed' ↔ committed)
    (h : Tracked lib seen begun f committed) : Tracked lib seen' begun f committed' where
  follows hor := (h.follows (hor.imp_right hiff.mp)).mono hmono
  ends hc := h.ends (hiff.mp hc)
  leaves hf hc := h.leaves hf fun hc' => hc (hiff.mpr hc')

theorem Coroutines.flight (h : Coroutines lib db clock turns)
    (hold : (after lib db clock turns).flights[i]? = some f) (hnew : ∀ begun,
        Tracked lib (Seen lib db clock turns i) begun f (i ∈ (after lib db clock turns).commits) →
        Tracked lib (Seen lib db clock (turns ++ [t]) i) begun f'
          (i ∈ (after lib db clock (turns ++ [t])).commits)) :
    ∃ earlier t' later begun, turns ++ [t] = earlier ++ t' :: later ∧
      (after lib db clock earlier).flights.length = i ∧
      (after lib db clock earlier).started t' = some begun ∧
      Tracked lib (Seen lib db clock (turns ++ [t]) i) begun f'
        (i ∈ (after lib db clock (turns ++ [t])).commits) := by
  obtain ⟨earlier, t', later, begun, heq, hlength, hstarted, htracked⟩ := h.flights i f hold
  refine ⟨earlier, t', later ++ [t], begun, ?_, hlength, hstarted, hnew begun htracked⟩
  rw [heq, List.append_assoc]
  rfl

theorem finished_step (hf : s.flights[i]? = some f) (hfinished : f.evaluation.finished = true) :
    (s.step lib t).flights[i]? = some f := by
  have hset : ∀ {j : Nat} {g g' : Flight}, s.flights[j]? = some g → g.evaluation.finished = false →
      (s.flights.set j g')[i]? = some f := by
    intro j g g' hg hopen
    rw [List.getElem?_set_ne, hf]
    rintro rfl
    cases hf.symm.trans hg
    exact absurd (hfinished.symm.trans hopen) Bool.noConfusion
  have hmoved := moved_step lib s t
  generalize s.step lib t = s' at hmoved
  cases hmoved with
  | other hflights => rwa [hflights]
  | starts hstarted heffects =>
    exact (List.getElem?_append_left (List.getElem?_eq_some_iff.mp hf).1).trans hf
  | turns ht hg hopen => exact hset hg hopen
  | aborts ht hg hopen => exact hset hg hopen

theorem Coroutines.finished (h : Coroutines lib db clock turns)
    (hi : i ∈ (after lib db clock turns).commits) :
    ∃ f, (after lib db clock turns).flights[i]? = some f ∧ f.evaluation.finished = true := by
  have hf := List.getElem?_eq_getElem (h.commits.2 i hi)
  obtain ⟨-, -, -, begun, -, -, -, htracked⟩ := h.flights i _ hf
  exact ⟨_, hf, (htracked.ends hi).1⟩

theorem added_eq {s' : InFlight} (h : s'.flights[i]? = s.flights[i]?) : s'.added i = s.added i := by
  unfold added
  rw [h]

theorem Coroutines.added_snoc (h : Coroutines lib db clock turns)
    (hi : i ∈ (after lib db clock turns).commits) :
    (after lib db clock (turns ++ [t])).added i = (after lib db clock turns).added i := by
  obtain ⟨f, hf, hfinished⟩ := h.finished hi
  rw [after_snoc, added_eq ((finished_step hf hfinished).trans hf.symm)]

theorem Coroutines.other (h : Coroutines lib db clock turns)
    (hflights : (after lib db clock (turns ++ [t])).flights = (after lib db clock turns).flights)
    (hcommits : (after lib db clock (turns ++ [t])).commits = (after lib db clock turns).commits) :
    Coroutines lib db clock (turns ++ [t]) where
  flights i f hf := by
    rw [hflights] at hf
    exact h.flight hf fun begun ht => ht.mono (fun _ => Seen.mono) (by rw [hcommits])
  commits := by
    rw [hflights, hcommits]
    exact h.commits

theorem Coroutines.start {begun : Flight} (h : Coroutines lib db clock turns)
    (hstarted : (after lib db clock turns).started t = some begun)
    (hflights : (after lib db clock (turns ++ [t])).flights =
      (after lib db clock turns).flights ++ [begun])
    (hcommits : (after lib db clock (turns ++ [t])).commits = (after lib db clock turns).commits) :
    Coroutines lib db clock (turns ++ [t]) where
  flights i f hf := by
    rw [hflights] at hf
    by_cases hi : i < (after lib db clock turns).flights.length
    · rw [List.getElem?_append_left hi] at hf
      exact h.flight hf fun begun ht => ht.mono (fun _ => Seen.mono) (by rw [hcommits])
    · have hlast : i = (after lib db clock turns).flights.length := by
        have := (List.getElem?_eq_some_iff.mp hf).1
        rw [List.length_append, List.length_singleton] at this
        omega
      subst hlast
      rw [List.getElem?_concat_length] at hf
      cases hf
      obtain ⟨hfollows, hopen⟩ : Follows lib _ begun begun ∧ _ := follows_started hstarted
      refine ⟨turns, t, [], begun, rfl, rfl, hstarted, fun _ => hfollows, fun hc => ?_,
        fun hf => ?_⟩
      · rw [hcommits] at hc
        exact absurd (h.commits.2 _ hc) (Nat.lt_irrefl _)
      · rw [hopen] at hf
        cases hf
  commits := by
    rw [hflights, hcommits, List.length_append]
    exact ⟨h.commits.1, fun i hi => Nat.lt_add_right _ (h.commits.2 i hi)⟩

/-- A coroutine that is open has not committed, and follows what it began with. -/
theorem Coroutines.open (h : Coroutines lib db clock turns)
    (hf : (after lib db clock turns).flights[i]? = some f) (hopen : f.evaluation.finished = false) :
    i ∉ (after lib db clock turns).commits := by
  obtain ⟨-, -, -, begun, -, -, -, htracked⟩ := h.flights i f hf
  intro hc
  rw [(htracked.ends hc).1] at hopen
  cases hopen

theorem Coroutines.set (h : Coroutines lib db clock turns)
    (hf : (after lib db clock turns).flights[i]? = some f) (hopen : f.evaluation.finished = false)
    (hnew : ∀ begun, Follows lib (Seen lib db clock turns i) begun f →
      Follows lib (Seen lib db clock turns i) begun f' ∧ f'.evaluation.finished = false ∨
        f'.evaluation = f.evaluation.fail)
    (hflights : (after lib db clock (turns ++ [t])).flights =
      (after lib db clock turns).flights.set i f')
    (hcommits : (after lib db clock (turns ++ [t])).commits = (after lib db clock turns).commits) :
    Coroutines lib db clock (turns ++ [t]) where
  flights j g hg := by
    have hi := (List.getElem?_eq_some_iff.mp hf).1
    rw [hflights] at hg
    by_cases hij : i = j
    · subst hij
      rw [List.getElem?_set_self hi] at hg
      cases hg
      refine h.flight hf fun begun ht => ?_
      rw [hcommits]
      rcases hnew begun (ht.follows (.inl hopen)) with ⟨hfollows, hopen'⟩ | hfail
      · refine ⟨fun _ => hfollows.mono fun _ => Seen.mono, fun hc => ?_, fun hfin => ?_⟩
        · exact absurd hc (h.open hf hopen)
        · rw [hopen'] at hfin
          cases hfin
      · refine ⟨fun hor => ?_, fun hc => absurd hc (h.open hf hopen), fun _ _ => ?_⟩
        · rcases hor with hor | hc
          · rw [hfail] at hor
            cases hor
          · exact absurd hc (h.open hf hopen)
        · rw [hfail]
          rfl
    · rw [List.getElem?_set_ne hij] at hg
      exact h.flight hg fun begun ht => ht.mono (fun _ => Seen.mono) (by rw [hcommits])
  commits := by
    rw [hflights, hcommits, List.length_set]
    exact h.commits

theorem Coroutines.commit (h : Coroutines lib db clock turns)
    (hf : (after lib db clock turns).flights[i]? = some f) (hopen : f.evaluation.finished = false)
    (htodo : f.evaluation.todo = [])
    (hflights : (after lib db clock (turns ++ [t])).flights =
      (after lib db clock turns).flights.set i
        ⟨{ f.evaluation with finished := true }, f.periodic, false⟩)
    (hcommits : (after lib db clock (turns ++ [t])).commits =
      (after lib db clock turns).commits ++ [i]) : Coroutines lib db clock (turns ++ [t]) where
  flights j g hg := by
    have hi := (List.getElem?_eq_some_iff.mp hf).1
    rw [hflights] at hg
    by_cases hij : i = j
    · subst hij
      rw [List.getElem?_set_self hi] at hg
      cases hg
      refine h.flight hf fun begun ht => ?_
      have hmono : ∀ runs, Seen lib db clock turns i runs →
          Seen lib db clock (turns ++ [t]) i runs := fun _ => Seen.mono
      have hfollows := (ht.follows (.inl hopen)).mono hmono
      have hmem : i ∈ (after lib db clock (turns ++ [t])).commits := by
        rw [hcommits]
        exact List.mem_append_right _ (List.mem_singleton_self i)
      refine ⟨fun _ => ⟨hfollows.trigger, hfollows.event, hfollows.now, hfollows.periodic, ?_,
        hfollows.stage, fun _ _ a rest htodo' => ?_⟩, fun _ => ⟨rfl, htodo⟩,
        fun _ hc => absurd hmem hc⟩
      · obtain ⟨before, kept, hbegun, hkept, hall, hrecords⟩ := hfollows.records
        exact ⟨before, kept, hbegun, hkept, hall,
          hrecords.imp fun a r hr => ⟨hr.record, hr.due⟩⟩
      · cases htodo.symm.trans htodo'
    · rw [List.getElem?_set_ne hij] at hg
      refine h.flight hg fun begun ht => ht.mono (fun _ => Seen.mono) ?_
      rw [hcommits, List.mem_append, List.mem_singleton]
      exact or_iff_left (Ne.symm hij)
  commits := by
    rw [hflights, hcommits, List.length_set]
    refine ⟨List.nodup_append.mpr ⟨h.commits.1, List.nodup_singleton i, ?_⟩, fun j hj => ?_⟩
    · rintro j hj k hk rfl
      rw [List.mem_singleton] at hk
      exact h.open hf hopen (hk ▸ hj)
    · rcases List.mem_append.mp hj with hj | hj
      · exact h.commits.2 j hj
      · rw [List.mem_singleton.mp hj]
        exact (List.getElem?_eq_some_iff.mp hf).1

theorem Coroutines.resume (h : Coroutines lib db clock turns) {env : Env} {scan : Scan}
    (hf : (after lib db clock turns).flights[i]? = some f) (hopen : f.evaluation.finished = false)
    (hafter : after lib db clock (turns ++ [.resume i env scan]) =
      (after lib db clock turns).put i f (f.move ((after lib db clock turns).env lib env scan)
        (after lib db clock turns).db.runs (after lib db clock turns).world)) :
    Coroutines lib db clock (turns ++ [.resume i env scan]) := by
  cases htodo : f.evaluation.todo with
  | nil =>
    rw [move_nil htodo] at hafter
    refine h.commit hf hopen htodo ?_ ?_ <;> rw [hafter]
    · rfl
    · unfold put
      rw [htodo]
      rfl
  | cons a rest =>
    refine h.set hf hopen (fun begun hb => ?_) (congrArg InFlight.flights hafter) ?_
    · have hmove := Follows.move ((after lib db clock turns).env lib env scan)
        (after lib db clock turns).world (seen_now hf) hb htodo
      rcases hmove.1 with ⟨hfollows, hfinished⟩ | hfail
      · exact .inl ⟨hfollows, hfinished.trans hopen⟩
      · exact .inr hfail
    · rw [hafter]
      unfold put
      rw [htodo]
      exact List.append_nil _

theorem Coroutines.snoc (h : Coroutines lib db clock turns) (t : FlightTurn) :
    Coroutines lib db clock (turns ++ [t]) := by
  have hstep : after lib db clock (turns ++ [t]) = (after lib db clock turns).step lib t :=
    after_snoc
  have hmoved := moved_step lib (after lib db clock turns) t
  rw [← hstep] at hmoved
  generalize hs : after lib db clock (turns ++ [t]) = s' at hmoved
  cases hmoved with
  | other hflights hcommits hlog hworld hruns hnext =>
    subst hs
    exact h.other hflights hcommits
  | starts hstarted heffects => refine h.start hstarted ?_ ?_ <;> rw [hs]
  | turns ht hf hopen =>
    subst ht
    exact h.resume hf hopen hs
  | aborts ht hf hopen =>
    exact h.set hf hopen (fun _ _ => .inr rfl) (congrArg InFlight.flights hs) (by rw [hs])

theorem coroutines_after (lib : PyLib) (db : Db) (clock : Int) (turns : List FlightTurn) :
    Coroutines lib db clock turns := by
  induction turns using List.reverseRecOn with
  | nil =>
    refine ⟨fun i f hf => ?_, List.nodup_nil, nofun⟩
    cases hf
  | append_singleton turns t ih => exact ih.snoc t

/-! ## The log -/

/-- A transaction's view of two tables that give out the same ids. -/
theorem exists_view_append (e : Evaluation) {t t' : Table AutomationRun}
    (hnext : t.nextId = t'.nextId) : (e.view t).nextId = (e.view t').nextId ∧
    t.nextId ≤ (e.view t).nextId ∧ ∃ rs, (e.view t).rows = t.rows ++ rs ∧
      (e.view t').rows = t'.rows ++ rs ∧ ∀ r ∈ rs, t.nextId ≤ r.id ∧ r.val ∈ e.added := by
  unfold Evaluation.view
  induction e.added generalizing t t' with
  | nil =>
    exact ⟨hnext, Nat.le_refl _, [], (List.append_nil _).symm, (List.append_nil _).symm, nofun⟩
  | cons new added ih =>
    have hinsert : (t.insert e.now new).nextId = (t'.insert e.now new).nextId :=
      congrArg (· + 1) hnext
    obtain ⟨hnext', hle, rs, hrows, hrows', hids⟩ := ih hinsert
    have hlt : t.nextId ≤ (t.insert e.now new).nextId := Nat.le_succ _
    refine ⟨hnext', hlt.trans hle, ⟨t.nextId, e.now, new⟩ :: rs, ?_, ?_, ?_⟩
    · rw [List.foldl_cons, hrows, Table.rows_insert, List.append_assoc]
      rfl
    · rw [List.foldl_cons, hrows', Table.rows_insert, List.append_assoc, hnext]
      rfl
    · intro r hr
      rcases List.mem_cons.mp hr with rfl | hr
      · exact ⟨Nat.le_refl _, List.mem_cons_self⟩
      · exact ⟨hlt.trans (hids r hr).1, List.mem_cons_of_mem new (hids r hr).2⟩

/-- What a turn does to the log: it deletes rows of it, or a coroutine commits. -/
inductive Logged (s : InFlight) (t : FlightTurn) (s' : InFlight) : Prop
  | kept (hcommits : s'.commits = s.commits)
      (hrows : s'.db.runs.rows = s.db.runs.rows.filter fun r => !s.deletes t r)
      (hnext : s'.db.runs.nextId = s.db.runs.nextId) : Logged s t s'
  | commits {i : Nat} {f f' : Flight} (hcommits : s'.commits = s.commits ++ [i])
      (hf' : s'.flights[i]? = some f') (hview : f'.evaluation.view = f.evaluation.view)
      (hruns : s'.db.runs = f.evaluation.view s.db.runs) (hnone : ∀ r, s.deletes t r = false) :
    Logged s t s'

theorem logged_step (lib : PyLib) (s : InFlight) (t : FlightTurn) :
    Logged s t (s.step lib t) := by
  have hkept : (∀ r, s.deletes t r = false) →
      s.db.runs.rows = s.db.runs.rows.filter fun r => !s.deletes t r := by
    intro hnone
    refine (List.filter_eq_self.mpr fun r _ => ?_).symm
    rw [hnone]
    rfl
  have hmoved := moved_step lib s t
  generalize s.step lib t = s' at hmoved
  cases hmoved with
  | other hflights hcommits hlog hworld hruns hnext => exact .kept hcommits hruns hnext
  | starts hstarted heffects =>
    refine .kept rfl (hkept fun r => ?_) rfl
    cases t <;> first | rfl | cases hstarted
  | aborts ht hf hopen =>
    subst ht
    exact .kept rfl (hkept fun _ => rfl) rfl
  | @turns i f env scan ht hf hopen =>
    subst ht
    cases htodo : f.evaluation.todo with
    | nil =>
      rw [move_nil htodo]
      refine .commits (f := f) ?_ (List.getElem?_set_self (List.getElem?_eq_some_iff.mp hf).1) rfl
        rfl fun _ => rfl
      unfold put
      rw [htodo]
      rfl
    | cons a rest =>
      have hcommitted : (f.move (s.env lib env scan) s.db.runs s.world).2.committed =
          s.db.runs := by
        rcases move_cons htodo with ⟨-, -, -, hmove⟩ | ⟨-, hmove⟩ <;> rw [hmove]
        exact committed_advance
      refine .kept ?_ ?_ (congrArg Table.nextId hcommitted)
      · unfold put
        rw [htodo]
        exact List.append_nil _
      · exact (congrArg Table.rows hcommitted).trans (hkept fun _ => rfl)

theorem nextId_step : s.db.runs.nextId ≤ (s.step lib t).db.runs.nextId := by
  cases logged_step lib s t with
  | kept hcommits hrows hnext => exact hnext.ge
  | commits hcommits hf' hview hruns hnone =>
    rw [hruns]
    exact (exists_view_append _ rfl).2.1

theorem nextId_run : s.db.runs.nextId ≤ (run (step lib) s turns).db.runs.nextId := by
  induction turns generalizing s with
  | nil => exact Nat.le_refl _
  | cons t turns ih => exact nextId_step.trans ih

/-- Only what has been written is erased. -/
theorem lt_of_erased {r : Row AutomationRun} (h : erased lib s turns r = true) :
    r.id < (run (step lib) s turns).db.runs.nextId := by
  induction turns generalizing s with
  | nil => cases h
  | cons t turns ih =>
    unfold erased at h
    rcases (Bool.or_eq_true _ _).mp h with h | h
    · have hlt : r.id < s.db.runs.nextId := of_decide_eq_true (Bool.and_eq_true_iff.mp h).1
      exact hlt.trans_le (nextId_step.trans nextId_run)
    · exact ih h

theorem erased_snoc (r : Row AutomationRun) : erased lib s (turns ++ [t]) r =
    (erased lib s turns r || decide (r.id < (run (step lib) s turns).db.runs.nextId) &&
      (run (step lib) s turns).deletes t r) := by
  induction turns generalizing s with
  | nil =>
    show (_ || false) = (false || _)
    rw [Bool.or_false, Bool.false_or]
    rfl
  | cons t' turns ih =>
    show (_ || erased lib _ (turns ++ [t]) r) = ((_ || _) || _)
    rw [ih, Bool.or_assoc]
    rfl

theorem history_snoc (hcommits : ∀ i ∈ (after lib db clock turns).commits,
      (after lib db clock (turns ++ [t])).flights[i]? = (after lib db clock turns).flights[i]?) :
    (after lib db clock turns).commits.foldl (fun table i =>
      ((after lib db clock (turns ++ [t])).flights[i]?.map (·.evaluation.view table)).getD table)
      db.runs = (after lib db clock turns).history db.runs := by
  unfold history
  refine List.foldl_ext _ _ _ fun table i hi => ?_
  rw [hcommits i hi]

theorem log_after (lib : PyLib) (db : Db) (clock : Int) (turns : List FlightTurn) :
    (after lib db clock turns).db.runs.nextId =
        ((after lib db clock turns).history db.runs).nextId ∧
      (after lib db clock turns).db.runs.rows =
        ((after lib db clock turns).history db.runs).rows.filter
          fun r => !erased lib (start db clock) turns r := by
  induction turns using List.reverseRecOn with
  | nil => exact ⟨rfl, (List.filter_eq_self.mpr fun _ _ => rfl).symm⟩
  | append_singleton turns t ih =>
    obtain ⟨hnext, hrows⟩ := ih
    have hstays : ∀ i ∈ (after lib db clock turns).commits,
        (after lib db clock (turns ++ [t])).flights[i]? =
          (after lib db clock turns).flights[i]? := by
      intro i hi
      obtain ⟨f, hf, hfinished⟩ := (coroutines_after lib db clock turns).finished hi
      rw [after_snoc, finished_step hf hfinished, hf]
    have hwritten := history_snoc hstays
    have herased : ∀ r, erased lib (start db clock) (turns ++ [t]) r =
        (erased lib (start db clock) turns r ||
          decide (r.id < (after lib db clock turns).db.runs.nextId) &&
            (after lib db clock turns).deletes t r) := fun r => erased_snoc r
    have hlogged := logged_step lib (after lib db clock turns) t
    rw [← after_snoc] at hlogged
    cases hlogged with
    | kept hcommits hrows' hnext' =>
      have hhistory : (after lib db clock (turns ++ [t])).history db.runs =
          (after lib db clock turns).history db.runs := by
        rw [← hwritten]
        unfold history
        rw [hcommits]
      rw [hhistory, hnext', hrows', hrows, List.filter_filter]
      refine ⟨hnext, List.filter_congr fun r hr => ?_⟩
      have hlt : r.id < (after lib db clock turns).db.runs.nextId := hnext ▸ Table.bound _ r hr
      rw [herased, decide_eq_true hlt, Bool.true_and, Bool.not_or, Bool.and_comm]
    | @commits i f f' hcommits hf' hview hruns hnone =>
      have hhistory : (after lib db clock (turns ++ [t])).history db.runs =
          f.evaluation.view ((after lib db clock turns).history db.runs) := by
        rw [← hwritten]
        unfold history
        rw [hcommits, List.foldl_append, List.foldl_cons, List.foldl_nil, hf', Option.map_some,
          Option.getD_some, hview]
      obtain ⟨hnext', -, rs, hrs, hrs', hids⟩ := exists_view_append f.evaluation hnext
      rw [hhistory, hruns]
      refine ⟨hnext', ?_⟩
      rw [hrs, hrs', hrows, List.filter_append]
      congr 1
      · refine List.filter_congr fun r _ => ?_
        rw [herased, hnone, Bool.and_false, Bool.or_false]
      · refine (List.filter_eq_self.mpr fun r hr => ?_).symm
        rw [herased, hnone, Bool.and_false, Bool.or_false, Bool.not_eq_true']
        by_contra herase
        have hlt := lt_of_erased (by simpa using herase)
        exact absurd hlt (Nat.not_lt.mpr (hids r hr).1)

/-! ## What is sent -/

theorem leaves_after (lib : PyLib) (db : Db) (clock : Int) (turns : List FlightTurn)
    (t : FlightTurn) : Leaves (TurnSends lib db clock turns t) (after lib db clock turns).world
      (after lib db clock (turns ++ [t])).world := by
  have hmoved := moved_step lib (after lib db clock turns) t
  rw [← after_snoc] at hmoved
  generalize after lib db clock (turns ++ [t]) = s' at hmoved
  cases hmoved with
  | other hflights hcommits hlog hworld => exact .none (congrArg World.effects hworld) (.nothing t)
  | starts hstarted heffects => exact .none heffects (.nothing t)
  | aborts ht hf hopen => exact .none rfl (.nothing t)
  | @turns i f env scan ht hf hopen =>
    subst ht
    show Leaves _ _ (f.move _ _ _).2.world
    cases htodo : f.evaluation.todo with
    | nil =>
      rw [move_nil htodo]
      exact .none rfl (.nothing _)
    | cons a rest =>
      rcases move_cons htodo with ⟨-, -, -, hmove⟩ | ⟨-, hmove⟩
      · rw [hmove]
        exact .none rfl (.nothing _)
      · rw [hmove]
        refine leaves_advance.mono ?_
        rintro es (rfl | ⟨action, left, fired, hstage, hsends⟩)
        · exact .nothing _
        · obtain ⟨-, -, -, begun, -, -, -, htracked⟩ :=
            (coroutines_after lib db clock turns).flights i f hf
          have hpassed := (htracked.follows (.inl hopen)).stage a rest htodo
          rw [hstage] at hpassed
          exact .action hf hopen htodo hstage hpassed hsends

end Steps

/-- **Evaluations in flight are sound.** Whatever coroutines, edits, deletes, prunes and aborts
interleave, at every await: a coroutine evaluates the automations that were enabled and triggered
when it started, in order, and records each of them once, those of the periodic loop if they are
due, as the runs it saw at each check demand; it commits all its records or none; the run log is
that of the commits, one after another, less what was deleted since; and a message leaves only for
an action that all the checks let through. -/
theorem flights_sound (lib : PyLib) (db : Db) (clock : Int) (turns : List FlightTurn) :
    Sound lib db clock turns where
  toCoroutines := coroutines_after lib db clock turns
  log := (log_after lib db clock turns).2
  outbox earlier t _ _ := leaves_after lib db clock earlier t

end InFlight

end Taskowl
