import Taskowl.Lib.Run
import Taskowl.Lib.Spacing
import Taskowl.Outcome

/-!
# Concurrent evaluations

Every event the consumer receives is evaluated by a coroutine of its own, in a
transaction of its own. A step of the consumer is one coroutine running from
an await to the next: loading the automations, reading the breaker's count,
the latest firing or the window's count, sending one action, or committing.
A transaction sees the committed runs and its own; the others see its runs
only after its commit.
-/

namespace Taskowl

open Lib Py

/-- Where an evaluation stands with the automation at the head of its list. -/
inductive Stage where
  | conditions
  | breaker
  | cooldown
  | limit
  /-- In `_dispatch_actions`, with the actions left and the fired list so far. -/
  | dispatch (left fired : List Json)

/-- A coroutine in `_evaluate_event`. -/
structure Evaluation where
  eventType : String
  event : Dict
  now : Int
  todo : List (Row Automation)
  stage : Stage := .conditions
  /-- The runs added to the session. -/
  added : List AutomationRun := []
  /-- Committed, or left by an exception. -/
  finished : Bool := false

/-- The consumer process and the tables, with every dispatch so far: whose, and when. -/
structure Consumer where
  committed : Table AutomationRun
  world : World
  clock : Int
  evaluations : List Evaluation := []
  log : List (Nat × Int) := []

/-- What a transaction sees of the runs table. -/
def Evaluation.view (e : Evaluation) (committed : Table AutomationRun) : Table AutomationRun :=
  e.added.foldl (fun t r => t.insert e.now r) committed

/-- `session.add(run)`, and on to the next automation. -/
def Evaluation.record (e : Evaluation) (run : AutomationRun) : Evaluation :=
  { e with added := e.added ++ [run], todo := e.todo.tail, stage := .conditions }

/-- An exception: the transaction is rolled back. -/
def Evaluation.fail (e : Evaluation) : Evaluation := { e with added := [], finished := true }

/-- What a coroutine leaves when it yields. -/
structure Yield where
  evaluation : Evaluation
  committed : Table AutomationRun
  world : World
  /-- The automation whose actions start being dispatched. -/
  dispatched : Option Nat := none

/-- The part of the loop body from one await to the next, for the automation `a`. -/
def Evaluation.advance (env : Env) (committed : Table AutomationRun) (w : World) (e : Evaluation)
    (a : Row Automation) : Yield :=
  let runs := (e.view committed).rows
  let go (e : Evaluation) : Yield := ⟨e, committed, w, none⟩
  let skip (reason : Skip) : Yield :=
    go (e.record (runOf e.eventType e.event a true .null (some reason)))
  match e.stage with
  | .conditions => match conditionsPassed env.lib e.event a.val with
    | .error _ => go e.fail
    | .ok false => go (e.record (runOf e.eventType e.event a false .null none))
    | .ok true => go { e with stage := .breaker }
  | .breaker => match checkCircuitBreaker a e.now runs with
    | .error _ => go e.fail
    | .ok (some reason) => skip reason
    | .ok none => go { e with stage := .cooldown }
  | .cooldown => match coolingDown a e.now runs with
    | .error _ => go e.fail
    | .ok true => skip .cooldown
    | .ok false => go { e with stage := .limit }
  | .limit => match overLimit a e.now runs with
    | .error _ => go e.fail
    | .ok true => skip .rateLimited
    | .ok false => match (a.val.actions.read.or (.arr [])).iter with
      | .error _ => go e.fail
      | .ok actions =>
        ⟨{ e with stage := .dispatch actions [] }, committed, w,
          if actionsBegin a.val then some a.id else none⟩
  | .dispatch left fired => match left with
    | [] => go (e.record (runOf e.eventType e.event a true (.arr fired) none))
    | .obj action :: left =>
      let type := Dict.get action "type"
      let next (w : World) (fired : List Json) : Yield :=
        ⟨{ e with stage := .dispatch left fired }, committed, w, none⟩
      match fireAction env a.val e.event action w type with
      | none => next w fired
      | some (w, .ok result) => next w (fired ++ [.obj (Dict.merge [("type", type)] result)])
      | some (w, .error _) =>
        next w (fired ++ [.obj [("type", type), ("error", .str "action failed")]])
    | _ :: _ => go e.fail

/-- A coroutine from one await to the next: the loop body, or the commit at the end. -/
def Evaluation.move (env : Env) (committed : Table AutomationRun) (w : World) (e : Evaluation) :
    Yield :=
  match e.todo with
  | [] => ⟨{ e with finished := true }, e.view committed, w, none⟩
  | a :: _ => e.advance env committed w a

/-- What happens next in the consumer. -/
inductive Turn where
  /-- An event comes in: its coroutine loads the automations, in scan order. -/
  | load (eventType : String) (event : Dict) (scan : List (Row Automation))
  /-- The coroutine at an index runs to its next await. -/
  | resume (i : Nat) (env : Env)

structure Timed where
  elapsed : Nat
  turn : Turn

def Consumer.put (c : Consumer) (i : Nat) (y : Yield) : Consumer where
  committed := y.committed
  world := y.world
  clock := c.clock
  evaluations := c.evaluations.set i y.evaluation
  log := c.log ++ (y.dispatched.toList.map (·, c.clock))

def Consumer.step (c : Consumer) (t : Timed) : Consumer :=
  let c := { c with clock := c.clock + t.elapsed }
  match t.turn with
  | .load eventType event scan =>
    { c with evaluations := c.evaluations ++
        [{ eventType, event, now := c.clock, todo := scan.filter (matchesEvent eventType) }] }
  | .resume i env => match c.evaluations[i]? with
    | none => c
    | some e =>
      if e.finished then c
      else c.put i (e.move { env with now := c.clock } c.committed c.world)

/-! ## The cap -/

/-- When the cap of a coroutine's automation is read: if the last `window_seconds` hold
`max_runs_per_window` dispatches, the count read finds as many runs. -/
def Consumer.Sees (c : Consumer) (e : Evaluation) (a : Row Automation) : Prop :=
  ∀ (maxRuns : Nat) (window since : Int), a.val.maxRunsPerWindow = some (maxRuns : Int) →
    a.val.windowSeconds = some window → windowStart (.int window) e.now = .ok since →
    maxRuns ≤ (times a.id c.log).countP (fun t => decide (c.clock - window * secondUs ≤ t)) →
    maxRuns ≤ countFiredSince a.id since (e.view c.committed).rows

/-- No turn reads a count too stale to see the cap reached. -/
def Fresh (c : Consumer) (t : Timed) : Prop :=
  ∀ i env, t.turn = .resume i env → ∀ e, c.evaluations[i]? = some e → e.finished = false →
    ∀ a rest, e.todo = a :: rest → e.stage = .limit →
      Consumer.Sees { c with clock := c.clock + t.elapsed } e a

/-- The coroutines hold rows of the table, and every cap is kept. -/
structure Bounded (automations : Table Automation) (c : Consumer) : Prop where
  loaded : ∀ e ∈ c.evaluations, ∀ a ∈ e.todo, a ∈ automations.rows
  capped : ∀ a ∈ automations.rows, ∀ (maxRuns : Nat) (window : Int),
    a.val.maxRunsPerWindow = some (maxRuns : Int) → a.val.windowSeconds = some window →
    Capped maxRuns (window * secondUs) (times a.id c.log)

section Cap

variable {env : Env} {committed : Table AutomationRun} {w : World} {e : Evaluation}
  {a : Row Automation}

/-- A dispatch starts where the cap's test lets it through. -/
theorem advance_dispatched {id : Nat}
    (h : (e.advance env committed w a).dispatched = some id) :
    id = a.id ∧ e.stage = .limit ∧ overLimit a e.now (e.view committed).rows = .ok false := by
  unfold Evaluation.advance at h
  cases hs : e.stage with
  | limit =>
    rw [hs] at h
    dsimp only at h
    split at h
    · cases h
    · cases h
    · next hover =>
      split at h
      · cases h
      · dsimp only at h
        split at h
        · cases h; exact ⟨rfl, rfl, hover⟩
        · cases h
  | conditions => rw [hs] at h; dsimp only at h; split at h <;> cases h
  | breaker => rw [hs] at h; dsimp only at h; split at h <;> cases h
  | cooldown => rw [hs] at h; dsimp only at h; split at h <;> cases h
  | dispatch left fired =>
    rw [hs] at h
    dsimp only at h
    split at h
    · cases h
    · split at h <;> cases h
    · cases h

theorem lt_of_overLimit {now : Int} {runs : Runs} (h : overLimit a now runs = .ok false)
    {maxRuns : Nat} {window : Int} (hm : a.val.maxRunsPerWindow = some (maxRuns : Int))
    (hw : a.val.windowSeconds = some window) :
    ∃ since, windowStart (.int window) now = .ok since ∧
      countFiredSince a.id since runs < maxRuns := by
  unfold overLimit countFiredInWindow at h
  rw [hm, hw] at h
  dsimp only at h
  split at h
  · cases h
  · next fired hcount =>
    split at hcount
    · cases hcount
    · next since hs =>
      cases hcount
      refine ⟨since, hs, ?_⟩
      have : ¬ (maxRuns : Int) ≤ countFiredSince a.id since runs := by simpa using h
      omega

end Cap

section Runs

variable {automations : Table Automation} {c : Consumer}

theorem Bounded.wait (h : Bounded automations c) (n : Nat) :
    Bounded automations { c with clock := c.clock + n } where
  loaded := h.loaded
  capped := h.capped

/-- A dispatch of an automation whose cap's count saw what the log holds. -/
theorem Bounded.dispatch (h : Bounded automations c) {e : Evaluation} {a : Row Automation}
    (ha : a ∈ automations.rows) (hsees : c.Sees e a)
    (hover : overLimit a e.now (e.view c.committed).rows = .ok false) :
    ∀ b ∈ automations.rows, ∀ (maxRuns : Nat) (window : Int),
      b.val.maxRunsPerWindow = some (maxRuns : Int) → b.val.windowSeconds = some window →
      Capped maxRuns (window * secondUs) (times b.id (c.log ++ [(a.id, c.clock)])) := by
  intro b hb maxRuns window hm hw
  have hcap := h.capped b hb maxRuns window hm hw
  rw [times_append]
  have htimes := times_map (k := b.id) (List.nodup_singleton a.id) c.clock
  rw [List.map_singleton] at htimes
  rw [htimes]
  split
  · next hid =>
    have hab : b = a := automations.eq_of_id_eq hb ha (List.mem_singleton.mp hid)
    subst hab
    refine hcap.snoc ?_
    obtain ⟨since, hs, hlt⟩ := lt_of_overLimit hover hm hw
    by_contra hfull
    have := hsees maxRuns window since hm hw hs (Nat.le_of_not_lt hfull)
    omega
  · rw [List.append_nil]
    exact hcap

theorem Bounded.put (h : Bounded automations c) {e : Evaluation} (he : e ∈ c.evaluations)
    (i : Nat) {y : Yield} (hy : y.evaluation.todo ⊆ e.todo)
    (hd : ∀ id, y.dispatched = some id → ∃ a ∈ e.todo, id = a.id ∧ c.Sees e a ∧
      overLimit a e.now (e.view c.committed).rows = .ok false) :
    Bounded automations (c.put i y) where
  loaded e' he' a ha := by
    rcases List.mem_or_eq_of_mem_set he' with he' | rfl
    · exact h.loaded e' he' a ha
    · exact h.loaded e he a (hy ha)
  capped := by
    unfold Consumer.put
    cases hdisp : y.dispatched with
    | none =>
      rw [Option.toList_none, List.map_nil, List.append_nil]
      exact h.capped
    | some id =>
      obtain ⟨a, ha, rfl, hsees, hover⟩ := hd id hdisp
      exact h.dispatch (h.loaded e he a ha) hsees hover

theorem Consumer.sees_iff {e : Evaluation} {a : Row Automation} : c.Sees e a ↔
    ∀ maxRuns ∈ a.val.maxRunsPerWindow.bind Int.toNat?, ∀ window ∈ a.val.windowSeconds,
      ∀ since ∈ (windowStart (.int window) e.now).toOption,
      maxRuns ≤ (times a.id c.log).countP (fun t => decide (c.clock - window * secondUs ≤ t)) →
      maxRuns ≤ countFiredSince a.id since (e.view c.committed).rows := by
  have hstart : ∀ {x : Except PyErr Int} {since : Int},
      x.toOption = some since ↔ x = .ok since := by
    intro x since
    cases x <;> simp [Except.toOption]
  constructor
  · intro h maxRuns hm window hw since hs
    obtain ⟨m, hm, hnat⟩ := Option.bind_eq_some_iff.mp hm
    rw [Int.mem_toNat?.mp hnat] at hm
    exact h maxRuns window since hm hw (hstart.mp hs)
  · intro h maxRuns window since hm hw hs
    refine h maxRuns ?_ window hw since (hstart.mpr hs)
    exact Option.bind_eq_some_iff.mpr ⟨_, hm, Int.mem_toNat?.mpr rfl⟩

instance (e : Evaluation) (a : Row Automation) : Decidable (c.Sees e a) :=
  decidable_of_iff' _ Consumer.sees_iff

/-- The coroutine and the automation whose count a turn reads. -/
def Consumer.reads (c : Consumer) (t : Timed) : Option (Evaluation × Row Automation) :=
  match t.turn with
  | .load _ _ _ => none
  | .resume i _ => c.evaluations[i]?.bind fun e => match e.finished, e.todo, e.stage with
    | false, a :: _, .limit => some (e, a)
    | _, _, _ => none

theorem fresh_iff {t : Timed} : Fresh c t ↔
    ∀ read ∈ c.reads t, Consumer.Sees { c with clock := c.clock + t.elapsed } read.1 read.2 := by
  unfold Fresh Consumer.reads
  cases t.turn with
  | load eventType event scan => exact ⟨fun _ _ h => (nomatch h), fun _ _ _ ht => (nomatch ht)⟩
  | resume i env =>
    dsimp only
    constructor
    · intro h read hread
      obtain ⟨e, he, hread⟩ := Option.bind_eq_some_iff.mp hread
      split at hread
      · next a rest hfin htodo hstage =>
        cases hread
        exact h i env rfl e he hfin a rest htodo hstage
      · cases hread
    · intro h i' env' ht e he hfin a rest htodo hstage
      cases ht
      exact h (e, a) (Option.bind_eq_some_iff.mpr ⟨e, he, by rw [hfin, htodo, hstage]⟩)

instance (t : Timed) : Decidable (Fresh c t) := decidable_of_iff' _ fresh_iff

end Runs

/-- A store with one event automation made by `create_automation`: a log, at most once a minute. -/
def cappedStore : Db :=
  (createAutomation 0
    [("name", .str "log-once"), ("trigger_type", .str "event"), ("event_type", .str "task-failed"),
      ("actions", .arr [.obj [("type", .str "log")]]), ("max_runs_per_window", .int 1),
      ("window_seconds", .int 60)] .empty).1

end Taskowl
