import Taskowl.Lib.Expiry
import Taskowl.OrderFree

/-!
# The event log over whole histories

Whatever else the system does between, its event tables are a log with expiry:
a delivery adds the row of its event, a prune of the events expires the rows
before its cutoff, and nothing else touches them. So the tables hold, once
each, the events with a delivery that no later prune took, and two histories
with the same such events answer every query alike.
-/

namespace Taskowl

open Lib Py

/-! ## The log of a history -/

def SystemOp.row : SystemOp → Option EventRow
  | .deliver env _ event => eventRow env.lib env.now event
  | _ => none

/-- What an operation does to the event tables. -/
def SystemOp.effect : SystemOp → LogOp EventRow
  | .deliver env _ event => match eventRow env.lib env.now event with
    | some row => .add row
    | none => .skip
  | .prune (some cutoff) _ => .expire fun r => decide (r.timestamp < cutoff)
  | _ => .skip

def delivered (ops : List SystemOp) : List EventRow := ops.filterMap SystemOp.row

def liveRows (ops : List SystemOp) : List EventRow :=
  run LogOp.apply [] (ops.map SystemOp.effect)

/-- Every event that becomes a row carries a timestamp. -/
def AllStamped (ops : List SystemOp) : Prop :=
  ∀ env scan event, .deliver env scan event ∈ ops →
    (eventRow env.lib env.now event).isSome → Stamped event

/-- The event was delivered, and no event prune after that delivery reached it. -/
def Live (ops : List SystemOp) (row : EventRow) : Prop :=
  ∃ before op after, ops = before ++ op :: after ∧ op.row = some row ∧
    ∀ cutoff runs, .prune (some cutoff) runs ∈ after → cutoff ≤ row.timestamp

theorem effect_eq_add {op : SystemOp} {row : EventRow} :
    op.effect = .add row ↔ op.row = some row := by
  unfold SystemOp.effect SystemOp.row
  split
  · next env scan event =>
    dsimp only
    cases hrow : eventRow env.lib env.now event with
    | none => exact ⟨nofun, nofun⟩
    | some r => exact ⟨fun h => congrArg some (LogOp.add.inj h),
        fun h => congrArg LogOp.add (Option.some.inj h)⟩
  · exact ⟨nofun, nofun⟩
  · next hdeliver hprune =>
    split
    · next env scan event => exact absurd rfl (hdeliver env scan event)
    · exact ⟨nofun, nofun⟩

theorem effect_eq_expire {op : SystemOp} {dead : EventRow → Bool} :
    op.effect = .expire dead ↔ ∃ cutoff runs, op = .prune (some cutoff) runs ∧
      dead = fun r => decide (r.timestamp < cutoff) := by
  unfold SystemOp.effect
  split
  · split <;> simp
  · next cutoff runs =>
    constructor
    · rintro ⟨⟩
      exact ⟨cutoff, runs, rfl, rfl⟩
    · rintro ⟨cutoff', runs', heq, rfl⟩
      cases heq
      rfl
  · next hdeliver hprune =>
    constructor
    · rintro ⟨⟩
    · rintro ⟨cutoff, runs, rfl, -⟩
      exact absurd rfl (hprune cutoff runs)

theorem mem_liveRows {ops : List SystemOp} {row : EventRow} :
    row ∈ liveRows ops ↔ Live ops row := by
  have hspared : ∀ after : List SystemOp, Spared row (after.map SystemOp.effect) ↔
      ∀ cutoff runs, .prune (some cutoff) runs ∈ after → cutoff ≤ row.timestamp := by
    intro after
    constructor
    · intro h cutoff runs hmem
      have := h _ (List.mem_map_of_mem hmem)
      simpa using this
    · intro h dead hmem
      obtain ⟨op, hop, hdead⟩ := List.mem_map.mp hmem
      obtain ⟨cutoff, runs, rfl, rfl⟩ := effect_eq_expire.mp hdead
      simpa using h cutoff runs hop
  unfold liveRows Live
  rw [mem_run_log]
  constructor
  · rintro (⟨hnil, -⟩ | ⟨before, after, heq, hafter⟩)
    · exact absurd hnil List.not_mem_nil
    · obtain ⟨before', rest, rfl, rfl, hrest⟩ := List.map_eq_append_iff.mp heq
      obtain ⟨op, after', rfl, hop, rfl⟩ := List.map_eq_cons_iff.mp hrest
      exact ⟨before', op, after', rfl, effect_eq_add.mp hop, (hspared after').mp hafter⟩
  · rintro ⟨before, op, after, rfl, hop, hafter⟩
    refine .inr ⟨before.map SystemOp.effect, after.map SystemOp.effect, ?_,
      (hspared after).mpr hafter⟩
    rw [List.map_append, List.map_cons, effect_eq_add.mpr hop]

/-! ## The tables follow the log -/

def Keyed (row : EventRow) : Prop :=
  row.key = some (Sha.sha256hex row.payload) ∧ InRange row.timestamp

section Keys

variable {rows : List EventRow}

theorem task_eq_of_keyed (hkeyed : ∀ r ∈ rows, Keyed r) (hone : OneAtATime rows)
    (hsha : NoCollision rows) {r s : TaskEvent} (hr : .task r ∈ rows) (hs : .task s ∈ rows)
    (hkey : r.dedupeKey = s.dedupeKey) : r = s := by
  obtain ⟨hk, hrange⟩ := hkeyed _ hr
  obtain ⟨hk', hrange'⟩ := hkeyed _ hs
  have hhash := hk.symm.trans (Eq.trans hkey hk')
  obtain ⟨-, hid, -, hts⟩ := (payload_task_eq_iff hrange hrange').mp
    (hsha _ hr _ hs (Option.some.inj hhash))
  exact EventRow.task.inj (hone _ hr _ hs (congrArg Sum.inl hid) hts)

theorem worker_eq_of_keyed (hkeyed : ∀ r ∈ rows, Keyed r) (hone : OneAtATime rows)
    (hsha : NoCollision rows) {r s : WorkerEvent} (hr : .worker r ∈ rows)
    (hs : .worker s ∈ rows) (hkey : r.dedupeKey = s.dedupeKey) : r = s := by
  obtain ⟨hk, hrange⟩ := hkeyed _ hr
  obtain ⟨hk', hrange'⟩ := hkeyed _ hs
  have hhash := hk.symm.trans (Eq.trans hkey hk')
  obtain ⟨-, hhost, hts⟩ := (payload_worker_eq_iff hrange hrange').mp
    (hsha _ hr _ hs (Option.some.inj hhash))
  exact EventRow.worker.inj (hone _ hr _ hs (congrArg Sum.inr hhost) hts)

end Keys

def SameEvents (db db' : Db) : Prop :=
  db'.taskEvents = db.taskEvents ∧ db'.workerEvents = db.workerEvents

theorem Holds.congr {rows : List EventRow} {db db' : Db} (h : Holds rows db)
    (hsame : SameEvents db db') : Holds rows db' := by
  obtain ⟨htasks, hworkers⟩ := hsame
  constructor
  · rw [htasks]
    exact h.nodupTasks
  · rw [hworkers]
    exact h.nodupWorkers
  · rw [htasks]
    exact h.tasks
  · rw [hworkers]
    exact h.workers

theorem sameEvents_handle (s : System) (env : Env) (scan : Scan) (event : Dict) :
    SameEvents (ingest env.lib s.db ⟨env.now, event⟩) (s.handle env scan event).system.db := by
  unfold System.handle ingest
  cases handlerOf event with
  | none => exact ⟨rfl, rfl⟩
  | some typed =>
    obtain ⟨type, h⟩ := typed
    dsimp only
    cases h.run env.lib env.now event s.db with
    | error e => exact ⟨rfl, rfl⟩
    | ok db => exact ⟨rfl, rfl⟩

theorem ingest_of_none {lib : PyLib} {db : Db} {d : Delivery}
    (h : eventRow lib d.now d.event = none) : ingest lib db d = db := by
  unfold eventRow at h
  unfold ingest
  split at h
  · next hh => rw [hh]
  · next type row hh =>
    rw [hh]
    dsimp only [Handler.run]
    cases hr : row lib d.now d.event with
    | error e => rfl
    | ok r =>
      rw [hr] at h
      cases h
  · next type row hh =>
    rw [hh]
    dsimp only [Handler.run]
    cases hr : row lib d.now d.event with
    | error e => rfl
    | ok r =>
      rw [hr] at h
      cases h

theorem holds_prune {rows : List EventRow} {db : Db} (h : Holds rows db) (cutoff : Int)
    (runs : Option Int) :
    Holds (rows.filter fun r => !decide (r.timestamp < cutoff)) (db.prune (some cutoff) runs) := by
  have hvals : ∀ {α : Type} (t : Table α) (time : α → Int),
      (t.deleteWhere fun r => decide (time r.val < cutoff)).vals =
        t.vals.filter fun v => !decide (time v < cutoff) := by
    intro α t time
    unfold Table.vals
    rw [Table.rows_deleteWhere, List.filter_map]
    rfl
  have hpruned : Holds (rows.filter fun r => !decide (r.timestamp < cutoff))
      (db.prune (some cutoff) none) := by
    constructor
    · show (db.taskEvents.deleteWhere _).vals.Nodup
      rw [hvals db.taskEvents (·.timestamp)]
      exact h.nodupTasks.filter _
    · show (db.workerEvents.deleteWhere _).vals.Nodup
      rw [hvals db.workerEvents (·.timestamp)]
      exact h.nodupWorkers.filter _
    · intro r
      show r ∈ (db.taskEvents.deleteWhere _).vals ↔ _
      rw [hvals db.taskEvents (·.timestamp), List.mem_filter, List.mem_filter, h.tasks]
      rfl
    · intro r
      show r ∈ (db.workerEvents.deleteWhere _).vals ↔ _
      rw [hvals db.workerEvents (·.timestamp), List.mem_filter, List.mem_filter, h.workers]
      rfl
  cases runs with
  | none => exact hpruned
  | some runs => exact hpruned.congr ⟨rfl, rfl⟩

/-- One operation, among deliveries that are told apart by their keys. -/
theorem holds_step {all rows : List EventRow} {s : System} {op : SystemOp}
    (hkeyed : ∀ r ∈ all, Keyed r) (hone : OneAtATime all) (hsha : NoCollision all)
    (hop : ∀ r, op.row = some r → r ∈ all) (hrows : rows ⊆ all) (h : Holds rows s.db) :
    op.effect.apply rows ⊆ all ∧ Holds (op.effect.apply rows) (s.step op).db := by
  cases op with
  | deliver env scan event =>
    have hsame := sameEvents_handle s env scan event
    cases hrow : eventRow env.lib env.now event with
    | none =>
      have heffect : (SystemOp.deliver env scan event).effect = .skip := by
        unfold SystemOp.effect
        dsimp only
        rw [hrow]
      rw [ingest_of_none (d := ⟨env.now, event⟩) hrow] at hsame
      rw [heffect]
      exact ⟨hrows, h.congr hsame⟩
    | some row =>
      have hrowOf : (SystemOp.deliver env scan event).row = some row := hrow
      have hin := hop row hrowOf
      rw [effect_eq_add.mpr hrowOf]
      refine ⟨List.append_subset.mpr ⟨hrows, List.cons_subset.mpr ⟨hin, List.nil_subset _⟩⟩, ?_⟩
      refine (holds_ingest h (d := ⟨env.now, event⟩) hrow ?_ ?_ ?_).congr hsame
      · rw [(hkeyed row hin).1]
        rfl
      · rintro r s rfl hr hkey
        exact task_eq_of_keyed hkeyed hone hsha (hrows hr) hin hkey
      · rintro r s rfl hr hkey
        exact worker_eq_of_keyed hkeyed hone hsha (hrows hr) hin hkey
  | tick env scan => exact ⟨hrows, h.congr ⟨rfl, rfl⟩⟩
  | create env data => exact ⟨hrows, h.congr (onlyAutomations_create ..).events⟩
  | update env id data => exact ⟨hrows, h.congr (onlyAutomations_update ..).events⟩
  | delete id => exact ⟨hrows, h.congr (events_deleteAutomation ..)⟩
  | toggle env id => exact ⟨hrows, h.congr (onlyAutomations_toggle ..).events⟩
  | seed env => exact ⟨hrows, h.congr (onlyAutomations_seed ..).events⟩
  | prune events runs =>
    cases events with
    | some cutoff =>
      exact ⟨fun r hr => hrows (List.mem_of_mem_filter hr), holds_prune h cutoff runs⟩
    | none =>
      refine ⟨hrows, h.congr ?_⟩
      cases runs <;> exact ⟨rfl, rfl⟩

/-- The deliveries of a history are told apart: each event carries a timestamp, no two events of one
task or worker share one, and their keys do not collide. -/
structure Distinct (ops : List SystemOp) : Prop where
  stamped : AllStamped ops
  one : OneAtATime (delivered ops)
  sha : NoCollision (delivered ops)

theorem Distinct.keyed {ops : List SystemOp} (h : Distinct ops) :
    ∀ row ∈ delivered ops, Keyed row := by
  intro row hrow
  obtain ⟨op, hop, hrow⟩ := List.mem_filterMap.mp hrow
  unfold SystemOp.row at hrow
  split at hrow
  · next env scan event =>
    have hsome : (eventRow env.lib env.now event).isSome := by
      rw [hrow]
      rfl
    exact key_of_stamped (h.stamped env scan event hop hsome) hrow
  · cases hrow

theorem holds_live {ops : List SystemOp} (h : Distinct ops) :
    Holds (liveRows ops) (run System.step .empty ops).db := by
  have hstart : [] ⊆ delivered ops ∧ Holds [] System.empty.db := by
    refine ⟨List.nil_subset _, ?_⟩
    constructor <;> simp [System.empty, Db.empty, Table.vals]
  have hall : Along System.step (fun _ op => ∀ r, op.row = some r → r ∈ delivered ops)
      .empty ops :=
    along_of_forall fun op hop r hr => List.mem_filterMap.mpr ⟨op, hop, hr⟩
  have hrun := hall.simulates (R := fun rows s => rows ⊆ delivered ops ∧ Holds rows s.db)
    (f := LogOp.apply) (g := SystemOp.effect)
    (fun rows s op hop hrows => holds_step h.keyed h.one h.sha hop hrows.1 hrows.2) hstart
  exact hrun.2

/-! ## The results -/

/-- **The event tables hold exactly the live events.** After any history of deliveries, periodic
turns, automation edits, seedings and prunes, a table has an event's row if and only if some
delivery of the event was followed by no event prune that reaches its time; and it has it once. -/
theorem events_live (ops : List SystemOp) (h : Distinct ops) :
    let db := (run System.step .empty ops).db
    db.taskEvents.vals.Nodup ∧ db.workerEvents.vals.Nodup ∧
      (∀ r, r ∈ db.taskEvents.vals ↔ Live ops (.task r)) ∧
      (∀ r, r ∈ db.workerEvents.vals ↔ Live ops (.worker r)) := by
  have hholds := holds_live h
  exact ⟨hholds.nodupTasks, hholds.nodupWorkers,
    fun r => (hholds.tasks r).trans mem_liveRows, fun r => (hholds.workers r).trans mem_liveRows⟩

/-- A task sent and started, and a prune between the two times. -/
def prunedHistory : List SystemOp :=
  [.deliver (.idle 0) .byId sentEvent, .deliver (.idle 0) .byId startedEvent,
    .prune (some 1500000) none]

theorem distinct_prunedHistory : Distinct prunedHistory where
  stamped env scan event hop _ := by
    simp only [prunedHistory, List.mem_cons, List.not_mem_nil, or_false, SystemOp.deliver.injEq,
      reduceCtorEq] at hop
    rcases hop with ⟨-, -, rfl⟩ | ⟨-, -, rfl⟩ <;> unfold Stamped <;> decide
  one := by
    unfold OneAtATime
    decide +kernel
  sha := by
    unfold NoCollision
    decide +kernel

/-- The event before the cutoff is gone. -/
theorem events_live_prunedHistory :
    ((run System.step .empty prunedHistory).db.taskEvents.vals.map (·.eventType)) = [.started] ∧
      (run System.step .empty prunedHistory).db.taskEvents.vals.Nodup :=
  ⟨by decide +kernel, (events_live prunedHistory distinct_prunedHistory).1⟩

theorem Live.delivered {ops : List SystemOp} {row : EventRow} (h : Live ops row) :
    row ∈ delivered ops := by
  obtain ⟨before, op, after, rfl, hop, -⟩ := h
  exact List.mem_filterMap.mpr ⟨op, by simp, hop⟩

/-- **Histories with the same live events answer alike.** However two histories differ in the order
and number of deliveries, in when they were pruned, and in everything the automations did: if the
same events are live after both, every query gives the same answer, in every environment and scan
order. -/
theorem live_answers (ops ops' : List SystemOp) (h : Distinct ops) (h' : Distinct ops')
    (hsame : ∀ row, Live ops row ↔ Live ops' row) (sql : Sql) (env : Env) (scan scan' : Scan) :
    SameAnswers sql (env.reading scan (run System.step .empty ops).db)
      (env.reading scan' (run System.step .empty ops').db) := by
  have hholds := holds_live h
  have hholds' := holds_live h'
  have hrows : ∀ r, r ∈ liveRows ops ↔ r ∈ liveRows ops' := fun r =>
    mem_liveRows.trans ((hsame r).trans mem_liveRows.symm)
  obtain ⟨htasks, hworkers⟩ := hholds.perm hholds' hrows
  have hlive : liveRows ops ⊆ Taskowl.delivered ops := fun r hr => (mem_liveRows.mp hr).delivered
  obtain ⟨hat, haw⟩ := hholds.apart (h.one.subset hlive)
  have hscan : ((env.reading scan _).taskRows.map (·.val)).Perm
    (run System.step .empty ops).db.taskEvents.vals := (scan.perm _).map _
  have hscanw : ((env.reading scan _).workerRows.map (·.val)).Perm
    (run System.step .empty ops).db.workerEvents.vals := (scan.perm _).map _
  refine SameLog.sameAnswers ?_ sql
  exact
    { lib := rfl, settings := rfl, now := rfl, fromIso := rfl
      tasks := hscan.trans (htasks.trans ((scan'.perm _).map _).symm)
      workers := hscanw.trans (hworkers.trans ((scan'.perm _).map _).symm)
      tasksApart := hat.perm hscan.symm
      workersApart := haw.perm hscanw.symm }

/-- The start alone, arriving later. -/
def lateHistory : List SystemOp := [.deliver (.idle 5) .byId startedEvent]

theorem live_answers_late :
    let task := "12345678-1234-5678-1234-567812345678"
    getTask ((Env.idle 9).reading .byId (run System.step .empty prunedHistory).db) task =
      getTask ((Env.idle 9).reading .byId (run System.step .empty lateHistory).db) task := by
  have hlate : Distinct lateHistory :=
    { stamped := fun env scan event hop _ => by
        cases List.mem_singleton.mp hop
        unfold Stamped
        decide
      one := by
        unfold OneAtATime
        decide +kernel
      sha := by
        unfold NoCollision
        decide +kernel }
  have hsame : liveRows prunedHistory = liveRows lateHistory := by decide +kernel
  exact (live_answers prunedHistory lateHistory distinct_prunedHistory hlate
    (fun row => by rw [← mem_liveRows, ← mem_liveRows, hsame]) .ascii (.idle 9) .byId
    .byId).getTask _

end Taskowl
