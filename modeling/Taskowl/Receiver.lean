import Taskowl.Handlers
import Taskowl.Lib.Run
import Taskowl.Outcome

/-!
# The consumer process

`_handle_event` and `_periodic_automation_check` of `receiver.py` over the
whole database, and the operations other processes run on it between them:
the automation operations and `prune_events`. Each is a step of a `System`.
-/

namespace Taskowl

open Lib Py

/-- The database and what the process has sent and remembers. -/
structure System where
  db : Db
  world : World := {}

def System.empty : System := ⟨.empty, {}⟩

/-- The environment of a transaction on `db`, whose event tables are scanned in an order. -/
def Env.reading (env : Env) (scan : Scan) (db : Db) : Env :=
  { env with taskRows := scan.order db.taskEvents.rows
             workerRows := scan.order db.workerEvents.rows }

/-- The handler `on_event` finds for an event, with the event's type. -/
def handlerOf (event : Dict) : Option (String × Handler) :=
  match event.get "type" with
  | .str type => (handlers type).map fun h => (type, h)
  | _ => none

theorem handlers_of_handlerOf {event : Dict} {type : String} {hd : Handler}
    (h : handlerOf event = some (type, hd)) : handlers type = some hd := by
  unfold handlerOf at h
  split at h
  · next t _ =>
    cases hh : handlers t with
    | none => rw [hh] at h; cases h
    | some hd' => rw [hh] at h; cases h; exact hh
  · cases h

/-- The hosts whose next offline alert an event allows. -/
def markOnlineOf (type : String) (event : Dict) (w : World) : World :=
  if type = "worker-online" ∨ type = "worker-heartbeat" then
    match event.get "hostname" with
    | .str "" => w
    | .str h => w.markOnline h
    | _ => w
  else w

theorem effects_markOnlineOf (type : String) (event : Dict) (w : World) :
    (markOnlineOf type event w).effects = w.effects := by
  unfold markOnlineOf
  split
  · split <;> rfl
  · rfl

/-- What handling an event leaves. -/
structure Handled where
  system : System
  dispatched : List Nat := []
  /-- No exception was caught. -/
  completed : Bool

def Handled.ofPass (db : Db) (pass : Pass) : Handled :=
  ⟨⟨{ db with runs := pass.runs }, pass.world⟩, pass.dispatched, pass.raised.isNone⟩

/-- `_handle_event(event, handler_func)`; an event without a handler is ignored before it. -/
def System.handle (s : System) (env : Env) (scan : Scan) (event : Dict) : Handled :=
  match handlerOf event with
  | none => ⟨s, [], true⟩
  | some (type, h) => match h.run env.lib env.now event s.db with
    | .error _ => ⟨s, [], false⟩
    | .ok db =>
      .ofPass db (evaluateEvent (env.reading scan db) type event
        (scan.order db.automations.rows) db.runs (markOnlineOf type event s.world))

theorem System.handle_eq {s : System} {env : Env} {scan : Scan} {event : Dict} {type : String}
    {h : Handler} {db : Db} (hh : handlerOf event = some (type, h))
    (hrun : h.run env.lib env.now event s.db = .ok db) :
    s.handle env scan event = .ofPass db (evaluateEvent (env.reading scan db) type event
      (scan.order db.automations.rows) db.runs (markOnlineOf type event s.world)) := by
  unfold System.handle
  rw [hh]
  dsimp only
  rw [hrun]

/-- A turn of `_periodic_automation_check`. -/
def System.tick (s : System) (env : Env) (scan : Scan) : System :=
  let pass := evaluatePeriodic (env.reading scan s.db) (scan.order s.db.automations.rows)
    s.db.runs s.world
  ⟨{ s.db with runs := pass.runs }, pass.world⟩

/-- `prune_events`: what its batches delete in all, given the cutoffs of a positive retention. -/
def Db.prune (db : Db) (events runs : Option Int) : Db :=
  let db := match events with
    | none => db
    | some cutoff =>
      { db with taskEvents := db.taskEvents.deleteWhere fun r => decide (r.val.timestamp < cutoff)
                workerEvents :=
                  db.workerEvents.deleteWhere fun r => decide (r.val.timestamp < cutoff) }
  match runs with
  | none => db
  | some cutoff => { db with runs := db.runs.deleteWhere fun r => decide (r.createdAt < cutoff) }

inductive SystemOp where
  | deliver (env : Env) (scan : Scan) (event : Dict)
  | tick (env : Env) (scan : Scan)
  | create (env : Env) (data : Dict)
  | update (env : Env) (id : Nat) (data : Dict)
  | delete (id : Nat)
  | toggle (env : Env) (id : Nat)
  | seed (env : Env)
  | prune (events runs : Option Int)

def System.step (s : System) : SystemOp → System
  | .deliver env scan event => (s.handle env scan event).system
  | .tick env scan => s.tick env scan
  | .create env data => { s with db := (createAutomation env.now data s.db).1 }
  | .update env id data => { s with db := (updateAutomation env.now id data s.db).1 }
  | .delete id => { s with db := (deleteAutomation id s.db).1 }
  | .toggle env id => { s with db := (toggleAutomation env.now id s.db).1 }
  | .seed env => { s with db := (seedBuiltinAutomations env.settings env.now s.db).1 }
  | .prune events runs => { s with db := s.db.prune events runs }

end Taskowl
