import Taskowl.Receiver

/-!
# Redelivered events

The key of a stored event keeps its row from being written twice, whatever
happens in between short of a prune that deletes it. The evaluation that
follows the insert knows nothing of the key: an event handled again is
evaluated again.
-/

namespace Taskowl

open Lib Py

section Keys

variable {α : Type} {key : α → Option String}

def HasKey (key : α → Option String) (k : Option String) (t : Table α) : Prop :=
  ∃ r ∈ t.rows, key r.val = k

theorem hasKey_insertEvent_self (key : α → Option String) (t : Table α) (now : Int) (v : α) :
    HasKey key (key v) (insertEvent key t now v) := by
  unfold insertEvent Table.insertOnConflict
  split
  · next h =>
    obtain ⟨u, hu, huv⟩ := List.mem_map.mp h.2
    obtain ⟨r, hr, rfl⟩ := List.mem_map.mp hu
    exact ⟨r, hr, huv⟩
  · exact ⟨⟨t.nextId, now, v⟩, List.mem_append_right _ List.mem_cons_self, rfl⟩

theorem HasKey.insertEvent {k : Option String} {t : Table α} (h : HasKey key k t) (now : Int)
    (v : α) : HasKey key k (insertEvent key t now v) := by
  unfold Taskowl.insertEvent Table.insertOnConflict
  split
  · exact h
  · obtain ⟨r, hr, hk⟩ := h
    exact ⟨r, List.mem_append_left _ hr, hk⟩

theorem insertEvent_of_hasKey {t : Table α} {v : α} (hsome : (key v).isSome)
    (h : HasKey key (key v) t) (now : Int) : Taskowl.insertEvent key t now v = t := by
  unfold Taskowl.insertEvent Table.insertOnConflict
  obtain ⟨r, hr, hk⟩ := h
  exact if_pos ⟨hsome, List.mem_map.mpr ⟨r.val, List.mem_map_of_mem hr, hk⟩⟩

end Keys

/-- The table of a handler holds a row with the key of the event. -/
def Stored (h : Handler) (event : Dict) (db : Db) : Prop :=
  match h with
  | .task row => ∃ lib now r, row lib now event = .ok r ∧
    HasKey (·.dedupeKey) r.dedupeKey db.taskEvents
  | .worker row => ∃ lib now r, row lib now event = .ok r ∧
    HasKey (·.dedupeKey) r.dedupeKey db.workerEvents

section Rows

variable {event : Dict} {lib : PyLib} {now : Int}

/-- The row of a stamped task event is the event's own: it has a key, and the process and the
time it is handled at do not change it. -/
theorem WritesTask.row_stable {type : TaskEventType} {row} (hw : WritesTask type row)
    (hs : Stamped event) {r : TaskEvent} (h : row lib now event = .ok r) (lib' : PyLib)
    (now' : Int) : r.dedupeKey.isSome ∧ row lib' now' event = .ok r := by
  obtain ⟨b, hb, -, -, -, -, hkey⟩ := hw.base h
  obtain ⟨ts, uuid, id, host, hts, huuid, hid, hhost, rfl⟩ := taskRow_eq_ok.mp hb
  obtain ⟨t, rfl, -⟩ := eventTimestamp_stamped hs hts
  refine ⟨by rw [hkey]; rfl, hw.stable h hb ?_⟩
  exact taskRow_eq_ok.mpr ⟨some t, uuid, id, host, hts, huuid, hid, hhost, rfl⟩

theorem WritesWorker.row_stable {type : WorkerEventType} {row} (hw : WritesWorker type row)
    (hs : Stamped event) {r : WorkerEvent} (h : row lib now event = .ok r) (lib' : PyLib)
    (now' : Int) : r.dedupeKey.isSome ∧ row lib' now' event = .ok r := by
  obtain ⟨b, hb, -, -, -, hkey⟩ := hw.base h
  obtain ⟨ts, v, host, freq, i, ver, sys, hts, hv, hhost, hrest⟩ := workerRow_eq_ok.mp hb
  obtain ⟨t, rfl, -⟩ := eventTimestamp_stamped hs hts
  obtain ⟨hf, hi, hver, hsys, rfl⟩ := hrest
  refine ⟨by rw [hkey]; rfl, hw.stable h hb ?_⟩
  exact workerRow_eq_ok.mpr
    ⟨some t, v, host, freq, i, ver, sys, hts, hv, hhost, hf, hi, hver, hsys, rfl⟩

variable {h : Handler} {type : String} {db db' : Db}

theorem stored_run (hrun : h.run lib now event db = .ok db') : Stored h event db' := by
  obtain ⟨row, r, rfl, hr, rfl⟩ | ⟨row, r, rfl, hr, rfl⟩ := Handler.run_cases hrun
  · exact ⟨lib, now, r, hr, hasKey_insertEvent_self TaskEvent.dedupeKey ..⟩
  · exact ⟨lib, now, r, hr, hasKey_insertEvent_self WorkerEvent.dedupeKey ..⟩

theorem Stored.run {g : Handler} {other : Dict} (hst : Stored h event db)
    (hrun : g.run lib now other db = .ok db') : Stored h event db' := by
  obtain ⟨_, _, -, -, rfl⟩ | ⟨_, _, -, -, rfl⟩ := Handler.run_cases hrun
  · cases h with
    | task row =>
      obtain ⟨lib, now, r, hr, hk⟩ := hst
      exact ⟨lib, now, r, hr, hk.insertEvent ..⟩
    | worker row => exact hst
  · cases h with
    | task row => exact hst
    | worker row =>
      obtain ⟨lib, now, r, hr, hk⟩ := hst
      exact ⟨lib, now, r, hr, hk.insertEvent ..⟩

/-- Handling a stored stamped event changes no table. -/
theorem Stored.run_again (hst : Stored h event db) (hh : handlers type = some h)
    (hs : Stamped event) : h.run lib now event db = .ok db := by
  unfold Handler.run
  cases h with
  | task row =>
    obtain ⟨lib₀, now₀, r, hr, hk⟩ := hst
    obtain ⟨_, hw⟩ := writesTask_of_handlers hh
    obtain ⟨hsome, hr'⟩ := hw.row_stable hs hr lib now
    dsimp only
    rw [hr']
    dsimp only
    rw [insertEvent_of_hasKey hsome hk]
  | worker row =>
    obtain ⟨lib₀, now₀, r, hr, hk⟩ := hst
    obtain ⟨_, hw⟩ := writesWorker_of_handlers hh
    obtain ⟨hsome, hr'⟩ := hw.row_stable hs hr lib now
    dsimp only
    rw [hr']
    dsimp only
    rw [insertEvent_of_hasKey hsome hk]

theorem Stored.congr (hst : Stored h event db)
    (heq : db'.taskEvents = db.taskEvents ∧ db'.workerEvents = db.workerEvents) :
    Stored h event db' := by
  cases h with
  | task row =>
    obtain ⟨lib, now, r, hr, hk⟩ := hst
    exact ⟨lib, now, r, hr, by rw [heq.1]; exact hk⟩
  | worker row =>
    obtain ⟨lib, now, r, hr, hk⟩ := hst
    exact ⟨lib, now, r, hr, by rw [heq.2]; exact hk⟩

end Rows

/-! ## What the operations in between do to the event tables -/

section Between

variable {db db' : Db}

structure OnlyAutomations (db db' : Db) : Prop where
  taskEvents : db'.taskEvents = db.taskEvents
  workerEvents : db'.workerEvents = db.workerEvents
  runs : db'.runs = db.runs

theorem OnlyAutomations.events (h : OnlyAutomations db db') :
    db'.taskEvents = db.taskEvents ∧ db'.workerEvents = db.workerEvents :=
  ⟨h.taskEvents, h.workerEvents⟩

theorem onlyAutomations_create (db : Db) (now : Int) (data : Dict) :
    OnlyAutomations db (createAutomation now data db).1 := by
  unfold createAutomation
  split
  · exact ⟨rfl, rfl, rfl⟩
  · split
    · exact ⟨rfl, rfl, rfl⟩
    · split
      · exact ⟨rfl, rfl, rfl⟩
      · split
        · exact ⟨rfl, rfl, rfl⟩
        · split <;> exact ⟨rfl, rfl, rfl⟩

theorem onlyAutomations_update (db : Db) (now : Int) (id : Nat) (data : Dict) :
    OnlyAutomations db (updateAutomation now id data db).1 := by
  unfold updateAutomation
  dsimp only
  split
  · exact ⟨rfl, rfl, rfl⟩
  · split
    · exact ⟨rfl, rfl, rfl⟩
    · split
      · exact ⟨rfl, rfl, rfl⟩
      · split
        · exact ⟨rfl, rfl, rfl⟩
        · split <;> exact ⟨rfl, rfl, rfl⟩

theorem onlyAutomations_toggle (db : Db) (now : Int) (id : Nat) :
    OnlyAutomations db (toggleAutomation now id db).1 := by
  unfold toggleAutomation
  split <;> exact ⟨rfl, rfl, rfl⟩

theorem onlyAutomations_seed (db : Db) (settings : Settings) (now : Int) :
    OnlyAutomations db (seedBuiltinAutomations settings now db).1 := by
  unfold seedBuiltinAutomations
  split <;> exact ⟨rfl, rfl, rfl⟩

theorem events_deleteAutomation (id : Nat) :
    (deleteAutomation id db).1.taskEvents = db.taskEvents ∧
      (deleteAutomation id db).1.workerEvents = db.workerEvents := by
  unfold deleteAutomation
  split <;> exact ⟨rfl, rfl⟩

/-- Only a prune of the events can drop a stored event. -/
theorem Stored.step {h : Handler} {event : Dict} {s : System} (hst : Stored h event s.db)
    {op : SystemOp} (hop : ∀ cutoff runs, op = .prune (some cutoff) runs →
      Stored h event (s.step op).db) : Stored h event (s.step op).db := by
  cases op with
  | deliver env scan other =>
    show Stored h event (s.handle env scan other).system.db
    unfold System.handle
    split
    · exact hst
    · split
      · exact hst
      · next hrun => exact (hst.run hrun).congr ⟨rfl, rfl⟩
  | tick env scan => exact hst.congr ⟨rfl, rfl⟩
  | create env data => exact hst.congr (onlyAutomations_create ..).events
  | update env id data => exact hst.congr (onlyAutomations_update ..).events
  | delete id => exact hst.congr (events_deleteAutomation ..)
  | toggle env id => exact hst.congr (onlyAutomations_toggle ..).events
  | seed env => exact hst.congr (onlyAutomations_seed ..).events
  | prune events runs =>
    cases events with
    | some cutoff => exact hop cutoff runs rfl
    | none =>
      refine hst.congr ?_
      show (s.db.prune none runs).taskEvents = _ ∧ (s.db.prune none runs).workerEvents = _
      unfold Db.prune
      cases runs <;> exact ⟨rfl, rfl⟩

end Between

/-! ## Handling an event again -/

/-- No row was added and no action dispatched. -/
structure NoEffect (s : System) (r : Handled) : Prop where
  taskEvents : r.system.db.taskEvents = s.db.taskEvents
  workerEvents : r.system.db.workerEvents = s.db.workerEvents
  runs : r.system.db.runs = s.db.runs
  dispatched : r.dispatched = []
  effects : r.system.world.effects = s.world.effects

/-- No event row was added, and the event was evaluated as any event is. -/
structure EvaluatedAgain (s : System) (env : Env) (scan : Scan) (type : String) (event : Dict)
    (r : Handled) : Prop where
  taskEvents : r.system.db.taskEvents = s.db.taskEvents
  workerEvents : r.system.db.workerEvents = s.db.workerEvents
  again : r = .ofPass s.db (evaluateEvent (env.reading scan s.db) type event
    (scan.order s.db.automations.rows) s.db.runs (markOnlineOf type event s.world))
  quiet : (∀ a ∈ s.db.automations.rows, matchesEvent type a = false) → NoEffect s r

theorem handle_stored {s : System} {env : Env} {scan : Scan} {event : Dict} {type : String}
    {h : Handler} (hh : handlerOf event = some (type, h)) (hs : Stamped event)
    (hst : Stored h event s.db) :
    EvaluatedAgain s env scan type event (s.handle env scan event) := by
  have hh' : handlers type = some h := by
    unfold handlerOf at hh
    split at hh
    · obtain ⟨g, hg, heq⟩ := Option.map_eq_some_iff.mp hh
      cases heq
      exact hg
    · cases hh
  rw [System.handle_eq hh (hst.run_again hh' hs)]
  refine ⟨rfl, rfl, rfl, fun hquiet => ?_⟩
  have hnone : (scan.order s.db.automations.rows).filter (matchesEvent type) = [] := by
    rw [List.filter_eq_nil_iff]
    intro a ha
    rw [hquiet a ((scan.perm _).mem_iff.mp ha)]
    exact Bool.false_ne_true
  unfold evaluateEvent
  rw [hnone]
  exact ⟨rfl, rfl, rfl, rfl, effects_markOnlineOf ..⟩

/-- An event that was handled adds no event row when it is handled again, whatever happens in
between, unless its row is pruned; it is evaluated again, to no effect if no enabled automation
has its type. -/
theorem redelivery (s : System) (env env' : Env) (scan scan' : Scan) (event : Dict)
    (type : String) (h : Handler) (ops : List SystemOp) (hh : handlerOf event = some (type, h))
    (hs : Stamped event) (hdone : (s.handle env scan event).completed = true)
    (hkept : Along System.step (fun s op => ∀ cutoff runs, op = .prune (some cutoff) runs →
      Stored h event (s.step op).db) (s.handle env scan event).system ops) :
    EvaluatedAgain (run System.step (s.handle env scan event).system ops) env' scan' type event
      ((run System.step (s.handle env scan event).system ops).handle env' scan' event) := by
  have hfirst : Stored h event (s.handle env scan event).system.db := by
    cases hrun : h.run env.lib env.now event s.db with
    | error e =>
      unfold System.handle at hdone
      rw [hh] at hdone
      dsimp only at hdone
      rw [hrun] at hdone
      cases hdone
    | ok db =>
      rw [System.handle_eq hh hrun]
      exact (stored_run hrun).congr ⟨rfl, rfl⟩
  have hlast := hkept.invariant (I := fun s => Stored h event s.db)
    (fun s op hop hst => hst.step hop) hfirst
  exact handle_stored hh hs hlast

def logFailures : Dict :=
  [("name", .str "log-failures"), ("trigger_type", .str "event"),
    ("event_type", .str "task-failed"), ("actions", .arr [.obj [("type", .str "log")]])]

def failedEvent : Dict :=
  [("type", .str "task-failed"), ("uuid", .str "12345678-1234-5678-1234-567812345678"),
    ("hostname", .str "celery@a"), ("exception", .str "KeyError()"), ("timestamp", .int 0)]

def handledOnce : Handled :=
  (run System.step .empty [.create (.idle 0) logFailures]).handle (.idle 0) .byId failedEvent

/-- Handled again, the failure is logged again; and once its row is pruned, it is stored again. -/
theorem redelivery_has_effects :
    handledOnce.completed = true ∧
      ¬ NoEffect handledOnce.system (handledOnce.system.handle (.idle 1) .byId failedEvent) ∧
      (handledOnce.system.step (.prune (some 1) none)).db.taskEvents.rows = [] ∧
      ((handledOnce.system.step (.prune (some 1) none)).handle (.idle 1) .byId
        failedEvent).system.db.taskEvents.rows ≠ [] := by
  refine ⟨by decide +kernel, fun h => ?_, by decide +kernel, by decide +kernel⟩
  have hdispatched := h.dispatched
  revert hdispatched
  decide +kernel

/-- An edit of the automation, another event and a prune that the row outlives. -/
def inBetween : List SystemOp := [
  .update (.idle 1) 1 [("cooldown_seconds", .int 0)],
  .deliver (.idle 1) .byId [("type", .str "worker-online"), ("hostname", .str "celery@a"),
    ("timestamp", .int 1)],
  .prune (some 0) none]

theorem redelivery_failedEvent :
    EvaluatedAgain (run System.step handledOnce.system inBetween) (.idle 1) .byId "task-failed"
      failedEvent
      ((run System.step handledOnce.system inBetween).handle (.idle 1) .byId failedEvent) := by
  refine redelivery (run System.step .empty [.create (.idle 0) logFailures]) (.idle 0) (.idle 1)
    .byId .byId failedEvent "task-failed" (.task handleTaskFailed) inBetween rfl
    (by unfold Stamped; decide) (by decide +kernel) ?_
  refine ⟨fun _ _ h => (nomatch h), fun _ _ h => (nomatch h), fun cutoff runs h => ?_, trivial⟩
  have hthere : ∃ r, handleTaskFailed (Env.idle 0).lib 0 failedEvent = .ok r ∧
      ∃ row ∈ (run System.step handledOnce.system inBetween).db.taskEvents.rows,
        row.val.dedupeKey = r.dedupeKey :=
    ⟨_, rfl, by decide +kernel⟩
  obtain ⟨r, hr, hrow⟩ := hthere
  exact ⟨_, _, r, hr, hrow⟩

end Taskowl
