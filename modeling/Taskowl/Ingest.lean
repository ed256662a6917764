import Mathlib.Data.List.Induction
import Taskowl.Redelivery

/-!
# Ingestion as set insertion

Deliveries of events to the handlers, from empty tables. The payload under a
dedupe key determines the subject and the time of an event, so short of a
collision of the hash a table holds the rows of the events delivered, once
each, whatever the order and however often.
-/

namespace Taskowl

open Lib Py

/-- What an event becomes: a row of `task_events` or of `worker_events`. -/
inductive EventRow where
  | task (r : TaskEvent)
  | worker (r : WorkerEvent)
  deriving DecidableEq, Repr

/-- What makes two deliveries the same event. -/
structure Identity where
  type : String
  subject : Uuid ⊕ String
  timestamp : Int
  deriving DecidableEq

namespace EventRow

def subject : EventRow → Uuid ⊕ String
  | task r => .inl r.taskId
  | worker r => .inr r.hostname

def timestamp : EventRow → Int
  | task r => r.timestamp
  | worker r => r.timestamp

def type : EventRow → String
  | task r => r.eventType.text
  | worker r => r.eventType.text

def identity (r : EventRow) : Identity := ⟨r.type, r.subject, r.timestamp⟩

def key : EventRow → Option String
  | task r => r.dedupeKey
  | worker r => r.dedupeKey

def payload : EventRow → String
  | task r => keyPayload
    [some r.eventType.text, some r.taskId.str, r.hostname, some (isoformat r.timestamp)]
  | worker r => keyPayload
    [some r.eventType.text, some r.hostname, some (isoformat r.timestamp)]

end EventRow

/-- The row the handler of an event builds; `none` when there is no handler or it raises. -/
def eventRow (lib : PyLib) (now : Int) (event : Dict) : Option EventRow :=
  match handlerOf event with
  | none => none
  | some (_, .task row) => (row lib now event).toOption.map .task
  | some (_, .worker row) => (row lib now event).toOption.map .worker

theorem toOption_eq_some {ε α : Type} {x : Except ε α} {a : α} :
    x.toOption = some a ↔ x = .ok a := by
  cases x <;> simp [Except.toOption]

theorem eventRow_eq_task {lib : PyLib} {now : Int} {event : Dict} {r : TaskEvent} :
    eventRow lib now event = some (.task r) ↔
      ∃ type row, handlerOf event = some (type, .task row) ∧ row lib now event = .ok r := by
  unfold eventRow
  split
  · next hh => simp [hh]
  · next hh => simp [hh, toOption_eq_some]
  · next hh => simp [hh]

theorem eventRow_eq_worker {lib : PyLib} {now : Int} {event : Dict} {r : WorkerEvent} :
    eventRow lib now event = some (.worker r) ↔
      ∃ type row, handlerOf event = some (type, .worker row) ∧ row lib now event = .ok r := by
  unfold eventRow
  split
  · next hh => simp [hh]
  · next hh => simp [hh]
  · next hh => simp [hh, toOption_eq_some]

structure Delivery where
  now : Int
  event : Dict

/-- `on_event` up to the insert. -/
def ingest (lib : PyLib) (db : Db) (d : Delivery) : Db :=
  match handlerOf d.event with
  | none => db
  | some (_, h) => match h.run lib d.now d.event db with
    | .error _ => db
    | .ok db => db

def Delivery.Valid (lib : PyLib) (d : Delivery) : Prop :=
  Stamped d.event ∧ (eventRow lib d.now d.event).isSome

def rowsOf (lib : PyLib) (ds : List Delivery) : List EventRow :=
  ds.filterMap fun d => eventRow lib d.now d.event

/-- Events of one task, or of one worker, at one time are one event. -/
def OneAtATime (rows : List EventRow) : Prop :=
  ∀ r ∈ rows, ∀ s ∈ rows, r.subject = s.subject → r.timestamp = s.timestamp → r = s

/-- SHA-256 does not collide on the payloads of the rows. -/
def NoCollision (rows : List EventRow) : Prop :=
  ∀ r ∈ rows, ∀ s ∈ rows, Sha.sha256hex r.payload = Sha.sha256hex s.payload → r.payload = s.payload

/-! ## Keys -/

section Payloads

theorem bar_left_inj {a b c d : List Char} (ha : '|' ∉ a) (hc : '|' ∉ c)
    (h : a ++ '|' :: b = c ++ '|' :: d) : a = c ∧ b = d := by
  induction a generalizing c with
  | nil =>
    cases c with
    | nil => exact ⟨rfl, (List.cons.inj h).2⟩
    | cons y c => exact absurd ((List.cons.inj h).1 ▸ List.mem_cons_self) hc
  | cons x a ih =>
    cases c with
    | nil => exact absurd ((List.cons.inj h).1 ▸ List.mem_cons_self) ha
    | cons y c =>
      obtain ⟨rfl, htail⟩ := List.cons.inj h
      obtain ⟨rfl, rfl⟩ := ih (fun hm => ha (List.mem_cons_of_mem _ hm))
        (fun hm => hc (List.mem_cons_of_mem _ hm)) htail
      exact ⟨rfl, rfl⟩

theorem bar_right_inj {a b c d : List Char} (hb : '|' ∉ b) (hd : '|' ∉ d)
    (h : a ++ '|' :: b = c ++ '|' :: d) : a = c ∧ b = d := by
  have hrev : b.reverse ++ '|' :: a.reverse = d.reverse ++ '|' :: c.reverse := by
    simpa using congrArg List.reverse h
  obtain ⟨hbd, hac⟩ := bar_left_inj (by simpa using hb) (by simpa using hd) hrev
  exact ⟨List.reverse_inj.mp hac, List.reverse_inj.mp hbd⟩

theorem TaskEventType.bar_notMem_text (t : TaskEventType) : '|' ∉ t.text.toList := by
  cases t <;> decide

theorem WorkerEventType.bar_notMem_text (t : WorkerEventType) : '|' ∉ t.text.toList := by
  cases t <;> decide

theorem payload_task (r : TaskEvent) : (EventRow.task r).payload.toList =
    r.eventType.text.toList ++ '|' :: (r.taskId.str.toList ++ '|' ::
      ((r.hostname.getD "").toList ++ '|' :: (isoformat r.timestamp).toList)) := by
  simp [EventRow.payload, keyPayload]

theorem payload_worker (r : WorkerEvent) : (EventRow.worker r).payload.toList =
    r.eventType.text.toList ++ '|' ::
      (r.hostname.toList ++ '|' :: (isoformat r.timestamp).toList) := by
  simp [EventRow.payload, keyPayload]

theorem payload_task_eq_iff {r s : TaskEvent} (hr : InRange r.timestamp)
    (hs : InRange s.timestamp) :
    (EventRow.task r).payload = (EventRow.task s).payload ↔
      r.eventType = s.eventType ∧ r.taskId = s.taskId ∧
        r.hostname.getD "" = s.hostname.getD "" ∧ r.timestamp = s.timestamp := by
  rw [← String.toList_inj, payload_task, payload_task]
  constructor
  · intro h
    obtain ⟨htype, h⟩ := bar_left_inj r.eventType.bar_notMem_text s.eventType.bar_notMem_text h
    obtain ⟨hid, h⟩ := bar_left_inj (Uuid.bar_notMem_str _) (Uuid.bar_notMem_str _) h
    obtain ⟨hhost, hts⟩ := bar_right_inj (bar_notMem_isoformat _) (bar_notMem_isoformat _) h
    exact ⟨TaskEventType.text_inj (String.toList_injective htype),
      Uuid.str_inj (String.toList_injective hid), String.toList_injective hhost,
      isoformat_inj hr hs (String.toList_injective hts)⟩
  · rintro ⟨htype, hid, hhost, hts⟩
    rw [htype, hid, hhost, hts]

theorem payload_worker_eq_iff {r s : WorkerEvent} (hr : InRange r.timestamp)
    (hs : InRange s.timestamp) :
    (EventRow.worker r).payload = (EventRow.worker s).payload ↔
      r.eventType = s.eventType ∧ r.hostname = s.hostname ∧ r.timestamp = s.timestamp := by
  rw [← String.toList_inj, payload_worker, payload_worker]
  constructor
  · intro h
    obtain ⟨htype, h⟩ := bar_left_inj r.eventType.bar_notMem_text s.eventType.bar_notMem_text h
    obtain ⟨hhost, hts⟩ := bar_right_inj (bar_notMem_isoformat _) (bar_notMem_isoformat _) h
    exact ⟨WorkerEventType.text_inj (String.toList_injective htype),
      String.toList_injective hhost, isoformat_inj hr hs (String.toList_injective hts)⟩
  · rintro ⟨htype, hhost, hts⟩
    rw [htype, hhost, hts]

end Payloads

/-! ## Rows of stamped events -/

section Stamped

variable {lib : PyLib} {now : Int} {event : Dict} {row : EventRow}

theorem key_of_stamped (hs : Stamped event) (h : eventRow lib now event = some row) :
    row.key = some (Sha.sha256hex row.payload) ∧ InRange row.timestamp := by
  cases row with
  | task r =>
    obtain ⟨type, build, hh, hr⟩ := eventRow_eq_task.mp h
    obtain ⟨t, hw⟩ := writesTask_of_handlers (handlers_of_handlerOf hh)
    obtain ⟨b, hb', het, hid, hts', hhost', hkey⟩ := hw.base hr
    obtain ⟨ts, uuid, id, host, hts, -, -, -, rfl⟩ := taskRow_eq_ok.mp hb'
    obtain ⟨t, rfl, hrange⟩ := eventTimestamp_stamped hs hts
    refine ⟨?_, ?_⟩
    · show r.dedupeKey = some (Sha.sha256hex (keyPayload _))
      rw [hkey, het, hid, hts', hhost']
      rfl
    · show InRange r.timestamp
      rw [hts']
      exact hrange
  | worker r =>
    obtain ⟨type, build, hh, hr⟩ := eventRow_eq_worker.mp h
    obtain ⟨t, hw⟩ := writesWorker_of_handlers (handlers_of_handlerOf hh)
    obtain ⟨b, hb', het, hhost', hts', hkey⟩ := hw.base hr
    obtain ⟨ts, v, host, freq, i, ver, sys, hts, -, -, -, -, -, -, rfl⟩ := workerRow_eq_ok.mp hb'
    obtain ⟨t, rfl, hrange⟩ := eventTimestamp_stamped hs hts
    refine ⟨?_, ?_⟩
    · show r.dedupeKey = some (Sha.sha256hex (keyPayload _))
      rw [hkey, het, hts', hhost']
      rfl
    · show InRange r.timestamp
      rw [hts']
      exact hrange

/-- Whenever it arrives, its row is the same. -/
theorem eventRow_stable (hs : Stamped event) (h : eventRow lib now event = some row) (now' : Int) :
    eventRow lib now' event = some row := by
  cases row with
  | task r =>
    obtain ⟨type, build, hh, hr⟩ := eventRow_eq_task.mp h
    obtain ⟨t, hw⟩ := writesTask_of_handlers (handlers_of_handlerOf hh)
    exact eventRow_eq_task.mpr ⟨type, build, hh, (hw.row_stable hs hr lib now').2⟩
  | worker r =>
    obtain ⟨type, build, hh, hr⟩ := eventRow_eq_worker.mp h
    obtain ⟨t, hw⟩ := writesWorker_of_handlers (handlers_of_handlerOf hh)
    exact eventRow_eq_worker.mpr ⟨type, build, hh, (hw.row_stable hs hr lib now').2⟩

end Stamped

/-! ## The tables after ingestion -/

section Ingest

variable {lib : PyLib} {db : Db} {d : Delivery} {ds : List Delivery}

theorem ingest_task {r : TaskEvent} (h : eventRow lib d.now d.event = some (.task r)) :
    ingest lib db d =
      { db with taskEvents := insertEvent (·.dedupeKey) db.taskEvents d.now r } := by
  obtain ⟨type, build, hh, hr⟩ := eventRow_eq_task.mp h
  unfold ingest
  rw [hh]
  dsimp only [Handler.run]
  rw [hr]

theorem ingest_worker {r : WorkerEvent} (h : eventRow lib d.now d.event = some (.worker r)) :
    ingest lib db d =
      { db with workerEvents := insertEvent (·.dedupeKey) db.workerEvents d.now r } := by
  obtain ⟨type, build, hh, hr⟩ := eventRow_eq_worker.mp h
  unfold ingest
  rw [hh]
  dsimp only [Handler.run]
  rw [hr]

theorem mem_rowsOf {row : EventRow} : row ∈ rowsOf lib ds ↔
    ∃ d ∈ ds, eventRow lib d.now d.event = some row := List.mem_filterMap

/-- Among the rows delivered, the key of a task row determines it. -/
theorem task_eq_of_key (hv : ∀ d ∈ ds, d.Valid lib) (hone : OneAtATime (rowsOf lib ds))
    (hsha : NoCollision (rowsOf lib ds)) {r s : TaskEvent} (hr : .task r ∈ rowsOf lib ds)
    (hs : .task s ∈ rowsOf lib ds) (hkey : r.dedupeKey = s.dedupeKey) : r = s := by
  obtain ⟨d, hd, hrow⟩ := mem_rowsOf.mp hr
  obtain ⟨d', hd', hrow'⟩ := mem_rowsOf.mp hs
  obtain ⟨hk, hrange⟩ := key_of_stamped (hv d hd).1 hrow
  obtain ⟨hk', hrange'⟩ := key_of_stamped (hv d' hd').1 hrow'
  have hhash : some (Sha.sha256hex (EventRow.task r).payload) =
      some (Sha.sha256hex (EventRow.task s).payload) := hk.symm.trans (hkey.trans hk')
  obtain ⟨-, hid, -, hts⟩ := (payload_task_eq_iff hrange hrange').mp
    (hsha _ hr _ hs (Option.some.inj hhash))
  exact EventRow.task.inj (hone _ hr _ hs (congrArg Sum.inl hid) hts)

theorem worker_eq_of_key (hv : ∀ d ∈ ds, d.Valid lib) (hone : OneAtATime (rowsOf lib ds))
    (hsha : NoCollision (rowsOf lib ds)) {r s : WorkerEvent} (hr : .worker r ∈ rowsOf lib ds)
    (hs : .worker s ∈ rowsOf lib ds) (hkey : r.dedupeKey = s.dedupeKey) : r = s := by
  obtain ⟨d, hd, hrow⟩ := mem_rowsOf.mp hr
  obtain ⟨d', hd', hrow'⟩ := mem_rowsOf.mp hs
  obtain ⟨hk, hrange⟩ := key_of_stamped (hv d hd).1 hrow
  obtain ⟨hk', hrange'⟩ := key_of_stamped (hv d' hd').1 hrow'
  have hhash : some (Sha.sha256hex (EventRow.worker r).payload) =
      some (Sha.sha256hex (EventRow.worker s).payload) := hk.symm.trans (hkey.trans hk')
  obtain ⟨-, hhost, hts⟩ := (payload_worker_eq_iff hrange hrange').mp
    (hsha _ hr _ hs (Option.some.inj hhash))
  exact EventRow.worker.inj (hone _ hr _ hs (congrArg Sum.inr hhost) hts)

theorem OneAtATime.subset {rows rows' : List EventRow} (h : OneAtATime rows)
    (hs : rows' ⊆ rows) : OneAtATime rows' := fun r hr s hs' => h r (hs hr) s (hs hs')

theorem NoCollision.subset {rows rows' : List EventRow} (h : NoCollision rows)
    (hs : rows' ⊆ rows) : NoCollision rows' := fun r hr s hs' => h r (hs hr) s (hs hs')

/-- The tables hold the rows delivered, once each. -/
structure Holds (rows : List EventRow) (db : Db) : Prop where
  nodupTasks : db.taskEvents.vals.Nodup
  nodupWorkers : db.workerEvents.vals.Nodup
  tasks : ∀ r, r ∈ db.taskEvents.vals ↔ .task r ∈ rows
  workers : ∀ r, r ∈ db.workerEvents.vals ↔ .worker r ∈ rows

theorem rowsOf_snoc (ds : List Delivery) (d : Delivery) {row : EventRow}
    (h : eventRow lib d.now d.event = some row) :
    rowsOf lib (ds ++ [d]) = rowsOf lib ds ++ [row] := by
  simp [rowsOf, h]

theorem holds_ingest {rows : List EventRow} {row : EventRow} (h : Holds rows db)
    (hrow : eventRow lib d.now d.event = some row) (hkey : row.key.isSome)
    (htask : ∀ r s, row = .task s → .task r ∈ rows → r.dedupeKey = s.dedupeKey → r = s)
    (hworker : ∀ r s, row = .worker s → .worker r ∈ rows → r.dedupeKey = s.dedupeKey → r = s) :
    Holds (rows ++ [row]) (ingest lib db d) := by
  cases row with
  | task s =>
    rw [ingest_task hrow]
    refine ⟨Table.nodup_insertOnConflict hkey h.nodupTasks, h.nodupWorkers, fun r => ?_,
      fun r => ?_⟩
    · show r ∈ (db.taskEvents.insertOnConflict _ _ _).vals ↔ _
      rw [Table.mem_insertOnConflict fun u hu => htask u s rfl ((h.tasks u).mp hu), h.tasks]
      simp
    · rw [h.workers]
      simp
  | worker s =>
    rw [ingest_worker hrow]
    refine ⟨h.nodupTasks, Table.nodup_insertOnConflict hkey h.nodupWorkers, fun r => ?_,
      fun r => ?_⟩
    · rw [h.tasks]
      simp
    · show r ∈ (db.workerEvents.insertOnConflict _ _ _).vals ↔ _
      rw [Table.mem_insertOnConflict fun u hu => hworker u s rfl ((h.workers u).mp hu), h.workers]
      simp

theorem holds_run (hv : ∀ d ∈ ds, d.Valid lib) (hone : OneAtATime (rowsOf lib ds))
    (hsha : NoCollision (rowsOf lib ds)) :
    Holds (rowsOf lib ds) (run (ingest lib) .empty ds) := by
  induction ds using List.reverseRecOn with
  | nil => constructor <;> simp [Db.empty, Table.vals, rowsOf]
  | append_singleton ds d ih =>
    obtain ⟨hstamped, hsome⟩ := hv d (List.mem_append_right _ List.mem_cons_self)
    obtain ⟨row, hrow⟩ := Option.isSome_iff_exists.mp hsome
    have hrows := rowsOf_snoc ds d hrow
    have hsub : rowsOf lib ds ⊆ rowsOf lib (ds ++ [d]) := by
      rw [hrows]
      exact List.subset_append_left _ _
    have hlast : row ∈ rowsOf lib (ds ++ [d]) := by
      rw [hrows]
      exact List.mem_append_right _ List.mem_cons_self
    have hkey : row.key.isSome := by
      rw [(key_of_stamped hstamped hrow).1]
      rfl
    rw [run_append, hrows]
    refine holds_ingest (ih (fun d' hd' => hv d' (List.mem_append_left _ hd'))
      (hone.subset hsub) (hsha.subset hsub)) hrow hkey ?_ ?_
    · rintro r s rfl hr hk
      exact task_eq_of_key hv hone hsha (hsub hr) hlast hk
    · rintro r s rfl hr hk
      exact worker_eq_of_key hv hone hsha (hsub hr) hlast hk

end Ingest

end Taskowl
