import Taskowl.Lib.Upsert
import Taskowl.LiveEvents

/-!
# Concurrent ingestion

Every event that arrives gets a coroutine of its own (`_make_handler_wrapper`),
so any number of handlers are in flight, each with an INSERT and a commit in a
transaction of its own, and the retention loop deletes in between. A handler
whose key an open transaction holds waits for it; one that raises or is
cancelled leaves nothing behind. What is committed is what the same handlers
leave one after the other (`ingest_serializable`).
-/

namespace Taskowl

open Lib Py

/-! ## Handlers in flight -/

inductive Phase where
  | arrived
  /-- Its INSERT is done, its transaction open. -/
  | written
  | stored
  /-- No row: it has no handler, raised, or was cancelled. -/
  | dropped
  deriving DecidableEq, Repr

structure Handling where
  delivery : Delivery
  phase : Phase := .arrived

/-- What took effect: the handler at an index, or a DELETE. -/
inductive EventOp where
  | deliver (i : Nat) (d : Delivery)
  | expire (dead : EventRow → Bool)

structure Ingesting where
  heap : List (Version EventRow) := []
  handlings : List Handling
  /-- In the order of the effects. -/
  log : List EventOp := []

/-- The unique index of a row's table, and the key in it. -/
def EventRow.slot : EventRow → Option (Bool × String)
  | .task r => r.dedupeKey.map (true, ·)
  | .worker r => r.dedupeKey.map (false, ·)

namespace Ingesting

def start (ds : List Delivery) : Ingesting := { handlings := ds.map ({ delivery := · }) }

def put (s : Ingesting) (i : Nat) (h : Handling) : Ingesting :=
  { s with handlings := s.handlings.set i h }

/-- `insert_event` up to its commit; while another transaction holds the key, nothing happens. -/
def write (lib : PyLib) (s : Ingesting) (i : Nat) (d : Delivery) : Ingesting :=
  match eventRow lib d.now d.event with
  | none => s.put i ⟨d, .dropped⟩
  | some row => match Version.holder EventRow.slot s.heap row with
    | none => { s.put i ⟨d, .written⟩ with heap := s.heap ++ [⟨row, some i⟩] }
    | some v =>
      if v.writer = none then { s.put i ⟨d, .written⟩ with log := s.log ++ [.deliver i d] }
      else s

/-- `session.commit()`; a handler that found its row there has nothing to commit. -/
def commit (s : Ingesting) (i : Nat) (d : Delivery) : Ingesting :=
  { s.put i ⟨d, .stored⟩ with
    heap := Version.commit s.heap i
    log := if Version.writtenBy s.heap i = [] then s.log else s.log ++ [.deliver i d] }

/-- A handler takes its next step, one in flight fails, or a DELETE of event rows commits. -/
inductive HandlerTurn where
  | step (i : Nat)
  | fail (i : Nat)
  /-- A batch of `prune_events`: the rows it picks. -/
  | expire (dead : EventRow → Bool)

def turn (lib : PyLib) (s : Ingesting) : HandlerTurn → Ingesting
  | .step i => match s.handlings[i]? with
    | some ⟨d, .arrived⟩ => s.write lib i d
    | some ⟨d, .written⟩ => s.commit i d
    | _ => s
  | .fail i => match s.handlings[i]? with
    | some ⟨d, .arrived⟩ | some ⟨d, .written⟩ =>
      { s.put i ⟨d, .dropped⟩ with heap := Version.abort s.heap i }
    | _ => s
  | .expire dead =>
    { s with heap := Version.expire s.heap dead, log := s.log ++ [.expire dead] }

end Ingesting

/-! ## One after the other -/

def Db.expire (db : Db) (dead : EventRow → Bool) : Db :=
  { db with taskEvents := db.taskEvents.deleteWhere fun r => dead (.task r.val)
            workerEvents := db.workerEvents.deleteWhere fun r => dead (.worker r.val) }

theorem prune_eq_expire (db : Db) (cutoff : Int) :
    db.prune (some cutoff) none = db.expire fun r => decide (r.timestamp < cutoff) := rfl

def EventOp.serve (lib : PyLib) (db : Db) : EventOp → Db
  | .deliver _ d => ingest lib db d
  | .expire dead => db.expire dead

def Db.eventRows (db : Db) : List EventRow :=
  db.taskEvents.vals.map .task ++ db.workerEvents.vals.map .worker

def EventOp.effect (lib : PyLib) : EventOp → LogOp EventRow
  | .deliver _ d => match eventRow lib d.now d.event with
    | some row => .add row
    | none => .skip
  | .expire dead => .expire dead

theorem vals_deleteWhere {α : Type} (t : Table α) (dead : α → Bool) :
    (t.deleteWhere fun r => dead r.val).vals = t.vals.filter fun a => !dead a := by
  unfold Table.vals
  rw [Table.rows_deleteWhere, List.filter_map]
  rfl

theorem eventRows_expire (db : Db) (dead : EventRow → Bool) :
    (db.expire dead).eventRows = db.eventRows.filter fun r => !dead r := by
  unfold Db.eventRows Db.expire
  dsimp only
  rw [vals_deleteWhere db.taskEvents fun r => dead (.task r),
    vals_deleteWhere db.workerEvents fun r => dead (.worker r), List.filter_append,
    List.filter_map, List.filter_map]
  rfl

section Rows

variable {lib : PyLib} {db : Db} {d : Delivery}

theorem slot_mem_iff_task {r : TaskEvent} :
    ((EventRow.task r).slot.isSome ∧ (EventRow.task r).slot ∈ db.eventRows.map EventRow.slot) ↔
      r.dedupeKey.isSome ∧ r.dedupeKey ∈ db.taskEvents.vals.map (·.dedupeKey) := by
  cases hk : r.dedupeKey with
  | none => simp [EventRow.slot, hk]
  | some k => simp [EventRow.slot, hk, Db.eventRows]

theorem slot_mem_iff_worker {r : WorkerEvent} :
    ((EventRow.worker r).slot.isSome ∧
      (EventRow.worker r).slot ∈ db.eventRows.map EventRow.slot) ↔
      r.dedupeKey.isSome ∧ r.dedupeKey ∈ db.workerEvents.vals.map (·.dedupeKey) := by
  cases hk : r.dedupeKey with
  | none => simp [EventRow.slot, hk]
  | some k => simp [EventRow.slot, hk, Db.eventRows]

theorem eventRows_ingest {row : EventRow} (hrow : eventRow lib d.now d.event = some row) :
    ((ingest lib db d).eventRows).Perm ((LogOp.add row).upsert EventRow.slot db.eventRows) := by
  unfold LogOp.upsert
  cases row with
  | task r =>
    rw [ingest_task hrow]
    unfold insertEvent Table.insertOnConflict
    simp only [slot_mem_iff_task]
    split
    · exact .refl _
    · simp only [Db.eventRows, Table.vals_insert, List.map_append, List.map_cons, List.map_nil,
        List.append_assoc]
      exact List.perm_append_comm.append_left _
  | worker r =>
    rw [ingest_worker hrow]
    unfold insertEvent Table.insertOnConflict
    simp only [slot_mem_iff_worker]
    split
    · exact .refl _
    · simp [Db.eventRows]

theorem eventRows_serve (op : EventOp) :
    ((op.serve lib db).eventRows).Perm ((op.effect lib).upsert EventRow.slot db.eventRows) := by
  cases op with
  | expire dead =>
    rw [EventOp.serve, eventRows_expire]
    exact .refl _
  | deliver i d =>
    cases hrow : eventRow lib d.now d.event with
    | none => simp [EventOp.serve, EventOp.effect, hrow, ingest_of_none hrow, LogOp.upsert]
    | some row =>
      simp only [EventOp.serve, EventOp.effect, hrow]
      exact eventRows_ingest hrow

end Rows

/-! ## The invariant -/

def served (log : List EventOp) : List Nat :=
  log.filterMap fun
    | .deliver i _ => some i
    | .expire _ => none

def expired (log : List EventOp) : List (EventRow → Bool) :=
  log.filterMap fun
    | .deliver _ _ => none
    | .expire dead => some dead

/-- A handler against its place in the log, and what its transaction holds. -/
inductive Handling.Sound (lib : PyLib) (done : Prop) : Handling → List EventRow → Prop where
  | arrived {d : Delivery} : ¬ done → Sound lib done ⟨d, .arrived⟩ []
  /-- It found its row there. -/
  | found {d : Delivery} : done → Sound lib done ⟨d, .written⟩ []
  | wrote {d : Delivery} {row : EventRow} : ¬ done → eventRow lib d.now d.event = some row →
      Sound lib done ⟨d, .written⟩ [row]
  | stored {d : Delivery} : done → Sound lib done ⟨d, .stored⟩ []
  | dropped {d : Delivery} : Sound lib done ⟨d, .dropped⟩ []

namespace Ingesting

variable {lib : PyLib} {ds : List Delivery} {s : Ingesting}

structure Inv (lib : PyLib) (ds : List Delivery) (s : Ingesting) : Prop where
  unique : Version.Unique EventRow.slot s.heap
  serial : (Version.committed s.heap).Perm (run (EventOp.serve lib) .empty s.log).eventRows
  deliveries : s.handlings.map (·.delivery) = ds
  entries : ∀ i d, .deliver i d ∈ s.log → ds[i]? = some d
  once : (served s.log).Nodup
  sound : ∀ i (h : Handling), s.handlings[i]? = some h →
    h.Sound lib (i ∈ served s.log) (Version.writtenBy s.heap i)
  closed : ∀ i, s.handlings[i]? = none → Version.writtenBy s.heap i = []

theorem Inv.delivery (hs : s.Inv lib ds) {i : Nat} {h : Handling}
    (hi : s.handlings[i]? = some h) : ds[i]? = some h.delivery := by
  rw [← hs.deliveries, List.getElem?_map, hi]
  rfl

theorem served_snoc (log : List EventOp) (i : Nat) (d : Delivery) :
    served (log ++ [.deliver i d]) = served log ++ [i] := by
  simp [served]

/-- A turn of the handler at an index: what it must do to keep the invariant. -/
theorem Inv.put (hs : s.Inv lib ds) {i : Nat} {d : Delivery} {phase phase' : Phase}
    (hi : s.handlings[i]? = some ⟨d, phase⟩) {heap : List (Version EventRow)} {log : List EventOp}
    (hunique : Version.Unique EventRow.slot heap)
    (hserial : (Version.committed heap).Perm (run (EventOp.serve lib) .empty log).eventRows)
    (hothers : ∀ j, j ≠ i → Version.writtenBy heap j = Version.writtenBy s.heap j)
    (hlog : log = s.log ∨ i ∉ served s.log ∧ log = s.log ++ [.deliver i d])
    (hsound : Handling.Sound lib (i ∈ served log) ⟨d, phase'⟩ (Version.writtenBy heap i)) :
    Inv lib ds ⟨heap, s.handlings.set i ⟨d, phase'⟩, log⟩ := by
  have hdelivery : ds[i]? = some d := hs.delivery hi
  have hdeliveries : (s.handlings.set i ⟨d, phase'⟩).map (·.delivery) = ds := by
    rw [List.map_set, hs.deliveries]
    obtain ⟨hlt, rfl⟩ := List.getElem?_eq_some_iff.mp hdelivery
    exact List.set_getElem_self hlt
  have hserved : ∀ j, j ≠ i → (j ∈ served log ↔ j ∈ served s.log) := by
    intro j hj
    rcases hlog with rfl | ⟨-, rfl⟩
    · rfl
    · simp [served_snoc, hj]
  constructor
  · exact hunique
  · exact hserial
  · exact hdeliveries
  · rcases hlog with rfl | ⟨-, rfl⟩
    · exact hs.entries
    · intro j e he
      rcases List.mem_append.mp he with he | he
      · exact hs.entries j e he
      · obtain ⟨rfl, rfl⟩ := EventOp.deliver.inj (List.mem_singleton.mp he)
        exact hdelivery
  · rcases hlog with rfl | ⟨hnew, rfl⟩
    · exact hs.once
    · rw [served_snoc]
      exact hs.once.append (List.nodup_singleton i) (List.disjoint_singleton.mpr hnew)
  · intro j h hj
    by_cases hji : j = i
    · subst hji
      have hlt := (List.getElem?_eq_some_iff.mp hi).1
      rw [List.getElem?_set_self hlt] at hj
      cases hj
      exact hsound
    · rw [List.getElem?_set_ne (Ne.symm hji)] at hj
      rw [hothers j hji, hserved j hji]
      exact hs.sound j h hj
  · intro j hj
    have hji : j ≠ i := by
      rintro rfl
      have hlt := (List.getElem?_eq_some_iff.mp hi).1
      rw [List.getElem?_set_self hlt] at hj
      cases hj
    rw [List.getElem?_set_ne (Ne.symm hji)] at hj
    rw [hothers j hji]
    exact hs.closed j hj

theorem serial_snoc {rows : List EventRow} {log : List EventOp}
    (h : rows.Perm (run (EventOp.serve lib) .empty log).eventRows) (op : EventOp) :
    ((op.effect lib).upsert EventRow.slot rows).Perm
      (run (EventOp.serve lib) .empty (log ++ [op])).eventRows := by
  rw [run_append]
  exact (upsert_perm h _).trans (eventRows_serve op).symm

theorem effect_deliver {d : Delivery} {row : EventRow}
    (hrow : eventRow lib d.now d.event = some row) (i : Nat) :
    (EventOp.deliver i d).effect lib = .add row := by
  simp [EventOp.effect, hrow]

theorem Inv.write (hs : Inv lib ds s) {i : Nat} {d : Delivery}
    (hi : s.handlings[i]? = some ⟨d, .arrived⟩) : Inv lib ds (s.write lib i d) := by
  obtain ⟨hnew, hnone⟩ :
      i ∉ served s.log ∧ Version.writtenBy s.heap i = [] := by
    have hsound := hs.sound i _ hi
    generalize Version.writtenBy s.heap i = rows at hsound
    cases hsound with
    | arrived hnew => exact ⟨hnew, rfl⟩
  unfold Ingesting.write
  split
  · refine hs.put hi hs.unique hs.serial (fun _ _ => rfl) (.inl rfl) ?_
    rw [hnone]
    exact .dropped
  · next row hrow =>
    split
    · next hholder =>
      refine hs.put hi (Version.unique_insert hs.unique
        (fun k hk => Version.holder_eq_none hholder hk) _) ?_ ?_ (.inl rfl) ?_
      · rw [Version.committed_insert]
        exact hs.serial
      · intro j hj
        rw [Version.writtenBy_insert, if_neg hj]
      · rw [Version.writtenBy_insert, if_pos rfl, hnone]
        exact .wrote hnew hrow
    · next v hholder =>
      split
      · next hcommitted =>
        refine hs.put hi hs.unique ?_ (fun _ _ => rfl) (.inr ⟨hnew, rfl⟩) ?_
        · have hserial := serial_snoc hs.serial (.deliver i d)
          rwa [effect_deliver hrow, Version.upsert_of_committed hholder hcommitted] at hserial
        · show Handling.Sound lib _ _ (Version.writtenBy s.heap i)
          rw [hnone]
          exact .found (by simp [served_snoc])
      · exact hs

theorem Inv.commit (hs : Inv lib ds s) {i : Nat} {d : Delivery}
    (hi : s.handlings[i]? = some ⟨d, .written⟩) : Inv lib ds (s.commit i d) := by
  have hothers : ∀ j, j ≠ i →
      Version.writtenBy (Version.commit s.heap i) j = Version.writtenBy s.heap j := by
    intro j hj
    rw [Version.writtenBy_commit, if_neg hj]
  have hmine : Version.writtenBy (Version.commit s.heap i) i = [] := by
    rw [Version.writtenBy_commit, if_pos rfl]
  have hcommitted : (Version.committed (Version.commit s.heap i)).Perm
      (Version.committed s.heap ++ Version.writtenBy s.heap i) := Version.committed_commit
  have hsound := hs.sound i _ hi
  unfold Ingesting.commit
  generalize hrows : Version.writtenBy s.heap i = rows at hsound hcommitted
  cases hsound with
  | found hdone =>
    rw [if_pos rfl]
    rw [List.append_nil] at hcommitted
    refine hs.put hi (Version.unique_commit hs.unique) (hcommitted.trans hs.serial) hothers
      (.inl rfl) ?_
    rw [hmine]
    exact .stored hdone
  | @wrote d row hnew hrow =>
    rw [if_neg (List.cons_ne_nil _ _)]
    refine hs.put hi (Version.unique_commit hs.unique) ?_ hothers (.inr ⟨hnew, rfl⟩) ?_
    · have hserial := serial_snoc hs.serial (.deliver i d)
      have hin : ⟨row, some i⟩ ∈ s.heap := Version.mem_writtenBy.mp (by simp [hrows])
      rw [effect_deliver hrow, Version.upsert_of_written hs.unique hin] at hserial
      exact hcommitted.trans hserial
    · rw [hmine]
      exact .stored (by simp [served_snoc])

theorem Inv.fail (hs : Inv lib ds s) {i : Nat} {d : Delivery} {phase : Phase}
    (hi : s.handlings[i]? = some ⟨d, phase⟩) :
    Inv lib ds { s.put i ⟨d, .dropped⟩ with heap := Version.abort s.heap i } := by
  refine hs.put hi (hs.unique.filter _) ?_ (fun j hj => ?_) (.inl rfl) ?_
  · rw [Version.committed_abort]
    exact hs.serial
  · rw [Version.writtenBy_abort, if_neg hj]
  · rw [Version.writtenBy_abort, if_pos rfl]
    exact .dropped

theorem Inv.expire (hs : Inv lib ds s) (dead : EventRow → Bool) :
    Inv lib ds { s with heap := Version.expire s.heap dead, log := s.log ++ [.expire dead] } := by
  have hserved : served (s.log ++ [.expire dead]) = served s.log := by simp [served]
  constructor
  · exact hs.unique.filter _
  · rw [Version.committed_expire]
    exact serial_snoc hs.serial (.expire dead)
  · exact hs.deliveries
  · intro i d hd
    exact hs.entries i d (by simpa using hd)
  · rw [hserved]
    exact hs.once
  · intro i h hi
    rw [hserved, Version.writtenBy_expire]
    exact hs.sound i h hi
  · intro i hi
    rw [Version.writtenBy_expire]
    exact hs.closed i hi

theorem inv_turn (s : Ingesting) (t : HandlerTurn) (hs : Inv lib ds s) :
    Inv lib ds (s.turn lib t) := by
  cases t with
  | step i =>
    unfold turn
    dsimp only
    split
    · next d hi => exact hs.write hi
    · next d hi => exact hs.commit hi
    · exact hs
  | fail i =>
    unfold turn
    dsimp only
    split
    · next d hi => exact hs.fail hi
    · next d hi => exact hs.fail hi
    · exact hs
  | expire dead => exact hs.expire dead

theorem inv_start : Inv lib ds (start ds) := by
  constructor
  · exact .nil
  · exact .refl _
  · simp [start, Function.comp_def]
  · intro i d hd
    cases hd
  · exact .nil
  · intro i h hi
    obtain ⟨d, -, rfl⟩ := List.mem_map.mp (List.mem_of_getElem? hi)
    exact .arrived List.not_mem_nil
  · intro i _
    rfl

def HandlerTurn.deletes : HandlerTurn → List (EventRow → Bool)
  | .expire dead => [dead]
  | _ => []

theorem expired_turn (s : Ingesting) (t : HandlerTurn) :
    expired (s.turn lib t).log = expired s.log ++ t.deletes := by
  cases t with
  | step i =>
    unfold turn write commit
    dsimp only
    split
    · split
      · simp [put, HandlerTurn.deletes]
      · split
        · simp [put, HandlerTurn.deletes]
        · split <;> simp [expired, HandlerTurn.deletes]
    · split <;> simp [expired, HandlerTurn.deletes]
    · simp [HandlerTurn.deletes]
  | fail i =>
    unfold turn
    dsimp only
    split <;> simp [put, HandlerTurn.deletes]
  | expire dead => simp [turn, expired, HandlerTurn.deletes]

theorem expired_run (turns : List HandlerTurn) (s : Ingesting) :
    expired (run (turn lib) s turns).log = expired s.log ++ turns.flatMap HandlerTurn.deletes := by
  induction turns generalizing s with
  | nil => simp
  | cons t turns ih =>
    rw [run_cons, ih, expired_turn, List.flatMap_cons, List.append_assoc]

/-- What the handlers in flight come to: the rows committed are those of a history of deliveries
and DELETEs, one after the other. -/
structure Serialized (lib : PyLib) (ds : List Delivery) (turns : List HandlerTurn) (s : Ingesting) :
    Prop where
  rows : (Version.committed s.heap).Perm (run (EventOp.serve lib) .empty s.log).eventRows
  /-- The history has deliveries of the handlers, none of them twice. -/
  entries : ∀ i d, .deliver i d ∈ s.log → ds[i]? = some d
  once : (served s.log).Nodup
  /-- It has the DELETEs that were committed, in their order. -/
  deletes : expired s.log = turns.flatMap HandlerTurn.deletes
  /-- A handler takes effect after it arrives and before it is done. -/
  arrived : ∀ i d, s.handlings[i]? = some ⟨d, .arrived⟩ → i ∉ served s.log
  stored : ∀ i d, s.handlings[i]? = some ⟨d, .stored⟩ → .deliver i d ∈ s.log
  /-- No key stands twice, at any time. -/
  keys : ((Version.committed s.heap).filterMap EventRow.slot).Nodup

theorem mem_served {log : List EventOp} {i : Nat} :
    i ∈ served log ↔ ∃ d, EventOp.deliver i d ∈ log := by
  unfold served
  rw [List.mem_filterMap]
  constructor
  · rintro ⟨op, hop, heq⟩
    cases op with
    | deliver j d =>
      cases heq
      exact ⟨d, hop⟩
    | expire dead => cases heq
  · rintro ⟨d, hd⟩
    exact ⟨_, hd, rfl⟩

theorem inv_run (turns : List HandlerTurn) : Inv lib ds (run (turn lib) (start ds) turns) :=
  run_invariant (I := Inv lib ds) inv_turn turns inv_start

end Ingesting

open Ingesting

/-- **Ingestion is serializable.** However the handlers in flight, their failures and the DELETEs
of the retention loop interleave, the event tables hold what the handlers leave that take effect
one after the other, each between its start and its commit. -/
theorem ingest_serializable (lib : PyLib) (ds : List Delivery) (turns : List HandlerTurn) :
    Serialized lib ds turns (run (turn lib) (start ds) turns) := by
  have hinv : Ingesting.Inv lib ds (run (turn lib) (start ds) turns) := inv_run turns
  constructor
  · exact hinv.serial
  · exact hinv.entries
  · exact hinv.once
  · rw [expired_run]
    rfl
  · intro i d hi
    have hsound := hinv.sound i _ hi
    generalize Version.writtenBy _ i = rows at hsound
    cases hsound with
    | arrived hnew => exact hnew
  · intro i d hi
    have hsound := hinv.sound i _ hi
    generalize Version.writtenBy _ i = rows at hsound
    cases hsound with
    | stored hdone =>
      obtain ⟨e, he⟩ := mem_served.mp hdone
      have heq := (hinv.entries i e he).symm.trans (hinv.delivery hi)
      rwa [Option.some.inj heq] at he
  · exact Version.nodup_keys hinv.unique

end Taskowl
