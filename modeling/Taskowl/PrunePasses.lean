import Taskowl.Lib.Interleave
import Taskowl.Maintenance
import Taskowl.Queries

/-!
# Prune passes, statement by statement

`run_prune` with any integer for a batch size, as a process that executes one
statement a step: several of them may run on one database, interleaved. A
negative `LIMIT` is an error or no limit, which is left to the database. A
pass moves on from a table when a batch was not full, and then no expired row
is left in that table, whoever deletes beside it.
-/

namespace Taskowl

open Lib Py

/-- What the database makes of `LIMIT n`: an error, or at most so many rows. -/
structure Backend where
  limit : Int → Except PyErr (Option Nat)
  limit_of_nonneg : ∀ n m, 0 ≤ n → limit n = .ok m → m = some n.toNat
  limit_of_neg : ∀ n m, n < 0 → limit n = .ok m → m = none

/-- PostgreSQL: the argument is bound as a 32-bit integer. -/
def Backend.postgres : Backend where
  limit n :=
    if n < 0 then .error ⟨.dataError, "LIMIT must not be negative"⟩
    else if n < 2 ^ 31 then .ok (some n.toNat)
    else .error ⟨.dataError, "value out of int32 range"⟩
  limit_of_nonneg n m hn h := by
    rw [if_neg (by omega)] at h
    split at h
    · exact (Except.ok.inj h).symm
    · cases h
  limit_of_neg n m hn h := by
    rw [if_pos hn] at h
    cases h

/-- SQLite: a negative limit is none. -/
def Backend.sqlite : Backend where
  limit n :=
    if n < 0 then .ok none
    else if n < 2 ^ 63 then .ok (some n.toNat)
    else .error ⟨.overflowError, "Python int too large to convert to SQLite INTEGER"⟩
  limit_of_nonneg n m hn h := by
    rw [if_neg (by omega)] at h
    split at h
    · exact (Except.ok.inj h).symm
    · cases h
  limit_of_neg n m hn h := by
    rw [if_pos hn] at h
    exact (Except.ok.inj h).symm

inductive PruneTable where
  | taskEvents
  | workerEvents
  | automationRuns
  deriving DecidableEq, Repr

/-- `SELECT id .. WHERE time_column < cutoff ORDER BY id`. -/
def Db.expiredIds (db : Db) (table : PruneTable) (cutoff : Int) : List Nat :=
  match table with
  | .taskEvents =>
    (db.taskEvents.rows.filter fun r => decide (r.val.timestamp < cutoff)).map (·.id)
  | .workerEvents =>
    (db.workerEvents.rows.filter fun r => decide (r.val.timestamp < cutoff)).map (·.id)
  | .automationRuns => (db.runs.rows.filter fun r => decide (r.createdAt < cutoff)).map (·.id)

/-- `DELETE FROM table WHERE id IN ids`. -/
def Db.deleteIds (db : Db) (table : PruneTable) (ids : List Nat) : Db :=
  match table with
  | .taskEvents => { db with taskEvents := db.taskEvents.deleteWhere fun r => decide (r.id ∈ ids) }
  | .workerEvents =>
    { db with workerEvents := db.workerEvents.deleteWhere fun r => decide (r.id ∈ ids) }
  | .automationRuns => { db with runs := db.runs.deleteWhere fun r => decide (r.id ∈ ids) }

def PruneCounts.add (counts : PruneCounts) (table : PruneTable) (n : Nat) : PruneCounts :=
  match table with
  | .taskEvents => { counts with taskEvents := counts.taskEvents + n }
  | .workerEvents => { counts with workerEvents := counts.workerEvents + n }
  | .automationRuns => { counts with automationRuns := counts.automationRuns + n }

def PruneCounts.of (counts : PruneCounts) : PruneTable → Nat
  | .taskEvents => counts.taskEvents
  | .workerEvents => counts.workerEvents
  | .automationRuns => counts.automationRuns

/-- What `prune_events` has yet to do. -/
inductive PruneStage where
  /-- `_prune_table` of a table. -/
  | table (table : PruneTable) (cutoff : Int)
  /-- A cutoff that raises. -/
  | cutoff (e : PyErr)
  deriving DecidableEq

inductive PruneError where
  | database (e : PyErr)
  | raised (e : PyErr)
  deriving DecidableEq

/-- A call of `run_prune`. -/
structure PrunePass where
  batch : Int
  dryRun : Bool
  todo : List PruneStage
  counts : PruneCounts := {}
  error : Option PruneError := none
  /-- The ids of the rows it deleted. -/
  deleted : PruneTable → List Nat := fun _ => []

/-- The retention fields of the settings. -/
structure RetentionSettings where
  eventRetentionDays : Int := 0
  automationRunRetentionDays : Int := 0
  retentionBatchSize : Int := 10000

structure PruneArgs where
  dryRun : Bool := false
  batchSize : Option Int := none
  eventRetentionDays : Option Int := none
  automationRunRetentionDays : Option Int := none

/-- `batch_size or settings.retention_batch_size`. -/
def PruneArgs.batch (args : PruneArgs) (settings : RetentionSettings) : Int :=
  match args.batchSize with
  | none => settings.retentionBatchSize
  | some n => if n = 0 then settings.retentionBatchSize else n

def PruneArgs.eventDays (args : PruneArgs) (settings : RetentionSettings) : Int :=
  args.eventRetentionDays.getD settings.eventRetentionDays

def PruneArgs.runDays (args : PruneArgs) (settings : RetentionSettings) : Int :=
  args.automationRunRetentionDays.getD settings.automationRunRetentionDays

/-- The tables of one retention window, once its cutoff is computed. -/
def pruneStages (now days : Int) (tables : List PruneTable) : List PruneStage :=
  match retentionCutoff now days with
  | .error e => [.cutoff e]
  | .ok none => []
  | .ok (some cutoff) => tables.map fun table => .table table cutoff

/-- The tables in the order of `prune_events`. -/
def pruneTodo (now eventDays runDays : Int) : List PruneStage :=
  pruneStages now eventDays [.taskEvents, .workerEvents] ++
    pruneStages now runDays [.automationRuns]

/-- `run_prune` as it starts. -/
def runPrune (settings : RetentionSettings) (now : Int) (args : PruneArgs) : PrunePass where
  batch := args.batch settings
  dryRun := args.dryRun
  todo := pruneTodo now (args.eventDays settings) (args.runDays settings)

def PrunePass.batchDeleted (p : PrunePass) (table : PruneTable) (ids : List Nat)
    (rest : List PruneStage) : PrunePass :=
  { p with
    todo := if (ids.length : Int) < p.batch then rest else p.todo
    counts := p.counts.add table ids.length
    deleted := fun t => if t = table then p.deleted t ++ ids else p.deleted t }

/-- The next statement of a pass. -/
def pruneStep (backend : Backend) (db : Db) (p : PrunePass) : Db × PrunePass :=
  match p.todo with
  | [] => (db, p)
  | .cutoff e :: _ => (db, { p with todo := [], error := some (.raised e) })
  | .table table cutoff :: rest =>
    let expired := db.expiredIds table cutoff
    if p.dryRun then (db, { p with todo := rest, counts := p.counts.add table expired.length })
    else match backend.limit p.batch with
      | .error e => (db, { p with todo := [], error := some (.database e) })
      | .ok limit =>
        let ids := limited limit expired
        (db.deleteIds table ids, p.batchDeleted table ids rest)

def PrunePass.solo (backend : Backend) (db : Db) (p : PrunePass) (n : Nat) : Db × PrunePass :=
  (fun s : Db × PrunePass => pruneStep backend s.1 s.2)^[n] (db, p)

def PrunePass.Returned (p : PrunePass) : Prop := p.todo = [] ∧ p.error = none

instance (p : PrunePass) : Decidable p.Returned := by unfold PrunePass.Returned; infer_instance

/-- What a statement does: nothing is left to do, or the pass fails, or a batch is deleted. -/
theorem pruneStep_cases (backend : Backend) (db : Db) {p : PrunePass} (hreal : p.dryRun = false) :
    pruneStep backend db p = (db, p) ∧ p.todo = [] ∨
    (∃ e, .cutoff e ∈ p.todo ∧
      pruneStep backend db p = (db, { p with todo := [], error := some (.raised e) })) ∨
    (∃ e, backend.limit p.batch = .error e ∧
      pruneStep backend db p = (db, { p with todo := [], error := some (.database e) })) ∨
    ∃ table cutoff rest limit, p.todo = .table table cutoff :: rest ∧
      backend.limit p.batch = .ok limit ∧
      pruneStep backend db p = (db.deleteIds table (limited limit (db.expiredIds table cutoff)),
        p.batchDeleted table (limited limit (db.expiredIds table cutoff)) rest) := by
  unfold pruneStep
  split
  · next htodo => exact .inl ⟨rfl, htodo⟩
  · next e rest htodo => exact .inr (.inl ⟨e, htodo ▸ List.mem_cons_self, rfl⟩)
  · next table cutoff rest htodo =>
    rw [hreal]
    dsimp only
    cases hlimit : backend.limit p.batch with
    | error e => exact .inr (.inr (.inl ⟨e, rfl, rfl⟩))
    | ok limit => exact .inr (.inr (.inr ⟨table, cutoff, rest, limit, htodo, rfl, rfl⟩))

/-! ## Expired rows -/

/-- The cutoffs of a pass. -/
structure Cutoffs where
  events : Option Int
  runs : Option Int

def Cutoffs.of (c : Cutoffs) : PruneTable → Option Int
  | .taskEvents | .workerEvents => c.events
  | .automationRuns => c.runs

def Db.overdue (db : Db) (c : Cutoffs) (table : PruneTable) : List Nat :=
  match c.of table with
  | none => []
  | some cutoff => db.expiredIds table cutoff

section Tables

variable {db : Db} {c : Cutoffs} {table : PruneTable} {ids : List Nat} {cutoff : Int}

theorem overdue_eq (h : c.of table = some cutoff) :
    db.overdue c table = db.expiredIds table cutoff := by
  unfold Db.overdue
  rw [h]

theorem nodup_expiredIds (db : Db) (table : PruneTable) (cutoff : Int) :
    (db.expiredIds table cutoff).Nodup := by
  have hids : ∀ {α : Type} (t : Table α) (p : Row α → Bool),
      ((t.rows.filter p).map (·.id)).Nodup :=
    fun t p => (t.nodup_ids (.refl _)).sublist (List.filter_sublist.map _)
  cases table <;> exact hids _ _

theorem expiredIds_deleteIds (db : Db) (table : PruneTable) (ids : List Nat) (cutoff : Int) :
    (db.deleteIds table ids).expiredIds table cutoff =
      (db.expiredIds table cutoff).filter fun i => decide (i ∉ ids) := by
  have hids : ∀ {α : Type} (t : Table α) (p : Row α → Bool),
      (((t.deleteWhere fun r => decide (r.id ∈ ids)).rows.filter p).map (·.id)) =
        ((t.rows.filter p).map (·.id)).filter fun i => decide (i ∉ ids) := by
    intro α t p
    rw [Table.rows_deleteWhere, List.filter_map, List.filter_comm]
    congr 2
    funext r
    exact (decide_not (p := r.id ∈ ids)).symm
  cases table <;> exact hids _ _

theorem expiredIds_deleteIds_of_ne {other : PruneTable} (h : other ≠ table) :
    (db.deleteIds table ids).expiredIds other cutoff = db.expiredIds other cutoff := by
  cases table <;> cases other <;> first | rfl | exact absurd rfl h

theorem overdue_deleteIds_subset (db : Db) (c : Cutoffs) (table other : PruneTable)
    (ids : List Nat) : (db.deleteIds table ids).overdue c other ⊆ db.overdue c other := by
  unfold Db.overdue
  cases c.of other with
  | none => exact fun _ h => h
  | some cutoff =>
    dsimp only
    by_cases h : other = table
    · subst h
      rw [expiredIds_deleteIds]
      exact List.filter_subset_self _
    · rw [expiredIds_deleteIds_of_ne h]
      exact fun _ hi => hi

theorem prune_deleteIds (hc : c.of table = some cutoff) (hids : ids ⊆ db.expiredIds table cutoff) :
    (db.deleteIds table ids).prune c.events c.runs = db.prune c.events c.runs := by
  have hwhole : ∀ {α : Type} (t : Table α) (p : Row α → Bool),
      ids ⊆ (t.rows.filter p).map (·.id) →
        (t.deleteWhere fun r => decide (r.id ∈ ids)).deleteWhere p = t.deleteWhere p := by
    intro α t p hids
    refine Table.ext ?_ rfl
    simp only [Table.rows_deleteWhere, List.filter_filter]
    apply List.filter_congr
    intro r hr
    by_cases hid : r.id ∈ ids
    · obtain ⟨s, hs, hsid⟩ := List.mem_map.mp (hids hid)
      obtain ⟨hs, hp⟩ := List.mem_filter.mp hs
      rw [t.eq_of_id_eq hs hr hsid] at hp
      simp [hp]
    · simp [hid]
  obtain ⟨events, runs⟩ := c
  cases table
  · obtain rfl : events = some cutoff := hc
    cases runs <;> simp only [Db.prune, Db.deleteIds, hwhole _ _ hids]
  · obtain rfl : events = some cutoff := hc
    cases runs <;> simp only [Db.prune, Db.deleteIds, hwhole _ _ hids]
  · obtain rfl : runs = some cutoff := hc
    cases events <;> simp only [Db.prune, Db.deleteIds, hwhole _ _ hids]

theorem prune_eq_self (h : ∀ table, db.overdue c table = []) : db.prune c.events c.runs = db := by
  have hnone : ∀ {α : Type} (t : Table α) (p : Row α → Bool),
      (t.rows.filter p).map (·.id) = [] → t.deleteWhere p = t := by
    intro α t p hp
    refine Table.ext (List.filter_eq_self.mpr fun r hr => ?_) rfl
    have := List.filter_eq_nil_iff.mp (List.map_eq_nil_iff.mp hp) r hr
    simpa using this
  have htasks : ∀ cutoff, c.events = some cutoff →
      db.taskEvents.deleteWhere (fun r => decide (r.val.timestamp < cutoff)) = db.taskEvents :=
    fun cutoff hc => hnone _ _ ((overdue_eq (show c.of .taskEvents = _ from hc)).symm.trans (h _))
  have hworkers : ∀ cutoff, c.events = some cutoff →
      db.workerEvents.deleteWhere (fun r => decide (r.val.timestamp < cutoff)) =
        db.workerEvents := fun cutoff hc =>
    hnone _ _ ((overdue_eq (show c.of .workerEvents = _ from hc)).symm.trans (h _))
  have hruns : ∀ cutoff, c.runs = some cutoff →
      db.runs.deleteWhere (fun r => decide (r.createdAt < cutoff)) = db.runs := fun cutoff hc =>
    hnone _ _ ((overdue_eq (show c.of .automationRuns = _ from hc)).symm.trans (h _))
  obtain ⟨events, runs⟩ := c
  cases events with
  | none =>
    cases runs with
    | none => rfl
    | some cutoff => simp only [Db.prune, hruns cutoff rfl]
  | some cutoff =>
    cases runs with
    | none => simp only [Db.prune, htasks cutoff rfl, hworkers cutoff rfl]
    | some old => simp only [Db.prune, htasks cutoff rfl, hworkers cutoff rfl, hruns old rfl]

end Tables

/-! ## Interleaved passes -/

section Lists

variable {α : Type}

theorem Backend.limited_eq {backend : Backend} {n : Int} {limit : Option Nat} (hn : 0 ≤ n)
    (h : backend.limit n = .ok limit) (xs : List α) : limited limit xs = xs.take n.toNat := by
  rw [backend.limit_of_nonneg n limit hn h]
  rfl

theorem filter_notMem_take [DecidableEq α] {xs : List α} (h : xs.Nodup) (n : Nat) :
    (xs.filter fun x => decide (x ∉ xs.take n)) = xs.drop n := by
  have hsplit := List.take_append_drop n xs
  rw [← hsplit] at h
  conv_lhs => rw [← hsplit]
  rw [List.filter_append, List.filter_eq_nil_iff.mpr, List.nil_append, List.filter_eq_self.mpr]
  · intro x hx
    rw [hsplit]
    exact decide_eq_true fun htake => (List.nodup_append.mp h).2.2 x htake x hx rfl
  · intro x hx
    rw [hsplit]
    simpa using hx

end Lists

/-- A pass that deletes in positive batches, along its way. -/
structure Pruning (c : Cutoffs) (db : Db) (p : PrunePass) : Prop where
  pos : 1 ≤ p.batch
  real : p.dryRun = false
  stages : ∀ stage ∈ p.todo, ∃ table cutoff, stage = .table table cutoff ∧ c.of table = some cutoff
  /-- No expired row is left in a table it is through with. -/
  through : p.error = none → ∀ table, (∀ cutoff, .table table cutoff ∉ p.todo) →
    db.overdue c table = []
  counted : ∀ table, p.counts.of table = (p.deleted table).length
  unraised : ∀ e, p.error ≠ some (.raised e)

section Steps

variable {backend : Backend} {c : Cutoffs} {db : Db} {p : PrunePass}

@[simp] theorem PruneCounts.of_add (counts : PruneCounts) (table other : PruneTable) (n : Nat) :
    (counts.add table n).of other = counts.of other + if other = table then n else 0 := by
  cases table <;> cases other <;> rfl

theorem Pruning.mono {db' : Db} (h : Pruning c db p)
    (hsub : ∀ table, db'.overdue c table ⊆ db.overdue c table) : Pruning c db' p :=
  { h with
    through := fun he table htable =>
      List.eq_nil_of_subset_nil (h.through he table htable ▸ hsub table) }

section Batch

variable {table : PruneTable} {cutoff : Int} {rest : List PruneStage} {ids : List Nat}

/-- What a batch leaves of the expired rows of its table. -/
theorem overdue_batch (hc : c.of table = some cutoff)
    (hids : (db.expiredIds table cutoff).take p.batch.toNat = ids) :
    (db.deleteIds table ids).overdue c table =
      (db.expiredIds table cutoff).drop p.batch.toNat := by
  rw [overdue_eq hc, expiredIds_deleteIds, ← hids]
  exact filter_notMem_take (nodup_expiredIds ..) _

theorem Pruning.batch (h : Pruning c db p) (htodo : p.todo = .table table cutoff :: rest)
    (hc : c.of table = some cutoff)
    (hids : (db.expiredIds table cutoff).take p.batch.toNat = ids) :
    Pruning c (db.deleteIds table ids) (p.batchDeleted table ids rest) := by
  have hpos := h.pos
  have hleft := h.mono fun other => overdue_deleteIds_subset db c table other ids
  refine ⟨h.pos, h.real, ?_, ?_, ?_, h.unraised⟩
  · intro stage hs
    refine h.stages stage ?_
    unfold PrunePass.batchDeleted at hs
    dsimp only at hs
    split at hs
    · rw [htodo]
      exact List.mem_cons_of_mem _ hs
    · exact hs
  · intro he other hother
    unfold PrunePass.batchDeleted at he hother
    dsimp only at he hother
    split at hother
    · next hshort =>
      by_cases hsame : other = table
      · -- A batch that is not full took them all.
        subst hsame
        rw [overdue_batch hc hids, List.drop_eq_nil_iff]
        rw [← hids, List.length_take] at hshort
        omega
      · refine hleft.through he other fun cutoff hmem => ?_
        rw [htodo] at hmem
        rcases List.mem_cons.mp hmem with heq | hmem
        · cases heq
          exact hsame rfl
        · exact hother cutoff hmem
    · exact hleft.through he other hother
  · intro other
    unfold PrunePass.batchDeleted
    dsimp only
    rw [PruneCounts.of_add, h.counted]
    split
    · rw [List.length_append]
    · rfl

theorem deleted_batch (p : PrunePass) (rest : List PruneStage) (hc : c.of table = some cutoff)
    (hids : (db.expiredIds table cutoff).take p.batch.toNat = ids) (other : PruneTable) :
    ((p.batchDeleted table ids rest).deleted other ++
      (db.deleteIds table ids).overdue c other).Perm (p.deleted other ++ db.overdue c other) := by
  unfold PrunePass.batchDeleted
  dsimp only
  split
  · next hsame =>
    subst hsame
    rw [overdue_batch hc hids, ← hids, List.append_assoc, List.take_append_drop, overdue_eq hc]
  · next hne =>
    unfold Db.overdue
    simp only [expiredIds_deleteIds_of_ne hne]
    exact .refl _

end Batch

theorem Pruning.step (backend : Backend) (h : Pruning c db p) :
    Pruning c (pruneStep backend db p).1 (pruneStep backend db p).2 ∧
      (∀ table, (pruneStep backend db p).1.overdue c table ⊆ db.overdue c table) ∧
      (pruneStep backend db p).1.prune c.events c.runs = db.prune c.events c.runs ∧
      ∀ table, ((pruneStep backend db p).2.deleted table ++
        (pruneStep backend db p).1.overdue c table).Perm
          (p.deleted table ++ db.overdue c table) := by
  obtain ⟨hstep, -⟩ | ⟨e, hraises, -⟩ | ⟨e, -, hstep⟩ |
    ⟨table, cutoff, rest, limit, htodo, hlimit, hstep⟩ := pruneStep_cases backend db h.real
  · rw [hstep]
    exact ⟨h, fun _ _ hi => hi, rfl, fun _ => .refl _⟩
  · obtain ⟨_, _, heq, -⟩ := h.stages _ hraises
    cases heq
  · rw [hstep]
    refine ⟨{ h with
      stages := fun _ hs => ?_, through := fun he => ?_, unraised := fun e he => ?_ },
      fun _ _ hi => hi, rfl, fun _ => .refl _⟩
    · cases hs
    · cases he
    · cases he
  · obtain ⟨_, _, heq, hc⟩ := h.stages _ (htodo ▸ List.mem_cons_self)
    cases heq
    have hpos := h.pos
    rw [Backend.limited_eq (by omega) hlimit] at hstep
    rw [hstep]
    refine ⟨h.batch htodo hc rfl, fun other => overdue_deleteIds_subset db c table other _,
      prune_deleteIds hc (List.take_subset _ _), fun other => deleted_batch p rest hc rfl other⟩

end Steps

theorem retentionCutoff_eq {now days : Int} {cutoff : Option Int}
    (h : retentionCutoff now days = .ok cutoff) :
    cutoff = if 0 < days then some (now - days * dayUs) else none := by
  split
  · next hpos =>
    cases cutoff with
    | none =>
      unfold retentionCutoff at h
      rw [if_pos hpos] at h
      split at h
      · cases h
      · split at h <;> cases h
    | some cutoff => rw [retentionCutoff_eq_some h]
  · next hneg =>
    unfold retentionCutoff at h
    rw [if_neg hneg] at h
    exact (Except.ok.inj h).symm

section Calls

variable {backend : Backend} {db : Db} {settings : RetentionSettings} {args : PruneArgs} {now : Int}
  {c : Cutoffs}

theorem pruneTodo_eq {eventDays runDays : Int}
    (hevents : retentionCutoff now eventDays = .ok c.events)
    (hruns : retentionCutoff now runDays = .ok c.runs) :
    pruneTodo now eventDays runDays =
      (c.events.elim [] fun cutoff => [.table .taskEvents cutoff, .table .workerEvents cutoff]) ++
        c.runs.elim [] fun cutoff => [.table .automationRuns cutoff] := by
  unfold pruneTodo pruneStages
  rw [hevents, hruns]
  cases c.events <;> cases c.runs <;> rfl

theorem mem_todo_runPrune (hevents : retentionCutoff now (args.eventDays settings) = .ok c.events)
    (hruns : retentionCutoff now (args.runDays settings) = .ok c.runs) {stage : PruneStage} :
    stage ∈ (runPrune settings now args).todo ↔
      ∃ table cutoff, stage = .table table cutoff ∧ c.of table = some cutoff := by
  show stage ∈ pruneTodo _ _ _ ↔ _
  rw [pruneTodo_eq hevents hruns, List.mem_append]
  constructor
  · rintro (h | h)
    · cases he : c.events with
      | none => rw [he] at h; cases h
      | some cutoff =>
        rw [he] at h
        rcases List.mem_cons.mp h with rfl | h
        · exact ⟨_, _, rfl, he⟩
        · exact ⟨_, _, List.mem_singleton.mp h, he⟩
    · cases hr : c.runs with
      | none => rw [hr] at h; cases h
      | some cutoff =>
        rw [hr] at h
        exact ⟨_, _, List.mem_singleton.mp h, hr⟩
  · rintro ⟨table, cutoff, rfl, hc⟩
    cases table with
    | taskEvents => exact .inl (by rw [show c.events = some cutoff from hc]; simp)
    | workerEvents => exact .inl (by rw [show c.events = some cutoff from hc]; simp)
    | automationRuns => exact .inr (by rw [show c.runs = some cutoff from hc]; simp)

theorem Pruning.start (db : Db) (hreal : args.dryRun = false) (hpos : 1 ≤ args.batch settings)
    (hevents : retentionCutoff now (args.eventDays settings) = .ok c.events)
    (hruns : retentionCutoff now (args.runDays settings) = .ok c.runs) :
    Pruning c db (runPrune settings now args) where
  pos := hpos
  real := hreal
  stages _ hs := (mem_todo_runPrune hevents hruns).mp hs
  through _ table htable := by
    unfold Db.overdue
    cases hc : c.of table with
    | none => rfl
    | some cutoff =>
      exact absurd ((mem_todo_runPrune hevents hruns).mpr ⟨table, cutoff, rfl, hc⟩) (htable cutoff)
  counted table := by cases table <;> rfl
  unraised e he := by cases he

/-- A dry run counts the expired rows in three statements at most, and changes nothing. -/
theorem solo_dryRun (backend : Backend) (db : Db) (hdry : args.dryRun = true)
    (hevents : retentionCutoff now (args.eventDays settings) = .ok c.events)
    (hruns : retentionCutoff now (args.runDays settings) = .ok c.runs) :
    ∃ q, (runPrune settings now args).solo backend db 3 = (db, q) ∧ q.Returned ∧
      ∀ table, q.counts.of table = (db.overdue c table).length := by
  have hcall : runPrune settings now args =
      { batch := args.batch settings, dryRun := true,
        todo :=
          (c.events.elim [] fun cutoff =>
            [.table .taskEvents cutoff, .table .workerEvents cutoff]) ++
            c.runs.elim [] fun cutoff => [.table .automationRuns cutoff] } := by
    unfold runPrune
    rw [hdry, pruneTodo_eq hevents hruns]
  rw [hcall]
  obtain ⟨events, runs⟩ := c
  cases events <;> cases runs <;> refine ⟨_, rfl, ⟨rfl, rfl⟩, fun table => ?_⟩ <;> cases table <;>
    first | rfl | exact Nat.zero_add _

end Calls

/-- Not older than the cutoff of a positive retention. -/
def unexpired (now days time : Int) : Bool := decide (days ≤ 0 ∨ now - days * dayUs ≤ time)

theorem rows_prune {now days : Int} {cutoff : Option Int}
    (h : retentionCutoff now days = .ok cutoff) {α : Type} (t : Table α) (time : Row α → Int) :
    (cutoff.elim t fun cutoff => t.deleteWhere fun r => decide (time r < cutoff)).rows =
      t.rows.filter fun r => unexpired now days (time r) := by
  rw [retentionCutoff_eq h]
  unfold unexpired
  split
  · next hpos =>
    rw [Option.elim_some, Table.rows_deleteWhere_lt]
    exact List.filter_congr fun r _ => decide_eq_decide.mpr (by omega)
  · next hneg =>
    rw [Option.elim_none]
    exact (List.filter_eq_self.mpr fun r _ => decide_eq_true (.inl (by omega))).symm

/-- Along every interleaving of passes with the same cutoffs: the rows that are to go are those
deleted and those still there. -/
theorem passes_run (backend : Backend) (db : Db) {now eventDays runDays : Int}
    {events runs : Option Int} (hevents : retentionCutoff now eventDays = .ok events)
    (hruns : retentionCutoff now runDays = .ok runs) {calls : List (RetentionSettings × PruneArgs)}
    (hcalls : ∀ call ∈ calls, call.2.dryRun = false ∧ 1 ≤ call.2.batch call.1 ∧
      call.2.eventDays call.1 = eventDays ∧ call.2.runDays call.1 = runDays)
    (order : List Nat) :
    let s := run (interleave (pruneStep backend))
      (db, calls.map fun call => runPrune call.1 now call.2) order
    s.1.prune events runs = db.prune events runs ∧
      (∀ p ∈ s.2, Pruning ⟨events, runs⟩ s.1 p) ∧
      ∀ table, (s.2.flatMap (·.deleted table) ++ s.1.overdue ⟨events, runs⟩ table).Perm
        (db.overdue ⟨events, runs⟩ table) := by
  intro s
  let c : Cutoffs := ⟨events, runs⟩
  have hstep : ∀ (d : Db) (p : PrunePass),
      d.prune events runs = db.prune events runs → Pruning c d p →
        (pruneStep backend d p).1.prune events runs = db.prune events runs ∧
        Pruning c (pruneStep backend d p).1 (pruneStep backend d p).2 ∧
        ∀ table, (pruneStep backend d p).1.overdue c table ⊆ d.overdue c table :=
    fun d p hd hp => by
      obtain ⟨hp', hsub, hpruned, -⟩ := hp.step backend
      exact ⟨hpruned.trans hd, hp', hsub⟩
  have hstable : ∀ (d d' : Db) (q : PrunePass), (∀ table, d'.overdue c table ⊆ d.overdue c table) →
      Pruning c d q → Pruning c d' q := fun _ _ _ hsub hq => hq.mono hsub
  have hstart : SoundOn (fun d => d.prune events runs = db.prune events runs) (Pruning c)
      (db, calls.map fun call => runPrune call.1 now call.2) := by
    refine ⟨rfl, fun p hp => ?_⟩
    obtain ⟨call, hcall, rfl⟩ := List.mem_map.mp hp
    obtain ⟨hreal, hpos, rfl, rfl⟩ := hcalls call hcall
    exact .start db hreal hpos hevents hruns
  obtain ⟨hpruned, hpasses⟩ := interleave_invariant hstep hstable order hstart
  refine ⟨hpruned, hpasses, fun table => ?_⟩
  have h := interleave_conserved (fun p : PrunePass => p.deleted table)
    (fun d : Db => d.overdue c table) hstep hstable
    (fun d p _ hp => (hp.step backend).2.2.2 table) order hstart
  have hnone : (calls.map fun call => runPrune call.1 now call.2).flatMap
      (fun p => p.deleted table) = [] := by
    rw [List.flatMap_eq_nil_iff]
    intro p hp
    obtain ⟨call, -, rfl⟩ := List.mem_map.mp hp
    rfl
  rwa [hnone, List.nil_append] at h

/-- Prune passes on one database, one after the other or interleaved, that have all returned: the
expired rows are gone and no others, every one of them counted by one pass; together they counted
what a dry run would have. -/
theorem prune_exact (backend : Backend) (db : Db) (now eventDays runDays : Int)
    {events runs : Option Int} (hevents : retentionCutoff now eventDays = .ok events)
    (hruns : retentionCutoff now runDays = .ok runs) {calls : List (RetentionSettings × PruneArgs)}
    (hne : calls ≠ [])
    (hcalls : ∀ call ∈ calls, call.2.dryRun = false ∧ 1 ≤ call.2.batch call.1 ∧
      call.2.eventDays call.1 = eventDays ∧ call.2.runDays call.1 = runDays)
    (order : List Nat) :
    let s := run (interleave (pruneStep backend))
      (db, calls.map fun call => runPrune call.1 now call.2) order
    (∀ p ∈ s.2, p.Returned) →
      s.1 = { db with taskEvents := s.1.taskEvents, workerEvents := s.1.workerEvents,
                      runs := s.1.runs } ∧
      s.1.taskEvents.rows = db.taskEvents.rows.filter
        (fun r => unexpired now eventDays r.val.timestamp) ∧
      s.1.workerEvents.rows = db.workerEvents.rows.filter
        (fun r => unexpired now eventDays r.val.timestamp) ∧
      s.1.runs.rows = db.runs.rows.filter (fun r => unexpired now runDays r.createdAt) ∧
      (∀ table, (s.2.flatMap (·.deleted table)).Perm (db.overdue ⟨events, runs⟩ table) ∧
        ∀ p ∈ s.2, p.counts.of table = (p.deleted table).length) ∧
      ∀ settings args, args.dryRun = true → args.eventDays settings = eventDays →
        args.runDays settings = runDays →
          ∃ q, (runPrune settings now args).solo backend db 3 = (db, q) ∧ q.Returned ∧
            ∀ table, q.counts.of table = (s.2.map (·.counts.of table)).sum := by
  intro s hreturned
  let c : Cutoffs := ⟨events, runs⟩
  obtain ⟨hpruned, hpasses, hmoved⟩ := passes_run backend db hevents hruns hcalls order
  -- One pass that has returned is enough for the tables to be clear.
  have hclear : ∀ table, s.1.overdue c table = [] := by
    have hlength : s.2.length = calls.length := by
      rw [length_run_interleave, List.length_map]
    obtain ⟨p, hp⟩ := List.exists_mem_of_ne_nil s.2 fun hnil => hne (by
      rw [hnil] at hlength
      exact List.length_eq_zero_iff.mp hlength.symm)
    obtain ⟨htodo, herror⟩ := hreturned p hp
    refine fun table => (hpasses p hp).through herror table fun cutoff hmem => ?_
    rw [htodo] at hmem
    cases hmem
  have hfinal : s.1 = db.prune events runs := (prune_eq_self hclear).symm.trans hpruned
  have hcounts : ∀ table, (s.2.flatMap (·.deleted table)).Perm (db.overdue c table) ∧
      ∀ p ∈ s.2, p.counts.of table = (p.deleted table).length := by
    intro table
    refine ⟨?_, fun p hp => (hpasses p hp).counted table⟩
    have h := hmoved table
    rwa [hclear, List.append_nil] at h
  refine ⟨?_, ?_, ?_, ?_, hcounts, ?_⟩
  · rw [hfinal]
    cases events <;> cases runs <;> rfl
  · rw [hfinal, ← rows_prune hevents]
    cases events <;> cases runs <;> rfl
  · rw [hfinal, ← rows_prune hevents]
    cases events <;> cases runs <;> rfl
  · rw [hfinal, ← rows_prune hruns]
    cases events <;> cases runs <;> rfl
  · rintro settings args hdry rfl rfl
    obtain ⟨q, hq, hqreturned, hqcounts⟩ :=
      solo_dryRun backend db (c := c) hdry hevents hruns
    refine ⟨q, hq, hqreturned, fun table => ?_⟩
    obtain ⟨hperm, hlengths⟩ := hcounts table
    rw [hqcounts, ← hperm.length_eq, List.length_flatMap]
    exact congrArg List.sum (List.map_congr_left hlengths).symm

def threeEvents : Db :=
  { Db.empty with
    taskEvents := Table.repeated 0
      { eventType := .started, taskId := ⟨40, by decide⟩, timestamp := 0 } 3 }

def twoCalls : List (RetentionSettings × PruneArgs) :=
  [({}, { batchSize := some 1, eventRetentionDays := some 1 }),
    ({ retentionBatchSize := 2 }, { batchSize := some 0, eventRetentionDays := some 1 })]

/-- Taking turns, they delete the three rows. -/
theorem prune_exact_threeEvents :
    (run (interleave (pruneStep .postgres))
      (threeEvents, twoCalls.map fun call => runPrune call.1 (3 * dayUs) call.2)
      [0, 1, 0, 1, 0, 1]).1.taskEvents.rows = [] := by
  obtain ⟨-, htasks, -⟩ := prune_exact .postgres threeEvents (3 * dayUs) 1 0 rfl rfl
    (show twoCalls ≠ [] by decide) (by decide) [0, 1, 0, 1, 0, 1] (by decide)
  rw [htasks]
  decide

end Taskowl
