import Taskowl.Receiver

/-!
# Retention

`maintenance.py`: the batched delete of `_prune_table` and `prune_events` over
it. A batch deletes the oldest ids first and commits; the loop stops at the
first batch that is not full, so a batch size must be positive for it to stop.
All in all the batches delete what one `DELETE` would (`pruneLoop_eq`).
-/

namespace Taskowl

open Lib Py

/-- A batch size that ends the loop. -/
structure Batch where
  size : Nat
  pos : 0 < size

section Batches

variable {α : Type}

/-- `SELECT id .. WHERE time_column < cutoff ORDER BY id LIMIT batch_size`. -/
def batchIds (expired : Row α → Bool) (batch : Batch) (t : Table α) : List Nat :=
  ((t.rows.filter expired).take batch.size).map (·.id)

/-- `DELETE .. WHERE id IN batch_ids`. -/
def deleteBatch (expired : Row α → Bool) (batch : Batch) (t : Table α) : Table α :=
  t.deleteWhere fun r => decide (r.id ∈ batchIds expired batch t)

theorem mem_batchIds {expired : Row α → Bool} {batch : Batch} {t : Table α} {i : Nat}
    (h : i ∈ batchIds expired batch t) : ∃ r ∈ t.rows, expired r = true ∧ r.id = i := by
  obtain ⟨r, hr, rfl⟩ := List.mem_map.mp h
  obtain ⟨hr, hexpired⟩ := List.mem_filter.mp (List.mem_of_mem_take hr)
  exact ⟨r, hr, hexpired, rfl⟩

theorem length_deleteBatch {expired : Row α → Bool} {batch : Batch} {t : Table α}
    (h : batchIds expired batch t ≠ []) :
    (deleteBatch expired batch t).rows.length < t.rows.length := by
  obtain ⟨i, hi⟩ := List.exists_mem_of_ne_nil _ h
  obtain ⟨r, hr, -, hid⟩ := mem_batchIds hi
  refine List.length_filter_lt_length_iff_exists.mpr ⟨r, hr, ?_⟩
  simp [hid, hi]

/-- The loop of `_prune_table`, with the total so far. -/
def pruneLoop (expired : Row α → Bool) (batch : Batch) (t : Table α) (total : Nat) :
    Table α × Nat :=
  let deleted := (batchIds expired batch t).length
  if deleted < batch.size then (deleteBatch expired batch t, total + deleted)
  else pruneLoop expired batch (deleteBatch expired batch t) (total + deleted)
termination_by t.rows.length
decreasing_by
  apply length_deleteBatch
  intro hnil
  have hpos := batch.pos
  have hzero : deleted = 0 := by simp [deleted, hnil]
  omega

/-- `_prune_table(model, time_column, cutoff, batch_size, dry_run)`. -/
def pruneTable (expired : Row α → Bool) (batch : Batch) (dryRun : Bool) (t : Table α) :
    Table α × Nat :=
  if dryRun then (t, t.rows.countP expired) else pruneLoop expired batch t 0

/-! ## What the batches delete in all -/

variable {expired : Row α → Bool} {batch : Batch} {t : Table α}

theorem deleteWhere_deleteBatch :
    (deleteBatch expired batch t).deleteWhere expired = t.deleteWhere expired := by
  refine Table.ext ?_ rfl
  show (t.rows.filter _).filter _ = t.rows.filter _
  rw [List.filter_filter]
  apply List.filter_congr
  intro r hr
  cases hexpired : expired r with
  | true => simp
  | false =>
    have hkept : r.id ∉ batchIds expired batch t := by
      intro hid
      obtain ⟨s, hs, hsexpired, hsid⟩ := mem_batchIds hid
      rw [t.eq_of_id_eq hs hr hsid, hexpired] at hsexpired
      cases hsexpired
    simp [hkept]

variable (expired batch t) in
theorem countP_deleteBatch : (batchIds expired batch t).length +
    (deleteBatch expired batch t).rows.countP expired = t.rows.countP expired := by
  have hids : ((t.rows.filter expired).map (·.id)).Nodup :=
    (List.filter_sublist.map _).nodup (t.nodup_ids (.refl _))
  have hkept : (deleteBatch expired batch t).rows.filter expired =
      (t.rows.filter expired).drop batch.size := by
    have hsplit := List.take_append_drop batch.size (t.rows.filter expired)
    show (t.rows.filter _).filter _ = _
    rw [List.filter_comm]
    conv_lhs => rw [← hsplit]
    rw [List.filter_append, List.filter_eq_nil_iff.mpr, List.nil_append,
      List.filter_eq_self.mpr]
    · -- A later expired row has another id than those of the batch.
      intro r hr
      rw [← hsplit, List.map_append, List.nodup_append] at hids
      have hnot : r.id ∉ batchIds expired batch t := fun hid =>
        hids.2.2 _ hid _ (List.mem_map_of_mem hr) rfl
      simp [hnot]
    · intro r hr
      have hid : r.id ∈ batchIds expired batch t := List.mem_map_of_mem hr
      simp [hid]
  have hlen := congrArg List.length (List.take_append_drop batch.size (t.rows.filter expired))
  rw [List.length_append] at hlen
  rw [List.countP_eq_length_filter, List.countP_eq_length_filter, hkept, batchIds,
    List.length_map]
  omega

/-- A batch that is not full deletes every expired row. -/
theorem deleteBatch_of_short (h : (batchIds expired batch t).length < batch.size) :
    deleteBatch expired batch t = t.deleteWhere expired := by
  have hall : (t.rows.filter expired).take batch.size = t.rows.filter expired := by
    apply List.take_of_length_le
    rw [batchIds, List.length_map, List.length_take] at h
    omega
  refine Table.ext ?_ rfl
  show t.rows.filter _ = t.rows.filter _
  apply List.filter_congr
  intro r hr
  have hiff : r.id ∈ batchIds expired batch t ↔ expired r = true := by
    constructor
    · intro hid
      obtain ⟨s, hs, hsexpired, hsid⟩ := mem_batchIds hid
      rw [← t.eq_of_id_eq hs hr hsid]
      exact hsexpired
    · intro hexpired
      unfold batchIds
      rw [hall]
      exact List.mem_map_of_mem (List.mem_filter.mpr ⟨hr, hexpired⟩)
  simp [hiff]

/-- The batches delete the expired rows, whatever their size, and count them. -/
theorem pruneLoop_eq (expired : Row α → Bool) (batch : Batch) (t : Table α) (total : Nat) :
    pruneLoop expired batch t total =
      (t.deleteWhere expired, total + t.rows.countP expired) := by
  induction t, total using pruneLoop.induct expired batch with
  | case1 t total deleted hshort =>
    have hcount := countP_deleteBatch expired batch t
    have hleft : (deleteBatch expired batch t).rows.countP expired = 0 := by
      rw [deleteBatch_of_short hshort, List.countP_eq_zero]
      intro r hr
      have := (List.mem_filter.mp hr).2
      simpa using this
    rw [pruneLoop, if_pos hshort, deleteBatch_of_short hshort]
    congr 1
    omega
  | case2 t total deleted hfull ih =>
    have hcount := countP_deleteBatch expired batch t
    rw [pruneLoop, if_neg hfull, ih, deleteWhere_deleteBatch]
    congr 1
    omega

theorem pruneTable_false : (pruneTable expired batch false t).1 = t.deleteWhere expired := by
  show (pruneLoop expired batch t 0).1 = _
  rw [pruneLoop_eq]

end Batches

/-! ## `prune_events` -/

/-- The cutoff of a retention window in days; `none` when it is off. -/
def retentionCutoff (now days : Int) : Except PyErr (Option Int) :=
  if 0 < days then
    match mkTimedelta (days * dayUs) with
    | .error e => .error e
    | .ok delta => match subDelta now delta with
      | .error e => .error e
      | .ok cutoff => .ok (some cutoff)
  else .ok none

theorem retentionCutoff_eq_some {now days cutoff : Int}
    (h : retentionCutoff now days = .ok (some cutoff)) : cutoff = now - days * dayUs := by
  unfold retentionCutoff mkTimedelta subDelta at h
  split at h
  · split at h
    · cases h
    · next delta hd =>
      split at hd
      · cases hd
        split at h
        · cases h
        · next t ht =>
          split at ht
          · cases ht
            cases h
            rfl
          · cases ht
      · cases hd
  · cases h

structure PruneCounts where
  taskEvents : Nat := 0
  workerEvents : Nat := 0
  automationRuns : Nat := 0
  deriving DecidableEq, Repr

def pruneEventTables (batch : Batch) (dryRun : Bool) (cutoff : Option Int) (db : Db) :
    Db × PruneCounts :=
  match cutoff with
  | none => (db, {})
  | some cutoff =>
    let (tasks, nt) :=
      pruneTable (fun r => decide (r.val.timestamp < cutoff)) batch dryRun db.taskEvents
    let (workers, nw) :=
      pruneTable (fun r => decide (r.val.timestamp < cutoff)) batch dryRun db.workerEvents
    ({ db with taskEvents := tasks, workerEvents := workers },
      { taskEvents := nt, workerEvents := nw })

/-- `prune_events(now, dry_run, batch_size, event_retention_days, automation_run_retention_days)`,
with the settings' values for the arguments left out. The event tables are committed before the
cutoff of the runs is computed. -/
def pruneEvents (now : Int) (dryRun : Bool) (batch : Batch) (eventDays runDays : Int) (db : Db) :
    Db × Except PyErr PruneCounts :=
  match retentionCutoff now eventDays with
  | .error e => (db, .error e)
  | .ok events =>
    let (db, counts) := pruneEventTables batch dryRun events db
    match retentionCutoff now runDays with
    | .error e => (db, .error e)
    | .ok none => (db, .ok counts)
    | .ok (some cutoff) =>
      let (runs, n) := pruneTable (fun r => decide (r.createdAt < cutoff)) batch dryRun db.runs
      ({ db with runs := runs }, .ok { counts with automationRuns := n })

/-- The cutoffs that a call gets as far as applying. -/
def appliedCutoffs (now eventDays runDays : Int) : Option Int × Option Int :=
  match retentionCutoff now eventDays with
  | .error _ => (none, none)
  | .ok events => match retentionCutoff now runDays with
    | .error _ => (events, none)
    | .ok runs => (events, runs)

/-- A prune pass, batch by batch, is the prune of the system. -/
theorem pruneEvents_eq (now : Int) (batch : Batch) (eventDays runDays : Int) (db : Db) :
    (pruneEvents now false batch eventDays runDays db).1 = db.prune
      (appliedCutoffs now eventDays runDays).1 (appliedCutoffs now eventDays runDays).2 := by
  have hevents : ∀ cutoff, (pruneEventTables batch false cutoff db).1 = db.prune cutoff none := by
    intro cutoff
    cases cutoff with
    | none => rfl
    | some cutoff =>
      simp only [pruneEventTables, Db.prune, pruneTable_false]
  unfold pruneEvents appliedCutoffs
  cases he : retentionCutoff now eventDays with
  | error e => rfl
  | ok events =>
    cases hr : retentionCutoff now runDays with
    | error e => exact hevents events
    | ok runs =>
      cases runs with
      | none => exact hevents events
      | some cutoff =>
        simp only [hevents, pruneTable_false]
        cases events <;> rfl

theorem pruneEvents_dryRun (now : Int) (batch : Batch) (eventDays runDays : Int) (db : Db) :
    (pruneEvents now true batch eventDays runDays db).1 = db := by
  unfold pruneEvents
  cases retentionCutoff now eventDays with
  | error e => rfl
  | ok events =>
    cases retentionCutoff now runDays with
    | error e => cases events <;> rfl
    | ok runs => cases runs <;> cases events <;> rfl

end Taskowl
