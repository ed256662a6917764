import Taskowl.LiveEvents
import Taskowl.Paging

/-!
# Paging while events arrive

A client reads the task list page by page while the consumer stores events,
prunes old ones and everything else goes on. Events move their tasks to the
front of the default order, and what is pruned was behind, so what stands
before a task without later events only grows: the client may see a task twice,
but until its first empty page it sees every task that did not move.
-/

namespace Taskowl

open Lib Py

/-! ## What an operation does to the task events -/

section Steps

variable {s : System} {op : SystemOp}

/-- A row stays unless a prune reaches its time. -/
theorem mem_taskEvents_of_mem {r : Row TaskEvent} (hr : r ∈ s.db.taskEvents.rows)
    (hkept : ∀ cutoff runs, op = .prune (some cutoff) runs → cutoff ≤ r.val.timestamp) :
    r ∈ (s.step op).db.taskEvents.rows := by
  cases op with
  | deliver env scan event =>
    show r ∈ (s.handle env scan event).system.db.taskEvents.rows
    rw [(sameEvents_handle s env scan event).1]
    cases hrow : eventRow env.lib env.now event with
    | none =>
      rw [ingest_of_none (d := ⟨env.now, event⟩) hrow]
      exact hr
    | some row =>
      cases row with
      | task e =>
        rw [ingest_task (d := ⟨env.now, event⟩) hrow]
        rcases Table.rows_insertOnConflict (·.dedupeKey) s.db.taskEvents env.now e with h | h
        · exact h.symm ▸ hr
        · exact h.symm ▸ List.mem_append_left _ hr
      | worker e =>
        rw [ingest_worker (d := ⟨env.now, event⟩) hrow]
        exact hr
  | tick env scan => exact hr
  | create env data => exact (onlyAutomations_create ..).taskEvents.symm ▸ hr
  | update env id data => exact (onlyAutomations_update ..).taskEvents.symm ▸ hr
  | delete id => exact (events_deleteAutomation ..).1.symm ▸ hr
  | toggle env id => exact (onlyAutomations_toggle ..).taskEvents.symm ▸ hr
  | seed env => exact (onlyAutomations_seed ..).taskEvents.symm ▸ hr
  | prune events runs =>
    cases events with
    | none => cases runs <;> exact hr
    | some cutoff =>
      have hdel : r ∈ (s.db.taskEvents.deleteWhere fun r =>
          decide (r.val.timestamp < cutoff)).rows := by
        rw [Table.rows_deleteWhere, List.mem_filter]
        have := hkept cutoff runs rfl
        exact ⟨hr, by simpa using this⟩
      cases runs <;> exact hdel

theorem mem_taskEvents_step {r : Row TaskEvent} (hr : r ∈ (s.step op).db.taskEvents.rows) :
    r ∈ s.db.taskEvents.rows ∨ op.row = some (.task r.val) := by
  cases op with
  | deliver env scan event =>
    have hr : r ∈ (s.handle env scan event).system.db.taskEvents.rows := hr
    rw [(sameEvents_handle s env scan event).1] at hr
    cases hrow : eventRow env.lib env.now event with
    | none =>
      rw [ingest_of_none (d := ⟨env.now, event⟩) hrow] at hr
      exact .inl hr
    | some row =>
      cases row with
      | task e =>
        rw [ingest_task (d := ⟨env.now, event⟩) hrow] at hr
        rcases Table.rows_insertOnConflict (·.dedupeKey) s.db.taskEvents env.now e with h | h
        · exact .inl (h ▸ hr)
        · rcases List.mem_append.mp (h ▸ hr) with hr | hr
          · exact .inl hr
          · cases List.mem_singleton.mp hr
            exact .inr hrow
      | worker e =>
        rw [ingest_worker (d := ⟨env.now, event⟩) hrow] at hr
        exact .inl hr
  | tick env scan => exact .inl hr
  | create env data => exact .inl ((onlyAutomations_create ..).taskEvents ▸ hr)
  | update env id data => exact .inl ((onlyAutomations_update ..).taskEvents ▸ hr)
  | delete id => exact .inl ((events_deleteAutomation ..).1 ▸ hr)
  | toggle env id => exact .inl ((onlyAutomations_toggle ..).taskEvents ▸ hr)
  | seed env => exact .inl ((onlyAutomations_seed ..).taskEvents ▸ hr)
  | prune events runs =>
    cases events with
    | none => cases runs <;> exact .inl hr
    | some cutoff =>
      have hdel : r ∈ (s.db.taskEvents.deleteWhere fun r =>
          decide (r.val.timestamp < cutoff)).rows := by cases runs <;> exact hr
      rw [Table.rows_deleteWhere] at hdel
      exact .inl (List.mem_of_mem_filter hdel)

end Steps

/-! ## A task that does not move -/

/-- The row is none of the task's after the time, nor another's at it. -/
def Beside (x : Uuid) (time : Int) (r : TaskEvent) : Prop :=
  (r.taskId = x → r.timestamp ≤ time) ∧ (r.taskId ≠ x → r.timestamp ≠ time)

/-- The task's latest event is of the time, and no other task has one then. -/
structure LatestAt (x : Uuid) (time : Int) (s : System) : Prop where
  stored : ∃ r ∈ s.db.taskEvents.rows, r.val.taskId = x ∧ r.val.timestamp = time
  rows : ∀ r ∈ s.db.taskEvents.rows, Beside x time r.val

/-- The operation leaves it so. -/
structure Spares (x : Uuid) (time : Int) (op : SystemOp) : Prop where
  row : ∀ r, op.row = some (.task r) → Beside x time r
  prune : ∀ cutoff runs, op = .prune (some cutoff) runs → cutoff ≤ time

section Moves

variable {x : Uuid} {time : Int} {s : System}

theorem LatestAt.step {op : SystemOp} (hop : Spares x time op) (h : LatestAt x time s) :
    LatestAt x time (s.step op) := by
  constructor
  · obtain ⟨r, hr, hx, ht⟩ := h.stored
    refine ⟨r, mem_taskEvents_of_mem hr fun cutoff runs heq => ?_, hx, ht⟩
    exact ht ▸ hop.prune cutoff runs heq
  · intro r hr
    rcases mem_taskEvents_step hr with hr | hr
    · exact h.rows r hr
    · exact hop.row r.val hr

theorem LatestAt.run {ops : List SystemOp} (hops : ∀ op ∈ ops, Spares x time op)
    (h : LatestAt x time s) : LatestAt x time (run System.step s ops) :=
  (along_of_forall hops).invariant (fun _ _ hop h => h.step hop) h

theorem mem_taskEvents_run {ops : List SystemOp} (hops : ∀ op ∈ ops, Spares x time op)
    {r : Row TaskEvent} (hlater : time < r.val.timestamp) (hr : r ∈ s.db.taskEvents.rows) :
    r ∈ (run System.step s ops).db.taskEvents.rows := by
  refine (along_of_forall hops).invariant (I := fun s : System => r ∈ s.db.taskEvents.rows)
    (fun s op hop hr => mem_taskEvents_of_mem hr fun cutoff runs heq => ?_) hr
  exact (hop.prune cutoff runs heq).trans hlater.le

end Moves

/-! ## The pages -/

/-- The states in which the pages are asked for, by what happens between one and the next. -/
def readings (s : System) (between : Nat → List SystemOp) : Nat → System
  | 0 => s
  | k + 1 => run System.step (readings s between k) (between k)

def taskPage (env : Env) (sql : Sql) (scan : Scan) (n k : Nat) (s : System) :
    Except PyErr (Answer (List TaskEntry)) :=
  listTasks (env.reading scan s.db) sql {} (some n) (k * n : Nat) "timestamp"

section Pages

variable {x : Uuid} {time : Int} {s : System} {env : Env} {sql : Sql} {scan : Scan}

def latestTasksFirst (a b : Windowed) : Bool := decide (b.timestamp ≤ a.timestamp)

theorem sortOrder_timestamp (sql : Sql) : sortOrder sql "timestamp" = some latestTasksFirst := rfl

theorem mem_matchingTasks_all {rows : List (Row TaskEvent)} {y : Uuid} :
    y ∈ matchingTasks env sql {} none rows ↔ ∃ r ∈ rows, r.val.taskId = y := by
  rw [matchingTasks_all, List.mem_map]
  constructor
  · rintro ⟨r, hr, rfl⟩
    exact ⟨r, (mem_latestRows.mp hr).1, rfl⟩
  · rintro ⟨r, hr, rfl⟩
    exact exists_latestRow (·.taskId) (·.timestamp) hr

/-- The tasks before one whose latest event is of a time are those with a later event. -/
theorem mem_before_iff {rows : List (Row TaskEvent)} {before after : List Uuid} {y : Uuid}
    (h : LatestAt x time s) (hrows : rows.Perm s.db.taskEvents.rows)
    (hsplit : answerIds env sql {} none latestTasksFirst rows = before ++ x :: after) :
    y ∈ before ↔ ∃ r ∈ s.db.taskEvents.rows, r.val.taskId = y ∧ time < r.val.timestamp := by
  have hsorted : (answerIds env sql {} none latestTasksFirst rows).Pairwise _ :=
    sorted_answerIds (sortOrder_timestamp sql) rows
  have hnodup : (answerIds env sql {} none latestTasksFirst rows).Nodup :=
    (answerIds_perm latestTasksFirst rows).nodup_iff.mpr (nodup_matchingTasks hrows)
  rw [hsplit] at hsorted hnodup
  obtain ⟨-, hafter, hbefore⟩ := List.pairwise_append.mp hsorted
  have hwindowed : ∀ w ∈ windowed rows, ∃ r ∈ s.db.taskEvents.rows, r.val.taskId = w.taskId ∧
      r.val.timestamp = w.timestamp ∧ ∀ u ∈ s.db.taskEvents.rows, u.val.taskId = w.taskId →
        u.val.timestamp ≤ w.timestamp := by
    intro w hw
    obtain ⟨r, hr, rfl⟩ := List.mem_map.mp hw
    obtain ⟨hmem, hnewest⟩ := mem_latestRows.mp hr
    refine ⟨r, hrows.mem_iff.mp hmem, rfl, rfl, fun u hu hid => ?_⟩
    exact (hnewest u (hrows.mem_iff.mpr hu) hid).1
  have hown : ∀ w ∈ windowed rows, w.taskId = x → w.timestamp = time := by
    rintro w hw rfl
    obtain ⟨r, hr, hid, hts, hnewest⟩ := hwindowed w hw
    obtain ⟨u, hu, hux, hut⟩ := h.stored
    exact le_antisymm (hts ▸ (h.rows r hr).1 hid) (hut ▸ hnewest u hu hux)
  constructor
  · intro hy
    obtain ⟨w, hw, v, hv, rfl, hvx, hwv⟩ := hbefore y hy x List.mem_cons_self
    obtain ⟨r, hr, hid, hts, -⟩ := hwindowed w hw
    have hne : w.taskId ≠ x := fun heq =>
      List.disjoint_of_nodup_append hnodup hy (heq ▸ List.mem_cons_self)
    have hle : time ≤ r.val.timestamp := by
      rw [hts, ← hown v hv hvx]
      exact of_decide_eq_true hwv
    exact ⟨r, hr, hid, lt_of_le_of_ne hle ((h.rows r hr).2 (hid ▸ hne)).symm⟩
  · rintro ⟨r, hr, rfl, hlater⟩
    have hmem : r.val.taskId ∈ before ++ x :: after := by
      rw [← hsplit, (answerIds_perm latestTasksFirst rows).mem_iff]
      exact mem_matchingTasks_all.mpr ⟨r, hrows.mem_iff.mpr hr, rfl⟩
    rcases List.mem_append.mp hmem with hmem | hmem
    · exact hmem
    rcases List.mem_cons.mp hmem with hx | hmem
    · exact absurd ((h.rows r hr).1 hx) (not_le_of_gt hlater)
    · obtain ⟨w, hw, v, hv, hwx, hvr, hwv⟩ := (List.pairwise_cons.mp hafter).1 _ hmem
      obtain ⟨-, -, -, -, hnewest⟩ := hwindowed v hv
      have hv : v.timestamp ≤ w.timestamp := of_decide_eq_true hwv
      rw [hown w hw hwx] at hv
      exact absurd ((hnewest r hr hvr.symm).trans hv) (not_le_of_gt hlater)

theorem taskPage_ok (env : Env) (sql : Sql) (scan : Scan) (n k : Nat) (s : System) :
    ∃ entries, taskPage env sql scan n k s = .ok (.ok entries) ∧ entries.map (·.id) =
      (page n k (answerIds (env.reading scan s.db) sql {} none latestTasksFirst
        (scan.order s.db.taskEvents.rows))).map (·.str) :=
  have hsince : parseSince (env.reading scan s.db) ({} : TaskFilter).since = .ok none := rfl
  listTasks_page hsince (sortOrder_timestamp sql) n k (scan.order s.db.taskEvents.rows)

end Pages

/-- **Paging misses no task that does not move.** Let page after page be asked for, each at its own
time and in its own scan order, with any operations between. A task whose latest event stays (no
prune reaches it, nothing later arrives for the task, and no other task has an event at its time)
is on one of the pages before the first empty one. -/
theorem paging_misses_none {x : Uuid} {time : Int} {s : System} {between : Nat → List SystemOp}
    (hlatest : LatestAt x time s) (hbetween : ∀ k, ∀ op ∈ between k, Spares x time op) (sql : Sql)
    (env : Nat → Env) (scan : Nat → Scan) {n K : Nat} (hn : 0 < n)
    (hempty : taskPage (env K) sql (scan K) n K (readings s between K) = .ok (.ok [])) :
    ∃ k < K, ∃ entries, taskPage (env k) sql (scan k) n k (readings s between k) =
      .ok (.ok entries) ∧ x.str ∈ entries.map (·.id) := by
  have hstays : ∀ k, LatestAt x time (readings s between k) := by
    intro k
    induction k with
    | zero => exact hlatest
    | succ k ih => exact ih.run (hbetween k)
  have hscan : ∀ k, ((scan k).order (readings s between k).db.taskEvents.rows).Perm
      (readings s between k).db.taskEvents.rows := fun k => (scan k).perm _
  let answer := fun k => answerIds ((env k).reading (scan k) (readings s between k).db) sql {} none
    latestTasksFirst ((scan k).order (readings s between k).db.taskEvents.rows)
  have hlisted : ∀ k, x ∈ answer k := by
    intro k
    obtain ⟨r, hr, hx, -⟩ := (hstays k).stored
    refine (answerIds_perm _ _).mem_iff.mpr (mem_matchingTasks_all.mpr ⟨r, ?_, hx⟩)
    exact (hscan k).mem_iff.mpr hr
  choose before after hsplit using fun k => List.append_of_mem (hlisted k)
  have hgrows : ∀ k, (before k).length ≤ (before (k + 1)).length := by
    intro k
    have hnodup : (answer k).Nodup :=
      (answerIds_perm _ _).nodup_iff.mpr (nodup_matchingTasks (hscan k))
    rw [hsplit k] at hnodup
    refine (List.subperm_of_subset hnodup.of_append_left fun y hy => ?_).length_le
    obtain ⟨r, hr, hid, hlater⟩ := (mem_before_iff (hstays k) (hscan k) (hsplit k)).mp hy
    refine (mem_before_iff (hstays (k + 1)) (hscan (k + 1)) (hsplit (k + 1))).mpr
      ⟨r, ?_, hid, hlater⟩
    exact mem_taskEvents_run (hbetween k) hlater hr
  have hlast : page n K (answer K) = [] := by
    obtain ⟨entries, hentries, hids⟩ := taskPage_ok (env K) sql (scan K) n K (readings s between K)
    cases hempty.symm.trans hentries
    exact List.map_eq_nil_iff.mp hids.symm
  obtain ⟨k, hk, hmem⟩ := exists_mem_page hn hsplit hgrows hlast
  obtain ⟨entries, hentries, hids⟩ := taskPage_ok (env k) sql (scan k) n k (readings s between k)
  exact ⟨k, hk, entries, hentries, hids ▸ List.mem_map_of_mem hmem⟩

def sentAt (task : String) (second : Int) : SystemOp :=
  .deliver (.idle 0) .byId [("type", .str "task-sent"), ("timestamp", .int second),
    ("uuid", .str ("00000000-0000-0000-0000-0000000000" ++ task))]

def twoSent : System := run System.step .empty [sentAt "31" 1, sentAt "32" 2]

/-- A third comes once the first page is read, and what is older than the first is pruned. -/
def thirdSent : Nat → List SystemOp
  | 0 => [sentAt "33" 3, .prune (some 1000000) none]
  | _ => []

/-- Pages of one then show the second task twice, and the first after it. -/
theorem paging_misses_none_twoSent : ∃ k < 3, ∃ entries,
    taskPage (.idle 0) .ascii .byId 1 k (readings twoSent thirdSent k) = .ok (.ok entries) ∧
      Uuid.str ⟨49, by decide⟩ ∈ entries.map (·.id) := by
  have hlatest : LatestAt ⟨49, by decide⟩ 1000000 twoSent := by
    constructor
    · decide +kernel
    · unfold Beside
      decide +kernel
  have hthird : Spares ⟨49, by decide⟩ 1000000 (sentAt "33" 3) := by
    constructor
    · intro r hr
      have hrow : ∃ e, (sentAt "33" 3).row = some (.task e) ∧ e.timestamp = 3000000 ∧
          e.taskId ≠ ⟨49, by decide⟩ := ⟨_, rfl, by decide +kernel, by decide +kernel⟩
      obtain ⟨e, he, hts, hne⟩ := hrow
      cases EventRow.task.inj (Option.some.inj (he.symm.trans hr))
      exact ⟨fun heq => absurd heq hne, fun _ => by rw [hts]; decide⟩
    · intro cutoff runs heq
      cases heq
  have hprune : Spares ⟨49, by decide⟩ 1000000 (.prune (some 1000000) none) := by
    constructor
    · intro r hr
      cases hr
    · rintro cutoff runs ⟨⟩
      decide
  refine paging_misses_none (K := 3) hlatest ?_ .ascii (fun _ => .idle 0) (fun _ => .byId)
    (by decide) (by decide +kernel)
  intro k op hop
  cases k with
  | zero =>
    rcases List.mem_cons.mp hop with rfl | hop
    · exact hthird
    · cases List.mem_singleton.mp hop
      exact hprune
  | succ k => cases hop

-- With a filter it is otherwise: once the second task has started, the sent ones are one fewer, and
-- the next page of them begins after the first.
example :
    let started : SystemOp := .deliver (.idle 0) .byId [("type", .str "task-started"),
      ("timestamp", .int 3), ("uuid", .str "00000000-0000-0000-0000-000000000032")]
    let sentPage (s : System) (k : Nat) : List String :=
      match listTasks ((Env.idle 0).reading .byId s.db) .ascii { state := some "sent" } (some 1)
        (k : Nat) "timestamp" with
      | .ok (.ok entries) => entries.map (·.id)
      | _ => []
    sentPage twoSent 0 = ["00000000-0000-0000-0000-000000000032"] ∧
      sentPage (twoSent.step started) 1 = [] := by
  decide +kernel

end Taskowl
