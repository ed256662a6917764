import Taskowl.ChainState
import Taskowl.Pruning

/-!
# The state of a task in three views

`list_tasks` shows a task's latest row by timestamp and then by id, `get_task`
and a retry the last of its rows by timestamp alone. Where the rows tied for
the last place differ in type or host, the order in which the database returns
them decides whether the three agree.
-/

namespace Taskowl

open Lib Py

/-- `task_info` of `_get_task_info`, before the orphan check. -/
def latestInfo (rows : List (Row TaskEvent)) (id : Uuid) : Option TaskInfo :=
  (taskEvents rows id).getLast?.map fun latest => taskInfoOf latest.val (taskEvents rows id)

/-- In whatever orders the three queries read the log, the task's row in a listing has the state
and worker that `get_task` reports, and the state that a retry looks at before the orphan check. -/
def ViewsAgree (t : Table TaskEvent) (id : Uuid) : Prop :=
  ∀ env env' rows, env.taskRows.Perm t.rows → env'.taskRows.Perm t.rows → rows.Perm t.rows →
    ∀ sql filter limit offset sortBy entries,
      listTasks env sql filter limit offset sortBy = .ok (.ok entries) →
      ∀ e ∈ entries, e.id = id.str →
        (∀ a, getTask env' id.str = .ok a →
          ∃ s, a = .ok s ∧ s.state = e.state ∧ s.worker = e.worker) ∧
        ∃ info, latestInfo rows id = some info ∧ info.state = e.state

/-- Rows tied for a task's last place have one type and one host. -/
def TiesAlike (t : Table TaskEvent) (id : Uuid) : Prop :=
  ∀ r s, LatestOf t.rows (fun e => e.taskId = id) r → LatestOf t.rows (fun e => e.taskId = id) s →
    r.val.eventType = s.val.eventType ∧ r.val.hostname = s.val.hostname

section Views

variable {env : Env} {t : Table TaskEvent} {rows : List (Row TaskEvent)} {id : Uuid}
  {r : Row TaskEvent}

theorem getTaskInfo_latestInfo {info : TaskInfo} (h : getTaskInfo env id = .ok (some info)) :
    ∃ before, latestInfo env.taskRows id = some before ∧
      (info = before ∨ info = { before with state := "orphaned" }) := by
  unfold getTaskInfo at h
  unfold latestInfo
  dsimp only at h
  split at h
  · cases h
  · next latest hlatest =>
    rw [hlatest]
    refine ⟨_, rfl, ?_⟩
    split at h
    · cases h
    · next orphaned _ =>
      cases orphaned with
      | true => exact .inr (Option.some.inj (Except.ok.inj h)).symm
      | false => exact .inl (Option.some.inj (Except.ok.inj h)).symm

/-- Whatever its filters, order and page, a listing shows latest rows. -/
theorem mem_listTasks {sql : Sql} {filter : TaskFilter} {limit : Option Nat} {offset : Int}
    {sortBy : String} {entries : List TaskEntry}
    (h : listTasks env sql filter limit offset sortBy = .ok (.ok entries)) {e : TaskEntry}
    (he : e ∈ entries) : ∃ w ∈ windowed env.taskRows, e = taskEntry w := by
  unfold listTasks at h
  split at h
  · cases h
  · split at h
    · cases h
    · cases h
      obtain ⟨w, hw, rfl⟩ := List.mem_map.mp he
      refine ⟨w, ?_, rfl⟩
      have hpage : ∀ ws : List Windowed, w ∈ limited limit ws → w ∈ ws := by
        intro ws hws
        cases limit with
        | none => exact hws
        | some n => exact List.mem_of_mem_take hws
      have hsorted := List.mem_of_mem_drop (hpage _ hw)
      rw [List.mem_insertionSort] at hsorted
      exact List.mem_of_mem_filter hsorted

theorem latestOf_of_latestRows (hrows : rows.Perm t.rows)
    (hr : r ∈ latestRows (·.taskId) (·.timestamp) rows) :
    LatestOf t.rows (fun e => e.taskId = r.val.taskId) r := by
  obtain ⟨hmem, hnewest⟩ := mem_latestRows.mp hr
  exact ⟨hrows.mem_iff.mp hmem, rfl, fun s hs ht => (hnewest s (hrows.mem_iff.mpr hs) ht).1⟩

theorem exists_last (h : LatestOf t.rows (fun e => e.taskId = id) r) :
    ∃ rows : List (Row TaskEvent), rows.Perm t.rows ∧ (taskEvents rows id).getLast? = some r := by
  obtain ⟨rows, hrows, hlast⟩ := exists_getLast? (p := fun _ => true) (by simpa using h)
  rw [List.filter_eq_self.mpr fun _ _ => rfl] at hlast
  exact ⟨rows, hrows, hlast⟩

theorem latestOf_last (hrows : rows.Perm t.rows) (h : (taskEvents rows id).getLast? = some r) :
    LatestOf t.rows (fun e => e.taskId = id) r := by
  have hlatest := latestOf_getLast? (p := fun _ => true) hrows
    (by rw [List.filter_eq_self.mpr fun _ _ => rfl]; exact h)
  simpa using hlatest

end Views

section Agreement

variable {t : Table TaskEvent} {id : Uuid}

theorem ViewsAgree.tiesAlike (h : ViewsAgree t id) : TiesAlike t id := by
  intro r s hr hs
  obtain ⟨shown, hshown, htask⟩ :=
    exists_latestRow (fun v : TaskEvent => v.taskId) (·.timestamp) hr.mem
  have hid : shown.val.taskId = id := htask.trans hr.selected
  have hkey : "timestamp" ∈ sortKeys := by decide
  obtain ⟨entries, hentries, hperm⟩ :=
    listTasks_all { Env.idle 0 with taskRows := t.rows } .ascii hkey
  have hentry := hperm.mem_iff.mpr (List.mem_map_of_mem (List.mem_map_of_mem hshown))
  have hlast : ∀ last, LatestOf t.rows (fun e => e.taskId = id) last →
      last.val.eventType = shown.val.eventType ∧ last.val.hostname = shown.val.hostname := by
    intro last hlatest
    obtain ⟨rows, hrows, hlast⟩ := exists_last hlatest
    obtain ⟨a, ha⟩ := getTask_idle rows id
    have hne : taskEvents rows id ≠ [] := List.ne_nil_of_mem
      (mem_taskEvents.mpr ⟨hrows.mem_iff.mpr hlatest.mem, hlatest.selected⟩)
    obtain ⟨s, last', rfl, hreports⟩ := getTask_str hne ha
    obtain rfl : last' = last := Option.some.inj (hreports.is_last.symm.trans hlast)
    obtain ⟨hgot, -⟩ := h { Env.idle 0 with taskRows := t.rows }
      { Env.idle 0 with taskRows := rows } t.rows (.refl _) hrows (.refl _) _ _ _ _ _ _ hentries
      _ hentry (congrArg Uuid.str hid)
    obtain ⟨s', heq, hstate, hworker⟩ := hgot _ ha
    cases heq
    exact ⟨TaskEventType.text_inj (hreports.state.symm.trans hstate),
      hreports.worker.symm.trans hworker⟩
  obtain ⟨htype, hhost⟩ := hlast r hr
  obtain ⟨htype', hhost'⟩ := hlast s hs
  exact ⟨htype.trans htype'.symm, hhost.trans hhost'.symm⟩

theorem TiesAlike.viewsAgree (h : TiesAlike t id) : ViewsAgree t id := by
  intro env env' rows henv henv' hrows sql filter limit offset sortBy entries hentries e he hid
  obtain ⟨w, hw, rfl⟩ := mem_listTasks hentries he
  obtain ⟨shown, hshown, rfl⟩ := List.mem_map.mp hw
  have htask : shown.val.taskId = id := Uuid.str_inj hid
  have hlatest := latestOf_of_latestRows henv hshown
  rw [htask] at hlatest
  have hmem : ∀ scan : List (Row TaskEvent), scan.Perm t.rows → taskEvents scan id ≠ [] :=
    fun scan hscan => List.ne_nil_of_mem (mem_taskEvents.mpr ⟨hscan.mem_iff.mpr hlatest.mem, htask⟩)
  constructor
  · intro a ha
    obtain ⟨s, last, rfl, hreports⟩ := getTask_str (hmem _ henv') ha
    obtain ⟨htype, hhost⟩ := h last shown (latestOf_last henv' hreports.is_last) hlatest
    refine ⟨s, rfl, ?_, hreports.worker.trans hhost⟩
    rw [hreports.state, htype]
    rfl
  · obtain ⟨last, hlast⟩ := Option.isSome_iff_exists.mp (List.getLast?_isSome.mpr (hmem _ hrows))
    obtain ⟨htype, -⟩ := h last shown (latestOf_last hrows hlast) hlatest
    refine ⟨taskInfoOf last.val (taskEvents rows id), ?_, ?_⟩
    · unfold latestInfo
      rw [hlast]
      rfl
    · rw [state_taskInfoOf, htype]
      rfl

end Agreement

/-- The three views agree on a task exactly when the rows tied for its last place are alike. -/
theorem views_agree_iff (t : Table TaskEvent) (id : Uuid) : ViewsAgree t id ↔ TiesAlike t id :=
  ⟨ViewsAgree.tiesAlike, TiesAlike.viewsAgree⟩

def instantTask : Table TaskEvent :=
  (Table.empty.insert 0
    { eventType := .started, taskId := ⟨42, by decide⟩, timestamp := 5 }).insert 0
    { eventType := .succeeded, taskId := ⟨42, by decide⟩, timestamp := 5 }

theorem views_disagree : ¬ ViewsAgree instantTask ⟨42, by decide⟩ := by
  intro h
  obtain ⟨started, hstarted, succeeded, hsucceeded, hne⟩ : ∃ r ∈ instantTask.rows,
      ∃ s ∈ instantTask.rows, r.val.eventType ≠ s.val.eventType := by decide
  have hlatest : ∀ r ∈ instantTask.rows,
      LatestOf instantTask.rows (fun e => e.taskId = ⟨42, by decide⟩) r := by
    have hall : ∀ r ∈ instantTask.rows, r.val.taskId = ⟨42, by decide⟩ ∧
        ∀ s ∈ instantTask.rows, s.val.timestamp ≤ r.val.timestamp := by decide
    exact fun r hr => ⟨hr, (hall r hr).1, fun s hs _ => (hall r hr).2 s hs⟩
  exact hne (h.tiesAlike _ _ (hlatest _ hstarted) (hlatest _ hsucceeded)).1

end Taskowl
