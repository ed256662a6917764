import Taskowl.Pruning

/-!
# The counts of the summary and of the listings

`get_task_summary` ranks the events of the tasks active in its window,
`list_tasks` ranks the whole log and drops the tasks whose latest event is too
old. A task is active exactly when its latest event is recent, so both count
the same rows, in whatever orders the database scans the log.
-/

namespace Taskowl

open Lib Py

theorem TaskEventType.text_ne_empty (type : TaskEventType) : type.text ≠ "" := by
  cases type <;> decide

section Counts

variable {α : Type} [DecidableEq α]

theorem lookup_counts (values : List α) (v : α) :
    ((counts values).lookup v).getD 0 = values.count v := by
  have hkeys : ((counts values).map (·.1)).Nodup := by
    unfold counts
    rw [List.map_map, show Prod.fst ∘ (fun v => (v, values.count v)) = id from rfl, List.map_id]
    exact List.nodup_dedup values
  by_cases hv : v ∈ values
  · have hmem : (v, values.count v) ∈ counts values :=
      List.mem_map.mpr ⟨v, List.mem_dedup.mpr hv, rfl⟩
    rw [(lookup_eq_some_iff hkeys).mpr hmem]
    rfl
  · rw [List.count_eq_zero.mpr hv]
    cases hl : (counts values).lookup v with
    | none => rfl
    | some n =>
      obtain ⟨u, hu, heq⟩ := List.mem_map.mp ((lookup_eq_some_iff hkeys).mp hl)
      cases heq
      exact absurd (List.mem_dedup.mp hu) hv

theorem sum_counts (values : List α) : ((counts values).map (·.2)).sum = values.length := by
  have h := sum_counts_filter (fun _ => true) values
  rwa [List.filter_eq_self.mpr fun _ _ => rfl, List.countP_true] at h

end Counts

section Rows

variable {rows rows' : List (Row TaskEvent)}

def recentRows (rows : List (Row TaskEvent)) (since : Int) : List (Row TaskEvent) :=
  (latestRows (·.taskId) (·.timestamp) rows).filter fun r => decide (since ≤ r.val.timestamp)

theorem recentRows_perm (h : rows.Perm rows') (since : Int) :
    (recentRows rows since).Perm (recentRows rows' since) :=
  (latestRows_perm h).filter _

/-- The summary counts the states of the recent rows. -/
theorem getTaskSummaryImpl_byState (rows : List (Row TaskEvent)) (since hours : Int) :
    (getTaskSummaryImpl rows since hours).byState =
      counts ((recentRows rows since).map (·.val.eventType.text)) := by
  unfold getTaskSummaryImpl recentRows
  dsimp only
  rw [latestRows_filter_part (fun e : TaskEvent => e.taskId) (·.timestamp) rows fun id =>
    decide (id ∈ (rows.filter fun r => decide (since ≤ r.val.timestamp)).map (·.val.taskId))]
  congr 2
  apply List.filter_congr
  intro r hr
  refine decide_eq_decide.mpr (Iff.trans ?_ (le_key_latestRow_iff hr since).symm)
  simp only [List.mem_map, List.mem_filter, decide_eq_true_eq]
  exact ⟨fun ⟨s, ⟨hs, hk⟩, hid⟩ => ⟨s, hs, hid, hk⟩, fun ⟨s, hs, hid, hk⟩ => ⟨s, ⟨hs, hk⟩, hid⟩⟩

theorem earliestName_isSome (rows : List (Row TaskEvent)) (id : Uuid) :
    (earliestName rows id).isSome = true ↔
      ∃ r ∈ rows, r.val.taskId = id ∧ r.val.name.isSome = true := by
  unfold earliestName
  generalize horder : orderBy (fun r : Row TaskEvent => if r.val.name.isNone then 1 else 0)
    (orderBy (·.val.timestamp) (rows.filter fun r => r.val.taskId = id)) = ordered
  have hmem : ∀ r, r ∈ ordered ↔ r ∈ rows ∧ r.val.taskId = id := by
    intro r
    rw [← horder, mem_orderBy, mem_orderBy, List.mem_filter, decide_eq_true_eq]
  have hsorted : ordered.Pairwise fun a b => (if a.val.name.isNone then (1 : Int) else 0) ≤
      if b.val.name.isNone then 1 else 0 := horder ▸ orderBy_pairwise _ _
  cases ordered with
  | nil =>
    simp only [List.head?_nil, Option.bind_none, Option.isSome_none, Bool.false_eq_true, false_iff]
    rintro ⟨r, hr, hid, -⟩
    exact absurd ((hmem r).mpr ⟨hr, hid⟩) List.not_mem_nil
  | cons first ordered =>
    rw [List.head?_cons, Option.bind_some]
    constructor
    · intro hname
      obtain ⟨hr, hid⟩ := (hmem first).mp List.mem_cons_self
      exact ⟨first, hr, hid, hname⟩
    · rintro ⟨r, hr, hid, hname⟩
      rcases List.mem_cons.mp ((hmem r).mpr ⟨hr, hid⟩) with rfl | hlater
      · exact hname
      · -- a row with a name does not come after one without
        have hle := List.rel_of_pairwise_cons hsorted hlater
        cases hfirst : first.val.name with
        | some name => rfl
        | none =>
          cases hr' : r.val.name with
          | none => rw [hr'] at hname; cases hname
          | some name => simp [hfirst, hr'] at hle

theorem countP_named_perm (h : rows.Perm rows') :
    (windowed rows).countP (·.taskName.isSome) = (windowed rows').countP (·.taskName.isSome) := by
  have hnamed : ∀ id, (earliestName rows id).isSome = (earliestName rows' id).isSome := by
    intro id
    rw [Bool.eq_iff_iff, earliestName_isSome, earliestName_isSome]
    exact exists_congr fun r => and_congr_left fun _ => h.mem_iff
  unfold windowed
  rw [List.countP_map, List.countP_map]
  refine Eq.trans (List.countP_congr fun r _ => ?_) ((latestRows_perm h).countP_eq _)
  simp only [Function.comp_apply, hnamed]

end Rows

section Listings

variable {env : Env} {sql : Sql} {sortBy : String} {since : Int}

theorem selects_since (since' : Option String) (w : Windowed) :
    TaskFilter.selects { since := since' } env sql (some since) w =
      decide (since ≤ w.timestamp) := by
  simp [TaskFilter.selects, given]

theorem selects_state (since' : Option String)
    (hlower : ∀ type : TaskEventType, env.lib.lower type.text = type.text) (type : TaskEventType)
    (w : Windowed) :
    TaskFilter.selects { state := some type.text, since := since' } env sql (some since) w =
      (w.eventType.text == type.text && decide (since ≤ w.timestamp)) := by
  simp [TaskFilter.selects, given, Option.filter, type.text_ne_empty, hlower]

/-- A listing with a filter on the state and on the time counts recent rows. -/
theorem length_listTasks_since (env : Env) (sql : Sql) (hsort : sortBy ∈ sortKeys)
    (filter : TaskFilter) (p : TaskEventType → Bool)
    (hsince : parseSince env filter.since = .ok (some since))
    (hp : ∀ w, filter.selects env sql (some since) w =
      (p w.eventType && decide (since ≤ w.timestamp))) :
    ∃ entries, listTasks env sql filter none 0 sortBy = .ok (.ok entries) ∧
      entries.length = (recentRows env.taskRows since).countP fun r => p r.val.eventType := by
  obtain ⟨entries, hentries, hperm⟩ := listTasks_selected sql hsince hsort
  refine ⟨entries, hentries, ?_⟩
  rw [hperm.length_eq, List.length_map, ← List.countP_eq_length_filter]
  unfold windowed recentRows
  rw [List.countP_map, List.countP_filter]
  exact List.countP_congr fun r _ => by rw [Function.comp_apply, hp]

theorem sum_listTaskTypes {limit : Nat} (h : env.taskRows.length ≤ limit) :
    ((listTaskTypes env sql limit).map (·.2)).sum =
      (windowed env.taskRows).countP (·.taskName.isSome) := by
  have hlength : ((windowed env.taskRows).filterMap (·.taskName)).length =
      (windowed env.taskRows).countP (·.taskName.isSome) := by
    rw [List.length_filterMap_eq_countP]
  unfold listTaskTypes
  dsimp only
  rw [List.take_of_length_le, ((List.perm_insertionSort _ _).map _).sum_eq, sum_counts, hlength]
  rw [List.length_insertionSort]
  unfold counts
  rw [List.length_map]
  calc ((windowed env.taskRows).filterMap (·.taskName)).dedup.length
      ≤ ((windowed env.taskRows).filterMap (·.taskName)).length :=
        (List.dedup_sublist _).length_le
    _ ≤ (windowed env.taskRows).length := List.length_filterMap_le _ _
    _ ≤ env.taskRows.length := by
        unfold windowed latestRows
        rw [List.length_map]
        exact List.length_filter_le _ _
    _ ≤ limit := h

end Listings

theorem getTaskSummary_ok {env : Env} {hours : Int} {summary : Summary}
    (h : getTaskSummary env hours = .ok summary) :
    summary = getTaskSummaryImpl env.taskRows (env.now - hours * 3600 * secondUs) hours := by
  unfold getTaskSummary mkTimedelta subDelta at h
  split at h
  · cases h
  · next delta hdelta =>
    split at hdelta
    · cases hdelta
      split at h
      · cases h
      · next start hstart =>
        split at hstart
        · cases hstart
          cases h
          rfl
        · cases hstart
    · cases hdelta

/-- The summary of the last hours counts, state by state and in all, the tasks listed since then;
the task types count the tasks listed with a name. Each query has a scan of its own. -/
theorem summary_counts (db : Db) (env : Env) (hours : Int) (since : Option String) (sql : Sql)
    {sortBy : String} (hsort : sortBy ∈ sortKeys)
    (hlower : ∀ type : TaskEventType, env.lib.lower type.text = type.text)
    (hsince : parseSince env since = .ok (some (env.now - hours * 3600 * secondUs)))
    (scan₁ scan₂ scan₃ scan₄ scan₅ : Scan) {summary : Summary}
    (hsummary : getTaskSummary (env.reading scan₁ db) hours = .ok summary) :
    (∀ type : TaskEventType, ∃ entries,
      listTasks (env.reading scan₂ db) sql { state := some type.text, since } none 0 sortBy =
        .ok (.ok entries) ∧
      (summary.byState.lookup type.text).getD 0 = entries.length) ∧
    (∃ entries,
      listTasks (env.reading scan₃ db) sql { since } none 0 sortBy = .ok (.ok entries) ∧
      summary.totalTasks = entries.length) ∧
    ∃ entries, listTasks (env.reading scan₄ db) sql {} none 0 sortBy = .ok (.ok entries) ∧
      ∀ limit, db.taskEvents.rows.length ≤ limit →
        ((listTaskTypes (env.reading scan₅ db) sql limit).map (·.2)).sum =
          entries.countP (·.name.isSome) := by
  generalize hcut : env.now - hours * 3600 * secondUs = cut at hsince
  have hscans : ∀ scan scan' : Scan,
      (env.reading scan db).taskRows.Perm (env.reading scan' db).taskRows :=
    fun scan scan' => (scan.perm _).trans (scan'.perm _).symm
  have hparse : ∀ scan, parseSince (env.reading scan db) since = .ok (some cut) := fun _ => hsince
  have himpl := getTaskSummary_ok hsummary
  have hbyState : summary.byState =
      counts ((recentRows (env.reading scan₁ db).taskRows cut).map (·.val.eventType.text)) := by
    rw [himpl, ← hcut]
    exact getTaskSummaryImpl_byState ..
  have htotal : summary.totalTasks = (summary.byState.map (·.2)).sum := by
    rw [himpl]
    rfl
  refine ⟨fun type => ?_, ?_, ?_⟩
  · obtain ⟨entries, hentries, hlength⟩ := length_listTasks_since (env.reading scan₂ db) sql hsort
      { state := some type.text, since } (fun t => t.text == type.text) (hparse _)
      (selects_state since hlower type)
    refine ⟨entries, hentries, ?_⟩
    rw [hbyState, lookup_counts, hlength, List.count, List.countP_map]
    exact (recentRows_perm (hscans scan₁ scan₂) cut).countP_eq _
  · obtain ⟨entries, hentries, hlength⟩ := length_listTasks_since (env.reading scan₃ db) sql hsort
      { since } (fun _ => true) (hparse _) fun w => (selects_since since w).trans (by simp)
    refine ⟨entries, hentries, ?_⟩
    rw [htotal, hbyState, sum_counts, hlength, List.countP_true, List.length_map]
    exact (recentRows_perm (hscans scan₁ scan₃) cut).length_eq
  · obtain ⟨entries, hentries, hperm⟩ := listTasks_all (env.reading scan₄ db) sql hsort
    refine ⟨entries, hentries, fun limit hlimit => ?_⟩
    have hrows : (env.reading scan₅ db).taskRows.length ≤ limit :=
      (scan₅.perm db.taskEvents.rows).length_eq.trans_le hlimit
    rw [sum_listTaskTypes hrows, hperm.countP_eq, List.countP_map]
    exact countP_named_perm (hscans scan₅ scan₄)

def twoHours : Env :=
  { Env.idle (2 * 3600 * secondUs) with
    fromIso := fun text =>
      if text = "1970-01-01T01:00:00+00:00" then some (3600 * secondUs) else none }

/-- A task that started and succeeded at one time. -/
def tiedTask : Db :=
  { Db.empty with
    taskEvents := (Table.empty.insert 0 { eventType := .started, taskId := ⟨41, by decide⟩,
                                          timestamp := 5000 * secondUs }).insert 0
      { eventType := .succeeded, taskId := ⟨41, by decide⟩, timestamp := 5000 * secondUs } }

/-- It is counted and listed once, as succeeded. -/
theorem summary_counts_tiedTask : ∃ summary entries,
    getTaskSummary (twoHours.reading .byId tiedTask) 1 = .ok summary ∧
      listTasks (twoHours.reading .byId tiedTask) .ascii
        { state := some "succeeded", since := some "1970-01-01T01:00:00+00:00" } none 0 "state" =
          .ok (.ok entries) ∧
      summary.byState = [("succeeded", 1)] ∧ entries.length = 1 := by
  have hlower : ∀ type : TaskEventType, twoHours.lib.lower type.text = type.text := by
    rintro (_ | _) <;> rfl
  have hsummary : getTaskSummary (twoHours.reading .byId tiedTask) 1 =
      .ok ⟨1, 1, [("succeeded", 1)]⟩ := by decide
  obtain ⟨hstate, -, -⟩ := summary_counts tiedTask twoHours 1 (some "1970-01-01T01:00:00+00:00")
    .ascii (show "state" ∈ sortKeys by decide) hlower (by decide) .byId .byId .byId .byId .byId
    hsummary
  obtain ⟨entries, hentries, hlength⟩ := hstate .succeeded
  exact ⟨_, entries, hsummary, hentries, rfl, hlength.symm⟩

end Taskowl
