import Taskowl.Lib.Pages
import Taskowl.Pruning

/-!
# Pages of the task list

Each page of `list_tasks` is a query of its own, ordered by the sort column
alone: the tasks tied in it come in whatever order the database reads them. A
page boundary between tied tasks may then show one of them twice and another
not at all.
-/

namespace Taskowl

open Lib Py

/-- The rows that the filters select, in the order of the scan. -/
def selected (env : Env) (sql : Sql) (filter : TaskFilter) (since : Option Int)
    (rows : List (Row TaskEvent)) : List Windowed :=
  (windowed rows).filter (filter.selects env sql since)

def matchingTasks (env : Env) (sql : Sql) (filter : TaskFilter) (since : Option Int)
    (rows : List (Row TaskEvent)) : List Uuid :=
  (selected env sql filter since rows).map (·.taskId)

/-- In whatever order each query reads the log, all of them answer, and the pages of `n` up to the
first empty one show every task that the filters select, once. -/
def PagesCover (env : Env) (sql : Sql) (filter : TaskFilter) (sortBy : String) (n : Nat)
    (t : Table TaskEvent) : Prop :=
  ∀ (scans : Nat → List (Row TaskEvent)) (reference : List (Row TaskEvent)),
    (∀ k, (scans k).Perm t.rows) → reference.Perm t.rows →
    ∃ (since : Option Int) (pages : Nat → List TaskEntry) (K : Nat),
      parseSince env filter.since = .ok since ∧
      (∀ k, listTasks { env with taskRows := scans k } sql filter (some n) (k * n : Nat) sortBy =
        .ok (.ok (pages k))) ∧
      pages K = [] ∧ (∀ k < K, pages k ≠ []) ∧
      (((List.range K).flatMap pages).map (·.id)).Perm
        ((matchingTasks env sql filter since reference).map (·.str))

/-- In whatever order the log is read, one task sorts strictly before another. -/
def SortsBefore (sql : Sql) (sortBy : String) (t : Table TaskEvent) (x y : Uuid) : Prop :=
  ∀ le, sortOrder sql sortBy = some le → ∀ rows, rows.Perm t.rows →
    ∀ w ∈ windowed rows, ∀ v ∈ windowed rows, w.taskId = x → v.taskId = y → le v w = false

/-- `since` is a date, the order of the log does not decide which tasks match, and no page starts
between two tasks that tie. -/
def NoTieSplit (env : Env) (sql : Sql) (filter : TaskFilter) (sortBy : String) (n : Nat)
    (t : Table TaskEvent) : Prop :=
  ∃ since, parseSince env filter.since = .ok since ∧
    (∀ rows, rows.Perm t.rows → (matchingTasks env sql filter since rows).Perm
      (matchingTasks env sql filter since t.rows)) ∧
    ∀ k, k * n < (matchingTasks env sql filter since t.rows).length →
      ∃ before : List Uuid, before.Nodup ∧ before.length = k * n ∧
        before ⊆ matchingTasks env sql filter since t.rows ∧
        ∀ x ∈ before, ∀ y ∈ matchingTasks env sql filter since t.rows, y ∉ before →
          SortsBefore sql sortBy t x y

/-! ## The orders -/

section Orders

variable {sql : Sql} {sortBy : String} {le : Windowed → Windowed → Bool}

theorem Sql.nullsLast_total (sql : Sql) (a b : Option String) :
    sql.nullsLast a b = true ∨ sql.nullsLast b a = true := by
  cases a with
  | none => exact .inr (by cases b <;> rfl)
  | some a =>
    cases b with
    | none => exact .inl rfl
    | some b => exact sql.total a b

theorem Sql.nullsLast_trans (sql : Sql) (a b c : Option String) (hab : sql.nullsLast a b = true)
    (hbc : sql.nullsLast b c = true) : sql.nullsLast a c = true := by
  cases c with
  | none => cases a <;> rfl
  | some c =>
    cases b with
    | none => cases hbc
    | some b =>
      cases a with
      | none => cases hab
      | some a => exact sql.trans a b c hab hbc

theorem sortOrder_total (hle : sortOrder sql sortBy = some le) (a b : Windowed) :
    le a b = true ∨ le b a = true := by
  unfold sortOrder at hle
  split at hle <;> cases hle
  · simp only [decide_eq_true_eq]
    omega
  · exact sql.nullsLast_total _ _
  · exact sql.total _ _
  · exact sql.nullsLast_total _ _

theorem sortOrder_trans (hle : sortOrder sql sortBy = some le) (a b c : Windowed)
    (hab : le a b = true) (hbc : le b c = true) : le a c = true := by
  unfold sortOrder at hle
  split at hle <;> cases hle
  · simp only [decide_eq_true_eq] at *
    omega
  · exact sql.nullsLast_trans _ _ _ hab hbc
  · exact sql.trans _ _ _ hab hbc
  · exact sql.nullsLast_trans _ _ _ hab hbc

end Orders

section Rows

variable {t : Table TaskEvent} {rows : List (Row TaskEvent)}

theorem nodup_windowed (hrows : rows.Perm t.rows) : ((windowed rows).map (·.taskId)).Nodup := by
  unfold windowed
  rw [List.map_map]
  show ((latestRows (·.taskId) (·.timestamp) rows).map fun r => r.val.taskId).Nodup
  exact nodup_parts_latestRows (t.nodup_ids hrows)

def frontOf (id : Uuid) (rows : List (Row TaskEvent)) : List (Row TaskEvent) :=
  rows.filter (fun r => decide (r.val.taskId = id)) ++
    rows.filter fun r => !decide (r.val.taskId = id)

theorem frontOf_perm (id : Uuid) (rows : List (Row TaskEvent)) : (frontOf id rows).Perm rows :=
  List.filter_append_perm _ rows

theorem filter_frontOf (id id' : Uuid) (rows : List (Row TaskEvent)) :
    (frontOf id rows).filter (fun r => decide (r.val.taskId = id')) =
      rows.filter fun r => decide (r.val.taskId = id') := by
  unfold frontOf
  rw [List.filter_append, List.filter_filter, List.filter_filter]
  by_cases h : id' = id
  · subst h
    simp
  · have hfront : ∀ r : Row TaskEvent,
        (decide (r.val.taskId = id') && decide (r.val.taskId = id)) = false := by
      intro r
      by_cases hr : r.val.taskId = id' <;> simp [hr, h]
    have hrest : ∀ r : Row TaskEvent,
        (decide (r.val.taskId = id') && !decide (r.val.taskId = id)) =
          decide (r.val.taskId = id') := by
      intro r
      by_cases hr : r.val.taskId = id' <;> simp [hr, h]
    simp only [hfront, hrest, List.filter_false, List.nil_append]

theorem windowed_frontOf (id : Uuid) (rows : List (Row TaskEvent)) :
    windowed (frontOf id rows) = (windowed rows).filter (fun w => decide (w.taskId = id)) ++
      (windowed rows).filter fun w => !decide (w.taskId = id) := by
  unfold windowed
  have hnames : earliestName (frontOf id rows) = earliestName rows := by
    funext id'
    unfold earliestName
    rw [filter_frontOf]
  rw [hnames]
  unfold frontOf
  rw [latestRows_front, List.map_append, List.filter_map, List.filter_map]
  rfl

end Rows

section Answers

variable {env : Env} {sql : Sql} {filter : TaskFilter} {sortBy : String} {n : Nat}
  {t : Table TaskEvent} {since : Option Int} {le : Windowed → Windowed → Bool}
  {rows : List (Row TaskEvent)}

def answerIds (env : Env) (sql : Sql) (filter : TaskFilter) (since : Option Int)
    (le : Windowed → Windowed → Bool) (rows : List (Row TaskEvent)) : List Uuid :=
  ((selected env sql filter since rows).insertionSort fun a b => le a b = true).map (·.taskId)

theorem answerIds_perm (le : Windowed → Windowed → Bool) (rows : List (Row TaskEvent)) :
    (answerIds env sql filter since le rows).Perm (matchingTasks env sql filter since rows) :=
  (List.perm_insertionSort _ _).map _

theorem nodup_matchingTasks (hrows : rows.Perm t.rows) :
    (matchingTasks env sql filter since rows).Nodup :=
  (nodup_windowed hrows).sublist (List.filter_sublist.map _)

theorem matchingTasks_all (env : Env) (sql : Sql) (rows : List (Row TaskEvent)) :
    matchingTasks env sql {} none rows =
      (latestRows (·.taskId) (·.timestamp) rows).map (·.val.taskId) := by
  have hall : selected env sql {} none rows = windowed rows :=
    List.filter_eq_self.mpr fun w _ => rfl
  unfold matchingTasks
  rw [hall]
  unfold windowed
  rw [List.map_map]
  rfl

theorem listTasks_page (hsince : parseSince env filter.since = .ok since)
    (hle : sortOrder sql sortBy = some le) (n k : Nat) (rows : List (Row TaskEvent)) :
    ∃ entries, listTasks { env with taskRows := rows } sql filter (some n) (k * n : Nat) sortBy =
        .ok (.ok entries) ∧
      entries.map (·.id) = (page n k (answerIds env sql filter since le rows)).map (·.str) := by
  have hparsed : parseSince { env with taskRows := rows } filter.since = .ok since := hsince
  refine ⟨_, listTasks_ok hparsed hle (some n) (k * n : Nat), ?_⟩
  rw [show (max ((k * n : Nat) : Int) 0).toNat = k * n by omega]
  unfold page answerIds
  rw [← List.map_drop, ← List.map_take, List.map_map, List.map_map]
  rfl

theorem flatMap_map_ids {pages : Nat → List TaskEntry} {ids : Nat → List Uuid}
    (h : ∀ k, (pages k).map (·.id) = (ids k).map (·.str)) (K : Nat) :
    ((List.range K).flatMap pages).map (·.id) = ((List.range K).flatMap ids).map (·.str) := by
  simp only [List.map_flatMap, h]

/-- The pages cover the tasks when those of the listings in any orders do. -/
theorem pagesCover_iff_makeUp (hsort : sortBy ∈ sortKeys) : PagesCover env sql filter sortBy n t ↔
    ∃ since le, parseSince env filter.since = .ok since ∧ sortOrder sql sortBy = some le ∧
      PagesMakeUp n fun rows : { rows : List (Row TaskEvent) // rows.Perm t.rows } =>
        answerIds env sql filter since le rows.val := by
  obtain ⟨le, hle⟩ := exists_sortOrder sql hsort
  have hstr : Function.Injective Uuid.str := fun _ _ => Uuid.str_inj
  constructor
  · intro h
    obtain ⟨since, -, -, hsince, -⟩ := h (fun _ => t.rows) t.rows (fun _ => .refl _) (.refl _)
    refine ⟨since, le, hsince, hle, fun asked reference => ?_⟩
    obtain ⟨since', pages, K, hsince', hpages, hempty, hfull, hperm⟩ :=
      h (fun k => (asked k).val) reference.val (fun k => (asked k).property) reference.property
    cases hsince.symm.trans hsince'
    have hids : ∀ k, (pages k).map (·.id) =
        (page n k (answerIds env sql filter since le (asked k).val)).map (·.str) := by
      intro k
      obtain ⟨entries, hentries, hids⟩ := listTasks_page hsince hle n k (asked k).val
      cases hentries.symm.trans (hpages k)
      exact hids
    refine ⟨K, ?_, fun k hk hnil => hfull k hk ?_, ?_⟩
    · have := hids K
      rw [hempty] at this
      exact List.map_eq_nil_iff.mp this.symm
    · have := hids k
      rw [hnil] at this
      exact List.map_eq_nil_iff.mp this
    · rw [flatMap_map_ids hids, List.map_perm_map_iff hstr] at hperm
      exact hperm.trans (answerIds_perm le reference.val).symm
  · rintro ⟨since, le, hsince, hle, h⟩ scans reference hscans href
    obtain ⟨K, hempty, hfull, hperm⟩ := h (fun k => ⟨scans k, hscans k⟩) ⟨reference, href⟩
    choose pages hpages hids using fun k => listTasks_page hsince hle n k (scans k)
    refine ⟨since, pages, K, hsince, hpages, ?_, fun k hk hnil => hfull k hk ?_, ?_⟩
    · have := hids K
      rw [hempty] at this
      exact List.map_eq_nil_iff.mp this
    · have := hids k
      rw [hnil] at this
      exact List.map_eq_nil_iff.mp this.symm
    · rw [flatMap_map_ids hids, List.map_perm_map_iff hstr]
      exact hperm.trans (answerIds_perm le reference)

/-- A task that may come before another is among the first with it, when read first. -/
theorem mem_take_frontOf (hrows : rows.Perm t.rows) {w v : Windowed} {m : Nat}
    (hw : w ∈ windowed rows) (hv : v ∈ selected env sql filter since rows) (hvw : le v w = true)
    (h : w.taskId ∈ (answerIds env sql filter since le (frontOf v.taskId rows)).take m) :
    v.taskId ∈ (answerIds env sql filter since le (frontOf v.taskId rows)).take m := by
  have hunique : ∀ u ∈ windowed rows, ∀ u' ∈ windowed rows, u.taskId = u'.taskId → u = u' :=
    fun u hu u' hu' => List.inj_on_of_nodup_map (nodup_windowed hrows) hu hu'
  have hone : (selected env sql filter since rows).filter
      (fun u => decide (u.taskId = v.taskId)) = [v] := by
    refine List.perm_singleton.mp ((List.perm_ext_iff_of_nodup ?_ (List.nodup_singleton v)).mpr ?_)
    · exact (((nodup_windowed hrows).of_map).filter _).filter _
    · intro u
      rw [List.mem_filter, List.mem_singleton, decide_eq_true_eq]
      refine ⟨fun hu => ?_, fun hu => ?_⟩
      · exact hunique u (List.mem_of_mem_filter hu.1) v (List.mem_of_mem_filter hv) hu.2
      · rw [hu]
        exact ⟨hv, rfl⟩
  obtain ⟨rest, hfront⟩ : ∃ rest, selected env sql filter since (frontOf v.taskId rows) =
      v :: rest := by
    unfold selected at hone ⊢
    rw [windowed_frontOf, List.filter_append, List.filter_comm, hone]
    exact ⟨_, rfl⟩
  have hmem : ∀ u ∈ v :: rest, u ∈ windowed rows := by
    intro u hu
    rw [← hfront] at hu
    have hu := List.mem_of_mem_filter hu
    rw [windowed_frontOf] at hu
    exact (List.filter_append_perm _ _).mem_iff.mp hu
  unfold answerIds at h ⊢
  rw [hfront, List.insertionSort_cons, ← List.map_take] at h ⊢
  obtain ⟨u, hu, hid⟩ := List.mem_map.mp h
  have hsorted := (List.perm_orderedInsert _ v _).mem_iff.mp (List.mem_of_mem_take hu)
  have hu' : u ∈ v :: rest := by
    rwa [List.mem_cons, List.mem_insertionSort, ← List.mem_cons] at hsorted
  obtain rfl := hunique u (hmem u hu') w hw hid
  refine List.mem_map_of_mem (mem_take_orderedInsert ?_ hu)
  exact hvw

theorem sorted_answerIds (hle : sortOrder sql sortBy = some le) (rows : List (Row TaskEvent)) :
    (answerIds env sql filter since le rows).Pairwise fun x y =>
      ∃ w ∈ windowed rows, ∃ v ∈ windowed rows, w.taskId = x ∧ v.taskId = y ∧ le w v = true := by
  have htotal : Std.Total fun a b => le a b = true := ⟨sortOrder_total hle⟩
  have htrans : IsTrans Windowed fun a b => le a b = true := ⟨sortOrder_trans hle⟩
  unfold answerIds
  rw [List.pairwise_map]
  refine (List.pairwise_insertionSort _ _).imp_of_mem fun hw hv hwv => ?_
  rw [List.mem_insertionSort] at hw hv
  exact ⟨_, List.mem_of_mem_filter hw, _, List.mem_of_mem_filter hv, rfl, rfl, hwv⟩

theorem take_answerIds_perm (hle : sortOrder sql sortBy = some le) (hrows : rows.Perm t.rows)
    (hmatch : (matchingTasks env sql filter since rows).Perm
      (matchingTasks env sql filter since t.rows)) {before : List Uuid} (hnodup : before.Nodup)
    (hsub : before ⊆ matchingTasks env sql filter since t.rows)
    (hbefore : ∀ x ∈ before, ∀ y ∈ matchingTasks env sql filter since t.rows, y ∉ before →
      SortsBefore sql sortBy t x y) :
    ((answerIds env sql filter since le rows).take before.length).Perm before := by
  have hids := (answerIds_perm le rows).trans hmatch
  refine take_perm_of_before (sorted_answerIds hle rows)
    (hids.nodup_iff.mpr (nodup_matchingTasks (.refl _))) hnodup
    (fun x hx => hids.mem_iff.mpr (hsub hx)) ?_
  rintro x hx y hy hyb ⟨v, hv, w, hw, rfl, rfl, hvw⟩
  have hstrict := hbefore _ hx _ (hids.mem_iff.mp hy) hyb le hle rows hrows w hw v hv rfl rfl
  rw [hvw] at hstrict
  cases hstrict

/-- Where all listings begin with the same tasks, those sort before all others. -/
theorem exists_before (hle : sortOrder sql sortBy = some le)
    (hmatch : ∀ rows, rows.Perm t.rows → (matchingTasks env sql filter since rows).Perm
      (matchingTasks env sql filter since t.rows)) {m : Nat}
    (hm : m ≤ (matchingTasks env sql filter since t.rows).length)
    (hsame : ∀ rows, rows.Perm t.rows → ((answerIds env sql filter since le rows).take m).Perm
      ((answerIds env sql filter since le t.rows).take m)) :
    ∃ before : List Uuid, before.Nodup ∧ before.length = m ∧
      before ⊆ matchingTasks env sql filter since t.rows ∧
      ∀ x ∈ before, ∀ y ∈ matchingTasks env sql filter since t.rows, y ∉ before →
        SortsBefore sql sortBy t x y := by
  have hids : (answerIds env sql filter since le t.rows).Perm
      (matchingTasks env sql filter since t.rows) := answerIds_perm le t.rows
  have htake := List.take_sublist m (answerIds env sql filter since le t.rows)
  refine ⟨(answerIds env sql filter since le t.rows).take m,
    (hids.nodup_iff.mpr (nodup_matchingTasks (.refl _))).sublist htake, ?_,
    fun x hx => hids.mem_iff.mp (htake.subset hx), ?_⟩
  · rw [List.length_take, hids.length_eq]
    omega
  · intro x hx y hy hyx le' hle' rows hrows w hw v hv hwx hvy
    cases hle.symm.trans hle'
    by_contra hvw
    have hvw : le v w = true := by simpa using hvw
    subst hwx hvy
    have hvs : v ∈ selected env sql filter since rows := by
      obtain ⟨u, hu, hid⟩ := List.mem_map.mp ((hmatch rows hrows).mem_iff.mpr hy)
      obtain rfl := List.inj_on_of_nodup_map (nodup_windowed hrows)
        (List.mem_of_mem_filter hu) hv hid
      exact hu
    have hfront := hsame _ ((frontOf_perm v.taskId rows).trans hrows)
    exact hyx (hfront.mem_iff.mp (mem_take_frontOf hrows hw hvs hvw (hfront.mem_iff.mpr hx)))

theorem prefixesAgree_iff (hle : sortOrder sql sortBy = some le) (hn : 0 < n) :
    (PrefixesAgree n fun rows : { rows : List (Row TaskEvent) // rows.Perm t.rows } =>
        answerIds env sql filter since le rows.val) ↔
      (∀ rows, rows.Perm t.rows → (matchingTasks env sql filter since rows).Perm
        (matchingTasks env sql filter since t.rows)) ∧
      ∀ k, k * n < (matchingTasks env sql filter since t.rows).length →
        ∃ before : List Uuid, before.Nodup ∧ before.length = k * n ∧
          before ⊆ matchingTasks env sql filter since t.rows ∧
          ∀ x ∈ before, ∀ y ∈ matchingTasks env sql filter since t.rows, y ∉ before →
            SortsBefore sql sortBy t x y := by
  constructor
  · intro h
    have hmatch : ∀ rows, rows.Perm t.rows → (matchingTasks env sql filter since rows).Perm
        (matchingTasks env sql filter since t.rows) := fun rows hrows =>
      (answerIds_perm le rows).symm.trans
        ((h.perm hn ⟨rows, hrows⟩ ⟨t.rows, .refl _⟩).trans (answerIds_perm le t.rows))
    exact ⟨hmatch, fun k hk => exists_before hle hmatch hk.le
      fun rows hrows => h k ⟨rows, hrows⟩ ⟨t.rows, .refl _⟩⟩
  · rintro ⟨hmatch, hbound⟩ k ⟨rows, hrows⟩ ⟨rows', hrows'⟩
    dsimp only
    have hids : ∀ rows, rows.Perm t.rows → (answerIds env sql filter since le rows).Perm
        (matchingTasks env sql filter since t.rows) := fun rows hrows =>
      (answerIds_perm le rows).trans (hmatch rows hrows)
    by_cases hk : k * n < (matchingTasks env sql filter since t.rows).length
    · obtain ⟨before, hnodup, hcount, hsub, hbefore⟩ := hbound k hk
      rw [← hcount]
      exact (take_answerIds_perm hle hrows (hmatch _ hrows) hnodup hsub hbefore).trans
        (take_answerIds_perm hle hrows' (hmatch _ hrows') hnodup hsub hbefore).symm
    · rw [List.take_of_length_le (by rw [(hids _ hrows).length_eq]; omega),
        List.take_of_length_le (by rw [(hids _ hrows').length_eq]; omega)]
      exact (hids _ hrows).trans (hids _ hrows').symm

end Answers

/-- The pages cover the selected tasks exactly when no page starts between two that tie. -/
theorem pages_cover_iff (env : Env) (sql : Sql) (filter : TaskFilter) (t : Table TaskEvent)
    {sortBy : String} {n : Nat} (hsort : sortBy ∈ sortKeys) (hn : 1 ≤ n) :
    PagesCover env sql filter sortBy n t ↔ NoTieSplit env sql filter sortBy n t := by
  rw [pagesCover_iff_makeUp hsort]
  constructor
  · rintro ⟨since, le, hsince, hle, h⟩
    exact ⟨since, hsince, (prefixesAgree_iff hle hn).mp ((pagesMakeUp_iff hn).mp h)⟩
  · rintro ⟨since, hsince, h⟩
    obtain ⟨le, hle⟩ := exists_sortOrder sql hsort
    exact ⟨since, le, hsince, hle, (pagesMakeUp_iff hn).mpr ((prefixesAgree_iff hle hn).mpr h)⟩

/-- Two tasks sent at one time. -/
def simultaneousTasks : Table TaskEvent :=
  (Table.empty.insert 0 { eventType := .sent, taskId := ⟨43, by decide⟩, timestamp := 5 }).insert 0
    { eventType := .sent, taskId := ⟨44, by decide⟩, timestamp := 5 }

/-- Pages of one may show one of them twice. -/
theorem pages_repeat_a_task :
    ¬ PagesCover (Env.idle 0) .ascii {} "timestamp" 1 simultaneousTasks := by
  intro h
  obtain ⟨since, le, hsince, hle, hpages⟩ := (pagesCover_iff_makeUp (by decide)).mp h
  cases hsince
  cases hle
  have hfirst := (hpages.prefixesAgree Nat.one_pos) 1 ⟨simultaneousTasks.rows, .refl _⟩
    ⟨simultaneousTasks.rows.reverse, List.reverse_perm _⟩
  revert hfirst
  decide

def threeTasks : Table TaskEvent :=
  simultaneousTasks.insert 0 { eventType := .sent, taskId := ⟨51, by decide⟩, timestamp := 4 }

/-- Pages of two show them all: the second starts behind the two that tie. -/
theorem pages_cover_threeTasks : PagesCover (Env.idle 0) .ascii {} "timestamp" 2 threeTasks := by
  refine (pages_cover_iff _ _ _ _ (by decide) (by decide)).mpr ⟨none, rfl, ?_, ?_⟩
  · intro rows hrows
    rw [matchingTasks_all, matchingTasks_all]
    exact (latestRows_perm hrows).map _
  · intro k hk
    have hlen : (matchingTasks (Env.idle 0) .ascii {} none threeTasks.rows).length = 3 := by
      decide
    rw [hlen] at hk
    obtain rfl | rfl : k = 0 ∨ k = 1 := by omega
    · exact ⟨[], List.nodup_nil, rfl, List.nil_subset _, fun x hx => absurd hx List.not_mem_nil⟩
    · refine ⟨[⟨43, by decide⟩, ⟨44, by decide⟩], by decide, rfl, by decide, ?_⟩
      rintro x hx y - hnot le hle rows hrows w hw v hv rfl rfl
      cases hle
      have hbefore : ∀ r ∈ threeTasks.rows, ∀ r' ∈ threeTasks.rows,
          r.val.taskId ∈ ([⟨43, by decide⟩, ⟨44, by decide⟩] : List Uuid) →
          r'.val.taskId ∉ ([⟨43, by decide⟩, ⟨44, by decide⟩] : List Uuid) →
          decide (r.val.timestamp ≤ r'.val.timestamp) = false := by
        decide
      obtain ⟨r, hr, rfl⟩ := List.mem_map.mp hw
      obtain ⟨r', hr', rfl⟩ := List.mem_map.mp hv
      exact hbefore r (hrows.mem_iff.mp (mem_latestRows.mp hr).1) r'
        (hrows.mem_iff.mp (mem_latestRows.mp hr').1) hx hnot

end Taskowl
