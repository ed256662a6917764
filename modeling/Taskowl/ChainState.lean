import Taskowl.Chains
import Taskowl.Redelivery

/-!
# The state a chain shows

A node shows a row of the family and `get_task` the whole log of the task, so
they agree when the rows that did not record the root came to nothing new.
Only `sent` and `received` rows record a root: a member other than the task
queried shows where it was last sent or received.
-/

namespace Taskowl

open Lib Py

/-- A row of the greatest timestamp among those selected. -/
structure LatestOf (rows : List (Row TaskEvent)) (p : TaskEvent → Prop) (r : Row TaskEvent) :
    Prop where
  mem : r ∈ rows
  selected : p r.val
  latest : ∀ s ∈ rows, p s.val → s.val.timestamp ≤ r.val.timestamp

/-- The root the task recorded last, or else the task; at one timestamp there may be several. -/
inductive RootOf (rows : List (Row TaskEvent)) (id : Uuid) : Uuid → Prop
  | recorded {r : Row TaskEvent} {root : Uuid}
      (latest : LatestOf rows (fun e => e.taskId = id ∧ e.rootId.isSome) r)
      (root_eq : r.val.rootId = some root) : RootOf rows id root
  | self (none : ∀ r ∈ rows, r.val.taskId = id → r.val.rootId = none) : RootOf rows id id

/-- The row recorded the root, or is of the task queried. -/
def InFamily (root id : Uuid) (e : TaskEvent) : Prop := e.rootId = some root ∨ e.taskId = id

/-- The newest row of its task in the family, by timestamp and then by id. -/
structure ShownIn (rows : List (Row TaskEvent)) (root id : Uuid) (r : Row TaskEvent) : Prop where
  mem : r ∈ rows
  family : InFamily root id r.val
  newest : ∀ s ∈ rows, InFamily root id s.val → s.val.taskId = r.val.taskId →
    s.val.timestamp ≤ r.val.timestamp ∧ (s.val.timestamp = r.val.timestamp → s.id ≤ r.id)

/-- The row is of the type of its task's latest rows, and has the runtime last recorded for it. -/
structure UpToDate (rows : List (Row TaskEvent)) (r : Row TaskEvent) : Prop where
  state : ∀ s, LatestOf rows (fun e => e.taskId = r.val.taskId) s →
    r.val.eventType = s.val.eventType
  runtime : ∀ s, LatestOf rows (fun e => e.taskId = r.val.taskId ∧ e.runtime.isSome) s →
    r.val.runtime = s.val.runtime

/-- Whatever orders the two queries scan the table in, each node of the chain carries the state
and the runtime `get_task` reports. -/
def ChainCurrent (t : Table TaskEvent) (id : Uuid) : Prop :=
  ∀ rows env, rows.Perm t.rows → env.taskRows.Perm t.rows →
    ∀ node ∈ (getTaskChainImpl rows id).chain, ∀ a, getTask env node.taskId = .ok a →
      ∃ s, a = .ok s ∧ node.state = s.state ∧ node.runtime = s.runtime

section Tasks

variable {env : Env} {rows : List (Row TaskEvent)} {id : Uuid}

theorem mem_taskEvents {r : Row TaskEvent} :
    r ∈ taskEvents rows id ↔ r ∈ rows ∧ r.val.taskId = id := by
  simp [taskEvents]

theorem taskEvents_ne_nil {r : Row TaskEvent} (h : r ∈ rows) : taskEvents rows r.val.taskId ≠ [] :=
  List.ne_nil_of_mem (mem_taskEvents.mpr ⟨h, rfl⟩)

structure Reports (rows : List (Row TaskEvent)) (id : Uuid) (s : TaskState)
    (last : Row TaskEvent) : Prop where
  is_last : (taskEvents rows id).getLast? = some last
  state : s.state = last.val.eventType.text
  worker : s.worker = last.val.hostname
  runtime : s.runtime = ((taskEvents rows id).filter
    (·.val.runtime.isSome)).getLast?.bind (·.val.runtime)
  parent : s.parentId = (((taskEvents rows id).filter
    (·.val.parentId.isSome)).getLast?.bind (·.val.parentId)).map (·.str)

theorem getTask_str (hne : taskEvents env.taskRows id ≠ []) {a : Answer TaskState}
    (h : getTask env id.str = .ok a) :
    ∃ s last, a = .ok s ∧ Reports env.taskRows id s last := by
  unfold getTask at h
  rw [Uuid.parse_str] at h
  dsimp only at h
  unfold getTaskImpl at h
  dsimp only at h
  obtain ⟨last, hlast⟩ := Option.isSome_iff_exists.mp (List.getLast?_isSome.mpr hne)
  rw [hlast] at h
  dsimp only at h
  split at h
  · cases h
  · cases h
    refine ⟨_, last, rfl, hlast, rfl, rfl, ?_, ?_⟩
    · refine (foldl_lastSome TaskState.runtime (fun r => r.val.runtime) (fun _ _ => rfl) _ _).trans
        ?_
      exact Option.or_none
    · refine (foldl_lastSome TaskState.parentId (fun r => r.val.parentId.map (·.str))
        (fun _ _ => rfl) _ _).trans ?_
      simp only [Option.isSome_map, Option.or_none, Option.map_bind]
      rfl

theorem getTask_idle (rows : List (Row TaskEvent)) (id : Uuid) :
    ∃ a, getTask { Env.idle 0 with taskRows := rows } id.str = .ok a := by
  have horphan : ∀ last, ∃ b, orphanRules (Env.idle 0).settings (Env.idle 0).workerRows last
      (Env.idle 0).now = .ok b := by
    intro last
    have hgrace : secondsInt (Env.idle 0).settings.orphanGraceSeconds = .ok 60000000 := by decide
    have htimeout : secondsInt (Env.idle 0).settings.workerOfflineTimeoutSeconds =
        .ok 30000000 := by decide
    unfold orphanRules
    rw [hgrace, htimeout]
    dsimp only
    split
    · exact ⟨_, rfl⟩
    · split
      · exact ⟨_, rfl⟩
      · split <;> exact ⟨_, rfl⟩
  unfold getTask
  rw [Uuid.parse_str]
  dsimp only
  unfold getTaskImpl
  dsimp only
  split
  · exact ⟨_, rfl⟩
  · next last _ =>
    obtain ⟨b, hb⟩ := horphan last.val
    rw [hb]
    exact ⟨_, rfl⟩

end Tasks

section Scans

variable {t : Table TaskEvent} {rows : List (Row TaskEvent)} {id root : Uuid} {r : Row TaskEvent}

/-- A scan resolves a root that the task recorded last. -/
theorem rootOf_resolveRoot (hrows : rows.Perm t.rows) (id : Uuid) :
    RootOf t.rows id (resolveRoot rows id) := by
  unfold resolveRoot
  split
  · next r hr =>
    obtain ⟨hmem, hle⟩ := topBy_spec hr
    simp only [List.mem_filter, Bool.and_eq_true, decide_eq_true_eq] at hmem hle
    obtain ⟨root, hroot⟩ := Option.isSome_iff_exists.mp hmem.2.2
    rw [hroot, Option.getD_some]
    exact .recorded ⟨hrows.mem_iff.mp hmem.1, hmem.2,
      fun s hs hp => hle s ⟨hrows.mem_iff.mpr hs, hp⟩⟩ hroot
  · next hn =>
    rw [topBy_eq_none, List.filter_eq_nil_iff] at hn
    refine .self fun r hr ht => ?_
    simpa [ht] using hn r (hrows.mem_iff.mpr hr)

theorem exists_resolveRoot (h : RootOf t.rows id root) :
    ∃ rows : List (Row TaskEvent), rows.Perm t.rows ∧ resolveRoot rows id = root := by
  cases h with
  | recorded latest root_eq =>
    obtain ⟨rows, hrows, htop⟩ := exists_topBy (fun r : Row TaskEvent => r.val.timestamp)
      (p := fun r => decide (r.val.taskId = id) && r.val.rootId.isSome) latest.mem
      (by simpa using latest.selected) (by simpa using latest.latest)
    refine ⟨rows, hrows, ?_⟩
    unfold resolveRoot
    rw [htop]
    dsimp only
    rw [root_eq, Option.getD_some]
  | self none =>
    refine ⟨t.rows, .refl _, ?_⟩
    unfold resolveRoot
    rw [topBy_eq_none.mpr]
    rw [List.filter_eq_nil_iff]
    intro r hr
    by_cases ht : r.val.taskId = id
    · simp [none r hr ht]
    · simp [ht]

theorem mem_latestRows_chainFamily (hrows : rows.Perm t.rows) :
    r ∈ latestRows (·.taskId) (·.timestamp) (chainFamily rows id) ↔
      ShownIn t.rows (resolveRoot rows id) id r := by
  rw [mem_latestRows]
  simp only [mem_chainFamily, hrows.mem_iff]
  constructor
  · rintro ⟨⟨hr, hf⟩, hnew⟩
    exact ⟨hr, hf, fun s hs hfs ht => hnew s ⟨hs, hfs⟩ ht⟩
  · rintro ⟨hr, hf, hnew⟩
    exact ⟨⟨hr, hf⟩, fun s hs ht => hnew s hs.1 hs.2 ht⟩

theorem latestOf_getLast? {p : TaskEvent → Bool} (hrows : rows.Perm t.rows)
    (h : ((taskEvents rows id).filter fun r => p r.val).getLast? = some r) :
    LatestOf t.rows (fun e => e.taskId = id ∧ p e = true) r := by
  unfold taskEvents at h
  rw [filter_orderBy, List.filter_filter] at h
  obtain ⟨hmem, hle⟩ := getLast?_orderBy h
  simp only [List.mem_filter, Bool.and_eq_true, decide_eq_true_eq, hrows.mem_iff] at hmem hle
  exact ⟨hmem.1, hmem.2.symm, fun s hs hp => hle s ⟨hs, hp.symm⟩⟩

theorem exists_getLast? {p : TaskEvent → Bool}
    (h : LatestOf t.rows (fun e => e.taskId = id ∧ p e = true) r) :
    ∃ rows : List (Row TaskEvent), rows.Perm t.rows ∧
      ((taskEvents rows id).filter fun r => p r.val).getLast? = some r := by
  obtain ⟨rows, hrows, hlast⟩ := exists_orderBy_getLast?
    (fun r : Row TaskEvent => r.val.timestamp)
    (p := fun r => p r.val && decide (r.val.taskId = id)) h.mem
    (by simpa using h.selected.symm) (by simpa [and_comm] using h.latest)
  refine ⟨rows, hrows, ?_⟩
  unfold taskEvents
  rw [filter_orderBy, List.filter_filter]
  exact hlast

end Scans

/-- The chain shows current states exactly when, whichever of the recorded roots it resolves, the
newest family row of each task is up to date with the task's whole log. -/
theorem chainCurrent_iff (t : Table TaskEvent) (id : Uuid) :
    ChainCurrent t id ↔ ∀ root, RootOf t.rows id root →
      ∀ r, ShownIn t.rows root id r → UpToDate t.rows r := by
  constructor
  · intro h root hroot r hr
    obtain ⟨rows, hrows, rfl⟩ := exists_resolveRoot hroot
    have hnode : chainNode r ∈ (getTaskChainImpl rows id).chain :=
      (mem_chain (t.nodup_ids hrows)).mpr ⟨r, (mem_latestRows_chainFamily hrows).mpr hr, rfl⟩
    have hreport : ∀ scan : List (Row TaskEvent), scan.Perm t.rows →
        ∃ last, (taskEvents scan r.val.taskId).getLast? = some last ∧
          r.val.eventType = last.val.eventType ∧
          r.val.runtime = ((taskEvents scan r.val.taskId).filter
            (·.val.runtime.isSome)).getLast?.bind (·.val.runtime) := by
      intro scan hscan
      have hne := taskEvents_ne_nil (hscan.mem_iff.mpr hr.mem)
      obtain ⟨a, ha⟩ := getTask_idle scan r.val.taskId
      obtain ⟨s, last, rfl, ⟨hlast, hstate, -, hruntime, -⟩⟩ := getTask_str hne ha
      obtain ⟨s', hs', hst, hrt⟩ := h rows _ hrows hscan _ hnode _ ha
      cases hs'
      exact ⟨last, hlast, TaskEventType.text_inj (hst.trans hstate), hrt.trans hruntime⟩
    constructor
    · intro s hs
      obtain ⟨scan, hscan, hlast⟩ := exists_getLast? (p := fun _ => true) (by simpa using hs)
      obtain ⟨last, hlast', hst, -⟩ := hreport scan hscan
      rw [List.filter_eq_self.mpr (fun _ _ => rfl), hlast'] at hlast
      cases hlast
      exact hst
    · intro s hs
      obtain ⟨scan, hscan, hlast⟩ := exists_getLast? (p := fun e => e.runtime.isSome) hs
      obtain ⟨-, -, -, hrt⟩ := hreport scan hscan
      rw [hrt, hlast, Option.bind_some]
  · intro h rows env hrows henv node hnode a ha
    obtain ⟨r, hr, rfl⟩ := (mem_chain (t.nodup_ids hrows)).mp hnode
    rw [mem_latestRows_chainFamily hrows] at hr
    have hup := h _ (rootOf_resolveRoot hrows id) r hr
    obtain ⟨s, last, rfl, ⟨hlast, hstate, -, hruntime, -⟩⟩ :=
      getTask_str (taskEvents_ne_nil (henv.mem_iff.mpr hr.mem)) ha
    refine ⟨s, rfl, ?_, ?_⟩
    · show r.val.eventType.text = s.state
      have hlatest := latestOf_getLast? (p := fun _ => true) henv
        (by rw [List.filter_eq_self.mpr (fun _ _ => rfl)]; exact hlast)
      rw [hstate, hup.state last (by simpa using hlatest)]
    · show r.val.runtime = s.runtime
      rw [hruntime]
      cases hrt : ((taskEvents env.taskRows r.val.taskId).filter
          (·.val.runtime.isSome)).getLast? with
      | none =>
        rw [List.getLast?_eq_none_iff, List.filter_eq_nil_iff] at hrt
        simpa using hrt r (mem_taskEvents.mpr ⟨henv.mem_iff.mpr hr.mem, rfl⟩)
      | some s => exact hup.runtime s (latestOf_getLast? (p := fun e => e.runtime.isSome) henv hrt)

/-! ## Logs of the handlers -/

def RootOnMessage (r : TaskEvent) : Prop :=
  r.rootId.isSome → (r.eventType = .sent ∨ r.eventType = .received) ∧ r.runtime = none

/-- The task came no further than the message of the row. -/
structure AtMessage (rows : List (Row TaskEvent)) (r : Row TaskEvent) : Prop where
  message : r.val.eventType = .sent ∨ r.val.eventType = .received
  state : ∀ s, LatestOf rows (fun e => e.taskId = r.val.taskId) s →
    s.val.eventType = r.val.eventType
  runtime : ∀ s ∈ rows, s.val.taskId = r.val.taskId → s.val.runtime = none

section Logs

variable {lib : PyLib} {now : Int} {event : Dict} {r : TaskEvent}

theorem rootOnMessage_of_handlers {t : String} {row} (h : handlers t = some (.task row))
    (hr : row lib now event = .ok r) : RootOnMessage r := by
  intro hs
  rcases message_or_bare h hr with ⟨hmessage, hruntime, -, -⟩ | ⟨-, hroot, -⟩
  · exact ⟨hmessage, hruntime⟩
  · rw [hroot] at hs
    cases hs

theorem taskEvents_step {s : System} {op : SystemOp}
    (h : r ∈ (s.step op).db.taskEvents.vals) : r ∈ s.db.taskEvents.vals ∨
      ∃ type row lib now event, handlers type = some (.task row) ∧ row lib now event = .ok r := by
  cases op with
  | deliver env scan event =>
    have hdeliver : r ∈ (s.handle env scan event).system.db.taskEvents.vals := h
    unfold System.handle at hdeliver
    split at hdeliver
    · exact .inl hdeliver
    · next type hd hh =>
      split at hdeliver
      · exact .inl hdeliver
      · next db hrun =>
        have hdb : r ∈ db.taskEvents.vals := hdeliver
        obtain ⟨row, r', rfl, hrow, rfl⟩ | ⟨row, r', -, -, rfl⟩ := Handler.run_cases hrun
        · rcases Table.mem_vals_insertOnConflict hdb with hdb | rfl
          · exact .inl hdb
          · exact .inr ⟨type, row, _, _, _, handlers_of_handlerOf hh, hrow⟩
        · exact .inl hdb
  | tick env scan => exact .inl h
  | create env data => exact .inl ((onlyAutomations_create ..).taskEvents ▸ h)
  | update env id data => exact .inl ((onlyAutomations_update ..).taskEvents ▸ h)
  | delete id => exact .inl ((events_deleteAutomation ..).1 ▸ h)
  | toggle env id => exact .inl ((onlyAutomations_toggle ..).taskEvents ▸ h)
  | seed env => exact .inl ((onlyAutomations_seed ..).taskEvents ▸ h)
  | prune events runs =>
    have hprune : r ∈ (s.db.prune events runs).taskEvents.vals := h
    unfold Db.prune at hprune
    cases events with
    | none => cases runs <;> exact .inl hprune
    | some cutoff =>
      have hdel : r ∈ (s.db.taskEvents.deleteWhere fun r =>
          decide (r.val.timestamp < cutoff)).vals := by cases runs <;> exact hprune
      obtain ⟨u, hu, rfl⟩ := List.mem_map.mp hdel
      exact .inl (List.mem_map_of_mem (List.mem_of_mem_filter hu))

theorem forall_run_of_handlers {P : TaskEvent → Prop}
    (h : ∀ {type row lib now event r}, handlers type = some (.task row) →
      row lib now event = .ok r → P r) (ops : List SystemOp) :
    ∀ r ∈ (run System.step .empty ops).db.taskEvents.rows, P r.val := by
  have hvals : ∀ r ∈ (run System.step .empty ops).db.taskEvents.vals, P r := by
    apply run_invariant (I := fun s : System => ∀ r ∈ s.db.taskEvents.vals, P r)
    · intro s op hs r hr
      rcases taskEvents_step hr with hr | ⟨type, row, lib, now, event, hh, hrow⟩
      · exact hs r hr
      · exact h hh hrow
    · intro r hr
      cases hr
  exact fun r hr => hvals r.val (List.mem_map_of_mem hr)

theorem exists_latestOf {rows : List (Row TaskEvent)} {p : TaskEvent → Bool} {r : Row TaskEvent}
    (hr : r ∈ rows) (hp : p r.val = true) : ∃ s, LatestOf rows (fun e => p e = true) s := by
  cases h : topBy (fun r : Row TaskEvent => r.val.timestamp) (rows.filter fun r => p r.val) with
  | none =>
    rw [topBy_eq_none, List.filter_eq_nil_iff] at h
    exact absurd hp (h r hr)
  | some s =>
    obtain ⟨hmem, hle⟩ := topBy_spec h
    simp only [List.mem_filter] at hmem hle
    exact ⟨s, hmem.1, hmem.2, fun u hu hpu => hle u ⟨hu, hpu⟩⟩

/-- A row without a runtime is up to date when its task has the row's state and no runtime. -/
theorem upToDate_iff {rows : List (Row TaskEvent)} {r : Row TaskEvent}
    (hnone : r.val.runtime = none) : UpToDate rows r ↔
      (∀ s, LatestOf rows (fun e => e.taskId = r.val.taskId) s →
        s.val.eventType = r.val.eventType) ∧
      ∀ s ∈ rows, s.val.taskId = r.val.taskId → s.val.runtime = none := by
  constructor
  · intro h
    refine ⟨fun s hs => (h.state s hs).symm, fun s hs ht => ?_⟩
    by_contra hsome
    obtain ⟨u, hu⟩ := exists_latestOf (p := fun e => decide (e.taskId = r.val.taskId) &&
      e.runtime.isSome) hs (by simp [ht, Option.isSome_iff_ne_none, hsome])
    simp only [Bool.and_eq_true, decide_eq_true_eq] at hu
    have hruntime := h.runtime u hu
    have hsel := hu.selected.2
    rw [← hruntime, hnone] at hsel
    cases hsel
  · rintro ⟨hstate, hruntime⟩
    refine ⟨fun s hs => (hstate s hs).symm, fun s hs => ?_⟩
    rw [hnone, hruntime s hs.mem hs.selected.1]

end Logs

/-- On a log of the handlers, the chain shows current states exactly when every member other than
the task queried came no further than its message, and the newest row of the task queried is up
to date. -/
theorem chain_current (ops : List SystemOp) (id : Uuid) :
    ChainCurrent (run System.step .empty ops).db.taskEvents id ↔
      ∀ root, RootOf (run System.step .empty ops).db.taskEvents.rows id root →
        ∀ r, ShownIn (run System.step .empty ops).db.taskEvents.rows root id r →
          (r.val.taskId = id → UpToDate (run System.step .empty ops).db.taskEvents.rows r) ∧
          (r.val.taskId ≠ id →
            AtMessage (run System.step .empty ops).db.taskEvents.rows r) := by
  rw [chainCurrent_iff]
  refine forall₂_congr fun root _ => forall₂_congr fun r hr => ?_
  have hlog := forall_run_of_handlers rootOnMessage_of_handlers ops r hr.mem
  by_cases hid : r.val.taskId = id
  · exact ⟨fun h => ⟨fun _ => h, fun hne => absurd hid hne⟩, fun h => h.1 hid⟩
  · have hroot : r.val.rootId = some root := hr.family.resolve_right hid
    obtain ⟨hmessage, hnone⟩ := hlog (by rw [hroot]; rfl)
    rw [upToDate_iff hnone]
    constructor
    · rintro ⟨hstate, hruntime⟩
      exact ⟨fun h => absurd h hid, fun _ => ⟨hmessage, hstate, hruntime⟩⟩
    · rintro ⟨-, h⟩
      exact ⟨(h hid).state, (h hid).runtime⟩

/-- A charge that failed, and its retry, which succeeded. -/
def retriedCharge : List SystemOp :=
  let charge : Json := .str "00000000-0000-0000-0000-00000000000a"
  let retry : Json := .str "00000000-0000-0000-0000-00000000000b"
  let events : List Dict :=
    [[("type", .str "task-sent"), ("uuid", charge), ("timestamp", .int 1),
        ("name", .str "billing.charge"), ("root_id", charge)],
      [("type", .str "task-failed"), ("uuid", charge), ("timestamp", .int 2)],
      [("type", .str "task-sent"), ("uuid", retry), ("timestamp", .int 3),
        ("name", .str "billing.charge"), ("root_id", charge), ("parent_id", charge)],
      [("type", .str "task-succeeded"), ("uuid", retry), ("timestamp", .int 4),
        ("runtime", .int 2)]]
  events.map fun event => .deliver (.idle 0) .byId event

def reportedState : Except PyErr (Answer TaskState) → Option String
  | .ok (.ok s) => some s.state
  | _ => none

theorem reportedState_eq_some {a : Except PyErr (Answer TaskState)} {state : String}
    (h : reportedState a = some state) : ∃ s, a = .ok (.ok s) ∧ s.state = state := by
  unfold reportedState at h
  split at h
  · next s => exact ⟨s, rfl, Option.some.inj h⟩
  · cases h

/-- The chain of the charge still shows the retry as sent. -/
theorem chain_stale :
    ¬ ChainCurrent (run System.step .empty retriedCharge).db.taskEvents ⟨10, by decide⟩ := by
  intro h
  have hstale : ∃ node ∈ (getTaskChainImpl (run System.step .empty retriedCharge).db.taskEvents.rows
      ⟨10, by decide⟩).chain, node.state = "sent" ∧ reportedState (getTask { Env.idle 0 with
        taskRows := (run System.step .empty retriedCharge).db.taskEvents.rows } node.taskId) =
          some "succeeded" := by decide +kernel
  generalize (run System.step .empty retriedCharge).db.taskEvents = t at h hstale
  obtain ⟨node, hnode, hsent, hreported⟩ := hstale
  obtain ⟨s, hs, hsucceeded⟩ := reportedState_eq_some hreported
  obtain ⟨s', heq, hstate, -⟩ := h t.rows { Env.idle 0 with taskRows := t.rows } (.refl _) (.refl _)
    node hnode _ hs
  cases heq
  rw [hsent, hsucceeded] at hstate
  exact absurd hstate (by decide)

end Taskowl
