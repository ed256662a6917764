import Taskowl.LiveEvents

/-!
# The timeline of a task

`get_task_timeline_query` lists a task's events in time order, each with the
details its columns record; `get_task` folds the same events. Where a task's
events have times of their own the two tell the same story, and after any
history it is that of the task's live events.
-/

namespace Taskowl

open Lib Py

/-- `if value:` of a JSON column. -/
def givenJson (v : Json) : Option Json := if v.truthy then some v else none

def detail (key : String) (v : Option Json) : Dict := (v.map fun v => (key, v)).toList

/-- The dict `details` of an event. -/
def timelineDetails (event : TaskEvent) : Dict :=
  detail "name" ((given event.name).map .str) ++
    detail "runtime" (event.runtime.map .float) ++
    detail "exception" ((given event.exception).map .str) ++
    detail "result" (givenJson event.result.read) ++
    detail "retries" (event.retries.map .int) ++
    detail "pid" (event.pid.map .int) ++
    detail "terminated" (event.terminated.map .bool) ++
    detail "expired" (event.expired.map .bool)

structure TimelineEntry where
  timestamp : String
  eventType : String
  hostname : Option String
  details : Dict := []
  deriving DecidableEq, Repr

def timelineEntry (event : TaskEvent) : TimelineEntry where
  timestamp := isoformat event.timestamp
  eventType := event.eventType.text
  hostname := event.hostname
  details := timelineDetails event

/-- `_get_task_timeline_impl(task_uuid, task_id)`. -/
def getTaskTimelineImpl (rows : List (Row TaskEvent)) (id : Uuid) (taskId : String) :
    Answer (List TimelineEntry) :=
  let events := taskEvents rows id
  if events.isEmpty then .error s!"Task not found: {taskId}"
  else .ok (events.map fun r => timelineEntry r.val)

/-- `get_task_timeline_query(task_id)`. -/
def getTaskTimeline (env : Env) (taskId : String) : Answer (List TimelineEntry) :=
  match Uuid.parse taskId with
  | none => .error s!"Invalid task_id format: {taskId}"
  | some id => getTaskTimelineImpl env.taskRows id taskId

/-! ## Folds -/

/-- A field that every entry either sets or keeps is what the last entry to set it gave. -/
theorem last_of_foldl {α β σ : Type} {add : σ → α → σ} {field : σ → Option β} {f : α → Option β}
    (h : ∀ s a, field (add s a) = (f a).or (field s)) (s : σ) (xs : List α) :
    field (xs.foldl add s) = ((xs.filterMap f).getLast?).or (field s) := by
  induction xs using List.reverseRecOn with
  | nil => rfl
  | append_singleton xs x ih =>
    rw [List.foldl_append, List.filterMap_append]
    show field (add _ x) = _
    rw [h, ih]
    cases hx : f x with
    | none => simp [hx]
    | some b => simp [hx]

theorem orKeep_eq (old new : Option String) : orKeep old new = (given new).or old := by
  unfold orKeep given strTruthy
  cases new with
  | none => rfl
  | some s =>
    by_cases hs : s = ""
    · subst hs
      rfl
    · have htruthy : (s != "") = true := by simpa using hs
      show (if (s != "") = true then some s else old) = _
      rw [Option.filter_some, htruthy]
      rfl

theorem givenJson_or (v w : Json) : givenJson (v.or w) = (givenJson v).or (givenJson w) := by
  unfold givenJson Json.or
  cases hv : v.truthy with
  | true => simp [hv]
  | false => simp

/-! ## What the details record -/

section Details

variable (e : TaskEvent)

theorem lookup_detail (key key' : String) (v : Option Json) :
    (detail key v).lookup key' = if key' = key then v else none := by
  cases v with
  | none => split <;> rfl
  | some v =>
    show List.lookup key' [(key, v)] = _
    rw [List.lookup_cons]
    by_cases h : key' = key
    · simp [h]
    · simp [h, beq_false_of_ne h]

theorem lookup_details (key : String) : (timelineDetails e).lookup key =
    (if key = "name" then (given e.name).map .str else none).or
      ((if key = "runtime" then e.runtime.map .float else none).or
        ((if key = "exception" then (given e.exception).map .str else none).or
          ((if key = "result" then givenJson e.result.read else none).or
            ((if key = "retries" then e.retries.map .int else none).or
              ((if key = "pid" then e.pid.map .int else none).or
                ((if key = "terminated" then e.terminated.map .bool else none).or
                  (if key = "expired" then e.expired.map .bool else none))))))) := by
  unfold timelineDetails
  simp only [List.lookup_append, lookup_detail, Option.or_assoc]

end Details

/-! ## The timeline and the detail view -/

def lastDetail (timeline : List TimelineEntry) (key : String) : Option Json :=
  (timeline.filterMap fun e => e.details.lookup key).getLast?

/-- A timeline and what `get_task` returns tell the same. -/
structure Tells (timeline : List TimelineEntry) (s : TaskState) : Prop where
  events : s.events = timeline.map fun e => ⟨e.eventType, e.timestamp, e.hostname⟩
  state : timeline.getLast?.map (·.eventType) = some s.state
  worker : timeline.getLast?.map (·.hostname) = some s.worker
  name : lastDetail timeline "name" = s.name.map .str
  runtime : lastDetail timeline "runtime" = s.runtime.map .float
  exception : lastDetail timeline "exception" = s.exception.map .str
  result : lastDetail timeline "result" = givenJson s.result

theorem events_foldl (events : List (Row TaskEvent)) (s : TaskState) :
    (events.foldl (fun s r => s.add r.val) s).events = s.events ++ events.map fun r =>
      ⟨r.val.eventType.text, isoformat r.val.timestamp, r.val.hostname⟩ := by
  induction events generalizing s with
  | nil => exact (List.append_nil _).symm
  | cons r events ih =>
    rw [List.foldl_cons, ih, List.map_cons]
    exact List.append_assoc ..

/-- The entries of the events that `get_task` folds tell what it returns. -/
theorem tells_of_events {env : Env} {id : Uuid} {taskId : String} {s : TaskState}
    (h : getTaskImpl env id taskId = .ok (.ok s)) :
    Tells ((taskEvents env.taskRows id).map fun r => timelineEntry r.val) s := by
  unfold getTaskImpl at h
  dsimp only at h
  generalize taskEvents env.taskRows id = events at h ⊢
  split at h
  · cases h
  · next last hlast =>
    split at h
    · cases h
    · next orphaned horphan =>
      cases h
      have hfield : ∀ {β : Type} (field : TaskState → Option β) (f : TaskEvent → Option β),
          (∀ s e, field (s.add e) = (f e).or (field s)) → field { id := id.str } = none →
          field (events.foldl (fun s r => s.add r.val) { id := id.str }) =
            (events.filterMap fun r => f r.val).getLast? := by
        intro β field f hadd hnone
        rw [last_of_foldl (f := fun r : Row TaskEvent => f r.val) (fun s r => hadd s r.val), hnone,
          Option.or_none]
      have hdetail : ∀ {β : Type} (key : String) (g : β → Json) (f : TaskEvent → Option β),
          (∀ e, (timelineDetails e).lookup key = (f e).map g) →
          lastDetail (events.map fun r => timelineEntry r.val) key =
            ((events.filterMap fun r => f r.val).getLast?).map g := by
        intro β key g f hlookup
        unfold lastDetail
        rw [List.filterMap_map, ← List.getLast?_map, List.map_filterMap]
        refine congrArg _ (List.filterMap_congr fun r _ => ?_)
        exact hlookup r.val
      have hlastEntry : (events.map fun r => timelineEntry r.val).getLast? =
          some (timelineEntry last.val) := by
        rw [List.getLast?_map, hlast]
        rfl
      constructor
      · show (events.foldl (fun s r => s.add r.val) ({ id := id.str } : TaskState)).events = _
        rw [events_foldl, List.map_map]
        rfl
      · rw [hlastEntry]
        rfl
      · rw [hlastEntry]
        rfl
      · rw [hdetail "name" .str (fun e => given e.name) fun e => by simp [lookup_details]]
        exact congrArg _ (hfield (·.name) _ (fun s e => orKeep_eq s.name e.name) rfl).symm
      · rw [hdetail "runtime" .float (·.runtime) fun e => by simp [lookup_details]]
        exact congrArg _ (hfield (·.runtime) _ (fun _ _ => rfl) rfl).symm
      · rw [hdetail "exception" .str (fun e => given e.exception) fun e => by simp [lookup_details]]
        exact congrArg _ (hfield (·.exception) _ (fun s e => orKeep_eq s.exception e.exception)
          rfl).symm
      · rw [hdetail "result" (fun v => v) (fun e => givenJson e.result.read) fun e => by
          simp [lookup_details], Option.map_id']
        exact (hfield (fun s => givenJson s.result) _ (fun s e => givenJson_or _ _) rfl).symm

/-- **The timeline and the detail view tell the same story.** Over any log in which the events of a
task have times of their own, and in whatever orders the two queries read it: they fail on the same
ids with the same text, and when both answer, the timeline has the events of `get_task`, the state
and worker of its last entry are the current ones, and the name, the runtime, the exception and the
result are the last ones its details record. -/
theorem timeline_tells (t : Table TaskEvent)
    (hone : ∀ r ∈ t.rows, ∀ s ∈ t.rows, r.val.taskId = s.val.taskId →
      r.val.timestamp = s.val.timestamp → r = s) {env env' : Env}
    (henv : env.taskRows.Perm t.rows) (henv' : env'.taskRows.Perm t.rows) (taskId : String) :
    (∀ msg, getTaskTimeline env taskId = .error msg ↔
      getTask env' taskId = .ok (.error msg)) ∧
      ∀ timeline s, getTaskTimeline env taskId = .ok timeline →
        getTask env' taskId = .ok (.ok s) → Tells timeline s := by
  unfold getTaskTimeline getTask
  cases Uuid.parse taskId with
  | none =>
    refine ⟨fun msg => ?_, fun _ _ h => nomatch h⟩
    exact ⟨fun h => congrArg (fun m => Except.ok (Answer.error m)) (Answer.error.inj h),
      fun h => congrArg Answer.error (Answer.error.inj (Except.ok.inj h))⟩
  | some id =>
    have hsame : taskEvents env.taskRows id = taskEvents env'.taskRows id := by
      refine orderBy_eq_of_perm ((henv.trans henv'.symm).filter _) fun a ha b hb hts => ?_
      simp only [List.mem_filter, decide_eq_true_eq] at ha hb
      exact hone a (henv.mem_iff.mp ha.1) b (henv.mem_iff.mp hb.1) (ha.2.trans hb.2.symm) hts
    dsimp only
    refine ⟨fun msg => ?_, fun timeline s htimeline hs => ?_⟩
    · unfold getTaskTimelineImpl getTaskImpl
      rw [hsame]
      dsimp only
      cases hevents : (taskEvents env'.taskRows id).getLast? with
      | none =>
        rw [List.getLast?_eq_none_iff.mp hevents]
        exact ⟨fun h => congrArg (fun m => Except.ok (Answer.error m)) (Answer.error.inj h),
          fun h => congrArg Answer.error (Answer.error.inj (Except.ok.inj h))⟩
      | some last =>
        have hne : (taskEvents env'.taskRows id).isEmpty = false := by
          cases hnil : taskEvents env'.taskRows id with
          | nil =>
            rw [hnil] at hevents
            cases hevents
          | cons r rows => rfl
        rw [hne]
        constructor
        · intro h
          cases h
        · intro h
          dsimp only at h
          split at h <;> cases h
    · unfold getTaskTimelineImpl at htimeline
      rw [hsame] at htimeline
      dsimp only at htimeline
      split at htimeline
      · cases htimeline
      · cases htimeline
        exact tells_of_events hs

def failedTask : Table TaskEvent :=
  let task : Uuid := ⟨48, by decide⟩
  (Table.empty.insert 0 { eventType := .sent, taskId := task, timestamp := 1,
                          name := some "billing.charge" }).insert 0
    { eventType := .failed, taskId := task, timestamp := 2, exception := some "KeyError()" }

theorem timeline_tells_failedTask :
    let env : Env := { Env.idle 9 with taskRows := failedTask.rows }
    let env' : Env := { Env.idle 9 with taskRows := failedTask.rows.reverse }
    ∃ timeline s, getTaskTimeline env "00000000-0000-0000-0000-000000000030" = .ok timeline ∧
      getTask env' "00000000-0000-0000-0000-000000000030" = .ok (.ok s) ∧ Tells timeline s := by
  intro env env'
  obtain ⟨-, htells⟩ := @timeline_tells failedTask (by decide) env env'
    (.refl _) failedTask.rows.reverse_perm "00000000-0000-0000-0000-000000000030"
  exact ⟨_, _, rfl, rfl, htells _ _ rfl rfl⟩

/-! ## The timeline over whole histories -/

/-- **The timeline is the task's live history.** After any history of deliveries, automation work
and prunes, the timeline of a task lists its live events, each once, strictly in the order of their
times; when none is live the task is not found. -/
theorem timeline_live (ops : List SystemOp) (h : Distinct ops) (env : Env) (scan : Scan)
    {taskId : String} {id : Uuid} (hparse : Uuid.parse taskId = some id) :
    ∃ events : List TaskEvent, events.Pairwise (fun a b => a.timestamp < b.timestamp) ∧
      (∀ e, e ∈ events ↔ e.taskId = id ∧ Live ops (.task e)) ∧
      getTaskTimeline (env.reading scan (run System.step .empty ops).db) taskId =
        if events = [] then .error s!"Task not found: {taskId}"
        else .ok (events.map timelineEntry) := by
  obtain ⟨hnodup, -, hlive, -⟩ := events_live ops h
  let rows := (env.reading scan (run System.step .empty ops).db).taskRows
  have hvals : (rows.map (·.val)).Perm (run System.step .empty ops).db.taskEvents.vals :=
    (scan.perm _).map _
  have hmem : ∀ e, e ∈ (taskEvents rows id).map (·.val) ↔ e.taskId = id ∧ Live ops (.task e) := by
    intro e
    rw [map_taskEvents, (orderBy_perm _ _).mem_iff, List.mem_filter, decide_eq_true_eq,
      hvals.mem_iff, hlive, and_comm]
  refine ⟨(taskEvents rows id).map (·.val), ?_, hmem, ?_⟩
  · have hsorted : ((taskEvents rows id).map (·.val)).Pairwise fun a b =>
        a.timestamp ≤ b.timestamp := by
      rw [map_taskEvents]
      exact orderBy_pairwise _ _
    have hdistinct : ((taskEvents rows id).map (·.val)).Nodup := by
      rw [map_taskEvents, (orderBy_perm _ _).nodup_iff]
      exact (hvals.nodup_iff.mpr hnodup).filter _
    refine (hsorted.and hdistinct).imp_of_mem fun {a b} ha hb hab => ?_
    obtain ⟨hle, hne⟩ := hab
    obtain ⟨hida, hlivea⟩ := (hmem a).mp ha
    obtain ⟨hidb, hliveb⟩ := (hmem b).mp hb
    refine lt_of_le_of_ne hle fun hts => hne ?_
    exact EventRow.task.inj (h.one _ hlivea.delivered _ hliveb.delivered
      (congrArg Sum.inl (hida.trans hidb.symm)) hts)
  · unfold getTaskTimeline getTaskTimelineImpl
    rw [hparse]
    dsimp only
    cases hevents : taskEvents (env.reading scan (run System.step .empty ops).db).taskRows id with
    | nil => rfl
    | cons r events =>
      rw [List.map_map]
      rfl

/-- The history that lost its first event. -/
theorem timeline_live_pruned : ∃ events : List TaskEvent,
    events.Pairwise (fun a b => a.timestamp < b.timestamp) ∧
      getTaskTimeline ((Env.idle 9).reading .byId (run System.step .empty prunedHistory).db)
        "12345678-1234-5678-1234-567812345678" =
        if events = [] then .error "Task not found: 12345678-1234-5678-1234-567812345678"
        else .ok (events.map timelineEntry) := by
  obtain ⟨id, hid⟩ : ∃ id, Uuid.parse "12345678-1234-5678-1234-567812345678" = some id :=
    Option.isSome_iff_exists.mp (by decide +kernel)
  obtain ⟨events, hsorted, -, htimeline⟩ :=
    timeline_live prunedHistory distinct_prunedHistory (.idle 9) .byId hid
  exact ⟨events, hsorted, htimeline⟩

end Taskowl
