import Taskowl.ChainState
import Taskowl.Ingest

/-!
# The lineage of retries

A log of tasks that are over, and the retries of them, of those retries and so
on. `retry_task` reads the root from the events of the task it retries: of an
original, those in the log; of a retry, its messages, which carry the root
that was sent with it. A retry that can be retried has a name, and only a
message records one, so the root is there to be read.
-/

namespace Taskowl

open Lib Py

/-- A task that `retry_task` sent. -/
structure Retry where
  id : Uuid
  /-- The task it retries. -/
  origin : Uuid
  task : SentTask

/-- A message of the retry carries the root and the parent that were sent. -/
def Retry.carries (m : Retry) (event : Dict) (r : TaskEvent) : Bool :=
  decide (r.taskId = m.id) && decide (r.eventType = .sent ∨ r.eventType = .received →
    parseUuid (event.get "root_id") = m.task.rootId ∧
      parseUuid (event.get "parent_id") = m.task.parentId)

structure Lineage where
  log : Table TaskEvent
  retries : List Retry := []

inductive LineageOp where
  | retry (env : Env) (scan : Scan) (taskId : Json)
  | event (lib : PyLib) (now : Int) (event : Dict)

namespace Lineage

def Fresh (s : Lineage) (id : Uuid) : Prop :=
  (∀ r ∈ s.log.rows, r.val.taskId ≠ id) ∧ ∀ m ∈ s.retries, m.id ≠ id

instance (s : Lineage) (id : Uuid) : Decidable (s.Fresh id) := by unfold Fresh; infer_instance

/-- What a call of `retry_task` sends, under the id the broker answers. -/
def retried (s : Lineage) (env : Env) (scan : Scan) (taskId : Json) : Option Retry :=
  match retryTask { env with taskRows := scan.order s.log.rows } {} taskId with
  | (w, .ok (.success newId)) =>
    match Uuid.ofJson taskId, Uuid.parse newId, w.effects.getLast? with
    | .ok origin, some id, some (.sendTask task) => some ⟨id, origin, task⟩
    | _, _, _ => none
  | _ => none

/-- Answers with an id that is taken, events of other tasks than retries, and messages that do not
carry what was sent do not occur. -/
def step (s : Lineage) : LineageOp → Lineage
  | .retry env scan taskId => match s.retried env scan taskId with
    | none => s
    | some m => if s.Fresh m.id then { s with retries := s.retries ++ [m] } else s
  | .event lib now event => match eventRow lib now event with
    | some (.task r) =>
      if s.retries.any (·.carries event r) then
        { s with log := insertEvent (·.dedupeKey) s.log now r }
      else s
    | _ => s

/-- `id` was obtained from `t` in so many retries. -/
inductive Descends (s : Lineage) (t : Uuid) : Nat → Uuid → Prop
  | original (h : ∀ m ∈ s.retries, m.id ≠ t) : Descends s t 0 t
  | retry {n : Nat} {m : Retry} (hm : m ∈ s.retries) (h : Descends s t n m.origin) :
    Descends s t (n + 1) m.id

def parentOf (s : Lineage) (id : Uuid) : Option Uuid :=
  (s.retries.find? (·.id == id)).bind (·.task.parentId)

def ancestor (s : Lineage) : Nat → Uuid → Option Uuid
  | 0, id => some id
  | n + 1, id => (s.parentOf id).bind (s.ancestor n)

end Lineage

/-- The root that a task recorded, or else the task. -/
def RecordedRoot (rows : List (Row TaskEvent)) (t root : Uuid) : Prop :=
  (∃ r ∈ rows, r.val.taskId = t ∧ r.val.rootId = some root) ∨
    (∀ r ∈ rows, r.val.taskId = t → r.val.rootId = none) ∧ root = t

/-- All events of a task that record a root record the same one. -/
def OneRoot (rows : List (Row TaskEvent)) : Prop :=
  ∀ r ∈ rows, ∀ r' ∈ rows, r.val.taskId = r'.val.taskId → r.val.rootId.isSome →
    r'.val.rootId.isSome → r.val.rootId = r'.val.rootId

/-- A call that returns, or raises, before it contacts the broker: a bad id, an unknown task, one in
another state, or one without a name. -/
def Refused (env : Env) (taskId : Json) : Prop :=
  ∀ id, Uuid.ofJson taskId = .ok id → ∀ info, getTaskInfo env id = .ok (some info) →
    retryable info.state = false ∨ strTruthy info.name = false

namespace Lineage

/-- Ids are unique, the originals have the rows of the first log, the messages of a retry record its
root, and every retry was sent with the root of an original and the parent it retries. -/
structure Traced (first : List (Row TaskEvent)) (s : Lineage) : Prop where
  nodup : (s.retries.map (·.id)).Nodup
  kept : ∀ r ∈ first, r ∈ s.log.rows
  originals : ∀ r ∈ s.log.rows, (∀ m ∈ s.retries, m.id ≠ r.val.taskId) → r ∈ first
  messages : ∀ m ∈ s.retries, ∀ r ∈ s.log.rows, r.val.taskId = m.id →
    r.val.rootId = m.task.rootId ∨ r.val.name = none ∧ r.val.rootId = none
  parents : ∀ m ∈ s.retries, m.task.parentId = some m.origin
  lineage : ∀ m ∈ s.retries, ∃ t n, s.Descends t n m.origin ∧ (∃ r ∈ first, r.val.taskId = t) ∧
    ∀ root, RecordedRoot first t root → m.task.rootId = some root

section Descent

variable {s : Lineage} {first : List (Row TaskEvent)} {t t' id : Uuid} {n n' : Nat} {m : Retry}

theorem Traced.inj (hs : s.Traced first) {m' : Retry} (hm : m ∈ s.retries) (hm' : m' ∈ s.retries)
    (h : m.id = m'.id) : m = m' := List.inj_on_of_nodup_map hs.nodup hm hm' h

theorem Descends.not_retry (h : s.Descends t n id) : ∀ m ∈ s.retries, m.id ≠ t := by
  induction h with
  | original h => exact h
  | retry _ _ ih => exact ih

theorem Descends.unique (hs : s.Traced first) (h : s.Descends t n id)
    (h' : s.Descends t' n' id) : t = t' ∧ n = n' := by
  induction h generalizing n' with
  | original hnot =>
    cases h' with
    | original => exact ⟨rfl, rfl⟩
    | retry hm => exact absurd rfl (hnot _ hm)
  | @retry n m hm h ih =>
    generalize hid : m.id = id at h'
    cases h' with
    | original hnot => exact absurd hid (hnot m hm)
    | retry hm' h' =>
      obtain rfl := hs.inj hm hm' hid
      obtain ⟨rfl, rfl⟩ := ih h'
      exact ⟨rfl, rfl⟩

theorem Traced.parentOf_eq (hs : s.Traced first) (hm : m ∈ s.retries) :
    s.parentOf m.id = some m.origin := by
  obtain ⟨m', hfind⟩ : ∃ m', s.retries.find? (·.id == m.id) = some m' :=
    Option.isSome_iff_exists.mp (List.find?_isSome.mpr ⟨m, hm, by simp⟩)
  have hid : m'.id = m.id := by simpa using List.find?_some hfind
  obtain rfl := hs.inj (List.mem_of_find?_eq_some hfind) hm hid
  unfold parentOf
  rw [hfind, Option.bind_some, hs.parents m' hm]

/-- The parents lead to the original in as many steps as there were retries. -/
theorem Descends.ancestor_eq (hs : s.Traced first) (h : s.Descends t n id) :
    s.ancestor n id = some t ∧ ∀ k < n, s.ancestor k id ≠ some t := by
  have hnot := h.not_retry
  induction h with
  | original => exact ⟨rfl, fun k hk => absurd hk (Nat.not_lt_zero k)⟩
  | @retry n m hm h ih =>
    obtain ⟨hat, hbefore⟩ := ih
    have hstep : ∀ k, s.ancestor (k + 1) m.id = s.ancestor k m.origin := by
      intro k
      rw [ancestor, hs.parentOf_eq hm]
      rfl
    refine ⟨(hstep n).trans hat, fun k hk => ?_⟩
    cases k with
    | zero => exact fun heq => hnot m hm (Option.some.inj heq)
    | succ k =>
      rw [hstep]
      exact hbefore k (by omega)

theorem Descends.mono (h : s.Descends t n id) (ht : m.id ≠ t) :
    ({ s with retries := s.retries ++ [m] } : Lineage).Descends t n id := by
  induction h with
  | original hnot =>
    refine .original fun a ha => ?_
    rcases List.mem_append.mp ha with ha | ha
    · exact hnot a ha
    · rw [List.mem_singleton.mp ha]
      exact ht
  | retry hm _ ih => exact .retry (List.mem_append_left _ hm) ih

theorem Descends.withLog (h : s.Descends t n id) (log : Table TaskEvent) :
    ({ s with log } : Lineage).Descends t n id := by
  induction h with
  | original hnot => exact .original hnot
  | retry hm _ ih => exact .retry hm ih

end Descent

section Steps

variable {s : Lineage} {first : List (Row TaskEvent)} {m : Retry}

theorem lastRoot_eq {rows : List (Row TaskEvent)} (scan : Scan) {id : Uuid} (root : Uuid)
    (hsome : ∃ r ∈ rows, r.val.taskId = id ∧ r.val.rootId = some root)
    (hone : ∀ r ∈ rows, r.val.taskId = id → r.val.rootId.isSome → r.val.rootId = some root) :
    ((taskEvents (scan.order rows) id).filter
      (·.val.rootId.isSome)).getLast?.bind (·.val.rootId) = some root := by
  obtain ⟨r, hr, ht, hroot⟩ := hsome
  have hne : (taskEvents (scan.order rows) id).filter (·.val.rootId.isSome) ≠ [] := by
    apply List.ne_nil_of_mem (a := r)
    rw [List.mem_filter, mem_taskEvents]
    exact ⟨⟨(scan.perm _).mem_iff.mpr hr, ht⟩, by rw [hroot]; rfl⟩
  obtain ⟨u, hu⟩ := Option.isSome_iff_exists.mp (List.getLast?_isSome.mpr hne)
  obtain ⟨hmem, hsome⟩ := List.mem_filter.mp (List.mem_of_getLast? hu)
  obtain ⟨hmem, hut⟩ := mem_taskEvents.mp hmem
  rw [hu, Option.bind_some]
  exact hone u ((scan.perm _).mem_iff.mp hmem) hut hsome

theorem retried_spec {env : Env} {scan : Scan} {taskId : Json}
    (h : s.retried env scan taskId = some m) :
    ∃ root, (∃ r ∈ s.log.rows, r.val.taskId = m.origin ∧ r.val.name.isSome = true) ∧
      root = ((taskEvents (scan.order s.log.rows) m.origin).filter
        (·.val.rootId.isSome)).getLast?.bind (·.val.rootId) ∧
      m.task.rootId = some (root.getD m.origin) ∧ m.task.parentId = some m.origin := by
  unfold retried at h
  split at h
  · next w newId hretry =>
    obtain ⟨origin, info, task, hid, hinfo, rfl, hroot, hparent, hname⟩ := retryTask_success hretry
    split at h
    · next origin' id task' horigin _ htask =>
      cases h
      rw [hid] at horigin
      cases horigin
      rw [World.effects_send, List.nil_append] at htask
      cases htask
      obtain ⟨r, hr, hnamed⟩ := exists_name_of_getTaskInfo hinfo hname
      obtain ⟨hr, ht⟩ := mem_taskEvents.mp hr
      refine ⟨info.rootId, ⟨r, (scan.perm _).mem_iff.mp hr, ht, ?_⟩, rootId_of_getTaskInfo hinfo,
        hroot, hparent⟩
      cases hn : r.val.name with
      | none => rw [hn] at hnamed; cases hnamed
      | some name => rfl
    · cases h
  · cases h

/-- The root of a retry is that of the original, whatever was retried. -/
theorem Traced.retried (hs : s.Traced first) (hone : OneRoot first) {env : Env} {scan : Scan}
    {taskId : Json} (h : s.retried env scan taskId = some m) :
    ∃ t n, s.Descends t n m.origin ∧ (∃ r ∈ first, r.val.taskId = t) ∧
      ∀ root, RecordedRoot first t root → m.task.rootId = some root := by
  obtain ⟨last, ⟨named, hnamed, hnamedt, hname⟩, hlast, hroot, -⟩ := retried_spec h
  by_cases hretry : ∃ p ∈ s.retries, p.id = m.origin
  · -- A retry: the named event is a message with the root that was sent.
    obtain ⟨p, hp, hpid⟩ := hretry
    obtain ⟨t, n, hd, ht, hproot⟩ := hs.lineage p hp
    refine ⟨t, n + 1, hpid ▸ .retry hp hd, ht, fun root hrecorded => ?_⟩
    have hsent := hproot root hrecorded
    rw [hroot, hlast, lastRoot_eq scan root ⟨named, hnamed, hnamedt, ?_⟩ ?_]
    · rfl
    · obtain hmessage | ⟨hnone, -⟩ := hs.messages p hp named hnamed (hnamedt.trans hpid.symm)
      · rw [hmessage, hsent]
      · rw [hnone] at hname
        cases hname
    · intro r hr hrt hsome
      obtain hmessage | ⟨-, hnone⟩ := hs.messages p hp r hr (hrt.trans hpid.symm)
      · rw [hmessage, hsent]
      · rw [hnone] at hsome
        cases hsome
  · -- An original: its rows are those of the first log.
    have hnot : ∀ p ∈ s.retries, p.id ≠ m.origin := fun p hp heq => hretry ⟨p, hp, heq⟩
    have hfirst : ∀ r ∈ s.log.rows, r.val.taskId = m.origin → r ∈ first :=
      fun r hr hrt => hs.originals r hr (hrt ▸ hnot)
    refine ⟨m.origin, 0, .original hnot, ⟨named, hfirst named hnamed hnamedt, hnamedt⟩,
      fun root hrecorded => ?_⟩
    obtain ⟨r, hr, hrt, hrroot⟩ | ⟨hnone, rfl⟩ := hrecorded
    · rw [hroot, hlast, lastRoot_eq scan root ⟨r, hs.kept r hr, hrt, hrroot⟩ ?_]
      · rfl
      · intro u hu hut husome
        rw [hone u (hfirst u hu hut) r hr (hut.trans hrt.symm) husome (by rw [hrroot]; rfl), hrroot]
    · have hempty : (taskEvents (scan.order s.log.rows) m.origin).filter
          (·.val.rootId.isSome) = [] := by
        rw [List.filter_eq_nil_iff]
        intro u hu
        obtain ⟨hu, hut⟩ := mem_taskEvents.mp hu
        rw [hnone u (hfirst u ((scan.perm _).mem_iff.mp hu) hut) hut]
        simp
      rw [hroot, hlast, hempty]
      rfl

theorem Traced.launch (hs : s.Traced first) (hone : OneRoot first) {env : Env} {scan : Scan}
    {taskId : Json} (hm : s.retried env scan taskId = some m) (hfresh : s.Fresh m.id) :
    Traced first { s with retries := s.retries ++ [m] } := by
  obtain ⟨t, n, hd, ht, hroot⟩ := hs.retried hone hm
  obtain ⟨-, -, -, -, hparent⟩ := retried_spec hm
  have hmem : ∀ a, a ∈ s.retries ++ [m] → a ∈ s.retries ∨ a = m := by simp
  have hnew : ∀ t, (∃ r ∈ first, r.val.taskId = t) → m.id ≠ t := by
    rintro t ⟨r, hr, rfl⟩ heq
    exact hfresh.1 r (hs.kept r hr) heq.symm
  constructor
  · show ((s.retries ++ [m]).map (·.id)).Nodup
    rw [List.map_append, List.nodup_append]
    refine ⟨hs.nodup, List.nodup_singleton _, ?_⟩
    rintro _ ha _ hb rfl
    obtain ⟨a, ha, heq⟩ := List.mem_map.mp ha
    exact hfresh.2 a ha (heq.trans (List.mem_singleton.mp hb))
  · exact hs.kept
  · exact fun r hr hr' => hs.originals r hr fun a ha => hr' a (List.mem_append_left _ ha)
  · intro a ha r hr hrt
    rcases hmem a ha with ha | rfl
    · exact hs.messages a ha r hr hrt
    · exact absurd hrt (hfresh.1 r hr)
  · intro a ha
    rcases hmem a ha with ha | rfl
    · exact hs.parents a ha
    · exact hparent
  · intro a ha
    rcases hmem a ha with ha | rfl
    · obtain ⟨t, n, hd, ht, hroot⟩ := hs.lineage a ha
      exact ⟨t, n, hd.mono (hnew t ht), ht, hroot⟩
    · exact ⟨t, n, hd.mono (hnew t ht), ht, hroot⟩

theorem Traced.logged (hs : s.Traced first) (hm : m ∈ s.retries) {r : Row TaskEvent}
    (hid : r.val.taskId = m.id)
    (hmessage : r.val.rootId = m.task.rootId ∨ r.val.name = none ∧ r.val.rootId = none)
    {log : Table TaskEvent} (hlog : log.rows = s.log.rows ∨ log.rows = s.log.rows ++ [r]) :
    Traced first { s with log } := by
  have hmem : ∀ u, u ∈ log.rows → u ∈ s.log.rows ∨ u = r := by
    intro u hu
    rcases hlog with heq | heq <;> rw [heq] at hu
    · exact .inl hu
    · simpa using hu
  refine { hs with kept := fun u hu => ?_, originals := fun u hu hnot => ?_,
                   messages := fun a ha u hu hut => ?_, lineage := fun a ha => ?_ }
  · show u ∈ log.rows
    rcases hlog with heq | heq <;> rw [heq]
    · exact hs.kept u hu
    · exact List.mem_append_left _ (hs.kept u hu)
  · rcases hmem u hu with hu | rfl
    · exact hs.originals u hu hnot
    · exact absurd hid.symm (hnot m hm)
  · rcases hmem u hu with hu | rfl
    · exact hs.messages a ha u hu hut
    · obtain rfl := hs.inj ha hm (hut.symm.trans hid)
      exact hmessage
  · obtain ⟨t, n, hd, hrest⟩ := hs.lineage a ha
    exact ⟨t, n, hd.withLog _, hrest⟩

theorem Traced.step (hs : s.Traced first) (hone : OneRoot first) (op : LineageOp) :
    (s.step op).Traced first := by
  cases op with
  | retry env scan taskId =>
    show (match s.retried env scan taskId with
      | none => s
      | some m => if s.Fresh m.id then { s with retries := s.retries ++ [m] } else s).Traced first
    split
    · exact hs
    · next m hm =>
      split
      · next hfresh => exact hs.launch hone hm hfresh
      · exact hs
  | event lib now event =>
    show (match eventRow lib now event with
      | some (.task r) => _
      | _ => s : Lineage).Traced first
    split
    · next r hrow =>
      split
      · next hcarries =>
        obtain ⟨m, hm, hc⟩ := List.any_eq_true.mp hcarries
        obtain ⟨hid, hc⟩ := (Bool.and_eq_true_iff).mp hc
        obtain ⟨type, row, hh, hr⟩ := eventRow_eq_task.mp hrow
        have hmessage : r.rootId = m.task.rootId ∨ r.name = none ∧ r.rootId = none := by
          rcases message_or_bare (handlers_of_handlerOf hh) hr with
            ⟨hkind, -, hroot, -⟩ | ⟨hname, hroot, -⟩
          · exact .inl (hroot.trans (of_decide_eq_true hc hkind).1)
          · exact .inr ⟨hname, hroot⟩
        exact hs.logged hm (r := ⟨s.log.nextId, now, r⟩) (of_decide_eq_true hid) hmessage
          (Table.rows_insertOnConflict (fun e : TaskEvent => e.dedupeKey) s.log now r)
      · exact hs
    · exact hs

theorem traced_run {log : Table TaskEvent} (hone : OneRoot log.rows) (ops : List LineageOp) :
    (run Lineage.step ⟨log, []⟩ ops).Traced log.rows := by
  apply run_invariant (I := fun s : Lineage => s.Traced log.rows)
  · intro s op hs
    exact hs.step hone op
  · exact ⟨.nil, fun _ h => h, fun _ h _ => h, nofun, nofun, nofun⟩

end Steps

end Lineage

/-- A call contacts the broker exactly when it is not refused. -/
theorem retryTask_silent_iff (env : Env) (w : World) (taskId : Json) :
    (retryTask env w taskId).1 = w ↔ Refused env taskId := by
  have hsent : ∀ e, w.send e ≠ w := by
    intro e heq
    have hlength := congrArg (·.effects.length) heq
    simp at hlength
  unfold Refused retryTask
  split
  · next he => simp [he]
  · next he => simp [he]
  · next id hid =>
    split
    · next hinfo => simp [hid, hinfo]
    · next hinfo => simp [hid, hinfo]
    · next info hinfo =>
      split
      · next hstate =>
        have hstate : retryable info.state = false := by simpa using hstate
        simp [hid, hinfo, hstate]
      · next hstate =>
        split
        · next hname =>
          have hname : strTruthy info.name = false := by simpa using hname
          simp [hid, hinfo, hname]
        · next hname =>
          dsimp only
          refine iff_of_false ?_ fun h => ?_
          · split <;> next hcall =>
              unfold World.call at hcall
              obtain ⟨rfl, -⟩ := Prod.mk.inj hcall
              exact hsent _
          · rcases h id hid info hinfo with h | h
            · exact hstate (by simp [h])
            · exact hname (by simp [h])

theorem Refused.not_success {env : Env} {w : World} {taskId : Json} (h : Refused env taskId)
    (newId : String) : (retryTask env w taskId).2 ≠ .ok (.success newId) := by
  intro hsuccess
  have hsilent := (retryTask_silent_iff env w taskId).mpr h
  obtain ⟨id, info, task, -, -, hsent, -⟩ := retryTask_success
    (show retryTask env w taskId = ((retryTask env w taskId).1, .ok (.success newId)) from
      Prod.ext rfl hsuccess)
  have hlength := congrArg (·.effects.length) (hsilent.symm.trans hsent)
  simp at hlength

/-- Every retry descends from one original and was sent with the root of that; its parents lead to
the original in as many steps as there were retries. A refused call sends nothing. -/
theorem retry_lineage (log : Table TaskEvent) (hone : OneRoot log.rows) (ops : List LineageOp) :
    let s := run Lineage.step ⟨log, []⟩ ops
    (∀ m ∈ s.retries, ∃ t n, s.Descends t (n + 1) m.id ∧ ∃ r ∈ log.rows, r.val.taskId = t) ∧
    (∀ m ∈ s.retries, ∀ t n, s.Descends t n m.id →
      (∀ root, RecordedRoot log.rows t root → m.task.rootId = some root) ∧
      s.ancestor n m.id = some t ∧ ∀ k < n, s.ancestor k m.id ≠ some t) ∧
    ∀ env w taskId, Refused env taskId → (retryTask env w taskId).1 = w ∧
      ∀ newId, (retryTask env w taskId).2 ≠ .ok (.success newId) := by
  intro s
  have hs : s.Traced log.rows := Lineage.traced_run hone ops
  refine ⟨fun m hm => ?_, fun m hm t n hd => ⟨?_, hd.ancestor_eq hs⟩, fun env w taskId h => ?_⟩
  · obtain ⟨t, n, hd, ht, -⟩ := hs.lineage m hm
    exact ⟨t, n, .retry hm hd, ht⟩
  · obtain ⟨t', n', hd', -, hroot⟩ := hs.lineage m hm
    obtain ⟨rfl, -⟩ := hd.unique hs (.retry hm hd')
    exact hroot
  · exact ⟨(retryTask_silent_iff env w taskId).mpr h, h.not_success⟩

def failedCharge : Table TaskEvent :=
  (Table.empty.insert 0 { eventType := .sent, taskId := ⟨26, by decide⟩, timestamp := 1,
                          name := some "billing.charge", rootId := some ⟨23, by decide⟩ }).insert 0
    { eventType := .failed, taskId := ⟨26, by decide⟩, timestamp := 2 }

def retriedTwice : List LineageOp :=
  let retry : Json := .str "00000000-0000-0000-0000-00000000001b"
  let env := Env.idle 9
  [.retry { env with answer := fun _ _ => .ok "00000000-0000-0000-0000-00000000001b" } .byId
      (.str "00000000-0000-0000-0000-00000000001a"),
    .event env.lib 9 [("type", .str "task-sent"), ("uuid", retry), ("timestamp", .int 3),
      ("name", .str "billing.charge"), ("root_id", .str "00000000-0000-0000-0000-000000000017"),
      ("parent_id", .str "00000000-0000-0000-0000-00000000001a")],
    .event env.lib 9 [("type", .str "task-failed"), ("uuid", retry), ("timestamp", .int 4)],
    .retry { env with answer := fun _ _ => .ok "00000000-0000-0000-0000-00000000001c" } .byId
      retry]

/-- The second retry is sent with the root of the charge. -/
theorem retry_lineage_retriedTwice :
    ∃ m ∈ (run Lineage.step ⟨failedCharge, []⟩ retriedTwice).retries,
      m.id = ⟨28, by decide⟩ ∧ m.task.rootId = some ⟨23, by decide⟩ := by
  have hone : OneRoot failedCharge.rows := by unfold OneRoot; decide
  obtain ⟨-, hroots, -⟩ := retry_lineage failedCharge hone retriedTwice
  have hretries : (run Lineage.step ⟨failedCharge, []⟩ retriedTwice).retries.map
      (fun m => (m.id, m.origin)) =
        [(⟨27, by decide⟩, ⟨26, by decide⟩), (⟨28, by decide⟩, ⟨27, by decide⟩)] := by
    decide +kernel
  generalize run Lineage.step ⟨failedCharge, []⟩ retriedTwice = s at hroots hretries
  obtain ⟨m, hm, hids⟩ := List.mem_map.mp (hretries ▸ List.mem_cons_self)
  obtain ⟨m', hm', hids'⟩ := List.mem_map.mp
    (hretries ▸ List.mem_cons_of_mem _ List.mem_cons_self)
  obtain ⟨hid, horigin⟩ := Prod.mk.inj hids
  obtain ⟨hid', horigin'⟩ := Prod.mk.inj hids'
  have hcharge : ∀ a ∈ s.retries, a.id ≠ ⟨26, by decide⟩ := by
    intro a ha
    have hmem := List.mem_map_of_mem (f := fun m : Retry => (m.id, m.origin)) ha
    rw [hretries] at hmem
    simp only [List.mem_cons, Prod.mk.injEq, List.not_mem_nil, or_false] at hmem
    rcases hmem with ⟨heq, -⟩ | ⟨heq, -⟩ <;> rw [heq] <;> decide
  have hd : s.Descends ⟨26, by decide⟩ 2 m'.id := by
    refine .retry hm' ?_
    rw [horigin', ← hid]
    refine .retry hm ?_
    rw [horigin]
    exact .original hcharge
  refine ⟨m', hm', hid', (hroots m' hm' _ _ hd).1 _ (.inl ?_)⟩
  decide

end Taskowl
