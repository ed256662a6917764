import Taskowl.ChainState
import Taskowl.Ingest

/-!
# Retry families

A log of original tasks and of the retries `retry_task` sends: the broker
gives each retry a fresh id, and its messages carry the root and the parent of
`send_task`. A member belongs to the family of its original. All members see
the family when each retry recorded the original as its root, and so did the
original, unless it was never retried.
-/

namespace Taskowl

open Lib Py

/-- A task the broker was sent; a retry has the message of `retry_task`. -/
structure Launch where
  id : Uuid
  /-- The original task of the family. -/
  origin : Uuid
  sent : Option SentTask := none
  deriving DecidableEq, Repr

namespace Launch

def root (m : Launch) : Option Uuid :=
  match m.sent with
  | none => some m.id
  | some task => task.rootId

/-- An original's rows record its own id or no root; the messages of a retry carry what
`send_task` was given. -/
def carries (m : Launch) (r : TaskEvent) : Bool :=
  match m.sent with
  | none => r.rootId.all (· == m.id)
  | some task => decide (r.eventType = .sent ∨ r.eventType = .received →
      r.rootId = task.rootId ∧ r.parentId = task.parentId)

end Launch

structure RetryLog where
  log : Table TaskEvent
  launches : List Launch

inductive RetryOp where
  | original (id : Uuid)
  | retry (env : Env) (scan : Scan) (taskId : Json)
  | event (lib : PyLib) (now : Int) (event : Dict)

namespace RetryLog

def empty : RetryLog := ⟨.empty, []⟩

def launch? (s : RetryLog) (id : Uuid) : Option Launch := s.launches.find? (·.id == id)

def launch (s : RetryLog) (m : Launch) : RetryLog :=
  if (s.launch? m.id).isSome then s else { s with launches := s.launches ++ [m] }

/-- What a call of `retry_task` launches. -/
def retried (s : RetryLog) (env : Env) (scan : Scan) (taskId : Json) : Option Launch :=
  match retryTask { env with taskRows := scan.order s.log.rows } {} taskId with
  | (w, .ok (.success newId)) =>
    match Uuid.ofJson taskId, Uuid.parse newId, w.effects.getLast? with
    | .ok parent, some id, some (.sendTask task) =>
      (s.launch? parent).map fun m => ⟨id, m.origin, some task⟩
    | _, _, _ => none
  | _ => none

/-- Events of unknown tasks, and messages with other ids than were sent, do not occur. -/
def step (s : RetryLog) : RetryOp → RetryLog
  | .original id => s.launch ⟨id, id, none⟩
  | .retry env scan taskId => match s.retried env scan taskId with
    | none => s
    | some m => s.launch m
  | .event lib now event => match eventRow lib now event with
    | some (.task r) =>
      if (s.launch? r.taskId).any (·.carries r) then
        { s with log := insertEvent (·.dedupeKey) s.log now r }
      else s
    | _ => s

/-- The members of a family. -/
def family (s : RetryLog) (origin : Uuid) : List Launch :=
  s.launches.filter (·.origin == origin)

def chainIds (rows : List (Row TaskEvent)) (id : Uuid) : List String :=
  (getTaskChainImpl rows id).chain.map (·.taskId)

/-- Every member of the family gets the same root and the same tasks, and among them each member
once. -/
structure OneFamily (s : RetryLog) (origin : Uuid) : Prop where
  same : ∀ m ∈ s.family origin, ∀ m' ∈ s.family origin, ∀ rows rows' : List (Row TaskEvent),
    rows.Perm s.log.rows → rows'.Perm s.log.rows →
      (getTaskChainImpl rows m.id).rootId = (getTaskChainImpl rows' m'.id).rootId ∧
      ∀ task, task ∈ chainIds rows m.id ↔ task ∈ chainIds rows' m'.id
  each : ∀ m ∈ s.family origin, ∀ m' ∈ s.family origin, ∀ rows : List (Row TaskEvent),
    rows.Perm s.log.rows → (chainIds rows m.id).count m'.id.str = 1

/-- The member has a row, which recorded the original as its root if the family has a retry. -/
def Recorded (s : RetryLog) (m : Launch) : Prop :=
  ∃ r ∈ s.log.rows, r.val.taskId = m.id ∧
    ((∃ b ∈ s.family m.origin, b.sent.isSome) → r.val.rootId = some m.origin)

/-! ## Invariants of the log -/

/-- Ids are unique, every row is of a launch that carries it, the root of a member is a member, and
every family has its original. -/
structure Sound (s : RetryLog) : Prop where
  nodup : (s.launches.map (·.id)).Nodup
  owned : ∀ r ∈ s.log.vals, RootOnMessage r ∧
    ∃ m ∈ s.launches, m.id = r.taskId ∧ m.carries r = true
  originals : ∀ m ∈ s.launches, m.sent = none → m.origin = m.id
  rooted : ∀ m ∈ s.launches, ∃ a ∈ s.launches, m.root = some a.id ∧ a.origin = m.origin
  founded : ∀ m ∈ s.launches, ∃ o ∈ s.launches, o.sent = none ∧ o.id = m.origin

section Steps

variable {s : RetryLog} {m : Launch}

theorem launch?_eq_some {id : Uuid} (h : s.launch? id = some m) : m ∈ s.launches ∧ m.id = id :=
  ⟨List.mem_of_find?_eq_some h, by simpa using List.find?_some h⟩

theorem Sound.inj (hs : s.Sound) {m m' : Launch} (hm : m ∈ s.launches) (hm' : m' ∈ s.launches)
    (h : m.id = m'.id) : m = m' := List.inj_on_of_nodup_map hs.nodup hm hm' h

theorem launch_cases (s : RetryLog) (m : Launch) : s.launch m = s ∨
    (∀ a ∈ s.launches, a.id ≠ m.id) ∧ s.launch m = { s with launches := s.launches ++ [m] } := by
  unfold launch
  split
  · exact .inl rfl
  · next hfresh =>
    refine .inr ⟨fun a ha heq => hfresh ?_, rfl⟩
    rw [launch?, List.find?_isSome]
    exact ⟨a, ha, by simpa using heq⟩

theorem Sound.launch (hs : s.Sound)
    (horiginal : m.sent = none → m.origin = m.id)
    (hrooted : m.root = some m.id ∨ ∃ a ∈ s.launches, m.root = some a.id ∧ a.origin = m.origin)
    (hfounded : m.sent = none ∨ ∃ o ∈ s.launches, o.sent = none ∧ o.id = m.origin) :
    (s.launch m).Sound := by
  rcases launch_cases s m with heq | ⟨hfresh, heq⟩
  · rw [heq]
    exact hs
  rw [heq]
  have hold : ∀ {a}, a ∈ s.launches → a ∈ s.launches ++ [m] := List.mem_append_left _
  have hnew : m ∈ s.launches ++ [m] := List.mem_append_right _ List.mem_cons_self
  have hmem : ∀ a, a ∈ s.launches ++ [m] → a ∈ s.launches ∨ a = m := by simp
  constructor
  · show ((s.launches ++ [m]).map (·.id)).Nodup
    rw [List.map_append, List.nodup_append]
    refine ⟨hs.nodup, List.nodup_singleton _, ?_⟩
    rintro _ ha _ hb rfl
    obtain ⟨a, ha, heq⟩ := List.mem_map.mp ha
    exact hfresh a ha (heq.trans (List.mem_singleton.mp hb))
  · intro r hr
    obtain ⟨hmsg, a, ha, hid, hc⟩ := hs.owned r hr
    exact ⟨hmsg, a, hold ha, hid, hc⟩
  · intro a ha hnone
    rcases hmem a ha with ha | rfl
    · exact hs.originals a ha hnone
    · exact horiginal hnone
  · intro a ha
    rcases hmem a ha with ha | rfl
    · obtain ⟨b, hb, hroot⟩ := hs.rooted a ha
      exact ⟨b, hold hb, hroot⟩
    · rcases hrooted with hself | ⟨b, hb, hroot⟩
      · exact ⟨a, hnew, hself, rfl⟩
      · exact ⟨b, hold hb, hroot⟩
  · intro a ha
    rcases hmem a ha with ha | rfl
    · obtain ⟨o, ho, hf⟩ := hs.founded a ha
      exact ⟨o, hold ho, hf⟩
    · rcases hfounded with hnone | ⟨o, ho, hf⟩
      · exact ⟨a, hnew, hnone, (horiginal hnone).symm⟩
      · exact ⟨o, hold ho, hf⟩

/-- A retry belongs to the family of the task retried; its root is the one recorded for that task,
or that task. -/
theorem retried_spec {env : Env} {scan : Scan} {taskId : Json}
    (h : s.retried env scan taskId = some m) : ∃ p ∈ s.launches, ∃ task,
      Uuid.ofJson taskId = .ok p.id ∧ m.origin = p.origin ∧ m.sent = some task ∧
        task.rootId = some ((((taskEvents (scan.order s.log.rows) p.id).filter
          (·.val.rootId.isSome)).getLast?.bind (·.val.rootId)).getD p.id) := by
  unfold retried at h
  split at h
  · next w newId hretry =>
    obtain ⟨id, info, task, hid, hinfo, rfl, hroot, -⟩ := retryTask_success hretry
    rw [rootId_of_getTaskInfo hinfo] at hroot
    split at h
    · next parent id' task' hparent _ htask =>
      obtain ⟨p, hp, rfl⟩ := Option.map_eq_some_iff.mp h
      obtain ⟨hmem, rfl⟩ := launch?_eq_some hp
      rw [hid] at hparent
      cases hparent
      rw [World.effects_send, List.nil_append] at htask
      cases htask
      exact ⟨p, hmem, task, hid, rfl, rfl, hroot⟩
    · cases h
  · cases h

theorem lastRoot_recorded {rows : List (Row TaskEvent)} {scan : Scan} {id root : Uuid}
    (h : ((taskEvents (scan.order rows) id).filter
      (·.val.rootId.isSome)).getLast?.bind (·.val.rootId) = some root) :
    ∃ r ∈ rows, r.val.taskId = id ∧ r.val.rootId = some root := by
  obtain ⟨r, hr, hroot⟩ := Option.bind_eq_some_iff.mp h
  have hmem := List.mem_of_mem_filter (List.mem_of_getLast? hr)
  obtain ⟨hr, ht⟩ := mem_taskEvents.mp hmem
  exact ⟨r, (scan.perm _).mem_iff.mp hr, ht, hroot⟩

theorem Sound.root_eq (hs : s.Sound) {r : Row TaskEvent} (hr : r ∈ s.log.rows) (hm : m ∈ s.launches)
    (ht : r.val.taskId = m.id) {root : Uuid} (hroot : r.val.rootId = some root) :
    m.root = some root := by
  obtain ⟨hmsg, a, ha, hid, hc⟩ := hs.owned r.val (List.mem_map_of_mem hr)
  obtain rfl := hs.inj ha hm (hid.trans ht)
  unfold Launch.carries at hc
  unfold Launch.root
  split at hc
  · rw [hroot] at hc
    rw [Option.all_some, beq_iff_eq] at hc
    rw [hc]
  · rw [decide_eq_true_eq] at hc
    rw [← (hc (hmsg (by rw [hroot]; rfl)).1).1, hroot]

theorem Sound.step (hs : s.Sound) (op : RetryOp) : (s.step op).Sound := by
  cases op with
  | original id => exact hs.launch (fun _ => rfl) (.inl rfl) (.inl rfl)
  | retry env scan taskId =>
    show (match s.retried env scan taskId with
      | none => s
      | some m => s.launch m).Sound
    split
    · exact hs
    · next m hm =>
      obtain ⟨p, hp, task, -, horigin, hsent, hroot⟩ := retried_spec hm
      have hmroot : m.root = task.rootId := by
        unfold Launch.root
        rw [hsent]
      apply hs.launch
      · rw [hsent]
        nofun
      · right
        cases hlast : ((taskEvents (scan.order s.log.rows) p.id).filter
            (·.val.rootId.isSome)).getLast?.bind (·.val.rootId) with
        | none => exact ⟨p, hp, by rw [hmroot, hroot, hlast]; rfl, horigin.symm⟩
        | some root =>
          obtain ⟨r, hr, ht, hrec⟩ := lastRoot_recorded hlast
          obtain ⟨a, ha, haroot, hao⟩ := hs.rooted p hp
          rw [hs.root_eq hr hp ht hrec] at haroot
          exact ⟨a, ha, by rw [hmroot, hroot, hlast]; exact haroot, hao.trans horigin.symm⟩
      · right
        rw [horigin]
        exact hs.founded p hp
  | event lib now event =>
    show (match eventRow lib now event with
      | some (.task r) => _
      | _ => s : RetryLog).Sound
    split
    · next r hrow =>
      split
      · next hcarries =>
        refine { hs with owned := fun u hu => ?_ }
        rcases Table.mem_vals_insertOnConflict hu with hu | rfl
        · exact hs.owned u hu
        · obtain ⟨m, hm, hc⟩ := (Option.any_eq_true ..).mp hcarries
          obtain ⟨hmem, hid⟩ := launch?_eq_some hm
          obtain ⟨type, row, hh, hr⟩ := eventRow_eq_task.mp hrow
          have hmsg := rootOnMessage_of_handlers (handlers_of_handlerOf hh) hr
          exact ⟨hmsg, m, hmem, hid, hc⟩
      · exact hs
    · exact hs

theorem sound_run (ops : List RetryOp) : (run step .empty ops).Sound := by
  apply run_invariant (I := Sound)
  · intro s op hs
    exact hs.step op
  · constructor <;> simp [empty, Table.vals]

end Steps

/-! ## The chains of a family -/

section Families

variable {s : RetryLog} {rows : List (Row TaskEvent)} {m o : Launch} {origin : Uuid}

theorem mem_family : m ∈ s.family origin ↔ m ∈ s.launches ∧ m.origin = origin := by
  simp [family]

theorem chainIds_eq (hrows : rows.Perm s.log.rows) (id : Uuid) :
    chainIds rows id = (chainTasks rows id).map (·.str) :=
  map_taskId_chain (s.log.nodup_ids hrows) id

theorem mem_chainIds (hrows : rows.Perm s.log.rows) {id task : Uuid} :
    task.str ∈ chainIds rows id ↔ ∃ r ∈ s.log.rows,
      (r.val.rootId = some (resolveRoot rows id) ∨ r.val.taskId = id) ∧ r.val.taskId = task := by
  rw [chainIds_eq hrows, List.mem_map_of_injective fun _ _ => Uuid.str_inj, mem_chainTasks]
  simp only [mem_chainFamily, hrows.mem_iff, and_assoc]

theorem nodup_chainIds (hrows : rows.Perm s.log.rows) (id : Uuid) : (chainIds rows id).Nodup := by
  rw [chainIds_eq hrows]
  exact (nodup_chainTasks (s.log.nodup_ids hrows) id).map fun _ _ => Uuid.str_inj

theorem resolveRoot_of_recorded (hs : s.Sound) (hrows : rows.Perm s.log.rows)
    (hm : m ∈ s.launches) {r : Row TaskEvent} (hr : r ∈ s.log.rows) (ht : r.val.taskId = m.id)
    {root : Uuid} (hroot : r.val.rootId = some root) : resolveRoot rows m.id = root := by
  have hresolved := rootOf_resolveRoot hrows m.id
  generalize resolveRoot rows m.id = x at hresolved ⊢
  cases hresolved with
  | recorded latest root_eq =>
    have hlast := hs.root_eq latest.mem hm latest.selected.1 root_eq
    rw [hs.root_eq hr hm ht hroot] at hlast
    exact (Option.some.inj hlast).symm
  | self none =>
    rw [none r hr ht] at hroot
    cases hroot

theorem resolveRoot_original (hs : s.Sound) (hrows : rows.Perm s.log.rows) (ho : o ∈ s.launches)
    (hsent : o.sent = none) : resolveRoot rows o.id = o.id := by
  have hresolved := rootOf_resolveRoot hrows o.id
  generalize resolveRoot rows o.id = x at hresolved ⊢
  cases hresolved with
  | recorded latest root_eq =>
    have hlast := hs.root_eq latest.mem ho latest.selected.1 root_eq
    unfold Launch.root at hlast
    rw [hsent] at hlast
    exact (Option.some.inj hlast).symm
  | self => rfl

theorem origin_of_root (hs : s.Sound) (ho : o ∈ s.launches) (hsent : o.sent = none)
    (hm : m ∈ s.launches) (hroot : m.root = some o.id) : m.origin = o.id := by
  obtain ⟨a, ha, haroot, hao⟩ := hs.rooted m hm
  rw [hroot] at haroot
  obtain rfl := hs.inj ho ha (Option.some.inj haroot)
  rw [← hao, hs.originals o ho hsent]

/-- A recorded member resolves the original. -/
theorem resolveRoot_member (hs : s.Sound) (hrows : rows.Perm s.log.rows)
    (hm : m ∈ s.family origin) (hrec : s.Recorded m) : resolveRoot rows m.id = origin := by
  obtain ⟨hmem, rfl⟩ := mem_family.mp hm
  obtain ⟨r, hr, ht, hroot⟩ := hrec
  cases hsent : m.sent with
  | none => rw [resolveRoot_original hs hrows hmem hsent, hs.originals m hmem hsent]
  | some task =>
    exact resolveRoot_of_recorded hs hrows hmem hr ht (hroot ⟨m, hm, by rw [hsent]; rfl⟩)

/-- The chain of a recorded family has its members, each once. -/
theorem chainIds_perm (hs : s.Sound) (hrec : ∀ m ∈ s.family origin, s.Recorded m)
    (hrows : rows.Perm s.log.rows) (hm : m ∈ s.family origin) :
    (chainIds rows m.id).Perm ((s.family origin).map (·.id.str)) := by
  have hmem := mem_family.mp hm
  have hroot := resolveRoot_member hs hrows hm (hrec m hm)
  have hids : ((s.family origin).map (·.id)).Nodup := (List.filter_sublist.map _).nodup hs.nodup
  have hnodup : ((s.family origin).map (·.id.str)).Nodup := by
    have hmap : (s.family origin).map (·.id.str) = ((s.family origin).map (·.id)).map (·.str) := by
      rw [List.map_map]
      rfl
    rw [hmap]
    exact hids.map fun _ _ => Uuid.str_inj
  rw [List.perm_ext_iff_of_nodup (nodup_chainIds hrows _) hnodup]
  intro x
  rw [List.mem_map]
  constructor
  · intro hx
    rw [chainIds_eq hrows] at hx
    obtain ⟨task, htask, rfl⟩ := List.mem_map.mp hx
    obtain ⟨r, hr, hfam, rfl⟩ := (mem_chainIds hrows).mp
      (by rw [chainIds_eq hrows]; exact List.mem_map_of_mem htask)
    obtain ⟨-, a, ha, hid, -⟩ := hs.owned r.val (List.mem_map_of_mem hr)
    rcases hfam with hfam | hfam
    · obtain ⟨o, ho, hsent, hoid⟩ := hs.founded m hmem.1
      rw [hroot, ← hmem.2, ← hoid] at hfam
      have haorigin := origin_of_root hs ho hsent ha (hs.root_eq hr ha hid.symm hfam)
      exact ⟨a, mem_family.mpr ⟨ha, by rw [haorigin, hoid, hmem.2]⟩, by rw [hid]⟩
    · exact ⟨m, hm, by rw [hfam]⟩
  · rintro ⟨a, ha, rfl⟩
    rw [mem_chainIds hrows, hroot]
    obtain ⟨r, hr, ht, hrec'⟩ := hrec a ha
    refine ⟨r, hr, ?_, ht⟩
    by_cases hretry : ∃ b ∈ s.family origin, b.sent.isSome
    · left
      rw [hrec' ((mem_family.mp ha).2 ▸ hretry), (mem_family.mp ha).2]
    · right
      have horiginal : ∀ b ∈ s.family origin, b.id = origin := by
        intro b hb
        have hsent : b.sent = none := by
          by_contra hsome
          exact hretry ⟨b, hb, Option.isSome_iff_ne_none.mpr hsome⟩
        obtain ⟨hbm, hbo⟩ := mem_family.mp hb
        rw [← hs.originals b hbm hsent, hbo]
      rw [ht, horiginal a ha, horiginal m hm]

theorem recorded_of_mem_chainIds (hs : s.Sound) (hrows : rows.Perm s.log.rows)
    (ho : o ∈ s.launches) (hsent : o.sent = none) (hm : m ∈ s.launches) (hretry : m.sent.isSome)
    (hin : m.id.str ∈ chainIds rows o.id) :
    ∃ r ∈ s.log.rows, r.val.taskId = m.id ∧ r.val.rootId = some o.id := by
  obtain ⟨r, hr, hfam, ht⟩ := (mem_chainIds hrows).mp hin
  rw [resolveRoot_original hs hrows ho hsent] at hfam
  rcases hfam with hfam | hfam
  · exact ⟨r, hr, ht, hfam⟩
  · obtain rfl := hs.inj ho hm (hfam.symm.trans ht)
    rw [hsent] at hretry
    cases hretry

theorem Sound.recorded_of_oneFamily (hs : s.Sound) (h : s.OneFamily origin) :
    ∀ m ∈ s.family origin, s.Recorded m := by
  intro m hm
  have hin : ∀ a ∈ s.family origin, ∀ b ∈ s.family origin,
      b.id.str ∈ chainIds s.log.rows a.id := by
    intro a ha b hb
    rw [← List.count_pos_iff, h.each a ha b hb _ (.refl _)]
    exact Nat.one_pos
  obtain ⟨hmem, rfl⟩ := mem_family.mp hm
  obtain ⟨o, ho, hsent, hoid⟩ := hs.founded m hmem
  have hofam : o ∈ s.family m.origin := mem_family.mpr ⟨ho, by rw [hs.originals o ho hsent, hoid]⟩
  have hretries : ∀ b ∈ s.family m.origin, b.sent.isSome →
      ∃ r ∈ s.log.rows, r.val.taskId = b.id ∧ r.val.rootId = some m.origin := by
    intro b hb hretry
    rw [← hoid]
    exact recorded_of_mem_chainIds hs (.refl _) ho hsent (mem_family.mp hb).1 hretry
      (hin o hofam b hb)
  cases hmsent : m.sent with
  | some task =>
    obtain ⟨r, hr, ht, hroot⟩ := hretries m hm (by rw [hmsent]; rfl)
    exact ⟨r, hr, ht, fun _ => hroot⟩
  | none =>
    by_cases hretry : ∃ b ∈ s.family m.origin, b.sent.isSome
    · -- the chain of the retry contains the original
      obtain ⟨b, hb, hbsent⟩ := hretry
      obtain ⟨r, hr, ht, hroot⟩ := hretries b hb hbsent
      obtain ⟨u, hu, hfam, hut⟩ := (mem_chainIds (.refl _)).mp (hin b hb m hm)
      rw [resolveRoot_of_recorded hs (.refl _) (mem_family.mp hb).1 hr ht hroot] at hfam
      rcases hfam with hfam | hfam
      · exact ⟨u, hu, hut, fun _ => hfam⟩
      · obtain rfl := hs.inj (mem_family.mp hb).1 hmem (hfam.symm.trans hut)
        rw [hmsent] at hbsent
        cases hbsent
    · obtain ⟨r, hr, -, ht⟩ := (mem_chainIds (.refl _)).mp (hin m hm m hm)
      exact ⟨r, hr, ht, fun hb => absurd hb hretry⟩

theorem Sound.oneFamily_of_recorded (hs : s.Sound) (hrec : ∀ m ∈ s.family origin, s.Recorded m) :
    s.OneFamily origin := by
  constructor
  · intro m hm m' hm' rows rows' hrows hrows'
    refine ⟨?_, fun task => ?_⟩
    · show (resolveRoot rows m.id).str = (resolveRoot rows' m'.id).str
      rw [resolveRoot_member hs hrows hm (hrec m hm),
        resolveRoot_member hs hrows' hm' (hrec m' hm')]
    · rw [(chainIds_perm hs hrec hrows hm).mem_iff, (chainIds_perm hs hrec hrows' hm').mem_iff]
  · intro m hm m' hm' rows hrows
    apply List.count_eq_one_of_mem (nodup_chainIds hrows _)
    rw [(chainIds_perm hs hrec hrows hm).mem_iff]
    exact List.mem_map_of_mem hm'

end Families

/-- All members of a family get one chain, with each member once, exactly when each of them has a
row, which recorded the original as its root if the family has a retry. -/
theorem oneFamily_iff (ops : List RetryOp) (origin : Uuid) :
    (run step .empty ops).OneFamily origin ↔
      ∀ m ∈ (run step .empty ops).family origin, (run step .empty ops).Recorded m :=
  ⟨(sound_run ops).recorded_of_oneFamily, (sound_run ops).oneFamily_of_recorded⟩

def rootlessRetry : List RetryOp :=
  let charge : Json := .str "00000000-0000-0000-0000-00000000000a"
  let retry : Json := .str "00000000-0000-0000-0000-00000000000b"
  let env := Env.idle 9
  [.original ⟨10, by decide⟩,
    .event env.lib 9 [("type", .str "task-sent"), ("uuid", charge), ("timestamp", .int 1),
      ("name", .str "billing.charge")],
    .event env.lib 9 [("type", .str "task-failed"), ("uuid", charge), ("timestamp", .int 2)],
    .retry { env with answer := fun _ _ => .ok "00000000-0000-0000-0000-00000000000b" } .byId
      charge,
    .event env.lib 9 [("type", .str "task-sent"), ("uuid", retry), ("timestamp", .int 3),
      ("name", .str "billing.charge"), ("root_id", charge), ("parent_id", charge)]]

/-- The chain of the retry lacks the charge. -/
theorem rootlessRetry_splits : ¬ (run step .empty rootlessRetry).OneFamily ⟨10, by decide⟩ := by
  have hcharge : ∃ m ∈ (run step .empty rootlessRetry).family ⟨10, by decide⟩,
      ∃ m' ∈ (run step .empty rootlessRetry).family ⟨10, by decide⟩,
        (chainIds (run step .empty rootlessRetry).log.rows m'.id).count m.id.str ≠ 1 := by
    decide +kernel
  intro h
  obtain ⟨m, hm, m', hm', hne⟩ := hcharge
  exact hne (h.each m' hm' m hm _ (.refl _))

/-! ## Logs with the messages of every retry -/

section Logged

variable {s : RetryLog} {m : Launch}

def HasMessage (s : RetryLog) (m : Launch) : Prop :=
  ∃ r ∈ s.log.rows, r.val.taskId = m.id ∧
    (r.val.eventType = .sent ∨ r.val.eventType = .received)

/-- A retry that is retried has a message in the log. -/
def RetryLogged (s : RetryLog) : RetryOp → Prop
  | .retry _ _ taskId => ∀ p ∈ s.launches, Uuid.ofJson taskId = .ok p.id → p.sent.isSome →
      s.HasMessage p
  | _ => True

theorem Sound.root_of_hasMessage (hs : s.Sound) (hm : m ∈ s.launches) (hretry : m.sent.isSome)
    (hmsg : s.HasMessage m) :
    ∃ r ∈ s.log.rows, r.val.taskId = m.id ∧ r.val.rootId = m.root := by
  obtain ⟨r, hr, ht, hkind⟩ := hmsg
  obtain ⟨-, a, ha, hid, hc⟩ := hs.owned r.val (List.mem_map_of_mem hr)
  obtain rfl := hs.inj ha hm (hid.trans ht)
  refine ⟨r, hr, ht, ?_⟩
  obtain ⟨task, hsent⟩ := Option.isSome_iff_exists.mp hretry
  unfold Launch.carries at hc
  unfold Launch.root
  rw [hsent] at hc ⊢
  exact (of_decide_eq_true hc hkind).1

theorem Sound.root_retried (hs : s.Sound)
    (hroots : ∀ a ∈ s.launches, a.sent.isSome → a.root = some a.origin) {env : Env} {scan : Scan}
    {taskId : Json} (hlogged : s.RetryLogged (.retry env scan taskId))
    (h : s.retried env scan taskId = some m) : m.root = some m.origin := by
  obtain ⟨p, hp, task, hid, horigin, hsent, hroot⟩ := retried_spec h
  have hproot : p.root = some p.origin := by
    cases hpsent : p.sent with
    | none =>
      rw [hs.originals p hp hpsent]
      unfold Launch.root
      rw [hpsent]
    | some _ => exact hroots p hp (by rw [hpsent]; rfl)
  have hmroot : m.root = task.rootId := by
    unfold Launch.root
    rw [hsent]
  rw [hmroot, hroot, horigin]
  cases hlast : ((taskEvents (scan.order s.log.rows) p.id).filter
      (·.val.rootId.isSome)).getLast?.bind (·.val.rootId) with
  | some root =>
    obtain ⟨r, hr, ht, hrec⟩ := lastRoot_recorded hlast
    rw [← hproot, hs.root_eq hr hp ht hrec]
    rfl
  | none =>
    cases hpsent : p.sent with
    | none => rw [hs.originals p hp hpsent]; rfl
    | some _ =>
      have hretry : p.sent.isSome := by rw [hpsent]; rfl
      obtain ⟨r, hr, ht, hrec⟩ := hs.root_of_hasMessage hp hretry (hlogged p hp hid hretry)
      rw [hproot] at hrec
      have hne : (taskEvents (scan.order s.log.rows) p.id).filter (·.val.rootId.isSome) ≠ [] := by
        apply List.ne_nil_of_mem (a := r)
        rw [List.mem_filter, mem_taskEvents]
        exact ⟨⟨(scan.perm _).mem_iff.mpr hr, ht⟩, by rw [hrec]; rfl⟩
      obtain ⟨u, hu⟩ := Option.isSome_iff_exists.mp (List.getLast?_isSome.mpr hne)
      have hsome := (List.mem_filter.mp (List.mem_of_getLast? hu)).2
      rw [hu, Option.bind_some] at hlast
      rw [hlast] at hsome
      cases hsome

theorem root_of_logged (ops : List RetryOp) (h : Along step RetryLogged .empty ops) :
    ∀ m ∈ (run step .empty ops).launches, m.sent.isSome → m.root = some m.origin := by
  have hinv := h.invariant (I := fun s => s.Sound ∧
    ∀ m ∈ s.launches, m.sent.isSome → m.root = some m.origin) ?_ ⟨sound_run [], nofun⟩
  · exact hinv.2
  · rintro s op hlogged ⟨hs, hroots⟩
    refine ⟨hs.step op, ?_⟩
    have hlaunch : ∀ m : Launch, (m.sent.isSome → m.root = some m.origin) →
        ∀ a ∈ (s.launch m).launches, a.sent.isSome → a.root = some a.origin := by
      intro m hm a ha
      rcases launch_cases s m with heq | ⟨-, heq⟩
      · rw [heq] at ha
        exact hroots a ha
      · rw [heq] at ha
        rcases List.mem_append.mp ha with ha | ha
        · exact hroots a ha
        · rw [List.mem_singleton.mp ha]
          exact hm
    cases op with
    | original id => exact hlaunch ⟨id, id, none⟩ nofun
    | retry env scan taskId =>
      show ∀ m ∈ (match s.retried env scan taskId with
        | none => s
        | some m => s.launch m : RetryLog).launches, _
      split
      · exact hroots
      · next m hm => exact hlaunch m fun _ => hs.root_retried hroots hlogged hm
    | event lib now event =>
      show ∀ m ∈ (match eventRow lib now event with
        | some (.task r) => _
        | _ => s : RetryLog).launches, _
      split
      · split <;> exact hroots
      · exact hroots

/-- When each retry has a message in the log, and had one before it was retried, only an original
can fail to record its root. -/
theorem recorded_of_logged (ops : List RetryOp) (h : Along step RetryLogged .empty ops) {m : Launch}
    (hm : m ∈ (run step .empty ops).launches) (hretry : m.sent.isSome)
    (hmsg : (run step .empty ops).HasMessage m) : (run step .empty ops).Recorded m := by
  obtain ⟨r, hr, ht, hroot⟩ := (sound_run ops).root_of_hasMessage hm hretry hmsg
  rw [root_of_logged ops h m hm hretry] at hroot
  exact ⟨r, hr, ht, fun _ => hroot⟩

end Logged

end RetryLog

end Taskowl
