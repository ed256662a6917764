import Taskowl.ChainState

/-!
# The parent a chain shows

A node takes its parent from the row it shows, and only a `sent` or `received`
row records one: a task that has gone on since loses its link when the row
shown is the newest of all its events, as it is for the task queried.
-/

namespace Taskowl

open Lib Py

/-- Whatever orders the two queries scan the table in, each node of the chain has the parent that
`get_task` reports, and lacks one only when no event of the task records one. -/
def ParentsKept (t : Table TaskEvent) (id : Uuid) : Prop :=
  ∀ rows env, rows.Perm t.rows → env.taskRows.Perm t.rows →
    ∀ node ∈ (getTaskChainImpl rows id).chain,
      (∀ a, getTask env node.taskId = .ok a → ∃ s, a = .ok s ∧ node.parentId = s.parentId) ∧
      (node.parentId = none → ∀ r ∈ t.rows, r.val.taskId.str = node.taskId → r.val.parentId = none)

def Parentless (rows : List (Row TaskEvent)) (r : Row TaskEvent) : Prop :=
  ∀ s ∈ rows, s.val.taskId = r.val.taskId → s.val.parentId = none

/-- The row is a message that records the parent last recorded for its task. -/
structure Links (rows : List (Row TaskEvent)) (r : Row TaskEvent) : Prop where
  message : r.val.eventType = .sent ∨ r.val.eventType = .received
  recorded : r.val.parentId.isSome
  last : ∀ s, LatestOf rows (fun e => e.taskId = r.val.taskId ∧ e.parentId.isSome) s →
    s.val.parentId = r.val.parentId

section Parents

variable {t : Table TaskEvent} {id : Uuid} {r : Row TaskEvent}

def ShowsParent (rows : List (Row TaskEvent)) (r : Row TaskEvent) : Prop :=
  ∀ s, LatestOf rows (fun e => e.taskId = r.val.taskId ∧ e.parentId.isSome) s →
    r.val.parentId = s.val.parentId

theorem ShowsParent.parentless {rows : List (Row TaskEvent)} (h : ShowsParent rows r)
    (hnone : r.val.parentId = none) : Parentless rows r := by
  intro s hs ht
  by_contra hsome
  obtain ⟨u, hu⟩ := exists_latestOf (p := fun e => decide (e.taskId = r.val.taskId) &&
    e.parentId.isSome) hs (by simp [ht, Option.isSome_iff_ne_none, hsome])
  simp only [Bool.and_eq_true, decide_eq_true_eq] at hu
  have hselected := hu.selected.2
  rw [← h u hu, hnone] at hselected
  cases hselected

/-- The nodes keep their parents exactly when the rows they show have them. -/
theorem parentsKept_iff (t : Table TaskEvent) (id : Uuid) :
    ParentsKept t id ↔ ∀ root, RootOf t.rows id root →
      ∀ r, ShownIn t.rows root id r → ShowsParent t.rows r := by
  constructor
  · intro h root hroot r hr s hs
    obtain ⟨rows, hrows, rfl⟩ := exists_resolveRoot hroot
    have hnode : chainNode r ∈ (getTaskChainImpl rows id).chain :=
      (mem_chain (t.nodup_ids hrows)).mpr ⟨r, (mem_latestRows_chainFamily hrows).mpr hr, rfl⟩
    obtain ⟨scan, hscan, hlast⟩ := exists_getLast? (p := fun e => e.parentId.isSome) hs
    obtain ⟨a, ha⟩ := getTask_idle scan r.val.taskId
    have hne := taskEvents_ne_nil (hscan.mem_iff.mpr hr.mem)
    obtain ⟨state, last, rfl, hreports⟩ := getTask_str hne ha
    obtain ⟨state', heq, hparent⟩ := (h rows { Env.idle 0 with taskRows := scan } hrows hscan _
      hnode).1 _ ha
    cases heq
    have hsame : r.val.parentId.map (·.str) = s.val.parentId.map (·.str) := by
      refine hparent.trans ?_
      rw [hreports.parent, hlast, Option.bind_some]
    exact Option.map_injective (fun _ _ => Uuid.str_inj) hsame
  · intro h rows env hrows henv node hnode
    obtain ⟨r, hr, rfl⟩ := (mem_chain (t.nodup_ids hrows)).mp hnode
    rw [mem_latestRows_chainFamily hrows] at hr
    have hparent := h _ (rootOf_resolveRoot hrows id) r hr
    refine ⟨fun a ha => ?_, fun hnone s hs ht => ?_⟩
    · obtain ⟨s, last, rfl, hreports⟩ :=
        getTask_str (taskEvents_ne_nil (henv.mem_iff.mpr hr.mem)) ha
      have hread : r.val.parentId = ((taskEvents env.taskRows r.val.taskId).filter
          (·.val.parentId.isSome)).getLast?.bind (·.val.parentId) := by
        cases hlast : ((taskEvents env.taskRows r.val.taskId).filter
            (·.val.parentId.isSome)).getLast? with
        | none =>
          rw [List.getLast?_eq_none_iff, List.filter_eq_nil_iff] at hlast
          simpa using hlast r (mem_taskEvents.mpr ⟨henv.mem_iff.mpr hr.mem, rfl⟩)
        | some s =>
          exact hparent s (latestOf_getLast? (p := fun e => e.parentId.isSome) henv hlast)
      exact ⟨s, rfl, (congrArg (Option.map Uuid.str) hread).trans hreports.parent.symm⟩
    · exact hparent.parentless (Option.map_eq_none_iff.mp hnone) s hs (Uuid.str_inj ht)

/-! ## Logs of the handlers -/

def ParentOnMessage (r : TaskEvent) : Prop :=
  r.parentId.isSome → r.eventType = .sent ∨ r.eventType = .received

theorem parentOnMessage_of_handlers {type : String} {row} {lib : PyLib} {now : Int} {event : Dict}
    {r : TaskEvent} (h : handlers type = some (.task row)) (hr : row lib now event = .ok r) :
    ParentOnMessage r := by
  intro hs
  rcases message_or_bare h hr with ⟨hmessage, -⟩ | ⟨-, -, hparent⟩
  · exact hmessage
  · rw [hparent] at hs
    cases hs

/-- Where only messages record parents, the row shown has its task's parent when it is such a
message, or there is none. -/
theorem showsParent_iff {rows : List (Row TaskEvent)} (hlog : ParentOnMessage r.val) :
    ShowsParent rows r ↔ Parentless rows r ∨ Links rows r := by
  constructor
  · intro h
    cases hparent : r.val.parentId with
    | none => exact .inl (h.parentless hparent)
    | some parent =>
      have hrecorded : r.val.parentId.isSome := by rw [hparent]; rfl
      exact .inr ⟨hlog hrecorded, hrecorded, fun s hs => (h s hs).symm⟩
  · rintro (h | h) s hs
    · have hselected := hs.selected.2
      rw [h s hs.mem hs.selected.1] at hselected
      cases hselected
    · exact (h.last s hs).symm

end Parents

/-- On a log of the handlers, the nodes of a chain keep their parent links exactly when each shows
a message that records the parent last recorded, or no event of its task records one. -/
theorem chain_parents (ops : List SystemOp) (id : Uuid) :
    ParentsKept (run System.step .empty ops).db.taskEvents id ↔
      ∀ root, RootOf (run System.step .empty ops).db.taskEvents.rows id root →
        ∀ r, ShownIn (run System.step .empty ops).db.taskEvents.rows root id r →
          Parentless (run System.step .empty ops).db.taskEvents.rows r ∨
            Links (run System.step .empty ops).db.taskEvents.rows r := by
  rw [parentsKept_iff]
  refine forall₂_congr fun root _ => forall₂_congr fun r hr => ?_
  exact showsParent_iff (forall_run_of_handlers parentOnMessage_of_handlers ops r hr.mem)

/-- The retry of a charge was sent with a parent and has succeeded: its own chain shows none. -/
theorem chain_loses_parent :
    ¬ ParentsKept (run System.step .empty retriedCharge).db.taskEvents ⟨11, by decide⟩ := by
  intro h
  have hlost : ∃ node ∈ (getTaskChainImpl (run System.step .empty retriedCharge).db.taskEvents.rows
      ⟨11, by decide⟩).chain, node.parentId = none ∧
        ∃ r ∈ (run System.step .empty retriedCharge).db.taskEvents.rows,
          r.val.taskId.str = node.taskId ∧ r.val.parentId ≠ none := by decide +kernel
  generalize (run System.step .empty retriedCharge).db.taskEvents = t at h hlost
  obtain ⟨node, hnode, hnone, r, hr, ht, hparent⟩ := hlost
  exact hparent ((h t.rows { Env.idle 0 with taskRows := t.rows } (.refl _) (.refl _) node
    hnode).2 hnone r hr ht)

end Taskowl
