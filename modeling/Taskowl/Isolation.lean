import Taskowl.Outcome

/-!
# Isolation of event automations

What `evaluate_event` owes each matching automation: one committed run, the
verdicts it would get alone, and a record of every dispatch. The single commit
at the end of the loop delivers all of it when every matching automation
evaluates without an exception, and none of it when one does not.
-/

namespace Taskowl

open Lib Py

/-- The conditions, the breaker and the limits evaluate, and the actions they let through are
dicts. -/
def Evaluable (env : Env) (event : Dict) (a : Row Automation) (runs : Runs) : Prop :=
  ∃ d, decision env event a runs = .ok d ∧ (d = .fire → actionsWellFormed a.val = true)

def Pass.added (p : Pass) (t : Table AutomationRun) : Runs := p.runs.rows.drop t.rows.length

/-- Whose run it is, whether the conditions passed and whether the actions were dispatched. -/
def verdicts (runs : Runs) : List (Nat × Bool × Bool) :=
  runs.map fun r => (r.val.automationId, r.val.conditionsPassed, r.val.fired)

/-- Every matching automation is evaluated, and as if it were alone. -/
structure Isolated (env : Env) (eventType : String) (event : Dict) (scan : List (Row Automation))
    (t : Table AutomationRun) (w : World) : Prop where
  /-- One committed run for each, and nothing else. -/
  complete : ∃ new, (evaluateEvent env eventType event scan t w).runs.rows = t.rows ++ new ∧
    new.map (·.val.automationId) = (scan.filter (matchesEvent eventType)).map (·.id)
  /-- The verdicts and the dispatch are those of a pass without the others. -/
  independent : ∀ a ∈ scan, matchesEvent eventType a = true →
    (verdicts ((evaluateEvent env eventType event scan t w).added t)).filter (·.1 == a.id) =
        verdicts ((evaluateEvent env eventType event [a] t w).added t) ∧
      (evaluateEvent env eventType event scan t w).dispatched.filter (· == a.id) =
        (evaluateEvent env eventType event [a] t w).dispatched
  /-- A dispatch has its record. -/
  audited : ∀ id ∈ (evaluateEvent env eventType event scan t w).dispatched,
    ∃ r ∈ (evaluateEvent env eventType event scan t w).added t,
      r.val.automationId = id ∧ r.val.fired = true

section

variable {env : Env} {eventType : String} {event : Dict} {scan : List (Row Automation)}
  {t : Table AutomationRun} {w : World}

theorem evaluable_iff {a : Row Automation} {runs : Runs} :
    Evaluable env event a runs ↔ (outcome env event a runs).isRaise = false := by
  unfold Evaluable outcome
  cases decision env event a runs with
  | error e => exact ⟨fun ⟨d, hd, _⟩ => (nomatch hd), nofun⟩
  | ok d =>
    cases d with
    | conditionsFailed => exact ⟨fun _ => rfl, fun _ => ⟨_, rfl, nofun⟩⟩
    | skipped reason => exact ⟨fun _ => rfl, fun _ => ⟨_, rfl, nofun⟩⟩
    | fire =>
      cases hw : actionsWellFormed a.val with
      | true => exact ⟨fun _ => rfl, fun _ => ⟨_, rfl, fun _ => rfl⟩⟩
      | false =>
        refine ⟨fun ⟨d, hd, hfire⟩ => ?_, nofun⟩
        cases hd
        cases hfire rfl

theorem outcome_isRecord {a : Row Automation} {runs : Runs}
    (h : (outcome env event a runs).isRaise = false) :
    (outcome env event a runs).isRecord = true := by
  unfold outcome at h ⊢
  split at h
  · cases h
  · rfl
  · rfl
  · split at h
    · next hw => rw [if_pos hw]; rfl
    · cases h

def Outcome.passed : Outcome → Bool
  | .records _ p => p
  | _ => false

def verdictOf (env : Env) (event : Dict) (runs : Runs) (a : Row Automation) : Nat × Bool × Bool :=
  (a.id, (outcome env event a runs).passed, (outcome env event a runs).dispatches)

/-- A pass over evaluable automations, in closed form. -/
theorem evaluateEvent_quiet (scan : List (Row Automation)) (w : World)
    (hids : (scan.map (·.id)).Nodup)
    (hquiet : ∀ a ∈ scan, matchesEvent eventType a = true → Evaluable env event a t.rows) :
    ∃ new, (evaluateEvent env eventType event scan t w).runs.rows = t.rows ++ new ∧
      verdicts new =
        (scan.filter (matchesEvent eventType)).map (verdictOf env event t.rows) ∧
      (evaluateEvent env eventType event scan t w).dispatched =
        ((scan.filter (matchesEvent eventType)).filter
          fun a => (outcome env event a t.rows).dispatches).map (·.id) := by
  have hq : ∀ a ∈ scan.filter (matchesEvent eventType),
      (outcome env event a t.rows).isRaise = false := fun a ha =>
    evaluable_iff.mp (hquiet a (List.mem_of_mem_filter ha) (List.of_mem_filter ha))
  obtain ⟨hnone, hdisp, new, hnew, hall⟩ := forEach_quiet (s := ⟨w, t, []⟩)
    (performs_evaluateAutomation eventType event)
    (fun a => outcome env event a t.rows) (fun _ _ => rfl)
    ((List.filter_sublist.map _).nodup hids) hq
  rw [List.filter_eq_self.mpr fun a ha => outcome_isRecord (hq a ha)] at hall
  unfold evaluateEvent
  rw [Pass.runs_finish, hnone, Pass.dispatched_finish, hdisp, List.nil_append]
  refine ⟨new, hnew, ?_, rfl⟩
  clear hnew
  generalize scan.filter (matchesEvent eventType) = as at hall
  induction hall with
  | nil => rfl
  | @cons a r as new hadd _ ih =>
    obtain ⟨-, d, p, ho, hrun⟩ := hadd
    have hverdict : verdictOf env event t.rows a = (a.id, p, d) := by
      unfold verdictOf
      rw [ho]
      rfl
    show (r.val.automationId, r.val.conditionsPassed, r.val.fired) :: verdicts new =
      verdictOf env event t.rows a :: as.map (verdictOf env event t.rows)
    rw [ih, hverdict, hrun.automationId, hrun.conditionsPassed, hrun.fired]

/-- A pass in which some matching automation is not evaluable commits nothing. -/
theorem evaluateEvent_raised (hids : (scan.map (·.id)).Nodup) {a : Row Automation} (ha : a ∈ scan)
    (hm : matchesEvent eventType a = true) (hraise : ¬ Evaluable env event a t.rows) :
    (evaluateEvent env eventType event scan t w).runs = t := by
  rw [evaluable_iff, Bool.not_eq_false] at hraise
  obtain ⟨hsome, -⟩ := forEach_raised (s := ⟨w, t, []⟩)
    (performs_evaluateAutomation eventType event)
    (fun a => outcome env event a t.rows) (fun _ _ => rfl)
    ((List.filter_sublist.map _).nodup hids) ⟨a, List.mem_filter.mpr ⟨ha, hm⟩, hraise⟩
  unfold evaluateEvent
  rw [Pass.runs_finish, if_pos hsome]

theorem added_of_eq {p : Pass} {new : Runs} (h : p.runs.rows = t.rows ++ new) :
    p.added t = new := by
  unfold Pass.added
  rw [h, List.drop_left]

theorem isolated_of_evaluable (hids : (scan.map (·.id)).Nodup)
    (hquiet : ∀ a ∈ scan, matchesEvent eventType a = true → Evaluable env event a t.rows) :
    Isolated env eventType event scan t w := by
  obtain ⟨new, hnew, hverdicts, hdisp⟩ := evaluateEvent_quiet scan w hids hquiet
  refine ⟨⟨new, hnew, ?_⟩, fun a ha hm => ?_, fun id hid => ?_⟩
  · have := congrArg (List.map Prod.fst) hverdicts
    simpa [verdicts, verdictOf, Function.comp_def] using this
  · have hone : [a].filter (matchesEvent eventType) = [a] := by simp [hm]
    have hthis : (scan.filter (matchesEvent eventType)).filter (·.id == a.id) = [a] :=
      Table.filter_id_eq ((List.filter_sublist.map _).nodup hids) (List.mem_filter.mpr ⟨ha, hm⟩)
    obtain ⟨new', hnew', hverdicts', hdisp'⟩ := evaluateEvent_quiet [a] w
      (List.nodup_singleton _) fun b hb _ => by
        rw [List.mem_singleton] at hb
        subst hb
        exact hquiet b ha hm
    rw [hone] at hverdicts' hdisp'
    rw [added_of_eq hnew, added_of_eq hnew', hverdicts, hverdicts', hdisp, hdisp']
    constructor
    · rw [List.filter_map, ← hthis]
      rfl
    · rw [List.filter_map, List.filter_comm, ← hthis]
      rfl
  · rw [hdisp] at hid
    obtain ⟨a, ha, rfl⟩ := List.mem_map.mp hid
    obtain ⟨ha, hd⟩ := List.mem_filter.mp ha
    have hmem : verdictOf env event t.rows a ∈ verdicts new := by
      rw [hverdicts]
      exact List.mem_map_of_mem ha
    obtain ⟨r, hr, hv⟩ := List.mem_map.mp hmem
    rw [added_of_eq hnew]
    refine ⟨r, hr, congrArg Prod.fst hv, ?_⟩
    rw [← hd]
    exact congrArg (·.2.2) hv

/-- Event evaluation is isolated exactly when every matching automation is evaluable. -/
theorem isolated_iff (automations : Table Automation) (hscan : scan.Perm automations.rows) :
    Isolated env eventType event scan t w ↔
      ∀ a ∈ scan, matchesEvent eventType a = true → Evaluable env event a t.rows := by
  have hids := automations.nodup_ids hscan
  refine ⟨fun h a ha hm => ?_, isolated_of_evaluable hids⟩
  by_contra hraise
  obtain ⟨new, hnew, hids'⟩ := h.complete
  rw [evaluateEvent_raised hids ha hm hraise] at hnew
  have hnil : new = [] := by simpa using hnew
  rw [hnil, List.map_nil] at hids'
  have hmem := List.mem_map_of_mem (f := (·.id)) (List.mem_filter.mpr ⟨ha, hm⟩)
  rw [← hids'] at hmem
  cases hmem

end

/-- A store of two event automations made by `create_automation`: the second has a number for a
condition. -/
def malformedStore : Db :=
  let definition (name : String) (conditions : List Json) : Dict :=
    [("name", .str name), ("trigger_type", .str "event"), ("event_type", .str "task-failed"),
      ("conditions", .arr conditions), ("actions", .arr [.obj [("type", .str "log")]])]
  let db := (createAutomation 0 (definition "log-failures" []) .empty).1
  (createAutomation 0 (definition "malformed" [.int 5]) db).1

theorem isolated_fails :
    ¬ Isolated (.idle 0) "task-failed" [] malformedStore.automations.rows .empty {} := by
  intro h
  have hlost : (evaluateEvent (.idle 0) "task-failed" [] malformedStore.automations.rows
      .empty {}).added .empty = [] := by decide
  obtain ⟨r, hr, -⟩ := h.audited 1 (by decide)
  rw [hlost] at hr
  cases hr

theorem isolated_iff_malformedStore :
    Isolated (.idle 0) "task-failed" [] malformedStore.automations.rows .empty {} ↔
      ∀ a ∈ malformedStore.automations.rows, matchesEvent "task-failed" a = true →
        Evaluable (.idle 0) [] a [] :=
  isolated_iff malformedStore.automations (.refl _)

end Taskowl
