import Taskowl.AutomationStore
import Taskowl.Lib.Emit
import Taskowl.Redelivery

/-!
# The run log over whole histories

Every row of `automation_runs` is the account of an evaluation that took
place: of an automation that was there and enabled, by an event of its type or
a turn at which it was due, with the verdict its conditions and limits gave on
the log of that moment, and with one entry for each action that was fired. A
step adds one such row at most for each automation, in the order of the scan,
behind the rows it keeps. Deleting an automation takes its rows along.
-/

namespace Taskowl

open Lib Py

/-! ## Entries of the fired list -/

/-- The action types `_dispatch_actions` has a branch for. -/
def actionTypes : List String :=
  ["log", "slack_webhook", "webhook", "retry_task", "execute_task", "revoke_task",
    "check_workers_offline"]

def typeOf : Json → Json
  | .obj d => Dict.get d "type"
  | _ => .null

def supportedAction (action : Json) : Bool := isOneOf (typeOf action) actionTypes

section Entries

variable {env : Env} {a : Automation} {event action : Dict} {w : World}

theorem fireAction_isSome (type : Json) :
    (fireAction env a event action w type).isSome = isOneOf type actionTypes := by
  unfold fireAction isOneOf actionTypes
  split
  case h_8 =>
    cases type <;> simp_all
  all_goals simp

/-- What a fire method returns names no type. -/
def Untyped (result : Dict) : Prop := result = [] ∨ ∃ k v, result = [(k, v)] ∧ k ≠ "type"

theorem untyped_toDict (r : Reply) (taskId : String → Json) : Untyped (r.toDict taskId) := by
  cases r with
  | error msg => exact .inr ⟨"error", _, rfl, by decide⟩
  | success id => exact .inr ⟨"task_id", _, rfl, by decide⟩

theorem untyped_sendOr {e : Except PyErr Effect} {w' : World} {result : Dict}
    (h : w.sendOr e = (w', .ok result)) : Untyped result := by
  cases e with
  | error e => cases h
  | ok e =>
    cases h
    exact .inl rfl

theorem untyped_fireAction {type : Json} {w' : World} {result : Dict}
    (h : fireAction env a event action w type = some (w', .ok result)) : Untyped result := by
  unfold fireAction at h
  split at h
  · exact untyped_sendOr (Option.some.inj h)
  · exact untyped_sendOr (Option.some.inj h)
  · exact untyped_sendOr (Option.some.inj h)
  · have h := Option.some.inj h
    unfold fireRetryTask at h
    dsimp only at h
    split at h
    · cases h
      exact .inr ⟨"error", _, rfl, by decide⟩
    · split at h <;> cases h
      exact untyped_toDict _ _
  · have h := Option.some.inj h
    unfold fireExecuteTask at h
    dsimp only at h
    split at h
    · cases h
      exact .inr ⟨"error", _, rfl, by decide⟩
    · split at h <;> cases h
      exact untyped_toDict _ _
  · have h := Option.some.inj h
    unfold fireRevokeTask at h
    dsimp only at h
    split at h
    · cases h
      exact .inr ⟨"error", _, rfl, by decide⟩
    · split at h <;> cases h
      exact untyped_toDict _ _
  · have h := Option.some.inj h
    unfold fireCheckWorkersOffline at h
    dsimp only at h
    split at h
    · cases h
      exact .inr ⟨"error", _, rfl, by decide⟩
    · split at h
      · cases h
      · cases h
        exact .inr ⟨"workers_alerted", _, rfl, by decide⟩
  · cases h

theorem typeOf_entry {type : Json} {result : Dict} (h : Untyped result) :
    typeOf (.obj (Dict.merge [("type", type)] result)) = type := by
  unfold typeOf Dict.get
  dsimp only
  rw [Dict.lookup_merge]
  · rcases h with rfl | ⟨k, v, rfl, hk⟩
    · rfl
    · rw [List.lookup_cons, beq_false_of_ne (Ne.symm hk)]
      rfl
  · rcases h with rfl | ⟨k, v, rfl, -⟩
    · exact List.nodup_nil
    · exact List.nodup_singleton k

/-- The fired list has an entry for each action of a supported type, in order. -/
theorem dispatchList_types {actions fired l : List Json}
    (h : (dispatchList env a event actions w fired).2 = .ok l) :
    l.map typeOf = fired.map typeOf ++ (actions.filter supportedAction).map typeOf := by
  induction actions generalizing w fired with
  | nil =>
    cases h
    exact (List.append_nil _).symm
  | cons action actions ih =>
    unfold dispatchList at h
    cases action with
    | obj d =>
      dsimp only at h
      have hsome : (fireAction env a event d w (Dict.get d "type")).isSome =
          isOneOf (Dict.get d "type") actionTypes := fireAction_isSome _
      split at h
      · next hnone =>
        rw [hnone] at hsome
        rw [ih h, List.filter_cons_of_neg (by
          show ¬ isOneOf (Dict.get d "type") actionTypes = true
          rw [← hsome]
          exact Bool.false_ne_true)]
      · next w' result hfire =>
        rw [hfire] at hsome
        rw [ih h, List.filter_cons_of_pos (by exact hsome.symm), List.map_append, List.map_cons,
          List.map_cons, List.map_nil, typeOf_entry (untyped_fireAction hfire), List.append_assoc]
        rfl
      · next w' e hfire =>
        rw [hfire] at hsome
        rw [ih h, List.filter_cons_of_pos (by exact hsome.symm), List.map_append, List.map_cons,
          List.map_cons, List.map_nil, List.append_assoc]
        rfl
    | _ => cases h

end Entries

/-! ## The account of an evaluation -/

/-- What a run may record: the verdict on the conditions, the fired list and the skip reason that
an evaluation of the automation gives on a log of runs. -/
inductive Account (lib : PyLib) (now : Int) (event : Dict) (a : Row Automation) (runs : Runs) :
    Bool → Json → Option Skip → Prop
  | failed (hconditions : conditionsPassed lib event a.val = .ok false) :
    Account lib now event a runs false .null none
  | skipped {reason : Skip} (hconditions : conditionsPassed lib event a.val = .ok true)
      (hreason : skipReason a now runs = .ok (some reason)) :
    Account lib now event a runs true .null (some reason)
  | fired {actions entries : List Json} (hconditions : conditionsPassed lib event a.val = .ok true)
      (hreason : skipReason a now runs = .ok none)
      (hactions : (a.val.actions.read.or (.arr [])).iter = .ok actions)
      (hobj : actions.all isObj = true)
      (hentries : entries.map typeOf = (actions.filter supportedAction).map typeOf) :
    Account lib now event a runs true (.arr entries) none

/-- The run an evaluation by a trigger adds. -/
def Accounts (lib : PyLib) (now : Int) (trigger : String) (event : Dict) (a : Row Automation)
    (runs : Runs) (r : AutomationRun) : Prop :=
  ∃ passed fired skipped, Account lib now event a runs passed fired skipped ∧
    r = runOf trigger event a passed fired skipped

/-- The automation's schedule has passed since its last run. -/
def DueOn (now : Int) (a : Row Automation) (runs : Runs) : Prop :=
  ∃ schedule, scheduleOf a.val = some schedule ∧
    ∀ last, lastRunTime a.id runs = some last → last + schedule * secondUs ≤ now

theorem DueOn.congr {now : Int} {a : Row Automation} {runs runs' : Runs}
    (hown : ownRuns a.id runs = ownRuns a.id runs') (h : DueOn now a runs) :
    DueOn now a runs' := by
  obtain ⟨schedule, hschedule, hlast⟩ := h
  refine ⟨schedule, hschedule, ?_⟩
  rw [← lastRunTime_congr hown]
  exact hlast

/-- A loop body adds at most one run, of its automation, and one that depends on no other
automation's runs. -/
structure Adds (now : Int) (body : Row Automation → Session → Session × Option PyErr)
    (P : Row Automation → Runs → AutomationRun → Prop) : Prop where
  own : ∀ a runs runs' r, ownRuns a.id runs = ownRuns a.id runs' → P a runs r → P a runs' r
  id : ∀ a runs r, P a runs r → r.automationId = a.id
  step : ∀ a s, (body a s).1.runs = s.runs ∨
    ∃ r, P a s.runs.rows r ∧ (body a s).1.runs = s.runs.insert now r

section Bodies

variable {env : Env} {trigger : String} {event : Dict}

theorem account_congr {lib : PyLib} {now : Int} {a : Row Automation} {runs runs' : Runs}
    {passed : Bool} {fired : Json} {skipped : Option Skip}
    (hown : ownRuns a.id runs = ownRuns a.id runs')
    (h : Account lib now event a runs passed fired skipped) :
    Account lib now event a runs' passed fired skipped := by
  have hskip : skipReason a now runs = skipReason a now runs' := skipReason_congr hown
  cases h with
  | failed hconditions => exact .failed hconditions
  | skipped hconditions hreason => exact .skipped hconditions (hskip ▸ hreason)
  | fired hconditions hreason hactions hobj hentries =>
    exact .fired hconditions (hskip ▸ hreason) hactions hobj hentries

theorem account_of_dispatch {a : Row Automation} {runs : Runs} {w w' : World} {fired : List Json}
    (hconditions : conditionsPassed env.lib event a.val = .ok true)
    (hreason : skipReason a env.now runs = .ok none)
    (h : dispatchActions env a.val event w = (w', .ok fired)) :
    Account env.lib env.now event a runs true (.arr fired) none := by
  have hwell := (dispatchActions_ok_iff env a.val event w).mp ⟨fired, by rw [h]⟩
  unfold dispatchActions at h
  unfold actionsWellFormed at hwell
  split at h
  · cases h
  · next actions hactions =>
    rw [hactions] at hwell
    refine .fired hconditions hreason hactions hwell ?_
    rw [dispatchList_types (congrArg Prod.snd h), List.map_nil, List.nil_append]

theorem adds_evaluateAutomation : Adds env.now (evaluateAutomation env trigger event)
    (Accounts env.lib env.now trigger event) where
  own a runs runs' r hown h := by
    obtain ⟨passed, fired, skipped, haccount, rfl⟩ := h
    exact ⟨passed, fired, skipped, account_congr hown haccount, rfl⟩
  id a runs r h := by
    obtain ⟨_, _, _, -, rfl⟩ := h
    rfl
  step a s := by
    unfold evaluateAutomation decision
    cases hconditions : conditionsPassed env.lib event a.val with
    | error e => exact .inl rfl
    | ok passed =>
      cases passed with
      | false => exact .inr ⟨_, ⟨_, _, _, .failed hconditions, rfl⟩, rfl⟩
      | true =>
        dsimp only
        cases hreason : skipReason a env.now s.runs.rows with
        | error e => exact .inl rfl
        | ok reason =>
          cases reason with
          | some reason => exact .inr ⟨_, ⟨_, _, _, .skipped hconditions hreason, rfl⟩, rfl⟩
          | none =>
            dsimp only
            split
            · exact .inl rfl
            · next hdispatch =>
              exact .inr ⟨_, ⟨_, _, _, account_of_dispatch hconditions hreason hdispatch, rfl⟩,
                rfl⟩

theorem adds_evaluateDue : Adds env.now (evaluateDue env) (fun a runs r =>
    DueOn env.now a runs ∧ Accounts env.lib env.now "periodic" [] a runs r) where
  own a runs runs' r hown h := by
    exact ⟨h.1.congr hown, adds_evaluateAutomation.own a runs runs' r hown h.2⟩
  id a runs r h := adds_evaluateAutomation.id a runs r h.2
  step a s := by
    have hadds : Adds env.now (evaluateAutomation env "periodic" [])
        (Accounts env.lib env.now "periodic" []) := adds_evaluateAutomation
    have hbody := hadds.step a s
    unfold evaluateDue
    cases hschedule : scheduleOf a.val with
    | none => exact .inl rfl
    | some schedule =>
      dsimp only
      have hevaluated : (∀ last, lastRunTime a.id s.runs.rows = some last →
          last + schedule * secondUs ≤ env.now) →
          (evaluateAutomation env "periodic" [] a s).1.runs = s.runs ∨
            ∃ r, (DueOn env.now a s.runs.rows ∧
              Accounts env.lib env.now "periodic" [] a s.runs.rows r) ∧
              (evaluateAutomation env "periodic" [] a s).1.runs = s.runs.insert env.now r := by
        intro hlast
        rcases hbody with hsame | ⟨r, haccounts, hruns⟩
        · exact .inl hsame
        · exact .inr ⟨r, ⟨⟨schedule, hschedule, hlast⟩, haccounts⟩, hruns⟩
      cases hlast : lastRunTime a.id s.runs.rows with
      | none => exact hevaluated (by rw [hlast]; nofun)
      | some last =>
        dsimp only
        cases hwithin : within schedule last env.now with
        | error e => exact .inl rfl
        | ok early =>
          cases early with
          | true => exact .inl rfl
          | false =>
            refine hevaluated fun last' hlast' => ?_
            cases hlast.symm.trans hlast'
            exact le_of_within hwithin

end Bodies

section Loop

variable {now : Int} {body : Row Automation → Session → Session × Option PyErr}
  {P : Row Automation → Runs → AutomationRun → Prop} {s : Session} {as : List (Row Automation)}

theorem Adds.ownRuns_other (hb : Adds now body P) {a b : Row Automation} (hne : a.id ≠ b.id) :
    ownRuns b.id (body a s).1.runs.rows = ownRuns b.id s.runs.rows := by
  rcases hb.step a s with hsame | ⟨r, hr, hruns⟩
  · rw [hsame]
  · rw [hruns, Table.rows_insert]
    exact ownRuns_append_other (by rw [hb.id a _ r hr]; exact hne)

/-- What a loop adds to an output, its automations add in order, each on the log at its start: no
automation is evaluated twice. -/
theorem forEach_appends {β : Type} {out : Session → List β}
    {Q : Row Automation → Runs → List β → Prop} (hb : Adds now body P)
    (hadds : ∀ a s, Appends out (Q a s.runs.rows) s (body a s).1)
    (hown : ∀ a runs runs' es, ownRuns a.id runs = ownRuns a.id runs' → Q a runs es → Q a runs' es)
    (hids : (as.map (·.id)).Nodup) :
    Appends out (InOrder (fun a => Q a s.runs.rows) as) s (forEach body as s).1 := by
  induction as generalizing s with
  | nil => exact .none rfl (.stop [])
  | cons a as ih =>
    cases hraised : (body a s).2.isSome with
    | true =>
      rw [forEach_cons_some hraised]
      exact (hadds a s).mono fun es hes => .single hes
    | false =>
      rw [forEach_cons_none hraised]
      refine (hadds a s).trans (ih (List.nodup_cons.mp hids).2) fun _ _ hes hrest =>
        .cons hes (hrest.mono fun b hmem es hq => ?_)
      have hne : a.id ≠ b.id := fun heq =>
        (List.nodup_cons.mp hids).1 (List.mem_map.mpr ⟨b, hmem, heq.symm⟩)
      exact hown b _ _ es (hb.ownRuns_other hne) hq

/-- What the body adds for an automation: a row at most. -/
inductive RowOf (now : Int) (P : Row Automation → Runs → AutomationRun → Prop)
    (a : Row Automation) (runs : Runs) : List (Row AutomationRun) → Prop
  | nothing : RowOf now P a runs []
  | row {r : Row AutomationRun} (hnow : r.createdAt = now) (hval : P a runs r.val) :
    RowOf now P a runs [r]

theorem Adds.appends (hb : Adds now body P) (a : Row Automation) (s : Session) :
    Appends (fun s : Session => s.runs.rows) (RowOf now P a s.runs.rows) s (body a s).1 := by
  rcases hb.step a s with hsame | ⟨v, hv, hruns⟩
  · exact .none (congrArg Table.rows hsame) .nothing
  · exact ⟨_, congrArg Table.rows hruns, .row rfl hv⟩

theorem forEach_adds (hb : Adds now body P) (hids : (as.map (·.id)).Nodup) :
    Appends (fun s : Session => s.runs.rows) (InOrder (fun a => RowOf now P a s.runs.rows) as)
      s (forEach body as s).1 := by
  refine forEach_appends hb hb.appends (fun a runs runs' rs hown hrow => ?_) hids
  cases hrow with
  | nothing => exact .nothing
  | row hnow hval => exact .row hnow (hb.own a _ _ _ hown hval)

theorem finish_adds (hb : Adds now body P) (t : Table AutomationRun) (w : World)
    (hids : (as.map (·.id)).Nodup) : ∃ rs,
    (Pass.finish t (forEach body as ⟨w, t, []⟩)).runs.rows = t.rows ++ rs ∧
      InOrder (fun a => RowOf now P a t.rows) as rs := by
  rw [Pass.runs_finish]
  split
  · exact ⟨[], (List.append_nil _).symm, .stop as⟩
  · exact forEach_adds hb hids

end Loop

/-! ## Whole histories -/

/-- The operation evaluates the automation: by an event of its type, or at a turn of the periodic
loop at which it is due. -/
inductive Triggers (s : System) (env : Env) (scan : Scan) (a : Row Automation) :
    SystemOp → String → Dict → Prop
  | event {type : String} {h : Handler} {event : Dict}
      (hhandler : handlerOf event = some (type, h)) (hmem : a ∈ s.db.automations.rows)
      (hmatches : matchesEvent type a = true) :
    Triggers s env scan a (.deliver env scan event) type event
  | periodic (hmem : a ∈ s.db.automations.rows) (hmatches : matchesPeriodic a = true)
      (hdue : DueOn env.now a s.db.runs.rows) :
    Triggers s env scan a (.tick env scan) "periodic" []

/-- The row is what the operation recorded of an automation it evaluated. -/
def Entered (s : System) (op : SystemOp) (r : Row AutomationRun) : Prop :=
  ∃ env scan a trigger event, Triggers s env scan a op trigger event ∧ r.createdAt = env.now ∧
    Accounts env.lib env.now trigger event a s.db.runs.rows r.val

theorem nodup_scan {t : Table Automation} (scan : Scan) (p : Row Automation → Bool) :
    (((scan.order t.rows).filter p).map (·.id)).Nodup :=
  (t.nodup_ids (scan.perm _)).sublist (List.filter_sublist.map _)

/-- What an operation adds to the log: what the automations that it triggers record, in order. -/
inductive Enters (s : System) : SystemOp → List (Row AutomationRun) → Prop
  | nothing (op : SystemOp) : Enters s op []
  | event {env : Env} {scan : Scan} {type : String} {h : Handler} {event : Dict}
      {rs : List (Row AutomationRun)} (hhandler : handlerOf event = some (type, h))
      (hrows : InOrder (fun a =>
        RowOf env.now (Accounts env.lib env.now type event) a s.db.runs.rows)
        ((scan.order s.db.automations.rows).filter (matchesEvent type)) rs) :
    Enters s (.deliver env scan event) rs
  | periodic {env : Env} {scan : Scan} {rs : List (Row AutomationRun)}
      (hrows : InOrder (fun a => RowOf env.now (fun a runs r =>
        DueOn env.now a runs ∧ Accounts env.lib env.now "periodic" [] a runs r) a s.db.runs.rows)
        ((scan.order s.db.automations.rows).filter matchesPeriodic) rs) :
    Enters s (.tick env scan) rs

theorem enters_handle (s : System) (env : Env) (scan : Scan) (event : Dict) :
    ∃ rs, (s.handle env scan event).system.db.runs.rows = s.db.runs.rows ++ rs ∧
      Enters s (.deliver env scan event) rs := by
  unfold System.handle
  split
  · exact ⟨[], (List.append_nil _).symm, .nothing _⟩
  · next type h hhandler =>
    split
    · exact ⟨[], (List.append_nil _).symm, .nothing _⟩
    · next db hrun =>
      have hautomations := Handler.automations_run hrun
      have hruns : db.runs = s.db.runs := by
        obtain ⟨_, _, -, -, rfl⟩ | ⟨_, _, -, -, rfl⟩ := Handler.run_cases hrun <;> rfl
      obtain ⟨rs, hout, hrs⟩ := finish_adds adds_evaluateAutomation db.runs
        (markOnlineOf type event s.world)
        (nodup_scan (t := db.automations) scan (matchesEvent type))
      refine ⟨rs, ?_, .event hhandler ?_⟩
      · rw [← hruns]
        exact hout
      · rw [← hruns, ← hautomations]
        exact hrs

theorem enters_tick (s : System) (env : Env) (scan : Scan) :
    ∃ rs, (s.tick env scan).db.runs.rows = s.db.runs.rows ++ rs ∧
      Enters s (.tick env scan) rs := by
  obtain ⟨rs, hout, hrs⟩ := finish_adds adds_evaluateDue s.db.runs s.world
    (nodup_scan (t := s.db.automations) scan matchesPeriodic)
  exact ⟨rs, hout, .periodic hrs⟩

/-- An operation keeps some rows and adds those of its own evaluations behind them. -/
theorem enters_step (s : System) (op : SystemOp) : ∃ kept rs, kept.Sublist s.db.runs.rows ∧
    (s.step op).db.runs.rows = kept ++ rs ∧ Enters s op rs := by
  have hkept : ∀ {op : SystemOp}, (s.step op).db.runs.rows.Sublist s.db.runs.rows →
      ∃ kept rs, kept.Sublist s.db.runs.rows ∧ (s.step op).db.runs.rows = kept ++ rs ∧
        Enters s op rs := fun h => ⟨_, [], h, (List.append_nil _).symm, .nothing _⟩
  have hsame : ∀ {op : SystemOp}, (s.step op).db.runs = s.db.runs →
      (s.step op).db.runs.rows.Sublist s.db.runs.rows := fun h => h ▸ List.Sublist.refl _
  cases op with
  | deliver env scan event =>
    obtain ⟨rs, hrows, hrs⟩ := enters_handle s env scan event
    exact ⟨_, rs, List.Sublist.refl _, hrows, hrs⟩
  | tick env scan =>
    obtain ⟨rs, hrows, hrs⟩ := enters_tick s env scan
    exact ⟨_, rs, List.Sublist.refl _, hrows, hrs⟩
  | create env data => exact hkept (hsame (onlyAutomations_create s.db env.now data).runs)
  | update env id data => exact hkept (hsame (onlyAutomations_update s.db env.now id data).runs)
  | toggle env id => exact hkept (hsame (onlyAutomations_toggle s.db env.now id).runs)
  | seed env => exact hkept (hsame (onlyAutomations_seed s.db env.settings env.now).runs)
  | delete id =>
    refine hkept ?_
    show (deleteAutomation id s.db).1.runs.rows.Sublist _
    unfold deleteAutomation
    split
    · exact List.Sublist.refl _
    · exact List.filter_sublist
  | prune events runs =>
    refine hkept ?_
    show (s.db.prune events runs).runs.rows.Sublist _
    unfold Db.prune
    cases events <;> cases runs <;> first
      | exact List.Sublist.refl _
      | exact List.filter_sublist

theorem Enters.entered {s : System} {op : SystemOp} {rs : List (Row AutomationRun)}
    {r : Row AutomationRun} (h : Enters s op rs) (hr : r ∈ rs) : Entered s op r := by
  cases h with
  | nothing => cases hr
  | @event env scan type h event rs hhandler hrows =>
    obtain ⟨a, ha, block, hblock, hmem⟩ := hrows.mem hr
    obtain ⟨hscan, hmatches⟩ := List.mem_filter.mp ha
    cases hblock with
    | nothing => cases hmem
    | row hnow hval =>
      cases List.mem_singleton.mp hmem
      exact ⟨env, scan, a, type, event,
        .event hhandler ((scan.perm _).mem_iff.mp hscan) hmatches, hnow, hval⟩
  | @periodic env scan rs hrows =>
    obtain ⟨a, ha, block, hblock, hmem⟩ := hrows.mem hr
    obtain ⟨hscan, hmatches⟩ := List.mem_filter.mp ha
    cases hblock with
    | nothing => cases hmem
    | row hnow hval =>
      cases List.mem_singleton.mp hmem
      exact ⟨env, scan, a, "periodic", [],
        .periodic ((scan.perm _).mem_iff.mp hscan) hmatches hval.1, hnow, hval.2⟩

theorem entered_step {s : System} {op : SystemOp} {r : Row AutomationRun}
    (hr : r ∈ (s.step op).db.runs.rows) : r ∈ s.db.runs.rows ∨ Entered s op r := by
  obtain ⟨kept, rs, hkept, hrows, hrs⟩ := enters_step s op
  rw [hrows, List.mem_append] at hr
  exact hr.imp (hkept.subset ·) hrs.entered

/-! ## Runs of automations that are still there -/

def Referenced (db : Db) : Prop :=
  ∀ r ∈ db.runs.rows, ∃ a ∈ db.automations.rows, a.id = r.val.automationId

def IdsKept (t t' : Table Automation) : Prop := ∀ a ∈ t.rows, ∃ b ∈ t'.rows, b.id = a.id

section Ids

variable {t t' : Table Automation}

theorem IdsKept.of_subset (h : t.rows ⊆ t'.rows) : IdsKept t t' := fun a ha => ⟨a, h ha, rfl⟩

theorem IdsKept.refl (t : Table Automation) : IdsKept t t := .of_subset (List.Subset.refl _)

theorem idsKept_modify (t : Table Automation) (id : Nat) (f : Automation → Automation) :
    IdsKept t (t.modify id f) := by
  intro a ha
  refine ⟨_, List.mem_map_of_mem ha, ?_⟩
  split <;> rfl

theorem idsKept_create (db : Db) (now : Int) (data : Dict) :
    IdsKept db.automations (createAutomation now data db).1.automations := by
  unfold createAutomation
  split
  · exact .refl _
  · split
    · exact .refl _
    · split
      · exact .refl _
      · split
        · exact .refl _
        · split
          · exact .refl _
          · exact .of_subset (List.subset_append_left _ _)

theorem idsKept_update (db : Db) (now : Int) (id : Nat) (data : Dict) :
    IdsKept db.automations (updateAutomation now id data db).1.automations := by
  unfold updateAutomation
  dsimp only
  split
  · exact .refl _
  · split
    · exact .refl _
    · split
      · exact .refl _
      · split
        · exact .refl _
        · split
          · exact .refl _
          · exact idsKept_modify _ _ _

theorem idsKept_toggle (db : Db) (now : Int) (id : Nat) :
    IdsKept db.automations (toggleAutomation now id db).1.automations := by
  unfold toggleAutomation
  split
  · exact .refl _
  · exact idsKept_modify _ _ _

theorem rows_ensureAll_subset {now : Int} {ds : List Definition}
    (hok : ensureAll now t ds = .ok t') : t.rows ⊆ t'.rows := by
  induction ds generalizing t with
  | nil =>
    cases hok
    exact List.Subset.refl _
  | cons d ds ih =>
    obtain ⟨t₁, ht₁, hrest⟩ := ensureAll_cons_ok hok
    refine List.Subset.trans ?_ (ih hrest)
    rcases ensureAutomation_cases ht₁ with ⟨-, rfl⟩ | ⟨-, -, rfl⟩
    · exact List.Subset.refl _
    · exact List.subset_append_left _ _

theorem idsKept_seed (db : Db) (settings : Settings) (now : Int) :
    IdsKept db.automations (seedBuiltinAutomations settings now db).1.automations := by
  unfold seedBuiltinAutomations
  split
  · exact .refl _
  · next hok => exact .of_subset (rows_ensureAll_subset hok)

end Ids

theorem Referenced.mono {db db' : Db} (h : Referenced db)
    (hids : IdsKept db.automations db'.automations) (hruns : db'.runs = db.runs) :
    Referenced db' := by
  intro r hr
  rw [hruns] at hr
  obtain ⟨a, ha, hid⟩ := h r hr
  obtain ⟨b, hb, hba⟩ := hids a ha
  exact ⟨b, hb, hba.trans hid⟩

theorem referenced_delete {db : Db} (h : Referenced db) (id : Nat) :
    Referenced (deleteAutomation id db).1 := by
  unfold deleteAutomation
  split
  · exact h
  · intro r hr
    obtain ⟨hr, hother⟩ := List.mem_filter.mp hr
    obtain ⟨a, ha, hid⟩ := h r hr
    exact ⟨a, List.mem_filter.mpr ⟨ha, by simpa [hid] using hother⟩, hid⟩

theorem Entered.referenced {s : System} {op : SystemOp} {r : Row AutomationRun}
    (h : Entered s op r) : ∃ a ∈ s.db.automations.rows, a.id = r.val.automationId := by
  obtain ⟨env, scan, a, trigger, event, htrigger, -, _, _, _, -, hval⟩ := h
  refine ⟨a, ?_, by rw [hval]; rfl⟩
  cases htrigger with
  | event _ hmem _ => exact hmem
  | periodic hmem _ _ => exact hmem

theorem automations_handle (s : System) (env : Env) (scan : Scan) (event : Dict) :
    (s.handle env scan event).system.db.automations = s.db.automations := by
  unfold System.handle
  split
  · rfl
  · split
    · rfl
    · next hrun => exact (Handler.automations_run hrun :)

theorem referenced_step {s : System} (op : SystemOp) (h : Referenced s.db) :
    Referenced (s.step op).db := by
  have hpass : ∀ op, (s.step op).db.automations = s.db.automations →
      Referenced (s.step op).db := by
    intro op hsame r hr
    rw [hsame]
    rcases entered_step hr with hr | hentered
    · exact h r hr
    · exact hentered.referenced
  cases op with
  | deliver env scan event => exact hpass _ (automations_handle ..)
  | tick env scan => exact hpass (.tick env scan) rfl
  | create env data =>
    exact h.mono (idsKept_create s.db env.now data)
      (onlyAutomations_create s.db env.now data).runs
  | update env id data =>
    exact h.mono (idsKept_update s.db env.now id data)
      (onlyAutomations_update s.db env.now id data).runs
  | toggle env id =>
    exact h.mono (idsKept_toggle s.db env.now id)
      (onlyAutomations_toggle s.db env.now id).runs
  | seed env =>
    exact h.mono (idsKept_seed s.db env.settings env.now)
      (onlyAutomations_seed s.db env.settings env.now).runs
  | delete id => exact referenced_delete h id
  | prune events runs =>
    refine hpass _ ?_
    show (s.db.prune events runs).automations = _
    unfold Db.prune
    cases events <;> cases runs <;> rfl

/-- Every step adds what it recorded of the automations it evaluated, and nothing else; so every run
is what some step of the history recorded, and its automation is still there. -/
structure SoundLog (ops : List SystemOp) : Prop where
  steps : ∀ before op after, ops = before ++ op :: after → ∃ kept rs,
    kept.Sublist (run System.step .empty before).db.runs.rows ∧
    (run System.step .empty (before ++ [op])).db.runs.rows = kept ++ rs ∧
    Enters (run System.step .empty before) op rs
  entered : ∀ r ∈ (run System.step .empty ops).db.runs.rows, ∃ before op after,
    ops = before ++ op :: after ∧ Entered (run System.step .empty before) op r
  referenced : Referenced (run System.step .empty ops).db

/-- From an empty database the run log stays sound, whatever the operations and their order. -/
theorem runLog_sound (ops : List SystemOp) : SoundLog ops where
  steps before op after _ := by
    rw [run_append, run_cons, run_nil]
    exact enters_step _ op
  entered := by
    induction ops using List.reverseRecOn with
    | nil => exact fun _ hr => absurd hr List.not_mem_nil
    | append_singleton ops op ih =>
      intro r hr
      rw [run_append, run_cons, run_nil] at hr
      rcases entered_step hr with hr | hentered
      · obtain ⟨before, op', after, heq, hentered⟩ := ih r hr
        exact ⟨before, op', after ++ [op], by rw [heq, List.append_assoc]; rfl, hentered⟩
      · exact ⟨ops, op, [], rfl, hentered⟩
  referenced := run_invariant (I := fun s : System => Referenced s.db)
    (fun s op h => referenced_step op h) ops fun _ hmem => absurd hmem List.not_mem_nil

end Taskowl
