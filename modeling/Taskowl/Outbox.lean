import Taskowl.Lib.Emit
import Taskowl.RunLog

/-!
# What leaves the process

A message that has left cannot be taken back, so what may leave at all is a
matter of safety. Every message over a whole history was asked for by an
action of an automation that was there, enabled and triggered, whose
conditions held and whose limits let it through; and the broker and the
webhooks are told no more than that action and the events on record allow:
only a failed, revoked or orphaned task is retried, only a known task revoked,
and only a host that looks dead is called offline.
-/

namespace Taskowl

open Lib Py

/-- The messages an action may send, with the tables as they are read in `env`. -/
inductive Sends (env : Env) (event action : Dict) : Effect → Prop
  | log {level : Nat} {message : Json} (htype : action.get "type" = .str "log") :
    Sends env event action (.log level message)
  | slackWebhook {payload : Json} (htype : action.get "type" = .str "slack_webhook")
      (hurl : (webhookUrl env action).truthy = true) :
    Sends env event action (.post (webhookUrl env action) payload)
  | webhook {payload : Json} (htype : action.get "type" = .str "webhook")
      (hurl : (action.get "url").truthy = true) :
    Sends env event action (.post (action.get "url") payload)
  | retryTask {id : Uuid} {info : TaskInfo} (htype : action.get "type" = .str "retry_task")
      (hid : Uuid.ofJson ((action.get "task_id").or (event.get "uuid")) = .ok id)
      (hinfo : getTaskInfo env id = .ok (some info)) (hstate : retryable info.state = true)
      (hname : strTruthy info.name = true) :
    Sends env event action (.sendTask
      { name := jsonOf .str info.name, args := info.args, kwargs := info.kwargs,
        queue := jsonOf .str info.queue, rootId := some (info.rootId.getD id),
        parentId := some id })
  | executeTask {task : SentTask} (htype : action.get "type" = .str "execute_task")
      (hname : task.name = (action.get "name").or (event.get "name"))
      (htruthy : task.name.truthy = true) (hqueue : task.queue = action.get "queue")
      (hroot : task.rootId = none) (hparent : task.parentId = none) :
    Sends env event action (.sendTask task)
  | revokeTask {id : Uuid} {terminate : Json} (htype : action.get "type" = .str "revoke_task")
      (hid : Uuid.ofJson ((action.get "task_id").or (event.get "uuid")) = .ok id)
      (hexists : taskExists env.taskRows id = true) :
    Sends env event action
      (.revoke (((action.get "task_id").or (event.get "uuid")).toStr env.lib) terminate)

/-- What an action sends, in order: a message at most, or one for each of the hosts that a sweep
finds stale. -/
inductive ActionSends (env : Env) (event action : Dict) : List Effect → Prop
  | nothing : ActionSends env event action []
  | message {e : Effect} (hsends : Sends env event action e) : ActionSends env event action [e]
  | sweep {timeout : Int} {hosts : List String}
      (htype : action.get "type" = .str "check_workers_offline")
      (hurl : (webhookUrl env action).truthy = true)
      (htimeout : secondsInt env.settings.workerOfflineTimeoutSeconds = .ok timeout)
      (hhosts : hosts.Sublist (hostnames env.workerRows))
      (hstale : ∀ host ∈ hosts, workerStale env.workerRows host env.now timeout = true) :
    ActionSends env event action (hosts.map fun host =>
      .post (webhookUrl env action) (buildWorkerOfflinePayload env.lib host))

/-- From one world to the next, messages have left that meet `P`. -/
abbrev Leaves (P : List Effect → Prop) : World → World → Prop := Appends World.effects P

section Actions

variable {env : Env} {a : Automation} {event action : Dict} {w : World}

theorem leaves_nothing : Leaves (ActionSends env event action) w w := .none rfl .nothing

theorem leaves_send {e : Effect} (h : Sends env event action e) :
    Leaves (ActionSends env event action) w (w.send e) := ⟨[e], rfl, .message h⟩

theorem leaves_sendOr {x : Except PyErr Effect} (h : ∀ e, x = .ok e → Sends env event action e) :
    Leaves (ActionSends env event action) w (w.sendOr x).1 := by
  cases x with
  | error _ => exact leaves_nothing
  | ok e => exact leaves_send (h e rfl)

theorem leaves_call {w' : World} {answer : Except PyErr String} {e : Effect}
    (hcall : w.call env e = (w', answer)) (h : Sends env event action e) :
    Leaves (ActionSends env event action) w w' := by
  cases hcall
  exact leaves_send h

theorem leaves_log (htype : action.get "type" = .str "log") :
    Leaves (ActionSends env event action) w (w.sendOr (fireLog env.lib a event action)).1 := by
  refine leaves_sendOr fun e h => ?_
  unfold fireLog at h
  split at h
  · split at h
    · cases h
    · cases h
      exact .log htype
  · cases h

theorem leaves_slackWebhook (htype : action.get "type" = .str "slack_webhook") :
    Leaves (ActionSends env event action) w (w.sendOr (fireSlackWebhook env a event action)).1 := by
  refine leaves_sendOr fun e h => ?_
  unfold fireSlackWebhook at h
  dsimp only at h
  split at h
  · cases h
  · next hurl =>
    split at h
    · cases h
      exact .slackWebhook htype (by simpa using hurl)
    · cases h

theorem leaves_webhook (htype : action.get "type" = .str "webhook") :
    Leaves (ActionSends env event action) w (w.sendOr (fireWebhook env.lib a event action)).1 := by
  refine leaves_sendOr fun e h => ?_
  unfold fireWebhook at h
  dsimp only at h
  split at h
  · cases h
  · next hurl =>
    cases h
    exact .webhook htype (by simpa using hurl)

theorem leaves_retryTask (htype : action.get "type" = .str "retry_task") :
    Leaves (ActionSends env event action) w (fireRetryTask env event action w).1 := by
  have hsent : Leaves (ActionSends env event action) w
      (retryTask env w ((action.get "task_id").or (event.get "uuid"))).1 := by
    unfold retryTask
    split
    · exact leaves_nothing
    · exact leaves_nothing
    · next id hid =>
      split
      · exact leaves_nothing
      · exact leaves_nothing
      · next info hinfo =>
        split
        · exact leaves_nothing
        · next hstate =>
          split
          · exact leaves_nothing
          · next hname =>
            dsimp only
            split <;> next hcall =>
              exact leaves_call hcall
                (.retryTask htype hid hinfo (by simpa using hstate) (by simpa using hname))
  unfold fireRetryTask
  dsimp only
  split
  · exact leaves_nothing
  · split <;> next heq => rw [heq] at hsent; exact hsent

theorem leaves_executeTask (htype : action.get "type" = .str "execute_task") :
    Leaves (ActionSends env event action) w (fireExecuteTask env event action w).1 := by
  unfold fireExecuteTask
  dsimp only
  split
  · exact leaves_nothing
  · next hname =>
    have hsent : Leaves (ActionSends env event action) w
        (executeTask env w ((action.get "name").or (event.get "name")) action).1 := by
      unfold executeTask
      split
      · exact leaves_nothing
      · split
        · exact leaves_nothing
        · exact leaves_nothing
        · split
          · exact leaves_nothing
          · exact leaves_nothing
          · split
            · exact leaves_nothing
            · dsimp only
              split <;> next hcall =>
                exact leaves_call hcall
                  (.executeTask htype rfl (by simpa using hname) rfl rfl rfl)
    split <;> next heq => rw [heq] at hsent; exact hsent

theorem leaves_revokeTask (htype : action.get "type" = .str "revoke_task") :
    Leaves (ActionSends env event action) w (fireRevokeTask env event action w).1 := by
  have hsent : Leaves (ActionSends env event action) w
      (revokeTask env w ((action.get "task_id").or (event.get "uuid"))
        ((action.lookup "terminate").getD (.bool false))).1 := by
    unfold revokeTask
    split
    · exact leaves_nothing
    · exact leaves_nothing
    · next id hid =>
      split
      · exact leaves_nothing
      · next hexists =>
        dsimp only
        split <;> next hcall =>
          exact leaves_call hcall (.revokeTask htype hid (by simpa using hexists))
  unfold fireRevokeTask
  dsimp only
  split
  · exact leaves_nothing
  · split <;> next heq => rw [heq] at hsent; exact hsent

/-- A sweep posts the payloads of stale hosts. -/
theorem leaves_sweepWorkers (env : Env) (url : Json) (timeout : Int) (hosts : List String)
    (w : World) : Leaves (fun es => ∃ stale : List String, stale.Sublist hosts ∧
      (∀ host ∈ stale, workerStale env.workerRows host env.now timeout = true) ∧
      es = stale.map fun host => .post url (buildWorkerOfflinePayload env.lib host))
    w (sweepWorkers env url timeout hosts w).1 := by
  induction hosts generalizing w with
  | nil => exact .none rfl ⟨[], .slnil, nofun, rfl⟩
  | cons host hosts ih =>
    unfold sweepWorkers
    split
    · exact (ih w).mono fun _ ⟨stale, hsub, hrest⟩ => ⟨stale, hsub.cons _, hrest⟩
    · split
      · next hstale =>
        obtain ⟨es, hout, stale, hsub, hall, rfl⟩ :=
          ih ({ w with offlineNotified := w.offlineNotified ++ [host] }.send
            (.post url (buildWorkerOfflinePayload env.lib host)))
        refine ⟨_, ?_, host :: stale, hsub.cons_cons _, ?_, rfl⟩
        · rw [hout, World.effects_send, List.append_assoc]
          rfl
        · rintro g hg
          rcases List.mem_cons.mp hg with rfl | hg
          · exact hstale
          · exact hall g hg
      · exact (ih w).mono fun _ ⟨stale, hsub, hrest⟩ => ⟨stale, hsub.cons _, hrest⟩

theorem leaves_checkWorkersOffline (htype : action.get "type" = .str "check_workers_offline") :
    Leaves (ActionSends env event action) w (fireCheckWorkersOffline env action w).1 := by
  unfold fireCheckWorkersOffline
  dsimp only
  split
  · exact leaves_nothing
  · next hurl =>
    split
    · exact leaves_nothing
    · next timeout htimeout =>
      refine (leaves_sweepWorkers env (webhookUrl env action) timeout _ w).mono ?_
      rintro _ ⟨stale, hsub, hstale, rfl⟩
      exact .sweep htype (by simpa using hurl) htimeout hsub hstale

theorem leaves_fireAction {r : World × Except PyErr Dict}
    (hfire : fireAction env a event action w (action.get "type") = some r) :
    Leaves (ActionSends env event action) w r.1 := by
  unfold fireAction at hfire
  split at hfire
  · next htype => cases hfire; exact leaves_log htype
  · next htype => cases hfire; exact leaves_slackWebhook htype
  · next htype => cases hfire; exact leaves_webhook htype
  · next htype => cases hfire; exact leaves_retryTask htype
  · next htype => cases hfire; exact leaves_executeTask htype
  · next htype => cases hfire; exact leaves_revokeTask htype
  · next htype => cases hfire; exact leaves_checkWorkersOffline htype
  · cases hfire

/-- What a dispatch sends, its actions send in order: also one that raises half-way. -/
def DispatchSends (env : Env) (event : Dict) : List Json → List Effect → Prop :=
  InOrder fun action es => ∃ d, action = .obj d ∧ ActionSends env event d es

theorem leaves_dispatchList {actions fired : List Json} :
    Leaves (DispatchSends env event actions) w (dispatchList env a event actions w fired).1 := by
  induction actions generalizing w fired with
  | nil => exact .none rfl (.stop [])
  | cons action actions ih =>
    unfold dispatchList
    cases action with
    | obj d =>
      have hnext : ∀ {w' : World} {fired : List Json}, Leaves (ActionSends env event d) w w' →
          Leaves (DispatchSends env event (.obj d :: actions)) w
            (dispatchList env a event actions w' fired).1 := fun hfired =>
        hfired.trans ih fun _ _ hes hrest => .cons ⟨d, rfl, hes⟩ hrest
      dsimp only
      split
      · exact hnext leaves_nothing
      · next hfire => exact hnext (leaves_fireAction hfire)
      · next hfire => exact hnext (leaves_fireAction hfire)
    | _ => exact .none rfl (.stop _)

end Actions

/-! ## Whole histories -/

/-- What an evaluation of the automation on a log of runs sends: nothing, or, if its conditions hold
and its limits let it through, what a dispatch of its actions sends. -/
inductive Evaluates (env : Env) (event : Dict) (a : Row Automation) (runs : Runs) :
    List Effect → Prop
  | nothing : Evaluates env event a runs []
  | dispatches {actions : List Json} {es : List Effect}
      (hconditions : conditionsPassed env.lib event a.val = .ok true)
      (hlimits : skipReason a env.now runs = .ok none)
      (hactions : (a.val.actions.read.or (.arr [])).iter = .ok actions)
      (hsends : DispatchSends env event actions es) : Evaluates env event a runs es

/-- An evaluation at a turn of the periodic loop: only if the automation is due. -/
inductive EvaluatesDue (env : Env) (a : Row Automation) (runs : Runs) : List Effect → Prop
  | nothing : EvaluatesDue env a runs []
  | due {es : List Effect} (hdue : DueOn env.now a runs) (hsends : Evaluates env [] a runs es) :
    EvaluatesDue env a runs es

section Passes

variable {env : Env} {trigger : String} {event : Dict} {es : List Effect}

theorem Evaluates.congr {a : Row Automation} {runs runs' : Runs}
    (hown : ownRuns a.id runs = ownRuns a.id runs') (h : Evaluates env event a runs es) :
    Evaluates env event a runs' es := by
  cases h with
  | nothing => exact .nothing
  | dispatches hconditions hlimits hactions hsends =>
    have hskip : skipReason a env.now runs = skipReason a env.now runs' := skipReason_congr hown
    exact .dispatches hconditions (hskip ▸ hlimits) hactions hsends

theorem EvaluatesDue.congr {a : Row Automation} {runs runs' : Runs}
    (hown : ownRuns a.id runs = ownRuns a.id runs') (h : EvaluatesDue env a runs es) :
    EvaluatesDue env a runs' es := by
  cases h with
  | nothing => exact .nothing
  | due hdue hsends => exact .due (hdue.congr hown) (hsends.congr hown)

theorem leaves_evaluateAutomation (env : Env) (trigger : String) (event : Dict)
    (a : Row Automation) (s : Session) : Leaves (Evaluates env event a s.runs.rows) s.world
      (evaluateAutomation env trigger event a s).1.world := by
  unfold evaluateAutomation decision
  cases hconditions : conditionsPassed env.lib event a.val with
  | error _ => exact .none rfl .nothing
  | ok passed =>
    cases passed with
    | false => exact .none rfl .nothing
    | true =>
      dsimp only
      cases hlimits : skipReason a env.now s.runs.rows with
      | error _ => exact .none rfl .nothing
      | ok reason =>
        cases reason with
        | some reason => exact .none rfl .nothing
        | none =>
          have hsent : Leaves (Evaluates env event a s.runs.rows) s.world
              (dispatchActions env a.val event s.world).1 := by
            unfold dispatchActions
            split
            · exact .none rfl .nothing
            · next actions hactions =>
              exact leaves_dispatchList.mono fun _ => .dispatches hconditions hlimits hactions
          dsimp only
          split <;> next heq => rw [heq] at hsent; exact hsent

theorem leaves_evaluateDue (env : Env) (a : Row Automation) (s : Session) :
    Leaves (EvaluatesDue env a s.runs.rows) s.world (evaluateDue env a s).1.world := by
  unfold evaluateDue
  cases hschedule : scheduleOf a.val with
  | none => exact .none rfl .nothing
  | some schedule =>
    have hevaluated := leaves_evaluateAutomation env "periodic" [] a s
    dsimp only
    split
    · next hlast =>
      refine hevaluated.mono fun _ => .due ⟨schedule, hschedule, ?_⟩
      rw [hlast]
      nofun
    · next last hlast =>
      split
      · exact .none rfl .nothing
      · exact .none rfl .nothing
      · next hwithin =>
        refine hevaluated.mono fun _ => .due ⟨schedule, hschedule, fun last' hlast' => ?_⟩
        cases hlast.symm.trans hlast'
        exact le_of_within hwithin

end Passes

/-- What an operation sends: what the automations that it triggers send, one after the other, with
the tables as they are once a delivered event is stored. -/
inductive Asked (s : System) : SystemOp → List Effect → Prop
  | nothing (op : SystemOp) : Asked s op []
  | event {env : Env} {scan : Scan} {type : String} {h : Handler} {event : Dict}
      {es : List Effect} (hhandler : handlerOf event = some (type, h))
      (hsends : InOrder (fun a => Evaluates (env.reading scan (s.step (.deliver env scan event)).db)
        event a s.db.runs.rows)
        ((scan.order s.db.automations.rows).filter (matchesEvent type)) es) :
    Asked s (.deliver env scan event) es
  | periodic {env : Env} {scan : Scan} {es : List Effect}
      (hsends : InOrder (fun a => EvaluatesDue (env.reading scan s.db) a s.db.runs.rows)
        ((scan.order s.db.automations.rows).filter matchesPeriodic) es) :
    Asked s (.tick env scan) es

theorem asked_handle (s : System) (env : Env) (scan : Scan) (event : Dict) :
    Leaves (Asked s (.deliver env scan event)) s.world (s.handle env scan event).system.world := by
  cases hhandler : handlerOf event with
  | none =>
    unfold System.handle
    rw [hhandler]
    exact .none rfl (.nothing _)
  | some typed =>
    obtain ⟨type, handler⟩ := typed
    cases hrun : handler.run env.lib env.now event s.db with
    | error _ =>
      unfold System.handle
      rw [hhandler]
      dsimp only
      rw [hrun]
      exact .none rfl (.nothing _)
    | ok db =>
      have hhandle : s.handle env scan event = .ofPass db (evaluateEvent (env.reading scan db) type
          event (scan.order db.automations.rows) db.runs (markOnlineOf type event s.world)) :=
        System.handle_eq hhandler hrun
      have hruns : db.runs = s.db.runs := by
        obtain ⟨_, _, -, -, rfl⟩ | ⟨_, _, -, -, rfl⟩ := Handler.run_cases hrun <;> rfl
      have hautomations : db.automations = s.db.automations := Handler.automations_run hrun
      have hreading : env.reading scan (s.step (.deliver env scan event)).db =
          env.reading scan db := by
        show env.reading scan (s.handle env scan event).system.db = _
        rw [hhandle]
        rfl
      have hadds : Adds (env.reading scan db).now
          (evaluateAutomation (env.reading scan db) type event) _ := adds_evaluateAutomation
      have hsends : ∀ a s, Appends (fun s : Session => s.world.effects)
          (Evaluates (env.reading scan db) event a s.runs.rows) s
          (evaluateAutomation (env.reading scan db) type event a s).1 :=
        leaves_evaluateAutomation _ type event
      obtain ⟨es, hout, hes⟩ := forEach_appends hadds hsends
        (fun _ _ _ _ hown => Evaluates.congr hown)
        (s := ⟨markOnlineOf type event s.world, db.runs, []⟩)
        (nodup_scan (t := db.automations) scan (matchesEvent type))
      refine ⟨es, ?_, .event hhandler ?_⟩
      · rw [hhandle, ← effects_markOnlineOf type event s.world, ← hout]
        show (evaluateEvent _ _ _ _ _ _).world.effects = _
        unfold evaluateEvent
        rw [Pass.world_finish]
      · rw [hreading, ← hruns, ← hautomations]
        exact hes

theorem asked_tick (s : System) (env : Env) (scan : Scan) :
    Leaves (Asked s (.tick env scan)) s.world (s.tick env scan).world := by
  have hsends : ∀ a session, Appends (fun s : Session => s.world.effects)
      (EvaluatesDue (env.reading scan s.db) a session.runs.rows) session
      (evaluateDue (env.reading scan s.db) a session).1 :=
    leaves_evaluateDue _
  obtain ⟨es, hout, hes⟩ := forEach_appends adds_evaluateDue hsends
    (fun _ _ _ _ hown => EvaluatesDue.congr hown) (s := ⟨s.world, s.db.runs, []⟩)
    (nodup_scan (t := s.db.automations) scan matchesPeriodic)
  refine ⟨es, ?_, .periodic hes⟩
  rw [← hout]
  show (evaluatePeriodic _ _ _ _).world.effects = _
  unfold evaluatePeriodic
  rw [Pass.world_finish]

/-- An operation sends what its own evaluations ask for, and each message once. -/
theorem asked_step (s : System) (op : SystemOp) :
    Leaves (Asked s op) s.world (s.step op).world := by
  cases op with
  | deliver env scan event => exact asked_handle s env scan event
  | tick env scan => exact asked_tick s env scan
  | _ => exact .none rfl (.nothing _)

/-- The messages that have left are those the steps of the history asked for, step by step. -/
def SoundOutbox (ops : List SystemOp) : Prop :=
  Emits System.step Asked .empty ops (run System.step .empty ops).world.effects

/-- From an empty database nothing leaves unasked or twice, whatever the operations and their
order. -/
theorem outbox_sound (ops : List SystemOp) : SoundOutbox ops := by
  have hrun : Appends (fun s : System => s.world.effects) (Emits System.step Asked .empty ops)
      .empty (run System.step .empty ops) := appends_run asked_step System.empty ops
  obtain ⟨es, hout, hes⟩ := hrun
  have hempty : (run System.step .empty ops).world.effects = es := hout
  unfold SoundOutbox
  rw [hempty]
  exact hes

end Taskowl
