import Taskowl.Isolation
import Taskowl.Payload

/-!
# The audit log and the rest of the event

Two evaluations of one automation, from one state, on events that agree on the
safe fields: what the first posts may differ from what the second posts, but
each sends as many messages, makes the same broker calls, raises or not alike,
and records the same run.
-/

namespace Taskowl

open Lib Py

/-- The conditions name fields that start at a safe field. -/
def SafeConditions (a : Automation) : Prop :=
  ∀ conditions, (a.conditions.read.or (.arr [])).iter = .ok conditions →
    ∀ (condition : Dict) (path : String), .obj condition ∈ conditions →
      condition.get "field" = .str path → path ≠ "" → safePath path = true

/-- The broker answers a call alike, at the same place in what is sent. -/
def AnswersAgree (answer answer' : List Effect → Effect → Except PyErr String) : Prop :=
  ∀ sent sent' call, sent.length = sent'.length → answer sent call = answer' sent' call

structure WorldAgree (w w' : World) : Prop where
  sent : w.effects.length = w'.effects.length
  notified : w.offlineNotified = w'.offlineNotified

structure RepliesAgree {α : Type} (r r' : World × α) : Prop where
  world : WorldAgree r.1 r'.1
  reply : r.2 = r'.2

section Worlds

variable {w w' : World}

theorem WorldAgree.send (h : WorldAgree w w') (e e' : Effect) :
    WorldAgree (w.send e) (w'.send e') where
  sent := by simp [h.sent]
  notified := h.notified

theorem WorldAgree.sendOr (h : WorldAgree w w') {x x' : Except PyErr Effect}
    (hx : x.map (fun _ => ()) = x'.map fun _ => ()) : RepliesAgree (w.sendOr x) (w'.sendOr x') := by
  cases x with
  | error err =>
    cases x' with
    | error err' => cases hx; exact ⟨h, rfl⟩
    | ok e' => cases hx
  | ok e =>
    cases x' with
    | error err' => cases hx
    | ok e' => exact ⟨h.send _ _, rfl⟩

end Worlds

/-! ## Conditions -/

section Conditions

variable {event event' : Dict}

theorem evaluateCondition_congr (h : SafeAgree event event') (lib : PyLib) {condition : Json}
    (hsafe : ∀ (c : Dict) (path : String), condition = .obj c → c.get "field" = .str path →
      path ≠ "" → safePath path = true) :
    evaluateCondition lib event condition = evaluateCondition lib event' condition := by
  cases condition with
  | obj c =>
    unfold evaluateCondition
    dsimp only
    cases hf : Dict.get c "field" with
    | str path =>
      by_cases hne : path = ""
      · subst hne
        rfl
      · dsimp only
        rw [h.resolveField (hsafe c path rfl hf hne)]
    | _ => rfl
  | _ => rfl

theorem conditionsPassed_congr (h : SafeAgree event event') (lib : PyLib) {a : Automation}
    (hsafe : SafeConditions a) : conditionsPassed lib event a = conditionsPassed lib event' a := by
  unfold conditionsPassed
  cases hc : (a.conditions.read.or (.arr [])).iter with
  | error e => rfl
  | ok conditions =>
    have hall := hsafe conditions hc
    clear hc
    induction conditions with
    | nil => rfl
    | cons c cs ih =>
      have hcs := ih fun condition path hmem => hall condition path (List.mem_cons_of_mem c hmem)
      dsimp only at hcs ⊢
      unfold allConditions
      rw [evaluateCondition_congr h lib, hcs]
      rintro condition path rfl
      exact hall condition path List.mem_cons_self

end Conditions

/-! ## Actions -/

section Actions

variable {env : Env} {answer : List Effect → Effect → Except PyErr String} {event event' : Dict}
  {w w' : World}

theorem call_agree {α : Type} (h : WorldAgree w w') (ha : AnswersAgree env.answer answer)
    (effect : Effect) (onOk : String → α) (onError : PyErr → α) :
    RepliesAgree
      (match w.call env effect with
        | (w, .ok id) => (w, onOk id)
        | (w, .error e) => (w, onError e))
      (match w'.call { env with answer := answer } effect with
        | (w, .ok id) => (w, onOk id)
        | (w, .error e) => (w, onError e)) := by
  unfold World.call
  dsimp only
  rw [ha w.effects w'.effects effect h.sent]
  cases answer w'.effects effect with
  | ok id => exact ⟨h.send _ _, rfl⟩
  | error e => exact ⟨h.send _ _, rfl⟩

theorem RepliesAgree.toDict {r r' : World × Except PyErr Reply} (taskId : String → Json) :
    RepliesAgree r r' → RepliesAgree
      (match r with
        | (w, .error e) => (w, (.error e : Except PyErr Dict))
        | (w, .ok reply) => (w, .ok (reply.toDict taskId)))
      (match r' with
        | (w, .error e) => (w, .error e)
        | (w, .ok reply) => (w, .ok (reply.toDict taskId))) := by
  obtain ⟨w, reply⟩ := r
  obtain ⟨w', reply'⟩ := r'
  rintro ⟨hworld, hreply⟩
  cases hreply
  cases reply <;> exact ⟨hworld, rfl⟩

theorem retryTask_agree (h : WorldAgree w w') (ha : AnswersAgree env.answer answer)
    (taskId : Json) : RepliesAgree (retryTask env w taskId)
      (retryTask { env with answer := answer } w' taskId) := by
  have hinfo : ∀ id, getTaskInfo { env with answer := answer } id = getTaskInfo env id :=
    fun _ => rfl
  unfold retryTask
  simp only [hinfo]
  split
  · exact ⟨h, rfl⟩
  · exact ⟨h, rfl⟩
  · split
    · exact ⟨h, rfl⟩
    · exact ⟨h, rfl⟩
    · split
      · exact ⟨h, rfl⟩
      · split
        · exact ⟨h, rfl⟩
        · exact call_agree h ha _ _ _

theorem revokeTask_agree (h : WorldAgree w w') (ha : AnswersAgree env.answer answer)
    (taskId terminate : Json) : RepliesAgree (revokeTask env w taskId terminate)
      (revokeTask { env with answer := answer } w' taskId terminate) := by
  unfold revokeTask
  dsimp only
  split
  · exact ⟨h, rfl⟩
  · exact ⟨h, rfl⟩
  · split
    · exact ⟨h, rfl⟩
    · exact call_agree h ha _ _ _

theorem executeTask_agree (h : WorldAgree w w') (ha : AnswersAgree env.answer answer) (name : Json)
    (action : Dict) : RepliesAgree (executeTask env w name action)
      (executeTask { env with answer := answer } w' name action) := by
  have hparse : ∀ v, parseIsoDatetime { env with answer := answer } v = parseIsoDatetime env v :=
    fun _ => rfl
  unfold executeTask
  simp only [hparse]
  split
  · exact ⟨h, rfl⟩
  · split
    · exact ⟨h, rfl⟩
    · exact ⟨h, rfl⟩
    · split
      · exact ⟨h, rfl⟩
      · exact ⟨h, rfl⟩
      · split
        · exact ⟨h, rfl⟩
        · exact call_agree h ha _ _ _

variable (env answer) in
theorem sweepWorkers_agree (url : Json) (timeout : Int) (hosts : List String)
    (h : WorldAgree w w') : RepliesAgree (sweepWorkers env url timeout hosts w)
      (sweepWorkers { env with answer := answer } url timeout hosts w') := by
  induction hosts generalizing w w' with
  | nil => exact ⟨h, rfl⟩
  | cons host hosts ih =>
    unfold sweepWorkers
    rw [h.notified]
    split
    · exact ih h
    · split
      · have hnext : WorldAgree { w with offlineNotified := w'.offlineNotified ++ [host] }
            { w' with offlineNotified := w'.offlineNotified ++ [host] } := ⟨h.sent, rfl⟩
        have hrest := ih (hnext.send (.post url (buildWorkerOfflinePayload env.lib host))
          (.post url (buildWorkerOfflinePayload env.lib host)))
        exact ⟨hrest.world, congrArg (· + 1) hrest.reply⟩
      · exact ih h

theorem fireAction_agree (hagree : SafeAgree event event') (h : WorldAgree w w')
    (ha : AnswersAgree env.answer answer) (a : Automation) (action : Dict) (type : Json) :
    (fireAction env a event action w type = none ∧
      fireAction { env with answer := answer } a event' action w' type = none) ∨
    ∃ r r', fireAction env a event action w type = some r ∧
      fireAction { env with answer := answer } a event' action w' type = some r' ∧
      RepliesAgree r r' := by
  have huuid : event.get "uuid" = event'.get "uuid" := hagree.get (by decide)
  have hname : event.get "name" = event'.get "name" := hagree.get (by decide)
  have htype : event.get "type" = event'.get "type" := hagree.get (by decide)
  unfold fireAction
  split
  · refine .inr ⟨_, _, rfl, rfl, h.sendOr ?_⟩
    unfold fireLog
    rw [htype]
  · refine .inr ⟨_, _, rfl, rfl, h.sendOr ?_⟩
    unfold fireSlackWebhook webhookUrl
    dsimp only
    split
    · rfl
    · split <;> simp only [Except.map]
  · refine .inr ⟨_, _, rfl, rfl, h.sendOr ?_⟩
    unfold fireWebhook
    dsimp only
    split <;> rfl
  · refine .inr ⟨_, _, rfl, rfl, ?_⟩
    unfold fireRetryTask
    rw [huuid]
    dsimp only
    split
    · exact ⟨h, rfl⟩
    · exact (retryTask_agree h ha ..).toDict _
  · refine .inr ⟨_, _, rfl, rfl, ?_⟩
    unfold fireExecuteTask
    rw [hname]
    dsimp only
    split
    · exact ⟨h, rfl⟩
    · exact (executeTask_agree h ha ..).toDict _
  · refine .inr ⟨_, _, rfl, rfl, ?_⟩
    unfold fireRevokeTask
    rw [huuid]
    dsimp only
    split
    · exact ⟨h, rfl⟩
    · exact (revokeTask_agree h ha ..).toDict _
  · refine .inr ⟨_, _, rfl, rfl, ?_⟩
    unfold fireCheckWorkersOffline webhookUrl
    dsimp only
    split
    · exact ⟨h, rfl⟩
    · split
      · exact ⟨h, rfl⟩
      · next timeout _ =>
        have hr := sweepWorkers_agree env answer
          ((action.get "webhook_url").or (jsonOf .str env.settings.alertWebhookUrl)) timeout
          (hostnames env.workerRows) h
        exact ⟨hr.world, by rw [hr.reply]⟩
  · exact .inl ⟨rfl, rfl⟩

theorem dispatchList_agree (hagree : SafeAgree event event') (h : WorldAgree w w')
    (ha : AnswersAgree env.answer answer) (a : Automation) (actions fired : List Json) :
    RepliesAgree (dispatchList env a event actions w fired)
      (dispatchList { env with answer := answer } a event' actions w' fired) := by
  induction actions generalizing w w' fired with
  | nil => exact ⟨h, rfl⟩
  | cons action actions ih =>
    cases action with
    | obj action =>
      simp only [dispatchList]
      rcases fireAction_agree hagree h ha a action (Dict.get action "type") with
        ⟨hnone, hnone'⟩ | ⟨⟨v, r⟩, ⟨v', r'⟩, hr, hr', hw, heq⟩
      · rw [hnone, hnone']
        exact ih h fired
      · cases heq
        rw [hr, hr']
        cases r <;> exact ih hw _
    | _ => exact ⟨h, rfl⟩

theorem dispatchActions_agree (hagree : SafeAgree event event') (h : WorldAgree w w')
    (ha : AnswersAgree env.answer answer) (a : Automation) :
    RepliesAgree (dispatchActions env a event w)
      (dispatchActions { env with answer := answer } a event' w') := by
  unfold dispatchActions
  split
  · exact ⟨h, rfl⟩
  · exact dispatchList_agree hagree h ha a _ []

end Actions

/-! ## Evaluations -/

structure SessionAgree (s s' : Session) : Prop where
  world : WorldAgree s.world s'.world
  runs : s.runs = s'.runs
  dispatched : s.dispatched = s'.dispatched

section Evaluations

variable {env : Env} {answer : List Effect → Effect → Except PyErr String} {event event' : Dict}
  {s s' : Session}

theorem runOf_congr (h : SafeAgree event event') (trigger : String) (a : Row Automation)
    (passed : Bool) (actionsFired : Json) (skipped : Option Skip) :
    runOf trigger event a passed actionsFired skipped =
      runOf trigger event' a passed actionsFired skipped := by
  unfold runOf runDetails
  rw [h.safeSnapshot]

theorem SessionAgree.add (h : SessionAgree s s') (now : Int) (run : AutomationRun) :
    SessionAgree (s.add now run) (s'.add now run) where
  world := h.world
  runs := by rw [Session.add, Session.add, h.runs]
  dispatched := h.dispatched

/-- The loop body on both events: one exception or none, and one run. -/
theorem evaluateAutomation_agree (hagree : SafeAgree event event') (h : SessionAgree s s')
    (ha : AnswersAgree env.answer answer) {a : Row Automation} (hsafe : SafeConditions a.val)
    (trigger : String) :
    (evaluateAutomation env trigger event a s).2 =
        (evaluateAutomation { env with answer := answer } trigger event' a s').2 ∧
      SessionAgree (evaluateAutomation env trigger event a s).1
        (evaluateAutomation { env with answer := answer } trigger event' a s').1 := by
  have hdecision : decision env event a s.runs.rows =
      decision { env with answer := answer } event' a s'.runs.rows := by
    unfold decision
    rw [conditionsPassed_congr hagree env.lib hsafe, h.runs]
  unfold evaluateAutomation
  rw [hdecision]
  simp only [runOf_congr hagree]
  split
  · exact ⟨rfl, h⟩
  · exact ⟨rfl, h.add _ _⟩
  · exact ⟨rfl, h.add _ _⟩
  · obtain ⟨hw, hr⟩ := dispatchActions_agree hagree h.world ha a.val
    generalize dispatchActions env _ _ _ = x at hw hr ⊢
    generalize dispatchActions _ _ _ s'.world = x' at hw hr ⊢
    obtain ⟨v, r⟩ := x
    obtain ⟨v', r'⟩ := x'
    cases hr
    rw [h.runs, h.dispatched]
    cases r with
    | error e => exact ⟨rfl, hw, rfl, rfl⟩
    | ok fired => exact ⟨rfl, hw, rfl, rfl⟩

/-- Loops with related bodies stop alike, in related states. -/
theorem forEach_related {α σ : Type} {body body' : α → σ → σ × Option PyErr} {R : σ → σ → Prop}
    {as : List α} (hbody : ∀ a ∈ as, ∀ s s', R s s' →
      (body a s).2 = (body' a s').2 ∧ R (body a s).1 (body' a s').1) {s s' : σ} (h : R s s') :
    (forEach body as s).2 = (forEach body' as s').2 ∧
      R (forEach body as s).1 (forEach body' as s').1 := by
  induction as generalizing s s' with
  | nil => exact ⟨rfl, h⟩
  | cons a as ih =>
    obtain ⟨herr, hnext⟩ := hbody a List.mem_cons_self s s' h
    cases hr : (body a s).2 with
    | some e =>
      rw [forEach_cons_some (by rw [hr]; rfl), forEach_cons_some (by rw [← herr, hr]; rfl)]
      exact ⟨herr, hnext⟩
    | none =>
      rw [forEach_cons_none (by rw [hr]; rfl), forEach_cons_none (by rw [← herr, hr]; rfl)]
      exact ih (fun b hb => hbody b (List.mem_cons_of_mem a hb)) hnext

end Evaluations

/-- On two events that agree on the safe fields, from one state and with the same answers, an
evaluation records the same runs: one automation whose conditions are safe, and a whole pass over
such automations. -/
theorem audit_log_independent (env : Env) (answer : List Effect → Effect → Except PyErr String)
    (ha : AnswersAgree env.answer answer) (event event' : Dict) (hagree : SafeAgree event event') :
    (∀ trigger (a : Row Automation) (s : Session), SafeConditions a.val →
      (evaluateAutomation env trigger event a s).1.runs =
          (evaluateAutomation { env with answer := answer } trigger event' a s).1.runs ∧
        (evaluateAutomation env trigger event a s).2 =
          (evaluateAutomation { env with answer := answer } trigger event' a s).2) ∧
    ∀ eventType (scan : List (Row Automation)) (t : Table AutomationRun) (w : World),
      (∀ a ∈ scan, matchesEvent eventType a = true → SafeConditions a.val) →
      (evaluateEvent env eventType event scan t w).runs =
          (evaluateEvent { env with answer := answer } eventType event' scan t w).runs ∧
        (evaluateEvent env eventType event scan t w).raised =
          (evaluateEvent { env with answer := answer } eventType event' scan t w).raised := by
  have hself : ∀ s : Session, SessionAgree s s := fun s => ⟨⟨rfl, rfl⟩, rfl, rfl⟩
  constructor
  · intro trigger a s hsafe
    obtain ⟨herr, hnext⟩ := evaluateAutomation_agree hagree (hself s) ha hsafe trigger
    exact ⟨hnext.runs, herr⟩
  · intro eventType scan t w hsafe
    have hbody : ∀ a ∈ scan.filter (matchesEvent eventType), ∀ s s', SessionAgree s s' →
        (evaluateAutomation env eventType event a s).2 =
            (evaluateAutomation { env with answer := answer } eventType event' a s').2 ∧
          SessionAgree (evaluateAutomation env eventType event a s).1
            (evaluateAutomation { env with answer := answer } eventType event' a s').1 := by
      intro a hmem s s' hs
      obtain ⟨hmem, hmatches⟩ := List.mem_filter.mp hmem
      exact evaluateAutomation_agree hagree hs ha (hsafe a hmem hmatches) eventType
    obtain ⟨herr, hnext⟩ := forEach_related hbody (hself ⟨w, t, []⟩)
    unfold evaluateEvent
    rw [Pass.runs_finish, Pass.runs_finish, Pass.raised_finish, Pass.raised_finish, herr,
      hnext.runs]
    exact ⟨rfl, rfl⟩

/-- A webhook that sends the result, then a task named in the action. -/
def resultHook : Row Automation where
  id := 1
  createdAt := 0
  val := { name := "result-hook", triggerType := "event", eventType := some "task-failed",
           conditions := .store (.arr [.obj [("field", .str "exception"), ("op", .str "exists")]]),
           actions := .store (.arr [
             .obj [("type", .str "webhook"), ("url", .str "http://hook"),
               ("payload", .str "\x7bevent.result\x7d")],
             .obj [("type", .str "execute_task"), ("name", .str "clean")]]) }

/-- The posts differ, the runs do not. -/
theorem audit_log_independent_resultHook :
    (evaluateEvent (.idle 0) "task-failed" (failedWith "boom" "secret") [resultHook] .empty
      {}).runs =
    (evaluateEvent (.idle 0) "task-failed" (failedWith "boom" "") [resultHook] .empty
      {}).runs := by
  refine ((audit_log_independent (.idle 0) (Env.idle 0).answer (fun _ _ _ _ => rfl)
    (failedWith "boom" "secret") (failedWith "boom" "") (by decide)).2 "task-failed" [resultHook]
      .empty {} ?_).1
  intro a ha _
  rw [List.mem_singleton.mp ha]
  rintro conditions ⟨⟩ condition path hmem hfield -
  cases List.mem_singleton.mp hmem
  cases hfield
  decide

end Taskowl
