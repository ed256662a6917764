import Taskowl.Interpolation
import Taskowl.Payload

/-!
# Parameters of actions

What a branch of `_dispatch_actions` hands over: a log record, the text and
fields or the payload of a webhook, or the arguments of a task action. A
branch is the call that it makes (`fireAction_of_call`). The two webhooks
replace the references in the values of the fields and in the payload; what
the other parameters hold is handed over as it is.
-/

namespace Taskowl

open Lib Py

inductive ActionType where
  | log
  | slackWebhook
  | webhook
  | retryTask
  | executeTask
  | revokeTask
  deriving DecidableEq, Repr

def ActionType.text : ActionType → String
  | .log => "log"
  | .slackWebhook => "slack_webhook"
  | .webhook => "webhook"
  | .retryTask => "retry_task"
  | .executeTask => "execute_task"
  | .revokeTask => "revoke_task"

/-- What a branch hands over. -/
inductive Call where
  /-- `logger.log(level, message)`. -/
  | log (level : Nat) (message : Json)
  /-- The text and the fields of the body sent to `url`. -/
  | slackWebhook (url text : Json) (fields : List (String × Json))
  /-- `WebhookClient(url).send(payload)`. -/
  | webhook (url payload : Json)
  /-- `retry_task(task_id, session)`. -/
  | retry (taskId : Json)
  /-- `execute_task(name, args=.., .., priority=..)`. -/
  | execute (name : Json) (params : Dict)
  /-- `revoke_task(task_id, terminate, session)`. -/
  | revoke (taskId terminate : Json)
  deriving DecidableEq, Repr

def Call.args : Call → Dict
  | .log _ message => [("message", message)]
  | .slackWebhook _ text fields => [("text", text), ("fields", .obj fields)]
  | .webhook _ payload => [("payload", payload)]
  | .retry taskId => [("task_id", taskId)]
  | .execute name params =>
    [("name", name), ("args", params.get "args"), ("kwargs", params.get "kwargs"),
      ("queue", params.get "queue"), ("countdown", params.get "countdown"),
      ("eta", params.get "eta"), ("expires", params.get "expires"),
      ("priority", params.get "priority")]
  | .revoke taskId terminate => [("task_id", taskId), ("terminate", terminate)]

def slackBody (text : Json) (fields : List (String × Json)) : Json :=
  let fields := fields.map fun kv => Json.obj [("title", .str kv.1), ("value", kv.2)]
  .obj [("text", text), ("attachments",
    .arr [.obj [("color", .str "warning"), ("fields", (Json.arr fields).or .null)]])]

def Call.perform (env : Env) (w : World) : Call → World × Except PyErr Dict
  | .log level message => (w.send (.log level message), .ok [])
  | .slackWebhook url text fields => (w.send (.post url (slackBody text fields)), .ok [])
  | .webhook url payload => (w.send (.post url payload), .ok [])
  | .retry taskId => match retryTask env w taskId with
    | (w, .error e) => (w, .error e)
    | (w, .ok r) => (w, .ok (r.toDict fun _ => taskId))
  | .execute name params => match executeTask env w name params with
    | (w, .error e) => (w, .error e)
    | (w, .ok r) => (w, .ok (r.toDict .str))
  | .revoke taskId terminate => match revokeTask env w taskId terminate with
    | (w, .error e) => (w, .error e)
    | (w, .ok r) => (w, .ok (r.toDict fun _ => taskId))

def slackCall (env : Env) (automation : Automation) (event action : Dict) : Option Call :=
  let url := webhookUrl env action
  if !url.truthy then none
  else match (action.get "fields").or (.obj []) with
    | .obj kvs =>
      let text := (action.get "text").or (.str s!"Automation '{automation.name}' fired")
      some (.slackWebhook url text (kvs.map fun kv => (kv.1, interpolate env.lib event kv.2)))
    | _ => none

/-- The call of a branch; `none` when it raises or returns before. -/
def actionCall (env : Env) (automation : Automation) (event action : Dict) :
    ActionType → Option Call
  | .log => match fireLog env.lib automation event action with
    | .ok (.log level message) => some (.log level message)
    | _ => none
  | .slackWebhook => slackCall env automation event action
  | .webhook => match fireWebhook env.lib automation event action with
    | .ok (.post url payload) => some (.webhook url payload)
    | _ => none
  | .retryTask =>
    let taskId := (action.get "task_id").or (event.get "uuid")
    if taskId.truthy then some (.retry taskId) else none
  | .executeTask =>
    let name := (action.get "name").or (event.get "name")
    if name.truthy then some (.execute name action) else none
  | .revokeTask =>
    let taskId := (action.get "task_id").or (event.get "uuid")
    let terminate := (action.lookup "terminate").getD (.bool false)
    if taskId.truthy then some (.revoke taskId terminate) else none

section Branches

variable {env : Env} {automation : Automation} {event action : Dict} {w : World}
  {type : ActionType} {call : Call}

/-- A branch is its call. -/
theorem fireAction_of_call (h : actionCall env automation event action type = some call) :
    fireAction env automation event action w (.str type.text) = some (call.perform env w) := by
  cases type with
  | log | webhook =>
    simp only [actionCall] at h
    split at h
    · next hfire =>
      cases h
      simp only [ActionType.text, fireAction, hfire]
      rfl
    · cases h
  | slackWebhook =>
    simp only [actionCall, slackCall] at h
    split at h
    · cases h
    · next hurl =>
      split at h
      · next kvs hfields =>
        cases h
        simp only [ActionType.text, fireAction, fireSlackWebhook, hurl, hfields,
          Bool.false_eq_true, if_false]
        simp only [World.sendOr, Call.perform, slackBody, List.map_map]
        rfl
      · cases h
  | retryTask | executeTask | revokeTask =>
    simp only [actionCall] at h
    split at h
    · next htrue =>
      cases h
      simp only [ActionType.text, fireAction, fireRetryTask, fireExecuteTask, fireRevokeTask,
        htrue, Bool.not_true, Bool.false_eq_true, if_false]
      rfl
    · cases h

theorem fst_of_raised {x : Except PyErr Effect} {r : World × Except PyErr Dict}
    (hx : ∀ e, x ≠ .ok e) (hr : some (w.sendOr x) = some r) : r.1 = w := by
  cases hr
  cases x with
  | error e => rfl
  | ok e => exact absurd rfl (hx e)

/-- A branch without a call hands nothing over. -/
theorem fireAction_of_noCall (h : actionCall env automation event action type = none)
    {r : World × Except PyErr Dict}
    (hr : fireAction env automation event action w (.str type.text) = some r) : r.1 = w := by
  cases type with
  | log =>
    simp only [actionCall] at h
    refine fst_of_raised (fun e he => ?_) hr
    rw [he] at h
    unfold fireLog at he
    split at he
    · split at he
      · cases he
      · cases he
        cases h
    · cases he
  | slackWebhook =>
    simp only [actionCall, slackCall] at h
    refine fst_of_raised (fun e he => ?_) hr
    unfold fireSlackWebhook at he
    dsimp only at he
    split at he
    · cases he
    · next hurl =>
      rw [if_neg hurl] at h
      split at he
      · next hfields =>
        rw [hfields] at h
        cases h
      · cases he
  | webhook =>
    simp only [actionCall] at h
    refine fst_of_raised (fun e he => ?_) hr
    rw [he] at h
    unfold fireWebhook at he
    dsimp only at he
    split at he
    · cases he
    · cases he
      cases h
  | retryTask | executeTask | revokeTask =>
    simp only [actionCall] at h
    split at h
    · cases h
    · next hfalse =>
      rw [Bool.not_eq_true] at hfalse
      simp only [ActionType.text, fireAction, fireRetryTask, fireExecuteTask, fireRevokeTask,
        hfalse, Bool.not_false, if_true, Option.some.injEq] at hr
      rw [← hr]

end Branches

/-! ## References in what is handed over -/

/-- A value handed over is that of the action, with its references replaced. -/
def ArgReplaced (lib : PyLib) (event action : Dict) (arg : String × Json) : Prop :=
  (action.get arg.1).truthy = true →
    Shaped (Replaced lib event) (action.get arg.1) arg.2

/-- The level of a log record is the one that the action names, with its references replaced. -/
def LevelReplaced (lib : PyLib) (event action : Dict) (level : Nat) : Prop :=
  ∀ s t, action.get "level" = .str s → s ≠ "" → Replaced lib event s t →
    logLevel (lib.upper t) = .ok level

/-- What the branch hands over has its references replaced. -/
def ParamsReplaced (env : Env) (automation : Automation) (event action : Dict)
    (type : ActionType) : Prop :=
  ∀ call, actionCall env automation event action type = some call →
    (∀ arg ∈ call.args, ArgReplaced env.lib event action arg) ∧
    ∀ level message, call = .log level message → LevelReplaced env.lib event action level

def ActionType.rawParams : ActionType → List String
  | .log => ["message"]
  | .slackWebhook => ["text"]
  | .webhook => []
  | .retryTask => ["task_id"]
  | .executeTask =>
    ["name", "args", "kwargs", "queue", "countdown", "eta", "expires", "priority"]
  | .revokeTask => ["task_id", "terminate"]

/-- The branch gets to its call. -/
def callBegins (env : Env) (event action : Dict) : ActionType → Bool
  | .log => match (action.get "level").or (.str "info") with
    | .str level => (logLevel (env.lib.upper level)).isOk
    | _ => false
  | .slackWebhook =>
    (webhookUrl env action).truthy && isObj ((action.get "fields").or (.obj []))
  | .webhook => (action.get "url").truthy
  | .executeTask => ((action.get "name").or (event.get "name")).truthy
  | .retryTask | .revokeTask => ((action.get "task_id").or (event.get "uuid")).truthy

/-- The event leaves alone the strings that a branch hands over as they are, and the level that a
log action names is the one that it names with its references replaced. -/
def ParamsLeftAlone (env : Env) (event action : Dict) (type : ActionType) : Prop :=
  callBegins env event action type = true →
    (∀ key ∈ type.rawParams, ∀ s ∈ strings (action.get key), Replaced env.lib event s s) ∧
    (type = .log → ∀ s t, action.get "level" = .str s → s ≠ "" → Replaced env.lib event s t →
      logLevel (env.lib.upper t) = logLevel (env.lib.upper s))

section Params

variable {env : Env} {automation : Automation} {lib : PyLib} {event action : Dict}

mutual

theorem shaped_self_iff {R : String → String → Prop} (v : Json) :
    Shaped R v v ↔ ∀ s ∈ strings v, R s s := by
  cases v with
  | str s => simp [Shaped, strings]
  | arr xs => simpa [Shaped, strings] using shapedList_self_iff xs
  | obj kvs => simpa [Shaped, strings] using shapedObj_self_iff kvs
  | _ => simp [Shaped, strings]

theorem shapedList_self_iff {R : String → String → Prop} (xs : List Json) :
    ShapedList R xs xs ↔ ∀ s ∈ stringsList xs, R s s := by
  cases xs with
  | nil => simp [ShapedList, stringsList]
  | cons x xs =>
    simp only [ShapedList, stringsList, List.forall_mem_append]
    rw [← shaped_self_iff x, ← shapedList_self_iff xs]
    simp

theorem shapedObj_self_iff {R : String → String → Prop} (kvs : List (String × Json)) :
    ShapedObj R kvs kvs ↔ ∀ s ∈ stringsObj kvs, R s s := by
  cases kvs with
  | nil => simp [ShapedObj, stringsObj]
  | cons kv kvs =>
    obtain ⟨k, x⟩ := kv
    simp only [ShapedObj, stringsObj, List.forall_mem_append]
    rw [← shaped_self_iff x, ← shapedObj_self_iff kvs]
    simp

end

theorem isSome_actionCall (type : ActionType) :
    (actionCall env automation event action type).isSome = callBegins env event action type := by
  cases type with
  | log =>
    unfold actionCall callBegins fireLog
    cases (action.get "level").or (.str "info") with
    | str level => cases hnumber : logLevel (env.lib.upper level) <;> simp only [hnumber] <;> rfl
    | _ => rfl
  | slackWebhook =>
    unfold actionCall callBegins slackCall
    dsimp only
    cases (webhookUrl env action).truthy with
    | false => rfl
    | true => cases (action.get "fields").or (.obj []) <;> rfl
  | webhook =>
    unfold actionCall callBegins fireWebhook
    dsimp only
    cases (action.get "url").truthy <;> rfl
  | retryTask | executeTask | revokeTask =>
    unfold actionCall callBegins
    dsimp only
    split
    · next h => exact h.symm
    · next h => exact (Bool.eq_false_iff.mpr h).symm

theorem strings_of_falsy {v : Json} (h : v.truthy = false) {s : String} (hs : s ∈ strings v) :
    s = "" := by
  cases v with
  | str t =>
    obtain rfl : s = t := by simpa [strings] using hs
    simpa [Json.truthy] using h
  | arr xs =>
    cases xs with
    | nil => cases hs
    | cons x xs => cases h
  | obj kvs =>
    cases kvs with
    | nil => cases hs
    | cons kv kvs => cases h
  | _ => cases hs

theorem argReplaced_raw {key : String} {x : Json}
    (hx : (action.get key).truthy = true → x = action.get key) :
    ArgReplaced lib event action (key, x) ↔
      ∀ s ∈ strings (action.get key), Replaced lib event s s := by
  unfold ArgReplaced
  cases htrue : (action.get key).truthy with
  | true =>
    rw [hx htrue, shaped_self_iff]
    simp
  | false =>
    have hempty : Replaced lib event "" "" := replaced_iff.mpr rfl
    refine ⟨fun _ s hs => ?_, fun _ h => by cases h⟩
    rw [strings_of_falsy htrue hs]
    exact hempty

theorem argReplaced_interpolate {key : String} {x : Json}
    (hx : (action.get key).truthy = true → x = interpolate lib event (action.get key)) :
    ArgReplaced lib event action (key, x) := by
  intro htrue
  rw [hx htrue]
  exact shaped_interpolate (replaced_interpolateStr lib event) _

theorem interpolateObj_eq_map (kvs : List (String × Json)) :
    interpolateObj lib event kvs = kvs.map fun kv => (kv.1, interpolate lib event kv.2) := by
  induction kvs with
  | nil => rfl
  | cons kv kvs ih => rw [interpolateObj, ih, List.map_cons]

theorem fireLog_eq_ok {e : Effect} (h : fireLog lib automation event action = .ok e) :
    ∃ name level message, (action.get "level").or (.str "info") = .str name ∧
      logLevel (lib.upper name) = .ok level ∧ e = .log level message ∧
      ((action.get "message").truthy = true → message = action.get "message") := by
  unfold fireLog at h
  split at h
  · next name hname =>
    split at h
    · cases h
    · next level hlevel =>
      cases h
      exact ⟨name, level, _, hname, hlevel, rfl, fun htrue => if_pos htrue⟩
  · cases h

theorem levelReplaced_iff {name : String} {level : Nat}
    (hname : (action.get "level").or (.str "info") = .str name)
    (hlevel : logLevel (lib.upper name) = .ok level) :
    LevelReplaced lib event action level ↔
      ∀ s t, action.get "level" = .str s → s ≠ "" → Replaced lib event s t →
        logLevel (lib.upper t) = logLevel (lib.upper s) := by
  have hsame : ∀ s, action.get "level" = .str s → s ≠ "" → s = name := by
    intro s hs hne
    have htrue : (action.get "level").truthy = true := by
      rw [hs]
      exact bne_iff_ne.mpr hne
    rw [show (action.get "level").or (.str "info") = action.get "level" from if_pos htrue, hs]
      at hname
    exact Json.str.inj hname
  unfold LevelReplaced
  constructor
  · intro h s t hs hne ht
    rw [hsame s hs hne, hlevel]
    exact h s t hs hne ht
  · intro h s t hs hne ht
    rw [h s t hs hne ht, hsame s hs hne, hlevel]

/-- What holds of a call, parameter by parameter. -/
theorem call_replaced_iff {type : ActionType} {call : Call}
    (h : actionCall env automation event action type = some call) :
    ((∀ arg ∈ call.args, ArgReplaced env.lib event action arg) ∧
      ∀ level message, call = .log level message →
        LevelReplaced env.lib event action level) ↔
    (∀ key ∈ type.rawParams, ∀ s ∈ strings (action.get key), Replaced env.lib event s s) ∧
      (type = .log → ∀ s t, action.get "level" = .str s → s ≠ "" →
        Replaced env.lib event s t → logLevel (env.lib.upper t) = logLevel (env.lib.upper s)) := by
  have hor : ∀ {v w : Json}, v.truthy = true → v.or w = v := fun hv => if_pos hv
  cases type with
  | log =>
    simp only [actionCall] at h
    split at h
    · next level message hfire =>
      cases h
      obtain ⟨name, _, _, hname, hlevel, heq, hmessage⟩ := fireLog_eq_ok hfire
      cases heq
      simp only [Call.args, ActionType.rawParams, List.forall_mem_singleton,
        argReplaced_raw hmessage, Call.log.injEq, forall_const]
      rw [← levelReplaced_iff hname hlevel]
      simp
    · cases h
  | slackWebhook =>
    simp only [actionCall, slackCall] at h
    split at h
    · cases h
    · split at h
      · next kvs hfields =>
        cases h
        have hvalues : ArgReplaced env.lib event action ("fields",
            .obj (kvs.map fun kv => (kv.1, interpolate env.lib event kv.2))) :=
          argReplaced_interpolate fun htrue => by
            rw [← interpolateObj_eq_map]
            have := (hor htrue).symm.trans hfields
            rw [this]
            rfl
        simp [Call.args, ActionType.rawParams, argReplaced_raw hor, hvalues]
      · cases h
  | webhook =>
    simp only [actionCall] at h
    split at h
    · next url payload hfire =>
      cases h
      have hpayload : ArgReplaced env.lib event action ("payload", payload) :=
        argReplaced_interpolate fun htrue => by
          unfold fireWebhook at hfire
          dsimp only at hfire
          split at hfire
          · cases hfire
          · cases hfire
            rw [hor htrue]
      simp [Call.args, ActionType.rawParams, hpayload]
    · cases h
  | retryTask =>
    simp only [actionCall] at h
    split at h
    · cases h
      simp [Call.args, ActionType.rawParams, argReplaced_raw hor]
    · cases h
  | executeTask =>
    simp only [actionCall] at h
    split at h
    · cases h
      simp [Call.args, ActionType.rawParams, argReplaced_raw hor,
        argReplaced_raw (fun _ => rfl)]
    · cases h
  | revokeTask =>
    simp only [actionCall] at h
    split at h
    · cases h
      have hterminate : (action.get "terminate").truthy = true →
          (action.lookup "terminate").getD (.bool false) = action.get "terminate" := by
        intro htrue
        unfold Dict.get at htrue ⊢
        cases hlookup : action.lookup "terminate" with
        | none =>
          rw [hlookup] at htrue
          cases htrue
        | some v => rfl
      simp [Call.args, ActionType.rawParams, argReplaced_raw hor, argReplaced_raw hterminate]
    · cases h

end Params

/-- What a branch hands over has its references replaced exactly when replacing them changes
nothing of the parameters that it hands over as they are. -/
theorem params_replaced_iff (env : Env) (automation : Automation) (event action : Dict)
    (type : ActionType) : ParamsReplaced env automation event action type ↔
      ParamsLeftAlone env event action type := by
  unfold ParamsReplaced ParamsLeftAlone
  have hbegins : (actionCall env automation event action type).isSome =
    callBegins env event action type := isSome_actionCall type
  rw [← hbegins]
  cases hcall : actionCall env automation event action type with
  | none => simp
  | some call =>
    rw [← call_replaced_iff hcall]
    simp

/-- A log action that names the task logs the reference. -/
theorem params_not_replaced : ¬ ParamsReplaced (Env.idle 0) hook [("uuid", .str "7")]
    [("type", .str "log"), ("message", .str "task \x7bevent.uuid\x7d")] .log := by
  intro h
  obtain ⟨hargs, -⟩ := h (.log 20 (.str "task \x7bevent.uuid\x7d")) (by decide +kernel)
  obtain ⟨t, ht, hreplaced⟩ := hargs _ List.mem_cons_self (by decide +kernel)
  cases ht
  exact absurd (replaced_iff.mp hreplaced) (by decide +kernel)

end Taskowl
