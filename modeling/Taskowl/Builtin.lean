import Taskowl.Receiver

/-!
# The built-in alerts at work

The rows `seed_builtin_automations` writes into an empty table, the one that
each event type selects, and what evaluating it sends.
-/

namespace Taskowl

open Lib Py

/-! ## The seeded rows -/

theorem ensureAll_of_fresh {now : Int} {t t' : Table Automation} {ds : List Definition}
    (hnames : (t.vals.map (·.name) ++ ds.map (·.name)).Nodup) (hok : ensureAll now t ds = .ok t') :
    t'.vals = t.vals ++ ds.map (·.automation now) := by
  induction ds generalizing t with
  | nil =>
    cases hok
    exact (List.append_nil _).symm
  | cons d ds ih =>
    have hfresh : d.name ∉ t.vals.map (·.name) := fun hin =>
      (List.nodup_append.mp hnames).2.2 _ hin _ List.mem_cons_self rfl
    unfold ensureAll ensureAutomation at hok
    rw [if_neg hfresh] at hok
    cases hb : bindInt 31 (jsonOf .int d.scheduleSeconds) with
    | error e =>
      rw [hb] at hok
      cases hok
    | ok s =>
      rw [hb] at hok
      have hnames' : ((t.insert now (d.automation now)).vals.map (·.name) ++
          ds.map (·.name)).Nodup := by
        rw [Table.vals_insert, List.map_append, List.append_assoc]
        exact hnames
      rw [ih hnames' hok, Table.vals_insert, List.append_assoc]
      rfl

structure Alerting (settings : Settings) (url : String) : Prop where
  webhook : settings.alertWebhookUrl = some url
  set : url ≠ ""

theorem Alerting.definitions {settings : Settings} {url : String} (h : Alerting settings url) :
    seedDefinitions settings =
      (if settings.alertOnTaskFailed then [alertTaskFailed url] else []) ++
        (match settings.alertSlowTaskSeconds with
          | some threshold => [alertSlowTask url threshold]
          | none => []) ++
        (if settings.alertOnWorkerOffline then
          [alertWorkerOffline url, alertWorkerOfflineSweep url settings.alertWorkerCheckSeconds]
        else []) := by
  unfold seedDefinitions
  rw [h.webhook]
  split
  · next heq => cases heq
  · next heq => cases heq; exact absurd rfl h.set
  · next heq => cases heq; rfl

/-- A seeding that succeeds fills an empty table with every definition. -/
theorem Alerting.seeded {settings : Settings} {url : String} (h : Alerting settings url)
    {now : Int} {db : Db} {reply : OpReply} (hempty : db.automations.rows = [])
    (hok : (seedBuiltinAutomations settings now db).2 = .ok reply) :
    (seedBuiltinAutomations settings now db).1.automations.vals =
      (seedDefinitions settings).map (·.automation now) := by
  have hvals : db.automations.vals = [] := by
    unfold Table.vals
    rw [hempty]
    rfl
  have hnames : (db.automations.vals.map (·.name) ++
      (seedDefinitions settings).map (·.name)).Nodup := by
    rw [hvals, h.definitions]
    cases settings.alertOnTaskFailed <;> cases settings.alertSlowTaskSeconds <;>
      cases settings.alertOnWorkerOffline <;>
      simp [alertTaskFailed, alertSlowTask, alertWorkerOffline, alertWorkerOfflineSweep]
  unfold seedBuiltinAutomations at hok ⊢
  cases he : ensureAll now db.automations (seedDefinitions settings) with
  | error e =>
    rw [he] at hok
    cases hok
  | ok t =>
    show t.vals = _
    rw [ensureAll_of_fresh hnames he, hvals]
    rfl

/-! ## The row an event selects -/

def alertOn (settings : Settings) (url type : String) : Option Definition :=
  if type = "task-failed" then
    if settings.alertOnTaskFailed then some (alertTaskFailed url) else none
  else if type = "task-succeeded" then settings.alertSlowTaskSeconds.map (alertSlowTask url)
  else if type = "worker-offline" then
    if settings.alertOnWorkerOffline then some (alertWorkerOffline url) else none
  else none

theorem Alerting.definitions_filter {settings : Settings} {url : String}
    (h : Alerting settings url) (now : Int) (type : String) :
    ((seedDefinitions settings).map (·.automation now)).filter
        (fun a => a.enabled && a.triggerType == "event" && a.eventType == some type) =
      ((alertOn settings url type).map (·.automation now)).toList := by
  rw [h.definitions]
  unfold alertOn
  by_cases hf : type = "task-failed"
  · subst hf
    cases settings.alertOnTaskFailed <;> cases settings.alertSlowTaskSeconds <;>
      cases settings.alertOnWorkerOffline <;> rfl
  · by_cases hs : type = "task-succeeded"
    · subst hs
      cases settings.alertOnTaskFailed <;> cases settings.alertSlowTaskSeconds <;>
        cases settings.alertOnWorkerOffline <;> rfl
    · by_cases ho : type = "worker-offline"
      · subst ho
        cases settings.alertOnTaskFailed <;> cases settings.alertSlowTaskSeconds <;>
          cases settings.alertOnWorkerOffline <;> rfl
      · rw [if_neg hf, if_neg hs, if_neg ho]
        cases settings.alertOnTaskFailed <;> cases settings.alertSlowTaskSeconds <;>
          cases settings.alertOnWorkerOffline <;>
          simp [Definition.automation, alertTaskFailed, alertSlowTask, alertWorkerOffline,
            alertWorkerOfflineSweep, Ne.symm hf, Ne.symm hs, Ne.symm ho]

theorem Alerting.definitions_periodic {settings : Settings} {url : String}
    (h : Alerting settings url) (now : Int) :
    ((seedDefinitions settings).map (·.automation now)).filter
        (fun a => a.enabled && a.triggerType == "periodic") =
      if settings.alertOnWorkerOffline then
        [(alertWorkerOfflineSweep url settings.alertWorkerCheckSeconds).automation now]
      else [] := by
  rw [h.definitions]
  cases settings.alertOnTaskFailed <;> cases settings.alertSlowTaskSeconds <;>
    cases settings.alertOnWorkerOffline <;> rfl

theorem scan_filter {α : Type} {t : Table α} {scan : List (Row α)} (hscan : scan.Perm t.rows)
    {p : α → Bool} {v : Option α} (hv : t.vals.filter p = v.toList) :
    ∃ o : Option (Row α), scan.filter (fun r => p r.val) = o.toList ∧ o.map (·.val) = v := by
  have hperm : ((scan.filter fun r => p r.val).map (·.val)).Perm v.toList := by
    rw [← hv, Table.vals, List.filter_map]
    exact (hscan.filter _).map _
  cases v with
  | none =>
    have hnil : (scan.filter fun r => p r.val).map (·.val) = [] := hperm.eq_nil
    exact ⟨none, List.map_eq_nil_iff.mp hnil, rfl⟩
  | some a =>
    have hone : (scan.filter fun r => p r.val).map (·.val) = [a] := List.perm_singleton.mp hperm
    obtain ⟨r, hr, hra⟩ := List.map_eq_singleton_iff.mp hone
    exact ⟨some r, hr, congrArg some hra⟩

/-! ## What evaluating it sends -/

section Evaluation

variable {env : Env} {event : Dict} {r : Row Automation} {d : Definition} {t : Int} {s : Session}

theorem skipReason_seeded (hr : r.val = d.automation t) (now : Int) (runs : Runs) :
    skipReason r now runs = .ok none := by
  unfold skipReason checkCircuitBreaker checkRateLimits coolingDown overLimit
  rw [hr]
  rfl

theorem world_evaluateAutomation (hr : r.val = d.automation t) {passed : Bool}
    (hc : conditionsPassed env.lib event r.val = .ok passed) (trigger : String) :
    (evaluateAutomation env trigger event r s).1.world =
      if passed then (dispatchActions env r.val event s.world).1 else s.world := by
  unfold evaluateAutomation decision
  rw [hc, skipReason_seeded hr]
  cases passed with
  | false => rfl
  | true =>
    dsimp only
    rcases dispatchActions env r.val event s.world with ⟨w, e | fired⟩ <;> rfl

theorem world_forEach_toList {body : Row Automation → Session → Session × Option PyErr}
    (o : Option (Row Automation)) : (forEach body o.toList s).1.world =
      match o with
      | none => s.world
      | some r => (body r s).1.world := by
  cases o with
  | none => rfl
  | some r =>
    show (forEach body [r] s).1.world = (body r s).1.world
    unfold forEach
    rcases body r s with ⟨s', _ | e⟩ <;> rfl

def slackPayload (lib : PyLib) (event : Dict) (text : String) (fields : List (String × Json)) :
    Json :=
  .obj [("text", .str text), ("attachments", .arr [.obj [("color", .str "warning"),
    ("fields", .arr (fields.map fun kv =>
      .obj [("title", .str kv.1), ("value", interpolate lib event kv.2)]))]])]

theorem or_of_truthy {v w : Json} (h : v.truthy = true) : v.or w = v := if_pos h

theorem truthy_str {s : String} (h : s ≠ "") : (Json.str s).truthy = true := by
  simpa [Json.truthy] using h

theorem fireSlackWebhook_eq {a : Automation} {action : Dict} {url text : String}
    {kv : String × Json} {fields : List (String × Json)}
    (hu : action.get "webhook_url" = .str url) (hurl : url ≠ "")
    (ht : action.get "text" = .str text) (htext : text ≠ "")
    (hf : action.get "fields" = .obj (kv :: fields)) :
    fireSlackWebhook env a event action =
      .ok (.post (.str url) (slackPayload env.lib event text (kv :: fields))) := by
  have hwebhook : webhookUrl env action = .str url := by
    rw [webhookUrl, hu, or_of_truthy (truthy_str hurl)]
  unfold fireSlackWebhook
  rw [hwebhook, ht, hf, or_of_truthy (truthy_str htext)]
  dsimp only
  rw [truthy_str hurl]
  rfl

theorem dispatch_slack {a : Automation} {url text : String} {kv : String × Json}
    {fields : List (String × Json)} (ha : a.actions = .store (slackAction url text (kv :: fields)))
    (hurl : url ≠ "") (htext : text ≠ "") (w : World) :
    (dispatchActions env a event w).1 =
      w.send (.post (.str url) (slackPayload env.lib event text (kv :: fields))) := by
  let action : Dict := [("type", .str "slack_webhook"), ("webhook_url", .str url),
    ("text", .str text), ("fields", .obj (kv :: fields))]
  have hfire : fireAction env a event action w (.str "slack_webhook") =
      some (w.sendOr (.ok (.post (.str url) (slackPayload env.lib event text (kv :: fields))))) :=
    congrArg (fun r => some (w.sendOr r)) (fireSlackWebhook_eq rfl hurl rfl htext rfl)
  unfold dispatchActions
  rw [ha]
  show (dispatchList env a event [.obj action] w []).1 = _
  unfold dispatchList
  dsimp only
  rw [show Dict.get action "type" = .str "slack_webhook" from rfl, hfire]
  rfl

end Evaluation

end Taskowl
