import Taskowl.Registry

/-!
# Definitions read back and stored again

`get_automation` gives out a definition as a document, and `update_automation`
and `create_automation` take documents in. A document that was read is one that
can be written: put back under its id it changes nothing, and posted under a
new name it makes an automation with the same definition. What a stored row
must satisfy for this is `Storable`, and every row of every history does.
-/

namespace Taskowl

open Lib Py

/-! ## Values that fit their columns -/

def FitsInt (x : Option Int) : Prop := ∀ n, x = some n → -2 ^ 31 ≤ n ∧ n < 2 ^ 31

structure Storable (a : Automation) : Prop where
  name : a.name.length ≤ 255
  triggerType : a.triggerType.length ≤ 20
  eventType : ∀ e, a.eventType = some e → e.length ≤ 50
  scheduleSeconds : FitsInt a.scheduleSeconds
  cooldownSeconds : FitsInt a.cooldownSeconds
  maxRunsPerWindow : FitsInt a.maxRunsPerWindow
  windowSeconds : FitsInt a.windowSeconds

section Binding

theorem length_of_bindStr {n : Nat} {v : Json} {s : String} (h : bindStr n v = .ok (some s)) :
    s.length ≤ n := by
  cases bindStr_eq_some h
  unfold bindStr at h
  dsimp only at h
  split at h
  · next hfits => exact hfits
  · cases h

theorem bindStr_of_length {n : Nat} {s : String} (h : s.length ≤ n) :
    bindStr n (.str s) = .ok (some s) := if_pos h

theorem fitsInt_of_bindInt {v : Json} {x : Option Int} (h : bindInt 31 v = .ok x) : FitsInt x := by
  intro n hn
  subst hn
  unfold bindInt at h
  split at h
  · cases h
  · cases h
    split <;> decide
  · split at h
    · next hfits =>
      cases h
      exact hfits
    · cases h
  · cases h

theorem bindInt_jsonOf {x : Option Int} (h : FitsInt x) : bindInt 31 (jsonOf .int x) = .ok x := by
  cases x with
  | none => rfl
  | some n => exact if_pos (h n rfl)

theorem bindStr_jsonOf {n : Nat} {x : Option String} (h : ∀ s, x = some s → s.length ≤ n) :
    bindStr n (jsonOf .str x) = .ok x := by
  cases x with
  | none => rfl
  | some s => exact bindStr_of_length (h s rfl)

theorem bindBool_bool (b : Bool) : bindBool (.bool b) = .ok (some b) := by cases b <;> rfl

end Binding

section Storing

variable {now : Int} {data merged : Dict} {a new : Automation}

theorem storable_bindNew (h : bindNew now data = .ok a) : Storable a := by
  simp only [bindNew, bind_eq_ok] at h
  obtain ⟨name, hname, enabled, -, trigger, htrigger, event, hevent, schedule, hschedule, cooldown,
    hcooldown, maxRuns, hmaxRuns, window, hwindow, ha⟩ := h
  cases ha
  exact ⟨length_of_bindStr (required_eq_ok hname), length_of_bindStr (required_eq_ok htrigger),
    fun e he => length_of_bindStr (hevent.trans (congrArg Except.ok he)),
    fitsInt_of_bindInt hschedule, fitsInt_of_bindInt hcooldown, fitsInt_of_bindInt hmaxRuns,
    fitsInt_of_bindInt hwindow⟩

theorem fitsInt_bindSet {field : String} {old x : Option Int} (hold : FitsInt old)
    (h : bindSet merged field (bindInt 31) old = .ok x) : FitsInt x := by
  rcases bindSet_eq_ok h with ⟨v, -, hbind⟩ | ⟨-, rfl⟩
  · exact fitsInt_of_bindInt hbind
  · exact hold

theorem storable_bindUpdate (ha : Storable a) (h : bindUpdate merged a = .ok new) :
    Storable new := by
  simp only [bindUpdate, bind_eq_ok] at h
  obtain ⟨name, hname, enabled, -, trigger, htrigger, event, hevent, schedule, hschedule,
    conditions, -, actions, -, cooldown, hcooldown, maxRuns, hmaxRuns, window, hwindow, breaker, -,
    hnew⟩ := h
  cases hnew
  refine ⟨?_, ?_, fun e he => ?_, fitsInt_bindSet ha.scheduleSeconds hschedule,
    fitsInt_bindSet ha.cooldownSeconds hcooldown, fitsInt_bindSet ha.maxRunsPerWindow hmaxRuns,
    fitsInt_bindSet ha.windowSeconds hwindow⟩
  · rcases bindSet_eq_ok hname with ⟨v, -, hbind⟩ | ⟨-, rfl⟩
    · exact length_of_bindStr (required_eq_ok hbind)
    · exact ha.name
  · rcases bindSet_eq_ok htrigger with ⟨v, -, hbind⟩ | ⟨-, rfl⟩
    · exact length_of_bindStr (required_eq_ok hbind)
    · exact ha.triggerType
  · rcases bindSet_eq_ok hevent with ⟨v, -, hbind⟩ | ⟨-, rfl⟩
    · exact length_of_bindStr (hbind.trans (congrArg Except.ok he))
    · exact ha.eventType e he

theorem storable_touch (h : Storable new) : Storable (touch now a new) := by
  unfold touch
  split
  · next heq => rw [← heq]; exact h
  · exact ⟨h.name, h.triggerType, h.eventType, h.scheduleSeconds, h.cooldownSeconds,
      h.maxRunsPerWindow, h.windowSeconds⟩

theorem fitsInt_of_binds {d : Definition} (h : d.Binds) : FitsInt d.scheduleSeconds := by
  obtain ⟨x, hx⟩ := h
  cases hs : d.scheduleSeconds with
  | none => nofun
  | some n =>
    rw [hs] at hx
    have hn : x = some n := (intBound_bindInt hx).int n rfl
    exact hn ▸ fitsInt_of_bindInt hx

theorem storable_seedDefinitions {settings : Settings} {d : Definition}
    (hd : d ∈ seedDefinitions settings) (hbinds : d.Binds) : Storable (d.automation now) := by
  have htexts : d.name.length ≤ 255 ∧ d.triggerType.length ≤ 20 ∧
      ∀ e, d.eventType = some e → e.length ≤ 50 := by
    unfold seedDefinitions at hd
    split at hd
    · cases hd
    · cases hd
    · simp only [List.mem_append] at hd
      rcases hd with (hd | hd) | hd
      · split at hd
        · rw [List.mem_singleton.mp hd]
          exact ⟨(by decide : "alert-task-failed".length ≤ 255), (by decide : "event".length ≤ 20),
            by rintro _ ⟨⟩; decide⟩
        · cases hd
      · split at hd
        · rw [List.mem_singleton.mp hd]
          exact ⟨(by decide : "alert-slow-task".length ≤ 255), (by decide : "event".length ≤ 20),
            by rintro _ ⟨⟩; decide⟩
        · cases hd
      · split at hd
        · rcases List.mem_pair.mp hd with rfl | rfl
          · exact ⟨(by decide : "alert-worker-offline".length ≤ 255),
              (by decide : "event".length ≤ 20), by rintro _ ⟨⟩; decide⟩
          · exact ⟨(by decide : "alert-worker-offline-sweep".length ≤ 255),
              (by decide : "periodic".length ≤ 20), nofun⟩
        · cases hd
  exact ⟨htexts.1, htexts.2.1, htexts.2.2, fitsInt_of_binds hbinds, nofun, nofun, nofun⟩

end Storing

/-! ## Every row of every history -/

def AllStorable (t : Table Automation) : Prop := ∀ a ∈ t.rows, Storable a.val

section Tables

variable {t t' : Table Automation} {db : Db}

theorem AllStorable.insert (h : AllStorable t) {now : Int} {a : Automation} (ha : Storable a) :
    AllStorable (t.insert now a) := by
  intro r hr
  rcases List.mem_append.mp hr with hr | hr
  · exact h r hr
  · rw [List.mem_singleton.mp hr]
    exact ha

theorem AllStorable.modify (h : AllStorable t) {id : Nat} {new : Automation}
    (hnew : Storable new) : AllStorable (t.modify id fun _ => new) := by
  intro r hr
  obtain ⟨u, hu, rfl⟩ := List.mem_map.mp hr
  split
  · exact hnew
  · exact h u hu

theorem allStorable_create (h : AllStorable db.automations) (now : Int) (data : Dict) :
    AllStorable (createAutomation now data db).1.automations := by
  unfold createAutomation
  split
  · exact h
  · split
    · exact h
    · split
      · exact h
      · split
        · exact h
        · split
          · exact h
          · next hbind => exact h.insert (storable_bindNew hbind)

theorem allStorable_update (h : AllStorable db.automations) (now : Int) (id : Nat) (data : Dict) :
    AllStorable (updateAutomation now id data db).1.automations := by
  rcases updateAutomation_cases now id data db with hsame | ⟨a, new, ha, -, hbind, -, hmodify⟩
  · rw [hsame]
    exact h
  · rw [hmodify]
    have hmem := (Table.get?_eq_some.mp ha).1
    exact h.modify (storable_touch (storable_bindUpdate (h a hmem) hbind))

theorem allStorable_toggle (h : AllStorable db.automations) (now : Int) (id : Nat) :
    AllStorable (toggleAutomation now id db).1.automations := by
  unfold toggleAutomation
  split
  · exact h
  · next a ha =>
    have hold := h a (Table.get?_eq_some.mp ha).1
    exact h.modify ⟨hold.name, hold.triggerType, hold.eventType, hold.scheduleSeconds,
      hold.cooldownSeconds, hold.maxRunsPerWindow, hold.windowSeconds⟩

theorem allStorable_delete (h : AllStorable db.automations) (id : Nat) :
    AllStorable (deleteAutomation id db).1.automations := by
  unfold deleteAutomation
  split
  · exact h
  · exact fun r hr => h r (List.mem_of_mem_filter hr)

theorem allStorable_ensureAll (h : AllStorable t) {now : Int} {ds : List Definition}
    (hds : ∀ d ∈ ds, d.Binds → Storable (d.automation now)) (hok : ensureAll now t ds = .ok t') :
    AllStorable t' := by
  induction ds generalizing t with
  | nil =>
    cases hok
    exact h
  | cons d ds ih =>
    obtain ⟨t₁, ht₁, hrest⟩ := ensureAll_cons_ok hok
    have hds' := fun e he => hds e (List.mem_cons_of_mem d he)
    rcases ensureAutomation_cases ht₁ with ⟨-, rfl⟩ | ⟨-, hbinds, rfl⟩
    · exact ih h hds' hrest
    · exact ih (h.insert (hds d List.mem_cons_self hbinds)) hds' hrest

theorem allStorable_seed (h : AllStorable db.automations) (settings : Settings) (now : Int) :
    AllStorable (seedBuiltinAutomations settings now db).1.automations := by
  unfold seedBuiltinAutomations
  split
  · exact h
  · next hok => exact allStorable_ensureAll h (fun d hd => storable_seedDefinitions hd) hok

end Tables

theorem allStorable_step {s : System} (op : SystemOp) (h : AllStorable s.db.automations) :
    AllStorable (s.step op).db.automations := by
  cases op with
  | deliver env scan event =>
    show AllStorable (s.handle env scan event).system.db.automations
    rw [automations_handle]
    exact h
  | tick env scan => exact h
  | create env data => exact allStorable_create h env.now data
  | update env id data => exact allStorable_update h env.now id data
  | delete id => exact allStorable_delete h id
  | toggle env id => exact allStorable_toggle h env.now id
  | seed env => exact allStorable_seed h env.settings env.now
  | prune events runs =>
    show AllStorable (s.db.prune events runs).automations
    unfold Db.prune
    cases events <;> cases runs <;> exact h

theorem allStorable_run (ops : List SystemOp) :
    AllStorable (run System.step .empty ops).db.automations :=
  run_invariant (I := fun s : System => AllStorable s.db.automations)
    (fun _ op h => allStorable_step op h) ops fun _ ha => absurd ha List.not_mem_nil

/-! ## Writing a document back -/

section Writing

variable {a : Row Automation} {field : String}

theorem lookup_notNone {doc : Dict} (hkeys : (doc.map (·.1)).Nodup) (field : String) :
    (notNone doc).lookup field = (doc.lookup field).filter (· != .null) := by
  have hfiltered : ((doc.filter fun kv => kv.2 != .null).map (·.1)).Nodup :=
    (List.filter_sublist.map _).nodup hkeys
  have hmerged : (notNone doc).lookup field =
      (doc.filter fun kv => kv.2 != .null).lookup field := by
    unfold notNone
    rw [Dict.lookup_merge [] hfiltered]
    exact Option.or_none
  rw [hmerged]
  clear hmerged hfiltered
  induction doc with
  | nil => rfl
  | cons kv doc ih =>
    obtain ⟨k, v⟩ := kv
    obtain ⟨hnotin, hkeys⟩ := List.nodup_cons.mp hkeys
    have ih := ih hkeys
    by_cases hk : field = k
    · subst hk
      have hnone : doc.lookup field = none := List.lookup_eq_none_iff.mpr fun kv hkv =>
        bne_iff_ne.mpr fun heq => hnotin (List.mem_map.mpr ⟨kv, hkv, heq.symm⟩)
      rw [hnone] at ih
      rw [List.lookup_cons_self, Option.filter_some]
      cases hv : v != .null with
      | true =>
        rw [List.filter_cons_of_pos (by exact hv), List.lookup_cons_self]
        rfl
      | false =>
        rw [List.filter_cons_of_neg (by rw [hv]; exact Bool.false_ne_true), ih]
        rfl
    · have hother : (field == k) = false := beq_false_of_ne hk
      rw [List.lookup_cons, hother, List.filter_cons]
      split
      · rw [List.lookup_cons, hother]
        exact ih
      · exact ih

/-- The validator reads the fields of a definition, whatever their order. -/
theorem validateAutomation_congr {data data' : Dict} (h : ∀ field ∈
    ["trigger_type", "event_type", "schedule_seconds", "cooldown_seconds", "max_runs_per_window",
      "window_seconds"], data.get field = data'.get field) :
    validateAutomation data = validateAutomation data' := by
  simp only [List.forall_mem_cons, List.not_mem_nil, false_imp_iff, implies_true, and_true] at h
  obtain ⟨htrigger, hevent, hschedule, hcooldown, hmax, hwindow⟩ := h
  unfold validateAutomation validateTrigger validateLimits
  rw [htrigger, hevent, hschedule, hcooldown, hmax, hwindow]

theorem nodup_serialize (a : Row Automation) : ((serialize a).map (·.1)).Nodup := by
  show List.Nodup ["id", "name", "enabled", "trigger_type", "event_type", "schedule_seconds",
    "conditions", "actions", "cooldown_seconds", "max_runs_per_window", "window_seconds",
    "circuit_breaker", "created_at", "updated_at"]
  decide

theorem get_merge_own (a : Row Automation) (field : String) :
    (Dict.merge (serialize a) (notNone (serialize a))).get field = (serialize a).get field := by
  rw [get_merge (nodup_notNone _), lookup_notNone (nodup_serialize a)]
  cases hfield : (serialize a).lookup field with
  | none => rfl
  | some v =>
    unfold Dict.get
    rw [hfield, Option.filter_some]
    split
    · rfl
    · rfl

theorem bindSet_own {α : Type} {bind : Json → Except PyErr α} {old : α} {v : Json}
    (hfield : (serialize a).lookup field = some v) (hbind : v ≠ .null → bind v = .ok old) :
    bindSet (notNone (serialize a)) field bind old = .ok old := by
  unfold bindSet
  rw [lookup_notNone (nodup_serialize a), hfield, Option.filter_some]
  split
  · next h =>
    split at h
    · cases h
    · rfl
  · next h =>
    split at h
    · next hv =>
      cases h
      exact hbind (by simpa using hv)
    · cases h

theorem store_read {c : JsonCell} (h : c.read ≠ .null) : JsonCell.store c.read = c := by
  cases c with
  | sqlNull => exact absurd rfl h
  | json v => rfl

/-- Its own document leaves a row as it is. -/
theorem bindUpdate_own (h : Storable a.val) :
    bindUpdate (notNone (serialize a)) a.val = .ok a.val := by
  have hname : bindSet (notNone (serialize a)) "name" (fun v => required (bindStr 255 v))
      a.val.name = .ok a.val.name :=
    bindSet_own rfl fun _ => congrArg required (bindStr_of_length h.name)
  have henabled : bindSet (notNone (serialize a)) "enabled" (fun v => required (bindBool v))
      a.val.enabled = .ok a.val.enabled :=
    bindSet_own rfl fun _ => congrArg required (bindBool_bool _)
  have htrigger : bindSet (notNone (serialize a)) "trigger_type"
      (fun v => required (bindStr 20 v)) a.val.triggerType = .ok a.val.triggerType :=
    bindSet_own rfl fun _ => congrArg required (bindStr_of_length h.triggerType)
  have hevent : bindSet (notNone (serialize a)) "event_type" (bindStr 50) a.val.eventType =
      .ok a.val.eventType := bindSet_own rfl fun _ => bindStr_jsonOf h.eventType
  have hschedule : bindSet (notNone (serialize a)) "schedule_seconds" (bindInt 31)
      a.val.scheduleSeconds = .ok a.val.scheduleSeconds :=
    bindSet_own rfl fun _ => bindInt_jsonOf h.scheduleSeconds
  have hcooldown : bindSet (notNone (serialize a)) "cooldown_seconds" (bindInt 31)
      a.val.cooldownSeconds = .ok a.val.cooldownSeconds :=
    bindSet_own rfl fun _ => bindInt_jsonOf h.cooldownSeconds
  have hmax : bindSet (notNone (serialize a)) "max_runs_per_window" (bindInt 31)
      a.val.maxRunsPerWindow = .ok a.val.maxRunsPerWindow :=
    bindSet_own rfl fun _ => bindInt_jsonOf h.maxRunsPerWindow
  have hwindow : bindSet (notNone (serialize a)) "window_seconds" (bindInt 31)
      a.val.windowSeconds = .ok a.val.windowSeconds :=
    bindSet_own rfl fun _ => bindInt_jsonOf h.windowSeconds
  have hconditions : bindSet (notNone (serialize a)) "conditions" (fun v => .ok (.store v))
      a.val.conditions = .ok a.val.conditions :=
    bindSet_own rfl fun hne => congrArg Except.ok (store_read hne)
  have hactions : bindSet (notNone (serialize a)) "actions" (fun v => .ok (.store v))
      a.val.actions = .ok a.val.actions :=
    bindSet_own rfl fun hne => congrArg Except.ok (store_read hne)
  have hbreaker : bindSet (notNone (serialize a)) "circuit_breaker" (fun v => .ok (.store v))
      a.val.circuitBreaker = .ok a.val.circuitBreaker :=
    bindSet_own rfl fun hne => congrArg Except.ok (store_read hne)
  unfold bindUpdate
  rw [hname, henabled, htrigger, hevent, hschedule, hconditions, hactions, hcooldown, hmax,
    hwindow, hbreaker]
  rfl

def copyOf (a : Row Automation) (name : String) : Dict :=
  Dict.merge (serialize a) [("name", .str name)]

theorem lookup_copyOf (a : Row Automation) (name field : String) :
    (copyOf a name).lookup field =
      (List.lookup field [("name", .str name)]).or ((serialize a).lookup field) := by
  have hkeys : (([("name", .str name)] : Dict).map (·.1)).Nodup := List.nodup_singleton "name"
  exact Dict.lookup_merge _ hkeys field

theorem get_copyOf_name (a : Row Automation) (name : String) :
    (copyOf a name).get "name" = .str name := by
  unfold Dict.get
  rw [lookup_copyOf]
  rfl

theorem get_copyOf (a : Row Automation) (name : String) (hfield : field ≠ "name") :
    (copyOf a name).get field = (serialize a).get field := by
  unfold Dict.get
  rw [lookup_copyOf, List.lookup_cons, beq_false_of_ne hfield]
  rfl

def copyRow (now : Int) (a : Automation) (name : String) : Automation :=
  { a with name, conditions := .store a.conditions.read, actions := .store a.actions.read,
           circuitBreaker := .store a.circuitBreaker.read, updatedAt := now }

theorem bindNew_copyOf {now : Int} {name : String} (h : Storable a.val)
    (hname : name.length ≤ 255) : bindNew now (copyOf a name) = .ok (copyRow now a.val name) := by
  have hget : ∀ field ∈ ["enabled", "trigger_type", "event_type", "schedule_seconds", "conditions",
      "actions", "cooldown_seconds", "max_runs_per_window", "window_seconds", "circuit_breaker"],
      (copyOf a name).get field = (serialize a).get field :=
    fun field hfield => get_copyOf a name fun heq => by subst heq; revert hfield; decide
  simp only [List.forall_mem_cons, List.not_mem_nil, false_imp_iff, implies_true, and_true] at hget
  obtain ⟨henabled, htrigger, hevent, hschedule, hconditions, hactions, hcooldown, hmax, hwindow,
    hbreaker⟩ := hget
  unfold bindNew
  rw [get_copyOf_name, henabled, htrigger, hevent, hschedule, hconditions, hactions, hcooldown,
    hmax, hwindow, hbreaker]
  show (do
    let name ← required (bindStr 255 (.str name))
    let enabled ← bindBool (.bool a.val.enabled)
    let triggerType ← required (bindStr 20 (.str a.val.triggerType))
    let eventType ← bindStr 50 (jsonOf .str a.val.eventType)
    let scheduleSeconds ← bindInt 31 (jsonOf .int a.val.scheduleSeconds)
    let cooldownSeconds ← bindInt 31 (jsonOf .int a.val.cooldownSeconds)
    let maxRunsPerWindow ← bindInt 31 (jsonOf .int a.val.maxRunsPerWindow)
    let windowSeconds ← bindInt 31 (jsonOf .int a.val.windowSeconds)
    return ({ name, enabled := enabled.getD true, triggerType, eventType, scheduleSeconds,
              conditions := .store a.val.conditions.read, actions := .store a.val.actions.read,
              cooldownSeconds, maxRunsPerWindow, windowSeconds,
              circuitBreaker := .store a.val.circuitBreaker.read,
              updatedAt := now } : Automation)) = _
  rw [bindStr_of_length hname, bindBool_bool, bindStr_of_length h.triggerType,
    bindStr_jsonOf h.eventType, bindInt_jsonOf h.scheduleSeconds, bindInt_jsonOf h.cooldownSeconds,
    bindInt_jsonOf h.maxRunsPerWindow, bindInt_jsonOf h.windowSeconds]
  rfl

end Writing

/-! ## The results -/

/-- What a client may do with the documents it reads. -/
structure RoundTrips (db : Db) : Prop where
  /-- A document put back under its id is accepted if it validates, and changes nothing. -/
  put : ∀ a ∈ db.automations.rows, ∀ now, updateAutomation now a.id (serialize a) db =
    (db, match validateAutomation (serialize a) with
      | some error => .ok (.error error)
      | none => .ok (.ok (.obj (serialize a))))
  /-- A valid document posted under an unused name makes an automation of the same definition. -/
  copy : ∀ a ∈ db.automations.rows, validateAutomation (serialize a) = none →
    ∀ now name, name ≠ "" → name.length ≤ 255 → (∀ b ∈ db.automations.rows, b.val.name ≠ name) →
    ∃ doc : Dict, (createAutomation now (copyOf a name) db).2 = .ok (.ok (.obj doc)) ∧
      doc.get "name" = .str name ∧
      ∀ field, field ∉ ["id", "name", "created_at", "updated_at"] →
        doc.get field = (serialize a).get field

theorem modify_own {t : Table Automation} {a : Row Automation} (ha : a ∈ t.rows) :
    (t.modify a.id fun _ => a.val) = t := by
  refine Table.ext ?_ rfl
  show t.rows.map _ = t.rows
  conv_rhs => rw [← List.map_id t.rows]
  apply List.map_congr_left
  intro b hb
  split
  · next hid => rw [t.eq_of_id_eq hb ha hid]; rfl
  · rfl

theorem put_own {db : Db} {a : Row Automation} (ha : a ∈ db.automations.rows)
    (hnames : NamesUnique db.automations) (hstorable : Storable a.val) (now : Int) :
    updateAutomation now a.id (serialize a) db =
      (db, match validateAutomation (serialize a) with
        | some error => .ok (.error error)
        | none => .ok (.ok (.obj (serialize a)))) := by
  have hvalidate : validateAutomation (Dict.merge (serialize a) (notNone (serialize a))) =
      validateAutomation (serialize a) :=
    validateAutomation_congr fun field _ => get_merge_own a field
  have hsome : (notNone (serialize a)).isEmpty = false := by
    have hid : (notNone (serialize a)).lookup "id" = some (.int a.id) := by
      rw [lookup_notNone (nodup_serialize a)]
      rfl
    cases hdoc : notNone (serialize a) with
    | nil => rw [hdoc] at hid; cases hid
    | cons kv doc => rfl
  unfold updateAutomation
  dsimp only
  rw [hsome, if_neg Bool.false_ne_true, Table.get?_eq_some.mpr ⟨ha, rfl⟩]
  dsimp only
  rw [hvalidate]
  cases validateAutomation (serialize a) with
  | some error => rfl
  | none =>
    dsimp only
    rw [bindUpdate_own hstorable]
    dsimp only
    have hfree : ¬ ∃ b ∈ db.automations.rows, b.id ≠ a.id ∧ b.val.name = a.val.name := by
      rintro ⟨b, hb, hne, hname⟩
      exact hne (hnames b hb a ha hname)
    rw [if_neg hfree]
    have htouch : touch now a.val a.val = a.val := if_pos rfl
    rw [htouch, modify_own ha]

theorem post_copy {db : Db} {a : Row Automation} (hstorable : Storable a.val)
    (hvalid : validateAutomation (serialize a) = none) (now : Int) {name : String}
    (hname : name ≠ "") (hlength : name.length ≤ 255)
    (hfree : ∀ b ∈ db.automations.rows, b.val.name ≠ name) :
    (createAutomation now (copyOf a name) db).2 = .ok (.ok (.obj
      (serialize ⟨db.automations.nextId, now, copyRow now a.val name⟩))) := by
  have hvalidate : validateAutomation (copyOf a name) = none := by
    rw [← hvalid]
    refine validateAutomation_congr fun field hfield => get_copyOf a name fun heq => ?_
    subst heq
    revert hfield
    decide
  have htruthy : (Json.str name).truthy = true := truthy_str hname
  have hunused : name ∉ db.automations.vals.map (·.name) := by
    intro hmem
    obtain ⟨v, hv, hvname⟩ := List.mem_map.mp hmem
    obtain ⟨b, hb, rfl⟩ := List.mem_map.mp hv
    exact hfree b hb hvname
  unfold createAutomation
  rw [hvalidate]
  dsimp only
  rw [get_copyOf_name, htruthy, if_neg (by decide)]
  show (if name ∈ db.automations.vals.map (·.name) then _ else _ : Db × Except PyErr OpReply).2 = _
  rw [if_neg hunused, bindNew_copyOf hstorable hlength]

/-- In every state of every history, what is read can be written back and copied. -/
theorem definitions_round_trip (ops : List SystemOp) :
    RoundTrips (run System.step .empty ops).db where
  put a ha now := put_own ha (namesUnique_run ops) (allStorable_run ops a ha) now
  copy a ha hvalid now name hname hlength hfree := by
    refine ⟨_, post_copy (allStorable_run ops a ha) hvalid now hname hlength hfree, rfl, ?_⟩
    intro field hfield
    simp only [List.mem_cons, List.not_mem_nil, or_false, not_or] at hfield
    obtain ⟨hid, hfieldName, hcreated, hupdated⟩ := hfield
    unfold Dict.get serialize copyRow
    simp only [List.lookup_cons, beq_false_of_ne hid, beq_false_of_ne hfieldName,
      beq_false_of_ne hcreated, beq_false_of_ne hupdated, JsonCell.read_store]

end Taskowl
