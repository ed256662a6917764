import Taskowl.AutomationStore

/-!
# Concurrent edits of an automation

`update_automation` and `toggle_automation` select the row, validate and set
its attributes, and commit; other requests run in between. The commit writes
the columns whose value is no longer the one selected, over whatever the row
holds by then. Edits whose commits find what they relied on give the row of
their serial run, in commit order; a stale toggle and a stale validation do
not.
-/

namespace Taskowl

open Lib Py

/-! ## Requests -/

inductive Request where
  | update (data : Dict)
  | toggle
  deriving DecidableEq, Repr

/-- Where a request stands, with the row as its transaction selected it. -/
inductive Progress where
  | waiting
  | selected (read : Row Automation)
  /-- Validated, the attributes set. -/
  | edited (read : Row Automation)
  | succeeded
  /-- Answered by an error dict, or left by an exception. -/
  | failed
  deriving DecidableEq, Repr

/-- The attributes at the flush, bound to their columns. -/
def Request.attributes (request : Request) (read : Automation) : Except PyErr Automation :=
  match request with
  | .update data => bindUpdate (notNone data) read
  | .toggle => .ok { read with enabled := !read.enabled }

/-- Up to the SELECT: an update without fields does not get there. -/
def Request.select (request : Request) (id : Nat) (db : Db) : Progress :=
  let row := match db.automations.get? id with
    | none => .failed
    | some read => .selected read
  match request with
  | .update data => if (notNone data).isEmpty then .failed else row
  | .toggle => row

/-- The validation of the merged definition; a toggle validates nothing. -/
def Request.edit (request : Request) (read : Row Automation) : Progress :=
  match request with
  | .update data => match validateAutomation (Dict.merge (serialize read) (notNone data)) with
    | some _ => .failed
    | none => .edited read
  | .toggle => .edited read

/-- A column after an UPDATE: written only when the attribute is no longer what was read. -/
def column {α : Type} [DecidableEq α] (read new current : α) : α :=
  if new = read then current else new

/-- The row after an UPDATE of the changed columns. -/
def writeChanged (read new current : Automation) : Automation where
  name := column read.name new.name current.name
  enabled := column read.enabled new.enabled current.enabled
  triggerType := column read.triggerType new.triggerType current.triggerType
  eventType := column read.eventType new.eventType current.eventType
  scheduleSeconds := column read.scheduleSeconds new.scheduleSeconds current.scheduleSeconds
  conditions := column read.conditions new.conditions current.conditions
  actions := column read.actions new.actions current.actions
  cooldownSeconds := column read.cooldownSeconds new.cooldownSeconds current.cooldownSeconds
  maxRunsPerWindow := column read.maxRunsPerWindow new.maxRunsPerWindow current.maxRunsPerWindow
  windowSeconds := column read.windowSeconds new.windowSeconds current.windowSeconds
  circuitBreaker := column read.circuitBreaker new.circuitBreaker current.circuitBreaker
  updatedAt := current.updatedAt

/-- The flush and the commit; `none` is an exception. Without a change no UPDATE is sent, and an
UPDATE that finds no row or makes a name appear twice raises. -/
def Request.commit (request : Request) (id : Nat) (now : Int) (read : Automation) (db : Db) :
    Option Db :=
  match request.attributes read with
  | .error _ => none
  | .ok new =>
    if new = read then some db
    else match db.automations.get? id with
      | none => none
      | some current =>
        let row := { writeChanged read new current.val with updatedAt := now }
        if ∃ b ∈ db.automations.rows, b.id ≠ id ∧ b.val.name = row.name then none
        else some { db with automations := db.automations.modify id fun _ => row }

/-! ## Interleavings -/

/-- A request that succeeded, and when it committed. -/
structure Commit where
  index : Nat
  now : Int
  request : Request
  deriving DecidableEq, Repr

/-- The requests on one automation, with the successes in commit order. -/
structure Edits where
  db : Db
  requests : List (Request × Progress)
  log : List Commit := []

structure Move where
  index : Nat
  now : Int

def Edits.put (s : Edits) (i : Nat) (request : Request) (progress : Progress) : Edits :=
  { s with requests := s.requests.set i (request, progress) }

def Edits.step (id : Nat) (s : Edits) (m : Move) : Edits :=
  match s.requests[m.index]? with
  | some (request, .waiting) => s.put m.index request (request.select id s.db)
  | some (request, .selected read) => s.put m.index request (request.edit read)
  | some (request, .edited read) => match request.commit id m.now read.val s.db with
    | none => s.put m.index request .failed
    | some db =>
      { s.put m.index request .succeeded with
        db := db, log := s.log ++ [⟨m.index, m.now, request⟩] }
  | _ => s

def Edits.start (db : Db) (requests : List Request) : Edits :=
  ⟨db, requests.map fun r => (r, .waiting), []⟩

def serve (id : Nat) (db : Db) (c : Commit) : Db :=
  match c.request with
  | .update data => (updateAutomation c.now id data db).1
  | .toggle => (toggleAutomation c.now id db).1

/-! ## What a commit relies on -/

/-- A field that is given as it was read still has that value. -/
def KeptAt {α : Type} (merged : Dict) (field : String) (attr : Automation → α)
    (read new current : Automation) : Prop :=
  merged.has field → attr new = attr read → attr current = attr read

/-- Every given field that a commit does not write has the value given. -/
structure Kept (merged : Dict) (read new current : Automation) : Prop where
  name : KeptAt merged "name" (·.name) read new current
  enabled : KeptAt merged "enabled" (·.enabled) read new current
  triggerType : KeptAt merged "trigger_type" (·.triggerType) read new current
  eventType : KeptAt merged "event_type" (·.eventType) read new current
  scheduleSeconds : KeptAt merged "schedule_seconds" (·.scheduleSeconds) read new current
  conditions : KeptAt merged "conditions" (·.conditions) read new current
  actions : KeptAt merged "actions" (·.actions) read new current
  cooldownSeconds : KeptAt merged "cooldown_seconds" (·.cooldownSeconds) read new current
  maxRunsPerWindow : KeptAt merged "max_runs_per_window" (·.maxRunsPerWindow) read new current
  windowSeconds : KeptAt merged "window_seconds" (·.windowSeconds) read new current
  circuitBreaker : KeptAt merged "circuit_breaker" (·.circuitBreaker) read new current

/-- A commit is fresh: a toggle finds `enabled` as it read it; an update finds a row that its
fields still make a valid definition of, and the given fields it does not write as given. -/
def Request.Fresh (request : Request) (read current : Row Automation) : Prop :=
  match request with
  | .toggle => current.val.enabled = read.val.enabled
  | .update data =>
    validateAutomation (Dict.merge (serialize current) (notNone data)) = none ∧
      ∀ new, bindUpdate (notNone data) read.val = .ok new →
        Kept (notNone data) read.val new current.val

def Edits.Fresh (id : Nat) (s : Edits) (m : Move) : Prop :=
  ∀ request read current, s.requests[m.index]? = some (request, .edited read) →
    s.db.automations.get? id = some current → request.Fresh read current

section Commits

variable {merged : Dict} {read new current : Automation}

theorem bindSet_current {α : Type} [DecidableEq α] {field : String} {bind : Json → Except PyErr α}
    {read x current : α} (h : bindSet merged field bind read = .ok x)
    (hkept : merged.has field → x = read → current = read) :
    bindSet merged field bind current = .ok (column read x current) := by
  unfold column
  rcases bindSet_eq_ok h with ⟨v, hv, hbind⟩ | ⟨hnone, rfl⟩
  · have hfield : merged.has field = true := by
      unfold Dict.has
      rw [hv]
      rfl
    unfold bindSet
    rw [hv]
    by_cases hx : x = read
    · rw [if_pos hx, hkept hfield hx, ← hx]
      exact hbind
    · rw [if_neg hx]
      exact hbind
  · unfold bindSet
    rw [hnone, if_pos rfl]

/-- A fresh update binds, over the current row, to the row its commit writes. -/
theorem bindUpdate_current (h : bindUpdate merged read = .ok new)
    (hk : Kept merged read new current) :
    bindUpdate merged current = .ok (writeChanged read new current) := by
  simp only [bindUpdate, bind_eq_ok] at h ⊢
  obtain ⟨name, hname, enabled, henabled, trigger, htrigger, event, hevent, schedule, hschedule,
    conditions, hconditions, actions, hactions, cooldown, hcooldown, maxRuns, hmaxRuns, window,
    hwindow, breaker, hbreaker, hnew⟩ := h
  cases hnew
  exact ⟨_, bindSet_current hname hk.name, _, bindSet_current henabled hk.enabled,
    _, bindSet_current htrigger hk.triggerType, _, bindSet_current hevent hk.eventType,
    _, bindSet_current hschedule hk.scheduleSeconds,
    _, bindSet_current hconditions hk.conditions, _, bindSet_current hactions hk.actions,
    _, bindSet_current hcooldown hk.cooldownSeconds,
    _, bindSet_current hmaxRuns hk.maxRunsPerWindow,
    _, bindSet_current hwindow hk.windowSeconds,
    _, bindSet_current hbreaker hk.circuitBreaker, rfl⟩

end Commits

/-! ## Rows up to `updated_at` -/

def Automation.unstamp (a : Automation) : Automation := { a with updatedAt := 0 }

def unstampRow (r : Row Automation) : Row Automation := { r with val := r.val.unstamp }

def unstamped (db : Db) : List (Row Automation) := db.automations.rows.map unstampRow

def Db.setRow (db : Db) (id : Nat) (row : Automation) : Db :=
  { db with automations := db.automations.modify id fun _ => row }

section Unstamped

variable {s t db : Db} {id : Nat} {a b : Automation} {merged : Dict}

theorem unstamp_touch (now : Int) (old new : Automation) :
    (touch now old new).unstamp = new.unstamp := by
  unfold touch
  split
  · next h => rw [h]
  · rfl

theorem eq_of_unstamp (h : a.unstamp = b.unstamp) : b = { a with updatedAt := b.updatedAt } := by
  cases a
  cases b
  cases h
  rfl

theorem get?_unstamped (db : Db) (id : Nat) :
    (db.automations.get? id).map unstampRow = (unstamped db).find? (·.id == id) := by
  unfold unstamped Table.get?
  rw [List.find?_map]
  rfl

theorem get?_of_unstamped (h : unstamped s = unstamped t) {r : Row Automation}
    (hr : s.automations.get? id = some r) :
    ∃ r', t.automations.get? id = some r' ∧ unstampRow r = unstampRow r' := by
  have hmap := get?_unstamped t id
  rw [← h, ← get?_unstamped, hr] at hmap
  obtain ⟨r', hr', heq⟩ := Option.map_eq_some_iff.mp hmap
  exact ⟨r', hr', heq.symm⟩

theorem unstamped_setRow (db : Db) (id : Nat) (a : Automation) :
    unstamped (db.setRow id a) =
      (unstamped db).map fun r => if r.id = id then { r with val := a.unstamp } else r := by
  show ((db.automations.rows.map _).map unstampRow) = (db.automations.rows.map unstampRow).map _
  rw [List.map_map, List.map_map]
  apply List.map_congr_left
  intro r _
  show unstampRow (if r.id = id then { r with val := a } else r) =
    if r.id = id then { unstampRow r with val := a.unstamp } else unstampRow r
  split <;> rfl

theorem unstamped_setRow_congr (h : unstamped s = unstamped t) (hrow : a.unstamp = b.unstamp) :
    unstamped (s.setRow id a) = unstamped (t.setRow id b) := by
  rw [unstamped_setRow, unstamped_setRow, h, hrow]

theorem unstamped_setRow_self {r : Row Automation} (hr : db.automations.get? id = some r)
    (h : a.unstamp = r.val.unstamp) : unstamped (db.setRow id a) = unstamped db := by
  obtain ⟨hmem, hid⟩ := Table.get?_eq_some.mp hr
  rw [unstamped_setRow]
  conv_rhs => rw [← List.map_id (unstamped db)]
  apply List.map_congr_left
  intro u hu
  obtain ⟨w, hw, rfl⟩ := List.mem_map.mp hu
  by_cases hwid : (unstampRow w).id = id
  · have hsame : w = r := Table.eq_of_id_eq _ hw hmem (hwid.trans hid.symm)
    rw [if_pos hwid, h, hsame]
    rfl
  · rw [if_neg hwid]
    rfl

theorem free_of_unstamped (h : unstamped s = unstamped t) {name : String}
    (hfree : ∀ b ∈ s.automations.rows, b.id ≠ id → b.val.name ≠ name) :
    ∀ b ∈ t.automations.rows, b.id ≠ id → b.val.name ≠ name := by
  intro b hb hid
  have hmem : unstampRow b ∈ unstamped s := h ▸ List.mem_map_of_mem hb
  obtain ⟨c, hc, heq⟩ := List.mem_map.mp hmem
  have hcid : (unstampRow c).id = (unstampRow b).id := by rw [heq]
  have hname : (unstampRow c).val.name = (unstampRow b).val.name := by rw [heq]
  have hother : c.id ≠ id := fun hcontra => hid (hcid.symm.trans hcontra)
  exact fun hcontra => hfree c hc hother (hname.trans hcontra)

theorem get_serialize (r : Row Automation) :
    (serialize r).get "trigger_type" = .str r.val.triggerType ∧
      (serialize r).get "event_type" = jsonOf .str r.val.eventType ∧
      (serialize r).get "schedule_seconds" = jsonOf .int r.val.scheduleSeconds ∧
      (serialize r).get "cooldown_seconds" = jsonOf .int r.val.cooldownSeconds ∧
      (serialize r).get "max_runs_per_window" = jsonOf .int r.val.maxRunsPerWindow ∧
      (serialize r).get "window_seconds" = jsonOf .int r.val.windowSeconds :=
  ⟨rfl, rfl, rfl, rfl, rfl, rfl⟩

theorem validate_merge_congr {r r' : Row Automation} (h : r.val.unstamp = r'.val.unstamp)
    (hkeys : (merged.map (·.1)).Nodup) : validateAutomation (Dict.merge (serialize r) merged) =
      validateAutomation (Dict.merge (serialize r') merged) := by
  obtain ⟨htrigger, hevent, hschedule, hcooldown, hmax, hwindow⟩ := get_serialize r
  obtain ⟨htrigger', hevent', hschedule', hcooldown', hmax', hwindow'⟩ := get_serialize r'
  have hval := eq_of_unstamp h
  generalize r'.val.updatedAt = u at hval
  rw [hval] at htrigger' hevent' hschedule' hcooldown' hmax' hwindow'
  unfold validateAutomation validateTrigger validateLimits
  simp only [get_merge hkeys, htrigger, hevent, hschedule, hcooldown, hmax, hwindow, htrigger',
    hevent', hschedule', hcooldown', hmax', hwindow']

theorem bindUpdate_congr {a b new : Automation} (h : a.unstamp = b.unstamp)
    (hnew : bindUpdate merged a = .ok new) :
    ∃ new', bindUpdate merged b = .ok new' ∧ new.unstamp = new'.unstamp ∧ new.name = new'.name := by
  rw [eq_of_unstamp h]
  refine ⟨{ new with updatedAt := b.updatedAt }, ?_, rfl, rfl⟩
  simp only [bindUpdate, bind_eq_ok] at hnew ⊢
  obtain ⟨name, hname, enabled, henabled, trigger, htrigger, event, hevent, schedule, hschedule,
    conditions, hconditions, actions, hactions, cooldown, hcooldown, maxRuns, hmaxRuns, window,
    hwindow, breaker, hbreaker, hnew⟩ := hnew
  cases hnew
  exact ⟨name, hname, enabled, henabled, trigger, htrigger, event, hevent, schedule, hschedule,
    conditions, hconditions, actions, hactions, cooldown, hcooldown, maxRuns, hmaxRuns, window,
    hwindow, breaker, hbreaker, rfl⟩

end Unstamped

/-! ## Serial runs up to `updated_at` -/

section Serial

variable {s t db : Db} {id : Nat} {now : Int} {data : Dict}

theorem unstamped_update_of_changed (h : unstamped s = unstamped t) (hne : notNone data ≠ [])
    {a : Row Automation} {new : Automation} (ha : s.automations.get? id = some a)
    (hvalidate : validateAutomation (Dict.merge (serialize a) (notNone data)) = none)
    (hnew : bindUpdate (notNone data) a.val = .ok new)
    (hfree : ∀ b ∈ s.automations.rows, b.id ≠ id → b.val.name ≠ new.name) :
    unstamped (updateAutomation now id data s).1 =
      unstamped (updateAutomation now id data t).1 := by
  have hs := updateAutomation_of_free hne ha hvalidate hnew hfree now
  obtain ⟨b, hb, hrow⟩ := get?_of_unstamped h ha
  obtain ⟨new', hnew', hunstamp, hname⟩ := bindUpdate_congr (congrArg Row.val hrow) hnew
  have ht := updateAutomation_of_free hne hb
    ((validate_merge_congr (congrArg Row.val hrow) (nodup_notNone data)).symm.trans hvalidate) hnew'
    (hname ▸ free_of_unstamped h hfree) now
  have hleft : unstamped (updateAutomation now id data s).1 =
      unstamped (s.setRow id (touch now a.val new)) := congrArg (·.rows.map unstampRow) hs
  have hright : unstamped (updateAutomation now id data t).1 =
      unstamped (t.setRow id (touch now b.val new')) := congrArg (·.rows.map unstampRow) ht
  rw [hleft, hright]
  apply unstamped_setRow_congr h
  rw [unstamp_touch, unstamp_touch, hunstamp]

theorem unstamped_update_congr (h : unstamped s = unstamped t) :
    unstamped (updateAutomation now id data s).1 =
      unstamped (updateAutomation now id data t).1 := by
  by_cases hne : notNone data = []
  · have hnone : ∀ db : Db, (updateAutomation now id data db).1 = db := by
      intro db
      unfold updateAutomation
      rw [hne]
      rfl
    rw [hnone, hnone, h]
  · rcases updateAutomation_cases now id data s with hs | ⟨a, new, ha, hvalidate, hnew, hfree, -⟩
    · rcases updateAutomation_cases now id data t with ht | ⟨b, new, hb, hvalidate, hnew, hfree, -⟩
      · rw [hs, ht, h]
      · exact (unstamped_update_of_changed h.symm hne hb hvalidate hnew hfree).symm
    · exact unstamped_update_of_changed h hne ha hvalidate hnew hfree

theorem toggleAutomation_of_some {a : Row Automation} (ha : db.automations.get? id = some a) :
    (toggleAutomation now id db).1 =
      db.setRow id { a.val with enabled := !a.val.enabled, updatedAt := now } := by
  unfold toggleAutomation
  rw [ha]
  rfl

theorem toggleAutomation_of_none (h : db.automations.get? id = none) :
    (toggleAutomation now id db).1 = db := by
  unfold toggleAutomation
  rw [h]

theorem unstamped_toggle_congr (h : unstamped s = unstamped t) :
    unstamped (toggleAutomation now id s).1 = unstamped (toggleAutomation now id t).1 := by
  cases hs : s.automations.get? id with
  | none =>
    have ht : t.automations.get? id = none := by
      cases ht : t.automations.get? id with
      | none => rfl
      | some b =>
        obtain ⟨a, ha, -⟩ := get?_of_unstamped h.symm ht
        rw [hs] at ha
        cases ha
    rw [toggleAutomation_of_none hs, toggleAutomation_of_none ht, h]
  | some a =>
    obtain ⟨b, hb, hrow⟩ := get?_of_unstamped h hs
    rw [toggleAutomation_of_some hs, toggleAutomation_of_some hb]
    apply unstamped_setRow_congr h
    rw [eq_of_unstamp (congrArg Row.val hrow)]

theorem unstamped_serve_congr (h : unstamped s = unstamped t) (c : Commit) :
    unstamped (serve id s c) = unstamped (serve id t c) := by
  unfold serve
  cases c.request with
  | update data => exact unstamped_update_congr h
  | toggle => exact unstamped_toggle_congr h

end Serial

/-! ## A fresh commit -/

section Fresh

variable {db db' : Db} {id : Nat} {now : Int} {request : Request} {read current : Row Automation}

theorem writeChanged_self (read current : Automation) :
    writeChanged read read current = current := by
  simp [writeChanged, column]

/-- What a commit does: nothing, or one UPDATE of the row. -/
theorem commit_cases (h : request.commit id now read.val db = some db') :
    ∃ new, request.attributes read.val = .ok new ∧ (new = read.val ∧ db' = db ∨
      new ≠ read.val ∧ ∃ current, db.automations.get? id = some current ∧
        (∀ b ∈ db.automations.rows, b.id ≠ id →
          b.val.name ≠ (writeChanged read.val new current.val).name) ∧
        db' = db.setRow id { writeChanged read.val new current.val with updatedAt := now }) := by
  unfold Request.commit at h
  split at h
  · cases h
  · next new hnew =>
    refine ⟨new, hnew, ?_⟩
    split at h
    · next hsame =>
      cases h
      exact .inl ⟨hsame, rfl⟩
    · next hchanged =>
      split at h
      · cases h
      · next current hcurrent =>
        dsimp only at h
        split at h
        · cases h
        · next hfree =>
          cases h
          exact .inr ⟨hchanged, current, hcurrent, fun b hb hid hname => hfree ⟨b, hb, hid, hname⟩,
            rfl⟩

theorem serve_of_none (h : db.automations.get? id = none) (c : Commit) : serve id db c = db := by
  unfold serve
  cases c.request with
  | update data =>
    rcases updateAutomation_cases c.now id data db with hsame | ⟨a, new, ha, -⟩
    · exact hsame
    · rw [h] at ha
      cases ha
  | toggle => exact toggleAutomation_of_none h

/-- A fresh commit serves its request. -/
theorem unstamped_commit (hcurrent : db.automations.get? id = some current)
    (hfresh : request.Fresh read current) (h : request.commit id now read.val db = some db')
    (i : Nat) : unstamped db' = unstamped (serve id db ⟨i, now, request⟩) := by
  obtain ⟨new, hnew, hcases⟩ := commit_cases h
  cases request with
  | toggle =>
    cases hnew
    have henabled : current.val.enabled = read.val.enabled := hfresh
    rcases hcases with ⟨hsame, -⟩ | ⟨-, current', hcurrent', -, rfl⟩
    · exact absurd (congrArg Automation.enabled hsame) (by simp)
    · cases hcurrent.symm.trans hcurrent'
      show _ = unstamped (toggleAutomation now id db).1
      rw [toggleAutomation_of_some hcurrent]
      apply unstamped_setRow_congr rfl
      simp [writeChanged, column, Automation.unstamp, henabled]
  | update data =>
    obtain ⟨hvalidate, hkept⟩ := hfresh
    have hbind := bindUpdate_current hnew (hkept new hnew)
    show _ = unstamped (updateAutomation now id data db).1
    rcases hcases with ⟨rfl, rfl⟩ | ⟨hchanged, current', hcurrent', hfree, rfl⟩
    · rw [writeChanged_self] at hbind
      rcases updateAutomation_cases now id data db' with
        hsame | ⟨a, new, ha, -, hnew', -, htable⟩
      · rw [hsame]
      · cases hcurrent.symm.trans ha
        cases hbind.symm.trans hnew'
        have hrow : unstamped (updateAutomation now id data db').1 =
            unstamped (db'.setRow id (touch now current.val current.val)) :=
          congrArg (·.rows.map unstampRow) htable
        rw [hrow, unstamped_setRow_self hcurrent (unstamp_touch now _ _)]
    · cases hcurrent.symm.trans hcurrent'
      have hne : notNone data ≠ [] := by
        intro hnil
        have hnone : bindUpdate (notNone data) read.val = .ok read.val := by
          rw [hnil]
          rfl
        exact hchanged (Except.ok.inj (hnew.symm.trans hnone))
      have hrow : unstamped (updateAutomation now id data db).1 = unstamped
          (db.setRow id (touch now current.val (writeChanged read.val new current.val))) :=
        congrArg (·.rows.map unstampRow)
          (updateAutomation_of_free hne hcurrent hvalidate hbind hfree now)
      rw [hrow]
      apply unstamped_setRow_congr rfl
      rw [unstamp_touch]
      rfl

/-- The row passes the validator. -/
def ValidAt (id : Nat) (db : Db) : Prop :=
  ∀ r, db.automations.get? id = some r → validateAutomation (serialize r) = none

theorem get?_setRow {r : Row Automation} {a : Automation}
    (h : (db.setRow id a).automations.get? id = some r) : r.val = a := by
  obtain ⟨hmem, hid⟩ := Table.get?_eq_some.mp h
  obtain ⟨u, -, rfl⟩ := List.mem_map.mp hmem
  by_cases hu : u.id = id
  · simp [hu]
  · simp [hu] at hid

/-- A fresh commit leaves a valid row. -/
theorem validAt_commit (hcurrent : db.automations.get? id = some current)
    (hfresh : request.Fresh read current) (h : request.commit id now read.val db = some db')
    (hvalid : ValidAt id db) : ValidAt id db' := by
  obtain ⟨new, hnew, ⟨-, rfl⟩ | ⟨-, current', hcurrent', -, rfl⟩⟩ := commit_cases h
  · exact hvalid
  · cases hcurrent.symm.trans hcurrent'
    intro r hr
    have hstored := (validate_serialize current).mp (hvalid current hcurrent)
    rw [validate_serialize, get?_setRow hr]
    cases request with
    | toggle =>
      cases hnew
      refine ⟨?_, ?_, ?_⟩
      · simpa [writeChanged, column] using hstored.trigger
      · simpa [writeChanged, column] using hstored.cooldown
      · simpa [writeChanged, column] using hstored.window
    | update data =>
      obtain ⟨hvalidate, hkept⟩ := hfresh
      obtain ⟨hbinds, -⟩ := bindUpdate_spec (nodup_notNone data)
        (bindUpdate_current hnew (hkept new hnew))
      have hwritten := hbinds.valid hvalidate
      exact ⟨hwritten.trigger, hwritten.cooldown, hwritten.window⟩

end Fresh

/-! ## Toggles -/

section Enabled

variable {s t db : Db} {id : Nat}

def enabledAt (id : Nat) (db : Db) : Option Bool := (db.automations.get? id).map (·.val.enabled)

theorem enabledAt_of_unstamped (h : unstamped s = unstamped t) :
    enabledAt id s = enabledAt id t := by
  have hfind : ∀ db : Db, enabledAt id db =
      ((unstamped db).find? (·.id == id)).map (·.val.enabled) := by
    intro db
    rw [← get?_unstamped, Option.map_map]
    rfl
  rw [hfind, hfind, h]

theorem enabledAt_setRow {r : Row Automation} (hr : db.automations.get? id = some r)
    (a : Automation) : enabledAt id (db.setRow id a) = some a.enabled := by
  obtain ⟨hmem, hid⟩ := Table.get?_eq_some.mp hr
  have hrow : (db.setRow id a).automations.get? id = some { r with val := a } :=
    Table.get?_eq_some.mpr ⟨List.mem_map.mpr ⟨r, hmem, by rw [if_pos hid]⟩, hid⟩
  unfold enabledAt
  rw [hrow]
  rfl

/-- The request leaves `enabled` to the toggles. -/
def Request.keepsEnabled : Request → Bool
  | .update data => !(notNone data).has "enabled"
  | .toggle => true

theorem enabledAt_toggle (now : Int) :
    enabledAt id (toggleAutomation now id db).1 = (enabledAt id db).map (!·) := by
  cases h : db.automations.get? id with
  | none =>
    rw [toggleAutomation_of_none h]
    unfold enabledAt
    rw [h]
    rfl
  | some a =>
    rw [toggleAutomation_of_some h, enabledAt_setRow h]
    unfold enabledAt
    rw [h]
    rfl

theorem enabledAt_update {now : Int} {data : Dict}
    (hkeeps : (notNone data).has "enabled" = false) :
    enabledAt id (updateAutomation now id data db).1 = enabledAt id db := by
  rcases updateAutomation_cases now id data db with hsame | ⟨a, new, ha, -, hnew, -, htable⟩
  · rw [hsame]
  · have hnone : (notNone data).lookup "enabled" = none := by
      simpa [Dict.has] using hkeeps
    have henabled : new.enabled = a.val.enabled := by
      simp only [bindUpdate, bind_eq_ok] at hnew
      obtain ⟨_, -, enabled, henabled, _, -, _, -, _, -, _, -, _, -, _, -, _, -, _, -, _, -, heq⟩ :=
        hnew
      cases heq
      rcases bindSet_eq_ok henabled with ⟨v, hv, -⟩ | ⟨-, hsame⟩
      · rw [hnone] at hv
        cases hv
      · exact hsame
    have hrow : enabledAt id (updateAutomation now id data db).1 =
        enabledAt id (db.setRow id (touch now a.val new)) := by
      unfold enabledAt
      rw [htable]
      rfl
    have htouch : (touch now a.val new).unstamp.enabled = new.unstamp.enabled := by
      rw [unstamp_touch]
    rw [hrow, enabledAt_setRow ha]
    unfold enabledAt
    rw [ha]
    exact congrArg some (htouch.trans henabled)

variable (id) in
/-- Requests in series flip `enabled` once for each toggle. -/
theorem enabledAt_serial (log : List Commit) (h : ∀ c ∈ log, c.request.keepsEnabled = true)
    (db : Db) : enabledAt id (run (serve id) db log) =
      (enabledAt id db).map (not^[log.countP fun c => c.request = .toggle]) := by
  induction log generalizing db with
  | nil => exact (Option.map_id' ).symm
  | cons c log ih =>
    rw [run_cons, ih (fun c' hc' => h c' (List.mem_cons_of_mem c hc'))]
    have hc := h c List.mem_cons_self
    unfold serve
    cases hr : c.request with
    | toggle =>
      rw [List.countP_cons_of_pos (by simpa using hr), enabledAt_toggle, Option.map_map]
      rfl
    | update data =>
      rw [hr] at hc
      have hgiven : (notNone data).has "enabled" = false := by
        simpa [Request.keepsEnabled] using hc
      rw [List.countP_cons_of_neg (by simp [hr]), enabledAt_update hgiven]

end Enabled

/-! ## Runs -/

/-- The log is an order of the requests that succeeded. -/
structure Logged (requests : List Request) (s : Edits) : Prop where
  requests : s.requests.map (·.1) = requests
  nodup : (s.log.map (·.index)).Nodup
  logged : ∀ i request, s.requests[i]? = some (request, .succeeded) ↔
    ∃ now, ⟨i, now, request⟩ ∈ s.log

section Runs

variable {s : Edits} {id : Nat} {requests : List Request} {request : Request}

theorem logged_start (db : Db) (requests : List Request) :
    Logged requests (.start db requests) where
  requests := by simp [Edits.start, Function.comp_def]
  nodup := List.nodup_nil
  logged i request := by simp [Edits.start]

theorem map_put {i : Nat} {progress : Progress} (h : s.requests[i]? = some (request, progress))
    (progress' : Progress) :
    (s.put i request progress').requests.map (·.1) = s.requests.map (·.1) := by
  show (s.requests.set i (request, progress')).map (·.1) = _
  apply List.ext_getElem?
  intro j
  rw [List.getElem?_map, List.getElem?_map, List.getElem?_set]
  split
  · next hij =>
    subst hij
    rw [h]
    have hlt := (List.getElem?_eq_some_iff.mp h).1
    simp [hlt]
  · rfl

theorem getElem?_put {i : Nat} {progress : Progress}
    (h : s.requests[i]? = some (request, progress)) (progress' : Progress) (j : Nat) :
    (s.put i request progress').requests[j]? =
      if i = j then some (request, progress') else s.requests[j]? := by
  show (s.requests.set i (request, progress'))[j]? = _
  rw [List.getElem?_set, if_pos (List.getElem?_eq_some_iff.mp h).1]

theorem Logged.put (hl : Logged requests s) {i : Nat} {progress progress' : Progress}
    (h : s.requests[i]? = some (request, progress)) (hp : progress ≠ .succeeded)
    (hp' : progress' ≠ .succeeded) : Logged requests (s.put i request progress') where
  requests := (map_put h progress').trans hl.requests
  nodup := hl.nodup
  logged j request' := by
    rw [getElem?_put h]
    split
    · next hij =>
      subst hij
      constructor
      · intro heq
        cases heq
        exact absurd rfl hp'
      · intro hmem
        have hprev := (hl.logged i request').mpr hmem
        rw [h] at hprev
        cases hprev
        exact absurd rfl hp
    · exact hl.logged j request'

theorem Logged.commit (hl : Logged requests s) {i : Nat} {progress : Progress}
    (h : s.requests[i]? = some (request, progress)) (hp : progress ≠ .succeeded) (db : Db)
    (now : Int) : Logged requests { s.put i request .succeeded with
      db := db, log := s.log ++ [⟨i, now, request⟩] } where
  requests := (map_put h .succeeded).trans hl.requests
  nodup := by
    rw [List.map_append, List.nodup_append]
    refine ⟨hl.nodup, List.nodup_singleton _, ?_⟩
    rintro x hx y hy rfl
    obtain ⟨c, hc, rfl⟩ := List.mem_map.mp hx
    have hprev := (hl.logged c.index c.request).mpr ⟨c.now, hc⟩
    rw [List.map_cons, List.map_nil, List.mem_singleton] at hy
    rw [hy, h] at hprev
    cases hprev
    exact absurd rfl hp
  logged j request' := by
    show (s.put i request .succeeded).requests[j]? = _ ↔ _
    rw [getElem?_put h]
    simp only [List.mem_append, List.mem_singleton, Commit.mk.injEq]
    split
    · next hij =>
      subst hij
      constructor
      · intro heq
        cases heq
        exact ⟨now, .inr ⟨rfl, rfl, rfl⟩⟩
      · rintro ⟨now', hmem | ⟨-, -, rfl⟩⟩
        · have hprev := (hl.logged i request').mpr ⟨now', hmem⟩
          rw [h] at hprev
          cases hprev
          exact absurd rfl hp
        · rfl
    · next hij =>
      rw [hl.logged]
      constructor
      · rintro ⟨now', hmem⟩
        exact ⟨now', .inl hmem⟩
      · rintro ⟨now', hmem | ⟨hcontra, -⟩⟩
        · exact ⟨now', hmem⟩
        · exact absurd hcontra.symm hij

theorem logged_step (hl : Logged requests s) (m : Move) : Logged requests (s.step id m) := by
  unfold Edits.step
  split
  · next request h =>
    refine hl.put h nofun ?_
    unfold Request.select
    grind
  · next request read h =>
    refine hl.put h nofun ?_
    unfold Request.edit
    grind
  · next request read h =>
    split
    · exact hl.put h nofun nofun
    · exact hl.commit h nofun _ _
  · exact hl

/-- What a run of fresh steps keeps: the rows of the serial run, and a valid row. -/
structure Serial (id : Nat) (db : Db) (s : Edits) : Prop where
  rows : unstamped s.db = unstamped (run (serve id) db s.log)
  valid : ValidAt id db → ValidAt id s.db

theorem serial_step {db : Db} (hs : Serial id db s) (m : Move) (hfresh : s.Fresh id m) :
    Serial id db (s.step id m) := by
  unfold Edits.step
  split
  · exact ⟨hs.rows, hs.valid⟩
  · exact ⟨hs.rows, hs.valid⟩
  · next request read h =>
    split
    · exact ⟨hs.rows, hs.valid⟩
    · next db' hcommit =>
      have hrun : ∀ c, run (serve id) db (s.log ++ [c]) = serve id (run (serve id) db s.log) c :=
        fun c => by rw [run_append, run_cons, run_nil]
      cases hcurrent : s.db.automations.get? id with
      | none =>
        obtain ⟨new, -, ⟨-, rfl⟩ | ⟨-, current, hcurrent', -⟩⟩ := commit_cases hcommit
        · refine ⟨?_, hs.valid⟩
          show unstamped s.db = _
          rw [hrun, ← unstamped_serve_congr hs.rows, serve_of_none hcurrent]
        · rw [hcurrent] at hcurrent'
          cases hcurrent'
      | some current =>
        have hrequest := hfresh request read current h hcurrent
        refine ⟨?_, fun hvalid => validAt_commit hcurrent hrequest hcommit (hs.valid hvalid)⟩
        show unstamped db' = _
        rw [hrun, ← unstamped_serve_congr hs.rows]
        exact unstamped_commit hcurrent hrequest hcommit m.index
  · exact hs

end Runs

/-- After any interleaving whose commits are fresh, the row is, up to `updated_at`, that of the
successful requests in commit order; an even number of toggles leaves `enabled` as it was, and the
validator accepts the row if it did before. -/
theorem edits_serializable (id : Nat) (db : Db) (requests : List Request) (moves : List Move)
    (hfresh : Along (Edits.step id) (Edits.Fresh id) (.start db requests) moves) :
    let final := run (Edits.step id) (.start db requests) moves
    Logged requests final ∧ unstamped final.db = unstamped (run (serve id) db final.log) ∧
      ((∀ c ∈ final.log, c.request.keepsEnabled = true) →
        Even (final.log.countP fun c => c.request = .toggle) →
        enabledAt id final.db = enabledAt id db) ∧
      (ValidAt id db → ValidAt id final.db) := by
  intro final
  have hserial : Serial id db final := hfresh.invariant (I := Serial id db)
    (fun s m hm hs => serial_step hs m hm) ⟨rfl, fun h => h⟩
  have hlogged : Logged requests final := run_invariant (I := Logged requests)
    (fun _ m hl => logged_step hl m) moves (logged_start db requests)
  refine ⟨hlogged, hserial.rows, fun hkeeps heven => ?_, hserial.valid⟩
  have hinvolutive : Function.Involutive not := Bool.not_not
  rw [enabledAt_of_unstamped hserial.rows, enabledAt_serial id _ hkeeps,
    hinvolutive.iterate_even heven]
  exact congrFun Option.map_id (enabledAt id db)

def windowLog : Db := (createAutomation 0 [("name", .str "window-log"),
  ("trigger_type", .str "event"), ("event_type", .str "task-failed"),
  ("actions", .arr [.obj [("type", .str "log")]]), ("window_seconds", .int 60)] .empty).1

/-- Two requests take turns: both select, both set their attributes, both commit. -/
def inTurn (first second : Request) : Edits :=
  run (Edits.step 1) (.start windowLog [first, second])
    ([0, 1, 0, 1, 0, 1].map fun i => ⟨i, i⟩)

/-- Two toggles in turn disable the automation, which no order of them does; a limit set in turn
with an empty window leaves a row that the validator rejects. -/
theorem edits_interfere :
    (∀ order, order.Perm (inTurn .toggle .toggle).log →
      unstamped (run (serve 1) windowLog order) ≠ unstamped (inTurn .toggle .toggle).db) ∧
    ValidAt 1 windowLog ∧ ¬ ValidAt 1 (inTurn (.update [("max_runs_per_window", .int 5)])
      (.update [("window_seconds", .int 0)])).db := by
  refine ⟨fun order hperm heq => ?_, ?_, fun h => ?_⟩
  · have hlog : (inTurn .toggle .toggle).log = [⟨0, 0, .toggle⟩, ⟨1, 1, .toggle⟩] := by decide
    rw [hlog] at hperm
    have hkeeps : ∀ c ∈ order, c.request.keepsEnabled = true := by
      intro c hc
      have hmem := hperm.mem_iff.mp hc
      simp only [List.mem_cons, List.not_mem_nil, or_false] at hmem
      rcases hmem with rfl | rfl <;> rfl
    have hserial := enabledAt_serial 1 order hkeeps windowLog
    rw [hperm.countP_eq, enabledAt_of_unstamped heq] at hserial
    exact absurd hserial (by decide)
  · intro r hr
    cases hr
    decide
  · exact absurd (h _ rfl) (by decide)

/-- A toggle and an update of another column, in turn. -/
theorem edits_serializable_inTurn :
    unstamped (inTurn .toggle (.update [("max_runs_per_window", .int 5)])).db =
      unstamped (run (serve 1) windowLog
        (inTurn .toggle (.update [("max_runs_per_window", .int 5)])).log) := by
  refine (edits_serializable 1 windowLog [.toggle, .update [("max_runs_per_window", .int 5)]]
    ([0, 1, 0, 1, 0, 1].map fun i => ⟨i, i⟩) ⟨?_, ?_, ?_, ?_, ?_, ?_, trivial⟩).2.1
  · rintro _ _ _ ⟨⟩
  · rintro _ _ _ ⟨⟩
  · rintro _ _ _ ⟨⟩
  · rintro _ _ _ ⟨⟩
  · rintro _ _ _ ⟨⟩ ⟨⟩
    rfl
  · rintro _ _ _ ⟨⟩ ⟨⟩
    refine ⟨by decide, ?_⟩
    rintro new ⟨⟩
    exact ⟨fun _ _ => rfl, fun hgiven _ => absurd hgiven (by decide), fun _ _ => rfl,
      fun _ _ => rfl, fun _ _ => rfl, fun _ _ => rfl, fun _ _ => rfl, fun _ _ => rfl,
      fun _ _ => rfl, fun _ _ => rfl, fun _ _ => rfl⟩

end Taskowl
