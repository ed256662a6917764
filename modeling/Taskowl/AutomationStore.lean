import Taskowl.Builtin
import Taskowl.Validity

/-!
# The automation store

What the operations keep: every stored automation passes the validator and has
a name of its own. Two paths break it. An update may set the name to the empty
string, which `create_automation` refuses; and the seeding, which validates
nothing, stores the sweep with whatever interval the settings give.
-/

namespace Taskowl

open Lib Py

structure StoreValid (t : Table Automation) : Prop where
  valid : ∀ a ∈ t.rows, validateAutomation (serialize a) = none
  named : ∀ a ∈ t.rows, a.val.name ≠ ""
  unique : (t.vals.map (·.name)).Nodup

section Tables

variable {t : Table Automation} {now : Int} {a : Automation}

theorem storeValid_empty : StoreValid .empty where
  valid _ h := absurd h List.not_mem_nil
  named _ h := absurd h List.not_mem_nil
  unique := List.nodup_nil

theorem StoreValid.insert (h : StoreValid t) (hvalid : Valid a) (hname : a.name ≠ "")
    (hfresh : a.name ∉ t.vals.map (·.name)) : StoreValid (t.insert now a) where
  valid r hr := by
    rcases List.mem_append.mp hr with hr | hr
    · exact h.valid r hr
    · rw [List.mem_singleton.mp hr, validate_serialize]
      exact hvalid
  named r hr := by
    rcases List.mem_append.mp hr with hr | hr
    · exact h.named r hr
    · rw [List.mem_singleton.mp hr]
      exact hname
  unique := by
    rw [Table.vals_insert, List.map_append, List.nodup_append]
    refine ⟨h.unique, by simp, ?_⟩
    rintro x hx y hy rfl
    rw [List.map_cons, List.map_nil, List.mem_singleton] at hy
    exact hfresh (hy ▸ hx)

theorem StoreValid.deleteWhere (h : StoreValid t) (p : Row Automation → Bool) :
    StoreValid (t.deleteWhere p) where
  valid r hr := h.valid r (List.mem_of_mem_filter hr)
  named r hr := h.named r (List.mem_of_mem_filter hr)
  unique := (List.filter_sublist.map _ |>.map _).nodup h.unique

theorem StoreValid.modify (h : StoreValid t) {id : Nat} (hvalid : Valid a) (hname : a.name ≠ "")
    (hfresh : ∀ b ∈ t.rows, b.id ≠ id → b.val.name ≠ a.name) :
    StoreValid (t.modify id fun _ => a) where
  valid r hr := by
    obtain ⟨u, hu, rfl⟩ := List.mem_map.mp hr
    split
    · rw [validate_serialize]
      exact hvalid
    · exact h.valid u hu
  named r hr := by
    obtain ⟨u, hu, rfl⟩ := List.mem_map.mp hr
    split
    · exact hname
    · exact h.named u hu
  unique := by
    have hold : t.rows.Pairwise fun r s => r.val.name ≠ s.val.name := by
      have hunique := h.unique
      unfold Table.vals at hunique
      rw [List.map_map] at hunique
      exact List.pairwise_map.mp hunique
    show ((List.map _ (List.map _ t.rows)).map _).Nodup
    rw [List.map_map, List.map_map]
    apply List.pairwise_map.mpr
    refine (t.sorted.and hold).imp_of_mem fun {r s} hr hs hrs => ?_
    have hids := hrs.1
    by_cases hrid : r.id = id
    · have hsid : s.id ≠ id := by omega
      simpa [hrid, hsid] using (hfresh s hs hsid).symm
    · by_cases hsid : s.id = id
      · simpa [hrid, hsid] using hfresh r hr hrid
      · simpa [hrid, hsid] using hrs.2

end Tables

/-! ## Requests -/

section Requests

variable {data merged : Dict} {now : Int} {a new : Automation} {r : Row Automation}

theorem bindNew_spec (h : bindNew now data = .ok a) :
    Binds data a ∧ data.get "name" = .str a.name := by
  simp only [bindNew, bind_eq_ok] at h
  obtain ⟨name, hname, enabled, -, trigger, htrigger, event, hevent, schedule, hschedule, cooldown,
    hcooldown, maxRuns, hmaxRuns, window, hwindow, ha⟩ := h
  cases ha
  refine ⟨⟨bindStr_eq_some (required_eq_ok htrigger), fun e he => ?_, intBound_bindInt hschedule,
    intBound_bindInt hcooldown, intBound_bindInt hmaxRuns, intBound_bindInt hwindow⟩,
    bindStr_eq_some (required_eq_ok hname)⟩
  rw [he] at hevent
  exact bindStr_str hevent

theorem nodup_notNone (data : Dict) : ((notNone data).map (·.1)).Nodup :=
  Dict.nodup_merge (d := []) List.nodup_nil _

theorem get_merge (hkeys : (merged.map (·.1)).Nodup) (d : Dict) (field : String) :
    (Dict.merge d merged).get field = (merged.lookup field).getD (d.get field) := by
  unfold Dict.get
  rw [Dict.lookup_merge d hkeys]
  cases merged.lookup field <;> rfl

theorem bindSet_eq_ok {α : Type} {field : String} {bind : Json → Except PyErr α} {old x : α}
    (h : bindSet merged field bind old = .ok x) :
    (∃ v, merged.lookup field = some v ∧ bind v = .ok x) ∨
      merged.lookup field = none ∧ x = old := by
  unfold bindSet at h
  split at h
  · next hnone =>
    cases h
    exact .inr ⟨hnone, rfl⟩
  · next v hv => exact .inl ⟨v, hv, h⟩

theorem intBound_bindSet (hkeys : (merged.map (·.1)).Nodup) {d : Dict} {field : String}
    {old x : Option Int} (hold : d.get field = jsonOf .int old)
    (h : bindSet merged field (bindInt 31) old = .ok x) :
    IntBound ((Dict.merge d merged).get field) x := by
  rw [get_merge hkeys]
  rcases bindSet_eq_ok h with ⟨v, hv, hbind⟩ | ⟨hnone, rfl⟩
  · rw [hv]
    exact intBound_bindInt hbind
  · rw [hnone, Option.getD_none, hold]
    exact intBound_jsonOf x

theorem bindUpdate_spec (hkeys : (merged.map (·.1)).Nodup)
    (h : bindUpdate merged r.val = .ok new) : Binds (Dict.merge (serialize r) merged) new ∧
      (merged.lookup "name" = some (.str new.name) ∨
        merged.lookup "name" = none ∧ new.name = r.val.name) := by
  simp only [bindUpdate, bind_eq_ok] at h
  obtain ⟨name, hname, enabled, -, trigger, htrigger, event, hevent, schedule, hschedule,
    conditions, -, actions, -, cooldown, hcooldown, maxRuns, hmaxRuns, window, hwindow, breaker, -,
    hnew⟩ := h
  cases hnew
  refine ⟨⟨?_, fun e he => ?_, intBound_bindSet hkeys rfl hschedule,
    intBound_bindSet hkeys rfl hcooldown, intBound_bindSet hkeys rfl hmaxRuns,
    intBound_bindSet hkeys rfl hwindow⟩, ?_⟩
  · rw [get_merge hkeys]
    rcases bindSet_eq_ok htrigger with ⟨v, hv, hbind⟩ | ⟨hnone, rfl⟩
    · rw [hv, Option.getD_some, bindStr_eq_some (required_eq_ok hbind)]
    · rw [hnone]
      rfl
  · rw [get_merge hkeys] at he
    rcases bindSet_eq_ok hevent with ⟨v, hv, hbind⟩ | ⟨hnone, rfl⟩
    · rw [hv, Option.getD_some] at he
      rw [he] at hbind
      exact bindStr_str hbind
    · rw [hnone] at he
      exact (binds_serialize r).event e he
  · rcases bindSet_eq_ok hname with ⟨v, hv, hbind⟩ | ⟨hnone, rfl⟩
    · left
      rw [hv, bindStr_eq_some (required_eq_ok hbind)]
    · exact .inr ⟨hnone, rfl⟩

theorem name_touch (now : Int) (old new : Automation) : (touch now old new).name = new.name := by
  unfold touch
  split
  · next h => rw [h]
  · rfl

theorem valid_touch {old : Automation} : Valid (touch now old new) ↔ Valid new := by
  unfold touch
  split
  · next h => rw [h]
  · exact ⟨fun h => ⟨h.trigger, h.cooldown, h.window⟩, fun h => ⟨h.trigger, h.cooldown, h.window⟩⟩

end Requests

/-! ## The operations -/

section Operations

variable {db : Db}

theorem storeValid_create (h : StoreValid db.automations) (now : Int) (data : Dict) :
    StoreValid (createAutomation now data db).1.automations := by
  unfold createAutomation
  split
  · exact h
  · next hvalidate =>
    split
    · exact h
    · next htruthy =>
      split
      · exact h
      · next name hname =>
        split
        · exact h
        · next hfresh =>
          split
          · exact h
          · next a ha =>
            obtain ⟨hbinds, hbound⟩ := bindNew_spec ha
            have hsame : name = a.name := by
              rw [hbound] at hname
              cases hname
              rfl
            refine h.insert (hbinds.valid hvalidate) (fun hempty => htruthy ?_) (hsame ▸ hfresh)
            rw [hbound, hempty]
            rfl

theorem storeValid_delete (h : StoreValid db.automations) (id : Nat) :
    StoreValid (deleteAutomation id db).1.automations := by
  unfold deleteAutomation
  split
  · exact h
  · exact h.deleteWhere _

theorem storeValid_toggle (h : StoreValid db.automations) (now : Int) (id : Nat) :
    StoreValid (toggleAutomation now id db).1.automations := by
  unfold toggleAutomation
  split
  · exact h
  · next a ha =>
    obtain ⟨hmem, rfl⟩ := Table.get?_eq_some.mp ha
    have hvalid := (validate_serialize a).mp (h.valid a hmem)
    refine h.modify ⟨hvalid.trigger, hvalid.cooldown, hvalid.window⟩ (h.named a hmem) ?_
    intro b hb hid heq
    have hunique := h.unique
    unfold Table.vals at hunique
    rw [List.map_map] at hunique
    exact hid (congrArg Row.id (List.inj_on_of_nodup_map hunique hb hmem heq))

/-- An update that passes every check but the one for a name in use. -/
def Accepts (db : Db) (id : Nat) (data : Dict) : Prop :=
  ∃ a new, db.automations.get? id = some a ∧
    validateAutomation (Dict.merge (serialize a) (notNone data)) = none ∧
    bindUpdate (notNone data) a.val = .ok new

/-- An update changes nothing, or one row to a valid one with an unused name. -/
theorem updateAutomation_cases (now : Int) (id : Nat) (data : Dict) (db : Db) :
    (updateAutomation now id data db).1 = db ∨ ∃ a new, db.automations.get? id = some a ∧
      validateAutomation (Dict.merge (serialize a) (notNone data)) = none ∧
      bindUpdate (notNone data) a.val = .ok new ∧
      (∀ b ∈ db.automations.rows, b.id ≠ id → b.val.name ≠ new.name) ∧
      (updateAutomation now id data db).1.automations =
        db.automations.modify id fun _ => touch now a.val new := by
  unfold updateAutomation
  dsimp only
  split
  · exact .inl rfl
  · split
    · exact .inl rfl
    · next a ha =>
      split
      · exact .inl rfl
      · next hvalidate =>
        split
        · exact .inl rfl
        · next new hnew =>
          split
          · exact .inl rfl
          · next hfree =>
            exact .inr ⟨a, new, ha, hvalidate, hnew,
              fun b hb hid hname => hfree ⟨b, hb, hid, hname⟩, rfl⟩

theorem updateAutomation_of_free {id : Nat} {data : Dict} {a : Row Automation} {new : Automation}
    (hne : notNone data ≠ []) (ha : db.automations.get? id = some a)
    (hvalidate : validateAutomation (Dict.merge (serialize a) (notNone data)) = none)
    (hnew : bindUpdate (notNone data) a.val = .ok new)
    (hfree : ∀ b ∈ db.automations.rows, b.id ≠ id → b.val.name ≠ new.name) (now : Int) :
    (updateAutomation now id data db).1.automations =
      db.automations.modify id fun _ => touch now a.val new := by
  have hempty : (notNone data).isEmpty = false := by simpa using hne
  have hnone : ¬ ∃ b ∈ db.automations.rows, b.id ≠ id ∧ b.val.name = new.name := by
    rintro ⟨b, hb, hid, hname⟩
    exact hfree b hb hid hname
  unfold updateAutomation
  dsimp only
  rw [hempty, ha]
  dsimp only
  rw [hvalidate, hnew]
  dsimp only
  rw [if_neg hnone]
  rfl

/-- Of the updates, one that is accepted with an empty name breaks the store. -/
theorem storeValid_update_iff (h : StoreValid db.automations) (now : Int) (id : Nat) (data : Dict) :
    StoreValid (updateAutomation now id data db).1.automations ↔
      ¬ (Accepts db id data ∧ (notNone data).lookup "name" = some (.str "")) := by
  have hkeys := nodup_notNone data
  constructor
  · rintro hnext ⟨⟨a, new, ha, hvalidate, hnew⟩, hempty⟩
    obtain ⟨-, hname⟩ := bindUpdate_spec hkeys hnew
    rw [hempty] at hname
    have hnone : new.name = "" := by
      rcases hname with hname | ⟨hname, -⟩
      · exact (Json.str.inj (Option.some.inj hname)).symm
      · cases hname
    obtain ⟨hmem, hid⟩ := Table.get?_eq_some.mp ha
    have hne : notNone data ≠ [] := fun hnil => by
      rw [hnil] at hempty
      cases hempty
    rw [updateAutomation_of_free hne ha hvalidate hnew
      (fun b hb _ => by rw [hnone]; exact h.named b hb)] at hnext
    have hrow := hnext.named { a with val := touch now a.val new }
      (List.mem_map.mpr ⟨a, hmem, by rw [if_pos hid]⟩)
    exact hrow ((name_touch now a.val new).trans hnone)
  · intro hnot
    rcases updateAutomation_cases now id data db with
      hsame | ⟨a, new, ha, hvalidate, hnew, hfree, htable⟩
    · rw [hsame]
      exact h
    · obtain ⟨hbinds, hname⟩ := bindUpdate_spec hkeys hnew
      obtain ⟨hmem, -⟩ := Table.get?_eq_some.mp ha
      rw [htable]
      refine h.modify (valid_touch.mpr (hbinds.valid hvalidate)) ?_ ?_
      · rw [name_touch]
        rcases hname with hname | ⟨-, hname⟩
        · intro hempty
          rw [hempty] at hname
          exact hnot ⟨⟨a, new, ha, hvalidate, hnew⟩, hname⟩
        · rw [hname]
          exact h.named a hmem
      · rw [name_touch]
        exact hfree

end Operations

/-! ## The seeding -/

section Seeding

variable {now : Int} {t t' : Table Automation} {ds : List Definition} {d : Definition}
  {settings : Settings}

def Definition.Binds (d : Definition) : Prop :=
  ∃ x, bindInt 31 (jsonOf .int d.scheduleSeconds) = .ok x

theorem ensureAutomation_cases (h : ensureAutomation now t d = .ok t') :
    d.name ∈ t.vals.map (·.name) ∧ t' = t ∨
      d.name ∉ t.vals.map (·.name) ∧ d.Binds ∧ t' = t.insert now (d.automation now) := by
  unfold ensureAutomation at h
  split at h
  · next htaken =>
    cases h
    exact .inl ⟨htaken, rfl⟩
  · next hfresh =>
    split at h
    · cases h
    · next x hx =>
      cases h
      exact .inr ⟨hfresh, ⟨x, hx⟩, rfl⟩

theorem ensureAll_cons_ok (h : ensureAll now t (d :: ds) = .ok t') :
    ∃ t₁, ensureAutomation now t d = .ok t₁ ∧ ensureAll now t₁ ds = .ok t' := by
  unfold ensureAll at h
  split at h
  · cases h
  · next t₁ ht₁ => exact ⟨t₁, ht₁, h⟩

theorem storeValid_ensureAll (h : StoreValid t)
    (hds : ∀ d ∈ ds, d.name ∉ t.vals.map (·.name) → d.Binds →
      Valid (d.automation now) ∧ d.name ≠ "")
    (hok : ensureAll now t ds = .ok t') : StoreValid t' := by
  induction ds generalizing t with
  | nil =>
    cases hok
    exact h
  | cons d ds ih =>
    obtain ⟨t₁, ht₁, hrest⟩ := ensureAll_cons_ok hok
    rcases ensureAutomation_cases ht₁ with ⟨-, rfl⟩ | ⟨hfresh, hbinds, rfl⟩
    · exact ih h (fun e he => hds e (List.mem_cons_of_mem d he)) hrest
    · obtain ⟨hvalid, hname⟩ := hds d List.mem_cons_self hfresh hbinds
      refine ih (h.insert hvalid hname hfresh) (fun e he hnew => ?_) hrest
      apply hds e (List.mem_cons_of_mem d he)
      intro htaken
      apply hnew
      rw [Table.vals_insert, List.map_append]
      exact List.mem_append_left _ htaken

theorem ensureAll_ok (now : Int) (t : Table Automation) (hds : ∀ d ∈ ds, d.Binds) :
    ∃ t', ensureAll now t ds = .ok t' := by
  induction ds generalizing t with
  | nil => exact ⟨t, rfl⟩
  | cons d ds ih =>
    obtain ⟨x, hx⟩ := hds d List.mem_cons_self
    have hrest := fun t => ih t fun e he => hds e (List.mem_cons_of_mem d he)
    unfold ensureAll ensureAutomation
    split
    · next e he =>
      split at he
      · cases he
      · rw [hx] at he
        cases he
    · exact hrest _

theorem vals_ensureAll_subset (hok : ensureAll now t ds = .ok t') : t.vals ⊆ t'.vals := by
  induction ds generalizing t with
  | nil =>
    cases hok
    exact List.Subset.refl _
  | cons d ds ih =>
    obtain ⟨t₁, ht₁, hrest⟩ := ensureAll_cons_ok hok
    refine List.Subset.trans ?_ (ih hrest)
    rcases ensureAutomation_cases ht₁ with ⟨-, rfl⟩ | ⟨-, -, rfl⟩
    · exact List.Subset.refl _
    · rw [Table.vals_insert]
      exact List.subset_append_left _ _

theorem mem_ensureAll (hnames : (ds.map (·.name)).Nodup) (hd : d ∈ ds)
    (hfresh : d.name ∉ t.vals.map (·.name)) (hok : ensureAll now t ds = .ok t') :
    d.automation now ∈ t'.vals := by
  induction ds generalizing t with
  | nil => cases hd
  | cons e ds ih =>
    obtain ⟨t₁, ht₁, hrest⟩ := ensureAll_cons_ok hok
    obtain ⟨hnotin, hnames⟩ := List.nodup_cons.mp hnames
    rcases List.mem_cons.mp hd with rfl | hd
    · rcases ensureAutomation_cases ht₁ with ⟨htaken, -⟩ | ⟨-, -, rfl⟩
      · exact absurd htaken hfresh
      · apply vals_ensureAll_subset hrest
        rw [Table.vals_insert]
        exact List.mem_append_right _ List.mem_cons_self
    · have hne : d.name ≠ e.name := fun heq => hnotin (List.mem_map.mpr ⟨d, hd, heq⟩)
      refine ih hnames hd ?_ hrest
      rcases ensureAutomation_cases ht₁ with ⟨-, rfl⟩ | ⟨-, -, rfl⟩
      · exact hfresh
      · rw [Table.vals_insert, List.map_append]
        intro hin
        rcases List.mem_append.mp hin with hin | hin
        · exact hfresh hin
        · exact hne (List.mem_singleton.mp hin)

/-- The settings have the sweep seeded. -/
def SweepOn (settings : Settings) : Prop :=
  settings.alertWebhookUrl.any (· != "") = true ∧ settings.alertOnWorkerOffline = true

theorem seedDefinitions_cases (hd : d ∈ seedDefinitions settings) : d.name ≠ "" ∧
    ((∀ now, Valid (d.automation now)) ∧ d.scheduleSeconds = none ∨
      SweepOn settings ∧
        ∃ url, d = alertWorkerOfflineSweep url settings.alertWorkerCheckSeconds) := by
  have hevent : ∀ {d : Definition} {e : String}, e ∈ validEventTypes → d.triggerType = "event" →
      d.eventType = some e → ∀ now, Valid (d.automation now) := by
    intro d e he ht hevent now
    exact ⟨.inl ⟨ht, e, he, hevent⟩, nofun, nofun⟩
  unfold seedDefinitions at hd
  split at hd
  · cases hd
  · cases hd
  · next url hne hurl =>
    simp only [List.mem_append] at hd
    rcases hd with (hd | hd) | hd
    · split at hd
      · rw [List.mem_singleton.mp hd]
        exact ⟨(by decide : "alert-task-failed" ≠ ""),
          .inl ⟨hevent (e := "task-failed") (by decide) rfl rfl, rfl⟩⟩
      · cases hd
    · split at hd
      · rw [List.mem_singleton.mp hd]
        exact ⟨(by decide : "alert-slow-task" ≠ ""),
          .inl ⟨hevent (e := "task-succeeded") (by decide) rfl rfl, rfl⟩⟩
      · cases hd
    · split at hd
      · next hon =>
        rcases List.mem_cons.mp hd with rfl | hd
        · exact ⟨(by decide : "alert-worker-offline" ≠ ""),
          .inl ⟨hevent (e := "worker-offline") (by decide) rfl rfl, rfl⟩⟩
        · rw [List.mem_singleton.mp hd]
          refine ⟨(by decide : "alert-worker-offline-sweep" ≠ ""), .inr ⟨⟨?_, hon⟩, url, rfl⟩⟩
          rw [hurl, Option.any_some, bne_iff_ne]
          exact hne
      · cases hd

theorem nodup_seedDefinitions (settings : Settings) :
    ((seedDefinitions settings).map (·.name)).Nodup := by
  unfold seedDefinitions
  split
  · exact List.nodup_nil
  · exact List.nodup_nil
  · cases settings.alertOnTaskFailed <;> cases settings.alertSlowTaskSeconds <;>
      cases settings.alertOnWorkerOffline <;>
      simp [alertTaskFailed, alertSlowTask, alertWorkerOffline, alertWorkerOfflineSweep]

theorem sweep_mem_seedDefinitions (h : SweepOn settings) : ∃ url,
    alertWorkerOfflineSweep url settings.alertWorkerCheckSeconds ∈ seedDefinitions settings := by
  obtain ⟨url, hurl, hne⟩ := (Option.any_eq_true ..).mp h.1
  refine ⟨url, ?_⟩
  have hset : Alerting settings url := ⟨hurl, by simpa using hne⟩
  rw [hset.definitions, h.2]
  simp

/-- Of the seedings, one that adds the sweep with a stored interval that is not positive breaks
the store. -/
theorem storeValid_seed_iff {db : Db} (h : StoreValid db.automations) (settings : Settings)
    (now : Int) : StoreValid (seedBuiltinAutomations settings now db).1.automations ↔
      ¬ (SweepOn settings ∧
        "alert-worker-offline-sweep" ∉ db.automations.vals.map (·.name) ∧
        -2 ^ 31 ≤ settings.alertWorkerCheckSeconds ∧ settings.alertWorkerCheckSeconds ≤ 0) := by
  constructor
  · rintro hnext ⟨hon, hfresh, hlow, hnonpos⟩
    have hbinds : ∀ d ∈ seedDefinitions settings, d.Binds := by
      intro d hd
      rcases (seedDefinitions_cases hd).2 with ⟨-, hnone⟩ | ⟨-, url, rfl⟩
      · exact ⟨none, by rw [hnone]; rfl⟩
      · refine ⟨some settings.alertWorkerCheckSeconds, ?_⟩
        show (if _ then _ else _) = _
        rw [if_pos ⟨hlow, by omega⟩]
    obtain ⟨t, ht⟩ := ensureAll_ok now db.automations hbinds
    obtain ⟨url, hmem⟩ := sweep_mem_seedDefinitions hon
    unfold seedBuiltinAutomations at hnext
    rw [ht] at hnext
    obtain ⟨r, hr, hval⟩ := List.mem_map.mp
      (mem_ensureAll (nodup_seedDefinitions settings) hmem hfresh ht)
    have hvalid := (validate_serialize r).mp (hnext.valid r hr)
    rw [hval] at hvalid
    rcases hvalid.trigger with ⟨htype, -⟩ | ⟨-, n, hn, hpos⟩
    · have hperiodic : "periodic" = "event" := htype
      exact absurd hperiodic (by decide)
    · have hcheck : settings.alertWorkerCheckSeconds = n := Option.some.inj hn
      omega
  · intro hnot
    unfold seedBuiltinAutomations
    split
    · exact h
    · next t ht =>
      refine storeValid_ensureAll h (fun d hd hfresh hbinds => ?_) ht
      obtain ⟨hname, hcase⟩ := seedDefinitions_cases hd
      refine ⟨?_, hname⟩
      rcases hcase with ⟨hvalid, -⟩ | ⟨hon, url, rfl⟩
      · exact hvalid now
      · obtain ⟨x, hx⟩ := hbinds
        have hlow : -2 ^ 31 ≤ settings.alertWorkerCheckSeconds := by
          by_contra hlow
          have herror : bindInt 31 (.int settings.alertWorkerCheckSeconds) =
              .error ⟨.dataError, "value out of int range"⟩ := by
            show (if _ then _ else _) = _
            rw [if_neg fun h => hlow h.1]
          cases herror.symm.trans hx
        have hpos : 0 < settings.alertWorkerCheckSeconds := by
          by_contra hle
          exact hnot ⟨hon, hfresh, hlow, by omega⟩
        exact ⟨.inr ⟨rfl, _, rfl, hpos⟩, nofun, nofun⟩

end Seeding

/-! ## Runs of the system -/

/-- An accepted update does not set an empty name, and a seeding does not add the sweep with a
storable interval that is not positive. -/
def Sensible (s : System) : SystemOp → Prop
  | .update _ id data =>
    ¬ (Accepts s.db id data ∧ (notNone data).lookup "name" = some (.str ""))
  | .seed env =>
    ¬ (SweepOn env.settings ∧
      "alert-worker-offline-sweep" ∉ s.db.automations.vals.map (·.name) ∧
      -2 ^ 31 ≤ env.settings.alertWorkerCheckSeconds ∧ env.settings.alertWorkerCheckSeconds ≤ 0)
  | _ => True

theorem storeValid_step {s : System} (h : StoreValid s.db.automations) (op : SystemOp) :
    StoreValid (s.step op).db.automations ↔ Sensible s op := by
  cases op with
  | deliver env scan event =>
    refine iff_of_true ?_ trivial
    show StoreValid (s.handle env scan event).system.db.automations
    unfold System.handle
    split
    · exact h
    · split
      · exact h
      · next hrun => exact (Handler.automations_run hrun).symm ▸ h
  | tick env scan => exact iff_of_true h trivial
  | create env data => exact iff_of_true (storeValid_create h env.now data) trivial
  | update env id data => exact storeValid_update_iff h env.now id data
  | delete id => exact iff_of_true (storeValid_delete h id) trivial
  | toggle env id => exact iff_of_true (storeValid_toggle h env.now id) trivial
  | seed env => exact storeValid_seed_iff h env.settings env.now
  | prune events runs =>
    refine iff_of_true ?_ trivial
    show StoreValid (s.db.prune events runs).automations
    unfold Db.prune
    cases events <;> cases runs <;> exact h

def System.reply (s : System) : SystemOp → Option (Except PyErr OpReply)
  | .create env data => some (createAutomation env.now data s.db).2
  | .update env id data => some (updateAutomation env.now id data s.db).2
  | .delete id => some (deleteAutomation id s.db).2
  | .toggle env id => some (toggleAutomation env.now id s.db).2
  | .seed env => some (seedBuiltinAutomations env.settings env.now s.db).2
  | _ => none

def UnchangedOr (db : Db) (call : Db × Except PyErr OpReply) : Prop :=
  call.1 = db ∨ ∃ result, call.2 = .ok (.ok result)

section Failures

variable (db : Db) (now : Int) (id : Nat) (data : Dict)

theorem unchangedOr_create : UnchangedOr db (createAutomation now data db) := by
  unfold createAutomation
  split
  · exact .inl rfl
  · split
    · exact .inl rfl
    · split
      · exact .inl rfl
      · split
        · exact .inl rfl
        · split
          · exact .inl rfl
          · exact .inr ⟨_, rfl⟩

theorem unchangedOr_update : UnchangedOr db (updateAutomation now id data db) := by
  unfold updateAutomation
  dsimp only
  split
  · exact .inl rfl
  · split
    · exact .inl rfl
    · split
      · exact .inl rfl
      · split
        · exact .inl rfl
        · split
          · exact .inl rfl
          · exact .inr ⟨_, rfl⟩

theorem unchangedOr_delete : UnchangedOr db (deleteAutomation id db) := by
  unfold deleteAutomation
  split
  · exact .inl rfl
  · exact .inr ⟨_, rfl⟩

theorem unchangedOr_toggle : UnchangedOr db (toggleAutomation now id db) := by
  unfold toggleAutomation
  split
  · exact .inl rfl
  · exact .inr ⟨_, rfl⟩

theorem unchangedOr_seed (settings : Settings) :
    UnchangedOr db (seedBuiltinAutomations settings now db) := by
  unfold seedBuiltinAutomations
  split
  · exact .inl rfl
  · exact .inr ⟨_, rfl⟩

end Failures

theorem step_of_failed {s : System} {op : SystemOp} {reply : Except PyErr OpReply}
    (h : s.reply op = some reply) (hfailed : ∀ result, reply ≠ .ok (.ok result)) :
    s.step op = s := by
  have hcall : ∀ {call : Db × Except PyErr OpReply}, UnchangedOr s.db call → call.2 = reply →
      ({ s with db := call.1 } : System) = s := by
    rintro call (hsame | ⟨result, hdone⟩) hreply
    · rw [hsame]
    · exact absurd (hreply.symm.trans hdone) (hfailed result)
  cases op with
  | create env data => exact hcall (unchangedOr_create ..) (Option.some.inj h)
  | update env id data => exact hcall (unchangedOr_update ..) (Option.some.inj h)
  | delete id => exact hcall (unchangedOr_delete ..) (Option.some.inj h)
  | toggle env id => exact hcall (unchangedOr_toggle ..) (Option.some.inj h)
  | seed env => exact hcall (unchangedOr_seed ..) (Option.some.inj h)
  | deliver env scan event => cases h
  | tick env scan => cases h
  | prune events runs => cases h

/-- The store is valid in every state of a run exactly when every step of it is sensible; and a
call that fails, in any state, changes nothing. -/
theorem automations_valid (ops : List SystemOp) :
    (Along System.step (fun s op => StoreValid (s.step op).db.automations) .empty ops ↔
      Along System.step Sensible .empty ops) ∧
    ∀ (s : System) (op : SystemOp) (reply : Except PyErr OpReply), s.reply op = some reply →
      (∀ result, reply ≠ .ok (.ok result)) → s.step op = s :=
  ⟨along_iff (I := fun s : System => StoreValid s.db.automations)
      (fun _ op h => storeValid_step h op) ops storeValid_empty,
    fun _ _ _ => step_of_failed⟩

def createLog : SystemOp :=
  .create (.idle 0) [("name", .str "log-failed-tasks"), ("trigger_type", .str "event"),
    ("event_type", .str "task-failed"), ("actions", .arr [.obj [("type", .str "log")]])]

theorem automations_valid_createLog :
    StoreValid (run System.step .empty [createLog]).db.automations ∧
      (run System.step .empty [createLog]).step (.update (.idle 1) 1 [("name", .null)]) =
        run System.step .empty [createLog] := by
  obtain ⟨hvalid, hfailed⟩ := automations_valid [createLog]
  refine ⟨(hvalid.mpr ⟨trivial, trivial⟩).1, hfailed _ _ _ rfl ?_⟩
  intro result h
  cases h

/-- The sweep seeded to run every zero seconds. -/
def seedNoInterval : SystemOp :=
  let url := "https://hooks.example/T0"
  .seed { Env.idle 0 with
    settings := { alertWebhookUrl := some url, alertWorkerCheckSeconds := 0 } }

/-- The log is renamed to the empty string. -/
def renameEmpty : SystemOp := .update (.idle 1) 1 [("name", .str "")]

theorem automations_invalid :
    ¬ StoreValid (run System.step .empty [seedNoInterval]).db.automations ∧
      ¬ StoreValid (run System.step .empty [createLog, renameEmpty]).db.automations := by
  constructor
  · intro h
    have hinvalid : ∃ a ∈ (run System.step .empty [seedNoInterval]).db.automations.rows,
        validateAutomation (serialize a) ≠ none := by decide +kernel
    obtain ⟨a, ha, hne⟩ := hinvalid
    exact hne (h.valid a ha)
  · intro h
    have hunnamed : ∃ a ∈ (run System.step .empty [createLog, renameEmpty]).db.automations.rows,
        a.val.name = "" := by decide +kernel
    obtain ⟨a, ha, hname⟩ := hunnamed
    exact h.named a ha hname

end Taskowl
