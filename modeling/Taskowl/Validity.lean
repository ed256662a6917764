import Taskowl.Automations

/-!
# Valid automations

`Valid` is what the validator says of a row. The values of a request that pass
it are bound to a valid row, whether they make a new row or are merged into a
stored one, and a stored row is valid exactly when its serialized fields pass.
-/

namespace Taskowl

open Lib Py

/-- The trigger has what it needs and the limits are in range. -/
structure Valid (a : Automation) : Prop where
  trigger : (a.triggerType = "event" ∧ ∃ e ∈ validEventTypes, a.eventType = some e) ∨
    (a.triggerType = "periodic" ∧ ∃ n, a.scheduleSeconds = some n ∧ 0 < n)
  cooldown : ∀ n, a.cooldownSeconds = some n → 0 ≤ n
  window : ∀ n, a.maxRunsPerWindow = some n → 0 < n ∧ ∃ w, a.windowSeconds = some w ∧ 0 < w

/-! ## The validator -/

section Validator

variable {data : Dict}

theorem isOneOf_iff {v : Json} {xs : List String} : isOneOf v xs = true ↔ ∃ s ∈ xs, v = .str s := by
  cases v with
  | str s => simp [isOneOf]
  | _ => simp [isOneOf]

theorem isPositiveInt_iff {v : Json} :
    isPositiveInt v = true ↔ ∃ n, asInt v = some n ∧ 0 < n := by
  unfold isPositiveInt
  cases h : asInt v <;> simp

theorem isNonnegInt_iff {v : Json} : isNonnegInt v = true ↔ ∃ n, asInt v = some n ∧ 0 ≤ n := by
  unfold isNonnegInt
  cases h : asInt v <;> simp

theorem validateTrigger_eq_none : validateTrigger data = none ↔
    (data.get "trigger_type" = .str "event" ∧
      ∃ e ∈ validEventTypes, data.get "event_type" = .str e) ∨
    (data.get "trigger_type" = .str "periodic" ∧
      ∃ n, asInt (data.get "schedule_seconds") = some n ∧ 0 < n) := by
  unfold validateTrigger
  by_cases htrigger : isOneOf (data.get "trigger_type") validTriggers = true
  · rw [htrigger]
    obtain ⟨t, ht, heq⟩ := isOneOf_iff.mp htrigger
    rw [heq]
    rcases List.mem_cons.mp ht with rfl | ht
    · have htruthy : ∀ e ∈ validEventTypes, (Json.str e).truthy = true := by decide
      rw [if_neg (by decide), if_pos rfl]
      by_cases hevent : isOneOf (data.get "event_type") validEventTypes = true
      · obtain ⟨e, he, heq⟩ := isOneOf_iff.mp hevent
        rw [hevent, heq, htruthy e he]
        simp [he]
      · have hno : ¬ ∃ e ∈ validEventTypes, data.get "event_type" = .str e :=
          fun h => hevent (isOneOf_iff.mpr h)
        simp only [hno]
        split <;> simp [hevent]
    · rw [List.mem_singleton.mp ht, if_neg (by decide), if_neg (by decide)]
      rw [← isPositiveInt_iff]
      cases isPositiveInt (data.get "schedule_seconds") <;> simp
  · have hno : ∀ t ∈ validTriggers, data.get "trigger_type" ≠ .str t :=
      fun t ht h => htrigger (isOneOf_iff.mpr ⟨t, ht, h⟩)
    have hevent := hno "event" (by decide)
    have hperiodic := hno "periodic" (by decide)
    simp [htrigger, hevent, hperiodic]

theorem validateLimits_eq_none : validateLimits data = none ↔
    (data.get "cooldown_seconds" ≠ .null →
      ∃ n, asInt (data.get "cooldown_seconds") = some n ∧ 0 ≤ n) ∧
    (data.get "max_runs_per_window" ≠ .null →
      (∃ n, asInt (data.get "max_runs_per_window") = some n ∧ 0 < n) ∧
        ∃ w, asInt (data.get "window_seconds") = some w ∧ 0 < w) := by
  unfold validateLimits
  simp only [← isPositiveInt_iff, ← isNonnegInt_iff]
  split
  · next h => simp [h]
  · split
    · next h => simp [h]
    · split
      · next h => simp [h]
      · next hcool hmax hwindow =>
        simp only [true_iff]
        grind

theorem validateAutomation_eq_none : validateAutomation data = none ↔
    validateTrigger data = none ∧ validateLimits data = none := by
  unfold validateAutomation
  split
  · next h => simp [h]
  · next h => simp [h]

end Validator

/-! ## Bound values -/

structure IntBound (v : Json) (x : Option Int) : Prop where
  null : v = .null → x = none
  int : ∀ n, asInt v = some n → x = some n

theorem intBound_bindInt {bits : Nat} {v : Json} {x : Option Int} (h : bindInt bits v = .ok x) :
    IntBound v x := by
  unfold bindInt at h
  cases v with
  | null =>
    cases h
    exact ⟨fun _ => rfl, by simp [asInt]⟩
  | bool b =>
    cases h
    exact ⟨by simp, fun n hn => hn⟩
  | int i =>
    dsimp only at h
    split at h
    · cases h
      exact ⟨by simp, fun n hn => hn⟩
    · cases h
  | _ => cases h

theorem intBound_jsonOf (x : Option Int) : IntBound (jsonOf .int x) x := by
  cases x with
  | none => exact ⟨fun _ => rfl, nofun⟩
  | some n => exact ⟨nofun, fun m hm => hm⟩

theorem bindStr_eq_some {n : Nat} {v : Json} {s : String} (h : bindStr n v = .ok (some s)) :
    v = .str s := by
  unfold bindStr at h
  split at h
  · cases h
  · split at h
    · cases h; rfl
    · cases h
  · cases h

theorem bindStr_str {n : Nat} {s : String} {x : Option String} (h : bindStr n (.str s) = .ok x) :
    x = some s := by
  unfold bindStr at h
  dsimp only at h
  split at h
  · cases h; rfl
  · cases h

theorem required_eq_ok {α : Type} {x : Except PyErr (Option α)} {a : α} (h : required x = .ok a) :
    x = .ok (some a) := by
  unfold required at h
  split at h <;> cases h
  rfl

/-- The row holds the values of the fields that the validator reads. -/
structure Binds (data : Dict) (a : Automation) : Prop where
  trigger : data.get "trigger_type" = .str a.triggerType
  event : ∀ e, data.get "event_type" = .str e → a.eventType = some e
  schedule : IntBound (data.get "schedule_seconds") a.scheduleSeconds
  cooldown : IntBound (data.get "cooldown_seconds") a.cooldownSeconds
  maxRuns : IntBound (data.get "max_runs_per_window") a.maxRunsPerWindow
  window : IntBound (data.get "window_seconds") a.windowSeconds

theorem Binds.valid {data : Dict} {a : Automation} (hb : Binds data a)
    (h : validateAutomation data = none) : Valid a := by
  obtain ⟨htrigger, hlimits⟩ := validateAutomation_eq_none.mp h
  obtain ⟨hcooldown, hmax⟩ := validateLimits_eq_none.mp hlimits
  constructor
  · rcases validateTrigger_eq_none.mp htrigger with ⟨ht, e, he, hevent⟩ | ⟨ht, n, hn, hpos⟩
    · rw [hb.trigger] at ht
      exact .inl ⟨Json.str.inj ht, e, he, hb.event e hevent⟩
    · rw [hb.trigger] at ht
      exact .inr ⟨Json.str.inj ht, n, hb.schedule.int n hn, hpos⟩
  · intro n hn
    have hne : data.get "cooldown_seconds" ≠ .null := fun h => by
      rw [hb.cooldown.null h] at hn
      cases hn
    obtain ⟨m, hm, hle⟩ := hcooldown hne
    rw [hb.cooldown.int m hm] at hn
    cases hn
    exact hle
  · intro n hn
    have hne : data.get "max_runs_per_window" ≠ .null := fun h => by
      rw [hb.maxRuns.null h] at hn
      cases hn
    obtain ⟨⟨m, hm, hpos⟩, w, hw, hwpos⟩ := hmax hne
    rw [hb.maxRuns.int m hm] at hn
    cases hn
    exact ⟨hpos, w, hb.window.int w hw, hwpos⟩

theorem binds_serialize (r : Row Automation) : Binds (serialize r) r.val where
  trigger := rfl
  event e h := by
    have hevent : jsonOf .str r.val.eventType = .str e := h
    cases hv : r.val.eventType with
    | none => rw [hv] at hevent; cases hevent
    | some e' => rw [hv] at hevent; cases hevent; rfl
  schedule := intBound_jsonOf _
  cooldown := intBound_jsonOf _
  maxRuns := intBound_jsonOf _
  window := intBound_jsonOf _

/-- A stored row passes the validator exactly when it is valid. -/
theorem validate_serialize (r : Row Automation) :
    validateAutomation (serialize r) = none ↔ Valid r.val := by
  refine ⟨(binds_serialize r).valid, fun h => ?_⟩
  rw [validateAutomation_eq_none, validateTrigger_eq_none, validateLimits_eq_none]
  refine ⟨?_, ?_, ?_⟩
  · rcases h.trigger with ⟨ht, e, he, hevent⟩ | ⟨ht, n, hn, hpos⟩
    · exact .inl ⟨congrArg Json.str ht, e, he, congrArg (jsonOf .str) hevent⟩
    · refine .inr ⟨congrArg Json.str ht, n, ?_, hpos⟩
      show asInt (jsonOf .int r.val.scheduleSeconds) = some n
      rw [hn]
      rfl
  · show jsonOf .int r.val.cooldownSeconds ≠ .null →
      ∃ n, asInt (jsonOf .int r.val.cooldownSeconds) = some n ∧ 0 ≤ n
    cases hc : r.val.cooldownSeconds with
    | none => exact fun hne => absurd rfl hne
    | some n => exact fun _ => ⟨n, rfl, h.cooldown n hc⟩
  · show jsonOf .int r.val.maxRunsPerWindow ≠ .null →
      (∃ n, asInt (jsonOf .int r.val.maxRunsPerWindow) = some n ∧ 0 < n) ∧
        ∃ w, asInt (jsonOf .int r.val.windowSeconds) = some w ∧ 0 < w
    cases hm : r.val.maxRunsPerWindow with
    | none => exact fun hne => absurd rfl hne
    | some n =>
      obtain ⟨hpos, w, hw, hwpos⟩ := h.window n hm
      rw [hw]
      exact fun _ => ⟨⟨n, rfl, hpos⟩, w, rfl, hwpos⟩

end Taskowl
