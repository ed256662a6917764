import Taskowl.AutomationStore
import Taskowl.Maintenance
import Taskowl.Sequential

/-!
# Retention and the safety knobs

The limits and the schedule look back over the runs that a prune deletes. A
knob is safe when it reaches no further back than the cutoff: its query then
answers as before, whatever the history. One that reaches further has a
history, all of it just before the cutoff, that holds the automation back until
it is pruned.
-/

namespace Taskowl

open Lib Py

def Accepted (a : Row Automation) : Prop := ∃ now data db,
  (createAutomation now data db).1.automations.rows = db.automations.rows ++ [a]

/-- What an evaluation does with the automation: on the event, or on the clock. -/
def evaluated (env : Env) (event : Dict) (a : Row Automation) (runs : Runs) : Outcome :=
  if a.val.triggerType = "periodic" then dueOutcome env a runs else outcome env event a runs

def seenEvent (event : Dict) (a : Automation) : Dict :=
  if a.triggerType = "periodic" then [] else event

/-- The breaker can be evaluated, and stays closed without any run. -/
structure StartsClosed (a : Automation) (now : Int) : Prop where
  readable : a.circuitBreaker.read.truthy = true → ∃ config, a.circuitBreaker.read = .obj config
  measured : ∀ threshold window, breakerKnobs a = some (threshold, window) →
    ∃ since, windowStart window now = .ok since
  closed : ∀ threshold window, breakerKnobs a = some (threshold, window) →
    Json.compare .ge (.int 0) threshold = .ok false

/-- The limits reach no further back than the cutoff. -/
structure LimitsFit (a : Automation) (now cutoff : Int) : Prop where
  cooldown : ∀ cooldown, a.cooldownSeconds = some cooldown → cutoff ≤ now - cooldown * secondUs
  limit : ∀ maxRuns window since, a.maxRunsPerWindow = some maxRuns →
    a.windowSeconds = some window → windowStart (.int window) now = .ok since → cutoff ≤ since
  /-- A threshold that is infinite or no number is never reached. -/
  breaker : ∀ threshold window q since, breakerKnobs a = some (threshold, window) →
    threshold.num? = some (.fin q) → windowStart window now = .ok since → cutoff ≤ since

/-- Every knob that can hold the automation back fits: the schedule, and the limits where the
conditions pass and the breaker lets anything through. -/
structure KnobsFit (env : Env) (event : Dict) (a : Automation) (cutoff : Int) : Prop where
  schedule : a.triggerType = "periodic" → ∀ schedule, a.scheduleSeconds = some schedule →
    cutoff ≤ env.now - schedule * secondUs
  limits : conditionsPassed env.lib (seenEvent event a) a = .ok true → StartsClosed a env.now →
    LimitsFit a env.now cutoff

/-! ## Accepted automations -/

structure InBounds (a : Automation) : Prop where
  valid : Valid a
  cooldown : ∀ n, a.cooldownSeconds = some n → n < 2 ^ 31
  schedule : ∀ n, a.scheduleSeconds = some n → n < 2 ^ 31

theorem lt_of_bindInt {v : Json} {x : Option Int} (h : bindInt 31 v = .ok x) :
    ∀ n, x = some n → n < 2 ^ 31 := by
  unfold bindInt at h
  split at h
  · cases h
    nofun
  · next b =>
    cases h
    rintro n ⟨⟩
    cases b <;> decide
  · split at h
    · next hfits =>
      cases h
      rintro n ⟨⟩
      exact hfits.2
    · cases h
  · cases h

theorem Accepted.inBounds {a : Row Automation} (h : Accepted a) : InBounds a.val := by
  obtain ⟨now, data, db, h⟩ := h
  have hsame : ∀ {rows : List (Row Automation)}, rows ≠ rows ++ [a] := by
    intro rows heq
    have := congrArg List.length heq
    simp at this
  unfold createAutomation at h
  split at h
  · exact absurd h hsame
  · next hvalidate =>
    split at h
    · exact absurd h hsame
    · split at h
      · exact absurd h hsame
      · split at h
        · exact absurd h hsame
        · split at h
          · exact absurd h hsame
          · next new hnew =>
            have hrow := List.append_cancel_left h
            obtain rfl : _ = a := List.cons.inj hrow |>.1
            obtain ⟨hbinds, -⟩ := bindNew_spec hnew
            simp only [bindNew, bind_eq_ok] at hnew
            obtain ⟨_, -, _, -, _, -, _, -, _, hschedule, _, hcooldown, _, -, _, -, heq⟩ := hnew
            cases heq
            exact ⟨hbinds.valid hvalidate, lt_of_bindInt hcooldown, lt_of_bindInt hschedule⟩

theorem InBounds.scheduleOf {a : Automation} (h : InBounds a) (hp : a.triggerType = "periodic") :
    ∃ n, scheduleOf a = some n ∧ a.scheduleSeconds = some n ∧ 0 ≤ n ∧ n < 2 ^ 31 := by
  rcases h.valid.trigger with ⟨hevent, -⟩ | ⟨-, n, hn, hpos⟩
  · rw [hp] at hevent
    exact absurd hevent (by decide)
  · refine ⟨n, ?_, hn, hpos.le, h.schedule n hn⟩
    unfold Taskowl.scheduleOf
    rw [hn, Option.filter_some_pos (by simpa using hpos.ne')]

/-! ## What a prune leaves -/

section Kept

variable {a : Row Automation} {id : Nat} {now cutoff since : Int} {runs : Runs}

def kept (cutoff : Int) (runs : Runs) : Runs := runs.filter fun r => decide (cutoff ≤ r.createdAt)

theorem countFiredSince_kept (h : cutoff ≤ since) :
    countFiredSince id since (kept cutoff runs) = countFiredSince id since runs := by
  unfold countFiredSince kept
  rw [List.countP_filter]
  apply List.countP_congr
  intro r _
  simp only [Bool.and_eq_true, decide_eq_true_eq]
  exact ⟨fun hr => hr.1, fun hr => ⟨hr, by omega⟩⟩

theorem latest_kept (p : Row AutomationRun → Bool) :
    (((kept cutoff runs).filter p).map (·.createdAt)).max? =
      ((runs.filter p).map (·.createdAt)).max?.filter fun t => decide (cutoff ≤ t) := by
  have hmem : ∀ r, r ∈ kept cutoff runs ↔ r ∈ runs ∧ cutoff ≤ r.createdAt := by
    intro r
    simp [kept]
  cases hl : ((runs.filter p).map (·.createdAt)).max? with
  | none =>
    have hnone := latest_eq_none.mp hl
    exact latest_eq_none.mpr fun r hr => hnone r ((hmem r).mp hr).1
  | some t =>
    obtain ⟨⟨r, hr, hp, hrt⟩, hmax⟩ := latest_eq_some.mp hl
    by_cases ht : cutoff ≤ t
    · rw [Option.filter_some_pos (by simpa using ht), latest_eq_some]
      refine ⟨⟨r, (hmem r).mpr ⟨hr, by omega⟩, hp, hrt⟩, fun s hs => ?_⟩
      exact hmax s ((hmem s).mp hs).1
    · rw [Option.filter_some_neg (by simpa using ht), latest_eq_none]
      intro s hs
      obtain ⟨hs, hle⟩ := (hmem s).mp hs
      rw [← Bool.not_eq_true]
      intro hps
      have := hmax s hs hps
      omega

theorem within_before {n t : Int} (hn : 0 ≤ n ∧ n < 2 ^ 31)
    (hfits : cutoff ≤ now - n * secondUs) (ht : t < cutoff) : within n t now = .ok false := by
  have hover : ¬ now - t < n * secondUs := by omega
  rw [within_of_fits ⟨by omega, hn.2⟩, decide_eq_false hover]

theorem coolingDown_kept (hb : InBounds a.val) (h : LimitsFit a.val now cutoff) :
    coolingDown a now (kept cutoff runs) = coolingDown a now runs := by
  unfold coolingDown lastFireTime
  rw [latest_kept]
  cases hc : a.val.cooldownSeconds with
  | none => rfl
  | some cooldown =>
    cases hl : ((runs.filter (firedRow a.id)).map (·.createdAt)).max? with
    | none => rfl
    | some last =>
      by_cases hlast : cutoff ≤ last
      · rw [Option.filter_some_pos (by simpa using hlast)]
      · rw [Option.filter_some_neg (by simpa using hlast)]
        exact (within_before ⟨hb.valid.cooldown _ hc, hb.cooldown _ hc⟩ (h.cooldown _ hc)
          (by omega)).symm

theorem overLimit_kept (h : LimitsFit a.val now cutoff) :
    overLimit a now (kept cutoff runs) = overLimit a now runs := by
  unfold overLimit countFiredInWindow
  cases hm : a.val.maxRunsPerWindow with
  | none => rfl
  | some maxRuns =>
    cases hw : a.val.windowSeconds with
    | none => rfl
    | some window =>
      dsimp only
      cases hs : windowStart (.int window) now with
      | error e => rfl
      | ok since =>
        dsimp only
        rw [countFiredSince_kept (h.limit maxRuns window since hm hw hs)]

theorem checkCircuitBreaker_kept (h : LimitsFit a.val now cutoff) :
    checkCircuitBreaker a now (kept cutoff runs) = checkCircuitBreaker a now runs := by
  cases hk : breakerKnobs a.val with
  | none => exact (checkCircuitBreaker_unset hk runs).1
  | some knobs =>
    obtain ⟨threshold, window⟩ := knobs
    rw [checkCircuitBreaker_eq hk, checkCircuitBreaker_eq hk]
    cases hs : windowStart window now with
    | error e => rfl
    | ok since =>
      dsimp only
      cases hx : threshold.num? with
      | none => simp only [Json.compare_int, hx]; rfl
      | some x =>
        cases x with
        | fin q => rw [countFiredSince_kept (h.breaker threshold window q since hk hx hs)]
        | _ => simp only [Json.compare_int, hx]; rfl

theorem skipReason_kept (hb : InBounds a.val) (h : LimitsFit a.val now cutoff) :
    skipReason a now (kept cutoff runs) = skipReason a now runs := by
  unfold skipReason checkRateLimits
  rw [checkCircuitBreaker_kept h, coolingDown_kept hb h, overLimit_kept h]

end Kept

/-! ## The breaker without runs -/

section Breaker

variable {a : Row Automation} {now : Int} {runs : Runs}

theorem startsClosed_iff : StartsClosed a.val now ↔ checkCircuitBreaker a now [] = .ok none := by
  cases hk : breakerKnobs a.val with
  | none =>
    have hreadable : StartsClosed a.val now ↔ (a.val.circuitBreaker.read.truthy = true →
        ∃ config, a.val.circuitBreaker.read = .obj config) :=
      ⟨(·.readable), fun h => ⟨h, by simp [hk], by simp [hk]⟩⟩
    rw [hreadable]
    unfold breakerKnobs at hk
    unfold checkCircuitBreaker
    by_cases ht : a.val.circuitBreaker.read.truthy = true
    · cases hread : a.val.circuitBreaker.read with
      | obj config =>
        rw [hread] at ht hk
        simp only [ht, Bool.not_true, Bool.false_eq_true, if_false, Json.getAttr] at hk ⊢
        split at hk
        · next hset => simp [hset]
        · cases hk
      | _ => rw [hread] at ht; simp [ht, Json.getAttr]
    · simp [ht]
  | some knobs =>
    obtain ⟨threshold, window⟩ := knobs
    rw [checkCircuitBreaker_eq hk]
    constructor
    · intro h
      obtain ⟨since, hs⟩ := h.measured threshold window hk
      have hclosed := h.closed threshold window hk
      rw [hs]
      simp [countFiredSince, hclosed]
    · intro h
      have hread : ∃ config, a.val.circuitBreaker.read = .obj config := by
        unfold breakerKnobs at hk
        cases hread : a.val.circuitBreaker.read with
        | obj config => exact ⟨config, rfl⟩
        | _ => rw [hread] at hk; simp [Json.getAttr] at hk
      cases hs : windowStart window now with
      | error e => rw [hs] at h; cases h
      | ok since =>
        rw [hs] at h
        simp only [countFiredSince, List.countP_nil, Nat.cast_zero] at h
        cases hcompare : Json.compare .ge (.int 0) threshold with
        | error e => rw [hcompare] at h; cases h
        | ok reached =>
          rw [hcompare] at h
          cases reached with
          | true => cases h
          | false =>
            refine ⟨fun _ => hread, fun T W hTW => ?_, fun T W hTW => ?_⟩
            · cases hk.symm.trans hTW
              exact ⟨since, hs⟩
            · cases hk.symm.trans hTW
              exact hcompare

/-- A breaker that starts closed always answers. -/
theorem StartsClosed.answers (h : StartsClosed a.val now) (runs : Runs) :
    ∃ reason, checkCircuitBreaker a now runs = .ok reason := by
  cases hk : breakerKnobs a.val with
  | none =>
    rw [(checkCircuitBreaker_unset hk []).1]
    exact ⟨none, startsClosed_iff.mp h⟩
  | some knobs =>
    obtain ⟨threshold, window⟩ := knobs
    rw [checkCircuitBreaker_eq hk]
    obtain ⟨since, hs⟩ := h.measured threshold window hk
    have hclosed := h.closed threshold window hk
    rw [hs]
    rcases compare_ge_int threshold with ⟨e, he⟩ | ⟨reached, hr, -⟩
    · rw [he] at hclosed
      cases hclosed
    · dsimp only
      rw [hr]
      exact ⟨_, rfl⟩

/-- A breaker that does not start closed answers every history alike. -/
theorem skipReason_of_not_startsClosed (h : ¬ StartsClosed a.val now) (runs : Runs) :
    skipReason a now runs = skipReason a now [] := by
  rw [startsClosed_iff] at h
  have hsame : checkCircuitBreaker a now runs = checkCircuitBreaker a now [] := by
    cases hk : breakerKnobs a.val with
    | none => exact (checkCircuitBreaker_unset hk []).1
    | some knobs =>
      obtain ⟨threshold, window⟩ := knobs
      rw [checkCircuitBreaker_eq hk] at h ⊢
      rw [checkCircuitBreaker_eq hk]
      cases hs : windowStart window now with
      | error e => rfl
      | ok since =>
        rw [hs] at h
        simp only [countFiredSince, List.countP_nil, Nat.cast_zero] at h ⊢
        rcases compare_ge_int threshold with ⟨e, he⟩ | ⟨reached, hr, hmono⟩
        · rw [he, he]
        · rw [hr] at h ⊢
          rw [hr]
          cases hzero : reached 0 with
          | false => rw [hzero] at h; exact absurd rfl h
          | true => rw [hmono 0 _ (Int.natCast_nonneg _) hzero]
  unfold skipReason
  rw [hsame]
  cases hb : checkCircuitBreaker a now [] with
  | error e => rfl
  | ok reason =>
    cases reason with
    | none => exact absurd hb h
    | some reason => rfl

end Breaker

/-! ## A history just before the cutoff -/

section Old

variable {a : Row Automation} {env : Env} {event : Dict} {now cutoff since t : Int} {n : Nat}

def oldRuns (a : Row Automation) (t : Int) (n : Nat) : Table AutomationRun :=
  .repeated t (runOf (a.val.eventType.getD "periodic") [] a true (.arr []) none) n

theorem firedRow_oldRuns {r : Row AutomationRun} (hr : r ∈ (oldRuns a t n).rows) :
    firedRow a.id r = true ∧ r.val.automationId = a.id ∧ r.createdAt = t := by
  obtain ⟨ht, hval⟩ := Table.mem_repeated hr
  unfold firedRow
  rw [hval]
  exact ⟨by simp [runOf], rfl, ht⟩

theorem kept_oldRuns (h : t < cutoff) : kept cutoff (oldRuns a t n).rows = [] := by
  apply List.filter_eq_nil_iff.mpr
  intro r hr
  obtain ⟨-, -, ht⟩ := firedRow_oldRuns hr
  have : ¬ cutoff ≤ r.createdAt := by omega
  simpa using this

theorem countFiredSince_oldRuns (h : since ≤ t) :
    countFiredSince a.id since (oldRuns a t n).rows = n := by
  have hall : countFiredSince a.id since (oldRuns a t n).rows = (oldRuns a t n).rows.length := by
    apply List.countP_eq_length.mpr
    intro r hr
    obtain ⟨hfired, -, ht⟩ := firedRow_oldRuns hr
    rw [hfired, ht]
    simpa using h
  rw [hall]
  exact Table.length_repeated ..

theorem latest_oldRuns {p : Row AutomationRun → Bool}
    (hp : ∀ r ∈ (oldRuns a t (n + 1)).rows, p r = true) :
    (((oldRuns a t (n + 1)).rows.filter p).map (·.createdAt)).max? = some t := by
  rw [latest_eq_some]
  constructor
  · obtain ⟨r, hr⟩ := List.exists_mem_of_length_pos
      (l := (oldRuns a t (n + 1)).rows) (by simp [oldRuns])
    exact ⟨r, hr, hp r hr, (firedRow_oldRuns hr).2.2⟩
  · intro r hr _
    exact (firedRow_oldRuns hr).2.2.le

theorem exists_skipReason {runs : Runs} (hb : InBounds a.val) (hclosed : StartsClosed a.val now)
    (h : checkCircuitBreaker a now runs = .ok (some .circuitOpen) ∨
      coolingDown a now runs = .ok true ∨ overLimit a now runs = .ok true) :
    ∃ reason, skipReason a now runs = .ok (some reason) := by
  obtain ⟨reason, hbreaker⟩ := hclosed.answers runs
  unfold skipReason checkRateLimits
  rw [hbreaker] at h ⊢
  cases reason with
  | some reason => exact ⟨reason, rfl⟩
  | none =>
    have hcools : ∃ b, coolingDown a now runs = .ok b := by
      unfold coolingDown
      cases hc : a.val.cooldownSeconds with
      | none => exact ⟨false, rfl⟩
      | some cooldown =>
        have hpos := hb.valid.cooldown _ hc
        have hlt := hb.cooldown _ hc
        cases lastFireTime a.id runs with
        | none => exact ⟨false, rfl⟩
        | some last =>
          exact ⟨_, within_of_fits ⟨by omega, hlt⟩⟩
    obtain ⟨cooling, hcooling⟩ := hcools
    rw [hcooling] at h ⊢
    cases cooling with
    | true => exact ⟨_, rfl⟩
    | false =>
      have hover : overLimit a now runs = .ok true := by simpa using h
      rw [hover]
      exact ⟨_, rfl⟩

/-- A limit that reaches past the cutoff has a history that it holds the automation back for. -/
theorem exists_oldRuns_skipped {days : Int} (hb : InBounds a.val)
    (hclosed : StartsClosed a.val now) (hcutoff : cutoff = now - days * dayUs)
    (h : ¬ LimitsFit a.val now cutoff) :
    ∃ n reason, skipReason a now (oldRuns a (cutoff - 1) (n + 1)).rows = .ok (some reason) := by
  by_cases hcool : ∀ c, a.val.cooldownSeconds = some c → cutoff ≤ now - c * secondUs
  · by_cases hlimit : ∀ maxRuns window since, a.val.maxRunsPerWindow = some maxRuns →
        a.val.windowSeconds = some window → windowStart (.int window) now = .ok since →
        cutoff ≤ since
    · have hbreaker : ∃ threshold window q since, breakerKnobs a.val = some (threshold, window) ∧
          threshold.num? = some (.fin q) ∧ windowStart window now = .ok since ∧
          since < cutoff := by
        by_contra hno
        refine h ⟨hcool, hlimit, fun T W q since hk hq hs => ?_⟩
        by_contra hlt
        exact hno ⟨T, W, q, since, hk, hq, hs, by omega⟩
      obtain ⟨T, W, q, since, hk, hq, hs, hlt⟩ := hbreaker
      refine ⟨⌈q⌉₊, exists_skipReason hb hclosed (.inl ?_)⟩
      have hreach : q ≤ ((⌈q⌉₊ + 1 : Nat) : Int) := by
        have := Nat.le_ceil q
        push_cast
        linarith
      rw [checkCircuitBreaker_eq hk, hs]
      dsimp only
      rw [countFiredSince_oldRuns (by omega), Json.compare_ge_fin hq, decide_eq_true hreach]
      rfl
    · push Not at hlimit
      obtain ⟨maxRuns, window, since, hm, hw, hs, hlt⟩ := hlimit
      refine ⟨maxRuns.toNat, exists_skipReason hb hclosed (.inr (.inr ?_))⟩
      have hreach : maxRuns ≤ ((maxRuns.toNat + 1 : Nat) : Int) := by omega
      unfold overLimit countFiredInWindow
      rw [hm, hw]
      dsimp only
      rw [hs]
      dsimp only
      rw [countFiredSince_oldRuns (by omega), decide_eq_true hreach]
  · push Not at hcool
    obtain ⟨c, hc, hlt⟩ := hcool
    refine ⟨0, exists_skipReason hb hclosed (.inr (.inl ?_))⟩
    have hpos := hb.valid.cooldown _ hc
    have hfits := hb.cooldown _ hc
    have hcools : now - (cutoff - 1) < c * secondUs := by
      unfold secondUs dayUs at *
      omega
    unfold coolingDown lastFireTime
    rw [hc, latest_oldRuns fun r hr => (firedRow_oldRuns hr).1]
    dsimp only
    rw [within_of_fits ⟨by omega, hfits⟩, decide_eq_true hcools]

theorem skipReason_nil_ne (hv : Valid a.val) (hclosed : StartsClosed a.val now) (reason : Skip) :
    skipReason a now [] ≠ .ok (some reason) := by
  have hcooling : coolingDown a now [] = .ok false := by
    unfold coolingDown
    cases a.val.cooldownSeconds <;> rfl
  have hover : overLimit a now [] ≠ .ok true := by
    unfold overLimit countFiredInWindow
    cases hm : a.val.maxRunsPerWindow with
    | none => nofun
    | some maxRuns =>
      cases a.val.windowSeconds with
      | none => nofun
      | some window =>
        dsimp only
        cases windowStart (.int window) now with
        | error e => nofun
        | ok since =>
          have hpos : ¬ maxRuns ≤ 0 := by
            have := (hv.window maxRuns hm).1
            omega
          simp [countFiredSince, hpos]
  unfold skipReason checkRateLimits
  rw [startsClosed_iff.mp hclosed, hcooling]
  dsimp only
  cases ho : overLimit a now [] with
  | error e => nofun
  | ok exceeded =>
    cases exceeded with
    | true => exact absurd ho hover
    | false => nofun

end Old

/-! ## Evaluations -/

section Evaluations

variable {a : Row Automation} {env : Env} {event : Dict} {cutoff : Int} {runs : Runs}

theorem outcome_kept (hb : InBounds a.val)
    (h : conditionsPassed env.lib event a.val = .ok true → StartsClosed a.val env.now →
      LimitsFit a.val env.now cutoff) :
    outcome env event a (kept cutoff runs) = outcome env event a runs := by
  unfold outcome decision
  cases hc : conditionsPassed env.lib event a.val with
  | error e => rfl
  | ok passed =>
    cases passed with
    | false => rfl
    | true =>
      have hskip : skipReason a env.now (kept cutoff runs) = skipReason a env.now runs := by
        by_cases hclosed : StartsClosed a.val env.now
        · exact skipReason_kept hb (h hc hclosed)
        · rw [skipReason_of_not_startsClosed hclosed,
            skipReason_of_not_startsClosed hclosed runs]
      dsimp only
      rw [hskip]

theorem dueOutcome_kept (hb : InBounds a.val) (htrigger : a.val.triggerType = "periodic")
    (hs : ∀ schedule, a.val.scheduleSeconds = some schedule →
      cutoff ≤ env.now - schedule * secondUs)
    (h : conditionsPassed env.lib [] a.val = .ok true → StartsClosed a.val env.now →
      LimitsFit a.val env.now cutoff) :
    dueOutcome env a (kept cutoff runs) = dueOutcome env a runs := by
  obtain ⟨schedule, hschedule, hn, hbounds⟩ := hb.scheduleOf htrigger
  unfold dueOutcome lastRunTime ownRuns
  rw [hschedule, latest_kept, outcome_kept hb h]
  dsimp only
  cases hl : ((runs.filter fun r => r.val.automationId == a.id).map (·.createdAt)).max? with
  | none => rfl
  | some last =>
    by_cases hlast : cutoff ≤ last
    · rw [Option.filter_some_pos (by simpa using hlast)]
    · rw [Option.filter_some_neg (by simpa using hlast)]
      dsimp only
      rw [within_before hbounds (hs schedule hn) (by omega)]

theorem exists_oldRuns_records {days : Int} (hb : InBounds a.val)
    (hcutoff : cutoff = env.now - days * dayUs)
    (hc : conditionsPassed env.lib event a.val = .ok true) (hclosed : StartsClosed a.val env.now)
    (h : ¬ LimitsFit a.val env.now cutoff) :
    ∃ n, outcome env event a (oldRuns a (cutoff - 1) (n + 1)).rows = .records false true := by
  obtain ⟨n, reason, hskip⟩ := exists_oldRuns_skipped hb hclosed hcutoff h
  refine ⟨n, ?_⟩
  unfold outcome decision
  rw [hc]
  dsimp only
  rw [hskip]

theorem outcome_nil_ne (hv : Valid a.val) (hc : conditionsPassed env.lib event a.val = .ok true)
    (hclosed : StartsClosed a.val env.now) : outcome env event a [] ≠ .records false true := by
  unfold outcome decision
  rw [hc]
  dsimp only
  cases hs : skipReason a env.now [] with
  | error e => nofun
  | ok reason =>
    cases reason with
    | some reason => exact absurd hs (skipReason_nil_ne hv hclosed reason)
    | none =>
      dsimp only
      split <;> nofun

/-- Runs before the cutoff hold it back unless the limits fit. -/
theorem limitsFit_of_old_same {days : Int} (hb : InBounds a.val)
    (hcutoff : cutoff = env.now - days * dayUs)
    (hc : conditionsPassed env.lib event a.val = .ok true) (hclosed : StartsClosed a.val env.now)
    (h : ∀ n, outcome env event a [] =
      outcome env event a (oldRuns a (cutoff - 1) (n + 1)).rows) :
    LimitsFit a.val env.now cutoff := by
  by_contra hnot
  obtain ⟨n, hskip⟩ := exists_oldRuns_records hb hcutoff hc hclosed hnot
  exact outcome_nil_ne hb.valid hc hclosed ((h n).trans hskip)

theorem outcome_ne_idle : outcome env event a runs ≠ .idle := by
  unfold outcome
  split
  · nofun
  · nofun
  · nofun
  · split <;> nofun

/-- Over every history, an evaluation is the same without the runs before the cutoff exactly when
every knob fits. -/
theorem evaluated_kept_iff (env : Env) (event : Dict) {days : Int} (hb : InBounds a.val)
    (hcutoff : cutoff = env.now - days * dayUs) :
    (∀ t : Table AutomationRun, evaluated env event a (kept cutoff t.rows) =
      evaluated env event a t.rows) ↔ KnobsFit env event a.val cutoff := by
  have hold : ∀ n, kept cutoff (oldRuns a (cutoff - 1) n).rows = [] :=
    fun n => kept_oldRuns (by omega)
  unfold evaluated
  by_cases hp : a.val.triggerType = "periodic"
  · have hseen : seenEvent event a.val = [] := if_pos hp
    simp only [hp, if_true]
    constructor
    · intro h
      obtain ⟨schedule, hschedule, hn, hbounds⟩ := hb.scheduleOf hp
      have hold' : ∀ n, outcome env [] a [] =
          dueOutcome env a (oldRuns a (cutoff - 1) (n + 1)).rows := by
        intro n
        rw [← h, hold]
        unfold dueOutcome
        rw [hschedule]
        rfl
      have hdue : ∀ n, dueOutcome env a (oldRuns a (cutoff - 1) (n + 1)).rows =
          if env.now - (cutoff - 1) < schedule * secondUs then .idle
          else outcome env [] a (oldRuns a (cutoff - 1) (n + 1)).rows := by
        intro n
        unfold dueOutcome lastRunTime ownRuns
        rw [hschedule, latest_oldRuns fun r hr => by simp [(firedRow_oldRuns hr).2.1]]
        dsimp only
        rw [within_of_fits ⟨by omega, hbounds.2⟩]
        split
        · next hw => cases hw
        · next hw => rw [if_pos (by simpa using hw)]
        · next hw => rw [if_neg (by simpa using hw)]
      have hover : ¬ env.now - (cutoff - 1) < schedule * secondUs := by
        intro hearly
        have hidle := (hold' 0).trans (hdue 0)
        rw [if_pos hearly] at hidle
        exact outcome_ne_idle hidle
      refine ⟨fun _ s hs => ?_, fun hc hclosed => ?_⟩
      · cases hn.symm.trans hs
        unfold secondUs dayUs at *
        omega
      · rw [hseen] at hc
        refine limitsFit_of_old_same hb hcutoff hc hclosed fun n => ?_
        rw [hold' n, hdue n, if_neg hover]
    · intro h t
      have hlimits := h.limits
      rw [hseen] at hlimits
      exact dueOutcome_kept hb hp (h.schedule hp) hlimits
  · have hseen : seenEvent event a.val = event := if_neg hp
    simp only [hp, if_false]
    constructor
    · intro h
      refine ⟨fun hperiodic => absurd hperiodic hp, fun hc hclosed => ?_⟩
      rw [hseen] at hc
      refine limitsFit_of_old_same hb hcutoff hc hclosed fun n => ?_
      rw [← h, hold]
    · intro h t
      have hlimits := h.limits
      rw [hseen] at hlimits
      exact outcome_kept hb hlimits

end Evaluations

/-! ## Prune passes -/

theorem appliedCutoffs_runs {now eventDays runDays cutoff : Int}
    (h : (appliedCutoffs now eventDays runDays).2 = some cutoff) :
    cutoff = now - runDays * dayUs := by
  unfold appliedCutoffs at h
  split at h
  · cases h
  · split at h
    · cases h
    · next hr => exact retentionCutoff_eq_some (hr.trans (congrArg Except.ok h))

theorem runs_prune (db : Db) (events runs : Option Int) :
    (db.prune events runs).runs.rows = runs.elim db.runs.rows fun c => kept c db.runs.rows := by
  have hruns : (db.prune events none).runs = db.runs := by
    cases events <;> rfl
  cases runs with
  | none => exact congrArg Table.rows hruns
  | some c =>
    show ((db.prune events none).runs.deleteWhere _).rows = kept c db.runs.rows
    rw [hruns]
    exact db.runs.rows_deleteWhere_lt (·.createdAt) c

/-- Pruning the runs before an evaluation changes nothing, for any history, exactly when every
knob of the automation fits the retention. -/
theorem prune_keeps_evaluation (env : Env) (event : Dict) (a : Row Automation) (ha : Accepted a)
    (batch : Batch) (eventDays runDays : Int) :
    (∀ db, evaluated env event a
        (pruneEvents env.now false batch eventDays runDays db).1.runs.rows =
      evaluated env event a db.runs.rows) ↔
    ∀ cutoff, (appliedCutoffs env.now eventDays runDays).2 = some cutoff →
      KnobsFit env event a.val cutoff := by
  simp only [pruneEvents_eq, runs_prune]
  cases hc : (appliedCutoffs env.now eventDays runDays).2 with
  | none => exact ⟨fun _ => nofun, fun _ _ => rfl⟩
  | some cutoff =>
    have hkept := evaluated_kept_iff env event ha.inBounds (appliedCutoffs_runs hc)
    constructor
    · rintro h c ⟨⟩
      exact hkept.mp fun t => h { Db.empty with runs := t }
    · intro h db
      exact hkept.mpr (h cutoff rfl) db.runs

def slowLog : Row Automation where
  id := 1
  createdAt := 0
  val := { name := "slow-log", triggerType := "event", eventType := some "task-failed",
           actions := .store (.arr [.obj [("type", .str "log")]]),
           cooldownSeconds := some 172800 }

theorem accepted_slowLog : Accepted slowLog :=
  ⟨0, [("name", .str "slow-log"), ("trigger_type", .str "event"),
    ("event_type", .str "task-failed"), ("actions", .arr [.obj [("type", .str "log")]]),
    ("cooldown_seconds", .int 172800)], .empty, by decide⟩

def firedOnce : Db :=
  { Db.empty with runs := history {} [.event (.idle 0) "task-failed" [] [slowLog]] }

/-- Still cooling down, it fires again once the runs older than a day are gone. -/
theorem prune_ends_cooldown :
    evaluated (.idle (dayUs + secondUs)) [] slowLog firedOnce.runs.rows = .records false true ∧
      evaluated (.idle (dayUs + secondUs)) [] slowLog
        (pruneEvents (dayUs + secondUs) false ⟨1000, by decide⟩ 0 1 firedOnce).1.runs.rows =
          .records true true := by
  rw [pruneEvents_eq]
  decide

/-- Runs kept for two days hold the whole cooldown. -/
theorem prune_keeps_evaluation_slowLog : evaluated (.idle (3 * dayUs)) [] slowLog
    (pruneEvents (3 * dayUs) false ⟨1000, by decide⟩ 0 2 firedOnce).1.runs.rows =
      evaluated (.idle (3 * dayUs)) [] slowLog firedOnce.runs.rows := by
  refine (prune_keeps_evaluation (.idle (3 * dayUs)) [] slowLog accepted_slowLog
    ⟨1000, by decide⟩ 0 2).mpr (fun cutoff hcutoff => ?_) firedOnce
  cases hcutoff
  refine ⟨by decide, fun _ _ => ⟨?_, nofun, nofun⟩⟩
  rintro cooldown ⟨⟩
  decide

end Taskowl
