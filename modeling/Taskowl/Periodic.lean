import Taskowl.Firing
import Taskowl.Lib.Spacing

/-!
# Spacing of periodic dispatches

Ticks of `_periodic_automation_check` one after the other, with a log of what
was dispatched when. A committed run is what keeps an automation from firing
before its schedule, so a pass that raises after a dispatch, and takes the run
back, is the only way to fire early.
-/

namespace Taskowl

open Lib Py

structure Tick where
  env : Env
  scan : List (Row Automation)

/-- The engine between ticks, with the dispatches so far: whose, and when. -/
structure Ticking where
  engine : Engine
  log : List (Nat × Int) := []

/-- `_periodic_automation_check` runs a pass; what the pass raises is logged and dropped. -/
def Ticking.tick (s : Ticking) (k : Tick) : Ticking :=
  let pass := s.engine.pass (.periodic k.env k.scan)
  ⟨⟨pass.runs, pass.world⟩, s.log ++ pass.dispatched.map (·, k.env.now)⟩

def Ticking.loop (s : Ticking) (k : Tick) : Session × Option PyErr :=
  forEach (evaluateDue k.env) (k.scan.filter matchesPeriodic) ⟨s.engine.world, s.engine.runs, []⟩

theorem Ticking.log_tick (s : Ticking) (k : Tick) :
    (s.tick k).log = s.log ++ (s.loop k).1.dispatched.map (·, k.env.now) :=
  congrArg (fun ids : List Nat => s.log ++ ids.map (·, k.env.now)) (Pass.dispatched_finish ..)

theorem Ticking.runs_tick (s : Ticking) (k : Tick) :
    (s.tick k).engine.runs = if (s.loop k).2.isSome then s.engine.runs else (s.loop k).1.runs :=
  Pass.runs_finish

/-- If an automation of the pass raises, then neither it nor one before it has dispatched. -/
def Harmless (s : Ticking) (k : Tick) : Prop :=
  let outcomeOf := fun a => dueOutcome k.env a s.engine.runs.rows
  ∀ l a l', k.scan.filter matchesPeriodic = l ++ a :: l' →
    (∀ b ∈ l, (outcomeOf b).isRaise = false) → (outcomeOf a).isRaise = true →
    ∀ b ∈ l ++ [a], (outcomeOf b).dispatches = false

/-- Every dispatch has a committed run no older than it, and those of an automation are its
schedule apart. -/
structure Paced (automations : Table Automation) (s : Ticking) : Prop where
  recorded : ∀ id t, (id, t) ∈ s.log →
    ∃ r ∈ s.engine.runs.rows, r.val.automationId = id ∧ t ≤ r.createdAt
  spaced : ∀ a ∈ automations.rows, ∀ schedule, a.val.scheduleSeconds = some schedule →
    Spaced (schedule * secondUs) (times a.id s.log)

/-- An automation that a tick dispatches is due. -/
theorem due_of_dispatches {env : Env} {a : Row Automation} {runs : Runs} {schedule : Int}
    (h : (dueOutcome env a runs).dispatches = true) (hs : a.val.scheduleSeconds = some schedule) :
    ∀ r ∈ runs, r.val.automationId = a.id → r.createdAt + schedule * secondUs ≤ env.now := by
  intro r hr hid
  unfold dueOutcome scheduleOf at h
  rw [hs] at h
  by_cases h0 : schedule = 0
  · subst h0
    cases h
  · have hsome : (some schedule).filter (· != 0) = some schedule := by simp [h0]
    rw [hsome] at h
    dsimp only at h
    cases hl : lastRunTime a.id runs with
    | none =>
      have := latest_eq_none.mp hl r hr
      rw [hid, beq_self_eq_true] at this
      cases this
    | some last =>
      obtain ⟨-, hmax⟩ := latest_eq_some.mp hl
      have hle := hmax r hr (by rw [hid, beq_self_eq_true])
      rw [hl] at h
      dsimp only at h
      split at h
      · cases h
      · cases h
      · next hw =>
        have := le_of_within hw
        omega

theorem harmless_of_quiet {s : Ticking} {k : Tick}
    (h : ∀ a ∈ k.scan.filter matchesPeriodic,
      (dueOutcome k.env a s.engine.runs.rows).isRaise = false) : Harmless s k := by
  intro l a l' heq _ hraise
  have hq := h a (by rw [heq]; exact List.mem_append_right _ List.mem_cons_self)
  rw [hq] at hraise
  cases hraise

theorem paced_tick {automations : Table Automation} {s : Ticking} {k : Tick}
    (hscan : k.scan.Perm automations.rows) (hh : Harmless s k) (h : Paced automations s) :
    Paced automations (s.tick k) := by
  have hids : ((k.scan.filter matchesPeriodic).map (·.id)).Nodup :=
    (List.filter_sublist.map _).nodup (automations.nodup_ids hscan)
  let v := fun a => dueOutcome k.env a s.engine.runs.rows
  by_cases hraise : ∃ a ∈ k.scan.filter matchesPeriodic, (v a).isRaise = true
  · -- Nothing was dispatched, nothing is committed.
    obtain ⟨hsome, l, a, l', heq, hl, ha, hdisp⟩ := forEach_raised
      (s := ⟨s.engine.world, s.engine.runs, []⟩) performs_evaluateDue v (fun _ _ => rfl) hids hraise
    have hnone : (l ++ [a]).filter (fun a => (v a).dispatches) = [] := by
      rw [List.filter_eq_nil_iff]
      intro b hb
      rw [hh l a l' heq hl ha b hb]
      exact Bool.false_ne_true
    have hlog : (s.tick k).log = s.log := by
      rw [s.log_tick, Ticking.loop, hdisp, hnone]
      exact List.append_nil _
    have hruns : (s.tick k).engine.runs = s.engine.runs := by
      rw [s.runs_tick, Ticking.loop, if_pos hsome]
    exact ⟨by rw [hlog, hruns]; exact h.recorded, by rw [hlog]; exact h.spaced⟩
  · have hquiet : ∀ a ∈ k.scan.filter matchesPeriodic, (v a).isRaise = false := by
      intro a ha
      by_contra hne
      exact hraise ⟨a, ha, by simpa using hne⟩
    obtain ⟨hnone, hdisp, new, hnew, hall⟩ := forEach_quiet
      (s := ⟨s.engine.world, s.engine.runs, []⟩) performs_evaluateDue v (fun _ _ => rfl) hids hquiet
    have hlog : (s.tick k).log = s.log ++
        (((k.scan.filter matchesPeriodic).filter fun a => (v a).dispatches).map (·.id)).map
          (·, k.env.now) := by
      rw [s.log_tick, Ticking.loop, hdisp]
      rfl
    have hruns : (s.tick k).engine.runs.rows = s.engine.runs.rows ++ new := by
      rw [s.runs_tick, Ticking.loop, hnone]
      exact hnew
    constructor
    · intro id t hmem
      rw [hlog, List.mem_append] at hmem
      rw [hruns]
      rcases hmem with hmem | hmem
      · obtain ⟨r, hr, hid, ht⟩ := h.recorded id t hmem
        exact ⟨r, List.mem_append_left _ hr, hid, ht⟩
      · obtain ⟨_, hid, heq⟩ := List.mem_map.mp hmem
        obtain ⟨a, ha, rfl⟩ := List.mem_map.mp hid
        obtain ⟨ham, hd⟩ := List.mem_filter.mp ha
        cases heq
        obtain ⟨r, hr, hnow, d, p, -, hrun⟩ := exists_added hall (List.mem_filter.mpr
          ⟨ham, Outcome.isRecord_of_dispatches (hquiet a ham) hd⟩)
        exact ⟨r, List.mem_append_right _ hr, hrun.automationId, hnow.ge⟩
    · intro a ha schedule hs
      rw [hlog, times_append, times_map ((List.filter_sublist.map _).nodup hids)]
      split
      · next hmem =>
        obtain ⟨b, hb, hid⟩ := List.mem_map.mp hmem
        obtain ⟨hbm, hd⟩ := List.mem_filter.mp hb
        have hab : b = a := automations.eq_of_id_eq
          (hscan.mem_iff.mp (List.mem_of_mem_filter hbm)) ha hid
        subst hab
        refine (h.spaced b ha schedule hs).snoc fun t ht => ?_
        obtain ⟨r, hr, hid, hle⟩ := h.recorded b.id t (mem_times.mp ht)
        have := due_of_dispatches hd hs r hr hid
        omega
      · rw [List.append_nil]
        exact h.spaced a ha schedule hs

/-- In every run of ticks in which no pass raises after a dispatch, an automation's dispatches
are its schedule apart. -/
theorem dispatches_spaced (automations : Table Automation) (start : Engine) (ticks : List Tick)
    (hscan : ∀ k ∈ ticks, k.scan.Perm automations.rows)
    (hharmless : Along Ticking.tick Harmless ⟨start, []⟩ ticks) :
    ∀ a ∈ automations.rows, ∀ schedule, a.val.scheduleSeconds = some schedule →
      Spaced (schedule * secondUs) (times a.id (run Ticking.tick ⟨start, []⟩ ticks).log) := by
  have hstart : Paced automations ⟨start, []⟩ :=
    ⟨fun _ _ hm => absurd hm List.not_mem_nil, fun _ _ _ _ => spaced_nil _⟩
  have hsteps := hharmless.and (along_of_forall hscan)
  exact (hsteps.invariant (fun s k hk hs => paced_tick hk.2 hk.1 hs) hstart).spaced

/-- A store of two periodic automations made by `create_automation`: a log every minute, and one
with a number for a condition. -/
def malformedSchedule : Db :=
  let definition (name : String) (conditions : List Json) : Dict :=
    [("name", .str name), ("trigger_type", .str "periodic"), ("schedule_seconds", .int 60),
      ("conditions", .arr conditions), ("actions", .arr [.obj [("type", .str "log")]])]
  let db := (createAutomation 0 (definition "log-every-minute" []) .empty).1
  (createAutomation 0 (definition "malformed" [.int 5]) db).1

/-- Two ticks a second apart dispatch the log twice. -/
theorem dispatches_storm :
    ¬ Spaced (60 * secondUs) (times 1 (run Ticking.tick ⟨⟨.empty, {}⟩, []⟩
      [⟨.idle 0, malformedSchedule.automations.rows⟩,
        ⟨.idle secondUs, malformedSchedule.automations.rows⟩]).log) := by
  have hlog : times 1 (run Ticking.tick ⟨⟨.empty, {}⟩, []⟩
      [⟨.idle 0, malformedSchedule.automations.rows⟩,
        ⟨.idle secondUs, malformedSchedule.automations.rows⟩]).log = [0, secondUs] := by decide
  rw [hlog]
  intro h
  have := List.rel_of_pairwise_cons h List.mem_cons_self
  unfold secondUs at this
  omega

def minuteLog : Table Automation := malformedSchedule.automations.deleteWhere (·.id == 2)

theorem dispatches_spaced_minuteLog :
    Spaced (60 * secondUs) (times 1 (run Ticking.tick ⟨⟨.empty, {}⟩, []⟩
      [⟨.idle 0, minuteLog.rows⟩, ⟨.idle secondUs, minuteLog.rows⟩,
        ⟨.idle (60 * secondUs), minuteLog.rows⟩]).log) := by
  have hrow : ∃ a ∈ minuteLog.rows, a.id = 1 ∧ a.val.scheduleSeconds = some 60 := by decide
  obtain ⟨a, ha, hid, hschedule⟩ := hrow
  have hspaced := dispatches_spaced minuteLog ⟨.empty, {}⟩
    [⟨.idle 0, minuteLog.rows⟩, ⟨.idle secondUs, minuteLog.rows⟩,
      ⟨.idle (60 * secondUs), minuteLog.rows⟩] ?_ ⟨?_, ?_, ?_, trivial⟩ a ha 60 hschedule
  · rw [hid] at hspaced
    exact hspaced
  · intro k hk
    have : k.scan = minuteLog.rows := by
      simp only [List.mem_cons, List.not_mem_nil, or_false] at hk
      rcases hk with rfl | rfl | rfl <;> rfl
    exact .of_eq this
  all_goals exact harmless_of_quiet (by decide)

end Taskowl
