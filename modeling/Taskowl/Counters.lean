import Taskowl.Firing
import Taskowl.Metrics
import Taskowl.Redelivery

/-!
# Counters over runs of the system

A scrape counts the rows that are in the tables, so its counters go down with
them. Ingestion and evaluation only add rows; a prune deletes events and runs,
and `delete_automation` the runs of the automation. A run in which no step
deletes a row that is counted has counters that never fall.
-/

namespace Taskowl

open Lib Py

def NotLower (earlier later : Option Int) : Prop :=
  ∀ m, earlier = some m → ∃ n, later = some n ∧ m ≤ n

/-- Between any two scrapes of a run no series of the three counters goes down. -/
def CountersRise (p : Prometheus) (lib : PyLib) (s : System) (ops : List SystemOp) : Prop :=
  ∀ before between after, ops = before ++ between ++ after → ∀ now now' scan scan' r r',
    scrape p lib now scan (run System.step s before).db = .ok r →
    scrape p lib now' scan' (run System.step s (before ++ between)).db = .ok r' →
    ∀ series : Series CounterMetric, series.metric ≠ .workerProcessedTotal →
      NotLower (p.counter r series) (p.counter r' series)

def Counted (lib : PyLib) (r : Row AutomationRun) : Prop :=
  (countedSeries lib r.val).isSome = true

instance (lib : PyLib) (r : Row AutomationRun) : Decidable (Counted lib r) :=
  inferInstanceAs (Decidable (_ = true))

def KeepsCounted (lib : PyLib) (s : System) : SystemOp → Prop
  | .prune events runs =>
    (∀ cutoff, events = some cutoff → ∀ r ∈ s.db.taskEvents.rows, cutoff ≤ r.val.timestamp) ∧
      ∀ cutoff, runs = some cutoff → ∀ r ∈ s.db.runs.rows, Counted lib r → cutoff ≤ r.createdAt
  | .delete id => (s.db.automations.get? id).isSome = true →
      ∀ r ∈ s.db.runs.rows, Counted lib r → r.val.automationId ≠ id
  | _ => True

structure Grows (lib : PyLib) (db db' : Db) : Prop where
  events : db.taskEvents.rows.Sublist db'.taskEvents.rows
  runs : (db.runs.rows.filter (Counted lib)).Sublist db'.runs.rows

theorem tally_notLower {m n : Nat} (h : m ≤ n) : NotLower (tally m) (tally n) := by
  intro k hk
  unfold tally at hk ⊢
  split at hk
  · cases hk
  · cases hk
    exact ⟨n, if_neg (by omega), by omega⟩

theorem filter_sublist_filter {α : Type} {p q : α → Bool} {as : List α}
    (h : ∀ a ∈ as, p a = true → q a = true) : (as.filter p).Sublist (as.filter q) := by
  have hp : as.filter p = (as.filter q).filter p := by
    rw [List.filter_filter]
    apply List.filter_congr
    intro a ha
    cases hpa : p a with
    | false => rfl
    | true => rw [h a ha hpa, Bool.and_self]
  rw [hp]
  exact List.filter_sublist

section Steps

variable {lib : PyLib} {s : System} {db db' db'' : Db}

theorem Grows.of_eq (hevents : db'.taskEvents = db.taskEvents) (hruns : db'.runs = db.runs) :
    Grows lib db db' := by
  constructor
  · rw [hevents]
  · rw [hruns]
    exact List.filter_sublist

theorem Grows.trans (h : Grows lib db db') (h' : Grows lib db' db'') : Grows lib db db'' := by
  refine ⟨h.events.trans h'.events, List.Sublist.trans ?_ h'.runs⟩
  have := h.runs.filter (Counted lib)
  rwa [List.filter_filter, List.filter_congr fun r _ => Bool.and_self _] at this

theorem runs_forEach_added {now : Int} {body : Row Automation → Session → Session × Option PyErr}
    {verdict : Row Automation → Runs → Outcome} (hb : Performs now body verdict)
    (as : List (Row Automation)) (s : Session) :
    s.runs.rows <+: (forEach body as s).1.runs.rows := by
  refine forEach_invariant (I := fun s' : Session => s.runs.rows <+: s'.runs.rows)
    (fun a _ s' h => ?_) (List.prefix_refl _)
  refine h.trans ?_
  have hstep := hb.step a s'
  cases hv : verdict a s'.runs.rows with
  | raises d => rw [hv] at hstep; rw [hstep.2.1]
  | idle => rw [hv] at hstep; rw [hstep]
  | records d p =>
    rw [hv] at hstep
    obtain ⟨-, -, run, hruns, -⟩ := hstep
    rw [hruns]
    exact List.prefix_append ..

theorem runs_finish_added {t : Table AutomationRun} {r : Session × Option PyErr}
    (h : t.rows <+: r.1.runs.rows) : t.rows <+: (Pass.finish t r).runs.rows := by
  rcases r with ⟨s, _ | e⟩
  · exact h
  · exact List.prefix_refl _

theorem Grows.of_added (hevents : db.taskEvents.rows.Sublist db'.taskEvents.rows)
    (hruns : db.runs.rows <+: db'.runs.rows) : Grows lib db db' :=
  ⟨hevents, List.filter_sublist.trans hruns.sublist⟩

theorem sublist_handler {hd : Handler} {lib : PyLib} {now : Int} {event : Dict}
    (h : hd.run lib now event db = .ok db') :
    db.taskEvents.rows.Sublist db'.taskEvents.rows ∧ db'.runs = db.runs := by
  obtain ⟨row, r, -, -, rfl⟩ | ⟨row, r, -, -, rfl⟩ := Handler.run_cases h
  · refine ⟨?_, rfl⟩
    dsimp only
    unfold insertEvent Table.insertOnConflict
    split
    · exact .refl _
    · exact List.sublist_append_left ..
  · exact ⟨.refl _, rfl⟩

/-- The step only deletes, and what it means for it to keep what is counted. -/
structure Deletes (lib : PyLib) (s : System) (op : SystemOp) (p : Row TaskEvent → Bool)
    (q : Row AutomationRun → Bool) : Prop where
  events : (s.step op).db.taskEvents.rows = s.db.taskEvents.rows.filter p
  runs : (s.step op).db.runs.rows = s.db.runs.rows.filter q
  keeps : KeepsCounted lib s op ↔ (∀ r ∈ s.db.taskEvents.rows, p r = true) ∧
    ∀ r ∈ s.db.runs.rows, Counted lib r → q r = true

theorem deletes_delete (lib : PyLib) (s : System) (id : Nat) :
    ∃ p q, Deletes lib s (.delete id) p q := by
  refine ⟨fun _ => true, fun r =>
    !((s.db.automations.get? id).isSome && r.val.automationId == id), ?_, ?_, ?_⟩
  · rw [List.filter_true]
    exact congrArg Table.rows (events_deleteAutomation id).1
  · show (deleteAutomation id s.db).1.runs.rows = _
    unfold deleteAutomation
    cases s.db.automations.get? id with
    | none => exact (List.filter_true _).symm
    | some a => rfl
  · unfold KeepsCounted
    cases hget : s.db.automations.get? id <;> simp [hget]

theorem deletes_prune (lib : PyLib) (s : System) (events runs : Option Int) :
    ∃ p q, Deletes lib s (.prune events runs) p q := by
  refine ⟨fun r => !events.any fun cutoff => decide (r.val.timestamp < cutoff),
    fun r => !runs.any fun cutoff => decide (r.createdAt < cutoff), ?_, ?_, ?_⟩
  · show (s.db.prune events runs).taskEvents.rows = _
    cases events with
    | none => cases runs <;> exact (List.filter_true _).symm
    | some cutoff => cases runs <;> rfl
  · show (s.db.prune events runs).runs.rows = _
    cases runs with
    | none => cases events <;> exact (List.filter_true _).symm
    | some cutoff => cases events <;> rfl
  · unfold KeepsCounted
    cases events <;> cases runs <;> simp

theorem Deletes.grows {op : SystemOp} {p : Row TaskEvent → Bool} {q : Row AutomationRun → Bool}
    (h : Deletes lib s op p q) (hkeeps : KeepsCounted lib s op) :
    Grows lib s.db (s.step op).db := by
  obtain ⟨hp, hq⟩ := h.keeps.mp hkeeps
  refine ⟨?_, ?_⟩
  · rw [h.events, List.filter_eq_self.mpr hp]
  · rw [h.runs]
    exact filter_sublist_filter fun r hr hcounted => hq r hr (by simpa using hcounted)

/-- A step that keeps what is counted adds to it at most. -/
theorem grows_step {op : SystemOp} (h : KeepsCounted lib s op) :
    Grows lib s.db (s.step op).db := by
  cases op with
  | deliver env scan event =>
    show Grows lib s.db (s.handle env scan event).system.db
    unfold System.handle
    split
    · exact .of_eq rfl rfl
    · split
      · exact .of_eq rfl rfl
      · next hrun =>
        obtain ⟨hevents, hruns⟩ := sublist_handler hrun
        refine .of_added hevents ?_
        rw [← hruns]
        exact runs_finish_added (runs_forEach_added (performs_evaluateAutomation _ _) _
          ⟨markOnlineOf _ event s.world, _, []⟩)
  | tick env scan =>
    exact .of_added (.refl _) (runs_finish_added
      (runs_forEach_added performs_evaluateDue _ ⟨s.world, s.db.runs, []⟩))
  | create env data =>
    have honly := onlyAutomations_create s.db env.now data
    exact .of_eq honly.taskEvents honly.runs
  | update env id data =>
    have honly := onlyAutomations_update s.db env.now id data
    exact .of_eq honly.taskEvents honly.runs
  | delete id =>
    obtain ⟨p, q, hdeletes⟩ := deletes_delete lib s id
    exact hdeletes.grows h
  | toggle env id =>
    have honly := onlyAutomations_toggle s.db env.now id
    exact .of_eq honly.taskEvents honly.runs
  | seed env =>
    have honly := onlyAutomations_seed s.db env.settings env.now
    exact .of_eq honly.taskEvents honly.runs
  | prune events runs =>
    obtain ⟨p, q, hdeletes⟩ := deletes_prune lib s events runs
    exact hdeletes.grows h

end Steps

theorem Grows.notLower {p : Prometheus} {lib : PyLib} {db db' : Db} (h : Grows lib db db')
    (hp : p.Documented bucketed) {now now' : Int} {scan scan' : Scan} {r r' : p.Registry}
    (hr : scrape p lib now scan db = .ok r) (hr' : scrape p lib now' scan' db' = .ok r')
    {series : Series CounterMetric} (hseries : series.metric ≠ .workerProcessedTotal) :
    NotLower (p.counter r series) (p.counter r' series) := by
  rw [counter_scrape hp hr hseries, counter_scrape hp hr' hseries]
  have hevents := h.events.countP_le (p := fun r => decide (groupSeries (taskGroup r) = series))
  have hruns := h.runs.countP_le (p := fun r => decide (countedSeries lib r.val = some series))
  have hall : (db.runs.rows.filter (Counted lib)).countP
      (fun r => decide (countedSeries lib r.val = some series)) =
      db.runs.rows.countP fun r => decide (countedSeries lib r.val = some series) := by
    rw [List.countP_filter]
    apply List.countP_congr
    intro r _
    unfold Counted
    by_cases hs : countedSeries lib r.val = some series <;> simp [hs]
  apply tally_notLower
  omega

/-- Along a run that deletes nothing counted, no counter goes down between two scrapes. -/
theorem counters_rise {p : Prometheus} (hp : p.Documented bucketed) (lib : PyLib) (s : System)
    (ops : List SystemOp) (h : Along System.step (KeepsCounted lib) s ops) :
    CountersRise p lib s ops := by
  rintro before between after rfl now now' scan scan' r r' hr hr' series hseries
  obtain ⟨h, -⟩ := along_append.mp h
  obtain ⟨-, h⟩ := along_append.mp h
  have hgrows : Grows lib (run System.step s before).db
      (run System.step (run System.step s before) between).db :=
    h.invariant (I := fun s' : System => Grows lib (run System.step s before).db s'.db)
      (fun s' op hop hs' => hs'.trans (grows_step hop)) (.of_eq rfl rfl)
  rw [← run_append] at hgrows
  exact hgrows.notLower hp hr hr' hseries

/-! ## Steps that delete something counted -/

theorem tally_lower {m n : Nat} (h : n < m) : ¬ NotLower (tally m) (tally n) := by
  intro hnot
  obtain ⟨k, hk, hle⟩ := hnot m (if_neg (by omega))
  unfold tally at hk
  split at hk
  · cases hk
  · cases hk
    omega

theorem countP_filter_lt {α : Type} {p q : α → Bool} {as : List α} {a : α} (ha : a ∈ as)
    (hp : p a = true) (hq : q a = false) : (as.filter q).countP p < as.countP p := by
  rw [List.countP_eq_length_filter, List.countP_eq_length_filter, List.filter_comm]
  refine List.length_filter_lt_length_iff_exists.mpr ⟨a, List.mem_filter.mpr ⟨ha, hp⟩, ?_⟩
  simp [hq]

/-- After a step that deletes something counted, some counter is lower. -/
theorem Deletes.exists_lower {p : Prometheus} (hp : p.Documented bucketed) {lib : PyLib}
    {s : System} {op : SystemOp} {keepsEvent : Row TaskEvent → Bool}
    {keepsRun : Row AutomationRun → Bool} (h : Deletes lib s op keepsEvent keepsRun)
    (hop : ¬ KeepsCounted lib s op) {now now' : Int} {scan scan' : Scan} {r r' : p.Registry}
    (hr : scrape p lib now scan s.db = .ok r)
    (hr' : scrape p lib now' scan' (s.step op).db = .ok r') :
    ∃ series : Series CounterMetric, series.metric ≠ .workerProcessedTotal ∧
      ¬ NotLower (p.counter r series) (p.counter r' series) := by
  have hevents : ∀ series, (s.db.taskEvents.rows.filter keepsEvent).countP (fun r =>
      decide (groupSeries (taskGroup r) = series)) ≤ s.db.taskEvents.rows.countP fun r =>
        decide (groupSeries (taskGroup r) = series) :=
    fun series => List.filter_sublist.countP_le
  have hruns : ∀ series, (s.db.runs.rows.filter keepsRun).countP (fun r =>
      decide (countedSeries lib r.val = some series)) ≤ s.db.runs.rows.countP fun r =>
        decide (countedSeries lib r.val = some series) :=
    fun series => List.filter_sublist.countP_le
  have hlower : ∀ series : Series CounterMetric, series.metric ≠ .workerProcessedTotal →
      (s.db.taskEvents.rows.filter keepsEvent).countP (fun r =>
          decide (groupSeries (taskGroup r) = series)) +
        (s.db.runs.rows.filter keepsRun).countP (fun r =>
          decide (countedSeries lib r.val = some series)) <
      s.db.taskEvents.rows.countP (fun r => decide (groupSeries (taskGroup r) = series)) +
        s.db.runs.rows.countP (fun r => decide (countedSeries lib r.val = some series)) →
      ∃ series : Series CounterMetric, series.metric ≠ .workerProcessedTotal ∧
        ¬ NotLower (p.counter r series) (p.counter r' series) := by
    intro series hseries hlt
    refine ⟨series, hseries, ?_⟩
    rw [counter_scrape hp hr hseries, counter_scrape hp hr' hseries, h.events, h.runs]
    exact tally_lower hlt
  rw [h.keeps, not_and_or] at hop
  rcases hop with hop | hop
  · push Not at hop
    obtain ⟨row, hrow, hgone⟩ := hop
    have hlt := countP_filter_lt (p := fun r => decide (groupSeries (taskGroup r) =
      groupSeries (taskGroup row))) hrow (by simp) (by simpa using hgone)
    have := hruns (groupSeries (taskGroup row))
    exact hlower (groupSeries (taskGroup row)) (by simp [groupSeries]) (by omega)
  · push Not at hop
    obtain ⟨row, hrow, hcounted, hgone⟩ := hop
    obtain ⟨series, hs⟩ := Option.isSome_iff_exists.mp hcounted
    have hlt := countP_filter_lt (p := fun r => decide (countedSeries lib r.val = some series))
      hrow (by simpa using hs) (by simpa using hgone)
    have := hevents series
    exact hlower series (metric_countedSeries hs) (by omega)

/-- An event, and a prune of the events before the next microsecond. -/
def prunedFailure : List SystemOp :=
  [.deliver (.idle 0) .byId failedEvent, .prune (some 1) none]

/-- The event was counted, and is gone from the next scrape. -/
theorem counters_fall : ¬ CountersRise .recorder (Env.idle 0).lib .empty prunedFailure := by
  intro h
  have hscrapes : ∀ db : Db, db.runs.rows = [] → db.workerEvents.rows = [] →
      ∃ r, scrape .recorder (Env.idle 0).lib 0 .byId db = .ok r := by
    intro db hruns hworkers
    rw [scrape_ok_iff documented_recorder, hruns, hworkers]
    exact ⟨fun _ h => absurd h List.not_mem_nil, fun _ h => absurd h List.not_mem_nil⟩
  obtain ⟨r, hr⟩ := hscrapes (run System.step .empty (prunedFailure.take 1)).db
    (by decide +kernel) (by decide +kernel)
  obtain ⟨r', hr'⟩ := hscrapes (run System.step .empty prunedFailure).db
    (by decide +kernel) (by decide +kernel)
  obtain ⟨p, q, hdeletes⟩ := deletes_prune (Env.idle 0).lib
    (run System.step .empty (prunedFailure.take 1)) (some 1) none
  have hlost : ∃ row ∈ (run System.step .empty (prunedFailure.take 1)).db.taskEvents.rows,
      row.val.timestamp < 1 := by decide +kernel
  obtain ⟨series, hseries, hlower⟩ := hdeletes.exists_lower documented_recorder
    (fun hkeeps => by
      obtain ⟨row, hrow, hlt⟩ := hlost
      have := hkeeps.1 1 rfl row hrow
      omega) hr hr'
  exact hlower (h (prunedFailure.take 1) (prunedFailure.drop 1) [] rfl 0 0 .byId .byId r r' hr hr'
    series hseries)

/-- The failure is counted by the later scrape too when the prune keeps it. -/
theorem counters_rise_keptFailure :
    CountersRise .recorder (Env.idle 0).lib .empty
      [.deliver (.idle 0) .byId failedEvent, .prune (some 0) none] :=
  counters_rise documented_recorder _ _ _ ⟨trivial, ⟨by rintro cutoff ⟨⟩; decide +kernel, nofun⟩,
    trivial⟩

end Taskowl
