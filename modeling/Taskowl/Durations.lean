import Taskowl.Ingest
import Taskowl.Metrics
import Taskowl.Pruning

/-!
# Durations and task names

The duration histogram takes the name of a `succeeded` row, which no handler
writes: the name of a task stands on its messages. So every duration of an
ingested log is filed under the empty name, and the histogram counts what
`list_tasks` names only where nothing with a runtime has a name.
-/

namespace Taskowl

open Lib Py

def timed (r : Row TaskEvent) : Bool := r.val.eventType == .succeeded && r.val.runtime.isSome

def reportedUnder (entries : List TaskEntry) (name : String) (r : Row TaskEvent) : Bool :=
  entries.any fun e => e.id == r.val.taskId.str && e.name == some name

/-- `/metrics` and `list_tasks` answer, and the sample count under the name is the number of
succeeded events with a runtime whose task is reported under it. -/
def FiledByName (p : Prometheus) (env : Env) (sql : Sql) (sortBy : String) (scan scan' : Scan)
    (db : Db) (name : String) : Prop :=
  ∃ r entries, scrape p env.lib env.now scan db = .ok r ∧
    listTasks (env.reading scan' db) sql {} none 0 sortBy = .ok (.ok entries) ∧
    (p.count r ⟨.taskDuration, [name]⟩).getD 0 =
      db.taskEvents.rows.countP fun r => timed r && reportedUnder entries name r

def HasName (rows : List (Row TaskEvent)) (name : String) (r : Row TaskEvent) : Prop :=
  earliestName rows r.val.taskId = some name

instance (rows : List (Row TaskEvent)) (name : String) (r : Row TaskEvent) :
    Decidable (HasName rows name r) := inferInstanceAs (Decidable (_ = _))

def TotalsNonneg (rows : List (Row WorkerEvent)) : Prop :=
  ∀ event ∈ latestEvents rows, ∀ n, event.val.processed = some n → 0 ≤ n

/-- No timed event belongs to a task of the name. For the empty name: as many timed events of other
tasks have a runtime that is a number as timed events of its own tasks have one that is not. -/
def NothingMisfiled (rows scanned : List (Row TaskEvent)) (name : String) : Prop :=
  if name = "" then
    (rows.countP fun r => timed r && decide (¬ HasName scanned "" r) &&
        r.val.runtime.any bucketed) =
      rows.countP fun r => timed r && decide (HasName scanned "" r) && !r.val.runtime.any bucketed
  else ∀ r ∈ rows, timed r = true → ¬ HasName scanned name r

/-! ## The rows that are ingested -/

section Ingested

variable {lib : PyLib}

/-- What an ingested log has: no name on a succeeded row, and no runs. -/
structure Unnamed (db : Db) : Prop where
  names : ∀ r ∈ db.taskEvents.vals, r.eventType = .succeeded → r.name = none
  runs : db.runs.rows = []

theorem unnamed_ingest {db : Db} (d : Delivery) (h : Unnamed db) : Unnamed (ingest lib db d) := by
  unfold ingest
  split
  · exact h
  · next type hd hh =>
    split
    · exact h
    · next hrun =>
      obtain ⟨row, r, rfl, hrow, rfl⟩ | ⟨row, r, -, -, rfl⟩ := Handler.run_cases hrun
      · refine ⟨fun u hu hsucceeded => ?_, h.runs⟩
        rcases Table.mem_vals_insertOnConflict hu with hu | rfl
        · exact h.names u hu hsucceeded
        · rcases message_or_bare (handlers_of_handlerOf hh) hrow with ⟨hmessage, -⟩ | ⟨hname, -⟩
          · rw [hsucceeded] at hmessage
            rcases hmessage with hmessage | hmessage <;> cases hmessage
          · exact hname
      · exact ⟨h.names, h.runs⟩

theorem unnamed_run (ds : List Delivery) : Unnamed (run (ingest lib) .empty ds) := by
  have hempty : Unnamed Db.empty := ⟨fun r hr => absurd hr List.not_mem_nil, rfl⟩
  exact run_invariant (I := Unnamed) (fun _ d h => unnamed_ingest d h) ds hempty

end Ingested

/-! ## The samples of the histogram -/

section Samples

variable {p : Prometheus} {lib : PyLib} {now : Int} {scan : Scan} {db : Db} {r : p.Registry}

theorem countP_observations_taskUpdates (rows : List (Row TaskEvent))
    (s : Series HistogramMetric) : (observations (taskUpdates rows) s).countP bucketed =
      rows.countP fun r => timed r && r.val.runtime.any bucketed &&
        decide (durationSeries r.val.name = s) := by
  have hcounts : observations ((counts (rows.map taskGroup)).map fun g =>
      (.inc (groupSeries g.1) g.2 : MetricUpdate)) s = [] := by
    refine List.filterMap_eq_nil_iff.mpr fun u hu => ?_
    obtain ⟨g, -, rfl⟩ := List.mem_map.mp hu
    rfl
  unfold taskUpdates
  rw [observations_append, hcounts, List.nil_append]
  unfold durationRows
  clear hcounts
  induction rows with
  | nil => rfl
  | cons r rows ih =>
    rw [List.countP_cons, ← ih, List.filter_cons]
    cases htype : r.val.eventType == .succeeded with
    | false => simp [timed, htype]
    | true =>
      cases hruntime : r.val.runtime with
      | none => simp [timed, hruntime]
      | some runtime =>
        by_cases hs : durationSeries r.val.name = s <;>
          simp [timed, htype, hruntime, hs, observations, List.countP_cons]

theorem count_scrape (hp : p.Documented bucketed) (h : scrape p lib now scan db = .ok r)
    (s : Series HistogramMetric) : (p.count r s).getD 0 =
      db.taskEvents.rows.countP fun r => timed r && r.val.runtime.any bucketed &&
        decide (durationSeries r.val.name = s) := by
  rw [(scrape_samples hp h).count, getD_exported_countP]
  unfold scrapeUpdates metricUpdates
  rw [observations_append, observations_append, observations_workerUpdates,
    observations_runUpdates, List.append_nil, List.append_nil, countP_observations_taskUpdates,
    (scan.perm _).countP_eq]

/-- Of ingested events, every duration stands under the empty name. -/
theorem Unnamed.count_scrape (hp : p.Documented bucketed) (h : scrape p lib now scan db = .ok r)
    (hunnamed : Unnamed db) (name : String) : (p.count r ⟨.taskDuration, [name]⟩).getD 0 =
      if name = "" then
        db.taskEvents.rows.countP fun r => timed r && r.val.runtime.any bucketed
      else 0 := by
  rw [Taskowl.count_scrape hp h]
  have hlabel : ∀ r ∈ db.taskEvents.rows, timed r = true →
      (durationSeries r.val.name = ⟨.taskDuration, [name]⟩ ↔ name = "") := by
    intro r hr ht
    have hsucceeded : r.val.eventType = .succeeded := by simp_all [timed]
    rw [hunnamed.names _ (List.mem_map_of_mem hr) hsucceeded]
    simp [durationSeries, eq_comm]
  split
  · next hname =>
    refine List.countP_congr fun r hr => ?_
    cases ht : timed r
    · simp
    · simp [(hlabel r hr ht).mpr hname]
  · next hname =>
    refine List.countP_eq_zero.mpr fun r hr => ?_
    cases ht : timed r
    · simp
    · simp [hlabel r hr ht, hname]

end Samples

/-! ## The names of the listing -/

section Listing

variable {rows : List (Row TaskEvent)} {entries : List TaskEntry} {name : String}

theorem reportedUnder_iff (hperm : entries.Perm ((windowed rows).map taskEntry))
    {r : Row TaskEvent} (hr : r ∈ rows) :
    reportedUnder entries name r = true ↔ HasName rows name r := by
  unfold reportedUnder HasName
  simp only [List.any_eq_true, Bool.and_eq_true, beq_iff_eq]
  constructor
  · rintro ⟨e, he, hid, hname⟩
    obtain ⟨w, hw, rfl⟩ := List.mem_map.mp (hperm.mem_iff.mp he)
    obtain ⟨s, hs, rfl⟩ := List.mem_map.mp hw
    have htask : s.val.taskId = r.val.taskId := Uuid.str_inj hid
    rw [← htask]
    exact hname
  · intro hname
    obtain ⟨s, hs, htask⟩ := exists_latestRow (fun v : TaskEvent => v.taskId) (·.timestamp) hr
    refine ⟨_, hperm.mem_iff.mpr (List.mem_map_of_mem (List.mem_map_of_mem hs)), ?_, ?_⟩
    · exact congrArg Uuid.str htask
    · rw [← hname, ← htask]
      rfl

end Listing

/-! ## Where the two agree -/

/-- Two conditions hold as often exactly when each fails the other as often. -/
theorem countP_eq_iff {α : Type} (p q : α → Bool) (as : List α) :
    as.countP p = as.countP q ↔
      (as.countP fun a => p a && !q a) = as.countP fun a => q a && !p a := by
  have hp := List.countP_eq_countP_filter_add as p q
  have hq := List.countP_eq_countP_filter_add as q p
  simp only [List.countP_filter] at hp hq
  have hcomm : (as.countP fun a => p a && q a) = as.countP fun a => q a && p a :=
    List.countP_congr fun a _ => by rw [Bool.and_comm]
  omega

theorem nothingMisfiled_iff (rows scanned : List (Row TaskEvent)) (name : String) :
    ((if name = "" then rows.countP fun r => timed r && r.val.runtime.any bucketed else 0) =
        rows.countP fun r => timed r && decide (HasName scanned name r)) ↔
      NothingMisfiled rows scanned name := by
  unfold NothingMisfiled
  split
  · next hname =>
    subst hname
    rw [countP_eq_iff]
    refine Eq.congr (List.countP_congr fun r _ => ?_) (List.countP_congr fun r _ => ?_)
    · cases timed r <;> by_cases hn : HasName scanned "" r <;> simp [hn]
    · cases timed r <;> by_cases hn : HasName scanned "" r <;> simp [hn]
  · rw [eq_comm, List.countP_eq_zero]
    refine forall₂_congr fun r _ => ?_
    simp

section Filed

variable {p : Prometheus} {env : Env} {sql : Sql} {sortBy : String} {scan scan' : Scan} {db : Db}

theorem Unnamed.filedByName_iff (hp : p.Documented bucketed) (hsort : sortBy ∈ sortKeys)
    (hunnamed : Unnamed db) (name : String) :
    FiledByName p env sql sortBy scan scan' db name ↔
      TotalsNonneg (scan.order db.workerEvents.rows) ∧
        NothingMisfiled db.taskEvents.rows (scan'.order db.taskEvents.rows) name := by
  obtain ⟨entries, hentries, hperm⟩ := listTasks_all (env.reading scan' db) sql hsort
  have hreported : (db.taskEvents.rows.countP fun r => timed r && reportedUnder entries name r) =
      db.taskEvents.rows.countP fun r =>
        timed r && decide (HasName (scan'.order db.taskEvents.rows) name r) := by
    refine List.countP_congr fun r hr => ?_
    have hscanned : r ∈ (env.reading scan' db).taskRows := (scan'.perm _).mem_iff.mpr hr
    rw [Bool.and_eq_true, Bool.and_eq_true, reportedUnder_iff hperm hscanned, decide_eq_true_iff]
    rfl
  have hscrape : (∃ r, scrape p env.lib env.now scan db = .ok r) ↔
      TotalsNonneg (scan.order db.workerEvents.rows) := by
    rw [scrape_ok_iff hp, hunnamed.runs]
    exact and_iff_right fun run h => absurd h List.not_mem_nil
  rw [← hscrape, ← nothingMisfiled_iff, ← hreported]
  constructor
  · rintro ⟨r, entries', hr, hentries', hcount⟩
    rw [hentries] at hentries'
    cases hentries'
    exact ⟨⟨r, hr⟩, (hunnamed.count_scrape hp hr name).symm.trans hcount⟩
  · rintro ⟨⟨r, hr⟩, hcount⟩
    exact ⟨r, entries, hr, hentries, (hunnamed.count_scrape hp hr name).trans hcount⟩

end Filed

/-- Of ingested events, the histogram counts what `list_tasks` names exactly where nothing timed
has the name. -/
theorem durations_filed_iff {p : Prometheus} (hp : p.Documented bucketed) (lib : PyLib)
    (ds : List Delivery) (env : Env) (sql : Sql) {sortBy : String} (hsort : sortBy ∈ sortKeys)
    (scan scan' : Scan) (name : String) :
    let db := run (ingest lib) .empty ds
    FiledByName p env sql sortBy scan scan' db name ↔
      TotalsNonneg (scan.order db.workerEvents.rows) ∧
        NothingMisfiled db.taskEvents.rows (scan'.order db.taskEvents.rows) name :=
  (unnamed_run ds).filedByName_iff hp hsort name

def receivedEvent : Dict :=
  [("type", .str "task-received"), ("uuid", .str "12345678-1234-5678-1234-567812345678"),
    ("name", .str "billing.charge"), ("timestamp", .int 1)]

def succeededEvent : Dict :=
  [("type", .str "task-succeeded"), ("uuid", .str "12345678-1234-5678-1234-567812345678"),
    ("runtime", .float (.fin (3 / 2))), ("timestamp", .int 2)]

/-- A task that is received and succeeds. -/
def charged : List Delivery := [⟨0, receivedEvent⟩, ⟨0, succeededEvent⟩]

def chargedLog : Db := run (ingest (Env.idle 0).lib) .empty charged

/-- Its duration is not filed under its name. -/
theorem durations_misfiled : ¬ FiledByName .recorder (.idle 0) .ascii "timestamp" .byId .byId
    chargedLog "billing.charge" := by
  intro h
  obtain ⟨-, hnone⟩ :=
    ((unnamed_run charged).filedByName_iff documented_recorder (by decide) _).mp h
  rw [NothingMisfiled, if_neg (by decide)] at hnone
  have htimed : ∃ r ∈ chargedLog.taskEvents.rows, timed r = true ∧
      HasName (Scan.byId.order chargedLog.taskEvents.rows) "billing.charge" r := by decide +kernel
  obtain ⟨r, hr, ht, hname⟩ := htimed
  exact hnone r hr ht hname

def refundPending : List Delivery := charged ++ [⟨0,
  [("type", .str "task-received"), ("uuid", .str "87654321-4321-8765-4321-876543218765"),
    ("name", .str "billing.refund"), ("timestamp", .int 3)]⟩]

/-- Nothing timed has its name, and nothing is filed under it. -/
theorem durations_filed_refundPending :
    FiledByName .recorder (.idle 0) .ascii "timestamp" .byId .byId
      (run (ingest (Env.idle 0).lib) .empty refundPending) "billing.refund" := by
  refine (durations_filed_iff documented_recorder _ _ _ _ (by decide) _ _ _).mpr ⟨?_, ?_⟩
  · have hevents : Scan.byId.order
        (run (ingest (Env.idle 0).lib) .empty refundPending).workerEvents.rows = [] := by
      decide +kernel
    rw [hevents]
    exact fun _ h => absurd h List.not_mem_nil
  · rw [NothingMisfiled, if_neg (by decide)]
    have hnone : ∀ r ∈ (run (ingest (Env.idle 0).lib) .empty refundPending).taskEvents.rows,
        timed r = true →
        ¬ HasName (Scan.byId.order
            (run (ingest (Env.idle 0).lib) .empty refundPending).taskEvents.rows)
          "billing.refund" r := by
      decide +kernel
    exact hnone

end Taskowl
