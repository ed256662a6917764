import Taskowl.PrunePasses

/-!
# Whether a prune pass ends

The loop of `_prune_table` stops at the first batch with fewer rows than the
batch size. That comes to pass for a positive size, whatever the tables hold;
for a size of zero, or a negative one that the database takes, no batch has
fewer rows. `batch_size or settings.retention_batch_size` keeps a zero of the
arguments out of the loop, but not one of the settings.
-/

namespace Taskowl

open Lib Py

/-- Finitely many statements end the pass, without an exception but for one of the database. -/
def PruneEnds (backend : Backend) (db : Db) (p : PrunePass) : Prop :=
  ∃ n, (p.solo backend db n).2.todo = [] ∧ ∀ e, (p.solo backend db n).2.error ≠ some (.raised e)

def Backend.Refuses (backend : Backend) (batch : Int) : Prop := ∃ e, backend.limit batch = .error e

/-- The cutoffs are dates, and what is pruned is pruned in batches that are positive or refused;
a refused batch ends the pass before the cutoff of the runs is computed. -/
def EndsWhen (backend : Backend) (settings : RetentionSettings) (now : Int) (args : PruneArgs) :
    Prop :=
  ∃ events, retentionCutoff now (args.eventDays settings) = .ok events ∧
    (args.dryRun = false ∧ events ≠ none ∧ backend.Refuses (args.batch settings) ∨
      ∃ runs, retentionCutoff now (args.runDays settings) = .ok runs ∧
        (args.dryRun = true ∨ events = none ∧ runs = none ∨
          backend.Refuses (args.batch settings) ∨ 1 ≤ args.batch settings))

section Passes

variable {backend : Backend} {db : Db} {p : PrunePass} {c : Cutoffs}

theorem solo_invariant (db : Db) {I : Db → PrunePass → Prop}
    (hstep : ∀ db p, I db p → I (pruneStep backend db p).1 (pruneStep backend db p).2) (h : I db p)
    (n : Nat) : I (p.solo backend db n).1 (p.solo backend db n).2 :=
  Function.Iterate.rec (fun s : Db × PrunePass => I s.1 s.2) h (fun s => hstep s.1 s.2) n

/-! ## Passes that end -/

def Db.overdueRows (db : Db) (c : Cutoffs) : Nat :=
  (db.overdue c .taskEvents).length + (db.overdue c .workerEvents).length +
    (db.overdue c .automationRuns).length

/-- A full batch takes rows, and any other a table off the list. -/
theorem Pruning.less (h : Pruning c db p) (htodo : p.todo ≠ []) :
    (pruneStep backend db p).1.overdueRows c + (pruneStep backend db p).2.todo.length <
      db.overdueRows c + p.todo.length := by
  have hpos := List.length_pos_iff.mpr htodo
  have hmoved := fun table => ((h.step backend).2.2.2 table).length_eq
  obtain ⟨-, hnil⟩ | ⟨e, hraises, -⟩ | ⟨e, -, hstep⟩ |
    ⟨table, cutoff, rest, limit, heq, -, hstep⟩ := pruneStep_cases backend db h.real
  · exact absurd hnil htodo
  · obtain ⟨_, _, heq, -⟩ := h.stages _ hraises
    cases heq
  · rw [hstep]
    simpa using hpos
  · rw [hstep] at hmoved ⊢
    generalize limited limit (db.expiredIds table cutoff) = ids at hmoved ⊢
    have hrows : (db.deleteIds table ids).overdueRows c + ids.length = db.overdueRows c := by
      have htasks := hmoved .taskEvents
      have hworkers := hmoved .workerEvents
      have hruns := hmoved .automationRuns
      unfold Db.overdueRows
      cases table <;>
        simp only [PrunePass.batchDeleted, List.length_append, if_true, reduceCtorEq, if_false]
          at htasks hworkers hruns <;> omega
    have hbatch := h.pos
    unfold PrunePass.batchDeleted
    dsimp only
    rw [heq]
    split
    · rw [List.length_cons]
      omega
    · omega

theorem Pruning.exists_solo (backend : Backend) (h : Pruning c db p) :
    ∃ n, (p.solo backend db n).2.todo = [] ∧
      Pruning c (p.solo backend db n).1 (p.solo backend db n).2 := by
  obtain ⟨n, hn⟩ := exists_iterate_of_measure (D := fun s : Db × PrunePass => s.2.todo = [])
    (f := fun s => pruneStep backend s.1 s.2) (I := fun s => Pruning c s.1 s.2)
    (fun s => s.1.overdueRows c + s.2.todo.length) (fun s hs => (hs.step backend).1)
    (fun s hs => hs.less) (db, p) h
  exact ⟨n, hn, solo_invariant db (fun db p hp => (hp.step backend).1) h n⟩

theorem pruneEvents_ok {now eventDays runDays : Int} (batch : Batch) (db : Db)
    (hevents : retentionCutoff now eventDays = .ok c.events)
    (hruns : retentionCutoff now runDays = .ok c.runs) :
    ∃ counts, pruneEvents now false batch eventDays runDays db =
        (db.prune c.events c.runs, .ok counts) ∧
      ∀ table, counts.of table = (db.overdue c table).length := by
  have hcount : ∀ {α : Type} (t : Table α) (p : Row α → Bool),
      t.rows.countP p = ((t.rows.filter p).map (·.id)).length := by
    intro α t p
    rw [List.length_map, List.countP_eq_length_filter]
  unfold pruneEvents
  rw [hevents, hruns]
  obtain ⟨events, runs⟩ := c
  cases events <;> cases runs <;>
    simp only [pruneEventTables, pruneTable, pruneLoop_eq, Bool.false_eq_true, if_false,
      Nat.zero_add, Prod.mk.injEq] <;>
    refine ⟨_, ⟨rfl, rfl⟩, fun table => ?_⟩ <;> cases table <;>
    first | rfl | exact hcount _ _

/-- A pass in batches that the database takes does, statement by statement, what `prune_events`
does batch by batch. -/
theorem solo_eq_pruneEvents {settings : RetentionSettings} {now : Int} {args : PruneArgs}
    (backend : Backend) (db : Db) (batch : Batch) (hreal : args.dryRun = false)
    (hbatch : args.batch settings = batch.size) (htaken : ¬ backend.Refuses batch.size)
    (hevents : retentionCutoff now (args.eventDays settings) = .ok c.events)
    (hruns : retentionCutoff now (args.runDays settings) = .ok c.runs) :
    ∃ n q, q.Returned ∧ (runPrune settings now args).solo backend db n =
      ((pruneEvents now false batch (args.eventDays settings) (args.runDays settings) db).1, q) ∧
      ∀ counts, (pruneEvents now false batch (args.eventDays settings) (args.runDays settings)
        db).2 = .ok counts → ∀ table, q.counts.of table = counts.of table := by
  have hpos := batch.pos
  have hstart : Pruning c db (runPrune settings now args) :=
    .start db hreal (by omega) hevents hruns
  obtain ⟨n, hdone, -⟩ := hstart.exists_solo backend
  let I : Db → PrunePass → Prop := fun d p => Pruning c d p ∧ p.batch = batch.size ∧
    p.error = none ∧ d.prune c.events c.runs = db.prune c.events c.runs ∧
    ∀ table, (p.deleted table ++ d.overdue c table).Perm (db.overdue c table)
  have hstep : ∀ d p, I d p → I (pruneStep backend d p).1 (pruneStep backend d p).2 := by
    rintro d p ⟨hp, hsize, herror, hpruned, hmoved⟩
    obtain ⟨hp', -, hpruned', hmoved'⟩ := hp.step backend
    have hkept : (pruneStep backend d p).2.batch = p.batch ∧
        (pruneStep backend d p).2.error = p.error := by
      obtain ⟨hstep, -⟩ | ⟨e, hraises, -⟩ | ⟨e, he, -⟩ | ⟨_, _, _, _, -, -, hstep⟩ :=
        pruneStep_cases backend d hp.real
      · rw [hstep]
        exact ⟨rfl, rfl⟩
      · obtain ⟨_, _, heq, -⟩ := hp.stages _ hraises
        cases heq
      · exact absurd ⟨e, hsize ▸ he⟩ htaken
      · rw [hstep]
        exact ⟨rfl, rfl⟩
    exact ⟨hp', hkept.1.trans hsize, hkept.2.trans herror, hpruned'.trans hpruned,
      fun table => (hmoved' table).trans (hmoved table)⟩
  obtain ⟨hp, -, herror, hpruned, hmoved⟩ := solo_invariant db hstep
    (show I db (runPrune settings now args) from
      ⟨hstart, hbatch, rfl, rfl, fun table => .refl _⟩) n
  have hclear : ∀ table, ((runPrune settings now args).solo backend db n).1.overdue c table = [] :=
    fun table => hp.through herror table fun cutoff hmem => by
      rw [hdone] at hmem
      cases hmem
  obtain ⟨counts, hcounts, hof⟩ := pruneEvents_ok batch db hevents hruns
  refine ⟨n, _, ⟨hdone, herror⟩, Prod.ext ?_ rfl, fun counts' hcounts' table => ?_⟩
  · rw [hcounts]
    exact (prune_eq_self hclear).symm.trans hpruned
  · rw [hcounts] at hcounts'
    cases hcounts'
    have h := hmoved table
    rw [hclear, List.append_nil] at h
    rw [hp.counted, h.length_eq, hof]

/-! ## Passes that do not -/

def WillRaise (backend : Backend) (p : PrunePass) : Prop :=
  (p.todo = [] ∧ ∃ e, p.error = some (.raised e)) ∨ (∃ e rest, p.todo = .cutoff e :: rest) ∨
    (p.dryRun = true ∨ ¬ backend.Refuses p.batch) ∧ ∃ e, .cutoff e ∈ p.todo

structure Loops (backend : Backend) (p : PrunePass) : Prop where
  real : p.dryRun = false
  nonpos : p.batch < 1
  taken : ¬ backend.Refuses p.batch
  looping : ∃ table cutoff rest, p.todo = .table table cutoff :: rest

theorem WillRaise.step (h : WillRaise backend p) :
    WillRaise backend (pruneStep backend db p).2 := by
  unfold pruneStep
  split
  · exact h
  · exact .inl ⟨rfl, _, rfl⟩
  · next table cutoff rest htodo =>
    obtain ⟨hnil, -⟩ | ⟨e, rest', heq⟩ | ⟨hgoes, e, he⟩ := h
    · rw [hnil] at htodo
      cases htodo
    · rw [heq] at htodo
      cases htodo
    · have hrest : .cutoff e ∈ rest := by simpa [htodo] using he
      dsimp only
      split
      · exact .inr (.inr ⟨hgoes, e, hrest⟩)
      · next hreal =>
        cases hlimit : backend.limit p.batch with
        | error e => exact absurd ⟨e, hlimit⟩ (hgoes.resolve_left hreal)
        | ok limit =>
          refine .inr (.inr ⟨hgoes, e, ?_⟩)
          unfold PrunePass.batchDeleted
          dsimp only
          split
          · exact hrest
          · exact he

theorem Loops.step (h : Loops backend p) : Loops backend (pruneStep backend db p).2 := by
  obtain ⟨table, cutoff, rest, htodo⟩ := h.looping
  unfold pruneStep
  rw [htodo]
  dsimp only
  rw [h.real]
  cases hlimit : backend.limit p.batch with
  | error e => exact absurd ⟨e, hlimit⟩ h.taken
  | ok limit =>
    refine ⟨h.real, h.nonpos, h.taken, table, cutoff, rest, ?_⟩
    have hnonpos := h.nonpos
    have hfull : ¬ ((limited limit (db.expiredIds table cutoff)).length : Int) < p.batch := by
      omega
    exact (if_neg hfull).trans htodo

theorem WillRaise.not_pruneEnds (h : WillRaise backend p) : ¬ PruneEnds backend db p := by
  rintro ⟨n, htodo, hraised⟩
  obtain ⟨-, e, he⟩ | ⟨e, rest, heq⟩ | ⟨-, e, he⟩ :=
    solo_invariant db (I := fun _ => WillRaise backend) (fun _ _ => WillRaise.step) h n
  · exact hraised e he
  · rw [htodo] at heq
    cases heq
  · rw [htodo] at he
    cases he

theorem Loops.not_pruneEnds (h : Loops backend p) : ¬ PruneEnds backend db p := by
  rintro ⟨n, htodo, -⟩
  obtain ⟨table, cutoff, rest, heq⟩ :=
    (solo_invariant db (I := fun _ => Loops backend) (fun _ _ => Loops.step) h n).looping
  rw [htodo] at heq
  cases heq

end Passes

section Calls

variable {backend : Backend} {db : Db} {settings : RetentionSettings} {now : Int} {args : PruneArgs}

theorem pruneEnds_of_refuses {p : PrunePass} (hreal : p.dryRun = false)
    (hfirst : ∃ table cutoff rest, p.todo = .table table cutoff :: rest)
    (h : backend.Refuses p.batch) : PruneEnds backend db p := by
  obtain ⟨e, he⟩ := h
  obtain ⟨table, cutoff, rest, htodo⟩ := hfirst
  have hstep : p.solo backend db 1 =
      (db, { p with todo := [], error := some (.database e) }) := by
    show pruneStep backend db p = _
    unfold pruneStep
    rw [htodo]
    dsimp only
    rw [hreal, he]
    rfl
  refine ⟨1, ?_, fun e' => ?_⟩
  · rw [hstep]
  · rw [hstep]
    rintro ⟨⟩

theorem EndsWhen.pruneEnds (h : EndsWhen backend settings now args) :
    PruneEnds backend db (runPrune settings now args) := by
  obtain ⟨events, hevents, ⟨hreal, hsome, hrefuses⟩ | ⟨runs, hruns, hcase⟩⟩ := h
  · obtain ⟨cutoff, rfl⟩ := Option.ne_none_iff_exists'.mp hsome
    refine pruneEnds_of_refuses hreal ⟨.taskEvents, cutoff,
      .table .workerEvents cutoff :: pruneStages now (args.runDays settings) [.automationRuns], ?_⟩
      hrefuses
    show pruneTodo _ _ _ = _
    unfold pruneTodo
    rw [pruneStages, hevents]
    rfl
  · let c : Cutoffs := ⟨events, runs⟩
    cases hdry : args.dryRun with
    | true =>
      obtain ⟨q, hq, ⟨htodo, herror⟩, -⟩ := solo_dryRun backend db (c := c) hdry hevents hruns
      refine ⟨3, ?_, fun e => ?_⟩
      · rw [hq]
        exact htodo
      · rw [hq, herror]
        rintro ⟨⟩
    | false =>
      cases htodo : (runPrune settings now args).todo with
      | nil => exact ⟨0, htodo, fun e he => by cases he⟩
      | cons stage rest =>
        obtain ⟨table, cutoff, rfl, hc⟩ := (mem_todo_runPrune (c := c) hevents hruns).mp
          (htodo ▸ List.mem_cons_self)
        obtain hdry' | ⟨rfl, rfl⟩ | hrefuses | hpos := hcase
        · rw [hdry] at hdry'
          cases hdry'
        · cases table <;> cases hc
        · exact pruneEnds_of_refuses hdry ⟨table, cutoff, rest, htodo⟩ hrefuses
        · obtain ⟨n, hdone, hpass⟩ :=
            (Pruning.start (c := c) db hdry hpos hevents hruns).exists_solo backend
          exact ⟨n, hdone, hpass.unraised⟩

theorem not_pruneEnds (h : ¬ EndsWhen backend settings now args) :
    ¬ PruneEnds backend db (runPrune settings now args) := by
  have hend : ∀ days tables e, retentionCutoff now days = .error e →
      .cutoff e ∈ pruneStages now days tables := by
    intro days tables e he
    unfold pruneStages
    rw [he]
    exact List.mem_singleton_self _
  cases hevents : retentionCutoff now (args.eventDays settings) with
  | error e =>
    refine WillRaise.not_pruneEnds (.inr (.inl
      ⟨e, pruneStages now (args.runDays settings) [.automationRuns], ?_⟩))
    show pruneTodo _ _ _ = _
    unfold pruneTodo
    rw [pruneStages, hevents]
    rfl
  | ok events =>
    have hgoes : args.dryRun = true ∨ events = none ∨ ¬ backend.Refuses (args.batch settings) := by
      by_contra hnot
      simp only [not_or, Bool.not_eq_true, not_not] at hnot
      exact h ⟨events, hevents, .inl hnot⟩
    cases hruns : retentionCutoff now (args.runDays settings) with
    | error e =>
      have hmem : .cutoff e ∈ (runPrune settings now args).todo :=
        List.mem_append_right _ (hend _ _ e hruns)
      obtain hdry | rfl | htaken := hgoes
      · exact WillRaise.not_pruneEnds (.inr (.inr ⟨.inl hdry, e, hmem⟩))
      · refine WillRaise.not_pruneEnds (.inr (.inl ⟨e, [], ?_⟩))
        show pruneTodo _ _ _ = _
        unfold pruneTodo pruneStages
        rw [hevents, hruns]
        rfl
      · exact WillRaise.not_pruneEnds (.inr (.inr ⟨.inr htaken, e, hmem⟩))
    | ok runs =>
      have hcase : ¬ (args.dryRun = true ∨ events = none ∧ runs = none ∨
          backend.Refuses (args.batch settings) ∨ 1 ≤ args.batch settings) :=
        fun hcase => h ⟨events, hevents, .inr ⟨runs, hruns, hcase⟩⟩
      simp only [not_or, Bool.not_eq_true, Int.not_le] at hcase
      obtain ⟨hreal, hsome, htaken, hnonpos⟩ := hcase
      let c : Cutoffs := ⟨events, runs⟩
      refine Loops.not_pruneEnds ⟨hreal, hnonpos, htaken, ?_⟩
      cases htodo : (runPrune settings now args).todo with
      | nil =>
        have hnone : ∀ table cutoff, c.of table ≠ some cutoff := by
          intro table cutoff hc
          have hmem := (mem_todo_runPrune (c := c) hevents hruns).mpr ⟨table, cutoff, rfl, hc⟩
          rw [htodo] at hmem
          cases hmem
        exact absurd ⟨Option.eq_none_iff_forall_ne_some.mpr (hnone .taskEvents),
          Option.eq_none_iff_forall_ne_some.mpr (hnone .automationRuns)⟩ hsome
      | cons stage rest =>
        obtain ⟨table, cutoff, rfl, -⟩ := (mem_todo_runPrune (c := c) hevents hruns).mp
          (htodo ▸ List.mem_cons_self)
        exact ⟨table, cutoff, rest, rfl⟩

end Calls

/-- A prune pass ends exactly when its cutoffs are dates and its batches positive or refused. -/
theorem prune_ends_iff (backend : Backend) (settings : RetentionSettings) (now : Int)
    (args : PruneArgs) (db : Db) :
    PruneEnds backend db (runPrune settings now args) ↔ EndsWhen backend settings now args :=
  ⟨fun h => by_contra fun hnot => not_pruneEnds hnot h, EndsWhen.pruneEnds⟩

/-- With `RETENTION_BATCH_SIZE=0` a pass over an empty database never ends. -/
theorem prune_never_ends : ¬ PruneEnds .postgres .empty
    (runPrune { eventRetentionDays := 14, retentionBatchSize := 0 } (20000 * dayUs) {}) := by
  apply not_pruneEnds
  rintro ⟨events, hevents, ⟨-, -, e, hrefuses⟩ | ⟨runs, hruns, hdry | ⟨hnone, -⟩ | ⟨e, he⟩ | hpos⟩⟩
  · cases hrefuses
  · cases hdry
  · rw [hnone] at hevents
    cases hevents
  · cases he
  · cases hpos

end Taskowl
