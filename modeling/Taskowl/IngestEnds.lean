import Taskowl.Lib.Progress
import Taskowl.Ingesting

/-!
# Every handler ends

A handler waits for at most one other, and an open transaction waits for none:
the INSERT is the one thing it does. So whatever came before, handlers that
get their turns end, in two turns of each and one more for each wait at most.
Once they have, a log of valid events answers every query as the one that a
single handler at a time would have written, in any order.
-/

namespace Taskowl

open Lib Py

def Phase.left : Phase → Nat
  | .arrived => 2
  | .written => 1
  | .stored | .dropped => 0

namespace Ingesting

def left (s : Ingesting) : Nat := (s.handlings.map (·.phase.left)).sum

def Over (s : Ingesting) : Prop := ∀ h ∈ s.handlings, h.phase = .stored ∨ h.phase = .dropped

variable {lib : PyLib} {ds : List Delivery} {s : Ingesting}

theorem left_set {s' : Ingesting} {i : Nat} {d : Delivery} {phase phase' : Phase}
    (hi : s.handlings[i]? = some ⟨d, phase⟩) (hs' : s'.handlings = s.handlings.set i ⟨d, phase'⟩)
    (hless : phase'.left < phase.left) : s'.left < s.left := by
  obtain ⟨hlt, hget⟩ := List.getElem?_eq_some_iff.mp hi
  have hbefore := ((List.getElem_cons_eraseIdx_perm hlt).map (·.phase.left)).sum_eq
  have hafter := ((List.set_perm_cons_eraseIdx hlt ⟨d, phase'⟩).map (·.phase.left)).sum_eq
  rw [hget] at hbefore
  simp only [List.map_cons, List.sum_cons] at hbefore hafter
  unfold left
  rw [hs']
  omega

/-- A turn of a handler changes nothing, or brings it nearer its end. -/
theorem step_less (s : Ingesting) (i : Nat) :
    s.turn lib (.step i) = s ∨ (s.turn lib (.step i)).left < s.left := by
  unfold turn
  dsimp only
  split
  · next d hi =>
    unfold write
    split
    · exact .inr (left_set hi rfl (by decide))
    · split
      · exact .inr (left_set hi rfl (by decide))
      · split
        · exact .inr (left_set hi rfl (by decide))
        · exact .inl rfl
  · next d hi => exact .inr (left_set hi rfl (by decide))
  · exact .inl rfl

theorem Inv.committed (hs : Inv lib ds s)
    (hnone : ∀ (i : Nat) d, s.handlings[i]? ≠ some ⟨d, .written⟩) :
    ∀ v ∈ s.heap, v.writer = none := by
  intro v hv
  by_contra hopen
  obtain ⟨i, hi⟩ := Option.ne_none_iff_exists'.mp hopen
  have hmem : v.val ∈ Version.writtenBy s.heap i := Version.mem_writtenBy.mpr (hi ▸ hv)
  cases hh : s.handlings[i]? with
  | none =>
    rw [hs.closed i hh] at hmem
    cases hmem
  | some h =>
    have hsound := hs.sound i h hh
    generalize Version.writtenBy s.heap i = rows at hsound hmem
    cases hsound with
    | wrote => exact hnone i _ hh
    | arrived | found | stored | dropped => cases hmem

/-- Something can move until all is over: an open transaction, or else any handler. -/
theorem Inv.moves (hs : Inv lib ds s) (hover : ¬ s.Over) :
    ∃ i, i < ds.length ∧ s.turn lib (.step i) ≠ s := by
  have hlt : ∀ {i : Nat} {h : Handling}, s.handlings[i]? = some h → i < ds.length := fun hi =>
    (List.getElem?_eq_some_iff.mp (hs.delivery hi)).1
  have hmoved : ∀ {s' : Ingesting}, s'.left < s.left → s' ≠ s := by
    rintro s' hless rfl
    exact Nat.lt_irrefl _ hless
  by_cases hopen : ∃ (i : Nat) (d : Delivery), s.handlings[i]? = some ⟨d, .written⟩
  · obtain ⟨i, d, hi⟩ := hopen
    refine ⟨i, hlt hi, ?_⟩
    rw [turn]
    simp only [hi]
    exact hmoved (left_set hi rfl (by decide))
  · simp only [not_exists] at hopen
    have hcommitted := hs.committed hopen
    unfold Over at hover
    simp only [not_forall, not_or] at hover
    obtain ⟨⟨d, phase⟩, hmem, hstored, hdropped⟩ := hover
    obtain ⟨i, hi⟩ := List.mem_iff_getElem?.mp hmem
    obtain rfl : phase = .arrived := by
      cases phase with
      | arrived => rfl
      | written => exact absurd hi (hopen i d)
      | stored => exact absurd rfl hstored
      | dropped => exact absurd rfl hdropped
    refine ⟨i, hlt hi, ?_⟩
    rw [turn]
    simp only [hi]
    unfold Ingesting.write
    split
    · exact hmoved (left_set hi rfl (by decide))
    · split
      · exact hmoved (left_set hi rfl (by decide))
      · next v hholder =>
        obtain ⟨-, -, hv, -⟩ := Version.holder_eq_some hholder
        rw [if_pos (hcommitted v hv)]
        exact hmoved (left_set hi rfl (by decide))

theorem Over.step (hover : s.Over) (i : Nat) : s.turn lib (.step i) = s := by
  unfold turn
  dsimp only
  split
  · next d hi => simpa using hover _ (List.mem_of_getElem? hi)
  · next d hi => simpa using hover _ (List.mem_of_getElem? hi)
  · rfl

theorem run_steps (s : Ingesting) (is : List Nat) :
    run (turn lib) s (is.map .step) = run (fun s i => s.turn lib (.step i)) s is := by
  induction is generalizing s with
  | nil => rfl
  | cons i is ih => exact ih _

theorem left_start (ds : List Delivery) : (start ds).left = 2 * ds.length := by
  simp [left, start, Function.comp_def, Phase.left, Nat.mul_comm]

theorem left_turn_le (s : Ingesting) (t : HandlerTurn) : (s.turn lib t).left ≤ s.left := by
  cases t with
  | step i =>
    have hless : s.turn lib (.step i) = s ∨ (s.turn lib (.step i)).left < s.left := step_less s i
    rcases hless with heq | hless
    · rw [heq]
    · exact Nat.le_of_lt hless
  | fail i =>
    unfold turn
    dsimp only
    split
    · next d hi => exact Nat.le_of_lt (left_set hi rfl (by decide))
    · next d hi => exact Nat.le_of_lt (left_set hi rfl (by decide))
    · exact Nat.le_refl _
  | expire dead => exact Nat.le_refl _

theorem left_run_le (turns : List HandlerTurn) (s : Ingesting) :
    (run (turn lib) s turns).left ≤ s.left := by
  induction turns generalizing s with
  | nil => exact Nat.le_refl _
  | cons t turns ih => exact (ih _).trans (left_turn_le s t)

end Ingesting

open Ingesting

/-- **Every handler ends.** Whatever the handlers, their failures and the DELETEs have done, rounds
that give each handler a turn bring all of them to their end: none waits for ever. -/
theorem ingest_ends (lib : PyLib) (ds : List Delivery) (turns : List HandlerTurn)
    {rounds : List (List Nat)} (hfair : ∀ round ∈ rounds, ∀ i < ds.length, i ∈ round)
    (hlong : 2 * ds.length ≤ rounds.length) :
    (run (turn lib) (start ds) (turns ++ rounds.flatten.map .step)).Over := by
  rw [run_append, run_steps]
  refine run_rounds left (D := Over) (U := (· < ds.length)) (I := Inv lib ds)
    (fun s i hs => inv_turn s _ hs) (fun s i _ => step_less s i) (fun s hs => hs.moves)
    (fun s i _ hover => ?_) (inv_run turns) hfair ?_
  · rw [hover.step]
    exact hover
  · exact (left_run_le turns _).trans ((left_start ds).le.trans hlong)

/-- One event twice: the second handler waits, and the first one fails. -/
theorem ingest_ends_twice :
    (run (turn (Env.idle 0).lib) (start [⟨5, sentEvent⟩, ⟨6, sentEvent⟩])
      ([.step 0, .step 1, .fail 0] ++ (List.replicate 4 [1, 0]).flatten.map .step)).Over :=
  ingest_ends (Env.idle 0).lib [⟨5, sentEvent⟩, ⟨6, sentEvent⟩] [.step 0, .step 1, .fail 0]
    (by decide) (by decide)

/-! ## What is left when all is over -/

def Env.eventRows (env : Env) : List EventRow :=
  env.taskRows.map (.task ·.val) ++ env.workerRows.map (.worker ·.val)

def EventRow.task? : EventRow → Option TaskEvent
  | .task r => some r
  | .worker _ => none

def EventRow.worker? : EventRow → Option WorkerEvent
  | .task _ => none
  | .worker r => some r

theorem filterMap_task? (env : Env) :
    env.eventRows.filterMap EventRow.task? = env.taskRows.map (·.val) := by
  simp [Env.eventRows, EventRow.task?, Function.comp_def]

theorem filterMap_worker? (env : Env) :
    env.eventRows.filterMap EventRow.worker? = env.workerRows.map (·.val) := by
  simp [Env.eventRows, EventRow.worker?, Function.comp_def]

theorem eventRows_task? (db : Db) :
    db.eventRows.filterMap EventRow.task? = db.taskEvents.vals := by
  simp [Db.eventRows, EventRow.task?, Function.comp_def]

theorem eventRows_worker? (db : Db) :
    db.eventRows.filterMap EventRow.worker? = db.workerEvents.vals := by
  simp [Db.eventRows, EventRow.worker?, Function.comp_def]

def deliveriesOf (log : List EventOp) : List Delivery :=
  log.filterMap fun
    | .deliver _ d => some d
    | .expire _ => none

theorem run_serve (lib : PyLib) {log : List EventOp} (h : expired log = []) (db : Db) :
    run (EventOp.serve lib) db log = run (ingest lib) db (deliveriesOf log) := by
  induction log generalizing db with
  | nil => rfl
  | cons op log ih =>
    cases op with
    | deliver i d => exact ih h _
    | expire dead => simp [expired] at h

namespace Ingesting

/-- Handlers of valid events that do not fail store their rows. -/
theorem not_dropped {lib : PyLib} {ds : List Delivery} (hvalid : ∀ d ∈ ds, d.Valid lib)
    (is : List Nat) : ∀ h ∈ (run (turn lib) (start ds) (is.map .step)).handlings,
      h.phase ≠ .dropped := by
  have hset : ∀ {s : Ingesting} {i : Nat} {h : Handling}, h.phase ≠ .dropped →
      (∀ h ∈ s.handlings, h.phase ≠ .dropped) →
      ∀ h' ∈ (s.handlings.set i h), h'.phase ≠ .dropped := by
    intro s i h hh hs h' hh'
    rcases List.mem_or_eq_of_mem_set hh' with hh' | rfl
    · exact hs h' hh'
    · exact hh
  rw [run_steps]
  refine (run_invariant
    (I := fun s => Inv lib ds s ∧ ∀ h ∈ s.handlings, h.phase ≠ .dropped)
    (fun s i hs => ⟨inv_turn s _ hs.1, ?_⟩) is ⟨inv_start, ?_⟩).2
  · unfold turn
    dsimp only
    split
    · next d hi =>
      have hrow := (hvalid d (List.mem_of_getElem? (hs.1.delivery hi))).2
      unfold write
      split
      · next hnone =>
        rw [hnone] at hrow
        cases hrow
      · split
        · exact hset (by simp) hs.2
        · split
          · exact hset (by simp) hs.2
          · exact hs.2
    · exact hset (by simp) hs.2
    · exact hs.2
  · intro h hh
    obtain ⟨d, -, rfl⟩ := List.mem_map.mp hh
    simp

end Ingesting

/-- **One log, however it was written.** Valid events whose handlers interleave in any way end in
tables that answer every query as those do that one handler at a time fills, in any order, each
event delivered any number of times. -/
theorem ingest_settles (lib : PyLib) (ds ds' : List Delivery)
    (hvalid : ∀ d ∈ ds ++ ds', d.Valid lib)
    (hsame : ∀ i, i ∈ (rowsOf lib ds).map EventRow.identity ↔
      i ∈ (rowsOf lib ds').map EventRow.identity)
    (hone : OneAtATime (rowsOf lib (ds ++ ds'))) (hsha : NoCollision (rowsOf lib (ds ++ ds')))
    {rounds : List (List Nat)} (hfair : ∀ round ∈ rounds, ∀ i < ds.length, i ∈ round)
    (hlong : 2 * ds.length ≤ rounds.length) :
    let s := run (turn lib) (start ds) (rounds.flatten.map .step)
    (∀ h ∈ s.handlings, h.phase = .stored) ∧
      ∀ (sql : Sql) (env : Env) (scan : Scan), env.eventRows.Perm (Version.committed s.heap) →
        SameAnswers sql env (env.reading scan (run (ingest lib) .empty ds')) := by
  intro s
  have hs := ingest_serializable lib ds (rounds.flatten.map .step)
  have hinv : Inv lib ds s := inv_run _
  have hstored : ∀ h ∈ s.handlings, h.phase = .stored := by
    intro h hh
    have hover := ingest_ends lib ds [] hfair hlong h hh
    have hnot := not_dropped (fun d hd => hvalid d (List.mem_append_left _ hd)) _ h hh
    exact hover.resolve_right hnot
  refine ⟨hstored, fun sql env scan henv => SameLog.sameAnswers ?_ sql⟩
  have hexpired : expired s.log = [] := by
    rw [hs.deletes, List.flatMap_eq_nil_iff]
    rintro t ht
    obtain ⟨i, -, rfl⟩ := List.mem_map.mp ht
    rfl
  have hdeliveries : ∀ d, d ∈ deliveriesOf s.log ↔ d ∈ ds := by
    intro d
    unfold deliveriesOf
    rw [List.mem_filterMap]
    constructor
    · rintro ⟨op, hop, heq⟩
      cases op with
      | deliver i e =>
        cases heq
        exact List.mem_of_getElem? (hs.entries i _ hop)
      | expire dead => cases heq
    · intro hd
      rw [← hinv.deliveries, List.mem_map] at hd
      obtain ⟨h, hh, rfl⟩ := hd
      obtain ⟨i, hi⟩ := List.mem_iff_getElem?.mp hh
      have hphase := hstored h hh
      obtain ⟨d, phase⟩ := h
      cases hphase
      exact ⟨.deliver i d, hs.stored i d hi, rfl⟩
  have hrowsOf : ∀ r, r ∈ rowsOf lib (deliveriesOf s.log) ↔ r ∈ rowsOf lib ds := by
    intro r
    rw [mem_rowsOf, mem_rowsOf]
    simp only [hdeliveries]
  have hsub : rowsOf lib (deliveriesOf s.log ++ ds') ⊆ rowsOf lib (ds ++ ds') := by
    intro r hr
    unfold rowsOf at hrowsOf hr ⊢
    rw [List.filterMap_append, List.mem_append] at hr ⊢
    exact hr.imp_left (hrowsOf r).mp
  have hvalid' : ∀ d ∈ deliveriesOf s.log, d.Valid lib := fun d hd =>
    hvalid d (List.mem_append_left _ ((hdeliveries d).mp hd))
  obtain ⟨htasks, hworkers, -⟩ := order_free lib (deliveriesOf s.log) ds'
    (fun d hd => (List.mem_append.mp hd).elim (hvalid' d)
      fun hd => hvalid d (List.mem_append_right _ hd))
    (fun i => by
      rw [← hsame, List.mem_map, List.mem_map]
      simp only [hrowsOf])
    (hone.subset hsub) (hsha.subset hsub)
  have hleft : rowsOf lib (deliveriesOf s.log) ⊆ rowsOf lib (ds ++ ds') := by
    intro r hr
    unfold rowsOf at hrowsOf hr ⊢
    rw [List.filterMap_append]
    exact List.mem_append_left _ ((hrowsOf r).mp hr)
  obtain ⟨hat, haw⟩ := (holds_run hvalid' (hone.subset hleft) (hsha.subset hleft)).apart
    (hone.subset hleft)
  have hrows : env.eventRows.Perm (run (ingest lib) .empty (deliveriesOf s.log)).eventRows := by
    rw [← run_serve lib hexpired]
    exact henv.trans hs.rows
  have henvTasks := hrows.filterMap EventRow.task?
  have henvWorkers := hrows.filterMap EventRow.worker?
  rw [filterMap_task?, eventRows_task?] at henvTasks
  rw [filterMap_worker?, eventRows_worker?] at henvWorkers
  exact
    { lib := rfl, settings := rfl, now := rfl, fromIso := rfl
      tasks := henvTasks.trans (htasks.trans ((scan.perm _).map _).symm)
      workers := henvWorkers.trans (hworkers.trans ((scan.perm _).map _).symm)
      tasksApart := hat.perm henvTasks.symm
      workersApart := haw.perm henvWorkers.symm }

theorem ingest_settles_twice :
    let lib := (Env.idle 0).lib
    ∀ h ∈ (run (turn lib) (start [⟨5, sentEvent⟩, ⟨6, sentEvent⟩])
      ((List.replicate 4 [1, 0]).flatten.map .step)).handlings, h.phase = .stored := by
  intro lib
  have hsent : Stamped sentEvent := by
    unfold Stamped
    decide
  obtain ⟨a, ha⟩ : ∃ a, eventRow lib 0 sentEvent = some a :=
    Option.isSome_iff_exists.mp (by decide +kernel)
  have hstable : ∀ now, eventRow lib now sentEvent = some a := eventRow_stable hsent ha
  have hall : rowsOf lib ([⟨5, sentEvent⟩, ⟨6, sentEvent⟩] ++ [⟨7, sentEvent⟩]) = [a, a, a] := by
    simp [rowsOf, hstable]
  refine (ingest_settles lib [⟨5, sentEvent⟩, ⟨6, sentEvent⟩] [⟨7, sentEvent⟩] ?_ ?_ ?_ ?_
    (by decide) (by decide)).1
  · intro d hd
    simp only [List.cons_append, List.nil_append, List.mem_cons, List.not_mem_nil, or_false] at hd
    rcases hd with rfl | rfl | rfl <;> exact ⟨hsent, by rw [hstable]; rfl⟩
  · simp [rowsOf, hstable]
  · rw [hall]
    simp [OneAtATime]
  · rw [hall]
    simp [NoCollision]

end Taskowl
