import Mathlib.Data.List.Infix
import Taskowl.Flights

/-!
# Automations that are switched off or deleted

An automation that is switched off, or deleted, while coroutines are in flight
is still evaluated by those which have loaded it, and by nothing else. A
coroutine has no lock to wait for and ends within a number of turns of its own,
fixed by what it has loaded and where it stands; then the automation is quiet.
-/

namespace Taskowl.InFlight

open Lib Py

/-! ## What the commits since a time have added -/

/-- The coroutine has not ended, if it has started. -/
def Pending (s : InFlight) (i : Nat) : Prop :=
  ∀ f, s.flights[i]? = some f → f.evaluation.finished = false

/-- The coroutine had loaded the automation by then. -/
def Loaded (lib : PyLib) (db : Db) (clock : Int) (turns : List FlightTurn) (i id : Nat) : Prop :=
  ∃ earlier t later begun a, turns = earlier ++ t :: later ∧
    (after lib db clock earlier).flights.length = i ∧
    (after lib db clock earlier).started t = some begun ∧ a ∈ begun.evaluation.todo ∧ a.id = id

section Since

variable {lib : PyLib} {db : Db} {clock : Int} {turns early rest : List FlightTurn}
  {t : FlightTurn} {s : InFlight} {i id : Nat} {f : Flight}

/-- What a turn leaves of the run log, and what it commits. -/
structure RunsGrow (s s' : InFlight) : Prop where
  commits : s.commits ⊆ s'.commits
  nextId : s.db.runs.nextId ≤ s'.db.runs.nextId
  rows : ∀ r ∈ s'.db.runs.rows, r ∈ s.db.runs.rows ∨ s.db.runs.nextId ≤ r.id ∧
    ∃ i ∈ s'.commits, s.Pending i ∧ r.val ∈ s'.added i

theorem RunsGrow.of_sublist {s s' : InFlight} (hcommits : s'.commits = s.commits)
    (hruns : s'.db.runs.rows.Sublist s.db.runs.rows)
    (hnext : s'.db.runs.nextId = s.db.runs.nextId) : RunsGrow s s' where
  commits := by
    rw [hcommits]
    exact List.Subset.refl _
  nextId := hnext.ge
  rows r hr := .inl (hruns.subset hr)

theorem runsGrow_step : RunsGrow s (s.step lib t) := by
  have hmoved := moved_step lib s t
  generalize s.step lib t = s' at hmoved
  cases hmoved with
  | other hflights hcommits hlog hworld hruns hnext =>
    exact .of_sublist hcommits (hruns ▸ List.filter_sublist) hnext
  | starts hstarted heffects => exact .of_sublist rfl (List.Sublist.refl _) rfl
  | aborts ht hf hopen => exact .of_sublist rfl (List.Sublist.refl _) rfl
  | @turns i f env scan ht hf hopen =>
    cases htodo : f.evaluation.todo with
    | nil =>
      obtain ⟨-, hnext, rs, hrows, -, hids⟩ :=
        exists_view_append f.evaluation (Eq.refl s.db.runs.nextId)
      rw [move_nil htodo]
      unfold put
      rw [htodo]
      refine ⟨List.subset_append_left _ _, hnext, fun r hr => ?_⟩
      have hr : r ∈ (f.evaluation.view s.db.runs).rows := hr
      rw [hrows, List.mem_append] at hr
      refine hr.imp_right fun hr => ⟨(hids r hr).1, i, ?_, fun g hg => ?_, ?_⟩
      · exact List.mem_append_right _ (List.mem_singleton_self i)
      · cases hf.symm.trans hg
        exact hopen
      · unfold added
        rw [List.getElem?_set_self (List.getElem?_eq_some_iff.mp hf).1]
        exact (hids r hr).2
    | cons a rest =>
      have hcommitted : (f.move (s.env lib env scan) s.db.runs s.world).2.committed =
          s.db.runs := by
        rcases move_cons htodo with ⟨-, -, -, hmove⟩ | ⟨-, hmove⟩ <;> rw [hmove]
        exact committed_advance
      refine .of_sublist ?_ ?_ (congrArg Table.nextId hcommitted)
      · unfold put
        rw [htodo]
        exact List.append_nil _
      · exact (congrArg Table.rows hcommitted) ▸ List.Sublist.refl _

theorem after_append : after lib db clock (early ++ rest) =
    run (step lib) (after lib db clock early) rest := by
  unfold after
  rw [run_append]

theorem Pending.of_step (h : (s.step lib t).Pending i) : s.Pending i := by
  intro f hf
  by_contra hfinished
  have hfinished : f.evaluation.finished = true := by simpa using hfinished
  have hopen := h f (finished_step hf hfinished)
  rw [hfinished] at hopen
  cases hopen

theorem Pending.of_run (h : (run (step lib) s rest).Pending i) : s.Pending i := by
  induction rest generalizing s with
  | nil => exact h
  | cons t rest ih => exact (ih h).of_step

theorem runsGrow_after :
    RunsGrow (after lib db clock early) (after lib db clock (early ++ rest)) := by
  induction rest using List.reverseRecOn with
  | nil =>
    rw [List.append_nil]
    exact .of_sublist rfl (List.Sublist.refl _) rfl
  | append_singleton rest t ih =>
    have hsound := flights_sound lib db clock (early ++ rest)
    have hstep : RunsGrow (after lib db clock (early ++ rest)) (after lib db clock
        (early ++ rest ++ [t])) := after_snoc ▸ runsGrow_step
    rw [← List.append_assoc]
    refine ⟨List.Subset.trans ih.commits hstep.commits, ih.nextId.trans hstep.nextId,
      fun r hr => ?_⟩
    rcases hstep.rows r hr with hr | ⟨hle, i, hi, hpending, hmem⟩
    · refine (ih.rows r hr).imp_right fun ⟨hle, i, hi, hpending, hmem⟩ => ?_
      exact ⟨hle, i, hstep.commits hi, hpending, (hsound.added_snoc hi).symm ▸ hmem⟩
    · rw [after_append] at hpending
      exact .inr ⟨ih.nextId.trans hle, i, hi, hpending.of_run, hmem⟩

theorem added_append (hi : i ∈ (after lib db clock early).commits) :
    (after lib db clock (early ++ rest)).added i = (after lib db clock early).added i := by
  induction rest using List.reverseRecOn with
  | nil => rw [List.append_nil]
  | append_singleton rest t ih =>
    rw [← List.append_assoc, (flights_sound lib db clock (early ++ rest)).added_snoc
      (runsGrow_after.commits hi), ih]

/-! ## What a coroutine has loaded -/

theorem flights_length_le : s.flights.length ≤ (run (step lib) s rest).flights.length := by
  induction rest generalizing s with
  | nil => exact Nat.le_refl _
  | cons t rest ih =>
    refine Nat.le_trans ?_ ih
    have hmoved := moved_step lib s t
    generalize s.step lib t = s' at hmoved
    cases hmoved with
    | other hflights => exact hflights ▸ Nat.le_refl _
    | starts hstarted heffects => exact (List.prefix_append _ _).length_le
    | turns ht hf hopen => exact List.length_set.ge
    | aborts ht hf hopen => exact List.length_set.ge

theorem flights_started {begun : Flight} (h : s.started t = some begun) :
    (s.step lib t).flights = s.flights ++ [begun] := by
  cases t with
  | event eventType event scan =>
    cases h
    rfl
  | periodic scan =>
    cases h
    rfl
  | _ => cases h

theorem Loaded.started (h : Loaded lib db clock turns i id) :
    i < (after lib db clock turns).flights.length := by
  obtain ⟨earlier, t, later, begun, a, rfl, rfl, hstarted, -⟩ := h
  rw [after_append, run_cons]
  refine Nat.lt_of_lt_of_le ?_ flights_length_le
  rw [flights_started hstarted, List.length_append]
  exact Nat.lt_succ_self _

theorem enabled_of_started {begun : Flight} {a : Row Automation} (h : s.started t = some begun)
    (ha : a ∈ begun.evaluation.todo) : a ∈ s.db.automations.rows ∧ a.val.enabled = true := by
  unfold started at h
  cases t with
  | event eventType event scan =>
    cases h
    obtain ⟨hmem, hmatches⟩ := List.mem_filter.mp ha
    unfold matchesEvent at hmatches
    rw [Bool.and_eq_true, Bool.and_eq_true] at hmatches
    exact ⟨(scan.perm _).mem_iff.mp hmem, hmatches.1.1⟩
  | periodic scan =>
    cases h
    obtain ⟨hmem, hmatches⟩ := List.mem_filter.mp ha
    unfold matchesPeriodic at hmatches
    rw [Bool.and_eq_true] at hmatches
    exact ⟨(scan.perm _).mem_iff.mp hmem, hmatches.1⟩
  | _ => cases h

theorem loaded_of_todo {a : Row Automation} (hf : (after lib db clock turns).flights[i]? = some f)
    (hopen : f.evaluation.finished = false) (ha : a ∈ f.evaluation.todo) :
    Loaded lib db clock turns i a.id := by
  obtain ⟨earlier, t, later, begun, heq, hlength, hstarted, htracked⟩ :=
    (flights_sound lib db clock turns).flights i f hf
  obtain ⟨before, -, hbegun, -⟩ := (htracked.follows (.inl hopen)).records
  refine ⟨earlier, t, later, begun, a, heq, hlength, hstarted, ?_, rfl⟩
  rw [hbegun]
  exact List.mem_append_right _ ha

theorem exists_of_forall₂ {α β : Type} {R : α → β → Prop} {as : List α} {bs : List β}
    (h : List.Forall₂ R as bs) {b : β} (hb : b ∈ bs) : ∃ a ∈ as, R a b := by
  induction h with
  | nil => cases hb
  | cons hab _ ih =>
    rcases List.mem_cons.mp hb with rfl | hb
    · exact ⟨_, List.mem_cons_self, hab⟩
    · obtain ⟨a, ha, hr⟩ := ih hb
      exact ⟨a, List.mem_cons_of_mem _ ha, hr⟩

theorem loaded_of_added {r : AutomationRun} (hi : i ∈ (after lib db clock turns).commits)
    (hr : r ∈ (after lib db clock turns).added i) :
    Loaded lib db clock turns i r.automationId := by
  have hsound := flights_sound lib db clock turns
  obtain ⟨f, hf, -⟩ := hsound.finished hi
  obtain ⟨earlier, t, later, begun, heq, hlength, hstarted, htracked⟩ := hsound.flights i f hf
  obtain ⟨before, kept, hbegun, hkept, -, hrecords⟩ := (htracked.follows (.inr hi)).records
  unfold added at hr
  rw [hf] at hr
  obtain ⟨a, ha, hevaluated⟩ := exists_of_forall₂ hrecords hr
  obtain ⟨-, -, -, -, rfl⟩ := hevaluated.record
  refine ⟨earlier, t, later, begun, a, heq, hlength, hstarted, ?_, rfl⟩
  rw [hbegun]
  exact List.mem_append_left _ (hkept.subset ha)

end Since

/-! ## An automation that no coroutine loads any more -/

/-- The automation is switched off, or gone. -/
def Retired (id : Nat) (s : InFlight) : Prop :=
  ∀ a ∈ s.db.automations.rows, a.id = id → a.val.enabled = false

section Retired

variable {lib : PyLib} {db : Db} {clock : Int} {turns early rest : List FlightTurn} {i id : Nat}

theorem Loaded.snoc (t : FlightTurn) (h : Loaded lib db clock turns i id) :
    Loaded lib db clock (turns ++ [t]) i id := by
  obtain ⟨earlier, t', later, begun, a, rfl, hbegun⟩ := h
  exact ⟨earlier, t', later ++ [t], begun, a, by rw [List.append_assoc]; rfl, hbegun⟩

theorem Loaded.before (h : Loaded lib db clock (early ++ rest) i id)
    (hoff : ∀ part, part <+: rest → Retired id (after lib db clock (early ++ part))) :
    Loaded lib db clock early i id := by
  obtain ⟨earlier, t, later, begun, a, heq, hlength, hstarted, ha, hid⟩ := h
  obtain ⟨hmem, henabled⟩ := enabled_of_started hstarted ha
  have hnot : ∀ part, part <+: rest → earlier ≠ early ++ part := by
    rintro part hpart rfl
    rw [hoff part hpart a hmem hid] at henabled
    cases henabled
  rcases List.append_eq_append_iff.mp heq with ⟨part, rfl, hrest⟩ | ⟨part, rfl, hlater⟩
  · exact absurd rfl (hnot part ⟨t :: later, hrest.symm⟩)
  · cases part with
    | nil =>
      rw [List.append_nil] at hnot
      exact absurd (List.append_nil _).symm (hnot [] List.nil_prefix)
    | cons t' part =>
      cases hlater
      exact ⟨earlier, t, part, begun, a, rfl, hlength, hstarted, ha, hid⟩

/-- The dispatches since a time are of coroutines that were open then, and have loaded their
automations. -/
theorem log_append : Appends InFlight.log (fun ds => ∀ d ∈ ds,
      Loaded lib db clock (early ++ rest) d.1 d.2 ∧ (after lib db clock early).Pending d.1)
    (after lib db clock early) (after lib db clock (early ++ rest)) := by
  induction rest using List.reverseRecOn with
  | nil =>
    rw [List.append_nil]
    exact .none rfl nofun
  | append_singleton rest t ih =>
    rw [← List.append_assoc]
    have hstep : Appends InFlight.log (fun ds => ∀ d ∈ ds,
          Loaded lib db clock (early ++ rest) d.1 d.2 ∧
          (after lib db clock (early ++ rest)).Pending d.1)
        (after lib db clock (early ++ rest)) (after lib db clock (early ++ rest ++ [t])) := by
      have hmoved := moved_step lib (after lib db clock (early ++ rest)) t
      rw [← after_snoc] at hmoved
      generalize after lib db clock (early ++ rest ++ [t]) = s' at hmoved
      cases hmoved with
      | other hflights hcommits hlog => exact .none hlog nofun
      | starts hstarted heffects => exact .none rfl nofun
      | aborts ht hf hopen => exact .none rfl nofun
      | @turns i f env scan ht hf hopen =>
        refine ⟨_, rfl, fun d hd => ?_⟩
        obtain ⟨id, hid, rfl⟩ := List.mem_map.mp hd
        have hid := Option.mem_toList.mp hid
        refine ⟨?_, fun g hg => by cases hf.symm.trans hg; exact hopen⟩
        cases htodo : f.evaluation.todo with
        | nil =>
          rw [move_nil htodo] at hid
          cases hid
        | cons a left =>
          rcases move_cons htodo with ⟨-, -, -, hmove⟩ | ⟨-, hmove⟩
          · rw [hmove] at hid
            cases hid
          · rw [hmove] at hid
            obtain ⟨rfl, -⟩ := advance_dispatched hid
            exact loaded_of_todo hf hopen (htodo ▸ List.mem_cons_self)
    refine ih.trans hstep fun ds ds' hds hds' d hd => ?_
    rcases List.mem_append.mp hd with hd | hd
    · exact ⟨(hds d hd).1.snoc t, (hds d hd).2⟩
    · obtain ⟨hloaded, hpending⟩ := hds' d hd
      rw [after_append] at hpending
      exact ⟨hloaded.snoc t, hpending.of_run⟩

/-- Once nothing loads the automation, only the coroutines that had loaded it and are open record
or dispatch it. -/
theorem retired_quiet
    (hoff : ∀ part, part <+: rest → Retired id (after lib db clock (early ++ part))) :
    (∀ r ∈ (after lib db clock (early ++ rest)).db.runs.rows, r.val.automationId = id →
      r ∈ (after lib db clock early).db.runs.rows ∨
        (after lib db clock early).db.runs.nextId ≤ r.id ∧ ∃ i,
        Loaded lib db clock early i id ∧ (after lib db clock early).Pending i ∧
        i ∈ (after lib db clock (early ++ rest)).commits ∧
        r.val ∈ (after lib db clock (early ++ rest)).added i) ∧
    Appends InFlight.log (fun ds => ∀ d ∈ ds, d.2 = id →
        Loaded lib db clock early d.1 id ∧ (after lib db clock early).Pending d.1)
      (after lib db clock early) (after lib db clock (early ++ rest)) := by
  constructor
  · rintro r hr rfl
    refine (runsGrow_after.rows r hr).imp_right fun ⟨hle, i, hi, hpending, hmem⟩ => ?_
    exact ⟨hle, i, (loaded_of_added hi hmem).before hoff, hpending, hi, hmem⟩
  · refine log_append.mono fun ds hds d hd hid => ?_
    subst hid
    exact ⟨(hds d hd).1.before hoff, (hds d hd).2⟩

end Retired

/-! ## How long a coroutine takes -/

def actionCount (a : Row Automation) : Nat :=
  match (a.val.actions.read.or (.arr [])).iter with
  | .error _ => 0
  | .ok actions => actions.length

/-- The turns that the automation at the head may still take. -/
def headTurns (a : Row Automation) (due : Bool) : Stage → Nat
  | .conditions => actionCount a + if due then 5 else 6
  | .breaker => actionCount a + 4
  | .cooldown => actionCount a + 3
  | .limit => actionCount a + 2
  | .dispatch left _ => left.length + 1

/-- The turns that the coroutine may still take. -/
def turnsLeft (f : Flight) : Nat :=
  if f.evaluation.finished then 0
  else match f.evaluation.todo with
    | [] => 1
    | a :: rest => headTurns a f.due f.evaluation.stage +
      (rest.map fun a => actionCount a + 6).sum + 1

def resumes (i : Nat) : FlightTurn → Bool
  | .resume j _ _ => i == j
  | _ => false

section Ends

variable {lib : PyLib} {env : Env} {committed : Table AutomationRun} {w : World} {e : Evaluation}
  {a : Row Automation} {f : Flight} {s : InFlight} {t : FlightTurn} {i : Nat}

/-- Between two awaits the coroutine gets further with the automation. -/
inductive Further (a : Row Automation) (e : Evaluation) : Evaluation → Prop
  | stays (stage : Stage) (hless : headTurns a false stage < headTurns a true e.stage) :
    Further a e { e with stage }
  | records (r : AutomationRun) : Further a e (e.record r)
  | fails : Further a e e.fail

theorem advance_further : Further a e (e.advance env committed w a).evaluation := by
  unfold Evaluation.advance
  cases hstage : e.stage with
  | conditions =>
    dsimp only
    split
    · exact .fails
    · exact .records _
    · refine .stays .breaker ?_
      rw [hstage]
      exact Nat.lt_succ_self _
  | breaker =>
    dsimp only
    split
    · exact .fails
    · exact .records _
    · refine .stays .cooldown ?_
      rw [hstage]
      exact Nat.lt_succ_self _
  | cooldown =>
    dsimp only
    split
    · exact .fails
    · exact .records _
    · refine .stays .limit ?_
      rw [hstage]
      exact Nat.lt_succ_self _
  | limit =>
    dsimp only
    split
    · exact .fails
    · exact .records _
    · split
      · exact .fails
      · next actions hactions =>
        refine .stays (.dispatch actions []) ?_
        rw [hstage]
        unfold headTurns actionCount
        rw [hactions]
        exact Nat.lt_succ_self _
  | dispatch left fired =>
    have hless : ∀ (action : Json) (left fired fired' : List Json),
        headTurns a false (.dispatch left fired') <
          headTurns a true (.dispatch (action :: left) fired) :=
      fun action left fired fired' => Nat.lt_succ_self _
    dsimp only
    split
    · exact .records _
    · split
      all_goals
        refine .stays (.dispatch _ _) ?_
        rw [hstage]
        exact hless _ _ _ _
    · exact .fails

theorem turnsLeft_finished (h : f.evaluation.finished = true) : turnsLeft f = 0 := if_pos h

theorem turnsLeft_open (h : f.evaluation.finished = false) : 0 < turnsLeft f := by
  unfold turnsLeft
  rw [if_neg (by rw [h]; exact Bool.false_ne_true)]
  split <;> exact Nat.succ_pos _

theorem turnsLeft_cons {rest : List (Row Automation)} (hopen : f.evaluation.finished = false)
    (htodo : f.evaluation.todo = a :: rest) : turnsLeft f =
      headTurns a f.due f.evaluation.stage + (rest.map fun a => actionCount a + 6).sum + 1 := by
  unfold turnsLeft
  rw [if_neg (by rw [hopen]; exact Bool.false_ne_true), htodo]

theorem turnsLeft_next (hstage : e.stage = .conditions) (periodic : Bool) :
    turnsLeft ⟨e, periodic, false⟩ ≤ (e.todo.map fun a => actionCount a + 6).sum + 1 := by
  unfold turnsLeft
  split
  · exact Nat.zero_le _
  · cases htodo : e.todo with
    | nil => exact Nat.le_refl _
    | cons a rest =>
      dsimp only
      rw [hstage, List.map_cons, List.sum_cons]
      exact Nat.le_refl _

theorem headTurns_due (a : Row Automation) (due : Bool) (stage : Stage) :
    headTurns a true stage ≤ headTurns a due stage := by
  cases stage with
  | conditions => cases due <;> simp [headTurns]
  | _ => exact Nat.le_refl _

theorem headTurns_pos (a : Row Automation) (due : Bool) (stage : Stage) :
    0 < headTurns a due stage := by
  cases stage with
  | conditions => cases due <;> exact Nat.succ_pos _
  | _ => exact Nat.succ_pos _

theorem turnsLeft_move (hopen : f.evaluation.finished = false) :
    turnsLeft (f.after (f.move env committed w)) < turnsLeft f := by
  have hfail : ∀ due, turnsLeft ⟨f.evaluation.fail, f.periodic, due⟩ < turnsLeft f := fun due =>
    (turnsLeft_finished rfl).trans_lt (turnsLeft_open hopen)
  cases htodo : f.evaluation.todo with
  | nil =>
    rw [move_nil htodo]
    exact (turnsLeft_finished rfl).trans_lt (turnsLeft_open hopen)
  | cons a rest =>
    have hcons := turnsLeft_cons hopen htodo
    have hpos := headTurns_pos a f.due f.evaluation.stage
    have hnext : ∀ e : Evaluation, e.stage = .conditions → e.todo = rest →
        turnsLeft ⟨e, f.periodic, false⟩ < turnsLeft f := by
      rintro e hstage rfl
      have := turnsLeft_next hstage f.periodic
      omega
    rcases move_cons htodo with ⟨-, hdue, hstage, hmove⟩ | ⟨-, hmove⟩
    · rw [hmove]
      unfold Flight.after
      rcases checkDue_cases committed f.evaluation a with hr | ⟨hr, -⟩ | hr <;> rw [hr]
      · exact hnext _ hstage (by rw [htodo]; rfl)
      · have hchecked := turnsLeft_cons (f := ⟨f.evaluation, f.periodic, true⟩) hopen htodo
        rw [hdue, hstage] at hcons
        rw [hstage] at hchecked
        unfold headTurns at hcons hchecked
        dsimp only at hcons hchecked ⊢
        simp only [if_true] at hchecked
        simp only [Bool.false_eq_true, if_false] at hcons
        omega
      · exact hfail false
    · rw [hmove]
      unfold Flight.after
      dsimp only
      have hfurther : Further a f.evaluation (f.evaluation.advance env committed w a).evaluation :=
        advance_further
      generalize (f.evaluation.advance env committed w a).evaluation = e' at hfurther
      cases hfurther with
      | stays stage hless =>
        have hstays := turnsLeft_cons (f := ⟨{ f.evaluation with stage }, f.periodic, false⟩)
          hopen htodo
        have := headTurns_due a f.due f.evaluation.stage
        dsimp only at hstays
        omega
      | records r => exact hnext _ rfl (by unfold Evaluation.record; rw [htodo]; rfl)
      | fails => exact hfail false

/-- Turns of the others cost a coroutine nothing, and each of its own brings it nearer. -/
theorem turnsLeft_step (lib : PyLib) (t : FlightTurn) (hf : s.flights[i]? = some f) :
    ∃ f', (s.step lib t).flights[i]? = some f' ∧ turnsLeft f' ≤
      turnsLeft f - if resumes i t then 1 else 0 := by
  cases hopen : f.evaluation.finished with
  | true =>
    refine ⟨f, finished_step hf hopen, ?_⟩
    rw [turnsLeft_finished hopen]
    exact Nat.zero_le _
  | false =>
    have hi := (List.getElem?_eq_some_iff.mp hf).1
    by_cases hown : resumes i t = true
    · rw [if_pos hown]
      unfold resumes at hown
      split at hown
      · next j env scan =>
        obtain rfl : i = j := by simpa using hown
        refine ⟨f.after (f.move (s.env lib env scan) s.db.runs s.world), ?_, ?_⟩
        · unfold step
          dsimp only
          rw [hf]
          dsimp only
          rw [if_neg (by rw [hopen]; exact Bool.false_ne_true)]
          exact List.getElem?_set_self hi
        · exact Nat.le_sub_one_of_lt (turnsLeft_move hopen)
      · cases hown
    · rw [if_neg hown]
      have hmoved := moved_step lib s t
      generalize s.step lib t = s' at hmoved
      cases hmoved with
      | other hflights => exact ⟨f, by rw [hflights, hf], Nat.le_refl _⟩
      | starts hstarted heffects =>
        exact ⟨f, (List.getElem?_append_left hi).trans hf, Nat.le_refl _⟩
      | @turns j g env scan ht hg hopen' =>
        subst ht
        refine ⟨f, ?_, Nat.le_refl _⟩
        show (s.flights.set j _)[i]? = some f
        rw [List.getElem?_set_ne, hf]
        rintro rfl
        exact hown (beq_self_eq_true j)
      | @aborts j g ht hg hopen' =>
        by_cases hij : j = i
        · subst hij
          refine ⟨_, List.getElem?_set_self hi, ?_⟩
          rw [turnsLeft_finished rfl]
          exact Nat.zero_le _
        · exact ⟨f, (List.getElem?_set_ne hij).trans hf, Nat.le_refl _⟩

/-- Whatever happens between, a coroutine with so many turns of its own ends. -/
theorem flights_end (lib : PyLib) {rest : List FlightTurn} (hf : s.flights[i]? = some f)
    (hturns : turnsLeft f ≤ rest.countP (resumes i)) :
    ∃ f', (run (step lib) s rest).flights[i]? = some f' ∧ f'.evaluation.finished = true := by
  induction rest generalizing s f with
  | nil =>
    refine ⟨f, hf, ?_⟩
    by_contra hopen
    have hopen : f.evaluation.finished = false := by simpa using hopen
    exact absurd (turnsLeft_open hopen) (Nat.not_lt.mpr hturns)
  | cons t rest ih =>
    obtain ⟨f', hf', hless⟩ := turnsLeft_step lib t hf
    refine ih hf' ?_
    rw [List.countP_cons] at hturns
    omega

end Ends

/-! ## The results -/

/-- **A retired automation falls quiet.** From when an automation is switched off or deleted, and
as long as it stays so, let every coroutine that is open have the turns it may still take: after
that no run of the automation is added and no dispatch of its actions begins, whatever else goes
on. -/
theorem retired_stops (lib : PyLib) (db : Db) (clock : Int) (early mid rest : List FlightTurn)
    (id : Nat)
    (hoff : ∀ part, part <+: mid ++ rest → Retired id (after lib db clock (early ++ part)))
    (hturns : ∀ i f, (after lib db clock early).flights[i]? = some f →
      turnsLeft f ≤ mid.countP (resumes i)) :
    (∀ r ∈ (after lib db clock (early ++ mid ++ rest)).db.runs.rows, r.val.automationId = id →
      r ∈ (after lib db clock (early ++ mid)).db.runs.rows) ∧
    (after lib db clock (early ++ mid ++ rest)).log.filter (·.2 == id) =
      (after lib db clock (early ++ mid)).log.filter (·.2 == id) := by
  have hmid : ∀ part, part <+: mid → Retired id (after lib db clock (early ++ part)) :=
    fun part hpart => hoff part (hpart.trans (List.prefix_append mid rest))
  have hrest : ∀ part, part <+: rest → Retired id (after lib db clock (early ++ mid ++ part)) := by
    intro part hpart
    rw [List.append_assoc]
    exact hoff (mid ++ part) ((List.prefix_append_right_inj mid).mpr hpart)
  have hended : ∀ i, Loaded lib db clock (early ++ mid) i id →
      ¬ (after lib db clock (early ++ mid)).Pending i := by
    intro i hloaded hpending
    have hf := List.getElem?_eq_getElem (hloaded.before hmid).started
    obtain ⟨f', hf', hfinished⟩ := flights_end lib hf (hturns i _ hf)
    rw [← after_append] at hf'
    rw [hpending f' hf'] at hfinished
    cases hfinished
  obtain ⟨hruns, ds, hlog, hds⟩ := retired_quiet hrest
  constructor
  · refine fun r hr hid => (hruns r hr hid).resolve_right ?_
    rintro ⟨-, i, hloaded, hpending, -⟩
    exact hended i hloaded hpending
  · have hnone : ds.filter (·.2 == id) = [] := by
      refine List.filter_eq_nil_iff.mpr fun d hd hid => ?_
      obtain ⟨hloaded, hpending⟩ := hds d hd (beq_iff_eq.mp hid)
      exact hended d.1 hloaded hpending
    rw [hlog, List.filter_append, hnone, List.append_nil]

/-- The log automation is switched off while a failure is being handled. -/
def switchedOff : List FlightTurn := [.event "task-failed" [] .byId, .write (.toggle 0 1)]

def ownTurns (i n : Nat) : List FlightTurn := List.replicate n (.resume i (.idle 0) .byId)

/-- The failure is still logged, by the coroutine that had loaded the automation; the next is
not. -/
theorem retired_stops_switchedOff :
    (after (Env.idle 0).lib cappedStore 0 (switchedOff ++ ownTurns 0 8)).log = [(0, 1)] ∧
      (after (Env.idle 0).lib cappedStore 0 (switchedOff ++ ownTurns 0 8 ++
          (.event "task-failed" [] .byId :: ownTurns 1 8))).log.filter (·.2 == 1) =
        (after (Env.idle 0).lib cappedStore 0 (switchedOff ++ ownTurns 0 8)).log.filter
          (·.2 == 1) := by
  have hoff : ∀ part ∈ (ownTurns 0 8 ++ .event "task-failed" [] .byId :: ownTurns 1 8).inits,
      ∀ a ∈ (after (Env.idle 0).lib cappedStore 0 (switchedOff ++ part)).db.automations.rows,
        a.id = 1 → a.val.enabled = false := by
    decide +kernel
  have hleft : (after (Env.idle 0).lib cappedStore 0 switchedOff).flights.map turnsLeft = [8] := by
    decide +kernel
  refine ⟨by decide +kernel, (retired_stops (Env.idle 0).lib cappedStore 0 switchedOff
    (ownTurns 0 8) (.event "task-failed" [] .byId :: ownTurns 1 8) 1
    (fun part hpart => hoff part ((List.mem_inits _ _).mpr hpart)) fun i f hf => ?_).2⟩
  have hi : [8][i]? = some (turnsLeft f) := by
    rw [← hleft, List.getElem?_map, hf]
    rfl
  cases i with
  | zero =>
    rw [← Option.some.inj hi]
    decide
  | succ i => cases hi

end Taskowl.InFlight
