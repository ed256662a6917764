import Taskowl.Registry
import Taskowl.Retired

/-!
# Deletes of automations

`delete_automation` deletes an automation and the runs of it that it sees, in
one transaction, while coroutines are in flight. The delete is final: ids are
given out in order, so the id never comes back. But the runs refer to their
automation by number only, and a coroutine that has loaded the automation
commits its record whenever it ends: such runs outlive the automation, and no
other runs do.
-/

namespace Taskowl

open Lib Py

/-! ## Ids -/

/-- What a transaction leaves of the ids: the rows keep theirs, and new ones are fresh. -/
structure IdsGrow (t t' : Table Automation) : Prop where
  nextId : t.nextId ≤ t'.nextId
  ids : ∀ a ∈ t'.rows, (∃ b ∈ t.rows, b.id = a.id) ∨ t.nextId ≤ a.id

/-- There is no automation with the id, and there will be none. -/
structure Gone (id : Nat) (t : Table Automation) : Prop where
  given : id < t.nextId
  free : ∀ a ∈ t.rows, a.id ≠ id

theorem IdsGrow.refl (t : Table Automation) : IdsGrow t t where
  nextId := Nat.le_refl _
  ids a ha := .inl ⟨a, ha, rfl⟩

theorem IdsGrow.trans {t t' t'' : Table Automation} (h : IdsGrow t t') (h' : IdsGrow t' t'') :
    IdsGrow t t'' where
  nextId := h.nextId.trans h'.nextId
  ids a ha := by
    rcases h'.ids a ha with ⟨b, hb, hid⟩ | hle
    · exact hid ▸ h.ids b hb
    · exact .inr (h.nextId.trans hle)

theorem idsGrow_deleteWhere (t : Table Automation) (p : Row Automation → Bool) :
    IdsGrow t (t.deleteWhere p) where
  nextId := Nat.le_refl _
  ids a ha := .inl ⟨a, List.mem_of_mem_filter ha, rfl⟩

theorem idsGrow_modify (t : Table Automation) (id : Nat) (f : Automation → Automation) :
    IdsGrow t (t.modify id f) where
  nextId := Nat.le_refl _
  ids a ha := by
    obtain ⟨b, hb, rfl⟩ := List.mem_map.mp ha
    refine .inl ⟨b, hb, ?_⟩
    split <;> rfl

theorem Edit.idsGrow {t t' : Table Automation} (h : Edit t t') : IdsGrow t t' := by
  cases h with
  | insert hfresh =>
    refine ⟨Nat.le_succ _, fun a ha => ?_⟩
    rcases List.mem_append.mp ha with ha | ha
    · exact .inl ⟨a, ha, rfl⟩
    · rw [List.mem_singleton.mp ha]
      exact .inr (Nat.le_refl _)
  | modify hfree => exact idsGrow_modify _ _ _
  | delete id => exact idsGrow_deleteWhere _ _

theorem Edited.idsGrow {t t' : Table Automation} (h : Edited t t') : IdsGrow t t' := by
  induction h with
  | refl => exact .refl _
  | tail _ hedit ih => exact ih.trans hedit.idsGrow

theorem Gone.grow {id : Nat} {t t' : Table Automation} (h : Gone id t) (hgrow : IdsGrow t t') :
    Gone id t' where
  given := h.given.trans_le hgrow.nextId
  free a ha := by
    rintro rfl
    rcases hgrow.ids a ha with ⟨b, hb, hid⟩ | hle
    · exact h.free b hb hid
    · exact absurd h.given (Nat.not_lt.mpr hle)

namespace InFlight

/-! ## Open deletes -/

section Deletes

variable {lib : PyLib} {db : Db} {clock : Int} {turns rest : List FlightTurn} {t : FlightTurn}
  {s : InFlight} {i j id : Nat} {d : Deletion}

theorem idsGrow_write (w : Write) (db : Db) :
    IdsGrow db.automations (w.apply db).automations := by
  cases w with
  | insert lib d =>
    show IdsGrow _ (ingest lib db d).automations
    unfold ingest
    split
    · exact .refl _
    · split
      · exact .refl _
      · next hrun =>
        obtain ⟨_, _, -, -, rfl⟩ | ⟨_, _, -, -, rfl⟩ := Handler.run_cases hrun <;> exact .refl _
  | create now data => exact (edited_create now data db).idsGrow
  | update now id data => exact (edited_update now id data db).idsGrow
  | toggle now id =>
    show IdsGrow _ (toggleAutomation now id db).1.automations
    unfold toggleAutomation
    split
    · exact .refl _
    · dsimp only
      exact idsGrow_modify _ _ _
  | seed settings now =>
    show IdsGrow _ (seedBuiltinAutomations settings now db).1.automations
    unfold seedBuiltinAutomations
    split
    · exact .refl _
    · next hok => exact (edited_ensureAll hok).idsGrow
  | prune events runs =>
    show IdsGrow _ (db.prune events runs).automations
    unfold Db.prune
    cases events <;> cases runs <;> exact .refl _

theorem idsGrow_step : IdsGrow s.db.automations (s.step lib t).db.automations := by
  cases t with
  | write w => exact idsGrow_write w s.db
  | resume i env scan =>
    unfold step
    dsimp only
    split
    · exact .refl _
    · split <;> exact .refl _
  | abort i =>
    unfold step
    dsimp only
    split
    · exact .refl _
    · split <;> exact .refl _
  | startDelete id =>
    unfold step
    dsimp only
    split <;> exact .refl _
  | commitDelete j =>
    unfold step
    dsimp only
    split
    · exact .refl _
    · exact idsGrow_deleteWhere _ _
  | _ => exact .refl _

theorem idsGrow_run : IdsGrow s.db.automations (run (step lib) s rest).db.automations := by
  induction rest generalizing s with
  | nil => exact .refl _
  | cons t rest ih => exact idsGrow_step.trans ih

structure Found (s : InFlight) (d : Deletion) : Prop where
  exists_row : ∃ a ∈ s.db.automations.rows, a.id = d.id
  runs : d.runs = (ownRuns d.id s.db.runs.rows).map (·.id)

theorem deletions_step (hd : d ∈ (s.step lib t).deletions) :
    d ∈ s.deletions ∨ t = .startDelete d.id ∧ Found s d := by
  cases t with
  | resume i env scan =>
    unfold step at hd
    dsimp only at hd
    split at hd
    · exact .inl hd
    · split at hd <;> exact .inl hd
  | abort i =>
    unfold step at hd
    dsimp only at hd
    split at hd
    · exact .inl hd
    · split at hd <;> exact .inl hd
  | startDelete id =>
    unfold step at hd
    dsimp only at hd
    split at hd
    · exact .inl hd
    · next a ha =>
      rcases List.mem_append.mp hd with hd | hd
      · exact .inl hd
      · rw [List.mem_singleton.mp hd]
        exact .inr ⟨rfl, ⟨a, Table.get?_eq_some.mp ha⟩, rfl⟩
  | commitDelete j =>
    unfold step at hd
    dsimp only at hd
    split at hd
    · exact .inl hd
    · exact .inl (List.mem_of_mem_eraseIdx hd)
  | abortDelete j => exact .inl (List.mem_of_mem_eraseIdx hd)
  | _ => exact .inl hd

/-- An open delete, from when it was opened. -/
theorem found_of_open (hd : d ∈ (after lib db clock turns).deletions) : ∃ earlier later,
    turns = earlier ++ .startDelete d.id :: later ∧ Found (after lib db clock earlier) d := by
  induction turns using List.reverseRecOn with
  | nil => cases hd
  | append_singleton turns t ih =>
    rw [after_snoc] at hd
    rcases deletions_step hd with hd | ⟨rfl, hfound⟩
    · obtain ⟨earlier, later, rfl, hfound⟩ := ih hd
      exact ⟨earlier, later ++ [t], by rw [List.append_assoc]; rfl, hfound⟩
    · exact ⟨turns, [], rfl, hfound⟩

theorem step_commitDelete (hd : s.deletions[j]? = some d) : s.step lib (.commitDelete j) =
    { s with
      db := { s.db with automations := s.db.automations.deleteWhere (·.id == d.id)
                        runs := s.db.runs.deleteWhere fun r => d.runs.contains r.id }
      deletions := s.deletions.eraseIdx j } := by
  unfold step
  dsimp only
  rw [hd]

theorem gone_commitDelete (hd : (after lib db clock turns).deletions[j]? = some d) :
    Gone d.id (after lib db clock (turns ++ [.commitDelete j])).db.automations := by
  obtain ⟨earlier, later, rfl, hfound⟩ := found_of_open (List.mem_of_getElem? hd)
  obtain ⟨a, ha, hid⟩ := hfound.exists_row
  rw [after_snoc, step_commitDelete hd]
  refine ⟨?_, fun b hb hid => ?_⟩
  · show d.id < (after lib db clock (earlier ++ .startDelete d.id :: later)).db.automations.nextId
    rw [after_append, ← hid]
    exact (Table.bound _ a ha).trans_le idsGrow_run.nextId
  · have hkept : (!(b.id == d.id)) = true := (List.mem_filter.mp hb).2
    rw [hid, beq_self_eq_true] at hkept
    cases hkept

theorem Loaded.of_snoc (h : Loaded lib db clock (turns ++ [t]) i id)
    (hstarted : ∀ s : InFlight, s.started t = none) : Loaded lib db clock turns i id := by
  obtain ⟨earlier, t', later, begun, a, heq, hlength, hbegun, ha⟩ := h
  induction later using List.reverseRecOn with
  | nil =>
    obtain ⟨rfl, htail⟩ := List.append_inj' heq rfl
    cases htail
    rw [hstarted] at hbegun
    cases hbegun
  | append_singleton later t'' _ =>
    rw [← List.cons_append, ← List.append_assoc] at heq
    obtain ⟨rfl, -⟩ := List.append_inj' heq rfl
    exact ⟨earlier, t', later, begun, a, rfl, hlength, hbegun, ha⟩

/-- The runs that a delete has found are those of its automation that were written by then. -/
theorem Found.contains_eq {earlier later : List FlightTurn} {r : Row AutomationRun}
    (hfound : Found (after lib db clock earlier) d)
    (hr : r ∈ (after lib db clock (earlier ++ later)).db.runs.rows) :
    d.runs.contains r.id = (r.val.automationId == d.id &&
      decide (r.id < (after lib db clock earlier).db.runs.nextId)) := by
  have hold : r.id < (after lib db clock earlier).db.runs.nextId →
      r ∈ (after lib db clock earlier).db.runs.rows := fun hlt =>
    (runsGrow_after.rows r hr).resolve_right fun ⟨hle, _⟩ => absurd hlt (Nat.not_lt.mpr hle)
  rw [Bool.eq_iff_iff, Bool.and_eq_true, beq_iff_eq, decide_eq_true_iff, hfound.runs,
    List.contains_iff_mem, List.mem_map]
  constructor
  · rintro ⟨r', hr', hid⟩
    obtain ⟨hr', hown⟩ := List.mem_filter.mp hr'
    have hlt : r.id < (after lib db clock earlier).db.runs.nextId := hid ▸ Table.bound _ r' hr'
    rw [Table.eq_of_id_eq _ (hold hlt) hr' hid.symm]
    exact ⟨beq_iff_eq.mp hown, hid ▸ hlt⟩
  · rintro ⟨hown, hlt⟩
    exact ⟨r, List.mem_filter.mpr ⟨hold hlt, beq_iff_eq.mpr hown⟩, rfl⟩

theorem rows_commitDelete {earlier later : List FlightTurn}
    (hfound : Found (after lib db clock earlier) d)
    (hd : (after lib db clock (earlier ++ later)).deletions[j]? = some d) :
    (after lib db clock (earlier ++ later ++ [.commitDelete j])).db.runs.rows =
      (after lib db clock (earlier ++ later)).db.runs.rows.filter fun r =>
        !(r.val.automationId == d.id &&
          decide (r.id < (after lib db clock earlier).db.runs.nextId)) := by
  rw [after_snoc, step_commitDelete hd]
  exact List.filter_congr fun r hr => congrArg not (hfound.contains_eq hr)

/-- The runs written since are of coroutines that had not ended. -/
theorem written_since {earlier later : List FlightTurn} {r : Row AutomationRun}
    (hr : r ∈ (after lib db clock (earlier ++ later)).db.runs.rows)
    (hle : (after lib db clock earlier).db.runs.nextId ≤ r.id) :
    ∃ i, Loaded lib db clock (earlier ++ later) i r.val.automationId ∧
      (after lib db clock earlier).Pending i ∧ i ∈ (after lib db clock (earlier ++ later)).commits ∧
      r.val ∈ (after lib db clock (earlier ++ later)).added i := by
  rcases runsGrow_after.rows r hr with hold | ⟨-, i, hi, hpending, hmem⟩
  · exact absurd (Table.bound _ r hold) (Nat.not_lt.mpr hle)
  · exact ⟨i, loaded_of_added hi hmem, hpending, hi, hmem⟩

end Deletes

/-! ## The result -/

/-- What holds of a delete, opened after `earlier` and committed after `turns`, however it goes on
with `rest`. -/
structure DeletedFor (lib : PyLib) (db : Db) (clock : Int) (earlier turns rest : List FlightTurn)
    (j : Nat) (d : Deletion) : Prop where
  /-- What the delete found when it was opened. -/
  found : Found (after lib db clock earlier) d
  /-- It takes exactly the runs of the automation that were written by then. -/
  takes : (after lib db clock (turns ++ [.commitDelete j])).db.runs.rows =
    (after lib db clock turns).db.runs.rows.filter fun r =>
      !(r.val.automationId == d.id && decide (r.id < (after lib db clock earlier).db.runs.nextId))
  /-- No automation has the id again. -/
  gone : ∀ a ∈ (after lib db clock (turns ++ .commitDelete j :: rest)).db.automations.rows,
    a.id ≠ d.id
  /-- Its actions are dispatched since only by who had loaded it and was open. -/
  log : Appends InFlight.log (fun ds => ∀ e ∈ ds, e.2 = d.id →
      Loaded lib db clock turns e.1 d.id ∧ (after lib db clock turns).Pending e.1)
    (after lib db clock turns) (after lib db clock (turns ++ .commitDelete j :: rest))
  /-- The runs that are left of it, or come later, were written since, by coroutines that overlapped
  the delete. -/
  runs : ∀ r ∈ (after lib db clock (turns ++ .commitDelete j :: rest)).db.runs.rows,
    r.val.automationId = d.id → (after lib db clock earlier).db.runs.nextId ≤ r.id ∧
      ∃ i, Loaded lib db clock turns i d.id ∧ (after lib db clock earlier).Pending i ∧
        i ∈ (after lib db clock (turns ++ .commitDelete j :: rest)).commits ∧
        r.val ∈ (after lib db clock (turns ++ .commitDelete j :: rest)).added i

/-- **A delete is final.** Once it commits, its automation never comes back, nor does another get
its id; it takes the runs of the automation that were written when it was opened; a dispatch that
begins later is of a coroutine that had loaded the automation and was open; and a run of it that is
left, or added later, was written since by a coroutine that loaded it before the commit and had not
ended when the delete was opened. -/
theorem deleted_final (lib : PyLib) (db : Db) (clock : Int) (turns rest : List FlightTurn) (j : Nat)
    (d : Deletion) (hd : (after lib db clock turns).deletions[j]? = some d) :
    ∃ earlier later, turns = earlier ++ .startDelete d.id :: later ∧
      DeletedFor lib db clock earlier turns rest j d := by
  obtain ⟨earlier, later, hturns, hfound⟩ := found_of_open (List.mem_of_getElem? hd)
  refine ⟨earlier, later, hturns, ?_⟩
  have hsplit : turns ++ .commitDelete j :: rest = turns ++ [.commitDelete j] ++ rest := by
    rw [List.append_assoc]
    rfl
  have htakes : (after lib db clock (turns ++ [.commitDelete j])).db.runs.rows =
      (after lib db clock turns).db.runs.rows.filter fun r => !(r.val.automationId == d.id &&
        decide (r.id < (after lib db clock earlier).db.runs.nextId)) := by
    rw [hturns] at hd ⊢
    exact rows_commitDelete hfound hd
  have hgone : ∀ part, Gone d.id
      (after lib db clock (turns ++ [.commitDelete j] ++ part)).db.automations := by
    intro part
    rw [after_append]
    exact (gone_commitDelete hd).grow idsGrow_run
  have hloaded : ∀ i, Loaded lib db clock (turns ++ [.commitDelete j]) i d.id →
      Loaded lib db clock turns i d.id := fun i h => h.of_snoc fun _ => rfl
  have hpending : ∀ i, (after lib db clock (turns ++ [.commitDelete j])).Pending i →
      (after lib db clock turns).Pending i := by
    intro i h
    rw [after_snoc] at h
    exact h.of_step
  have hoff : ∀ part, part <+: rest →
      Retired d.id (after lib db clock (turns ++ [.commitDelete j] ++ part)) :=
    fun part _ a ha hid => absurd hid ((hgone part).free a ha)
  obtain ⟨hruns, ds, hlog, hds⟩ := retired_quiet hoff
  rw [← hsplit] at hruns hlog
  refine ⟨hfound, htakes, hsplit ▸ (hgone rest).free, ⟨ds, ?_, fun e he hid => ?_⟩,
    fun r hr hid => ?_⟩
  · rw [hlog, after_snoc, step_commitDelete hd]
  · obtain ⟨hl, hp⟩ := hds e he hid
    exact ⟨hloaded _ hl, hpending _ hp⟩
  · rcases hruns r hr hid with hold | ⟨hle, i, hl, hp, hi, hmem⟩
    · rw [htakes] at hold
      obtain ⟨hold, hkept⟩ := List.mem_filter.mp hold
      have hle : (after lib db clock earlier).db.runs.nextId ≤ r.id := by
        simpa [hid] using hkept
      rw [hturns] at hold
      obtain ⟨i, hl, hp, hi, hmem⟩ := written_since hold hle
      rw [← hturns] at hl hi hmem
      exact ⟨hle, i, hid ▸ hl, hp, runsGrow_after.commits hi, added_append hi ▸ hmem⟩
    · have hp := hpending i hp
      have hnext : (after lib db clock earlier).db.runs.nextId ≤
          (after lib db clock (turns ++ [.commitDelete j])).db.runs.nextId := by
        rw [hturns, List.append_assoc, after_append]
        exact nextId_run
      rw [hturns, after_append] at hp
      exact ⟨hnext.trans hle, i, hloaded _ hl, hp.of_run, hi, hmem⟩

/-- A coroutine has loaded the automation when its delete is opened. -/
def overtaken : List FlightTurn := [.event "task-failed" [] .byId, .startDelete 1]

/-- The automation is gone, its run is there, of the coroutine that the delete overtook. -/
theorem deleted_final_overtaken :
    (after (Env.idle 0).lib cappedStore 0
        (overtaken ++ .commitDelete 0 :: ownTurns 0 8)).db.runs.vals.map (·.automationId) = [1] ∧
      ∃ earlier later, overtaken = earlier ++ .startDelete 1 :: later ∧
        DeletedFor (Env.idle 0).lib cappedStore 0 earlier overtaken (ownTurns 0 8) 0 ⟨1, []⟩ :=
  ⟨by decide +kernel, deleted_final (Env.idle 0).lib cappedStore 0 overtaken (ownTurns 0 8) 0
    ⟨1, []⟩ rfl⟩

end InFlight

end Taskowl
