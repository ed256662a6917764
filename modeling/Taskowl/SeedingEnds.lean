import Taskowl.Lib.Progress
import Taskowl.SeedingRuns

/-!
# Seedings end

All seedings take the names in the order of `_seed`, and a create takes one
name, so no two calls wait for each other. With the same settings everywhere
a seeding that raises because of another one loses nothing: that other one
committed every alert.
-/

namespace Taskowl

open Lib Py

/-! ## Nobody waits forever -/

def Race.left (s : Race) : Nat := (s.clients.map (·.left)).sum

theorem Race.left_set {s s' : Race} {i : Nat} {c c' : Client} (hi : s.clients[i]? = some c)
    (hclients : s'.clients = s.clients.set i c') (hless : c'.left < c.left) :
    s'.left < s.left := by
  obtain ⟨hlt, rfl⟩ := List.getElem?_eq_some_iff.mp hi
  have hbefore := ((List.getElem_cons_eraseIdx_perm hlt).map (·.left)).sum_eq
  have hafter := ((List.set_perm_cons_eraseIdx hlt c').map (·.left)).sum_eq
  rw [List.map_cons, List.sum_cons] at hbefore hafter
  unfold Race.left
  rw [hclients, hafter, ← hbefore]
  omega

theorem Race.Inv.step_less {s : Race} (hs : s.Inv) (i : Nat) :
    s.step i = s ∨ (s.step i).left < s.left := by
  cases hc : s.clients[i]? with
  | none => exact .inl (Race.step_of_none hc)
  | some c =>
    rcases Race.step_cases hc with ⟨-, hsame⟩ | ⟨-, -, hsame⟩ | ⟨hnone, hmove⟩
    · exact .inl hsame
    · exact .inl hsame
    · obtain ⟨done, hopen⟩ := (Client.sound_open hnone).mp (hs.sound i c hc)
      obtain ⟨c', hmoved⟩ := hmove.moved hnone hs.unique hopen
      exact .inr (left_set hc hmoved.clients hmoved.less)

def Race.Over (s : Race) : Prop := ∀ c ∈ s.clients, c.reply.isSome

def Race.waits (s : Race) (i : Nat) : Option String :=
  match s.clients[i]? with
  | none => none
  | some c => if c.checked then c.todo.head?.map (·.name) else none

/-- The transaction has an uncommitted row of the name. -/
def Race.Holds (s : Race) (i : Nat) (name : String) : Prop :=
  ∃ r ∈ s.heap.rows, r.val.writer = some i ∧ r.val.val.name = name

/-- A call that writes is open, and waits above the names it holds. -/
theorem Race.Inv.above {s : Race} (hs : s.Inv) {i : Nat} {name held : String}
    (hwaits : s.waits i = some name) (hheld : s.Holds i held) :
    alertRank held < alertRank name := by
  obtain ⟨r, hr, hwriter, rfl⟩ := hheld
  obtain ⟨c, hc⟩ := hs.owned r hr i hwriter
  have hsound := hs.sound i c hc
  unfold Race.waits at hwaits
  rw [hc] at hwaits
  dsimp only at hwaits
  split at hwaits
  · cases hreply : c.reply with
    | some reply =>
      exact absurd hwriter ((Client.sound_answered (by rw [hreply]; rfl)).mp hsound r hr)
    | none =>
      obtain ⟨done, hopen⟩ := (Client.sound_open hreply).mp hsound
      obtain ⟨-, ins, hins, hrow⟩ := hopen.wrote r hr hwriter
      have hordered := StoreCall.ordered hopen.insertions
      cases htodo : c.todo with
      | nil =>
        rw [htodo] at hwaits
        cases hwaits
      | cons next todo =>
        rw [htodo] at hwaits hordered
        cases hwaits
        rw [hordered.named ins (List.mem_append_left _ hins) _ hrow]
        exact (List.pairwise_append.mp hordered.ranked).2.2 ins hins next List.mem_cons_self
  · cases hwaits

def Race.unanswered (s : Race) (i : Nat) : Bool :=
  match s.clients[i]? with
  | none => false
  | some c => c.reply.isNone

theorem Race.unanswered_iff {s : Race} {i : Nat} :
    s.unanswered i = true ↔ ∃ c, s.clients[i]? = some c ∧ c.reply = none := by
  unfold Race.unanswered
  cases hc : s.clients[i]? with
  | none => exact ⟨nofun, fun ⟨c, h, _⟩ => nomatch h⟩
  | some c =>
    rw [Option.isNone_iff_eq_none]
    exact ⟨fun h => ⟨c, rfl, h⟩, fun ⟨d, hd, h⟩ => by cases hd; exact h⟩

/-- While a call has no answer, some call can move: the seedings take the names in one order, and
a create holds nothing while it waits. -/
theorem Race.Inv.moves {s : Race} (hs : s.Inv) (hover : ¬ s.Over) :
    ∃ i, i < s.clients.length ∧ s.step i ≠ s := by
  have hmem : ∀ i, i ∈ (List.range s.clients.length).filter s.unanswered ↔
      ∃ c, s.clients[i]? = some c ∧ c.reply = none := by
    intro i
    rw [List.mem_filter, unanswered_iff, List.mem_range]
    exact ⟨And.right, fun h => ⟨h.elim fun c hc => (List.getElem?_eq_some_iff.mp hc.1).1, h⟩⟩
  have hne : (List.range s.clients.length).filter s.unanswered ≠ [] := by
    unfold Race.Over at hover
    push Not at hover
    obtain ⟨c, hc, hreply⟩ := hover
    obtain ⟨i, hi⟩ := List.mem_iff_getElem?.mp hc
    exact List.ne_nil_of_mem ((hmem i).mpr ⟨c, hi, by simpa using hreply⟩)
  obtain ⟨i, hi, hfree⟩ := exists_free alertRank s.Holds s.waits hne
    fun i _ name hwaits held hheld => hs.above hwaits hheld
  obtain ⟨c, hc, hnone⟩ := (hmem i).mp hi
  refine ⟨i, (List.getElem?_eq_some_iff.mp hc).1, ?_⟩
  rcases Race.step_cases hc with ⟨hsome, -⟩ | ⟨-, hblocked, -⟩ | ⟨-, hmove⟩
  · rw [hnone] at hsome
    cases hsome
  · obtain ⟨ins, todo, a, r, j, htodo, hchecked, hrow, hr, hname, hwriter, -⟩ := hblocked
    obtain ⟨done, hopen⟩ := (Client.sound_open hnone).mp (hs.sound i c hc)
    have hwaits : s.waits i = some ins.name := by
      unfold Race.waits
      rw [hc]
      dsimp only
      rw [if_pos hchecked, htodo]
      rfl
    obtain ⟨d, hd⟩ := hs.owned r hr j hwriter
    have hopenj : d.reply = none := by
      cases hreply : d.reply with
      | none => rfl
      | some reply =>
        exact absurd hwriter
          ((Client.sound_answered (by rw [hreply]; rfl)).mp (hs.sound j d hd) r hr)
    have hsame : a.name = ins.name :=
      (StoreCall.ordered hopen.insertions).named ins (by simp [htodo]) a hrow
    exact absurd ⟨r, hr, hwriter, hname.trans hsame⟩
      (hfree ins.name hwaits j ((hmem j).mpr ⟨d, hd, hopenj⟩))
  · obtain ⟨done, hopen⟩ := (Client.sound_open hnone).mp (hs.sound i c hc)
    obtain ⟨c', hmoved⟩ := hmove.moved hnone hs.unique hopen
    intro hsame
    have hless := left_set hc hmoved.clients hmoved.less
    rw [hsame] at hless
    exact Nat.lt_irrefl _ hless

theorem length_insertions {call : StoreCall} {now : Int} {all : List Insertion}
    (h : call.insertions now = .ok all) : all.length ≤ 4 := by
  cases call with
  | seed settings =>
    cases h
    rw [List.length_map]
    unfold seedDefinitions
    split
    · exact Nat.zero_le _
    · exact Nat.zero_le _
    · cases settings.alertOnTaskFailed <;> cases settings.alertSlowTaskSeconds <;>
        cases settings.alertOnWorkerOffline <;> simp
  | create data => exact (StoreCall.insertions_create h).trans_le (by decide)

theorem left_start (now : Int) (call : StoreCall) : (Client.start now call).left ≤ 10 := by
  unfold Client.start
  split
  · exact Nat.zero_le _
  · next todo htodo =>
    rw [Client.left_open rfl, if_neg Bool.false_ne_true]
    have := length_insertions htodo
    dsimp only
    omega

theorem Race.left_start (db : Db) (calls : List (Int × StoreCall)) :
    (Race.start db calls).left ≤ 10 * calls.length := by
  unfold Race.left Race.start
  rw [List.map_map]
  induction calls with
  | nil => exact Nat.zero_le _
  | cons call calls ih =>
    have := Taskowl.left_start call.1 call.2
    rw [List.map_cons, List.sum_cons, List.length_cons]
    dsimp only [Function.comp] at ih ⊢
    omega

/-- **Every call is answered.** Whatever has happened so far, a fair schedule from there on, one
that gives every call its turn in each of ten rounds a call, brings all of them to an answer: no
set of calls waits for one another. -/
theorem race_ends {db : Db} (hunique : (db.automations.vals.map (·.name)).Nodup)
    (calls : List (Int × StoreCall)) (is : List Nat) {rounds : List (List Nat)}
    (hfair : ∀ round ∈ rounds, ∀ i < calls.length, i ∈ round)
    (hlong : 10 * calls.length ≤ rounds.length) :
    ∀ c ∈ (run Race.step (Race.start db calls) (is ++ rounds.flatten)).clients,
      c.reply.isSome := by
  rw [run_append]
  have hserial := run_invariant (I := Race.Serial db calls) (fun s i hs => hs.step i) is
    (Race.serial_start hunique calls)
  have hless := measure_run Race.left (I := Race.Inv)
    (fun s i hs => hs.step i) (fun s i hs => hs.step_less i) is (Race.inv_start hunique calls)
  refine run_rounds Race.left (D := Race.Over) (U := fun i => i < calls.length)
    (I := Race.Serial db calls) (fun s i hs => hs.step i) (fun s i hs => hs.inv.step_less i)
    (fun s hs hover => ?_) (fun s i hs hover => ?_) hserial hfair
    (hless.trans ((Race.left_start db calls).trans hlong))
  · obtain ⟨i, hi, hmoves⟩ := hs.inv.moves hover
    refine ⟨i, ?_, hmoves⟩
    rw [← hs.calls, List.length_map]
    exact hi
  · have hsame : s.step i = s := by
      cases hc : s.clients[i]? with
      | none => exact Race.step_of_none hc
      | some c =>
        unfold Race.step
        rw [hc]
        exact if_pos (hover c (List.mem_of_getElem? hc))
    rw [hsame]
    exact hover

theorem race_ends_two : ((run Race.step (Race.start .empty twoSeedings)
    (seedingSchedule ++ (List.replicate 20 [1, 0]).flatten)).clients.all (·.reply.isSome)) = true :=
  List.all_eq_true.mpr (@race_ends .empty List.nodup_nil twoSeedings seedingSchedule _
    (by decide) (by decide))

/-! ## Seedings with the same settings -/

/-- The call could not bind one of the definitions. -/
def Client.Unbound (settings : Settings) (c : Client) : Prop :=
  ∃ d ∈ seedDefinitions settings, ∃ e, bindInt 31 (jsonOf .int d.scheduleSeconds) = .error e ∧
    c.reply = some (.error e)

/-- How a call of the settings stands to the calls that committed, of which there are some or
none. -/
structure Client.Told (settings : Settings) (h : Heap) (some : Prop) (c : Client) : Prop where
  call : c.call = .seed settings
  checked : c.reply = none → c.checked = true → ∀ ins ∈ c.todo.head?, h.Has ins.name → some
  answered : c.reply.isSome → c.Unbound settings ∨ some

section Told

variable {settings : Settings} {h : Heap} {some : Prop} {c : Client}

theorem Client.told_of_unchecked (hcall : c.call = .seed settings) (hnone : c.reply = none)
    (hchecked : c.checked = false) : c.Told settings h some where
  call := hcall
  checked _ hcheck := by
    rw [hchecked] at hcheck
    cases hcheck
  answered hsome := by
    rw [hnone] at hsome
    cases hsome

theorem Client.told_of_answered (hcall : c.call = .seed settings) (hsome : c.reply.isSome)
    (hanswered : c.Unbound settings ∨ some) : c.Told settings h some where
  call := hcall
  checked hnone := by
    rw [hnone] at hsome
    cases hsome
  answered _ := hanswered

end Told

/-- Once one seeding committed, every name is there, and one that answers does so after that or
fails to bind. -/
structure Race.Told (settings : Settings) (s : Race) : Prop where
  inv : s.Inv
  all : s.log ≠ [] → ∀ d ∈ seedDefinitions settings, s.heap.Has d.name
  clients : ∀ c ∈ s.clients, c.Told settings s.heap (s.log ≠ [])

theorem Race.Told.set {settings : Settings} {s s' : Race} {i : Nat}
    (hs : s.Told settings) (c' : Client) (hinv : s'.Inv)
    (hclients : s'.clients = s.clients.set i c') (hlog : s'.log = s.log)
    (hrows : s'.heap.committed = s.heap.committed)
    (hc' : c'.Told settings s.heap (s.log ≠ [])) : s'.Told settings := by
  have hhas : ∀ name, s'.heap.Has name ↔ s.heap.Has name := by
    intro name
    unfold Heap.Has
    rw [hrows]
  refine ⟨hinv, fun hne d hd => (hhas d.name).mpr (hs.all (hlog ▸ hne) d hd), fun c hc => ?_⟩
  have htold : c.Told settings s.heap (s.log ≠ []) := by
    rw [hclients] at hc
    rcases List.mem_or_eq_of_mem_set hc with hc | rfl
    · exact hs.clients c hc
    · exact hc'
  rw [hlog]
  exact ⟨htold.call, fun hnone hchecked ins hins h =>
    htold.checked hnone hchecked ins hins ((hhas ins.name).mp h), htold.answered⟩

theorem Client.Open.has_commit {h : Heap} {i : Nat} {c : Client} {done : List Insertion}
    (hc : c.Open h i done) {ins : Insertion} (hins : ins ∈ done) : (h.commit i).Has ins.name := by
  obtain ⟨r, hr, hname, hwriter⟩ := hc.seen ins hins
  refine Heap.has_iff.mpr ?_
  rcases hwriter with hwriter | hwriter
  · exact ⟨r, (h.frame_commit i).kept r hr (by rw [hwriter]; exact nofun), hwriter, hname⟩
  · exact ⟨_, List.mem_map.mpr ⟨r, hr, if_pos hwriter⟩, rfl, hname⟩

theorem Race.Told.step {settings : Settings} {s : Race} (hs : s.Told settings) (i : Nat) :
    (s.step i).Told settings := by
  have hinv := hs.inv.step i
  cases hc : s.clients[i]? with
  | none =>
    rw [Race.step_of_none hc]
    exact hs
  | some c =>
    rcases Race.step_cases hc with ⟨-, hsame⟩ | ⟨-, -, hsame⟩ | ⟨hnone, hmove⟩
    · rw [hsame]
      exact hs
    · rw [hsame]
      exact hs
    · obtain ⟨done, hopen⟩ := (Client.sound_open hnone).mp (hs.inv.sound i c hc)
      have htold := hs.clients c (List.mem_of_getElem? hc)
      have hall : (seedDefinitions settings).map (·.insertion c.now) = done ++ c.todo := by
        have hinsertions := hopen.insertions
        rw [htold.call] at hinsertions
        exact Except.ok.inj hinsertions
      generalize hstep : s.step i = s' at hmove hinv ⊢
      cases hmove with
      | commit htodo =>
        rw [htodo, List.append_nil] at hall
        have hne : (s.commit i c).log ≠ [] := by simp [Race.commit]
        refine ⟨hinv, fun _ d hd => ?_, fun c' hc' => ?_⟩
        · exact hopen.has_commit (hall ▸ List.mem_map_of_mem hd)
        · refine ⟨?_, fun _ _ _ _ _ => hne, fun _ => .inr hne⟩
          rcases List.mem_or_eq_of_mem_set hc' with hc' | rfl
          · exact (hs.clients c' hc').call
          · exact htold.call
      | @skip ins todo htodo hchecked hvisible hseed =>
        exact hs.set { c with todo } hinv rfl rfl rfl
          (Client.told_of_unchecked htold.call hnone hchecked)
      | refuse htodo hchecked hvisible hcreate =>
        obtain ⟨data, hdata⟩ := hcreate
        rw [htold.call] at hdata
        cases hdata
      | @check ins todo htodo hchecked hvisible =>
        refine hs.set { c with checked := true } hinv rfl rfl rfl
          ⟨htold.call, fun _ _ ins' hins' hhas => absurd ?_ hvisible, ?_⟩
        · rw [htodo] at hins'
          cases hins'
          obtain ⟨r, hr, hwriter, hname⟩ := Heap.has_iff.mp hhas
          exact visible_of_mem hr hname (.inl hwriter)
        · intro hsome
          rw [show c.reply = none from hnone] at hsome
          cases hsome
      | @insert ins todo a htodo hchecked hrow hfree =>
        exact hs.set { c with todo, checked := false } hinv rfl rfl
          (s.heap.committed_insert i c.now a) (Client.told_of_unchecked htold.call hnone rfl)
      | @raise ins todo e htodo hchecked hrow =>
        refine hs.set { c with reply := some (.error e) } hinv rfl rfl
          (s.heap.committed_rollback i) (Client.told_of_answered htold.call rfl (.inl ?_))
        obtain ⟨d, hd, hins⟩ : ∃ d ∈ seedDefinitions settings, d.insertion c.now = ins := by
          refine List.mem_map.mp ?_
          rw [hall, htodo]
          exact List.mem_append_right _ List.mem_cons_self
        refine ⟨d, hd, e, ?_, rfl⟩
        rw [← hins] at hrow
        unfold Definition.insertion at hrow
        cases hb : bindInt 31 (jsonOf .int d.scheduleSeconds) with
        | error e' =>
          rw [hb] at hrow
          cases hrow
          rfl
        | ok x =>
          rw [hb] at hrow
          cases hrow
      | @conflict ins todo a r htodo hchecked hrow hr hname hwriter =>
        refine hs.set { c with reply := some (.error uniqueViolation) } hinv rfl rfl
          (s.heap.committed_rollback i) (Client.told_of_answered htold.call rfl (.inr ?_))
        have hsame : a.name = ins.name :=
          (StoreCall.ordered hopen.insertions).named ins (by simp [htodo]) a hrow
        have hcommitted : r.val.writer = none := hwriter.resolve_right fun hown => by
          have hwaits : s.waits i = some ins.name := by
            unfold Race.waits
            rw [hc]
            dsimp only
            rw [if_pos hchecked, htodo]
            rfl
          exact Nat.lt_irrefl _ (hs.inv.above hwaits ⟨r, hr, hown, hname.trans hsame⟩)
        refine htold.checked hnone hchecked ins (by rw [htodo]; rfl) (Heap.has_iff.mpr ?_)
        exact ⟨r, hr, hcommitted, hname.trans hsame⟩

theorem Race.told_start {settings : Settings} {db : Db}
    (hunique : (db.automations.vals.map (·.name)).Nodup) {calls : List (Int × StoreCall)}
    (hseed : ∀ call ∈ calls, call.2 = .seed settings) : (Race.start db calls).Told settings where
  inv := inv_start hunique calls
  all hne := absurd rfl hne
  clients c hc := by
    obtain ⟨⟨now, call⟩, hcall, rfl⟩ := List.mem_map.mp hc
    cases hseed _ hcall
    exact Client.told_of_unchecked rfl rfl rfl

/-- **No alert is lost to the race.** Consumers with the same settings start together. Once any of
them has its answer, each built-in automation is committed, once, even if the answer is an
exception: of the ones a seeding raises, only that of an interval too large for its column is no
sign that another one committed. -/
theorem seeded_once {settings : Settings} {db : Db}
    (hunique : (db.automations.vals.map (·.name)).Nodup) {calls : List (Int × StoreCall)}
    (hseed : ∀ call ∈ calls, call.2 = .seed settings) (is : List Nat) {c : Client}
    (hc : c ∈ (run Race.step (Race.start db calls) is).clients) (hanswered : c.reply.isSome) :
    let s := run Race.step (Race.start db calls) is
    c.Unbound settings ∨
      ∀ d ∈ seedDefinitions settings, (s.heap.committed.map (·.2.name)).count d.name = 1 := by
  have htold := run_invariant (I := Race.Told settings) (fun s i hs => hs.step i) is
    (Race.told_start hunique hseed)
  intro s
  refine ((htold.clients c hc).answered hanswered).imp_right fun hne d hd => ?_
  refine List.count_eq_one_of_mem ?_ (htold.all hne d hd)
  unfold Heap.committed
  rw [List.map_map]
  exact (List.filter_sublist.map _).nodup htold.inv.unique

/-- The second one raised, and its alerts are there. -/
theorem seeded_once_two : ((run Race.step (Race.start .empty twoSeedings)
    seedingSchedule).heap.committed.map (·.2.name)).count "alert-task-failed" = 1 := by
  let settings : Settings := { alertWebhookUrl := some "https://hooks.example/alerts" }
  have hsame : ∀ call ∈ twoSeedings, call.2 = .seed settings := by
    intro call hcall
    rcases List.mem_pair.mp hcall with rfl | rfl <;> rfl
  have htold := @seeded_once settings .empty List.nodup_nil _ hsame seedingSchedule _
    (List.getElem_mem (n := 1) (by decide)) rfl
  refine htold.resolve_left ?_ (alertTaskFailed "https://hooks.example/alerts")
    List.mem_cons_self
  rintro ⟨d, hd, e, he, -⟩
  have hbound : ∀ d ∈ seedDefinitions settings,
      (bindInt 31 (jsonOf .int d.scheduleSeconds)).isOk = true := by decide
  have hd := hbound d hd
  rw [he] at hd
  cases hd

end Taskowl
