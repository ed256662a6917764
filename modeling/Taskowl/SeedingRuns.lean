import Taskowl.Seedings

/-!
# The serial order of the seedings

A transaction changes rows of its own only, and those are, of the INSERTs
behind it, the ones whose name was not there. When it commits they still are:
the commit does at once what the call does on its own at that moment.
-/

namespace Taskowl

open Lib Py

/-! ## The order of the names -/

/-- The names of the built-in automations, as `_seed` comes to them. -/
def alertNames : List String :=
  ["alert-task-failed", "alert-slow-task", "alert-worker-offline", "alert-worker-offline-sweep"]

def alertRank (name : String) : Nat := alertNames.idxOf name

theorem pairwise_seedDefinitions (settings : Settings) :
    (seedDefinitions settings).Pairwise fun d e => alertRank d.name < alertRank e.name := by
  unfold seedDefinitions
  split
  · exact .nil
  · exact .nil
  · cases settings.alertOnTaskFailed <;> cases settings.alertSlowTaskSeconds <;>
      cases settings.alertOnWorkerOffline <;>
      simp [alertTaskFailed, alertSlowTask, alertWorkerOffline, alertWorkerOfflineSweep,
        alertRank, alertNames, List.idxOf_cons]

/-- What a call inserts comes in rank order, and a row has the name of its INSERT. -/
structure Ordered (all : List Insertion) : Prop where
  ranked : all.Pairwise fun ins ins' => alertRank ins.name < alertRank ins'.name
  named : ∀ ins ∈ all, ∀ a, ins.row = .ok a → a.name = ins.name

theorem Definition.row_insertion {d : Definition} {now : Int} {a : Automation}
    (h : (d.insertion now).row = .ok a) : a = d.automation now := by
  unfold Definition.insertion at h
  cases hb : bindInt 31 (jsonOf .int d.scheduleSeconds) with
  | error e =>
    rw [hb] at h
    cases h
  | ok x =>
    rw [hb] at h
    cases h
    rfl

theorem StoreCall.ordered {call : StoreCall} {now : Int} {all : List Insertion}
    (h : call.insertions now = .ok all) : Ordered all := by
  cases call with
  | seed settings =>
    cases h
    refine ⟨List.pairwise_map.mpr (pairwise_seedDefinitions settings), fun ins hins a ha => ?_⟩
    obtain ⟨d, -, rfl⟩ := List.mem_map.mp hins
    rw [Definition.row_insertion ha]
    rfl
  | create data =>
    unfold StoreCall.insertions at h
    dsimp only at h
    split at h
    · cases h
    · split at h
      · cases h
      · split at h
        · cases h
        · next name hname =>
          cases h
          refine ⟨List.pairwise_singleton .., fun ins hins a ha => ?_⟩
          rw [List.mem_singleton.mp hins] at ha ⊢
          obtain ⟨-, hbound⟩ := bindNew_spec ha
          rw [hbound] at hname
          cases hname
          rfl

theorem Ordered.nodup {all : List Insertion} (h : Ordered all) : (all.map (·.name)).Nodup :=
  List.pairwise_map.mpr (h.ranked.imp fun hlt heq => by rw [heq] at hlt; exact Nat.lt_irrefl _ hlt)

theorem Ordered.eq_of_name {all : List Insertion} (h : Ordered all) {ins ins' : Insertion}
    (hins : ins ∈ all) (hins' : ins' ∈ all) (hname : ins.name = ins'.name) : ins = ins' :=
  List.inj_on_of_nodup_map h.nodup hins hins' hname

/-! ## A call on its own -/

def contentOf (t : Table Automation) : List (Int × Automation) :=
  t.rows.map fun r => (r.createdAt, r.val)

theorem names_eq_contentOf (t : Table Automation) :
    t.vals.map (·.name) = (contentOf t).map (·.2.name) := by
  unfold Table.vals contentOf
  rw [List.map_map, List.map_map]
  rfl

def Insertion.tuple (now : Int) (ins : Insertion) : Option (Int × Automation) :=
  match ins.row with
  | .ok a => some (now, a)
  | .error _ => none

theorem contentOf_insert (t : Table Automation) (now : Int) (a : Automation) :
    contentOf (t.insert now a) = contentOf t ++ [(now, a)] := List.map_append

theorem contentOf_ensureAll {now : Int} {t : Table Automation} {ds : List Definition}
    (hnodup : (ds.map (·.name)).Nodup)
    (hok : ∀ d ∈ ds, d.name ∉ t.vals.map (·.name) → ∃ a, (d.insertion now).row = .ok a) :
    ∃ t', ensureAll now t ds = .ok t' ∧ contentOf t' = contentOf t ++
      (ds.filter fun d => d.name ∉ t.vals.map (·.name)).filterMap
        fun d => (d.insertion now).tuple now := by
  induction ds generalizing t with
  | nil => exact ⟨t, rfl, by simp⟩
  | cons d ds ih =>
    obtain ⟨hnotin, hnodup⟩ := List.nodup_cons.mp hnodup
    unfold ensureAll ensureAutomation
    by_cases hin : d.name ∈ t.vals.map (·.name)
    · rw [if_pos hin]
      obtain ⟨t', ht', hcontent⟩ := ih hnodup fun e he => hok e (List.mem_cons_of_mem d he)
      refine ⟨t', ht', ?_⟩
      rw [hcontent, List.filter_cons_of_neg (by simpa using hin)]
    · rw [if_neg hin]
      obtain ⟨a, ha⟩ := hok d List.mem_cons_self hin
      have hbound : ∃ x, bindInt 31 (jsonOf .int d.scheduleSeconds) = .ok x := by
        unfold Definition.insertion at ha
        cases hb : bindInt 31 (jsonOf .int d.scheduleSeconds) with
        | error e =>
          rw [hb] at ha
          cases ha
        | ok x => exact ⟨x, rfl⟩
      obtain ⟨x, hx⟩ := hbound
      have hnames : ∀ e ∈ ds, (e.name ∉ (t.insert now (d.automation now)).vals.map (·.name) ↔
          e.name ∉ t.vals.map (·.name)) := by
        intro e he
        have hne : e.name ≠ d.name := fun heq => hnotin (List.mem_map.mpr ⟨e, he, heq⟩)
        rw [Table.vals_insert, List.map_append, List.mem_append]
        exact not_congr ⟨fun h => h.resolve_right fun h => hne (List.mem_singleton.mp h), .inl⟩
      obtain ⟨t', ht', hcontent⟩ := ih (t := t.insert now (d.automation now)) hnodup
        fun e he hfree => hok e (List.mem_cons_of_mem d he) ((hnames e he).mp hfree)
      rw [hx]
      refine ⟨t', ht', ?_⟩
      have htuple : (d.insertion now).tuple now = some (now, d.automation now) := by
        unfold Insertion.tuple
        rw [ha, Definition.row_insertion ha]
      rw [hcontent, contentOf_insert, List.filter_cons_of_pos (by simpa using hin),
        List.filterMap_cons, htuple, List.append_assoc, List.singleton_append,
        List.filter_congr fun e he => decide_eq_decide.mpr (hnames e he)]

/-- A call on its own inserts what it has to whose name is not there; a create commits only when
its name is not. -/
theorem contentOf_serveCall {db : Db} {now : Int} {call : StoreCall} {all : List Insertion}
    (h : call.insertions now = .ok all)
    (hok : ∀ ins ∈ all, ins.name ∉ db.automations.vals.map (·.name) → ∃ a, ins.row = .ok a)
    (hcreate : ∀ data, call = .create data →
      ∀ ins ∈ all, ins.name ∉ db.automations.vals.map (·.name)) :
    contentOf (serveCall db (now, call)).automations = contentOf db.automations ++
      (all.filter fun ins => ins.name ∉ db.automations.vals.map (·.name)).filterMap
        (·.tuple now) := by
  cases call with
  | seed settings =>
    cases h
    have hinsertions : (StoreCall.seed settings).insertions now = .ok _ := rfl
    have hnodup := (StoreCall.ordered hinsertions).nodup
    rw [List.map_map] at hnodup
    obtain ⟨t, ht, hcontent⟩ := contentOf_ensureAll (t := db.automations) hnodup
      fun d hd hfree => hok _ (List.mem_map_of_mem hd) hfree
    unfold serveCall seedBuiltinAutomations
    dsimp only
    rw [ht, List.filter_map, List.filterMap_map]
    exact hcontent
  | create data =>
    unfold StoreCall.insertions at h
    dsimp only at h
    split at h
    · cases h
    · next hvalid =>
      split at h
      · cases h
      · next htruthy =>
        split at h
        · cases h
        · next name hname =>
          cases h
          have hfree := hcreate data rfl _ List.mem_cons_self
          obtain ⟨a, ha⟩ := hok _ List.mem_cons_self hfree
          have ha : bindNew now data = .ok a := ha
          have hserved : (serveCall db (now, .create data)).automations =
              db.automations.insert now a := by
            unfold serveCall createAutomation
            dsimp only
            rw [hvalid]
            dsimp only
            rw [if_neg htruthy, hname]
            dsimp only
            rw [if_neg hfree, ha]
          have htuple : (⟨name, bindNew now data⟩ : Insertion).tuple now = some (now, a) := by
            unfold Insertion.tuple
            rw [ha]
          rw [hserved, contentOf_insert, List.filter_cons_of_pos (by simpa using hfree),
            List.filterMap_cons_some htuple]
          rfl

/-! ## One transaction beside the others -/

structure Heap.Frame (i : Nat) (h h' : Heap) : Prop where
  kept : ∀ r ∈ h.rows, r.val.writer ≠ some i → r ∈ h'.rows
  foreign : ∀ r ∈ h'.rows, ∀ j ≠ i, r.val.writer = some j → r ∈ h.rows

theorem Heap.Frame.refl (i : Nat) (h : Heap) : h.Frame i h where
  kept _ hr _ := hr
  foreign _ hr _ _ _ := hr

theorem Heap.mem_commit {h : Heap} {i : Nat} {r : Row Tuple} (hr : r ∈ (h.commit i).rows) :
    r ∈ h.rows ∧ r.val.writer ≠ some i ∨
      ∃ r₀ ∈ h.rows, r₀.val.writer = some i ∧ r = { r₀ with val := { r₀.val with writer := none } }
    := by
  obtain ⟨r₀, hr₀, rfl⟩ := List.mem_map.mp hr
  by_cases hwriter : r₀.val.writer = some i
  · rw [if_pos hwriter]
    exact .inr ⟨r₀, hr₀, hwriter, rfl⟩
  · rw [if_neg hwriter]
    exact .inl ⟨hr₀, hwriter⟩

theorem Heap.frame_commit (h : Heap) (i : Nat) : h.Frame i (h.commit i) where
  kept r hr hwriter := List.mem_map.mpr ⟨r, hr, if_neg hwriter⟩
  foreign r hr j _ hwriter := by
    rcases mem_commit hr with ⟨hr, -⟩ | ⟨r₀, -, -, rfl⟩
    · exact hr
    · cases hwriter

theorem Heap.frame_rollback (h : Heap) (i : Nat) : h.Frame i (h.rollback i) where
  kept r hr hwriter := List.mem_filter.mpr ⟨hr, by simpa using hwriter⟩
  foreign r hr _ _ _ := List.mem_of_mem_filter hr

theorem Heap.frame_insert (h : Heap) (i : Nat) (now : Int) (a : Automation) :
    h.Frame i (h.insert now ⟨a, some i⟩) where
  kept r hr _ := List.mem_append_left _ hr
  foreign r hr j hj hwriter := by
    rcases List.mem_append.mp hr with hr | hr
    · exact hr
    · rw [List.mem_singleton.mp hr] at hwriter
      cases hwriter
      exact absurd rfl hj

theorem Heap.not_written_commit (h : Heap) (i : Nat) :
    ∀ r ∈ (h.commit i).rows, r.val.writer ≠ some i := by
  intro r hr
  rcases mem_commit hr with ⟨-, hwriter⟩ | ⟨r₀, -, -, rfl⟩
  · exact hwriter
  · exact nofun

theorem Heap.not_written_rollback (h : Heap) (i : Nat) :
    ∀ r ∈ (h.rollback i).rows, r.val.writer ≠ some i := by
  intro r hr
  simpa using (List.mem_filter.mp hr).2

def Heap.names (h : Heap) : List String := h.rows.map (·.val.val.name)

theorem Heap.names_commit (h : Heap) (i : Nat) : (h.commit i).names = h.names := by
  unfold names commit
  dsimp only
  rw [List.map_map]
  refine List.map_congr_left fun r _ => ?_
  dsimp only [Function.comp]
  split <;> rfl

theorem Heap.names_rollback (h : Heap) (i : Nat) :
    (h.rollback i).names.Sublist h.names := List.filter_sublist.map _

theorem Heap.eq_of_name {h : Heap} (hunique : h.names.Nodup) {r r' : Row Tuple} (hr : r ∈ h.rows)
    (hr' : r' ∈ h.rows) (hname : r.val.val.name = r'.val.val.name) : r = r' :=
  List.inj_on_of_nodup_map hunique hr hr' hname

theorem Heap.committed_commit (h : Heap) (i : Nat) :
    (h.commit i).committed.Perm
      (h.committed ++ (h.written i).map fun r => (r.createdAt, r.val)) := by
  unfold committed written commit
  dsimp only
  induction h.rows with
  | nil => exact .refl _
  | cons r rows ih =>
    rw [List.map_cons]
    by_cases hwriter : r.val.writer = some i
    · rw [if_pos hwriter, List.filter_cons_of_pos rfl,
        List.filter_cons_of_neg (l := rows) (by simp [hwriter]),
        List.filter_cons_of_pos (l := rows) (by simp [hwriter])]
      exact (ih.cons _).trans List.perm_middle.symm
    · rw [if_neg hwriter, List.filter_cons_of_neg (l := rows) (p := fun r => r.val.writer == some i)
        (by simpa using hwriter)]
      cases hnone : r.val.writer.isNone with
      | true =>
        rw [List.filter_cons_of_pos (a := r) hnone, List.filter_cons_of_pos (a := r) hnone]
        exact ih.cons _
      | false =>
        have hneg : ¬ r.val.writer.isNone = true := by rw [hnone]; exact Bool.false_ne_true
        rw [List.filter_cons_of_neg (a := r) hneg, List.filter_cons_of_neg (a := r) hneg]
        exact ih

theorem Heap.committed_rollback (h : Heap) (i : Nat) :
    (h.rollback i).committed = h.committed := by
  unfold committed rollback
  rw [Table.rows_deleteWhere, List.filter_filter]
  refine congrArg _ (List.filter_congr fun r _ => ?_)
  cases r.val.writer <;> rfl

theorem Heap.committed_insert (h : Heap) (i : Nat) (now : Int) (a : Automation) :
    Heap.committed (h.insert now ⟨a, some i⟩) = h.committed := by
  unfold committed
  rw [Table.rows_insert, List.filter_append]
  exact congrArg _ (List.append_nil _)

def Heap.Has (h : Heap) (name : String) : Prop := name ∈ h.committed.map (·.2.name)

theorem Heap.has_iff {h : Heap} {name : String} :
    h.Has name ↔ ∃ r ∈ h.rows, r.val.writer = none ∧ r.val.val.name = name := by
  unfold Heap.Has committed
  rw [List.map_map]
  constructor
  · intro hname
    obtain ⟨r, hr, rfl⟩ := List.mem_map.mp hname
    obtain ⟨hr, hnone⟩ := List.mem_filter.mp hr
    exact ⟨r, hr, Option.isNone_iff_eq_none.mp hnone, rfl⟩
  · rintro ⟨r, hr, hnone, rfl⟩
    exact List.mem_map.mpr ⟨r, List.mem_filter.mpr ⟨hr, by rw [hnone]; rfl⟩, rfl⟩

/-! ## What a call has done -/

/-- What holds of a call within its transaction, with `done` behind it. -/
structure Client.Open (h : Heap) (i : Nat) (c : Client) (done : List Insertion) : Prop where
  insertions : c.call.insertions c.now = .ok (done ++ c.todo)
  seen : ∀ ins ∈ done, ∃ r ∈ h.rows, r.val.val.name = ins.name ∧
    (r.val.writer = none ∨ r.val.writer = some i)
  wrote : ∀ r ∈ h.rows, r.val.writer = some i → r.createdAt = c.now ∧
    ∃ ins ∈ done, ins.row = .ok r.val.val
  created : (∃ data, c.call = .create data) → ∀ ins ∈ done, ∃ r ∈ h.rows,
    r.val.val.name = ins.name ∧ r.val.writer = some i

/-- A call that has answered has no transaction. -/
def Client.Sound (h : Heap) (i : Nat) (c : Client) : Prop :=
  match c.reply with
  | none => ∃ done, c.Open h i done
  | some _ => ∀ r ∈ h.rows, r.val.writer ≠ some i

theorem Client.sound_open {h : Heap} {i : Nat} {c : Client} (hnone : c.reply = none) :
    c.Sound h i ↔ ∃ done, c.Open h i done := by
  unfold Sound
  rw [hnone]

theorem Client.sound_answered {h : Heap} {i : Nat} {c : Client} (hsome : c.reply.isSome) :
    c.Sound h i ↔ ∀ r ∈ h.rows, r.val.writer ≠ some i := by
  unfold Sound
  obtain ⟨reply, hreply⟩ := Option.isSome_iff_exists.mp hsome
  rw [hreply]

theorem Client.Open.frame {h h' : Heap} {i j : Nat} {c : Client} {done : List Insertion}
    (hc : c.Open h j done) (hframe : h.Frame i h') (hj : j ≠ i) : c.Open h' j done where
  insertions := hc.insertions
  seen ins hins := by
    obtain ⟨r, hr, hname, hwriter⟩ := hc.seen ins hins
    refine ⟨r, hframe.kept r hr fun heq => ?_, hname, hwriter⟩
    rw [heq] at hwriter
    rcases hwriter with hwriter | hwriter <;> cases hwriter
    exact hj rfl
  wrote r hr hwriter := hc.wrote r (hframe.foreign r hr j hj hwriter) hwriter
  created hcreate ins hins := by
    obtain ⟨r, hr, hname, hwriter⟩ := hc.created hcreate ins hins
    refine ⟨r, hframe.kept r hr fun heq => ?_, hname, hwriter⟩
    rw [heq] at hwriter
    cases hwriter
    exact hj rfl

theorem Client.Sound.frame {h h' : Heap} {i j : Nat} {c : Client} (hc : c.Sound h j)
    (hframe : h.Frame i h') (hj : j ≠ i) : c.Sound h' j := by
  cases hreply : c.reply with
  | none =>
    obtain ⟨done, hopen⟩ := (sound_open hreply).mp hc
    exact (sound_open hreply).mpr ⟨done, hopen.frame hframe hj⟩
  | some reply =>
    have hsome : c.reply.isSome := by rw [hreply]; rfl
    exact (sound_answered hsome).mpr fun r hr hwriter =>
      (sound_answered hsome).mp hc r (hframe.foreign r hr j hj hwriter) hwriter

def Client.left (c : Client) : Nat :=
  if c.reply.isSome then 0 else 2 * c.todo.length + if c.checked then 1 else 2

theorem Client.left_open {c : Client} (hnone : c.reply = none) :
    c.left = 2 * c.todo.length + if c.checked then 1 else 2 := by
  unfold left
  rw [hnone]
  rfl

theorem Client.left_pos {c : Client} (hnone : c.reply = none) : 0 < c.left := by
  rw [left_open hnone]
  split <;> omega

/-- What a move leaves of its call: the same request, in order, its rows alone changed. -/
structure Race.Moved (s : Race) (i : Nat) (c : Client) (s' : Race) (c' : Client) : Prop where
  clients : s'.clients = s.clients.set i c'
  call : c'.call = c.call
  now : c'.now = c.now
  less : c'.left < c.left
  frame : s.heap.Frame i s'.heap
  sound : c'.Sound s'.heap i
  unique : s'.heap.names.Nodup

theorem mem_visible {h : Heap} {i : Nat} {name : String} (hv : name ∈ h.visible i) :
    ∃ r ∈ h.rows, r.val.val.name = name ∧ (r.val.writer = none ∨ r.val.writer = some i) := by
  obtain ⟨t, ht, rfl⟩ := List.mem_map.mp hv
  obtain ⟨hmem, hwriter⟩ := List.mem_filter.mp ht
  obtain ⟨r, hr, rfl⟩ := List.mem_map.mp hmem
  refine ⟨r, hr, rfl, ?_⟩
  simpa [Option.isNone_iff_eq_none] using hwriter

theorem visible_of_mem {h : Heap} {i : Nat} {name : String} {r : Row Tuple} (hr : r ∈ h.rows)
    (hname : r.val.val.name = name) (hwriter : r.val.writer = none ∨ r.val.writer = some i) :
    name ∈ h.visible i := by
  refine List.mem_map.mpr ⟨r.val, List.mem_filter.mpr ⟨List.mem_map_of_mem hr, ?_⟩, hname⟩
  simpa [Option.isNone_iff_eq_none] using hwriter

theorem Client.Open.next {h : Heap} {i : Nat} {c : Client} {done todo : List Insertion}
    {ins : Insertion} (hc : c.Open h i done) (htodo : c.todo = ins :: todo)
    (hseed : ∃ settings, c.call = .seed settings) {r : Row Tuple} (hr : r ∈ h.rows)
    (hname : r.val.val.name = ins.name) (hwriter : r.val.writer = none ∨ r.val.writer = some i) :
    Client.Open h i { c with todo } (done ++ [ins]) where
  insertions := by
    rw [List.append_assoc, List.singleton_append, ← htodo]
    exact hc.insertions
  seen ins' hins' := by
    rcases List.mem_append.mp hins' with hins' | hins'
    · exact hc.seen ins' hins'
    · rw [List.mem_singleton.mp hins']
      exact ⟨r, hr, hname, hwriter⟩
  wrote r' hr' hwriter' := by
    obtain ⟨hnow, ins', hins', hrow⟩ := hc.wrote r' hr' hwriter'
    exact ⟨hnow, ins', List.mem_append_left _ hins', hrow⟩
  created := by
    rintro ⟨data, hdata⟩
    obtain ⟨settings, hsettings⟩ := hseed
    rw [show c.call = _ from hdata] at hsettings
    cases hsettings

theorem Client.Open.insert {h : Heap} {i : Nat} {c : Client} {done todo : List Insertion}
    {ins : Insertion} {a : Automation} (hc : c.Open h i done) (htodo : c.todo = ins :: todo)
    (hrow : ins.row = .ok a) :
    Client.Open (h.insert c.now ⟨a, some i⟩) i { c with todo, checked := false }
      (done ++ [ins]) where
  insertions := by
    rw [List.append_assoc, List.singleton_append, ← htodo]
    exact hc.insertions
  seen ins' hins' := by
    rcases List.mem_append.mp hins' with hins' | hins'
    · obtain ⟨r, hr, hwriter⟩ := hc.seen ins' hins'
      exact ⟨r, List.mem_append_left _ hr, hwriter⟩
    · rw [List.mem_singleton.mp hins']
      have hname := (StoreCall.ordered hc.insertions).named ins (by simp [htodo]) a hrow
      exact ⟨_, List.mem_append_right _ List.mem_cons_self, hname, .inr rfl⟩
  wrote r hr hwriter := by
    rcases List.mem_append.mp hr with hr | hr
    · obtain ⟨hnow, ins', hins', hrow'⟩ := hc.wrote r hr hwriter
      exact ⟨hnow, ins', List.mem_append_left _ hins', hrow'⟩
    · rw [List.mem_singleton.mp hr]
      exact ⟨rfl, ins, by simp, hrow⟩
  created hcreate ins' hins' := by
    rcases List.mem_append.mp hins' with hins' | hins'
    · obtain ⟨r, hr, hwriter⟩ := hc.created hcreate ins' hins'
      exact ⟨r, List.mem_append_left _ hr, hwriter⟩
    · rw [List.mem_singleton.mp hins']
      have hname := (StoreCall.ordered hc.insertions).named ins (by simp [htodo]) a hrow
      exact ⟨_, List.mem_append_right _ List.mem_cons_self, hname, rfl⟩

theorem StoreCall.insertions_create {data : Dict} {now : Int} {all : List Insertion}
    (h : StoreCall.insertions now (.create data) = .ok all) : all.length = 1 := by
  unfold StoreCall.insertions at h
  dsimp only at h
  split at h
  · cases h
  · split at h
    · cases h
    · split at h
      · cases h
      · cases h
        rfl

theorem Race.Move.moved {s s' : Race} {i : Nat} {c : Client} (h : s.Move i c s')
    (hnone : c.reply = none) (hunique : s.heap.names.Nodup) {done : List Insertion}
    (hc : c.Open s.heap i done) : ∃ c', s.Moved i c s' c' := by
  have hkeep : ∀ c' : Client, c'.call = c.call → c'.now = c.now → c'.left < c.left →
      c'.Sound s.heap i → s.Moved i c (s.put i c') c' := fun c' hcall hnow hless hsound =>
    ⟨rfl, hcall, hnow, hless, .refl i s.heap, hsound, hunique⟩
  have hfail : ∀ e, ∃ c', s.Moved i c (s.fail i c e) c' := fun e =>
    ⟨_, rfl, rfl, rfl, Client.left_pos hnone, s.heap.frame_rollback i,
      (Client.sound_answered rfl).mpr (s.heap.not_written_rollback i),
      (s.heap.names_rollback i).nodup hunique⟩
  cases h with
  | commit htodo =>
    refine ⟨_, rfl, rfl, rfl, Client.left_pos hnone, s.heap.frame_commit i,
      (Client.sound_answered rfl).mpr (s.heap.not_written_commit i), ?_⟩
    show (s.heap.commit i).names.Nodup
    rw [Heap.names_commit]
    exact hunique
  | @skip ins todo htodo hchecked hvisible hseed =>
    obtain ⟨r, hr, hname, hwriter⟩ := mem_visible hvisible
    have hless : Client.left { c with todo } < c.left := by
      rw [Client.left_open hnone, Client.left_open (by exact hnone), htodo, List.length_cons]
      dsimp only
      omega
    exact ⟨_, hkeep { c with todo } rfl rfl hless ((Client.sound_open (by exact hnone)).mpr
      ⟨_, hc.next htodo hseed hr hname hwriter⟩)⟩
  | @refuse ins todo error htodo hchecked hvisible hcreate =>
    obtain ⟨data, hdata⟩ := hcreate
    have hinsertions := hc.insertions
    rw [hdata, htodo] at hinsertions
    have hlength := StoreCall.insertions_create hinsertions
    refine ⟨_, hkeep { c with reply := some (.ok (.error error)) } rfl rfl (Client.left_pos hnone)
      ((Client.sound_answered rfl).mpr fun r hr hwriter => ?_)⟩
    obtain ⟨-, ins', hins', -⟩ := hc.wrote r hr hwriter
    have := List.length_pos_of_mem hins'
    simp only [List.length_append, List.length_cons] at hlength
    omega
  | check htodo hchecked hvisible =>
    have hless : Client.left { c with checked := true } < c.left := by
      rw [Client.left_open hnone, Client.left_open (by exact hnone), hchecked, if_pos rfl,
        if_neg Bool.false_ne_true]
      dsimp only
      omega
    exact ⟨_, hkeep { c with checked := true } rfl rfl hless
      ((Client.sound_open (by exact hnone)).mpr
        ⟨done, hc.insertions, hc.seen, hc.wrote, hc.created⟩)⟩
  | @insert ins todo a htodo hchecked hrow hfree =>
    have hless : Client.left { c with todo, checked := false } < c.left := by
      rw [Client.left_open hnone, Client.left_open (by exact hnone), htodo, hchecked,
        List.length_cons, if_neg Bool.false_ne_true, if_pos rfl]
      dsimp only
      omega
    refine ⟨_, rfl, rfl, rfl, hless, s.heap.frame_insert i c.now a,
      (Client.sound_open (by exact hnone)).mpr ⟨_, hc.insert htodo hrow⟩, ?_⟩
    show (Heap.names (s.heap.insert c.now ⟨a, some i⟩)).Nodup
    unfold Heap.names
    rw [Table.rows_insert, List.map_append, List.nodup_append]
    refine ⟨hunique, List.nodup_singleton _, ?_⟩
    rintro name hname _ hmem rfl
    obtain ⟨r, hr, rfl⟩ := List.mem_map.mp hname
    exact hfree r hr (List.mem_singleton.mp hmem)
  | raise htodo hchecked hrow => exact hfail _
  | conflict htodo hchecked hrow hr hname hwriter => exact hfail _

/-! ## Every reachable state -/

structure Race.Inv (s : Race) : Prop where
  unique : s.heap.names.Nodup
  sound : ∀ i c, s.clients[i]? = some c → Client.Sound s.heap i c
  owned : ∀ r ∈ s.heap.rows, ∀ j, r.val.writer = some j → ∃ c, s.clients[j]? = some c

theorem Client.sound_start {h : Heap} (hnot : ∀ r ∈ h.rows, ∀ j, r.val.writer ≠ some j)
    (now : Int) (call : StoreCall) (i : Nat) : (Client.start now call).Sound h i := by
  unfold Client.start
  cases htodo : call.insertions now with
  | error reply =>
    dsimp only
    exact fun r hr => hnot r hr i
  | ok todo =>
    have hopen : Client.Open h i { call, now, todo } [] :=
      { insertions := htodo
        seen := fun _ hins => absurd hins List.not_mem_nil
        wrote := fun r hr hwriter => absurd hwriter (hnot r hr i)
        created := fun _ _ hins => absurd hins List.not_mem_nil }
    exact ⟨[], hopen⟩

theorem Race.inv_start {db : Db} (hunique : (db.automations.vals.map (·.name)).Nodup)
    (calls : List (Int × StoreCall)) : (Race.start db calls).Inv := by
  have hnone : ∀ r ∈ (Race.start db calls).heap.rows, r.val.writer = none := by
    intro r hr
    obtain ⟨r₀, -, rfl⟩ := List.mem_map.mp hr
    rfl
  have hnot : ∀ r ∈ (Race.start db calls).heap.rows, ∀ j, r.val.writer ≠ some j := by
    intro r hr j hj
    rw [hnone r hr] at hj
    cases hj
  refine ⟨?_, fun i c hc => ?_, fun r hr j hj => absurd hj (hnot r hr j)⟩
  · unfold Table.vals at hunique
    rw [List.map_map] at hunique
    unfold Heap.names Race.start Heap.ofTable
    rw [List.map_map]
    exact hunique
  · obtain ⟨call, -, rfl⟩ := List.mem_map.mp (List.mem_of_getElem? hc)
    exact Client.sound_start hnot call.1 call.2 i

theorem Race.Moved.inv {s s' : Race} {i : Nat} {c c' : Client} (h : s.Moved i c s' c')
    (hs : s.Inv) (hi : s.clients[i]? = some c) : s'.Inv where
  unique := h.unique
  sound j d hd := by
    have hlt := (List.getElem?_eq_some_iff.mp hi).1
    rw [h.clients] at hd
    by_cases hj : i = j
    · subst hj
      rw [List.getElem?_set_self hlt] at hd
      cases hd
      exact h.sound
    · rw [List.getElem?_set_ne hj] at hd
      exact (hs.sound j d hd).frame h.frame (Ne.symm hj)
  owned r hr j hj := by
    have hlength : s'.clients.length = s.clients.length := by rw [h.clients, List.length_set]
    have hlt : j < s.clients.length := by
      by_cases hji : j = i
      · rw [hji]
        exact (List.getElem?_eq_some_iff.mp hi).1
      · obtain ⟨d, hd⟩ := hs.owned r (h.frame.foreign r hr j hji hj) j hj
        exact (List.getElem?_eq_some_iff.mp hd).1
    exact ⟨_, List.getElem?_eq_getElem (hlength ▸ hlt)⟩

theorem Race.Inv.step {s : Race} (hs : s.Inv) (i : Nat) : (s.step i).Inv := by
  cases hc : s.clients[i]? with
  | none =>
    rw [Race.step_of_none hc]
    exact hs
  | some c =>
    rcases Race.step_cases hc with ⟨-, hsame⟩ | ⟨-, -, hsame⟩ | ⟨hnone, hmove⟩
    · rw [hsame]
      exact hs
    · rw [hsame]
      exact hs
    · obtain ⟨done, hopen⟩ := (Client.sound_open hnone).mp (hs.sound i c hc)
      obtain ⟨c', hmoved⟩ := hmove.moved hnone hs.unique hopen
      exact hmoved.inv hs hc

/-! ## The serial order -/

def Client.succeeded (c : Client) : Bool :=
  match c.reply with
  | some (.ok (.ok _)) => true
  | _ => false

theorem Client.succeeded_of_open {c : Client} (h : c.reply = none) : c.succeeded = false := by
  unfold succeeded
  rw [h]

def Client.key (c : Client) : Int × StoreCall := (c.now, c.call)

theorem Race.Move.quiet {s s' : Race} {i : Nat} {c : Client} (h : s.Move i c s')
    (hnone : c.reply = none) : c.todo = [] ∧ s' = s.commit i c ∨
      ∃ c', s'.clients = s.clients.set i c' ∧ c'.key = c.key ∧ c'.succeeded = false ∧
        s'.log = s.log ∧ s'.heap.committed = s.heap.committed := by
  cases h with
  | commit htodo => exact .inl ⟨htodo, rfl⟩
  | skip => exact .inr ⟨_, rfl, rfl, Client.succeeded_of_open hnone, rfl, rfl⟩
  | refuse => exact .inr ⟨_, rfl, rfl, rfl, rfl, rfl⟩
  | check => exact .inr ⟨_, rfl, rfl, Client.succeeded_of_open hnone, rfl, rfl⟩
  | insert => exact .inr ⟨_, rfl, rfl, Client.succeeded_of_open hnone, rfl,
      s.heap.committed_insert i _ _⟩
  | raise => exact .inr ⟨_, rfl, rfl, rfl, rfl, s.heap.committed_rollback i⟩
  | conflict => exact .inr ⟨_, rfl, rfl, rfl, rfl, s.heap.committed_rollback i⟩

section Places

variable {clients : List Client} {i : Nat} {c : Client} (c' : Client)

theorem keys_set (hi : clients[i]? = some c) (hkey : c'.key = c.key) :
    (clients.set i c').map (·.key) = clients.map (·.key) := by
  obtain ⟨hlt, rfl⟩ := List.getElem?_eq_some_iff.mp hi
  have hlt' : i < (clients.map (·.key)).length := by rwa [List.length_map]
  have hself : clients[i].key = (clients.map (·.key))[i] := (List.getElem_map _).symm
  rw [List.map_set, hkey, hself, List.set_getElem_self]

theorem succeeded_set (hi : clients[i]? = some c) (hc : c.succeeded = false) :
    ((clients.set i c').filter (·.succeeded)).Perm
      ([c'].filter (·.succeeded) ++ clients.filter (·.succeeded)) := by
  obtain ⟨hlt, rfl⟩ := List.getElem?_eq_some_iff.mp hi
  have hbefore := (List.getElem_cons_eraseIdx_perm hlt).filter (·.succeeded)
  rw [List.filter_cons_of_neg (by simp [hc])] at hbefore
  refine ((List.set_perm_cons_eraseIdx hlt c').filter _).trans ?_
  rw [← List.singleton_append, List.filter_append]
  exact hbefore.append_left _

end Places

theorem has_of_perm {h : Heap} {db : Db} (hrows : h.committed.Perm (contentOf db.automations))
    (name : String) : name ∈ db.automations.vals.map (·.name) ↔ h.Has name := by
  rw [names_eq_contentOf]
  exact (hrows.map _).mem_iff.symm

theorem Client.Open.written {h : Heap} {i : Nat} {c : Client} {done : List Insertion}
    (hc : c.Open h i done) {ins : Insertion} (hins : ins ∈ done)
    (hfree : ∀ r ∈ h.rows, r.val.writer = none → r.val.val.name ≠ ins.name) :
    ∃ r ∈ h.rows, r.val.writer = some i ∧ r.createdAt = c.now ∧ ins.row = .ok r.val.val := by
  obtain ⟨r, hr, hname, hwriter⟩ := hc.seen ins hins
  have hwriter := hwriter.resolve_left fun hnone => hfree r hr hnone hname
  obtain ⟨hnow, ins', hins', hrow⟩ := hc.wrote r hr hwriter
  have hordered := StoreCall.ordered hc.insertions
  have hname' := hordered.named ins' (List.mem_append_left _ hins') _ hrow
  have heq : ins' = ins := hordered.eq_of_name (List.mem_append_left _ hins')
    (List.mem_append_left _ hins) (hname'.symm.trans hname)
  exact ⟨r, hr, hwriter, hnow, heq ▸ hrow⟩

/-- The commit does at once what the call does on its own, at that moment. -/
theorem Client.Open.commit {h : Heap} {i : Nat} {c : Client} {done : List Insertion} {db : Db}
    (hc : c.Open h i done) (htodo : c.todo = []) (hunique : h.names.Nodup)
    (hrows : h.committed.Perm (contentOf db.automations)) :
    (h.commit i).committed.Perm (contentOf (serveCall db c.key).automations) := by
  have hnames := has_of_perm hrows
  have hall : c.call.insertions c.now = .ok done := by
    have hinsertions := hc.insertions
    rwa [htodo, List.append_nil] at hinsertions
  have hordered := StoreCall.ordered hall
  have hfresh : ∀ ins ∈ done, ins.name ∉ db.automations.vals.map (·.name) →
      ∃ r ∈ h.rows, r.val.writer = some i ∧ r.createdAt = c.now ∧ ins.row = .ok r.val.val :=
    fun ins hins hfree => hc.written hins fun r hr hnone hname =>
      hfree ((hnames ins.name).mpr (Heap.has_iff.mpr ⟨r, hr, hnone, hname⟩))
  have hcreate : ∀ data, c.call = .create data →
      ∀ ins ∈ done, ins.name ∉ db.automations.vals.map (·.name) := by
    intro data hdata ins hins hmem
    obtain ⟨r, hr, hname, hwriter⟩ := hc.created ⟨data, hdata⟩ ins hins
    obtain ⟨r', hr', hnone, hname'⟩ := Heap.has_iff.mp ((hnames _).mp hmem)
    rw [Heap.eq_of_name hunique hr hr' (hname.trans hname'.symm), hnone] at hwriter
    cases hwriter
  rw [Client.key, contentOf_serveCall hall
    (fun ins hins hfree => (hfresh ins hins hfree).elim fun r hr => ⟨_, hr.2.2.2⟩) hcreate]
  refine h.committed_commit i |>.trans (hrows.append ?_)
  apply (List.perm_ext_iff_of_nodup ?_ ?_).mpr
  · rintro ⟨now, a⟩
    rw [List.mem_map, List.mem_filterMap]
    constructor
    · rintro ⟨w, hw, heq⟩
      cases heq
      obtain ⟨r, hr, rfl⟩ := List.mem_map.mp hw
      obtain ⟨hr, hwriter⟩ := List.mem_filter.mp hr
      have hwriter : r.val.writer = some i := by simpa using hwriter
      obtain ⟨hnow, ins, hins, hrow⟩ := hc.wrote r hr hwriter
      refine ⟨ins, List.mem_filter.mpr ⟨hins, decide_eq_true fun hmem => ?_⟩, ?_⟩
      · obtain ⟨r', hr', hnone, hname⟩ := Heap.has_iff.mp ((hnames _).mp hmem)
        rw [← hordered.named ins hins _ hrow] at hname
        rw [Heap.eq_of_name hunique hr' hr hname, hwriter] at hnone
        cases hnone
      · unfold Insertion.tuple
        rw [hrow, hnow]
    · rintro ⟨ins, hins, htuple⟩
      obtain ⟨hins, hfree⟩ := List.mem_filter.mp hins
      obtain ⟨r, hr, hwriter, hnow, hrow⟩ := hfresh ins hins (of_decide_eq_true hfree)
      unfold Insertion.tuple at htuple
      rw [hrow] at htuple
      cases htuple
      exact ⟨_, List.mem_map.mpr ⟨r, List.mem_filter.mpr ⟨hr, by simpa using hwriter⟩, rfl⟩,
        by rw [hnow]⟩
  · refine List.Nodup.of_map (fun x => x.2.name) ?_
    unfold Heap.written
    rw [List.map_map, List.map_map]
    exact (List.filter_sublist.map _).nodup hunique
  · refine List.pairwise_filterMap.mpr ((hordered.ranked.filter _).imp_of_mem ?_)
    intro ins ins' hins hins' hlt x hx y hy heq
    have hname : ∀ ins ∈ done, ∀ x, ins.tuple c.now = some x → x.2.name = ins.name := by
      intro ins hins x hx
      unfold Insertion.tuple at hx
      split at hx
      · next a ha =>
        cases hx
        exact hordered.named ins hins a ha
      · cases hx
    rw [← hname ins (List.mem_of_mem_filter hins) x hx,
      ← hname ins' (List.mem_of_mem_filter hins') y hy, heq] at hlt
    exact Nat.lt_irrefl _ hlt

theorem Client.succeeded_start (now : Int) (call : StoreCall) :
    (Client.start now call).succeeded = false := by
  unfold start
  cases call with
  | seed settings => rfl
  | create data =>
    unfold StoreCall.insertions
    dsimp only
    split
    · next reply hreply =>
      split at hreply
      · cases hreply
        rfl
      · split at hreply
        · cases hreply
          rfl
        · split at hreply
          · cases hreply
            rfl
          · cases hreply
    · rfl

/-- What was committed is what the calls that succeeded do one after the other. -/
structure Race.Serial (db : Db) (calls : List (Int × StoreCall)) (s : Race) : Prop where
  inv : s.Inv
  calls : s.clients.map (·.key) = calls
  log : s.log.Perm ((s.clients.filter (·.succeeded)).map (·.key))
  rows : s.heap.committed.Perm (contentOf (s.log.foldl serveCall db).automations)

theorem Race.serial_start {db : Db} (hunique : (db.automations.vals.map (·.name)).Nodup)
    (calls : List (Int × StoreCall)) : (Race.start db calls).Serial db calls where
  inv := inv_start hunique calls
  calls := by
    unfold Race.start
    rw [List.map_map]
    refine (List.map_congr_left fun call _ => ?_).trans (List.map_id _)
    dsimp only [Function.comp]
    unfold Client.start
    split <;> rfl
  log := by
    have hnone : (Race.start db calls).clients.filter (·.succeeded) = [] := by
      refine List.filter_eq_nil_iff.mpr fun c hc => ?_
      obtain ⟨call, -, rfl⟩ := List.mem_map.mp hc
      rw [Client.succeeded_start]
      exact Bool.false_ne_true
    rw [hnone]
    exact .refl _
  rows := by
    unfold Heap.committed Race.start Heap.ofTable contentOf
    dsimp only [List.foldl_nil]
    rw [List.filter_map, List.map_map, List.filter_eq_self.mpr (by exact fun r _ => rfl)]
    exact .refl _

theorem Race.Serial.step {db : Db} {calls : List (Int × StoreCall)} {s : Race}
    (hs : s.Serial db calls) (i : Nat) : (s.step i).Serial db calls := by
  have hinv := hs.inv.step i
  cases hc : s.clients[i]? with
  | none =>
    rw [Race.step_of_none hc]
    exact hs
  | some c =>
    rcases Race.step_cases hc with ⟨-, hsame⟩ | ⟨-, -, hsame⟩ | ⟨hnone, hmove⟩
    · rw [hsame]
      exact hs
    · rw [hsame]
      exact hs
    · have hbefore := Client.succeeded_of_open hnone
      rcases hmove.quiet hnone with ⟨htodo, hcommit⟩ | ⟨c', hclients, hkey, hc', hlog, hrows⟩
      · rw [hcommit] at hinv ⊢
        obtain ⟨done, hopen⟩ := (Client.sound_open hnone).mp (hs.inv.sound i c hc)
        let answer := c.call.answer (s.heap.written i)
        have hset := succeeded_set { c with reply := some (.ok (.ok answer)) } hc hbefore
        have hkeys := keys_set { c with reply := some (.ok (.ok answer)) } hc rfl
        refine ⟨hinv, hkeys.trans hs.calls, ?_, ?_⟩
        · refine .trans ?_ (hset.map (·.key)).symm
          rw [show (s.commit i c).log = s.log ++ [c.key] from rfl]
          exact (List.perm_append_comm).trans (hs.log.cons _)
        · rw [show (s.commit i c).log = s.log ++ [c.key] from rfl, List.foldl_append]
          exact hopen.commit htodo hs.inv.unique hs.rows
      · refine ⟨hinv, ?_, ?_, ?_⟩
        · rw [hclients, keys_set c' hc hkey]
          exact hs.calls
        · have hset := succeeded_set c' hc hbefore
          rw [List.filter_cons_of_neg (by simp [hc'])] at hset
          rw [hlog, hclients]
          exact hs.log.trans (hset.map _).symm
        · rw [hlog, hrows]
          exact hs.rows

/-- **Concurrent seedings and creates are serializable.** Under every interleaving, the committed
rows are those of the calls that returned rows, served one after the other in the order of their
commits; the others leave nothing, and no name is there twice. -/
theorem race_serializable {db : Db} (hunique : (db.automations.vals.map (·.name)).Nodup)
    (calls : List (Int × StoreCall)) (is : List Nat) :
    let s := run Race.step (Race.start db calls) is
    s.clients.map (·.key) = calls ∧
      s.log.Perm ((s.clients.filter (·.succeeded)).map (·.key)) ∧
      s.heap.committed.Perm (contentOf (s.log.foldl serveCall db).automations) ∧
      s.heap.names.Nodup := by
  have hserial := run_invariant (I := Race.Serial db calls) (fun s i hs => hs.step i) is
    (Race.serial_start hunique calls)
  exact ⟨hserial.calls, hserial.log, hserial.rows, hserial.inv.unique⟩

def twoSeedings : List (Int × StoreCall) :=
  let settings : Settings := { alertWebhookUrl := some "https://hooks.example/alerts" }
  [(10, .seed settings), (11, .seed settings)]

/-- Both find no row; the second waits for the first and raises when that one commits. -/
def seedingSchedule : List Nat := [0, 1, 0, 1, 0, 0, 0, 0, 1, 0, 1, 1]

theorem race_serializable_two :
    let s := run Race.step (Race.start .empty twoSeedings) seedingSchedule
    s.clients.map (·.succeeded) = [true, false] ∧
      s.heap.committed.Perm (contentOf (s.log.foldl serveCall .empty).automations) :=
  ⟨by decide, (@race_serializable .empty List.nodup_nil twoSeedings seedingSchedule).2.2.1⟩

end Taskowl
