import Mathlib.Data.List.Nodup

/-!
# Tables with serial ids

A `Table α` is what an autoincrement table holds: rows in id order, each with
the time it was written, and a next id above all of them. Rows are inserted at
the end, unconditionally or `ON CONFLICT DO NOTHING` on a nullable unique
key, and deleted or rewritten in place.
-/

namespace Taskowl.Lib

structure Row (α : Type) where
  id : Nat
  createdAt : Int
  val : α
  deriving DecidableEq, Repr

structure Table (α : Type) where
  rows : List (Row α)
  nextId : Nat
  sorted : rows.Pairwise (·.id < ·.id)
  bound : ∀ r ∈ rows, r.id < nextId

namespace Table

variable {α κ : Type}

def empty : Table α := ⟨[], 1, .nil, nofun⟩

def vals (t : Table α) : List α := t.rows.map (·.val)

def insert (t : Table α) (now : Int) (v : α) : Table α where
  rows := t.rows ++ [⟨t.nextId, now, v⟩]
  nextId := t.nextId + 1
  sorted := by
    rw [List.pairwise_append]
    refine ⟨t.sorted, List.pairwise_singleton .., fun r hr s hs => ?_⟩
    rw [List.mem_singleton] at hs
    subst hs
    exact t.bound r hr
  bound r hr := by
    rcases List.mem_append.mp hr with hr | hr
    · have := t.bound r hr; omega
    · rw [List.mem_singleton] at hr; subst hr; exact Nat.lt_succ_self _

def repeated (now : Int) (v : α) : Nat → Table α
  | 0 => empty
  | n + 1 => (repeated now v n).insert now v

/-- `DELETE ... WHERE p`. -/
def deleteWhere (t : Table α) (p : Row α → Bool) : Table α where
  rows := t.rows.filter fun r => !p r
  nextId := t.nextId
  sorted := t.sorted.filter _
  bound r hr := t.bound r (List.mem_of_mem_filter hr)

/-- `UPDATE ... WHERE id = i`. -/
def modify (t : Table α) (i : Nat) (f : α → α) : Table α where
  rows := t.rows.map fun r => if r.id = i then { r with val := f r.val } else r
  nextId := t.nextId
  sorted := by
    rw [List.pairwise_map]
    refine t.sorted.imp fun {a b} h => ?_
    split <;> split <;> exact h
  bound r hr := by
    obtain ⟨s, hs, rfl⟩ := List.mem_map.mp hr
    split <;> exact t.bound s hs

/-- `INSERT ... ON CONFLICT (key) DO NOTHING`; a NULL key never conflicts. -/
def insertOnConflict [DecidableEq κ] (key : α → Option κ) (t : Table α) (now : Int) (v : α) :
    Table α :=
  if (key v).isSome ∧ key v ∈ t.vals.map key then t else t.insert now v

/-- `SELECT ... WHERE id = i`. -/
def get? (t : Table α) (i : Nat) : Option (Row α) := t.rows.find? (·.id == i)

theorem ext {s t : Table α} (h : s.rows = t.rows) (hn : s.nextId = t.nextId) : s = t := by
  cases s; cases t; simp_all

@[simp] theorem rows_empty : (empty : Table α).rows = [] := rfl

@[simp] theorem rows_insert (t : Table α) (now : Int) (v : α) :
    (t.insert now v).rows = t.rows ++ [⟨t.nextId, now, v⟩] := rfl

@[simp] theorem vals_insert (t : Table α) (now : Int) (v : α) :
    (t.insert now v).vals = t.vals ++ [v] := by simp [vals]

@[simp] theorem rows_deleteWhere (t : Table α) (p : Row α → Bool) :
    (t.deleteWhere p).rows = t.rows.filter fun r => !p r := rfl

@[simp] theorem length_repeated (now : Int) (v : α) (n : Nat) :
    (repeated now v n).rows.length = n := by
  induction n with
  | zero => rfl
  | succ n ih => simp [repeated, ih]

theorem mem_repeated {now : Int} {v : α} {n : Nat} {r : Row α} (h : r ∈ (repeated now v n).rows) :
    r.createdAt = now ∧ r.val = v := by
  induction n with
  | zero => cases h
  | succ n ih =>
    rcases List.mem_append.mp h with h | h
    · exact ih h
    · rw [List.mem_singleton.mp h]
      exact ⟨rfl, rfl⟩

theorem rows_deleteWhere_lt (t : Table α) (time : Row α → Int) (cutoff : Int) :
    (t.deleteWhere fun r => decide (time r < cutoff)).rows =
      t.rows.filter fun r => decide (cutoff ≤ time r) := by
  rw [rows_deleteWhere]
  apply List.filter_congr
  intro r _
  rw [← decide_not]
  exact decide_eq_decide.mpr Int.not_lt

theorem nodup_insertOnConflict [DecidableEq κ] {key : α → Option κ} {t : Table α} {now : Int}
    {v : α} (hsome : (key v).isSome) (h : t.vals.Nodup) :
    (t.insertOnConflict key now v).vals.Nodup := by
  unfold insertOnConflict
  split
  · exact h
  · next hc =>
    rw [vals_insert]
    refine List.nodup_append.mpr ⟨h, List.nodup_singleton v, fun u hu w hw heq => hc ?_⟩
    rw [List.mem_singleton] at hw
    exact ⟨hsome, List.mem_map.mpr ⟨u, hu, by rw [heq, hw]⟩⟩

theorem rows_insertOnConflict [DecidableEq κ] (key : α → Option κ) (t : Table α) (now : Int)
    (v : α) : (t.insertOnConflict key now v).rows = t.rows ∨
      (t.insertOnConflict key now v).rows = t.rows ++ [⟨t.nextId, now, v⟩] := by
  unfold insertOnConflict
  split
  · exact .inl rfl
  · exact .inr rfl

theorem mem_vals_insertOnConflict [DecidableEq κ] {key : α → Option κ} {t : Table α} {now : Int}
    {u v : α} (h : u ∈ (t.insertOnConflict key now v).vals) : u ∈ t.vals ∨ u = v := by
  unfold insertOnConflict at h
  split at h
  · exact .inl h
  · rwa [vals_insert, List.mem_append, List.mem_singleton] at h

/-- With an injective key the insertion is that of a set. -/
theorem mem_insertOnConflict [DecidableEq κ] {key : α → Option κ} {t : Table α} {now : Int}
    {v : α} (hinj : ∀ u ∈ t.vals, key u = key v → u = v) {u : α} :
    u ∈ (t.insertOnConflict key now v).vals ↔ u ∈ t.vals ∨ u = v := by
  unfold insertOnConflict
  split
  · next hc =>
    obtain ⟨w, hw, hkey⟩ := List.mem_map.mp hc.2
    refine ⟨.inl, fun h => h.elim id fun heq => ?_⟩
    rw [heq, ← hinj w hw hkey]
    exact hw
  · rw [vals_insert, List.mem_append, List.mem_singleton]

theorem nodup_ids (t : Table α) {scan : List (Row α)} (h : scan.Perm t.rows) :
    (scan.map (·.id)).Nodup := by
  rw [(h.map _).nodup_iff, List.Nodup, List.pairwise_map]
  exact t.sorted.imp fun h => Nat.ne_of_lt h

theorem eq_of_id_eq (t : Table α) {r s : Row α} (hr : r ∈ t.rows) (hs : s ∈ t.rows)
    (h : r.id = s.id) : r = s :=
  List.inj_on_of_nodup_map (t.nodup_ids (.refl _)) hr hs h

theorem filter_id_eq {rows : List (Row α)} (hnodup : (rows.map (·.id)).Nodup) {r : Row α}
    (hr : r ∈ rows) : rows.filter (·.id == r.id) = [r] := by
  induction rows with
  | nil => cases hr
  | cons a rows ih =>
    obtain ⟨hnotin, hnodup⟩ := List.nodup_cons.mp hnodup
    rcases List.mem_cons.mp hr with rfl | hr
    · rw [List.filter_cons_of_pos (by simp), List.filter_eq_nil_iff.mpr]
      intro b hb heq
      exact hnotin (List.mem_map.mpr ⟨b, hb, by simpa using heq⟩)
    · have hne : a.id ≠ r.id := fun heq => hnotin (List.mem_map.mpr ⟨r, hr, heq.symm⟩)
      rw [List.filter_cons_of_neg (by simpa using hne)]
      exact ih hnodup hr

theorem get?_eq_some {t : Table α} {i : Nat} {r : Row α} :
    t.get? i = some r ↔ r ∈ t.rows ∧ r.id = i := by
  constructor
  · intro h
    exact ⟨List.mem_of_find?_eq_some h, by simpa using List.find?_some h⟩
  · rintro ⟨hr, rfl⟩
    cases hf : t.get? r.id with
    | none => simpa using List.find?_eq_none.mp hf r hr
    | some s =>
      have hid : s.id = r.id := by simpa using List.find?_some hf
      rw [t.eq_of_id_eq (List.mem_of_find?_eq_some hf) hr hid]

end Table

end Taskowl.Lib
